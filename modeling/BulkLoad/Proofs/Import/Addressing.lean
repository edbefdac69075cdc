import BulkLoad.Proofs.Api.Targets
import BulkLoad.Proofs.Import.Order
import BulkLoad.Proofs.Service.Swap

/-!
# Where requests arrive

The paths of an import are built of names that the settings give, of the scratch table, the session
and the parts that it names itself. What an import names itself has an underscore, so it is no dot
segment. A request whose path has a dot segment has it from the settings, and just these requests
arrive at another path than the one that was built (`dots_of_run`). The settings are not checked for
such names : with the session `..` a request to create it can arrive as one that deletes another
session (`deleted_instead`).
-/

namespace BulkLoad

namespace Import

open Program (Trace Keeps)
open Api (IsDot)
open Api.Endpoint (pieces)

variable {ε α : Type} {client : Api.Client} {s : Settings} {schema : Schema}
  {rows : List (Except RowFault Row)}

/-! ## Names -/

/-- A name that the settings give. -/
def Settings.Gives (s : Settings) (name : String) : Prop :=
  name = s.database ∨ name = s.table ∨ s.session = some name

/-- A name is no dot segment, unless the settings give it. -/
def Plain (s : Settings) (name : String) : Prop :=
  IsDot name → s.Gives name

theorem plain_of_underscore {name : String} (h : '_' ∈ name.toList) : Plain s name := by
  rintro (rfl | rfl) <;> exact absurd h (by decide)

@[simp] theorem plain_database : Plain s s.database :=
  fun _ => .inl rfl

@[simp] theorem plain_table : Plain s s.table :=
  fun _ => .inr (.inl rfl)

@[simp] theorem plain_loadTable (session : String) : Plain s (s.loadTable session) := by
  unfold Settings.loadTable
  split
  · exact plain_table
  · exact plain_of_underscore (by simp)

@[simp] theorem plain_sessionName (now : Calendar.Instant) (id : UInt32) :
    Plain s (sessionName now id) :=
  plain_of_underscore (by simp [sessionName])

@[simp] theorem plain_partName (stem : String) (number : Nat) :
    Plain s (Part.name stem number) :=
  plain_of_underscore (by simp [Part.name])

/-! ## Parts -/

/-- The name of a part. -/
def IsPartName (name : String) : Prop :=
  ∃ stem number, name = Part.name stem number

/-- A question that starts no upload but of a part under its name. -/
def Ships (q : Question) : Prop :=
  ∀ session file, q = .startUpload session file → IsPartName file.name

/-- A program that could upload into any session just as well uploads into none. -/
theorem keeps_ships {p : Work ε α} {R : α → Prop}
    (h : ∀ session, p.Keeps (Writing session) R) : p.Keeps Ships R := by
  refine ((h "").and (h "_")).mono (fun q hq session file he => ?_) fun _ ha => ha.1
  have hone := hq.1.1.2 session file he
  have htwo := hq.2.1.2 session file he
  exact absurd (hone.symm.trans htwo) (by decide)

section Parts

variable {part : Part.Builder}

theorem keeps_onPart_ships {work : Part.Work α} {R : α → Prop}
    (h : work.Keeps (fun _ => True) R) :
    ((onPart work).attempt : Work ε (Except Part.Fault α)).Keeps Ships
      fun r => ∀ a, r = .ok a → R a :=
  Keeps.attempt (Keeps.embed (h.mono (fun _ _ _ _ he => by cases he) fun _ ha => ha))

theorem keeps_create {directory : Option String} {stem : String} {number : Nat} :
    (Part.create directory stem number).Keeps (fun _ => True) fun part => IsPartName part.name := by
  refine Keeps.bind (Keeps.query trivial) fun r _ => ?_
  cases r with
  | ok path => exact Keeps.pure ⟨stem, number, rfl⟩
  | error fault => exact Keeps.throw _

theorem keeps_remove {path : String} : (Part.remove path).Keeps (fun _ => True) fun _ => True :=
  ⟨trivial, fun _ => trivial⟩

theorem keeps_add {record : Packed} :
    (part.add record).Keeps (fun _ => True) fun after => after.name = part.name := by
  refine Keeps.bind (Keeps.query trivial) fun r _ => ?_
  cases r with
  | ok size => exact Keeps.pure rfl
  | error detail => exact Keeps.bind keeps_remove fun _ _ => Keeps.throw _

theorem keeps_close : part.finish.Keeps (fun _ => True)
    fun file? => ∀ file ∈ file?, file.name = part.name := by
  refine Keeps.bind (Keeps.query trivial) fun r _ => ?_
  cases r with
  | error fault => exact Keeps.bind keeps_remove fun _ _ => Keeps.throw _
  | ok size =>
    dsimp only
    split
    · exact Keeps.bind keeps_remove fun _ _ => Keeps.pure (by simp)
    · exact Keeps.pure (by simp)

end Parts

namespace Scheduler

variable {scheduler : Scheduler} {file : Part.File}

theorem ships_launch (h : IsPartName file.name) :
    (launch scheduler file : Work ε Scheduler).Keeps Ships fun _ => True := by
  refine Keeps.bind (Keeps.query fun session other he => ?_) fun _ _ => Keeps.pure trivial
  cases he
  exact h

theorem ships_submitAfter (h : IsPartName file.name) :
    ∀ {outstanding : List Started} {summary : Summary},
      (submitAfter scheduler file summary outstanding :
        Work ε (Except Error Unit × Scheduler)).Keeps Ships fun _ => True
  | [], _ => Keeps.bind (ships_launch h) fun _ _ => Keeps.pure trivial
  | oldest :: rest, summary => by
    unfold submitAfter
    split
    · exact Keeps.bind (ships_launch h) fun _ _ => Keeps.pure trivial
    · refine Keeps.bind (keeps_ships fun _ => keeps_await) fun r _ => ?_
      split
      · exact ships_submitAfter h
      · exact Keeps.bind (keeps_ships fun _ => keeps_removeFile) fun _ _ =>
          Keeps.bind (keeps_ships fun _ => keeps_drain) fun _ _ => Keeps.pure trivial

end Scheduler

namespace Feed

variable {plan : Plan} {feed : Feed} {part : Part.Builder}

/-- The part that is open, if there is one, has the name of a part. -/
def Named (feed : Feed) : Prop :=
  ∀ part ∈ feed.part, IsPartName part.name

theorem ships_handOver (h : IsPartName part.name) : (handOver feed part).Keeps Ships Named := by
  refine Keeps.bind (keeps_onPart_ships keeps_close) fun r hr => ?_
  split
  · exact Keeps.throw _
  · exact Keeps.pure (by simp [Named])
  next file =>
    have hfile : IsPartName file.name := hr _ rfl file rfl ▸ h
    refine Keeps.bind (Scheduler.ships_submitAfter hfile) fun r _ => ?_
    split
    · exact Keeps.pure (by simp [Named])
    · exact Keeps.throw _

theorem ships_openPart (h : feed.Named) :
    (openPart plan feed).Keeps Ships fun after => IsPartName after.1.name := by
  unfold openPart
  split
  next part hp => exact Keeps.pure (h part hp)
  · refine Keeps.bind (keeps_onPart_ships keeps_create) fun r hr => ?_
    split
    next part => exact Keeps.pure (hr part rfl)
    · exact Keeps.throw _

theorem ships_putRecord {record : Packed} (h : feed.Named) :
    (putRecord plan feed record).Keeps Ships Named := by
  refine Keeps.bind (ships_openPart h) fun opened ho =>
    Keeps.bind (keeps_onPart_ships keeps_add) fun r hr => ?_
  split
  · exact Keeps.throw _
  next part =>
    have hpart : IsPartName part.name := hr part rfl ▸ ho
    split
    · exact ships_handOver hpart
    · refine Keeps.pure fun other ho => ?_
      cases ho
      exact hpart

theorem ships_takeRow {row : Row} (h : feed.Named) :
    (takeRow plan feed row).Keeps Ships Named := by
  unfold takeRow
  simp only
  split
  · exact Keeps.bind (keeps_ships fun _ => keeps_discard) fun _ _ => trivial
  · split
    · exact Keeps.throw _
    · exact Keeps.pure h
  · exact ships_putRecord h

theorem ships_takeRows : ∀ {rows : List (Except RowFault Row)} {feed : Feed}, feed.Named →
    (takeRows plan feed rows).Keeps Ships fun _ => True
  | [], feed, h => by
    unfold takeRows
    split
    next part hp => exact (ships_handOver (h part hp)).mono (fun _ hq => hq) fun _ _ => trivial
    · exact Keeps.pure trivial
  | .error _ :: _, _, _ => Keeps.throw _
  | .ok row :: _, _, h =>
    Keeps.bind (Keeps.query fun _ _ he => by cases he) fun _ _ =>
      Keeps.bind (Keeps.require _ _) fun _ _ =>
        Keeps.bind (ships_takeRow h) fun _ ha => ships_takeRows ha

theorem ships_upload {rows : List (Except RowFault Row)} (h : feed.Named) :
    (upload plan feed rows).Keeps Ships fun _ => True := by
  refine Keeps.bind (Keeps.attempt (ships_takeRows h)) fun r _ => ?_
  split
  · exact Keeps.bind (keeps_ships fun _ => Scheduler.keeps_finish) fun _ _ => Keeps.pure trivial
  · exact Keeps.bind (keeps_ships fun _ => keeps_discard) fun _ _ =>
      Keeps.bind (keeps_ships fun _ => Scheduler.keeps_drain) fun _ _ => Keeps.throw _

end Feed

theorem ships_uploadRows {session : String} {writers : Record.WriterSet} :
    (uploadRows s session writers rows).Keeps Ships fun _ => True :=
  Keeps.bind (keeps_ships fun _ => keeps_chooseStem) fun _ _ =>
    Feed.ships_upload (by simp [Feed.Named])

/-! ## Requests -/

/-- The names of a request are plain. -/
def PlainTo (s : Settings) (request : Api.Request) : Prop :=
  ∀ name ∈ request.endpoint.names, Plain s name

/-- The names in requests, and of uploads, are plain. -/
def Addresses (s : Settings) (q : Question) : Prop :=
  (∀ request, q = .api (.send request) → PlainTo s request) ∧
    ∀ session file, q = .startUpload session file → PlainTo s (Upload.sending session file)

/-- What makes only requests with a property that makes their names plain. -/
theorem addresses_of_makes {p : Work ε α} {P : Api.Request → Prop} {R : α → Prop}
    (hP : ∀ request, P request → PlainTo s request) (h : p.Keeps (Makes P) R) :
    p.Keeps (Addresses s) R := by
  refine h.mono (fun q hq => ⟨fun request hr => hP request (hq.2 request hr), ?_⟩) fun _ ha => ha
  rintro session file rfl
  exact hq.1.elim

theorem addresses_of_plain {p : Work ε α} {R : α → Prop} (h : p.Keeps (Makes (PlainTo s)) R) :
    p.Keeps (Addresses s) R :=
  addresses_of_makes (fun _ hr => hr) h

theorem plain_chooseSession {P : Api.Request → Prop} :
    (chooseSession s).Keeps (Makes P) (Plain s) := by
  unfold chooseSession
  split
  next name hs => exact Keeps.pure fun _ => .inr (.inr hs)
  · exact Keeps.bind (keeps_ask trivial (by simp)) fun now _ =>
      Keeps.bind (keeps_ask trivial (by simp)) fun id _ => Keeps.pure (plain_sessionName now id)

theorem addresses_uploadRows {session : String} {writers : Record.WriterSet}
    (h : Plain s session) :
    (uploadRows s session writers rows).Keeps (Addresses s) fun _ => True := by
  refine (keeps_uploadRows.and ships_uploadRows).mono (fun q hq => ⟨fun request hr => ?_, ?_⟩)
    fun _ ha => ha.1
  · exact absurd hr (hq.1.1 _)
  · intro other file hs
    obtain rfl := hq.1.2 other file hs
    obtain ⟨stem, number, hname⟩ := hq.2 other file hs
    simp [PlainTo, Upload.sending, Api.Endpoint.names, h, hname]

theorem addresses_load :
    (load client s schema rows).Keeps (Addresses s) fun r => Plain s r.2.session := by
  refine Keeps.bind (Keeps.ofExcept fun _ _ => trivial) fun writers _ =>
    Keeps.bind (addresses_of_plain plain_chooseSession) fun session hsession => ?_
  have hlook : PlainTo s (lookAt session) := by
    simp [PlainTo, lookAt, Api.Endpoint.names, hsession]
  have hlist : PlainTo s ⟨.get, .tableList s.database, .empty⟩ := by
    simp [PlainTo, Api.Endpoint.names]
  have hdatabase : PlainTo s ⟨.post, .databaseCreate s.database, .empty⟩ := by
    simp [PlainTo, Api.Endpoint.names]
  have htable : PlainTo s ⟨.post, .tableCreate s.database (s.loadTable session), .empty⟩ := by
    simp [PlainTo, Api.Endpoint.names]
  have hcreate : PlainTo s (creating session s.database (s.loadTable session)) := by
    simp [PlainTo, creating, Api.Endpoint.names, hsession]
  refine Keeps.bind (addresses_of_plain (makes_swapWanted hlook hlist)) fun swap _ =>
    Keeps.bind (addresses_of_plain (makes_prepare hlist hdatabase htable)) fun _ _ => ?_
  have hupload : (uploadInto s (SessionDriver.ofSettings client s) (s.loadTable session) writers
      rows { session, database := s.database, table := s.table }).Keeps (Addresses s)
        fun report => Plain s report.session := by
    refine Keeps.bind (addresses_of_plain (makes_start hcreate hlook)) fun takes _ => ?_
    split
    · exact Keeps.bind (addresses_uploadRows hsession) fun _ _ => Keeps.pure hsession
    · exact Keeps.pure hsession
  exact Keeps.bind hupload fun _ hr => Keeps.pure hr

theorem addresses_commit {report : Report} (h : Plain s report.session) :
    (commit s (SessionDriver.ofSettings client s) report).Keeps (Addresses s)
      fun after => Plain s after.session := by
  refine Keeps.bind (addresses_of_makes (fun request hr => ?_) SessionDriver.keeps_complete)
    fun _ _ => Keeps.pure h
  rcases hr with rfl | rfl | rfl | rfl <;>
    simp [PlainTo, lookAt, SessionDriver.freezing, SessionDriver.performing,
      SessionDriver.committing, Api.Endpoint.names, h]

theorem addresses_putInPlace {session : String} {swap : Bool} :
    (putInPlace client s (s.loadTable session) swap).Keeps (Addresses s) fun _ => True := by
  have hswap : PlainTo s (swapping s.database (s.loadTable session) s.table) := by
    simp [PlainTo, swapping, Api.Endpoint.names]
  unfold putInPlace
  split
  · exact addresses_of_plain (keeps_calling (Api.Client.keeps_perform hswap))
  · exact Keeps.pure trivial

theorem addresses_cleanUp {d : SessionDriver} {session : String} (h : Plain s session) :
    (cleanUp s d session).Keeps (Addresses s) fun _ => True := by
  refine addresses_of_makes (fun request hr => ?_) keeps_cleanUp
  rw [hr]
  simp [PlainTo, deleting, Api.Endpoint.names, h]

theorem addresses_conclude {swap : Bool} {report : Report} (h : Plain s report.session) :
    (conclude client s swap report).Keeps (Addresses s) fun _ => True :=
  Keeps.bind (addresses_commit h) fun _ hafter => Keeps.bind addresses_putInPlace fun _ _ =>
    Keeps.bind (addresses_cleanUp hafter) fun _ _ => Keeps.pure trivial

theorem addresses_run : (run client s schema rows).Keeps (Addresses s) fun _ => True :=
  Keeps.bind (Keeps.query ⟨by simp, by simp⟩) fun _ _ =>
    Keeps.bind addresses_load fun _ hr => Keeps.bind (addresses_conclude hr) fun _ _ =>
      Keeps.bind (Keeps.query ⟨by simp, by simp⟩) fun _ _ => Keeps.pure trivial

variable {log before : List Happening} {outcome : Option (Outcome Error Report)}
  {request : Api.Request}

/-- The names in the paths of an import, its uploads included, are plain. -/
theorem plainTo_of_sent (h : Run client (run client s schema rows) log outcome)
    (hs : Sent before request log) : PlainTo s request := by
  obtain ⟨⟨files, scene, hp⟩, ht⟩ := h
  have hall := (addresses_run.of_trace ht).1
  rcases hs.cases hp with ⟨session, file, ticket, rfl, hm⟩ | ⟨reply, after, hown⟩
  · exact (hall _ (hs.own_prefix.subset hm)).2 session file rfl
  · refine (hall ⟨.api (.send request), reply⟩ ?_).1 request rfl
    rw [hown]
    simp

/-- A dot segment in the path of a request is a name that the settings give. The request arrives at
the path that was built just when there is none. -/
theorem dots_of_run (h : Run client (run client s schema rows) log outcome)
    (hs : Sent before request log) :
    (∀ piece ∈ pieces request.endpoint.path, IsDot piece →
      piece = s.database ∨ piece = s.table ∨ s.session = some piece) ∧
    (request.endpoint.target = request.endpoint.path ↔
      ∀ piece ∈ pieces request.endpoint.path, ¬ IsDot piece) := by
  refine ⟨fun piece hpiece hdot => ?_, request.endpoint.target_eq_path_iff⟩
  exact plainTo_of_sent h hs piece (Api.Endpoint.mem_names_of_isDot hpiece hdot) hdot

/-- Settings with a session that is a dot segment. -/
def straying : Settings where
  database := "delete"
  table := "events"
  session := some ".."

/-- An import with these settings at a service that accepts what is posted. -/
def strayed : List Happening × Option (Outcome Error Report) :=
  play SessionDriver.careful.client (attended SessionDriver.careful.client)
    (run SessionDriver.careful.client straying ⟨[⟨"time", .long⟩]⟩ [.ok [.long 1]])
    ⟨[], fun _ => none⟩
    { service := { routes := [⟨"POST *", [{}]⟩] }, moment := SessionDriver.epoch }

theorem run_strayed : Run SessionDriver.careful.client (run SessionDriver.careful.client straying
    ⟨[⟨"time", .long⟩]⟩ [.ok [.long 1]]) strayed.1 strayed.2 :=
  run_of_play _ _ _ _

theorem sent_strayed :
    Sent (strayed.1.take 3) (creating ".." "delete" "events") strayed.1 :=
  sent_of_request? (by decide +kernel)

/-- The request that creates the session has a dot segment, which is the session. -/
theorem dots_strayed :
    Sent (strayed.1.take 3) (creating ".." "delete" "events") strayed.1 ∧
    (∀ piece ∈ pieces (creating ".." "delete" "events").endpoint.path, IsDot piece →
      piece = straying.database ∨ piece = straying.table ∨ straying.session = some piece) ∧
    ((creating ".." "delete" "events").endpoint.target =
        (creating ".." "delete" "events").endpoint.path ↔
      ∀ piece ∈ pieces (creating ".." "delete" "events").endpoint.path, ¬ IsDot piece) :=
  ⟨sent_strayed, dots_of_run run_strayed sent_strayed⟩

/-- The settings are accepted, but the path that is built to create the session has a dot segment.
What the service sees is a request to delete another session. -/
theorem deleted_instead :
    straying.check = .ok () ∧
    Run SessionDriver.careful.client (run SessionDriver.careful.client straying
      ⟨[⟨"time", .long⟩]⟩ [.ok [.long 1]]) strayed.1 strayed.2 ∧
    Sent (strayed.1.take 3) (creating ".." "delete" "events") strayed.1 ∧
    ".." ∈ pieces (creating ".." "delete" "events").endpoint.path ∧
    Rehearsal.Received.ofRequest (creating ".." "delete" "events") [] =
      Rehearsal.Received.ofRequest (deleting "events") [] := by
  refine ⟨rfl, run_strayed, sent_strayed, ?_, by decide +kernel⟩
  rw [Api.Endpoint.pieces_path]
  decide +kernel

end Import

end BulkLoad
