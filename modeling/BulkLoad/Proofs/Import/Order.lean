import BulkLoad.Proofs.Import.Player
import BulkLoad.Proofs.Import.Stages

/-!
# The order of requests

Whatever the service answers, and however the uploads go on beside the import, requests are sent in
an order that loses nothing (`Ordered`) : parts go into a session that takes them for the right
table, the session is only taken on when all parts have arrived, and the loaded table is only put in
its place when the session is committed.
-/

namespace BulkLoad.Import

open Program (Trace)

variable {client : Api.Client} {s : Settings} {schema : Schema}
  {rows : List (Except RowFault Row)} {log : List Happening}
  {outcome : Option (Outcome Error Report)}

/-- The request that happens, if one does. -/
def Happening.request? : Happening → Option Api.Request
  | .own ⟨.api (.send request), _⟩ | .beside _ _ ⟨.api (.send request), _⟩ => some request
  | _ => none

/-- A request is sent during a run, after what has happened before. -/
def Sent (before : List Happening) (request : Api.Request) (log : List Happening) : Prop :=
  ∃ happening after, log = before ++ happening :: after ∧ happening.request? = some request

/-- The service has told that a session is committed. -/
def Committed (events : List Event) : Prop :=
  ∃ session looked shown, (⟨.api (.send (lookAt session)), looked⟩ : Event) ∈ events ∧
    seen session looked = some shown ∧ shown.status = .committed

/-- The service has accepted the part of an upload. -/
def Arrived (session : String) (upload : Started) (log : List Happening) : Prop :=
  ∃ content reply body,
    .beside upload.ticket content
      ⟨.api (.send (Upload.sending session upload.file)), reply⟩ ∈ log ∧
    Api.Client.settle (Upload.sending session upload.file) reply = .ok body

/-- In which order an import sends its requests. -/
structure Ordered (s : Settings) (log : List Happening)
    (outcome : Option (Outcome Error Report)) : Prop where
  /-- A part is only sent into a session that was shown to take parts for the table. -/
  opened : ∀ before request session part, Sent before request log →
    request.endpoint = .partUpload session part →
      Opened session s.database (s.loadTable session) (own before)
  /-- What was loaded is only taken on when each upload that the run starts was accepted, and this
  was told. -/
  uploaded : ∀ before request, Sent before request log → request.endpoint.Settles →
    ∀ session upload, (session, upload) ∈ launches (own log) →
      Arrived session upload before ∧ succeeded upload ∈ own before
  committed : ∀ before request, Sent before request log → request.endpoint.Finishes →
    Committed (own before)
  replacing : ∀ before request database source destination, Sent before request log →
    request.endpoint = .tableRename database source destination → s.mode = .replace
  /-- A table is renamed by one call at most, and not after the session was deleted. -/
  once : ∃ earlier later session call result, own log = earlier ++ call.map ofCall ++ later ∧
    Api.Exchange (swapping s.database (s.loadTable session) s.table) call result ∧
    (∀ request reply, (⟨.api (.send request), reply⟩ : Event) ∈ earlier →
      ¬ request.endpoint.Finishes) ∧
    ∀ request reply, (⟨.api (.send request), reply⟩ : Event) ∈ later →
      ∀ database source destination, request.endpoint ≠ .tableRename database source destination
  /-- An import that deletes its session does not fail. -/
  kept : ∀ before request session, Sent before request log →
    request.endpoint = .sessionDelete session → outcome = none ∨ ∃ r, outcome = some (.done r)

/-! ## What is sent by whom -/

theorem Sent.own_prefix {before : List Happening} {request : Api.Request}
    (h : Sent before request log) : own before <+: own log := by
  obtain ⟨happening, after, rfl, -⟩ := h
  rw [own_append]
  exact List.prefix_append _ _

/-- What is sent is sent by an upload that was started before, or by the import itself. -/
theorem Sent.cases {files : Files} {scene : Scene} {before : List Happening}
    {request : Api.Request} (h : Sent before request log)
    (hp : Path client ⟨[], files⟩ log scene) :
    (∃ session file ticket, request = Upload.sending session file ∧
      (⟨.startUpload session file, ticket⟩ : Event) ∈ own before) ∨
    ∃ reply after, own log = own before ++ ⟨.api (.send request), reply⟩ :: after := by
  obtain ⟨happening, after, rfl, hr⟩ := h
  unfold Happening.request? at hr
  split at hr
  next sent reply =>
    obtain rfl : sent = request := by simpa using hr
    exact Or.inr ⟨reply, own after, by simp [own]⟩
  next ticket content sent reply =>
    obtain rfl : sent = request := by simpa using hr
    obtain ⟨session, file, hs, hm, -⟩ := hp.of_sent
    exact Or.inl ⟨session, file, ticket, hs, hm⟩
  next => simp at hr

/-- Something that is not in the first of two parts comes after it. -/
theorem append_of_append {α : Type} {first rest before after : List α} {a : α}
    (h : first ++ rest = before ++ a :: after) (ha : a ∉ first) :
    ∃ more, before = first ++ more ∧ rest = more ++ a :: after := by
  rcases List.append_eq_append_iff.1 h with ⟨more, rfl, hr⟩ | ⟨more, rfl, hr⟩
  · exact ⟨more, rfl, hr⟩
  · rcases more with - | ⟨b, more⟩
    · exact ⟨[], by simp, by simpa using hr.symm⟩
    · obtain rfl : a = b := by
        have := congrArg List.head? hr
        simpa using this
      exact absurd (by simp) ha

/-! ## The requests of the stages -/

section Stages

variable {session : String} {preparing feeding rest before after driving last : List Event}
  {call : List (Program.Event Api.Answer)} {request : Api.Request} {reply : Api.Reply}

theorem Loading.prepares_of_mem (h : Loading s session preparing feeding)
    (hm : (⟨.api (.send request), reply⟩ : Event) ∈ preparing ++ feeding) :
    request.endpoint.Prepares := by
  rcases List.mem_append.1 hm with hm | hm
  · exact (h.prepared _ hm).2 request rfl
  · exact absurd rfl ((h.fed _ hm).1 _)

/-- Uploads are only started while rows are fed in. -/
theorem Loading.launches_eq (h : Loading s session preparing feeding) :
    launches (preparing ++ feeding) = launches feeding := by
  rw [launches_append, launches_of_aside fun e he => (h.prepared e he).1, List.nil_append]

/-- The requests that take a session on. -/
theorem Concluded.of_mem_driving (h : Concluded s session outcome driving call last)
    (hm : (⟨.api (.send request), reply⟩ : Event) ∈ driving) :
    ¬ request.endpoint.Uploads ∧ ¬ request.endpoint.Finishes := by
  rcases (h.driven _ hm).2 request rfl with rfl | rfl | rfl | rfl <;>
    simp [lookAt, SessionDriver.freezing, SessionDriver.performing, SessionDriver.committing]

/-- The requests that finish an import, in replace mode and in any. -/
theorem Concluded.of_mem_finishing (h : Concluded s session outcome driving call last)
    (hm : (⟨.api (.send request), reply⟩ : Event) ∈ call.map ofCall ++ last) :
    (call ≠ [] ∧ request = swapping s.database (s.loadTable session) s.table) ∨
      last ≠ [] ∧ request = deleting session := by
  rcases List.mem_append.1 hm with hm | hm
  · obtain ⟨result, hx⟩ := h.swapped
    obtain ⟨⟨q, a⟩, hq, he⟩ := List.mem_map.1 hm
    obtain ⟨rfl, -⟩ : q = .send request ∧ _ := by simpa [ofCall] using he
    exact Or.inl ⟨List.ne_nil_of_mem hq, hx.request_eq hq⟩
  · exact Or.inr ⟨List.ne_nil_of_mem hm, (h.deleted _ hm).2 request rfl⟩

theorem Concluded.not_uploads (h : Concluded s session outcome driving call last)
    (hm : (⟨.api (.send request), reply⟩ : Event) ∈ driving ++ call.map ofCall ++ last) :
    ¬ request.endpoint.Uploads := by
  rw [List.append_assoc] at hm
  rcases List.mem_append.1 hm with hm | hm
  · exact (h.of_mem_driving hm).1
  · rcases h.of_mem_finishing hm with ⟨-, rfl⟩ | ⟨-, rfl⟩ <;> simp [swapping, deleting]

theorem Concluded.launches_eq (h : Concluded s session outcome driving call last) :
    launches (driving ++ call.map ofCall ++ last) = [] := by
  refine launches_of_aside ?_
  simp only [List.forall_mem_append]
  refine ⟨⟨fun e he => (h.driven e he).1, fun e he => ?_⟩, fun e he => (h.deleted e he).1⟩
  obtain ⟨e, -, rfl⟩ := List.mem_map.1 he
  trivial

/-! ## The requests of an import -/

namespace Staged

variable (h : Staged s session outcome preparing feeding driving call last)
include h

theorem launches_eq :
    launches (preparing ++ feeding ++ (driving ++ call.map ofCall ++ last)) =
      launches feeding := by
  have hc : launches (driving ++ call.map ofCall ++ last) = [] := by
    rcases h.concluding with hnil | ⟨-, hc⟩
    · rw [hnil, launches_nil]
    · exact hc.launches_eq
  rw [launches_append, h.loading.launches_eq, hc, List.append_nil]

/-- The import itself sends no parts. -/
theorem not_uploads
    (hm : (⟨.api (.send request), reply⟩ : Event) ∈
      preparing ++ feeding ++ (driving ++ call.map ofCall ++ last)) :
    ¬ request.endpoint.Uploads := by
  rcases List.mem_append.1 hm with hm | hm
  · exact (h.loading.prepares_of_mem hm).1
  · rcases h.concluding with hnil | ⟨-, hc⟩
    · simp [hnil] at hm
    · exact hc.not_uploads hm

/-- An upload that was started goes into a session that was opened before. -/
theorem opened_of_start {other : String} {upload : Started}
    (hp : before <+: preparing ++ feeding ++ (driving ++ call.map ofCall ++ last))
    (hm : (⟨.startUpload other upload.file, upload.ticket⟩ : Event) ∈ before) :
    Opened other s.database (s.loadTable other) before := by
  have hf : (⟨.startUpload other upload.file, upload.ticket⟩ : Event) ∈ feeding := by
    have hl := mem_launches.2 (hp.subset hm)
    rw [h.launches_eq] at hl
    exact mem_launches.1 hl
  obtain rfl : other = session := (h.loading.fed _ hf).2 other upload.file rfl
  obtain ⟨later, hlater⟩ := hp
  obtain ⟨first, after, rfl⟩ := List.append_of_mem hm
  have hsplit : preparing ++ (feeding ++ (driving ++ call.map ofCall ++ last)) =
      first ++ ⟨.startUpload other upload.file, upload.ticket⟩ :: (after ++ later) := by
    simpa using hlater.symm
  obtain ⟨more, rfl, -⟩ := append_of_append hsplit fun hm => (h.loading.prepared _ hm).1
  have ho := (h.loading.opened (List.ne_nil_of_mem hf)).append []
    (more ++ ⟨.startUpload other upload.file, upload.ticket⟩ :: after)
  simpa using ho

/-- What takes on what was loaded comes when the import was told of all uploads. -/
theorem settled (hn : request.endpoint.Settles)
    (he : preparing ++ feeding ++ (driving ++ call.map ofCall ++ last) =
      before ++ ⟨.api (.send request), reply⟩ :: after) :
    (∀ launch ∈ launches feeding, succeeded launch.2 ∈ feeding) ∧
      Concluded s session outcome driving call last ∧ ∃ more,
        before = preparing ++ feeding ++ more ∧
        driving ++ call.map ofCall ++ last = more ++ ⟨.api (.send request), reply⟩ :: after := by
  obtain ⟨more, hb, hr⟩ := append_of_append he fun hm => (h.loading.prepares_of_mem hm).2 hn
  rcases h.concluding with hnil | ⟨hsucceeded, hc⟩
  · simp [hnil] at hr
  · exact ⟨hsucceeded, hc, more, hb, hr⟩

/-- What finishes an import comes after its session was driven to its end. -/
theorem finished (hf : request.endpoint.Finishes)
    (he : preparing ++ feeding ++ (driving ++ call.map ofCall ++ last) =
      before ++ ⟨.api (.send request), reply⟩ :: after) :
    Concluded s session outcome driving call last ∧ Committed before ∧
      (⟨.api (.send request), reply⟩ : Event) ∈ call.map ofCall ++ last := by
  obtain ⟨-, hc, more, rfl, hr⟩ := h.settled (Api.Endpoint.settles_of_finishes hf) he
  rw [List.append_assoc] at hr
  obtain ⟨more, rfl, hrest⟩ := append_of_append hr fun hm => (hc.of_mem_driving hm).2 hf
  have hm : (⟨.api (.send request), reply⟩ : Event) ∈ call.map ofCall ++ last := by
    rw [hrest]
    simp
  have hne : call ≠ [] ∨ last ≠ [] :=
    (hc.of_mem_finishing hm).imp And.left And.left
  obtain ⟨looked, shown, hlooked, hshown⟩ := hc.committed (hne.imp_right Or.inl)
  refine ⟨hc, ⟨session, looked, shown, ?_, hshown⟩, hm⟩
  exact List.mem_append_right _ (List.mem_append_left _ hlooked)

/-- A table is renamed by one call at most, before the session is deleted. -/
theorem swapped_once : ∃ earlier later call' result,
    preparing ++ feeding ++ (driving ++ call.map ofCall ++ last) =
      earlier ++ call'.map ofCall ++ later ∧
    Api.Exchange (swapping s.database (s.loadTable session) s.table) call' result ∧
    (∀ request reply, (⟨.api (.send request), reply⟩ : Event) ∈ earlier →
      ¬ request.endpoint.Finishes) ∧
    ∀ request reply, (⟨.api (.send request), reply⟩ : Event) ∈ later →
      ∀ database source destination,
        request.endpoint ≠ .tableRename database source destination := by
  have quiet (request : Api.Request) (reply : Api.Reply)
      (hm : (⟨.api (.send request), reply⟩ : Event) ∈ preparing ++ feeding) :
      ¬ request.endpoint.Finishes := fun hf =>
    (h.loading.prepares_of_mem hm).2 (Api.Endpoint.settles_of_finishes hf)
  rcases h.concluding with hnil | ⟨-, hc⟩
  · exact ⟨preparing ++ feeding, [], [], none, by simp [hnil], .unsent, quiet, by simp⟩
  · obtain ⟨result, hx⟩ := hc.swapped
    refine ⟨preparing ++ feeding ++ driving, last, call, result, by simp, hx, ?_, ?_⟩
    · intro request reply hm
      rcases List.mem_append.1 hm with hm | hm
      · exact quiet request reply hm
      · exact (hc.of_mem_driving hm).2
    · intro request reply hm database source destination
      rw [(hc.deleted _ hm).2 request rfl]
      simp [deleting]

end Staged

end Stages

/-! ## All requests -/

/-- The requests of an import are sent in order, whatever they are answered and however its uploads
go on beside it. -/
theorem ordered_of_run (h : Run client (run client s schema rows) log outcome) :
    Ordered s log outcome := by
  obtain ⟨⟨files, scene, hp⟩, ht⟩ := h
  obtain ⟨session, preparing, feeding, driving, call, last, hown, hst⟩ := staged_of_run ht
  -- Requests of uploads neither settle nor finish anything, so these are the import's own.
  have ask {before : List Happening} {request : Api.Request} (hs : Sent before request log)
      (hn : request.endpoint.Settles) :
      ∃ reply after, preparing ++ feeding ++ (driving ++ call.map ofCall ++ last) =
        own before ++ ⟨.api (.send request), reply⟩ :: after := by
    rcases hs.cases hp with ⟨other, file, ticket, rfl, -⟩ | ⟨reply, after, he⟩
    · exact absurd hn (by simp [Upload.sending])
    · exact ⟨reply, after, hown ▸ he⟩
  have finish {before : List Happening} {request : Api.Request} (hs : Sent before request log)
      (hf : request.endpoint.Finishes) :
      Concluded s session outcome driving call last ∧ Committed (own before) ∧
        ∃ reply, (⟨.api (.send request), reply⟩ : Event) ∈ call.map ofCall ++ last := by
    obtain ⟨reply, after, he⟩ := ask hs (Api.Endpoint.settles_of_finishes hf)
    obtain ⟨hc, hcommitted, hm⟩ := hst.finished hf he
    exact ⟨hc, hcommitted, reply, hm⟩
  refine ⟨?opened, ?uploaded, ?committed, ?replacing, ?once, ?kept⟩
  case opened =>
    intro before request name part hs he
    have hprefix := hs.own_prefix
    rw [hown] at hprefix
    rcases hs.cases hp with ⟨other, file, ticket, rfl, hm⟩ | ⟨reply, after, hr⟩
    · obtain ⟨rfl, -⟩ : other = name ∧ _ := by simpa [Upload.sending] using he
      have hstart := mem_launches.2 (show
        (⟨.startUpload other (Started.mk ticket file).file, ticket⟩ : Event) ∈ own before from hm)
      exact hst.opened_of_start hprefix (mem_launches.1 hstart)
    · have hm : (⟨.api (.send request), reply⟩ : Event) ∈
          preparing ++ feeding ++ (driving ++ call.map ofCall ++ last) := by
        rw [← hown, hr]
        simp
      exact absurd (by simp [he]) (hst.not_uploads hm)
  case uploaded =>
    intro before request hs hn name upload hm
    obtain ⟨reply, after, he⟩ := ask hs hn
    obtain ⟨hsucceeded, -, more, hb, -⟩ := hst.settled hn he
    have hstart : (name, upload) ∈ launches feeding := by
      rw [hown, hst.launches_eq] at hm
      exact hm
    have hs' : succeeded upload ∈ own before := by
      rw [hb]
      exact List.mem_append_left _ (List.mem_append_right _ (hsucceeded _ hstart))
    obtain ⟨happening, after, rfl, -⟩ := hs
    obtain ⟨first, rest, rfl⟩ := List.append_of_mem (mem_own.1 hs')
    rw [List.append_assoc, List.cons_append] at hp hm
    obtain ⟨content, reply, body, hbeside, hsettle⟩ := hp.exists_accepted hm
    exact ⟨⟨content, reply, body, List.mem_append_left _ hbeside, hsettle⟩, hs'⟩
  case committed =>
    exact fun before request hs hf => (finish hs hf).2.1
  case replacing =>
    intro before request database source destination hs he
    obtain ⟨hc, -, reply, hm⟩ := finish hs (by simp [he])
    rcases hc.of_mem_finishing hm with ⟨hne, -⟩ | ⟨-, rfl⟩
    · exact hc.replacing hne
    · simp [deleting] at he
  case once =>
    obtain ⟨earlier, later, call', result, he, hx⟩ := hst.swapped_once
    exact ⟨earlier, later, session, call', result, hown.trans he, hx⟩
  case kept =>
    intro before request name hs he
    obtain ⟨hc, -, reply, hm⟩ := finish hs (by simp [he])
    rcases hc.of_mem_finishing hm with ⟨-, rfl⟩ | ⟨hne, -⟩
    · simp [swapping] at he
    · exact hc.kept hne

/-! ## A replacement -/

/-- A service at which a scratch table is loaded and its session committed. -/
def replacing : Rehearsal.World where
  service :=
    { routes := [⟨"GET *", List.replicate 4 (SessionDriver.told "t_s" "uploading") ++
        [SessionDriver.told "t_s" "ready", SessionDriver.told "t_s" "ready",
          SessionDriver.told "t_s" "committed"]⟩, ⟨"P*", [{}]⟩] }
  moment := SessionDriver.epoch

/-- Settings that have one upload at a time. -/
def replacement : Settings where
  database := "d"
  table := "t"
  session := some "s"
  mode := .replace
  partSize := 1
  uploads := 1
  partStem := some "p"

/-- Two rows are imported at that service, each in a part of its own. -/
def replaced : List Happening × Option (Outcome Error Report) :=
  play SessionDriver.careful.client (attended SessionDriver.careful.client)
    (run SessionDriver.careful.client replacement ⟨[⟨"time", .long⟩]⟩
      [.ok [.long 1], .ok [.long 2]]) ⟨[], fun _ => none⟩ replacing

/-- All requests are sent, up to the last. -/
theorem ordered_replaced :
    (replaced.1.filterMap Happening.request?).map Api.Request.endpoint =
      [.sessionShow "s", .databaseCreate "d", .tableCreate "d" "t_s", .sessionCreate "s" "d" "t_s",
        .sessionShow "s", .partUpload "s" "p_00000001", .partUpload "s" "p_00000002",
        .sessionShow "s", .sessionShow "s", .sessionFreeze "s", .sessionPerform "s",
        .sessionShow "s", .sessionShow "s", .sessionCommit "s", .sessionShow "s", .sessionShow "s",
        .tableRename "d" "t_s" "t", .sessionDelete "s"] ∧
      Ordered replacement replaced.1 replaced.2 :=
  ⟨by decide +kernel, ordered_of_run (run_of_play _ _ _ _)⟩

end BulkLoad.Import
