import BulkLoad.Import.Run
import BulkLoad.Proofs.Import.Course
import BulkLoad.Proofs.Import.Scene

/-!
# The requests of an import

Which requests the stages of an import can make, whatever they are answered : none of them but the
feed works on files or uploads, and none before the session is driven changes what was loaded.
-/

namespace BulkLoad

namespace Api.Endpoint

/-- The operation loads something. -/
@[simp] def Uploads : Endpoint → Prop
  | .partUpload .. => True
  | _ => False

/-- The operation takes on what was loaded. -/
@[simp] def Settles : Endpoint → Prop
  | .sessionFreeze _ | .sessionPerform _ | .sessionCommit _ | .sessionDelete _
  | .tableRename .. => True
  | _ => False

/-- The operation puts what was loaded in its place, or forgets how it was loaded. -/
@[simp] def Finishes : Endpoint → Prop
  | .sessionDelete _ | .tableRename .. => True
  | _ => False

theorem settles_of_finishes {e : Endpoint} (h : e.Finishes) : e.Settles := by
  cases e <;> simp_all

/-- The operation prepares for a load. -/
@[simp] def Prepares (e : Endpoint) : Prop :=
  ¬ e.Uploads ∧ ¬ e.Settles

end Api.Endpoint

namespace Import

open Program (Keeps)
open Api (Sends)
open Api.Client (keeps_perform keeps_fetch)

variable {ε α : Type} {P : Api.Request → Prop} {R : α → Prop}

/-! ## Calls -/

/-- A question that makes a request with a property, or none, and is not about files or uploads. -/
def Makes (P : Api.Request → Prop) (q : Question) : Prop :=
  q.isAside ∧ ∀ request, q = .api (.send request) → P request

theorem Makes.of_sends {q : Api.Question} (h : Sends P q) : Makes P (.api q) :=
  ⟨trivial, fun _ hr => h _ (by simpa using hr)⟩

section Calls

variable {call : Api.Call α}

theorem keeps_calling (h : call.Keeps (Sends P) R) : (calling call).Keeps (Makes P) R :=
  Keeps.mapError (Keeps.embed (h.mono (fun _ hq => Makes.of_sends hq) fun _ ha => ha))

theorem keeps_attempting (h : call.Keeps (Sends P) R) :
    (attempting call : Work ε (Except Api.Error α)).Keeps (Makes P) fun _ => True :=
  (Keeps.attempt (Keeps.embed (h.mono (fun _ hq => Makes.of_sends hq) fun _ ha => ha))).mono
    (fun _ hq => hq) fun _ _ => trivial

theorem keeps_callingOrConflict (h : call.Keeps (Sends P) R) :
    (callingOrConflict call).Keeps (Makes P) fun _ => True :=
  Keeps.bind (keeps_attempting h) fun _ _ => Keeps.ofExcept fun _ _ => trivial

theorem keeps_callingOrMissing (h : call.Keeps (Sends P) R) :
    (callingOrMissing call).Keeps (Makes P) fun _ => True :=
  Keeps.bind (keeps_attempting h) fun _ _ => Keeps.ofExcept fun _ _ => trivial

/-- A question that makes no request. -/
theorem keeps_ask {q : Question} (hq : q.isAside) (hn : ∀ call, q ≠ .api call) :
    (ask q : Work ε (Answer q)).Keeps (Makes P) fun _ => True :=
  Keeps.query ⟨hq, fun _ hr => absurd hr (hn _)⟩

end Calls

/-! ## Before the session is driven -/

variable {client : Api.Client} {s : Settings} {session loadTable name : String}
  {d : SessionDriver} {priority : Int}

/-- A question that does no more than to prepare for a load. -/
def Preparing : Question → Prop :=
  Makes fun request => request.endpoint.Prepares

theorem keeps_look (h : P (lookAt name)) : (d.look name).Keeps (Makes P) fun _ => True :=
  keeps_calling (keeps_fetch h)

theorem makes_start {database table : String}
    (hc : P ⟨.post, .sessionCreate name database table, .empty⟩) (hl : P (lookAt name)) :
    (d.start name database table).Keeps (Makes P) fun _ => True := by
  refine Keeps.bind (keeps_callingOrConflict (keeps_perform hc))
    fun _ _ => Keeps.bind (keeps_look hl) fun shown _ =>
      Keeps.bind (Keeps.require _ _) fun _ _ => ?_
  split
  · exact Keeps.pure trivial
  · exact Keeps.throw _
  · exact Keeps.pure trivial

theorem keeps_start {database table : String} :
    (d.start name database table).Keeps Preparing fun _ => True :=
  makes_start (by simp) (by simp [lookAt])

/-- Nothing is requested to choose a session. -/
theorem makes_chooseSession : (chooseSession s).Keeps (Makes P)
    fun name => s.session.getD name = name := by
  unfold chooseSession
  split
  next hs => exact Keeps.pure (by simp [hs])
  next hs =>
    exact Keeps.bind (keeps_ask trivial (by simp)) fun _ _ =>
      Keeps.bind (keeps_ask trivial (by simp)) fun _ _ => Keeps.pure (by simp [hs])

theorem keeps_chooseSession : (chooseSession s).Keeps Preparing fun _ => True :=
  makes_chooseSession.mono (fun _ hq => hq) fun _ _ => trivial

/-- A swap is only wanted in replace mode. -/
theorem makes_swapWanted (hl : P (lookAt session)) (ht : P ⟨.get, .tableList s.database, .empty⟩) :
    (swapWanted client s session loadTable).Keeps (Makes P)
      fun swap => swap = true → s.mode = .replace := by
  unfold swapWanted
  split
  next hm =>
    have h : (swapPending client s session loadTable).Keeps (Makes P) fun _ => True := by
      refine Keeps.bind (keeps_callingOrMissing (keeps_fetch hl)) fun existing _ => ?_
      split
      · exact Keeps.bind (keeps_calling (keeps_fetch ht)) fun _ _ => Keeps.pure trivial
      · exact Keeps.pure trivial
    exact h.mono (fun _ hq => hq) fun _ _ _ => hm
  next => exact Keeps.pure (by simp)

theorem keeps_swapWanted :
    (swapWanted client s session loadTable).Keeps Preparing
      fun swap => swap = true → s.mode = .replace :=
  makes_swapWanted (by simp [lookAt]) (by simp)

theorem makes_prepareDestination (hl : P ⟨.get, .tableList s.database, .empty⟩)
    (hd : P ⟨.post, .databaseCreate s.database, .empty⟩)
    (ht : P ⟨.post, .tableCreate s.database loadTable, .empty⟩) :
    (prepareDestination client s loadTable).Keeps (Makes P) fun _ => True := by
  unfold prepareDestination
  split
  · exact Keeps.bind (keeps_callingOrConflict (keeps_perform hd)) fun _ _ =>
      Keeps.bind (keeps_callingOrConflict (keeps_perform ht)) fun _ _ => Keeps.pure trivial
  · refine Keeps.bind (keeps_attempting (keeps_fetch hl))
      fun r _ => ?_
    split
    · split <;> exact Keeps.throw _
    · split
      · exact Keeps.bind (keeps_callingOrConflict (keeps_perform ht)) fun _ _ =>
          Keeps.pure trivial
      · split
        · exact Keeps.throw _
        · exact Keeps.pure trivial

theorem makes_prepare {swap : Bool} (hl : P ⟨.get, .tableList s.database, .empty⟩)
    (hd : P ⟨.post, .databaseCreate s.database, .empty⟩)
    (ht : P ⟨.post, .tableCreate s.database loadTable, .empty⟩) :
    (prepare client s loadTable swap).Keeps (Makes P) fun _ => True := by
  unfold prepare
  split
  · exact makes_prepareDestination hl hd ht
  · exact Keeps.pure trivial

theorem keeps_prepare {swap : Bool} :
    (prepare client s loadTable swap).Keeps Preparing fun _ => True :=
  makes_prepare (by simp) (by simp) (by simp)

/-! ## While rows are fed in -/

/-- A question about files and the uploads into a session, or none that makes a request. -/
def Uploading (session : String) (q : Question) : Prop :=
  (∀ call, q ≠ .api call) ∧ ∀ other file, q = .startUpload other file → other = session

theorem keeps_ask_uploading {q : Question} (h : Uploading session q) :
    (ask q : Work ε (Answer q)).Keeps (Uploading session) fun _ => True :=
  Keeps.query h

/-- A question about files and uploads that does not ask for leave to write another row. -/
def Writing (session : String) (q : Question) : Prop :=
  Uploading session q ∧ q ≠ .cancelled

theorem keeps_uploading {p : Work ε α} (h : p.Keeps (Writing session) R) :
    p.Keeps (Uploading session) R :=
  h.mono (fun _ hq => hq.1) fun _ ha => ha

theorem writing_part (q : Part.Question) : Writing session (.part q) :=
  ⟨⟨by simp, by simp⟩, by simp⟩

theorem keeps_removeFile {path : String} :
    (removeFile path : Work ε Unit).Keeps (Writing session) fun _ => True :=
  Keeps.query (writing_part _)

theorem keeps_onPart {work : Part.Work α} :
    ((onPart work).attempt : Work ε (Except Part.Fault α)).Keeps (Writing session)
      fun _ => True :=
  (Keeps.attempt (Keeps.embed (Keeps.of_forall (R := fun _ => True) (fun q => writing_part q)
    (fun _ => trivial) work))).mono (fun _ hq => hq) fun _ _ => trivial

namespace Scheduler

variable {scheduler : Scheduler} {file : Part.File}

theorem keeps_await {summary : Summary} {upload : Started} :
    (await summary upload : Work ε (Except Error Summary)).Keeps (Writing session)
      fun _ => True := by
  refine Keeps.bind (Keeps.query ⟨⟨by simp, by simp⟩, by simp⟩) fun ending _ => ?_
  split <;> exact Keeps.pure trivial

theorem keeps_awaitAll : ∀ {outstanding : List Started} {summary : Summary},
    (awaitAll summary outstanding : Work ε (Option Error × Summary)).Keeps (Writing session)
      fun _ => True
  | [], _ => Keeps.pure trivial
  | _ :: _, _ => by
    refine Keeps.bind keeps_await fun r _ => ?_
    split
    · exact keeps_awaitAll
    · exact Keeps.bind keeps_awaitAll fun _ _ => Keeps.pure trivial

theorem keeps_drain : (drain scheduler : Work ε Scheduler).Keeps (Writing session)
    fun after => after.session = scheduler.session :=
  Keeps.bind keeps_awaitAll fun _ _ => Keeps.pure rfl

theorem keeps_launch (h : scheduler.session = session) :
    (launch scheduler file : Work ε Scheduler).Keeps (Writing session)
      fun after => after.session = session :=
  Keeps.bind (Keeps.query ⟨⟨by simp, by simp [h]⟩, by simp⟩) fun _ _ => Keeps.pure h

theorem keeps_submitAfter (h : scheduler.session = session) :
    ∀ {outstanding : List Started} {summary : Summary},
      (submitAfter scheduler file summary outstanding :
        Work ε (Except Error Unit × Scheduler)).Keeps (Writing session)
          fun after => after.2.session = session
  | [], _ => Keeps.bind (keeps_launch h) fun _ ha => Keeps.pure ha
  | oldest :: rest, summary => by
    unfold submitAfter
    split
    · exact Keeps.bind (keeps_launch h) fun _ ha => Keeps.pure ha
    · refine Keeps.bind keeps_await fun r _ => ?_
      split
      · exact keeps_submitAfter h
      · exact Keeps.bind keeps_removeFile fun _ _ => Keeps.bind keeps_drain fun _ ha =>
          Keeps.pure (ha.trans h)

theorem keeps_finish : (finish scheduler).Keeps (Writing session) fun _ => True := by
  refine Keeps.bind keeps_awaitAll fun r _ => ?_
  split
  · exact Keeps.pure trivial
  · exact Keeps.throw _

end Scheduler

namespace Feed

variable {plan : Plan} {feed : Feed} {part : Part.Builder}

theorem keeps_handOver (h : feed.scheduler.session = session) :
    (handOver feed part).Keeps (Writing session)
      fun after => after.scheduler.session = session := by
  refine Keeps.bind keeps_onPart fun r _ => ?_
  split
  · exact Keeps.throw _
  · exact Keeps.pure h
  · refine Keeps.bind (Scheduler.keeps_submitAfter h) fun r hr => ?_
    split
    · exact Keeps.pure hr
    · exact Keeps.throw _

theorem keeps_openPart (h : feed.scheduler.session = session) :
    (openPart plan feed).Keeps (Writing session)
      fun after => after.2.scheduler.session = session := by
  unfold openPart
  split
  · exact Keeps.pure h
  · refine Keeps.bind keeps_onPart fun r _ => ?_
    split
    · exact Keeps.pure h
    · exact Keeps.throw _

theorem keeps_discard : (discard feed : Work ε Unit).Keeps (Writing session) fun _ => True := by
  unfold discard
  split
  · exact keeps_removeFile
  · exact Keeps.pure trivial

theorem keeps_putRecord {record : Packed} (h : feed.scheduler.session = session) :
    (putRecord plan feed record).Keeps (Writing session)
      fun after => after.scheduler.session = session := by
  refine Keeps.bind (keeps_openPart h) fun opened ho => Keeps.bind keeps_onPart fun r _ => ?_
  split
  · exact Keeps.throw _
  · split
    · exact keeps_handOver ho
    · exact Keeps.pure ho

theorem keeps_takeRow {row : Row} (h : feed.scheduler.session = session) :
    (takeRow plan feed row).Keeps (Writing session)
      fun after => after.scheduler.session = session := by
  unfold takeRow
  simp only
  split
  · exact Keeps.bind keeps_discard fun _ _ => trivial
  · split
    · exact Keeps.throw _
    · exact Keeps.pure h
  · exact keeps_putRecord h

theorem keeps_takeRows : ∀ {rows : List (Except RowFault Row)} {feed : Feed},
    feed.scheduler.session = session → (takeRows plan feed rows).Keeps (Uploading session)
      fun after => after.scheduler.session = session
  | [], feed, h => by
    unfold takeRows
    split
    · exact keeps_uploading (keeps_handOver h)
    · exact Keeps.pure h
  | .error _ :: _, _, _ => Keeps.throw _
  | .ok row :: _, _, h =>
    Keeps.bind (keeps_ask_uploading ⟨by simp, by simp⟩) fun _ _ =>
      Keeps.bind (Keeps.require _ _) fun _ _ =>
        Keeps.bind (keeps_uploading (keeps_takeRow h)) fun _ ha => keeps_takeRows ha

/-- Rows are uploaded into one session, and no requests are made by the import meanwhile. -/
theorem keeps_upload {rows : List (Except RowFault Row)} (h : feed.scheduler.session = session) :
    (upload plan feed rows).Keeps (Uploading session) fun _ => True := by
  refine Keeps.bind (Keeps.attempt (keeps_takeRows h)) fun r hr => ?_
  split
  · exact Keeps.bind (keeps_uploading Scheduler.keeps_finish) fun _ _ => Keeps.pure trivial
  · exact Keeps.bind (keeps_uploading keeps_discard) fun _ _ =>
      Keeps.bind (keeps_uploading Scheduler.keeps_drain) fun _ _ => Keeps.throw _

end Feed

theorem keeps_chooseStem : (chooseStem s).Keeps (Writing session) fun _ => True := by
  unfold chooseStem
  split
  · exact Keeps.pure trivial
  · exact Keeps.bind (Keeps.query ⟨⟨by simp, by simp⟩, by simp⟩) fun _ _ => Keeps.pure trivial

theorem keeps_uploadRows {writers : Record.WriterSet} {rows : List (Except RowFault Row)} :
    (uploadRows s session writers rows).Keeps (Uploading session) fun _ => True :=
  Keeps.bind (keeps_uploading keeps_chooseStem) fun _ _ => Feed.keeps_upload rfl

/-! ## From the driving of the session on -/

namespace SessionDriver

theorem keeps_poll {current expecting : Api.Status} {started : Nat} (h : P (lookAt name)) :
    ∀ {patience : Nat},
      (d.poll name current expecting started patience).Keeps (Makes P) fun _ => True
  | 0 => trivial
  | patience + 1 => by
    unfold poll
    refine Keeps.bind (keeps_look h) fun shown _ => ?_
    split
    · exact Keeps.pure trivial
    · exact Keeps.bind (Keeps.require _ _) fun _ _ =>
        Keeps.bind (keeps_ask trivial (by simp)) fun _ _ =>
          Keeps.bind (Keeps.require _ _) fun _ _ =>
            Keeps.bind (keeps_ask trivial (by simp)) fun _ _ =>
              Keeps.bind (Keeps.require _ _) fun _ _ => keeps_poll h

theorem keeps_waitFor {current expecting : Api.Status} (h : P (lookAt name)) :
    (do let _ ← d.waitFor name current expecting).Keeps (Makes P) fun _ => True :=
  Keeps.bind (Keeps.bind (keeps_ask trivial (by simp)) fun _ _ => keeps_poll h)
    fun _ _ => Keeps.pure trivial

/-- The requests that take a session on. -/
def Takes (name : String) (priority : Int) (request : Api.Request) : Prop :=
  request = lookAt name ∨ request = freezing name ∨ request = performing name priority ∨
    request = committing name

theorem keeps_call {request : Api.Request} (h : P request) :
    (do let _ ← callingOrConflict (client.perform request)).Keeps (Makes P) fun _ => True :=
  Keeps.bind (keeps_callingOrConflict (keeps_perform h)) fun _ _ => Keeps.pure trivial

theorem keeps_freeze :
    (d.freeze name).Keeps (Makes (Takes name priority)) fun _ => True := by
  refine Keeps.bind (keeps_look (.inl rfl)) fun shown _ => ?_
  split
  · exact Keeps.pure trivial
  · exact keeps_call (.inr (.inl rfl))

theorem keeps_advance : ∀ {status : Api.Status},
    (d.advance name priority status).Keeps (Makes (Takes name priority)) fun _ => True
  | .uploading => Keeps.bind keeps_freeze fun _ _ => keeps_call (.inr (.inr (.inl rfl)))
  | .performing => keeps_waitFor (.inl rfl)
  | .ready =>
    Keeps.bind (keeps_look (.inl rfl)) fun _ _ => Keeps.bind (Keeps.require _ _) fun _ _ =>
      keeps_call (.inr (.inr (.inr rfl)))
  | .committing => keeps_waitFor (.inl rfl)
  | .committed => Keeps.pure trivial
  | .unknown => Keeps.throw _

theorem keeps_step {status : Api.Status} :
    (d.step name status priority).Keeps (Makes (Takes name priority)) fun _ => True :=
  Keeps.bind keeps_advance fun _ _ => Keeps.pure trivial

theorem keeps_advanceBy : ∀ {steps : Nat} {status : Api.Status},
    (d.advanceBy name priority steps status).Keeps (Makes (Takes name priority)) fun _ => True
  | 0, _ => Keeps.pure trivial
  | _ + 1, _ =>
    Keeps.bind keeps_step fun _ _ => keeps_advanceBy

theorem keeps_complete :
    (d.complete name priority).Keeps (Makes (Takes name priority)) fun _ => True :=
  Keeps.bind (keeps_look (.inl rfl)) fun _ _ =>
    Keeps.bind keeps_advanceBy fun _ _ => keeps_look (.inl rfl)

end SessionDriver

end Import

end BulkLoad
