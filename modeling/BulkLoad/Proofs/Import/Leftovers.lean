import BulkLoad.Proofs.Import.Custody
import BulkLoad.Proofs.Import.Delivery

/-!
# Nothing is left of an import

However an import ends, each part file that it made is removed when it ends, and no other file has
changed (`cleared_of_run`). The stages of the feed are taken one by one : each follows the steps of
a hand that holds at most one file, and of a scheduler (`Holds`), whichever of its questions fails.
When the feed ends, with a result or a failure, its hands are free and no upload is on its way. The
other stages of an import concern neither files nor uploads.
-/

namespace BulkLoad.Import

open Program (Trace Along Follows OnResult)

/-! ## Files and uploads together -/

/-- What a question does to what an import holds : the file in its hands, and its scheduler. -/
def Holds (x : Hand × Scheduler) (e : Event) (y : Hand × Scheduler) : Prop :=
  Hand.Step x.1 e y.1 ∧ Scheduler.Step x.2 e y.2

variable {ε α : Type} {events : List Event} {s : Scheduler}

theorem Holds.of_isAside {x : Hand × Scheduler} {q : Question} (h : q.isAside) (a : Answer q) :
    Holds x ⟨q, a⟩ x := by
  cases q with
  | part | startUpload | awaitUpload => exact h.elim
  | _ => exact ⟨.aside (by simp) (by simp) a, .aside (by simp) (by simp) a⟩

/-- Work on one part, as it changes the hands. -/
def Hand.PartStep (hand : Hand) (e : Program.Event Part.Answer) (hand' : Hand) : Prop :=
  Step hand ⟨.part e.1, e.2⟩ hand'

theorem along_of_parts {inner : List (Program.Event Part.Answer)} {hand hand' : Hand}
    (h : Along Hand.PartStep hand inner hand') :
    Along Holds (hand, s) (inner.map fun e => ⟨.part e.1, e.2⟩) (hand', s) := by
  induction h with
  | nil => exact .nil
  | snoc _ hs ih =>
    rw [List.map_append]
    exact ih.append (.one ⟨hs, .aside (by simp) (by simp) _⟩)

/-- Work on one part leaves the scheduler as it is. -/
theorem follows_onPart {work : Part.Work α} {hand : Hand} {R : α → Hand → Prop}
    {G : Part.Fault → Hand → Prop} {F : ε → Hand × Scheduler → Prop}
    (h : work.Follows Hand.PartStep R G hand) :
    ((onPart work).attempt : Work ε (Except Part.Fault α)).Follows Holds
      (OnResult (fun a y => R a y.1 ∧ y.2 = s) fun e y => G e y.1 ∧ y.2 = s) F (hand, s) := by
  refine .attempt fun events outcome ht => ?_
  obtain ⟨inner, rfl, hw⟩ := of_onPart ht
  obtain ⟨hand', ha, hdone, hfailed⟩ := h inner outcome hw
  exact ⟨(hand', s), along_of_parts ha, fun a ho => ⟨hdone a ho, rfl⟩,
    fun e ho => ⟨hfailed e ho, rfl⟩⟩

/-! ## Work on one part -/

section Parts

variable {part : Part.Builder}

/-- A file is removed, whatever the program goes on with. -/
theorem follows_remove {path : String} {hand : Hand} {R : Unit → Hand → Prop}
    {F : Part.Fault → Hand → Prop} (hp : hand.path? = some path) (hR : R () .free) :
    (Part.remove path).Follows Hand.PartStep R F hand := by
  intro events outcome ht
  rcases Trace.of_query ht with ⟨rfl, rfl⟩ | ⟨_, rfl, rfl⟩
  · exact ⟨hand, .nil, by simp, by simp⟩
  · exact ⟨.free, .one (.removed hp), fun _ _ => hR, by simp⟩

/-- A question about a file, whatever the answer is. -/
theorem follows_ask (q : Part.Question) {hand : Hand} {R : Part.Answer q → Hand → Prop}
    {F : Part.Fault → Hand → Prop}
    (h : ∀ a, ∃ hand', Hand.Step hand ⟨.part q, a⟩ hand' ∧ R a hand') :
    (Part.ask q).Follows Hand.PartStep R F hand :=
  Follows.query h

theorem follows_create {directory : Option String} {stem : String} {number : Nat} :
    (Part.create directory stem number).Follows Hand.PartStep
      (fun part hand => hand = .held part.path) (fun _ hand => hand = .free) .free := by
  refine .bind_result (R := fun path hand => hand = .held path) (G := fun _ hand => hand = .free)
    (follows_ask (.create directory (Part.name stem number)) fun r => ?_)
    (fun _ _ h => .pure h) fun _ _ h => .throw h
  cases r with
  | ok path => exact ⟨_, .created, rfl⟩
  | error fault => exact ⟨_, .notCreated, rfl⟩

/-- A part that cannot be written is removed, and the failure is reported. -/
theorem follows_giveUp {fault : Part.Fault} {hand : Hand} {R : α → Hand → Prop}
    (hp : hand = .broken part.path) :
    (do Part.remove part.path; throw fault : Part.Work α).Follows Hand.PartStep R
      (fun _ hand => hand = .free) hand :=
  .bind (follows_remove (hp ▸ rfl) rfl) fun _ _ h => .throw h

theorem follows_add {record : Packed} :
    (part.add record).Follows Hand.PartStep (fun part' hand => hand = .held part'.path)
      (fun _ hand => hand = .free) (.held part.path) := by
  refine .bind_result (R := fun _ hand => hand = .held part.path)
    (G := fun _ hand => hand = .broken part.path)
    (follows_ask (.append part.path record.encode) fun r => ?_)
    (fun _ _ h => .pure h) fun _ _ h => follows_giveUp h
  cases r with
  | ok size => exact ⟨_, .appended, rfl⟩
  | error detail => exact ⟨_, .notAppended, rfl⟩

/-- A part that is closed is held, or it is gone. -/
theorem follows_finish :
    part.finish.Follows Hand.PartStep
      (fun file? hand => (∀ file, file? = some file → hand = .held file.path) ∧
        (file? = none → hand = .free))
      (fun _ hand => hand = .free) (.held part.path) := by
  refine .bind_result (R := fun _ hand => hand = .held part.path)
    (G := fun _ hand => hand = .broken part.path) (follows_ask (.close part.path) fun r => ?_)
    (fun size hand h => ?_) fun _ _ h => follows_giveUp h
  · cases r with
    | ok size => exact ⟨_, .closed, rfl⟩
    | error fault => exact ⟨_, .notClosed, rfl⟩
  · subst h
    simp only
    split
    · exact .bind (R := fun _ hand => hand = .free) (follows_remove rfl rfl)
        fun _ _ h => .pure ⟨by simp, fun _ => h⟩
    · exact .pure (by simp)

end Parts

/-! ## Calls of the scheduler -/

namespace Scheduler

variable {file : Part.File}

theorem Waits.hand {last : Scheduler} (h : Waits s events last) (hand : Hand) :
    Along Hand.Step hand events hand := by
  refine .still fun e he => ?_
  obtain ⟨ticket, ending, rfl⟩ := h.mem he
  exact .aside (by simp) (by simp) ending

theorem Waits.holds {last : Scheduler} (h : Waits s events last) (hand : Hand) :
    Along Holds (hand, s) events (hand, last) :=
  (h.hand hand).both h.along

/-- A part that is submitted leaves the hands : it becomes that of an upload, or is removed. -/
theorem Submission.hand {outcome : Option (Outcome ε (Except Error Unit × Scheduler))}
    (h : Submission s file events outcome) :
    ∃ hand, Along Hand.Step (.held file.path) events hand ∧ (outcome ≠ none → hand = .free) := by
  have removed {later : List Event} {middle last : Scheduler} (hl : Waits middle later last) :
      Along Hand.Step (.held file.path) (⟨.part (.remove file.path), ()⟩ :: later) .free :=
    .cons (.removed rfl) (hl.hand .free)
  cases h with
  | waiting hw => exact ⟨_, hw.hand _, by simp⟩
  | started ticket hw => exact ⟨_, (hw.hand _).append (.one .handedOver), fun _ => rfl⟩
  | draining hw _ hl | refused hw _ hl => exact ⟨_, (hw.hand _).append (removed hl), fun _ => rfl⟩

theorem follows_submit {F : ε → Hand × Scheduler → Prop} (hlimit : 0 < s.limit) :
    (s.submit file : Work ε (Except Error Unit × Scheduler)).Follows Holds
      (fun r y => y = (.free, r.2) ∧ 0 < r.2.limit) F (.held file.path, s) := by
  intro events outcome ht
  have hsub := submission_of_submit ht
  obtain ⟨hand, hhand, hfree⟩ := hsub.hand
  obtain ⟨last, halong, hresult⟩ := hsub.result hlimit
  refine ⟨(hand, last), hhand.both halong, fun r ho => ?_, fun e ho => ?_⟩
  · obtain rfl : hand = .free := hfree (by simp [ho])
    have hafter : r.2 = last := by
      rcases hresult with ⟨rfl, -⟩ | ⟨rfl, -⟩ | ⟨e, rfl, -⟩
      · cases ho
      · cases ho
        rfl
      · cases ho
        rfl
    rw [hafter]
    exact ⟨rfl, (same_of_along halong).2 ▸ hlimit⟩
  · rcases hresult with ⟨rfl, -⟩ | ⟨rfl, -⟩ | ⟨e, rfl, -⟩ <;> cases ho

theorem follows_drain {hand : Hand} {F : ε → Hand × Scheduler → Prop} :
    (s.drain : Work ε Scheduler).Follows Holds
      (fun _ y => y.1 = hand ∧ y.2.outstanding = []) F (hand, s) := by
  intro events outcome ht
  obtain ⟨last, hw, hl⟩ := waits_of_drain ht
  refine ⟨_, hw.holds hand, ?_, ?_⟩
  · rintro after rfl
    exact ⟨rfl, (hl.resolve_left (by simp)).1⟩
  · rintro e rfl
    simp at hl

theorem follows_finish {hand : Hand} :
    s.finish.Follows Holds (fun _ y => y.1 = hand ∧ y.2.outstanding = [])
      (fun _ y => y.1 = hand ∧ y.2.outstanding = []) (hand, s) := by
  intro events outcome ht
  obtain ⟨last, hw, hl⟩ := waits_of_finish ht
  refine ⟨_, hw.holds hand, ?_, ?_⟩
  · rintro total rfl
    exact ⟨rfl, (hl.resolve_left (by simp)).1⟩
  · rintro e rfl
    exact ⟨rfl, (hl.resolve_left (by simp)).1⟩

end Scheduler

theorem follows_removeFile {path : String} {hand : Hand} {F : ε → Hand × Scheduler → Prop}
    (hp : hand.path? = some path) :
    (removeFile path : Work ε Unit).Follows Holds (fun _ y => y = (.free, s)) F (hand, s) := by
  intro events outcome ht
  rcases Trace.of_query ht with ⟨rfl, rfl⟩ | ⟨_, rfl, rfl⟩
  · exact ⟨_, .nil, by simp, by simp⟩
  · exact ⟨(.free, s), .one ⟨.removed hp, .aside (by simp) (by simp) _⟩, fun _ _ => rfl, by simp⟩

/-- A question about neither files nor uploads. -/
theorem follows_aside {x : Hand × Scheduler} {q : Question} {F : ε → Hand × Scheduler → Prop}
    (hq : q.isAside) : (ask q : Work ε (Answer q)).Follows Holds (fun _ y => y = x) F x :=
  Follows.query fun a => ⟨x, .of_isAside hq a, rfl⟩

/-! ## The feed -/

namespace Feed

variable {plan : Plan} {feed : Feed} {part : Part.Builder}

/-- What a feed has in its hands : the part that is open. -/
def hand (feed : Feed) : Hand :=
  match feed.part with
  | some part => .held part.path
  | none => .free

/-- A feed knows what it holds. -/
def Fits (feed : Feed) (x : Hand × Scheduler) : Prop :=
  x = (feed.hand, feed.scheduler) ∧ 0 < feed.scheduler.limit

/-- So it does after a failure. -/
def Unfit (setback : Setback) (x : Hand × Scheduler) : Prop :=
  x = (setback.feed.hand, setback.feed.scheduler)

theorem follows_failPart {fault : Part.Fault} {R : α → Hand × Scheduler → Prop} :
    (feed.failPart fault : Work Setback α).Follows Holds R Unfit (.free, feed.scheduler) :=
  .throw rfl

theorem follows_handOver (hlimit : 0 < feed.scheduler.limit) :
    (feed.handOver part).Follows Holds (fun after y => Fits after y ∧ after.part = none) Unfit
      (.held part.path, feed.scheduler) := by
  refine .bind_result (follows_onPart follows_finish) (fun file? ⟨held, scheduler⟩ hok => ?_)
    fun fault y herror => ?_
  · obtain ⟨hclosed, rfl⟩ := hok
    cases file? with
    | none =>
      obtain rfl : held = .free := hclosed.2 rfl
      exact .pure ⟨⟨rfl, hlimit⟩, rfl⟩
    | some file =>
      obtain rfl : held = .held file.path := hclosed.1 file rfl
      refine .bind (Scheduler.follows_submit hlimit) fun ⟨r, scheduler⟩ y ⟨hy, hl⟩ => ?_
      subst hy
      cases r with
      | ok => exact .pure ⟨⟨rfl, hl⟩, rfl⟩
      | error e => exact .throw rfl
  · obtain rfl : y = (.free, feed.scheduler) := Prod.ext herror.1 herror.2
    exact follows_failPart

theorem follows_openPart (hlimit : 0 < feed.scheduler.limit) :
    (openPart plan feed).Follows Holds
      (fun r y => y = (.held r.1.path, r.2.scheduler) ∧ 0 < r.2.scheduler.limit) Unfit
      (feed.hand, feed.scheduler) := by
  unfold openPart hand
  cases feed.part with
  | some part => exact .pure ⟨rfl, hlimit⟩
  | none =>
    refine .bind_result (follows_onPart follows_create) (fun part y hok => ?_)
      fun fault y herror => ?_
    · obtain rfl : y = (.held part.path, feed.scheduler) := Prod.ext hok.1 hok.2
      exact .pure ⟨rfl, hlimit⟩
    · obtain rfl : y = (.free, feed.scheduler) := Prod.ext herror.1 herror.2
      exact follows_failPart

theorem follows_putRecord {record : Packed} (hlimit : 0 < feed.scheduler.limit) :
    (putRecord plan feed record).Follows Holds Fits Unfit (feed.hand, feed.scheduler) := by
  refine .bind (follows_openPart hlimit) fun ⟨part, opened⟩ y ⟨hy, hl⟩ => ?_
  subst hy
  refine .bind_result (follows_onPart follows_add) (fun added y hok => ?_) fun fault y herror => ?_
  · obtain rfl : y = (.held added.path, opened.scheduler) := Prod.ext hok.1 hok.2
    simp only
    split
    · exact (follows_handOver hl).mono (fun _ _ h => h.1) fun _ _ h => h
    · exact .pure ⟨rfl, hl⟩
  · obtain rfl : y = (.free, opened.scheduler) := Prod.ext herror.1 herror.2
    exact follows_failPart

theorem follows_discard {F : ε → Hand × Scheduler → Prop} :
    (feed.discard : Work ε Unit).Follows Holds (fun _ y => y = (.free, s)) F (feed.hand, s) := by
  unfold discard hand
  cases feed.part with
  | none => exact .pure rfl
  | some part => exact follows_removeFile rfl

/-- A row that cannot be written at all ends the import without a result, but not before the part
that is open is removed. -/
theorem follows_takeRow {row : Row} (hlimit : 0 < feed.scheduler.limit) :
    (takeRow plan feed row).Follows Holds Fits Unfit (feed.hand, feed.scheduler) := by
  unfold takeRow
  simp only
  split
  next => exact .bind follows_discard fun _ _ _ => .aborted _
  next =>
    split
    · exact .throw rfl
    · exact .pure ⟨rfl, hlimit⟩
  next => exact follows_putRecord hlimit

theorem follows_takeRows : ∀ {rows : List (Except RowFault Row)} {feed : Feed},
    0 < feed.scheduler.limit → (takeRows plan feed rows).Follows Holds
      (fun after y => Fits after y ∧ after.part = none) Unfit (feed.hand, feed.scheduler)
  | [], feed, hlimit => by
    unfold takeRows hand
    cases hp : feed.part with
    | some part => exact follows_handOver hlimit
    | none => exact .pure ⟨⟨by simp [hand, hp], hlimit⟩, hp⟩
  | .error fault :: rest, feed, hlimit => .throw rfl
  | .ok row :: rest, feed, hlimit => by
    refine .bind (follows_aside (q := .cancelled) trivial) fun cancelled y hy => ?_
    subst hy
    refine .bind (R := fun _ y => y = (feed.hand, feed.scheduler)) (.require rfl rfl)
      fun _ y hy => ?_
    subst hy
    exact .bind (follows_takeRow hlimit) fun after y hfits => hfits.1 ▸ follows_takeRows hfits.2

/-- When the feed ends, nothing is held any more. -/
theorem follows_upload {rows : List (Except RowFault Row)} (hlimit : 0 < feed.scheduler.limit) :
    (upload plan feed rows).Follows Holds (fun _ y => y.1 = .free ∧ y.2.outstanding = [])
      (fun _ y => y.1 = .free ∧ y.2.outstanding = []) (feed.hand, feed.scheduler) := by
  refine .bind_result (.attempt (follows_takeRows hlimit)) (fun after y hok => ?_)
    fun setback y herror => ?_
  · obtain ⟨⟨rfl, -⟩, hp⟩ := hok
    rw [hand, hp]
    exact .bind Scheduler.follows_finish fun _ _ h => .pure h
  · obtain rfl : y = (setback.feed.hand, setback.feed.scheduler) := herror
    refine .bind follows_discard fun _ y hy => ?_
    subst hy
    exact .bind Scheduler.follows_drain fun _ _ h => .throw h

end Feed

/-! ## Whole imports -/

variable {client : Api.Client} {settings : Settings} {schema : Schema} {session : String}
  {rows : List (Except RowFault Row)}

/-- The program has come to its end, with a result or a failure. -/
def Returned (outcome : Option (Outcome ε α)) : Prop :=
  (∃ a, outcome = some (.done a)) ∨ ∃ e, outcome = some (.failed e)

theorem Returned.of_stopped {β : Type} {stop : Option (Outcome ε α)}
    {outcome : Option (Outcome ε β)} (hs : Program.Stopped stop outcome) (h : Returned outcome) :
    Returned stop := by
  cases hs with
  | cut => simp [Returned] at h
  | failed e => exact Or.inr ⟨e, rfl⟩
  | aborted reason => simp [Returned] at h

/-- What a program of an import holds when it has returned : nothing. -/
def Releases (session : String) (settings : Settings) (events : List Event)
    (outcome : Option (Outcome ε α)) : Prop :=
  ∃ y, Along Holds (.free, .start session settings.uploads) events y ∧
    (Returned outcome → y.1 = .free ∧ y.2.outstanding = [])

/-- Before rows are uploaded nothing is held, and so it is without any. -/
theorem Releases.of_isAside {outcome : Option (Outcome ε α)} (h : ∀ e ∈ events, e.1.isAside) :
    Releases session settings events outcome :=
  ⟨_, .still fun e he => .of_isAside (h e he) e.2, fun _ => ⟨rfl, rfl⟩⟩

theorem Releases.after {β : Type} {first rest : List Event} {result : Option (Outcome ε α)}
    {outcome : Option (Outcome ε β)} (hfirst : ∀ e ∈ first, e.1.isAside)
    (h : Releases session settings rest result) (ho : Returned outcome → Returned result) :
    Releases session settings (first ++ rest) outcome := by
  obtain ⟨y, ha, hy⟩ := h
  exact ⟨y, .append (.still fun e he => .of_isAside (hfirst e he) e.2) ha, fun hr => hy (ho hr)⟩

theorem Releases.before {β : Type} {first rest : List Event} {a : α}
    {outcome : Option (Outcome ε β)}
    (h : Releases session settings first (some (.done a) : Option (Outcome ε α)))
    (hrest : ∀ e ∈ rest, e.1.isAside) : Releases session settings (first ++ rest) outcome := by
  obtain ⟨y, ha, hy⟩ := h
  exact ⟨y, ha.append (.still fun e he => .of_isAside (hrest e he) e.2),
    fun _ => hy (Or.inl ⟨a, rfl⟩)⟩

theorem releases_of_uploadRows {writers : Record.WriterSet}
    {outcome : Option (Outcome Error (Feed × Summary))}
    (h : Trace (uploadRows settings session writers rows) events outcome) :
    Releases session settings events outcome := by
  have stem : (chooseStem settings).Follows Holds
      (fun _ y => y = (.free, .start session settings.uploads))
      (fun _ y => y.1 = .free ∧ y.2.outstanding = []) (.free, .start session settings.uploads) := by
    unfold chooseStem
    split
    · exact .pure rfl
    · exact .bind (follows_aside (q := .randomId) trivial) fun _ _ hy => .pure hy
  have all : (uploadRows settings session writers rows).Follows Holds
      (fun _ y => y.1 = .free ∧ y.2.outstanding = [])
      (fun _ y => y.1 = .free ∧ y.2.outstanding = []) (.free, .start session settings.uploads) :=
    .bind stem fun _ _ hy => hy ▸ Feed.follows_upload (Scheduler.limit_pos session settings.uploads)
  obtain ⟨y, ha, hdone, hfailed⟩ := all events outcome h
  refine ⟨y, ha, ?_⟩
  rintro (⟨a, ho⟩ | ⟨e, ho⟩)
  · exact hdone a ho
  · exact hfailed e ho

theorem releases_of_load {outcome : Option (Outcome Error (Bool × Report))}
    (h : Trace (load client settings schema rows) events outcome) :
    ∃ session, Releases session settings events outcome := by
  rcases of_load h with
    ⟨hq, -⟩ | ⟨preparing, staging, writers, session, swap, rfl, hq, -, -, result, h₁, hr⟩
  · exact ⟨"", .of_isAside fun e he => (hq e he).1⟩
  have hresult (ho : Returned outcome) : Returned result := by
    rcases hr with ⟨report, rfl, -⟩ | hs
    · exact Or.inl ⟨report, rfl⟩
    · exact ho.of_stopped hs
  rcases of_uploadInto h₁ with ⟨hs, -⟩ | ⟨opening, feeding, rfl, hs, -, result', h₂, hr'⟩
  · refine ⟨session, .of_isAside ?_⟩
    exact List.forall_mem_append.2 ⟨fun e he => (hq e he).1, fun e he => (hs e he).1⟩
  · refine ⟨session, .after (fun e he => (hq e he).1)
      (.after (fun e he => (hs e he).1) (releases_of_uploadRows h₂) ?_) hresult⟩
    intro ho
    rcases hr' with ⟨feed, summary, rfl, -⟩ | hs
    · exact Or.inl ⟨_, rfl⟩
    · exact ho.of_stopped hs

theorem keeps_conclude {swap : Bool} {report : Report} :
    (conclude client settings swap report).Keeps Question.isAside fun _ => True := by
  have driving {d : SessionDriver} : (commit settings d report).Keeps Question.isAside
      fun _ => True :=
    .bind (SessionDriver.keeps_complete.mono (fun _ h => h.1) fun _ _ => trivial)
      fun _ _ => .pure trivial
  have placing {table : String} : (putInPlace client settings table swap).Keeps Question.isAside
      fun _ => True := by
    unfold putInPlace
    split
    · exact (keeps_calling (P := fun _ => True) (Api.Client.keeps_perform trivial)).mono
        (fun _ h => h.1) fun _ _ => trivial
    · exact .pure trivial
  exact .bind driving fun _ _ => .bind placing fun _ _ =>
    .bind (keeps_cleanUp.mono (fun _ h => h.1) fun _ _ => trivial) fun _ _ => .pure trivial

theorem releases_of_run {outcome : Option (Outcome Error Report)}
    (h : Trace (run client settings schema rows) events outcome) :
    ∃ session, Releases session settings events outcome := by
  have clock (a : Nat) : ∀ e ∈ [(⟨.clock, a⟩ : Event)], e.1.isAside := by simp [Question.isAside]
  rcases Trace.of_query_bind h with ⟨rfl, rfl⟩ | ⟨started, events, rfl, h₁⟩
  · exact ⟨"", .of_isAside (by simp)⟩
  rcases Trace.of_bind h₁ with ⟨loading, ⟨swap, report⟩, rest, rfl, h₂, h₃⟩ | ⟨stop, h₂, hs⟩
  · obtain ⟨session, hl⟩ := releases_of_load h₂
    have hrest : ∀ e ∈ rest, e.1.isAside := by
      refine (Program.Keeps.of_trace (R := fun _ => True) (.bind keeps_conclude fun _ _ => ?_) h₃).1
      exact .bind (R := fun _ => True) (.query trivial) fun _ _ => .pure trivial
    exact ⟨session, .after (clock started) (hl.before (β := Report) hrest) fun h => h⟩
  · obtain ⟨session, hl⟩ := releases_of_load h₂
    exact ⟨session, .after (clock started) hl fun ho => ho.of_stopped hs⟩

/-! ## What is left -/

variable {files : Files} {log : List Happening} {scene : Scene}

/-- Nothing is left of an import : the files that it made are removed, all others are as they were
before, and no upload goes on. -/
structure Cleared (client : Api.Client) (files : Files) (log : List Happening) (scene : Scene) :
    Prop where
  /-- Each file was made where there was none. -/
  new : ∀ path ∈ creations (own log), files path = none
  removed : ∀ path ∈ creations (own log), scene.files path = none
  restored : scene.files = files
  ended : ∀ running ∈ scene.uploads, running.ending?.isSome
  /-- At every moment, only files that the import has made until then may have changed. -/
  untouched : ∀ first rest found, log = first ++ rest → Path client ⟨[], files⟩ first found →
    ∀ path, path ∉ creations (own first) → found.files path = files path

theorem Custody.untouched {hand : Hand} {made : List String} (h : Custody files hand made scene)
    {path : String} (hm : path ∉ made) : scene.files path = files path :=
  h.others path (fun hp => hm (h.held path hp)) fun t hb => hm (h.busy t path hb).1

/-- When all uploads are over and nothing is in the hands, the files are as they were. -/
theorem Custody.restored {made : List String} (h : Custody files .free made scene)
    (hover : ∀ running ∈ scene.uploads, running.ending?.isSome) : scene.files = files := by
  funext path
  refine h.others path (by simp [Hand.path?]) fun t hb => ?_
  obtain ⟨running, hu, ⟨q, next, hr⟩, -⟩ := hb
  have ho := hover running (List.mem_of_getElem? hu)
  simp [Running.ending?, hr] at ho

/-- However an import returns, nothing is left of it. -/
theorem cleared_of_run {outcome : Option (Outcome Error Report)}
    (hp : Path client ⟨[], files⟩ log scene)
    (ht : Trace (run client settings schema rows) (own log) outcome) (ho : Returned outcome) :
    Cleared client files log scene := by
  obtain ⟨session, ⟨hand, s⟩, halong, hreleased⟩ := releases_of_run ht
  obtain ⟨rfl, hempty⟩ : hand = .free ∧ s.outstanding = [] := hreleased ho
  have hhand : Along Hand.Step .free (own log) .free :=
    halong.image (f := Prod.fst) fun _ _ _ h => h.1
  have hscheduler : Along Scheduler.Step (.start session settings.uploads) (own log) s :=
    halong.image (f := Prod.snd) fun _ _ _ h => h.2
  obtain ⟨settled, hledger⟩ := Scheduler.ledger_of_along hscheduler
  have hcustody := Custody.of_path hp hhand
  have hover := hledger.over_of_empty hp hempty
  have hrestored := hcustody.restored hover
  refine ⟨hcustody.new, fun path hm => hrestored ▸ hcustody.new path hm, hrestored, hover, ?_⟩
  rintro first rest found rfl hfound path hm
  rw [own_append] at hhand
  obtain ⟨middle, hfirst, -⟩ := hhand.split
  exact (Custody.of_path hfound hfirst).untouched hm

/-! ## A part that is refused -/

/-- One file is there before. -/
def littered : Files := fun path =>
  if path = "other" then some [1] else none

/-- Four rows are imported in parts of two, and the service refuses the first part. -/
def spoiled : List Happening × Option (Outcome Error Report) :=
  play SessionDriver.careful.client (attended SessionDriver.careful.client)
    (run SessionDriver.careful.client halving ⟨[⟨"time", .long⟩]⟩ halvedRows) ⟨[], littered⟩
    { service := ⟨[⟨"GET *", [SessionDriver.told "t" "uploading"]⟩, ⟨"POST *", [{}]⟩,
        ⟨"PUT *", [{ status := 400 }, {}]⟩], []⟩
      moment := SessionDriver.epoch }

/-- Whether an import failed, since a part was refused. -/
def isSpoiled : Option (Outcome Error Report) → Bool
  | some (.failed (.api (.other _ status _))) => status == 400
  | _ => false

theorem cleared_spoiled :
    (creations (own spoiled.1)).length = 2 ∧ isSpoiled spoiled.2 = true ∧
      ∃ scene, Path SessionDriver.careful.client ⟨[], littered⟩ spoiled.1 scene ∧
        Cleared SessionDriver.careful.client littered spoiled.1 scene := by
  obtain ⟨scene, hp⟩ : ∃ scene, Path SessionDriver.careful.client ⟨[], littered⟩ spoiled.1 scene :=
    path_play _ _ _ _
  have ht : Trace (run SessionDriver.careful.client halving ⟨[⟨"time", .long⟩]⟩ halvedRows)
      (own spoiled.1) spoiled.2 := trace_play _ _ _ _
  have hspoiled : isSpoiled spoiled.2 = true := by decide +kernel
  refine ⟨by decide +kernel, hspoiled, scene, hp, cleared_of_run hp ht (Or.inr ?_)⟩
  unfold isSpoiled at hspoiled
  split at hspoiled
  next ho => exact ⟨_, ho⟩
  next => simp at hspoiled

end BulkLoad.Import
