import BulkLoad.Import.Scheduler
import BulkLoad.Proofs.Import.Notes
import BulkLoad.Proofs.Program.Along
import Mathlib.Algebra.GroupWithZero.Nat

/-!
# The ledger of a scheduler

A scheduler starts an upload only when there is room, and is told of the oldest one first
(`Scheduler.Step`). So the uploads that were started are those it was told of, in the order in which
they were started, and then those on their way, and the summary is that of the uploads it was told
have succeeded (`Ledger`).

What the calls of a scheduler do is told by the endings that they wait for (`Waits`) : waiting for
all uploads, and handing a part over (`Submission`). No failure is overlooked, since the first one
that is told is also the one that is reported.
-/

namespace BulkLoad.Import

open Program (Trace Along)

/-! ## Uploads that were started -/

/-- The uploads that an import starts, each with its session. -/
def launches (events : List Event) : List (String × Started) :=
  events.filterMap fun
    | ⟨.startUpload session file, ticket⟩ => some (session, ⟨ticket, file⟩)
    | _ => none

@[simp] theorem launches_append (first rest : List Event) :
    launches (first ++ rest) = launches first ++ launches rest :=
  List.filterMap_append

@[simp] theorem launches_nil : launches [] = [] :=
  rfl

@[simp] theorem launches_start (session : String) (file : Part.File) (ticket : Nat)
    (rest : List Event) :
    launches (⟨.startUpload session file, ticket⟩ :: rest) =
      (session, ⟨ticket, file⟩) :: launches rest :=
  rfl

@[simp] theorem launches_part (q : Part.Question) (a : Part.Answer q) (rest : List Event) :
    launches (⟨.part q, a⟩ :: rest) = launches rest :=
  rfl

theorem mem_launches {events : List Event} {session : String} {upload : Started} :
    (session, upload) ∈ launches events ↔
      (⟨.startUpload session upload.file, upload.ticket⟩ : Event) ∈ events := by
  constructor
  · intro h
    obtain ⟨⟨q, a⟩, hm, he⟩ := List.mem_filterMap.1 h
    cases q <;> simp at he
    obtain ⟨rfl, rfl⟩ := he
    exact hm
  · exact fun h => List.mem_filterMap.2 ⟨_, h, rfl⟩

theorem launches_of_ne {q : Question} (h : ∀ session file, q ≠ .startUpload session file)
    (a : Answer q) : launches [⟨q, a⟩] = [] := by
  cases q with
  | startUpload session file => exact absurd rfl (h session file)
  | _ => rfl

/-! ## What an import is told of its uploads -/

/-- The endings that an import is told, each with the ticket of the upload. -/
def awaits (events : List Event) : List (Nat × Upload.Ending) :=
  events.filterMap fun
    | ⟨.awaitUpload ticket, ending⟩ => some (ticket, ending)
    | _ => none

@[simp] theorem awaits_append (first rest : List Event) :
    awaits (first ++ rest) = awaits first ++ awaits rest :=
  List.filterMap_append

@[simp] theorem awaits_nil : awaits [] = [] :=
  rfl

@[simp] theorem awaits_await (ticket : Nat) (ending : Upload.Ending) (rest : List Event) :
    awaits (⟨.awaitUpload ticket, ending⟩ :: rest) = (ticket, ending) :: awaits rest :=
  rfl

theorem awaits_of_ne {q : Question} (h : ∀ ticket, q ≠ .awaitUpload ticket) (a : Answer q)
    (rest : List Event) : awaits (⟨q, a⟩ :: rest) = awaits rest := by
  cases q with
  | awaitUpload ticket => exact absurd rfl (h ticket)
  | _ => rfl

@[simp] theorem launches_await (ticket : Nat) (ending : Upload.Ending) (rest : List Event) :
    launches (⟨.awaitUpload ticket, ending⟩ :: rest) = launches rest :=
  rfl

theorem mem_awaits {events : List Event} {ticket : Nat} {ending : Upload.Ending} :
    (ticket, ending) ∈ awaits events ↔ (⟨.awaitUpload ticket, ending⟩ : Event) ∈ events := by
  constructor
  · intro h
    obtain ⟨⟨q, a⟩, hm, he⟩ := List.mem_filterMap.1 h
    cases q <;> simp at he
    obtain ⟨rfl, rfl⟩ := he
    exact hm
  · exact fun h => List.mem_filterMap.2 ⟨_, h, rfl⟩

/-- The failure that an ending tells of. -/
def Upload.Ending.failure? : Upload.Ending → Option Error
  | .uploaded => none
  | .refused e => some (.api e)
  | .crashed => some .uploadTask

@[simp] theorem Upload.Ending.failure?_eq_none {ending : Upload.Ending} :
    ending.failure? = none ↔ ending = .uploaded := by
  cases ending <;> simp [failure?]

/-- The first failure of an upload that an import is told of. -/
def firstFailure (events : List Event) : Option Error :=
  (awaits events).findSome? (·.2.failure?)

@[simp] theorem firstFailure_nil : firstFailure [] = none :=
  rfl

@[simp] theorem firstFailure_append (first rest : List Event) :
    firstFailure (first ++ rest) = (firstFailure first).or (firstFailure rest) := by
  simp [firstFailure]

@[simp] theorem firstFailure_await (ticket : Nat) (ending : Upload.Ending) (rest : List Event) :
    firstFailure (⟨.awaitUpload ticket, ending⟩ :: rest) =
      ending.failure?.or (firstFailure rest) := by
  cases h : ending.failure? <;> simp [firstFailure, h]

@[simp] theorem firstFailure_start (session : String) (file : Part.File) (ticket : Nat)
    (rest : List Event) :
    firstFailure (⟨.startUpload session file, ticket⟩ :: rest) = firstFailure rest :=
  rfl

theorem firstFailure_eq_none {events : List Event} :
    firstFailure events = none ↔ ∀ told ∈ awaits events, told.2 = .uploaded := by
  simp [firstFailure]

/-! ## Summaries -/

/-- The summary of uploads that succeeded. -/
def Summary.addAll (summary : Summary) (uploads : List Started) : Summary :=
  uploads.foldl (fun summary upload => summary.add upload.file) summary

theorem Summary.addAll_eq (summary : Summary) : ∀ uploads : List Started,
    summary.addAll uploads =
      ⟨summary.parts + uploads.length, summary.records + (uploads.map (·.file.records)).sum,
        summary.bytes + (uploads.map (·.file.size)).sum⟩
  | [] => rfl
  | upload :: rest => by
    refine (addAll_eq (summary.add upload.file) rest).trans ?_
    simp only [add, List.length_cons, List.map_cons, List.sum_cons, mk.injEq]
    omega

theorem Summary.addAll_append (summary : Summary) (first rest : List Started) :
    summary.addAll (first ++ rest) = (summary.addAll first).addAll rest :=
  List.foldl_append

/-- The summary with one more ending. -/
def Summary.settle (summary : Summary) (file : Part.File) : Upload.Ending → Summary
  | .uploaded => summary.add file
  | .refused _ | .crashed => summary

namespace Scheduler

/-! ## Steps of a scheduler -/

/-- The scheduler that was told the ending of its oldest upload. -/
def told (s : Scheduler) (oldest : Started) (rest : List Started) (ending : Upload.Ending) :
    Scheduler :=
  { s with outstanding := rest, summary := s.summary.settle oldest.file ending }

/-- What a question of an import does to its scheduler. -/
inductive Step : Scheduler → Event → Scheduler → Prop
  /-- The oldest upload is waited for. -/
  | awaited {s : Scheduler} {oldest : Started} {rest : List Started} (ending : Upload.Ending)
    (h : s.outstanding = oldest :: rest) :
    Step s ⟨.awaitUpload oldest.ticket, ending⟩ (s.told oldest rest ending)
  /-- An upload is started when there is room for it. -/
  | started {s : Scheduler} (file : Part.File) (ticket : Nat)
    (h : s.outstanding.length < s.limit) :
    Step s ⟨.startUpload s.session file, ticket⟩
      { s with outstanding := s.outstanding ++ [⟨ticket, file⟩] }
  | aside {s : Scheduler} {q : Question} (hs : ∀ session file, q ≠ .startUpload session file)
    (ha : ∀ ticket, q ≠ .awaitUpload ticket) (a : Answer q) : Step s ⟨q, a⟩ s

/-- The oldest uploads are waited for, one after the other. -/
inductive Waits : Scheduler → List Event → Scheduler → Prop
  | nil (s : Scheduler) : Waits s [] s
  | cons {s last : Scheduler} {oldest : Started} {rest : List Started} {events : List Event}
    (ending : Upload.Ending) (h : s.outstanding = oldest :: rest)
    (hw : Waits (s.told oldest rest ending) events last) :
    Waits s (⟨.awaitUpload oldest.ticket, ending⟩ :: events) last

namespace Waits

variable {s last : Scheduler} {events : List Event}

theorem along (h : Waits s events last) : Along Step s events last := by
  induction h with
  | nil => exact .nil
  | cons ending h _ ih => exact .cons (.awaited ending h) ih

theorem launches_eq (h : Waits s events last) : launches events = [] := by
  induction h with
  | nil => rfl
  | cons ending _ _ ih => simpa using ih

theorem mem (h : Waits s events last) {e : Event} (he : e ∈ events) :
    ∃ ticket ending, e = ⟨.awaitUpload ticket, ending⟩ := by
  induction h with
  | nil => simp at he
  | @cons s last oldest rest events ending _ _ ih =>
    rcases List.mem_cons.1 he with rfl | he
    · exact ⟨oldest.ticket, ending, rfl⟩
    · exact ih he

/-- Waiting changes neither the session nor the room. -/
theorem same (h : Waits s events last) : last.session = s.session ∧ last.limit = s.limit := by
  induction h with
  | nil => exact ⟨rfl, rfl⟩
  | cons _ _ _ ih => exact ih

end Waits

/-! ## Waiting for all uploads -/

variable {ε : Type} {events : List Event} {s : Scheduler} {file : Part.File}

/-- A failure that an upload ends with is what the scheduler goes on with. -/
theorem ending_of_await {summary : Summary} {upload : Started}
    {outcome : Option (Outcome ε (Except Error Summary))}
    (h : Trace (await summary upload : Work ε (Except Error Summary)) events outcome) :
    (events = [] ∧ outcome = none) ∨
      ∃ ending, events = [⟨.awaitUpload upload.ticket, ending⟩] ∧
        ((ending.failure? = none ∧
            outcome = some (.done (.ok (summary.settle upload.file ending)))) ∨
          ∃ e, ending.failure? = some e ∧ summary.settle upload.file ending = summary ∧
            outcome = some (.done (.error e))) := by
  rcases Trace.of_query_bind h with h | ⟨ending, rest, rfl, hr⟩
  · exact Or.inl h
  · refine Or.inr ⟨ending, ?_⟩
    cases ending with
    | uploaded =>
      obtain ⟨rfl, rfl⟩ := Trace.of_pure hr
      exact ⟨rfl, Or.inl ⟨rfl, rfl⟩⟩
    | refused | crashed =>
      obtain ⟨rfl, rfl⟩ := Trace.of_pure hr
      exact ⟨rfl, Or.inr ⟨_, rfl, rfl, rfl⟩⟩

/-- All uploads are waited for, also after failures, and the first failure is kept. -/
theorem waits_of_awaitAll : ∀ {outstanding : List Started} {summary : Summary}
    {events : List Event} {outcome : Option (Outcome ε (Option Error × Summary))},
    Trace (awaitAll summary outstanding : Work ε (Option Error × Summary)) events outcome →
      ∃ last, Waits { s with outstanding, summary } events last ∧
        (outcome = none ∨ last.outstanding = [] ∧
          outcome = some (.done (firstFailure events, last.summary)))
  | [], summary, events, outcome, h => by
    obtain ⟨rfl, rfl⟩ := Trace.of_pure h
    exact ⟨_, .nil _, Or.inr ⟨rfl, rfl⟩⟩
  | upload :: rest, summary, events, outcome, h => by
    unfold awaitAll at h
    rcases Trace.of_bind h with ⟨first, r, later, rfl, h₁, h₂⟩ | ⟨stop, h₁, hs⟩
    · rcases ending_of_await h₁ with ⟨-, ho⟩ | ⟨ending, rfl, ⟨hf, ho⟩ | ⟨e, hf, hsum, ho⟩⟩
      · simp at ho
      · obtain rfl : r = _ := by simpa using ho
        obtain ⟨last, hw, hl⟩ := waits_of_awaitAll h₂
        refine ⟨last, .cons ending rfl hw, ?_⟩
        simpa [hf] using hl
      · obtain rfl : r = _ := by simpa using ho
        rcases Trace.of_bind h₂ with ⟨middle, ⟨failure, total⟩, final, rfl, h₃, h₄⟩ | ⟨stop, h₃, hs⟩
        · obtain ⟨rfl, rfl⟩ := Trace.of_pure h₄
          obtain ⟨last, hw, hl⟩ := waits_of_awaitAll h₃
          obtain ⟨hempty, ho⟩ : last.outstanding = [] ∧ _ := by simpa using hl
          obtain ⟨-, rfl⟩ : failure = _ ∧ total = _ := by simpa using ho
          refine ⟨last, ?_, Or.inr ⟨hempty, by simp [hf]⟩⟩
          rw [List.append_nil]
          exact .cons ending rfl (by rw [told, hsum]; exact hw)
        · obtain ⟨last, hw, hl⟩ := waits_of_awaitAll h₃
          exact ⟨last, .cons ending rfl (by rw [told, hsum]; exact hw),
            Or.inl (hs.eq_none (hl.imp_right fun h => ⟨_, h.2⟩))⟩
    · rcases ending_of_await h₁ with ⟨rfl, rfl⟩ | ⟨ending, rfl, ⟨-, rfl⟩ | ⟨e, -, -, rfl⟩⟩
      · exact ⟨_, .nil _, Or.inl (hs.eq_none (Or.inl rfl))⟩
      · cases hs
      · cases hs

theorem waits_of_drain {outcome : Option (Outcome ε Scheduler)}
    (h : Trace (s.drain : Work ε Scheduler) events outcome) :
    ∃ last, Waits s events last ∧
      (outcome = none ∨ last.outstanding = [] ∧ outcome = some (.done last)) := by
  rcases Trace.of_bind h with ⟨first, ⟨failure, total⟩, rest, rfl, h₁, h₂⟩ | ⟨stop, h₁, hs⟩
  · obtain ⟨rfl, rfl⟩ := Trace.of_pure h₂
    obtain ⟨last, hw, hl⟩ := waits_of_awaitAll (s := s) h₁
    obtain ⟨hempty, ho⟩ : last.outstanding = [] ∧ _ := by simpa using hl
    obtain ⟨-, rfl⟩ : failure = _ ∧ total = _ := by simpa using ho
    rw [List.append_nil]
    refine ⟨last, hw, Or.inr ⟨hempty, ?_⟩⟩
    obtain ⟨hsession, hlimit⟩ := hw.same
    cases last
    simp_all
  · obtain ⟨last, hw, hl⟩ := waits_of_awaitAll (s := s) h₁
    exact ⟨last, hw, Or.inl (hs.eq_none (hl.imp_right fun h => ⟨_, h.2⟩))⟩

/-- How a scheduler finishes : all uploads are waited for, and the first failure is reported. -/
theorem waits_of_finish {outcome : Option (Outcome Error Summary)}
    (h : Trace s.finish events outcome) :
    ∃ last, Waits s events last ∧
      (outcome = none ∨ last.outstanding = [] ∧
        ((firstFailure events = none ∧ outcome = some (.done last.summary)) ∨
          ∃ e, firstFailure events = some e ∧ outcome = some (.failed e))) := by
  rcases Trace.of_bind h with ⟨first, ⟨failure, total⟩, rest, rfl, h₁, h₂⟩ | ⟨stop, h₁, hs⟩
  · obtain ⟨last, hw, hl⟩ := waits_of_awaitAll (s := s) h₁
    obtain ⟨hempty, ho⟩ : last.outstanding = [] ∧ _ := by simpa using hl
    obtain ⟨rfl, rfl⟩ : failure = _ ∧ total = _ := by simpa using ho
    refine ⟨last, ?_⟩
    cases hf : firstFailure first with
    | none =>
      rw [hf] at h₂
      obtain ⟨rfl, rfl⟩ := Trace.of_pure h₂
      rw [List.append_nil]
      exact ⟨hw, Or.inr ⟨hempty, Or.inl ⟨hf, rfl⟩⟩⟩
    | some e =>
      rw [hf] at h₂
      obtain ⟨rfl, rfl⟩ := Trace.of_throw h₂
      rw [List.append_nil]
      exact ⟨hw, Or.inr ⟨hempty, Or.inr ⟨e, hf, rfl⟩⟩⟩
  · obtain ⟨last, hw, hl⟩ := waits_of_awaitAll (s := s) h₁
    exact ⟨last, hw, Or.inl (hs.eq_none (hl.imp_right fun h => ⟨_, h.2⟩))⟩

/-! ## Handing a part over -/

/-- How a part is handed over. Uploads are waited for until there is room, and its upload is
started. When one of them has failed, the part is removed and all other uploads are waited for. -/
inductive Submission (s : Scheduler) (file : Part.File) :
    List Event → Option (Outcome ε (Except Error Unit × Scheduler)) → Prop
  | waiting {waits : List Event} {middle : Scheduler} (hw : Waits s waits middle) :
    Submission s file waits none
  | started {waits : List Event} {middle : Scheduler} (ticket : Nat) (hw : Waits s waits middle)
    (hf : firstFailure waits = none)
    (hroom : 0 < middle.limit → middle.outstanding.length < middle.limit) :
    Submission s file (waits ++ [⟨.startUpload middle.session file, ticket⟩])
      (some (.done (.ok (),
        { middle with outstanding := middle.outstanding ++ [⟨ticket, file⟩] })))
  | draining {waits later : List Event} {middle last : Scheduler} {e : Error}
    (hw : Waits s waits middle) (hf : firstFailure waits = some e) (hl : Waits middle later last) :
    Submission s file (waits ++ ⟨.part (.remove file.path), ()⟩ :: later) none
  | refused {waits later : List Event} {middle last : Scheduler} {e : Error}
    (hw : Waits s waits middle) (hf : firstFailure waits = some e) (hl : Waits middle later last)
    (hempty : last.outstanding = []) :
    Submission s file (waits ++ ⟨.part (.remove file.path), ()⟩ :: later)
      (some (.done (.error e, last)))

/-- A submission after one more upload that has succeeded. -/
theorem Submission.cons {outcome : Option (Outcome ε (Except Error Unit × Scheduler))}
    {oldest : Started} {rest : List Started} {ending : Upload.Ending}
    (ho : s.outstanding = oldest :: rest) (hf : ending.failure? = none)
    (h : Submission (s.told oldest rest ending) file events outcome) :
    Submission s file (⟨.awaitUpload oldest.ticket, ending⟩ :: events) outcome := by
  cases h with
  | waiting hw => exact .waiting (.cons ending ho hw)
  | started ticket hw hn hroom =>
    exact .started ticket (.cons ending ho hw) (by simpa [hf] using hn) hroom
  | draining hw he hl => exact .draining (.cons ending ho hw) (by simpa [hf] using he) hl
  | refused hw he hl hempty =>
    exact .refused (.cons ending ho hw) (by simpa [hf] using he) hl hempty

/-- An upload is started where there is room. -/
theorem submission_of_launch {outcome : Option (Outcome ε (Except Error Unit × Scheduler))}
    (hroom : 0 < s.limit → s.outstanding.length < s.limit)
    (h : Trace (do return (.ok (), ← launch s file) : Work ε (Except Error Unit × Scheduler))
      events outcome) : Submission s file events outcome := by
  rcases Trace.of_query_bind h with ⟨rfl, rfl⟩ | ⟨ticket, rest, rfl, h₁⟩
  · exact .waiting (.nil s)
  · obtain ⟨rfl, rfl⟩ := Trace.of_pure h₁
    exact .started ticket (.nil s) rfl hroom

theorem submission_of_submitAfter :
    ∀ {outstanding : List Started} {summary : Summary} {events : List Event}
      {outcome : Option (Outcome ε (Except Error Unit × Scheduler))},
      Trace (submitAfter s file summary outstanding : Work ε (Except Error Unit × Scheduler)) events
        outcome → Submission { s with outstanding, summary } file events outcome
  | [], summary, events, outcome, h => submission_of_launch (fun hlimit => hlimit) h
  | oldest :: rest, summary, events, outcome, h => by
    unfold submitAfter at h
    split at h
    next hroom => exact submission_of_launch (fun _ => hroom) h
    next =>
      rcases Trace.of_bind h with ⟨first, r, later, rfl, h₁, h₂⟩ | ⟨stop, h₁, hs⟩
      · rcases ending_of_await h₁ with ⟨-, ho⟩ | ⟨ending, rfl, ⟨hf, ho⟩ | ⟨e, hf, hsum, ho⟩⟩
        · simp at ho
        · obtain rfl : r = _ := by simpa using ho
          exact .cons rfl hf (submission_of_submitAfter h₂)
        · obtain rfl : r = _ := by simpa using ho
          -- The failure of the oldest upload is reported, whatever the others end with.
          have hwait : Waits { s with outstanding := oldest :: rest, summary }
              [⟨.awaitUpload oldest.ticket, ending⟩] { s with outstanding := rest, summary } :=
            .cons ending rfl (by rw [told, hsum]; exact .nil _)
          have hfirst : firstFailure [⟨.awaitUpload oldest.ticket, ending⟩] = some e := by
            simp [hf]
          rcases Trace.of_query_bind h₂ with ⟨rfl, rfl⟩ | ⟨_, later, rfl, h₃⟩
          · exact .waiting hwait
          · rcases Trace.of_bind h₃ with ⟨draining, after, final, rfl, h₄, h₅⟩ | ⟨stop, h₄, hs⟩
            · obtain ⟨rfl, rfl⟩ := Trace.of_pure h₅
              obtain ⟨last, hw, hl⟩ := waits_of_drain h₄
              obtain ⟨hempty, rfl⟩ : last.outstanding = [] ∧ after = last := by simpa using hl
              rw [List.append_nil]
              exact .refused hwait hfirst hw hempty
            · obtain ⟨last, hw, hl⟩ := waits_of_drain h₄
              rw [hs.eq_none (hl.imp_right fun h => ⟨_, h.2⟩)]
              exact .draining hwait hfirst hw
      · rcases ending_of_await h₁ with ⟨rfl, rfl⟩ | ⟨ending, rfl, ⟨-, rfl⟩ | ⟨e, -, -, rfl⟩⟩
        · rw [hs.eq_none (Or.inl rfl)]
          exact .waiting (.nil _)
        · cases hs
        · cases hs

theorem submission_of_submit {outcome : Option (Outcome ε (Except Error Unit × Scheduler))}
    (h : Trace (s.submit file : Work ε (Except Error Unit × Scheduler)) events outcome) :
    Submission s file events outcome :=
  submission_of_submitAfter h

theorem along_remove (s : Scheduler) (path : String) :
    Along Step s [⟨.part (.remove path), ()⟩] s :=
  .one (.aside (by simp) (by simp) _)

/-- What comes of a submission : the upload is started and no failure was told, or the first failure
that was told is reported, the part is removed, and no upload is on its way. -/
theorem Submission.result {outcome : Option (Outcome ε (Except Error Unit × Scheduler))}
    (h : Submission s file events outcome) (hlimit : 0 < s.limit) :
    ∃ last, Along Step s events last ∧
      ((outcome = none ∧ launches events = []) ∨
        (outcome = some (.done (.ok (), last)) ∧ firstFailure events = none ∧
          ∃ ticket, launches events = [(s.session, ⟨ticket, file⟩)]) ∨
        ∃ e, outcome = some (.done (.error e, last)) ∧ firstFailure events = some e ∧
          launches events = [] ∧ last.outstanding = [] ∧
          (⟨.part (.remove file.path), ()⟩ : Event) ∈ events) := by
  cases h with
  | waiting hw => exact ⟨_, hw.along, Or.inl ⟨rfl, hw.launches_eq⟩⟩
  | started ticket hw hf hroom =>
    have hlimit' : 0 < _ := hw.same.2 ▸ hlimit
    refine ⟨_, hw.along.append (.one (.started file ticket (hroom hlimit'))),
      Or.inr (Or.inl ⟨rfl, ?_, ticket, ?_⟩)⟩
    · simp [hf]
    · simp [hw.launches_eq, hw.same.1]
  | draining hw hf hl =>
    refine ⟨_, hw.along.append ((along_remove _ file.path).append hl.along), Or.inl ⟨rfl, ?_⟩⟩
    simp [hw.launches_eq, hl.launches_eq]
  | refused hw hf hl hempty =>
    refine ⟨_, hw.along.append ((along_remove _ file.path).append hl.along),
      Or.inr (Or.inr ⟨_, rfl, ?_, ?_, hempty, by simp⟩)⟩
    · simp [hf]
    · simp [hw.launches_eq, hl.launches_eq]

/-! ## The ledger -/

theorem limit_pos (session : String) (requested : Nat) : 0 < (start session requested).limit :=
  Nat.le_max_left 1 _

/-- The uploads that were started are those whose endings the scheduler was told, in order, and then
those on their way. The summary is that of the uploads that succeeded, and the limit is kept. -/
structure Ledger (events : List Event) (s : Scheduler) (settled : List (Started × Upload.Ending)) :
    Prop where
  started : launches events = (settled.map Prod.fst ++ s.outstanding).map (s.session, ·)
  awaited : awaits events = settled.map fun upload => (upload.1.ticket, upload.2)
  summary : s.summary =
    Summary.addAll {} ((settled.filter (·.2 = .uploaded)).map Prod.fst)
  room : s.outstanding.length ≤ s.limit

namespace Ledger

variable {settled : List (Started × Upload.Ending)} {s' : Scheduler} {earlier : List Event}

theorem start (session : String) (requested : Nat) : Ledger [] (.start session requested) [] where
  started := rfl
  awaited := rfl
  summary := rfl
  room := Nat.zero_le _

theorem told (h : Ledger earlier s settled) {oldest : Started} {rest : List Started}
    (ending : Upload.Ending) (ho : s.outstanding = oldest :: rest) :
    Ledger (earlier ++ [⟨.awaitUpload oldest.ticket, ending⟩]) (s.told oldest rest ending)
      (settled ++ [(oldest, ending)]) where
  started := by simp [h.started, ho, Scheduler.told]
  awaited := by simp [h.awaited]
  summary := by
    rw [Scheduler.told, h.summary, List.filter_append, List.map_append, Summary.addAll_append]
    cases ending <;> simp [Summary.settle, Summary.addAll]
  room := by
    have hr := h.room
    rw [ho] at hr
    exact Nat.le_of_succ_le hr

theorem step (h : Ledger earlier s settled) {e : Event} (hs : Step s e s') :
    ∃ settled', Ledger (earlier ++ [e]) s' settled' := by
  cases hs with
  | awaited ending ho => exact ⟨_, h.told ending ho⟩
  | started file ticket hroom =>
    refine ⟨settled, ?_, ?_, h.summary, ?_⟩
    · simp [h.started]
    · simp [h.awaited, awaits_of_ne]
    · rw [List.length_append]
      exact hroom
  | aside hq ha a =>
    exact ⟨settled, by simp [h.started, launches_of_ne hq], by simp [h.awaited, awaits_of_ne ha],
      h.summary, h.room⟩

/-- Whatever is asked, the ledger is kept. -/
theorem along (h : Ledger earlier s settled) (ha : Along Step s events s') :
    ∃ settled', Ledger (earlier ++ events) s' settled' := by
  induction ha with
  | nil => exact ⟨settled, by simpa using h⟩
  | snoc _ hs ih =>
    obtain ⟨settled', h'⟩ := ih
    rw [← List.append_assoc]
    exact h'.step hs

end Ledger

theorem ledger_of_along {session : String} {requested : Nat}
    (h : Along Step (.start session requested) events s) : ∃ settled, Ledger events s settled := by
  simpa using (Ledger.start session requested).along h

/-- Neither the session nor the limit changes. -/
theorem same_of_along {s' : Scheduler} (h : Along Step s events s') :
    s'.session = s.session ∧ s'.limit = s.limit := by
  refine h.preserves (I := fun found => found.session = s.session ∧ found.limit = s.limit) ?_
    ⟨rfl, rfl⟩
  intro found e next hi hs
  cases hs <;> exact hi

end Scheduler

end BulkLoad.Import
