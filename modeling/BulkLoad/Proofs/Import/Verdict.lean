import BulkLoad.Proofs.Import.Orders

/-!
# No failure is lost

An import submits its parts in order, stops at the first failure that a submission reports, and
finishes otherwise (`Scheduler.deliver`). A failed upload is only noticed when its turn to be waited
for comes, in a later submission or at the end. Still the result is that of all uploads, in the
order in which the parts were submitted, whatever the order in which the uploads end
(`reported_of_deliver`) : since uploads are waited for in that order, and all of them in the end,
the first failure that is told is that of the first part that failed.
-/

namespace BulkLoad.Import

open Program (Trace Along)

/-! ## Uploads that are started -/

/-- No upload is started after a failure was told. -/
def Guarded (events : List Event) : Prop :=
  ∃ quiet rest, events = quiet ++ rest ∧ firstFailure quiet = none ∧ launches rest = []

theorem Guarded.of_quiet {first rest : List Event} (hf : firstFailure first = none)
    (h : Guarded rest) : Guarded (first ++ rest) := by
  obtain ⟨quiet, last, rfl, hq, hl⟩ := h
  exact ⟨first ++ quiet, last, by simp, by simp [hf, hq], hl⟩

theorem Guarded.of_launches {events : List Event} (h : launches events = []) : Guarded events :=
  ⟨[], events, rfl, rfl, h⟩

/-- All uploads that were waited for before another was started have succeeded. -/
theorem Guarded.before {before after : List Event} {session : String} {file : Part.File}
    {ticket : Nat} (h : Guarded (before ++ ⟨.startUpload session file, ticket⟩ :: after)) :
    ∀ told ∈ awaits before, told.2 = .uploaded := by
  obtain ⟨quiet, rest, he, hq, hl⟩ := h
  refine firstFailure_eq_none.1 ?_
  rcases List.append_eq_append_iff.1 he with ⟨later, rfl, -⟩ | ⟨later, rfl, rfl⟩
  · rw [firstFailure_append, Option.or_eq_none_iff] at hq
    exact hq.1
  · simp at hl

namespace Scheduler

/-- Submits parts in order and finishes, unless a submission reports a failure. -/
def deliver (s : Scheduler) : List Part.File → Work Error Summary
  | [] => s.finish
  | part :: rest => do
    let (report, s) ← s.submit part
    Program.ofExcept report
    s.deliver rest

/-- How parts are delivered : the first of them are handed over, all of them unless a failure is
told, and the result is the first failure that is told. -/
structure Delivery (s : Scheduler) (parts : List Part.File) (events : List Event)
    (outcome : Option (Outcome Error Summary)) (last : Scheduler) : Prop where
  along : Along Step s events last
  guarded : Guarded events
  handed : (launches events).map (·.2.file) <+: parts
  result : outcome = none ∨ last.outstanding = [] ∧
    ((firstFailure events = none ∧ (launches events).map (·.2.file) = parts ∧
        outcome = some (.done last.summary)) ∨
      ∃ e, firstFailure events = some e ∧ outcome = some (.failed e))

theorem delivery_of_deliver : ∀ {parts : List Part.File} {s : Scheduler} {events : List Event}
    {outcome : Option (Outcome Error Summary)}, 0 < s.limit →
    Trace (s.deliver parts) events outcome → ∃ last, Delivery s parts events outcome last
  | [], s, events, outcome, _, h => by
    obtain ⟨last, hw, hl⟩ := waits_of_finish h
    refine ⟨last, hw.along, .of_launches hw.launches_eq, by simp [hw.launches_eq], ?_⟩
    simpa [hw.launches_eq] using hl
  | part :: rest, s, events, outcome, hlimit, h => by
    rcases Trace.of_bind h with ⟨first, ⟨report, middle⟩, later, rfl, h₁, h₂⟩ | ⟨stop, h₁, hs⟩
    · obtain ⟨found, halong, ho⟩ := (submission_of_submit h₁).result hlimit
      rcases ho with ⟨ho, -⟩ | ⟨ho, hf, ticket, hl⟩ | ⟨e, ho, hf, hl, hempty, -⟩
      · simp at ho
      · obtain ⟨rfl, rfl⟩ : report = .ok () ∧ middle = found := by simpa using ho
        have hlimit' : 0 < middle.limit := (same_of_along halong).2 ▸ hlimit
        obtain ⟨last, hd⟩ := delivery_of_deliver hlimit' h₂
        refine ⟨last, halong.append hd.along, hd.guarded.of_quiet hf, ?_, ?_⟩
        · simpa [hl] using hd.handed
        · simpa [hl, hf] using hd.result
      · obtain ⟨rfl, rfl⟩ : report = .error e ∧ middle = found := by simpa using ho
        obtain ⟨rfl, rfl⟩ := Trace.of_throw h₂
        rw [List.append_nil]
        refine ⟨_, halong, .of_launches hl, by simp [hl], Or.inr ⟨hempty, Or.inr ⟨e, hf, rfl⟩⟩⟩
    · obtain ⟨found, halong, ho⟩ := (submission_of_submit h₁).result hlimit
      rcases ho with ⟨rfl, hl⟩ | ⟨rfl, -⟩ | ⟨e, rfl, -⟩
      · exact ⟨found, halong, .of_launches hl, by simp [hl], Or.inl (hs.eq_none (Or.inl rfl))⟩
      · cases hs
      · cases hs

end Scheduler

open Scheduler

variable {client : Api.Client} {files : Files} {log : List Happening} {scene : Scene}

/-- How the delivery of parts goes. -/
structure Reported (client : Api.Client) (session : String) (requested : Nat)
    (parts : List Part.File) (log : List Happening) (scene : Scene)
    (outcome : Option (Outcome Error Summary)) : Prop where
  /-- The parts are handed over in order. -/
  handed : scene.uploads.map (·.file) <+: parts
  /-- A part is only handed over when no failure was told before. -/
  guarded : ∀ before after session file ticket,
    own log = before ++ ⟨.startUpload session file, ticket⟩ :: after →
      ∀ told ∈ awaits before, told.2 = .uploaded
  /-- At the end all uploads are over. -/
  ended : outcome ≠ none → ∀ running ∈ scene.uploads, running.ending?.isSome
  /-- The delivery succeeds exactly when each upload does, and then all parts were handed over. -/
  succeeds : outcome ≠ none → ((∃ total, outcome = some (.done total)) ↔
    ∀ running ∈ scene.uploads, running.ending? = some .uploaded)
  complete : ∀ total, outcome = some (.done total) → scene.uploads.map (·.file) = parts
  /-- The failure of the first part that failed is reported. -/
  fails : outcome ≠ none → ∀ n file ending e, scene.uploads[n]? = some ⟨file, .done ending⟩ →
    ending.failure? = some e →
      (∀ running ∈ scene.uploads.take n, running.ending? = some .uploaded) →
        outcome = some (.failed e)
  /-- The delivery is never stuck. -/
  ends : ∃ later last result, Path client scene later last ∧
    Trace ((start session requested).deliver parts) (own (log ++ later)) (some result)

/-- The failure that an upload has ended with. -/
def Running.failure? (running : Running) : Option Error :=
  running.ending?.bind (·.failure?)

theorem Running.failure?_eq_none {running : Running} (h : running.ending?.isSome) :
    running.failure? = none ↔ running.ending? = some .uploaded := by
  obtain ⟨ending, he⟩ := Option.isSome_iff_exists.1 h
  simp [failure?, he]

/-- When nothing is on its way, the first failure that was told is that of the first upload that
failed. -/
theorem Scheduler.Ledger.firstFailure_eq {s : Scheduler}
    {settled : List (Started × Upload.Ending)} (h : Ledger (own log) s settled)
    (hp : Path client ⟨[], files⟩ log scene) (hempty : s.outstanding = []) :
    firstFailure (own log) = scene.uploads.findSome? (·.failure?) := by
  rw [firstFailure, h.awaited, h.uploads_of_empty hp hempty, List.findSome?_map, List.findSome?_map]
  rfl

theorem schedules_deliver {session : String} {requested : Nat} {parts : List Part.File} :
    Schedules session requested ((start session requested).deliver parts) := by
  intro events outcome h
  obtain ⟨last, hd⟩ := delivery_of_deliver (limit_pos session requested) h
  exact ⟨last, hd.along⟩

/-- However the uploads go, the delivery of parts reports the first part that failed. -/
theorem reported_of_deliver {session : String} {requested : Nat} {parts : List Part.File}
    {outcome : Option (Outcome Error Summary)} (hp : Path client ⟨[], files⟩ log scene)
    (ht : Trace ((start session requested).deliver parts) (own log) outcome) :
    Reported client session requested parts log scene outcome := by
  obtain ⟨last, hd⟩ := delivery_of_deliver (limit_pos session requested) ht
  obtain ⟨settled, hledger⟩ := ledger_of_along hd.along
  have hfiles := (Tracked.of_path hp).files_eq
  have hempty (hn : outcome ≠ none) : last.outstanding = [] := (hd.result.resolve_left hn).1
  have hfirst (hn : outcome ≠ none) := hledger.firstFailure_eq hp (hempty hn)
  refine ⟨hfiles ▸ hd.handed, fun before after session file ticket he => ?_,
    fun hn => hledger.over_of_empty hp (hempty hn), fun hn => ?_, fun total ho => ?_,
    fun hn n file ending e hu he hbefore => ?_,
    hp.completes schedules_deliver ht⟩
  · exact (he ▸ hd.guarded).before
  · have hnone : firstFailure (own log) = none ↔
        ∀ running ∈ scene.uploads, running.ending? = some .uploaded := by
      rw [hfirst hn, List.findSome?_eq_none_iff]
      exact forall₂_congr fun running hm =>
        Running.failure?_eq_none (hledger.over_of_empty hp (hempty hn) running hm)
    rw [← hnone]
    rcases (hd.result.resolve_left hn).2 with ⟨hf, -, rfl⟩ | ⟨e, hf, rfl⟩ <;> simp [hf]
  · subst ho
    rcases (hd.result.resolve_left (by simp)).2 with ⟨-, hall, -⟩ | ⟨e, -, ho⟩
    · rw [hfiles, hall]
    · simp at ho
  · have hlt := (List.getElem?_eq_some_iff.1 hu).1
    have hdrop : scene.uploads.drop n = ⟨file, .done ending⟩ :: scene.uploads.drop (n + 1) := by
      rw [List.drop_eq_getElem_cons hlt, (List.getElem?_eq_some_iff.1 hu).2]
    have htake : (scene.uploads.take n).findSome? (·.failure?) = none := by
      rw [List.findSome?_eq_none_iff]
      intro running hm
      simp [Running.failure?, hbefore running hm, Upload.Ending.failure?]
    have hf : firstFailure (own log) = some e := by
      rw [hfirst hn, ← List.take_append_drop n scene.uploads, List.findSome?_append, htake, hdrop]
      simp [Running.failure?, Running.ending?, he]
    rcases (hd.result.resolve_left hn).2 with ⟨hf', -⟩ | ⟨e', hf', rfl⟩
    · simp [hf] at hf'
    · obtain rfl : e = e' := by simpa [hf] using hf'
      rfl

/-! ## The second of three parts -/

/-- The service refuses the second part, which is noticed only after the third was handed over. -/
def delivered : List Happening × Option (Outcome Error Summary) :=
  play SessionDriver.careful.client (attended SessionDriver.careful.client)
    ((start "s" 2).deliver [smallPart 1, smallPart 2, smallPart 3]) ⟨[], fun _ => some []⟩
    { service := ⟨[⟨"PUT *", [{}, { status := 400 }, {}]⟩], []⟩, moment := SessionDriver.epoch }

/-- Whether a part was refused with the status 400. -/
def isBadRequest : Option (Outcome Error Summary) → Bool
  | some (.failed (.api (.other _ status _))) => status == 400
  | _ => false

theorem reported_delivered :
    (launches (own delivered.1)).length = 3 ∧ isBadRequest delivered.2 = true ∧
      ∃ scene, Path SessionDriver.careful.client ⟨[], fun _ => some []⟩ delivered.1 scene ∧
        Reported SessionDriver.careful.client "s" 2 [smallPart 1, smallPart 2, smallPart 3]
          delivered.1 scene delivered.2 := by
  obtain ⟨scene, hp⟩ : ∃ scene, Path SessionDriver.careful.client ⟨[], fun _ => some []⟩
      delivered.1 scene := path_play _ _ _ _
  have ht : Trace ((start "s" 2).deliver [smallPart 1, smallPart 2, smallPart 3])
      (own delivered.1) delivered.2 := trace_play _ _ _ _
  exact ⟨by decide +kernel, by decide +kernel, scene, hp, reported_of_deliver hp ht⟩

end BulkLoad.Import
