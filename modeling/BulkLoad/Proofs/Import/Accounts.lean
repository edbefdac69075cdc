import BulkLoad.Proofs.Import.Ledger

/-!
# The accounts of a scheduler

A scheduler knows of each upload that it started : it is on its way, or the scheduler was told that
it succeeded and has taken it into the summary (`Accounts`). Waiting for uploads and starting
another keeps the accounts, as long as nothing fails; at the end nothing is on its way any more.
-/

namespace BulkLoad.Import

open Program (Trace)

/-- The import is told that an upload succeeded. -/
def succeeded (upload : Started) : Event :=
  ⟨.awaitUpload upload.ticket, .uploaded⟩

@[simp] theorem launches_succeeded (uploads : List Started) :
    launches (uploads.map succeeded) = [] := by
  simp [launches, succeeded, List.filterMap_eq_nil_iff]

namespace Scheduler

variable {ε : Type} {events : List Event} {s : Scheduler}

/-- When no failure is told, the uploads that were waited for have succeeded. -/
theorem Waits.of_quiet {last : Scheduler} (h : Waits s events last)
    (hf : firstFailure events = none) :
    ∃ uploads, events = uploads.map succeeded ∧ s.outstanding = uploads ++ last.outstanding ∧
      last.summary = s.summary.addAll uploads := by
  induction h with
  | nil => exact ⟨[], rfl, rfl, rfl⟩
  | @cons s last oldest rest events ending ho _ ih =>
    rw [firstFailure_await, Option.or_eq_none_iff] at hf
    obtain rfl := Upload.Ending.failure?_eq_none.1 hf.1
    obtain ⟨uploads, rfl, hout, hsum⟩ := ih hf.2
    exact ⟨oldest :: uploads, rfl, by rw [ho]; exact congrArg _ hout, hsum⟩

/-! ## Accounts -/

/-- Each upload that was started is on its way, or has succeeded and is in the summary. -/
def Accounts (events : List Event) (s : Scheduler) : Prop :=
  ∃ settled, launches events = (settled ++ s.outstanding).map (s.session, ·) ∧
    (∀ upload ∈ settled, succeeded upload ∈ events) ∧ s.summary = Summary.addAll {} settled

/-- Questions that start no upload leave the accounts as they are. -/
theorem Accounts.aside {earlier : List Event} (h : Accounts earlier s)
    (he : launches events = []) : Accounts (earlier ++ events) s := by
  obtain ⟨settled, hl, hw, hsum⟩ := h
  exact ⟨settled, by simp [hl, he], fun upload hm => List.mem_append_left _ (hw upload hm), hsum⟩

/-- Uploads that have succeeded are settled. -/
theorem Accounts.waits {last : Scheduler} {earlier : List Event} {uploads : List Started}
    (h : Accounts earlier s) (hw : Waits s (uploads.map succeeded) last)
    (ho : s.outstanding = uploads ++ last.outstanding)
    (hsum : last.summary = s.summary.addAll uploads) :
    Accounts (earlier ++ uploads.map succeeded) last := by
  obtain ⟨settled, hl, hw', hsum'⟩ := h
  refine ⟨settled ++ uploads, ?_, ?_, ?_⟩
  · rw [launches_append, launches_succeeded, List.append_nil, hl, ho, hw.same.1,
      List.append_assoc]
  · intro upload hm
    rcases List.mem_append.1 hm with hm | hm
    · exact List.mem_append_left _ (hw' upload hm)
    · exact List.mem_append_right _ (List.mem_map_of_mem hm)
  · rw [hsum, hsum', Summary.addAll_append]

theorem Accounts.launch {earlier : List Event} (file : Part.File) (ticket : Nat)
    (h : Accounts earlier s) :
    Accounts (earlier ++ [⟨.startUpload s.session file, ticket⟩])
      { s with outstanding := s.outstanding ++ [⟨ticket, file⟩] } := by
  obtain ⟨settled, hl, hw, hsum⟩ := h
  exact ⟨settled, by simp [hl], fun upload hm => List.mem_append_left _ (hw upload hm), hsum⟩

/-- A part that is handed over is started after uploads that succeeded. -/
theorem of_submit {s' : Scheduler} {file : Part.File} {earlier : List Event}
    (h : Trace (submit s file : Work ε (Except Error Unit × Scheduler)) events
      (some (.done (.ok (), s')))) (ha : Accounts earlier s) :
    Accounts (earlier ++ events) s' ∧ s'.session = s.session ∧
      ∃ waits : List Started, ∃ ticket,
        events = waits.map succeeded ++ [⟨.startUpload s.session file, ticket⟩] := by
  cases submission_of_submit h with
  | @started _ middle ticket hw hf =>
    obtain ⟨uploads, rfl, ho, hsum⟩ := hw.of_quiet hf
    have hsession := hw.same.1
    refine ⟨?_, hsession, uploads, ticket, by rw [hsession]⟩
    rw [← List.append_assoc]
    exact (ha.waits hw ho hsum).launch file ticket

/-- At the end all uploads that were started have succeeded and are in the summary. -/
theorem of_finish {summary : Summary} {earlier : List Event}
    (h : Trace s.finish events (some (.done summary))) (ha : Accounts earlier s) :
    (∃ waits : List Started, events = waits.map succeeded) ∧
    ∃ settled, launches (earlier ++ events) = settled.map (s.session, ·) ∧
      (∀ upload ∈ settled, succeeded upload ∈ earlier ++ events) ∧
      summary = Summary.addAll {} settled := by
  obtain ⟨last, hw, hl⟩ := waits_of_finish h
  obtain ⟨hempty, hf, rfl⟩ : last.outstanding = [] ∧ firstFailure events = none ∧
      summary = last.summary := by
    simpa using hl
  obtain ⟨uploads, rfl, ho, hsum⟩ := hw.of_quiet hf
  obtain ⟨settled, hlaunches, hsettled, hsummary⟩ := ha.waits hw ho hsum
  refine ⟨⟨uploads, rfl⟩, settled, ?_, hsettled, hsummary⟩
  rw [hlaunches, hempty, List.append_nil, hw.same.1]

end Scheduler

end BulkLoad.Import
