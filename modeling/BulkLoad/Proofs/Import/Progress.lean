import BulkLoad.Proofs.Import.Player
import BulkLoad.Proofs.Import.Settling

/-!
# Runs come to an end

An import that waits for its uploads is never stuck. It only waits for an upload that was started
and that it was not told of before (`Path.lt_of_awaits`), an upload can go on until it is over
(`Path.exists_over`), and all other questions are answered. So a run can be brought to its end from
wherever it is (`Path.completes`).
-/

namespace BulkLoad.Import

open Program (Trace Leads Along)

variable {α : Type} {client : Api.Client} {files : Files} {log : List Happening} {scene : Scene}

/-- An upload is not aborted. -/
theorem Tracked.not_aborted (h : Tracked client log scene) {ticket : Nat} {file : Part.File}
    {reason : Abort} (hu : scene.uploads[ticket]? = some ⟨file, .aborted reason⟩) : False := by
  obtain ⟨session, rest, -, hd, he⟩ := h.left ticket _ hu
  obtain rfl : .aborted reason = rest := by simpa using he
  obtain ⟨_, _, _, -, -, htail, -⟩ := Upload.of_task (hd.trace (.aborted reason))
  rcases htail with ⟨-, ho⟩ | ⟨-, ending, ho⟩ <;> simp at ho

/-- Some answer to a question of a call. -/
def anyAnswer : (q : Api.Question) → Api.Answer q
  | .send _ => .dropped ""
  | .wait _ => false

/-- An upload can go on until it is over. -/
theorem Path.exists_over {ticket : Nat} {file : Part.File} :
    ∀ (rest : Program Upload.Answer Empty Upload.Ending) {log : List Happening} {scene : Scene},
      Path client ⟨[], files⟩ log scene → scene.uploads[ticket]? = some ⟨file, rest⟩ →
        ∃ later last ending, Path client scene later last ∧ own later = [] ∧
          last.uploads[ticket]? = some ⟨file, .done ending⟩
  | .done ending, _, scene, _, hu => ⟨[], scene, ending, .nil, rfl, hu⟩
  | .failed e, _, _, _, _ => e.elim
  | .aborted _, _, _, hp, hu => ((Tracked.of_path hp).not_aborted hu).elim
  | .ask (.api q) next, log, scene, hp, hu => by
    have m : Move client scene _ _ := .called hu (anyAnswer q)
    obtain ⟨later, last, ending, hl, hown, ho⟩ :=
      exists_over (next (anyAnswer q)) (.snoc hp m) (Scene.goOn_self file _ hu)
    exact ⟨_, last, ending, .cons m hl, hown, ho⟩
  | .ask (.part q) next, log, scene, hp, hu => by
    have m : Move client scene _ _ := .worked hu (scene.files.serves q)
    obtain ⟨later, last, ending, hl, hown, ho⟩ :=
      exists_over (next (scene.files.serve q).1) (.snoc hp m) (Scene.goOn_self file _ hu)
    exact ⟨_, last, ending, .cons m hl, hown, ho⟩

/-- A question is answered, if need be after an upload is over. -/
theorem Path.exists_answer (hp : Path client ⟨[], files⟩ log scene) (q : Question)
    (hq : ∀ ticket, q = .awaitUpload ticket → ticket < scene.uploads.length) :
    ∃ later found a next, Path client scene later found ∧ own later = [] ∧
      Move client found (.own ⟨q, a⟩) next := by
  have aside {q : Question} (h : q.isAside) (a : Answer q) :
      ∃ later found a next, Path client scene later found ∧ own later = [] ∧
        Move client found (.own ⟨q, a⟩) next :=
    ⟨[], scene, a, scene, .nil, rfl, .aside h a⟩
  cases q with
  | part q => exact ⟨[], scene, _, _, .nil, rfl, .part (scene.files.serves q)⟩
  | startUpload session file => exact ⟨[], scene, _, _, .nil, rfl, .started session file⟩
  | awaitUpload ticket =>
    obtain ⟨later, last, ending, hl, hown, ho⟩ :=
      hp.exists_over _ (List.getElem?_eq_getElem (hq ticket rfl))
    exact ⟨later, last, ending, last, hl, hown, .awaited ho⟩
  | api q => exact aside trivial (anyAnswer q)
  | pause | cancelled => exact aside trivial false
  | clock => exact aside trivial (0 : Nat)
  | now => exact aside trivial (⟨0, 0, by decide, by decide, by decide⟩ : Calendar.Instant)
  | randomId => exact aside trivial (0 : UInt32)

/-- The questions of a program keep the ledger of a scheduler. -/
def Schedules (session : String) (requested : Nat) (p : Work Error α) : Prop :=
  ∀ events outcome, Trace p events outcome →
    ∃ last, Along Scheduler.Step (.start session requested) events last

variable {session : String} {requested : Nat} {p : Work Error α}

/-- Only uploads that were started are waited for. -/
theorem Path.lt_of_awaits (hp : Path client ⟨[], files⟩ log scene)
    (hs : Schedules session requested p) {ticket : Nat} {next : Upload.Ending → Work Error α}
    (hl : Leads p (own log) (.ask (.awaitUpload ticket) next)) : ticket < scene.uploads.length := by
  obtain ⟨outcome, ht⟩ := (hl.snoc .crashed).exists_trace
  obtain ⟨last, ha⟩ := hs _ outcome ht
  obtain ⟨middle, hm, hstep⟩ := ha.of_snoc
  obtain ⟨settled, hledger⟩ := Scheduler.ledger_of_along hm
  cases hstep with
  | aside _ hw => exact absurd rfl (hw ticket)
  | @awaited oldest rest ending ho =>
    have hlaunch : (middle.session, oldest) ∈ launches (own log) := by
      rw [hledger.started, ho]
      simp
    have hat := (Tracked.of_path hp).launch_at hlaunch
    exact (Tracked.of_path hp).length ▸ (List.getElem?_eq_some_iff.1 hat).1

theorem Path.completes_of_leads (hs : Schedules session requested p) :
    ∀ (rest : Work Error α) {log : List Happening} {scene : Scene},
      Path client ⟨[], files⟩ log scene → Leads p (own log) rest →
        ∃ later last outcome, Path client scene later last ∧
          Trace p (own (log ++ later)) (some outcome)
  | .done a, log, scene, _, hl => ⟨[], scene, _, .nil, by simpa using hl.trace (.done a)⟩
  | .failed e, log, scene, _, hl => ⟨[], scene, _, .nil, by simpa using hl.trace (.failed e)⟩
  | .aborted reason, log, scene, _, hl =>
    ⟨[], scene, _, .nil, by simpa using hl.trace (.aborted reason)⟩
  | .ask q next, log, scene, hp, hl => by
    obtain ⟨waiting, found, a, after, hw, hown, m⟩ := hp.exists_answer q
      (by rintro ticket rfl; exact hp.lt_of_awaits hs hl)
    have hown' : own (log ++ waiting ++ [.own ⟨q, a⟩]) = own log ++ [⟨q, a⟩] := by simp [hown]
    obtain ⟨later, last, outcome, hlater, ht⟩ := completes_of_leads hs (next a)
      (.snoc (hp.append hw) m) (hown' ▸ hl.snoc a)
    exact ⟨waiting ++ .own ⟨q, a⟩ :: later, last, outcome, hw.append (.cons m hlater),
      by simpa using ht⟩

/-- A run can be brought to its end from wherever it is. -/
theorem Path.completes (hs : Schedules session requested p)
    (hp : Path client ⟨[], files⟩ log scene) {outcome : Option (Outcome Error α)}
    (ht : Trace p (own log) outcome) :
    ∃ later last result, Path client scene later last ∧
      Trace p (own (log ++ later)) (some result) := by
  obtain ⟨rest, hl⟩ := ht.exists_leads
  exact completes_of_leads hs rest hp hl

end BulkLoad.Import
