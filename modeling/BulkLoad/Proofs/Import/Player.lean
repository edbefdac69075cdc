import BulkLoad.Proofs.Import.Tracking
import BulkLoad.Rehearsal.World

/-!
# Played runs

Runs can be computed. `play` carries each upload out as soon as it is started, in a file system
where nothing fails, and has all other questions answered by surroundings with a state. What it
gives is a `Run` (`run_of_play`), so there are runs for any surroundings.
-/

namespace BulkLoad.Import

open Program (Trace)

variable {σ α : Type} {client : Api.Client}

/-- A file system where nothing fails, except that no file is made or found where there should
not. -/
def Files.serve (files : Files) : (q : Part.Question) → Part.Answer q × Files
  | .create _ name =>
    match files name with
    | none => (.ok name, Function.update files name (some []))
    | some _ => (.error ⟨name, "File exists"⟩, files)
  | .append path bytes =>
    match files path with
    | some content =>
      (.ok (content.length + bytes.length), Function.update files path (some (content ++ bytes)))
    | none => (.error "No such file", Function.update files path none)
  | .close path => (.ok ((files path).getD []).length, files)
  | .remove path => ((), Function.update files path none)

theorem Files.serves (files : Files) : ∀ q : Part.Question,
    Serves files q (files.serve q).1 (files.serve q).2
  | .create directory name => by
    cases h : files name with
    | none =>
      simp only [Files.serve, h]
      exact .created h
    | some content =>
      simp only [Files.serve, h]
      exact .notCreated
  | .append path bytes => by
    cases h : files path with
    | none =>
      simp only [Files.serve, h]
      exact .notAppended
    | some content =>
      simp only [Files.serve, h]
      exact .appended h
  | .close _ => .closed
  | .remove _ => .removed

/-- Surroundings that answer by a state; a request may bring the content of a file along. -/
abbrev Surroundings (σ : Type) : Type :=
  (q : Question) → Option (List UInt8) → σ → Answer q × σ

/-- Carries an upload out. -/
def carryOut (around : Surroundings σ) (ticket : Nat) (file : Part.File) :
    Program Upload.Answer Empty Upload.Ending → Scene → σ → List Happening × Scene × σ
  | .ask (.api q) next, scene, s =>
    let (a, s) := around (.api q) (scene.carried q) s
    let (later, last) := carryOut around ticket file (next a) (scene.goOn ticket file (next a)) s
    (.beside ticket (scene.carried q) ⟨.api q, a⟩ :: later, last)
  | .ask (.part q) next, scene, s =>
    let (a, files) := scene.files.serve q
    let (later, last) :=
      carryOut around ticket file (next a) { scene.goOn ticket file (next a) with files } s
    (.beside ticket none ⟨.part q, a⟩ :: later, last)
  | _, scene, s => ([], scene, s)

/-- Plays a program in a scene. -/
def play (client : Api.Client) (around : Surroundings σ) :
    Work Error α → Scene → σ → List Happening × Option (Outcome Error α)
  | .done a, _, _ => ([], some (.done a))
  | .failed e, _, _ => ([], some (.failed e))
  | .aborted reason, _, _ => ([], some (.aborted reason))
  | .ask (.part q) next, scene, s =>
    let (a, files) := scene.files.serve q
    let (later, outcome) := play client around (next a) { scene with files } s
    (.own ⟨.part q, a⟩ :: later, outcome)
  | .ask (.startUpload session file) next, scene, s =>
    let ticket := scene.uploads.length
    let task := Upload.task client session file
    let (uploading, scene, s) := carryOut around ticket file task
      { scene with uploads := scene.uploads ++ [⟨file, task⟩] } s
    let (later, outcome) := play client around (next ticket) scene s
    (.own ⟨.startUpload session file, ticket⟩ :: uploading ++ later, outcome)
  | .ask (.awaitUpload ticket) next, scene, s =>
    match scene.uploads[ticket]? with
    | some ⟨_, .done ending⟩ =>
      let (later, outcome) := play client around (next ending) scene s
      (.own ⟨.awaitUpload ticket, ending⟩ :: later, outcome)
    | _ => ([], none)
  | .ask q next, scene, s =>
    let (a, s) := around q none s
    let (later, outcome) := play client around (next a) scene s
    (.own ⟨q, a⟩ :: later, outcome)

/-- The surroundings of a rehearsal, apart from its files and uploads. -/
def attended (client : Api.Client) : Surroundings Rehearsal.World
  | .api (.send request), content, w => w.deliver request (content.getD [])
  | q, _, w => Rehearsal.World.answer client q w

/-! ## Played runs are runs -/

theorem Path.append {start middle last : Scene} {first rest : List Happening}
    (h₁ : Path client start first middle) (h₂ : Path client middle rest last) :
    Path client start (first ++ rest) last := by
  induction h₂ with
  | nil => simpa using h₁
  | snoc _ m ih =>
    rw [← List.append_assoc]
    exact .snoc ih m

theorem Path.cons {start middle last : Scene} {happening : Happening} {rest : List Happening}
    (m : Move client start happening middle) (h : Path client middle rest last) :
    Path client start (happening :: rest) last :=
  Path.append (.snoc .nil m) h

/-- An upload that is carried out only makes moves of its own. -/
theorem path_carryOut (client : Api.Client) (around : Surroundings σ) {ticket : Nat}
    {file : Part.File} : ∀ (p : Program Upload.Answer Empty Upload.Ending) (scene : Scene) (s : σ),
      scene.uploads[ticket]? = some ⟨file, p⟩ →
        Path client scene (carryOut around ticket file p scene s).1
          (carryOut around ticket file p scene s).2.1
  | .ask (.api _) next, _, _, h =>
    .cons (.called h _) (path_carryOut client around (next _) _ _ (Scene.goOn_self _ _ h))
  | .ask (.part q) next, scene, _, h =>
    .cons (.worked h (scene.files.serves q))
      (path_carryOut client around (next _) _ _ (Scene.goOn_self _ _ h))
  | .done _, _, _, _ | .failed _, _, _, _ | .aborted _, _, _, _ => .nil

theorem own_carryOut (around : Surroundings σ) {ticket : Nat} {file : Part.File} :
    ∀ (p : Program Upload.Answer Empty Upload.Ending) (scene : Scene) (s : σ),
      own (carryOut around ticket file p scene s).1 = []
  | .ask (.api _) next, _, _ => own_carryOut around (next _) _ _
  | .ask (.part _) next, _, _ => own_carryOut around (next _) _ _
  | .done _, _, _ | .failed _, _, _ | .aborted _, _, _ => rfl

theorem path_play (around : Surroundings σ) : ∀ (p : Work Error α) (scene : Scene) (s : σ),
    ∃ last, Path client scene (play client around p scene s).1 last
  | .done _, scene, _ | .failed _, scene, _ | .aborted _, scene, _ => ⟨scene, .nil⟩
  | .ask (.part q) next, scene, s => by
    obtain ⟨last, h⟩ := path_play around (next _) { scene with files := (scene.files.serve q).2 } s
    exact ⟨last, .cons (.part (scene.files.serves q)) h⟩
  | .ask (.startUpload session file) next, scene, s => by
    have hstarted : (scene.uploads ++ [⟨file, Upload.task client session file⟩])[
        scene.uploads.length]? = some ⟨file, Upload.task client session file⟩ :=
      List.getElem?_concat_length
    have hcarried := path_carryOut client around (Upload.task client session file)
      { scene with uploads := scene.uploads ++ [⟨file, Upload.task client session file⟩] } s
      hstarted
    obtain ⟨last, h⟩ := path_play around (next scene.uploads.length) _ _
    exact ⟨last, .cons (.started session file) (hcarried.append h)⟩
  | .ask (.awaitUpload ticket) next, scene, s => by
    unfold play
    split
    next file ending hu =>
      obtain ⟨last, h⟩ := path_play around (next ending) scene s
      exact ⟨last, .cons (.awaited hu) h⟩
    next => exact ⟨scene, .nil⟩
  | .ask (.api _) next, scene, _ | .ask (.pause _) next, scene, _
  | .ask .cancelled next, scene, _ | .ask .clock next, scene, _ | .ask .now next, scene, _
  | .ask .randomId next, scene, _ => by
    obtain ⟨last, h⟩ := path_play around (next _) scene _
    refine ⟨last, .cons (.aside ?_ _) h⟩
    trivial

theorem trace_play (around : Surroundings σ) : ∀ (p : Work Error α) (scene : Scene) (s : σ),
    Trace p (own (play client around p scene s).1) (play client around p scene s).2
  | .done a, _, _ => .done a
  | .failed e, _, _ => .failed e
  | .aborted reason, _, _ => .aborted reason
  | .ask (.startUpload session file) next, scene, s => by
    unfold play
    simp only [List.cons_append, own_cons_own, own_append, own_carryOut, List.nil_append]
    exact .ask _ (trace_play around (next _) _ _)
  | .ask (.awaitUpload ticket) next, scene, s => by
    unfold play
    split
    next => exact .ask _ (trace_play around (next _) _ _)
    next => exact .cut _ _
  | .ask (.part _) next, _, _ | .ask (.api _) next, _, _ | .ask (.pause _) next, _, _
  | .ask .cancelled next, _, _ | .ask .clock next, _, _ | .ask .now next, _, _
  | .ask .randomId next, _, _ =>
    .ask _ (trace_play around (next _) _ _)

/-- Whatever the surroundings are, what is played is a run. -/
theorem run_of_play (around : Surroundings σ) (p : Work Error α) (files : Files) (s : σ) :
    Run client p (play client around p ⟨[], files⟩ s).1 (play client around p ⟨[], files⟩ s).2 :=
  ⟨⟨files, path_play around p ⟨[], files⟩ s⟩, trace_play around p ⟨[], files⟩ s⟩

end BulkLoad.Import
