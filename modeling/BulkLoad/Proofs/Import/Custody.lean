import BulkLoad.Proofs.Import.Contents
import BulkLoad.Proofs.Import.Settling

/-!
# The custody of part files

A part file changes hands : the import makes it and writes to it, and hands it over to an upload,
which removes it. At each moment the import has at most one file in its hands (`Hand`), and each
upload that is not over has one. As long as the import keeps to this, all other files are as they
were before it (`Custody`), so nothing is left of it once its hands are free and its uploads are
over.
-/

namespace BulkLoad.Import

open Program (Trace Along)

/-! ## What an import has in its hands -/

/-- The file that an import has in its hands. -/
inductive Hand
  | free
  | held (path : String)
  /-- It could not be written, and anything may be left of it. -/
  | broken (path : String)
deriving DecidableEq

namespace Hand

def path? : Hand → Option String
  | .free => none
  | .held path | .broken path => some path

/-- What a question of an import does to its hands. A file is made with free hands only, and one
that could not be written can only be removed. -/
inductive Step : Hand → Event → Hand → Prop
  | created {directory : Option String} {name path : String} :
    Step .free ⟨.part (.create directory name), .ok path⟩ (.held path)
  | notCreated {directory : Option String} {name : String} {fault : Part.FileFault} :
    Step .free ⟨.part (.create directory name), .error fault⟩ .free
  | appended {path : String} {bytes : List UInt8} {size : Nat} :
    Step (.held path) ⟨.part (.append path bytes), .ok size⟩ (.held path)
  | notAppended {path : String} {bytes : List UInt8} {detail : String} :
    Step (.held path) ⟨.part (.append path bytes), .error detail⟩ (.broken path)
  | closed {path : String} {size : Nat} :
    Step (.held path) ⟨.part (.close path), .ok size⟩ (.held path)
  | notClosed {path : String} {fault : Part.FileFault} :
    Step (.held path) ⟨.part (.close path), .error fault⟩ (.broken path)
  | removed {hand : Hand} {path : String} (h : hand.path? = some path) :
    Step hand ⟨.part (.remove path), ()⟩ .free
  | handedOver {session : String} {file : Part.File} {ticket : Nat} :
    Step (.held file.path) ⟨.startUpload session file, ticket⟩ .free
  | aside {hand : Hand} {q : Question} (hq : ∀ part, q ≠ .part part)
    (hs : ∀ session file, q ≠ .startUpload session file) (a : Answer q) : Step hand ⟨q, a⟩ hand

end Hand

/-- The files that an import makes. -/
def creations (events : List Event) : List String :=
  events.filterMap fun
    | ⟨.part (.create _ _), .ok path⟩ => some path
    | _ => none

@[simp] theorem creations_append (first rest : List Event) :
    creations (first ++ rest) = creations first ++ creations rest :=
  List.filterMap_append

@[simp] theorem creations_nil : creations [] = [] :=
  rfl

theorem creations_of_ne {q : Question} (h : ∀ part, q ≠ .part part) (a : Answer q) :
    creations [⟨q, a⟩] = [] := by
  cases q with
  | part part => exact absurd rfl (h part)
  | _ => rfl

/-! ## Files of uploads -/

/-- The upload with a ticket is not over, and has a file. -/
def Scene.Busy (scene : Scene) (ticket : Nat) (path : String) : Prop :=
  ∃ running, scene.uploads[ticket]? = some running ∧ running.Unfinished ∧ running.file.path = path

variable {client : Api.Client} {log : List Happening} {scene scene' : Scene}

/-- An upload that is started has its file. -/
theorem Scene.Busy.of_started {file : Part.File} {rest : Program Upload.Answer Empty Upload.Ending}
    {t : Nat} {path : String}
    (h : Busy { scene with uploads := scene.uploads ++ [⟨file, rest⟩] } t path) :
    scene.Busy t path ∨ t = scene.uploads.length ∧ file.path = path := by
  obtain ⟨running, hu, hr, hp⟩ := h
  rcases upload_of_started hu with hu | ⟨ht, rfl⟩
  · exact Or.inl ⟨running, hu, hr, hp⟩
  · exact Or.inr ⟨ht, hp⟩

section GoesOn

variable {ticket t : Nat} {path : String} {file : Part.File} {q : Upload.Question}
  {next : Upload.Answer q → Program Upload.Answer Empty Upload.Ending}
  {rest : Program Upload.Answer Empty Upload.Ending}

theorem Scene.Busy.path_eq (h : scene.Busy ticket path)
    (hu : scene.uploads[ticket]? = some ⟨file, .ask q next⟩) : file.path = path := by
  obtain ⟨running, hr, -, hp⟩ := h
  obtain rfl : (⟨file, .ask q next⟩ : Running) = running := by simpa [hu] using hr
  exact hp

/-- An upload that goes on keeps its file, unless it is over. -/
theorem Scene.Busy.goOn (h : scene.Busy t path)
    (hu : scene.uploads[ticket]? = some ⟨file, .ask q next⟩)
    (hr : t = ticket → (⟨file, rest⟩ : Running).Unfinished) :
    (scene.goOn ticket file rest).Busy t path := by
  by_cases ht : t = ticket
  · subst ht
    exact ⟨⟨file, rest⟩, goOn_self file rest hu, hr rfl, h.path_eq hu⟩
  · obtain ⟨running, hu', hf, hp⟩ := h
    exact ⟨running, by simpa [Scene.goOn, List.getElem?_set, Ne.symm ht] using hu', hf, hp⟩

theorem Scene.Busy.of_goOn (hu : scene.uploads[ticket]? = some ⟨file, .ask q next⟩)
    (h : (scene.goOn ticket file rest).Busy t path) :
    scene.Busy t path ∧ (t = ticket → (⟨file, rest⟩ : Running).Unfinished) := by
  obtain ⟨running, hr, hf, hp⟩ := h
  rcases upload_of_goOn hr with ⟨rfl, rfl⟩ | ⟨ht, hr⟩
  · exact ⟨⟨_, hu, ⟨q, next, rfl⟩, hp⟩, fun _ => hf⟩
  · exact ⟨⟨running, hr, hf, hp⟩, fun he => absurd he.symm ht⟩

end GoesOn

/-! ## Custody -/

/-- Each file that is there but was not before is in the hands of the import or that of one upload
that is not over. All other files are as they were before. -/
structure Custody (files : Files) (hand : Hand) (made : List String) (scene : Scene) : Prop where
  /-- Files are made that were not there before. -/
  new : ∀ path ∈ made, files path = none
  held : ∀ path, hand.path? = some path → path ∈ made
  kept : ∀ path, hand = .held path → ∃ content, scene.files path = some content
  busy : ∀ t path, scene.Busy t path → path ∈ made ∧ hand.path? ≠ some path ∧
    ∃ content, scene.files path = some content
  apart : ∀ t t' path, scene.Busy t path → scene.Busy t' path → t = t'
  others : ∀ path, hand.path? ≠ some path → (∀ t, ¬ scene.Busy t path) →
    scene.files path = files path

namespace Custody

variable {files : Files} {hand hand' : Hand} {made : List String}

theorem start (files : Files) : Custody files .free [] ⟨[], files⟩ where
  new _ h := by simp at h
  held _ h := by simp [Hand.path?] at h
  kept _ h := by simp at h
  busy t path h := by
    obtain ⟨running, hu, -⟩ := h
    simp at hu
  apart t t' path h := by
    obtain ⟨running, hu, -⟩ := h
    simp at hu
  others _ _ _ := rfl

/-- A file is made that was not there. -/
theorem created {path : String} (h : Custody files .free made scene)
    (hp : scene.files path = none) :
    Custody files (.held path) (made ++ [path])
      { scene with files := Function.update scene.files path (some []) } := by
  have hidle (t : Nat) : ¬ scene.Busy t path := by
    intro hb
    obtain ⟨-, -, content, hc⟩ := h.busy t path hb
    simp [hp] at hc
  refine ⟨?_, ?_, ?_, fun t other hb => ?_, h.apart, fun other hn hb => ?_⟩
  · intro other hm
    rcases List.mem_append.1 hm with hm | hm
    · exact h.new other hm
    · rw [List.mem_singleton.1 hm, ← h.others path (by simp [Hand.path?]) hidle, hp]
  · intro other ho
    obtain rfl : path = other := by simpa [Hand.path?] using ho
    simp
  · intro other ho
    obtain rfl : path = other := by simpa using ho
    exact ⟨[], by simp⟩
  · have hne : other ≠ path := by
      rintro rfl
      exact hidle t hb
    obtain ⟨hm, -, content, hc⟩ := h.busy t other hb
    exact ⟨by simp [hm], by simpa [Hand.path?] using hne.symm, content,
      (Function.update_of_ne hne _ _).trans hc⟩
  · have hne : other ≠ path := by
      rintro rfl
      simp [Hand.path?] at hn
    exact (Function.update_of_ne hne _ _).trans (h.others other (by simp [Hand.path?]) hb)

/-- The file in the hands is written, which may break it. -/
theorem written {path : String} {content : Option (List UInt8)}
    (h : Custody files hand made scene) (hp : hand.path? = some path)
    (hp' : hand'.path? = some path) (hc : hand' = .held path → ∃ bytes, content = some bytes) :
    Custody files hand' made
      { scene with files := Function.update scene.files path content } := by
  refine ⟨h.new, ?_, fun other ho => ?_, fun t other hb => ?_, h.apart, fun other hn hb => ?_⟩
  · rw [hp']
    exact hp ▸ h.held
  · obtain rfl : path = other := by
      rw [ho] at hp'
      simpa [Hand.path?, eq_comm] using hp'
    obtain ⟨bytes, rfl⟩ := hc ho
    exact ⟨bytes, by simp⟩
  · obtain ⟨hm, hn, bytes, hb'⟩ := h.busy t other hb
    have hne : other ≠ path := by
      rintro rfl
      exact hn hp
    exact ⟨hm, by rwa [hp', ← hp], bytes, (Function.update_of_ne hne _ _).trans hb'⟩
  · have hne : other ≠ path := by
      rintro rfl
      exact hn hp'
    refine (Function.update_of_ne hne _ _).trans (h.others other ?_ hb)
    rwa [hp, ← hp']

/-- The file in the hands is removed. -/
theorem removed {path : String} (h : Custody files hand made scene)
    (hp : hand.path? = some path) :
    Custody files .free made { scene with files := Function.update scene.files path none } := by
  refine ⟨h.new, by simp [Hand.path?], by simp, fun t other hb => ?_, h.apart,
    fun other _ hb => ?_⟩
  · obtain ⟨hm, hn, content, hc⟩ := h.busy t other hb
    have hne : other ≠ path := by
      rintro rfl
      exact hn hp
    exact ⟨hm, by simp [Hand.path?], content, (Function.update_of_ne hne _ _).trans hc⟩
  · by_cases hne : other = path
    · subst hne
      simp [h.new other (h.held other hp)]
    · refine (Function.update_of_ne hne _ _).trans (h.others other ?_ hb)
      simpa [hp, eq_comm] using hne

/-- The file in the hands becomes that of an upload. -/
theorem handedOver {file : Part.File} (h : Custody files (.held file.path) made scene)
    {rest : Program Upload.Answer Empty Upload.Ending}
    (hr : (⟨file, rest⟩ : Running).Unfinished) :
    Custody files .free made { scene with uploads := scene.uploads ++ [⟨file, rest⟩] } := by
  have hidle (t : Nat) : ¬ scene.Busy t file.path := fun hb => (h.busy t _ hb).2.1 rfl
  have hstarted : Scene.Busy { scene with uploads := scene.uploads ++ [⟨file, rest⟩] }
      scene.uploads.length file.path := ⟨⟨file, rest⟩, by simp, hr, rfl⟩
  have hstill {t : Nat} {path : String} (hb : scene.Busy t path) :
      Scene.Busy { scene with uploads := scene.uploads ++ [⟨file, rest⟩] } t path := by
    obtain ⟨running, hu, hr, hp⟩ := hb
    refine ⟨running, ?_, hr, hp⟩
    rw [List.getElem?_append_left (List.getElem?_eq_some_iff.1 hu).1]
    exact hu
  refine ⟨h.new, by simp [Hand.path?], by simp, fun t path hb => ?_, fun t t' path hb hb' => ?_,
    fun path _ hb => ?_⟩
  · rcases hb.of_started with hb | ⟨-, rfl⟩
    · obtain ⟨hm, -, hc⟩ := h.busy t path hb
      exact ⟨hm, by simp [Hand.path?], hc⟩
    · exact ⟨h.held _ rfl, by simp [Hand.path?], h.kept _ rfl⟩
  · rcases hb.of_started with hb | ⟨rfl, rfl⟩ <;> rcases hb'.of_started with hb' | ⟨rfl, hp⟩
    · exact h.apart t t' path hb hb'
    · exact absurd (hp ▸ hb) (hidle t)
    · exact absurd hb' (hidle t')
    · rfl
  · have hne : file.path ≠ path := by
      rintro rfl
      exact hb _ hstarted
    exact h.others path (by simpa [Hand.path?] using hne) fun t hb' => hb t (hstill hb')

/-- An upload goes on, and leaves the files as they are. -/
theorem wentOn (h : Custody files hand made scene) {ticket : Nat} {file : Part.File}
    {q : Upload.Question} {next : Upload.Answer q → Program Upload.Answer Empty Upload.Ending}
    (hu : scene.uploads[ticket]? = some ⟨file, .ask q next⟩)
    {rest : Program Upload.Answer Empty Upload.Ending}
    (hr : (⟨file, rest⟩ : Running).Unfinished) :
    Custody files hand made (scene.goOn ticket file rest) where
  new := h.new
  held := h.held
  kept := h.kept
  busy t path hb := h.busy t path (hb.of_goOn hu).1
  apart t t' path hb hb' := h.apart t t' path (hb.of_goOn hu).1 (hb'.of_goOn hu).1
  others path hn hb := h.others path hn fun t hb' => hb t (hb'.goOn hu fun _ => hr)

/-- An upload is over, and its file is gone. -/
theorem ended (h : Custody files hand made scene) {ticket : Nat} {file : Part.File}
    {q : Upload.Question} {next : Upload.Answer q → Program Upload.Answer Empty Upload.Ending}
    (hu : scene.uploads[ticket]? = some ⟨file, .ask q next⟩) (ending : Upload.Ending) :
    Custody files hand made { scene.goOn ticket file (.done ending) with
      files := Function.update scene.files file.path none } := by
  have hown : scene.Busy ticket file.path := ⟨_, hu, ⟨q, next, rfl⟩, rfl⟩
  obtain ⟨hmade, hhand, -⟩ := h.busy ticket _ hown
  -- The uploads that are left are the others, with other files.
  have hleft {t : Nat} {path : String} (hb : (scene.goOn ticket file (.done ending)).Busy t path) :
      scene.Busy t path ∧ path ≠ file.path := by
    obtain ⟨hb', ht⟩ := hb.of_goOn hu
    refine ⟨hb', ?_⟩
    rintro rfl
    obtain ⟨q', next', hd⟩ := ht (h.apart t ticket _ hb' hown)
    simp at hd
  refine ⟨h.new, h.held, fun path ho => ?_, fun t path hb => ?_,
    fun t t' path hb hb' => h.apart t t' path (hleft hb).1 (hleft hb').1, fun path hn hb => ?_⟩
  · obtain ⟨content, hc⟩ := h.kept path ho
    have hne : path ≠ file.path := by
      rintro rfl
      simp [ho, Hand.path?] at hhand
    exact ⟨content, (Function.update_of_ne hne _ _).trans hc⟩
  · obtain ⟨hm, hn, content, hc⟩ := h.busy t path (hleft hb).1
    exact ⟨hm, hn, content, (Function.update_of_ne (hleft hb).2 _ _).trans hc⟩
  · by_cases hne : path = file.path
    · subst hne
      simp [h.new _ hmade]
    · refine (Function.update_of_ne hne _ _).trans (h.others path hn fun t hb' => hb t ?_)
      refine hb'.goOn hu fun ht => absurd ?_ hne
      subst ht
      exact (hb'.path_eq hu).symm

/-! ## Custody along a path -/

/-- What the import asks next keeps the custody. -/
theorem move_own (h : Custody files hand made scene) {e : Event} (hs : Hand.Step hand e hand')
    (m : Move client scene (.own e) scene') :
    Custody files hand' (made ++ creations [e]) scene' := by
  cases m with
  | @part q a left hserve =>
    cases hs with
    | created =>
      cases hserve with
      | created hp => exact h.created hp
    | notCreated =>
      cases hserve with
      | notCreated => simpa [creations] using h
    | appended =>
      cases hserve with
      | appended hc => simpa [creations] using h.written rfl rfl fun _ => ⟨_, rfl⟩
    | notAppended =>
      cases hserve with
      | notAppended => simpa [creations] using h.written rfl rfl (by simp)
    | closed =>
      cases hserve with
      | closed => simpa [creations] using h
    | notClosed =>
      cases hserve with
      | notClosed => simpa [creations] using h.written rfl rfl (by simp)
    | removed hp =>
      cases hserve with
      | removed => simpa [creations] using h.removed hp
    | aside hq => exact absurd rfl (hq q)
  | started session file =>
    cases hs with
    | handedOver =>
      have hr : (⟨file, Upload.task client session file⟩ : Running).Unfinished :=
        Upload.task_ask client session file
      simpa [creations] using h.handedOver hr
    | aside _ hs => exact absurd rfl (hs session file)
  | awaited =>
    cases hs with
    | aside => simpa [creations] using h
  | @aside q ha a =>
    cases hs with
    | aside hq => simpa [creations_of_ne hq] using h
    | _ => exact ha.elim

theorem move_beside {log : List Happening} (h : Custody files hand made scene)
    (ht : Tracked client log scene) {happening : Happening} (hn : own [happening] = [])
    (m : Move client scene happening scene') : Custody files hand made scene' := by
  cases m with
  | part | started | awaited | aside => simp at hn
  | called hu a => exact h.wentOn hu (ht.called hu a)
  | @worked _ file q next a _ hu hs =>
    obtain ⟨rfl, ending, hd⟩ := ht.worked hu a
    rw [hd]
    cases hs with
    | removed => exact h.ended hu ending
  | crashed hu => exact h.ended hu .crashed

theorem of_path (hp : Path client ⟨[], files⟩ log scene)
    (hs : Along Hand.Step .free (own log) hand) :
    Custody files hand (creations (own log)) scene := by
  induction hp generalizing hand with
  | nil =>
    generalize he : own [] = events at hs
    cases hs with
    | nil => exact he ▸ start files
    | snoc => simp [own] at he
  | @snoc log scene scene' happening hp m ih =>
    rw [own_append] at hs ⊢
    cases happening with
    | own e =>
      obtain ⟨middle, hm, hstep⟩ := hs.of_snoc
      rw [creations_append]
      exact (ih hm).move_own hstep m
    | beside ticket content e =>
      simpa using (ih (by simpa using hs)).move_beside (Tracked.of_path hp) rfl m
    | crashed ticket =>
      simpa using (ih (by simpa using hs)).move_beside (Tracked.of_path hp) rfl m

end Custody

end BulkLoad.Import
