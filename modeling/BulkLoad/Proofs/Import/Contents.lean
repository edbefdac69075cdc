import BulkLoad.Proofs.Import.Shelf
import BulkLoad.Proofs.Import.Tracking

/-!
# What uploads find in their files

Files are made under paths that no file has, and an upload removes no file but its own. So as long
as an import works on its shelf, each upload that is not over finds in its file what the import has
put there, whatever the other uploads do meanwhile (`Kept`).
-/

namespace BulkLoad.Import

open Program (Trace)

/-- The upload is not over. -/
def Running.Unfinished (running : Running) : Prop :=
  ∃ q next, running.rest = .ask q next

/-- The files hold what is on the shelf. -/
structure Kept (shelf : Shelf) (scene : Scene) : Prop where
  length : shelf.handed.length = scene.uploads.length
  /-- An upload finds its file as it was handed over. -/
  held : ∀ (t : Nat) (running : Running), scene.uploads[t]? = some running →
    running.Unfinished → scene.files running.file.path = shelf.handed[t]?
  current : ∀ (path : String) (content : List UInt8), shelf.current = some (path, content) →
    scene.files path = some content
  /-- No two uploads that are not over have the same file. -/
  apart : ∀ (t t' : Nat) (running running' : Running), scene.uploads[t]? = some running →
    scene.uploads[t']? = some running' → running.Unfinished → running'.Unfinished →
      running.file.path = running'.file.path → t = t'
  /-- None of them has the file that is open. -/
  aside : ∀ (path : String) (content : List UInt8) (t : Nat) (running : Running),
    shelf.current = some (path, content) → scene.uploads[t]? = some running →
      running.Unfinished → running.file.path ≠ path

namespace Kept

variable {client : Api.Client} {log : List Happening} {scene scene' : Scene} {shelf shelf' : Shelf}

theorem start (files : Files) : Kept {} ⟨[], files⟩ where
  length := rfl
  held _ _ h := by simp at h
  current _ _ h := by simp at h
  apart _ _ _ _ h := by simp at h
  aside _ _ _ _ h := by simp at h

/-- An upload that is not over finds its file. -/
theorem isSome (h : Kept shelf scene) {t : Nat} {running : Running}
    (hu : scene.uploads[t]? = some running) (hr : running.Unfinished) :
    ∃ content, scene.files running.file.path = some content := by
  have hlt := (List.getElem?_eq_some_iff.1 hu).1
  rw [h.held t running hu hr, List.getElem?_eq_getElem (h.length ▸ hlt)]
  exact ⟨_, rfl⟩

/-- A file is made that was not there. -/
theorem created {handed : List (List UInt8)} {path : String}
    (h : Kept ⟨handed, none⟩ scene) (hp : scene.files path = none) :
    Kept ⟨handed, some (path, [])⟩
      { scene with files := Function.update scene.files path (some []) } where
  length := h.length
  held t running hu hr := by
    obtain ⟨content, hc⟩ := h.isSome hu hr
    have hne : running.file.path ≠ path := by
      rintro rfl
      simp [hp] at hc
    exact (Function.update_of_ne hne _ _).trans (h.held t running hu hr)
  current path' content hc := by
    obtain ⟨rfl, rfl⟩ : path = path' ∧ [] = content := by simpa using hc
    simp
  apart := h.apart
  aside path' content t running hc hu hr := by
    obtain ⟨rfl, rfl⟩ : path = path' ∧ [] = content := by simpa using hc
    rintro rfl
    obtain ⟨content, hc⟩ := h.isSome hu hr
    simp [hp] at hc

/-- Bytes are added to the file that is open. -/
theorem appended {handed : List (List UInt8)} {path : String} {content : List UInt8}
    (h : Kept ⟨handed, some (path, content)⟩ scene) (content' : List UInt8) :
    Kept ⟨handed, some (path, content')⟩
      { scene with files := Function.update scene.files path (some content') } where
  length := h.length
  held t running hu hr := by
    have hne := h.aside path content t running rfl hu hr
    exact (Function.update_of_ne hne _ _).trans (h.held t running hu hr)
  current path' content'' hc := by
    obtain ⟨rfl, rfl⟩ : path = path' ∧ content' = content'' := by simpa using hc
    simp
  apart := h.apart
  aside path' content'' t running hc := by
    obtain ⟨rfl, rfl⟩ : path = path' ∧ content' = content'' := by simpa using hc
    exact h.aside path content t running rfl

/-- The file that is open becomes that of an upload. -/
theorem handedOver {handed : List (List UInt8)} {content : List UInt8} {file : Part.File}
    (h : Kept ⟨handed, some (file.path, content)⟩ scene)
    (rest : Program Upload.Answer Empty Upload.Ending) :
    Kept ⟨handed ++ [content], none⟩
      { scene with uploads := scene.uploads ++ [⟨file, rest⟩] } := by
  have hlen : handed.length = scene.uploads.length := h.length
  refine ⟨by simp [hlen], fun t running hu hr => ?_, by simp, ?_, by simp⟩
  · rcases upload_of_started hu with hu | ⟨rfl, rfl⟩
    · have hlt := (List.getElem?_eq_some_iff.1 hu).1
      rw [List.getElem?_append_left (hlen ▸ hlt)]
      exact h.held t running hu hr
    · rw [← hlen, List.getElem?_concat_length]
      exact h.current file.path content rfl
  · intro t t' running running' hu hu' hr hr' hp
    rcases upload_of_started hu with hu | ⟨rfl, rfl⟩ <;>
      rcases upload_of_started hu' with hu' | ⟨rfl, rfl⟩
    · exact h.apart t t' running running' hu hu' hr hr' hp
    · exact absurd hp (h.aside file.path content t running rfl hu hr)
    · exact absurd hp.symm (h.aside file.path content t' running' rfl hu' hr')
    · rfl

/-- An upload goes on, and leaves the files as they are. -/
theorem wentOn (h : Kept shelf scene) {ticket : Nat} {file : Part.File} {q : Upload.Question}
    {next : Upload.Answer q → Program Upload.Answer Empty Upload.Ending}
    (hu : scene.uploads[ticket]? = some ⟨file, .ask q next⟩)
    (rest : Program Upload.Answer Empty Upload.Ending) :
    Kept shelf (scene.goOn ticket file rest) := by
  -- The upload had the same file before, and was not over.
  have earlier {t : Nat} {running : Running}
      (hr : (scene.goOn ticket file rest).uploads[t]? = some running)
      (hf : running.Unfinished) : ∃ running', scene.uploads[t]? = some running' ∧
        running'.Unfinished ∧ running'.file = running.file := by
    rcases Scene.upload_of_goOn hr with ⟨rfl, rfl⟩ | ⟨-, hr⟩
    · exact ⟨_, hu, ⟨q, next, rfl⟩, rfl⟩
    · exact ⟨running, hr, hf, rfl⟩
  refine ⟨by simpa [Scene.goOn] using h.length, fun t running hr hf => ?_, h.current, ?_, ?_⟩
  · obtain ⟨running', hr', hf', he⟩ := earlier hr hf
    rw [← he]
    exact h.held t running' hr' hf'
  · intro t t' running running' hr hr' hf hf' hp
    obtain ⟨first, h₁, h₂, he⟩ := earlier hr hf
    obtain ⟨second, h₃, h₄, he'⟩ := earlier hr' hf'
    exact h.apart t t' first second h₁ h₃ h₂ h₄ (by rw [he, he', hp])
  · intro path content t running hc hr hf
    obtain ⟨running', hr', hf', he⟩ := earlier hr hf
    rw [← he]
    exact h.aside path content t running' hc hr' hf'

/-- An upload is over, and only its own file changes. -/
theorem ended (h : Kept shelf scene) {ticket : Nat} {file : Part.File} {q : Upload.Question}
    {next : Upload.Answer q → Program Upload.Answer Empty Upload.Ending}
    (hu : scene.uploads[ticket]? = some ⟨file, .ask q next⟩) (ending : Upload.Ending)
    (left : Option (List UInt8)) :
    Kept shelf { scene.goOn ticket file (.done ending) with
      files := Function.update scene.files file.path left } := by
  have hk := h.wentOn hu (.done ending)
  have hunfinished : (⟨file, .ask q next⟩ : Running).Unfinished := ⟨q, next, rfl⟩
  refine ⟨hk.length, fun t running hr hf => ?_, fun path content hc => ?_, hk.apart, hk.aside⟩
  · rcases Scene.upload_of_goOn hr with ⟨rfl, rfl⟩ | ⟨ht, hr⟩
    · obtain ⟨q, next, hd⟩ := hf
      simp at hd
    · have hne : running.file.path ≠ file.path := fun hp =>
        ht (h.apart t ticket running _ hr hu hf hunfinished hp).symm
      exact (Function.update_of_ne hne _ _).trans (h.held t running hr hf)
  · have hne : path ≠ file.path := (h.aside path content ticket _ hc hu hunfinished).symm
    exact (Function.update_of_ne hne _ _).trans (h.current path content hc)

/-- Whatever happens next, the files hold what is on the shelf. -/
theorem move_own (h : Kept shelf scene) {e : Event} (hs : Shelf.Step shelf e shelf')
    (m : Move client scene (.own e) scene') : Kept shelf' scene' := by
  cases hs with
  | created =>
    cases m with
    | aside ha => exact ha.elim
    | part hp =>
      cases hp with
      | created hn => exact h.created hn
  | @appended _ path content bytes =>
    cases m with
    | aside ha => exact ha.elim
    | part hp =>
      cases hp with
      | appended hc =>
        obtain rfl : content = _ := by simpa [h.current path content rfl] using hc
        exact h.appended _
  | closed =>
    cases m with
    | aside ha => exact ha.elim
    | part hp =>
      cases hp with
      | closed => exact h
  | handedOver hp =>
    cases m with
    | aside ha => exact ha.elim
    | started session file =>
      subst hp
      exact h.handedOver _
  | aside hq hs =>
    cases m with
    | part => exact absurd rfl (hq _)
    | started session file => exact absurd rfl (hs session file)
    | awaited => exact h
    | aside => exact h

theorem move_beside (h : Kept shelf scene) (ht : Tracked client log scene)
    {happening : Happening} (hn : own [happening] = []) (m : Move client scene happening scene') :
    Kept shelf scene' := by
  cases m with
  | part | started | awaited | aside => simp at hn
  | called hu => exact h.wentOn hu _
  | @worked _ file q next a _ hu hs =>
    obtain ⟨hq, ending, hd⟩ := ht.worked hu a
    subst hq
    rw [hd]
    cases hs with
    | removed => exact h.ended hu ending none
  | crashed hu => exact h.ended hu .crashed none

theorem of_path {files : Files} (h : Path client ⟨[], files⟩ log scene)
    (hs : Shelf.Steps {} (own log) shelf) : Kept shelf scene := by
  induction h generalizing shelf with
  | nil =>
    generalize he : own [] = events at hs
    cases hs with
    | nil => exact start files
    | snoc => simp [own] at he
  | @snoc log scene scene' happening hp m ih =>
    rw [own_append] at hs
    cases happening with
    | own e =>
      obtain ⟨middle, hm, hstep⟩ := hs.of_snoc
      exact (ih hm).move_own hstep m
    | beside ticket content e =>
      exact (ih (by simpa using hs)).move_beside (Tracked.of_path hp) rfl m
    | crashed ticket =>
      exact (ih (by simpa using hs)).move_beside (Tracked.of_path hp) rfl m

end Kept

/-! ## What uploads send -/

theorem Shelf.Steps.split {shelf last : Shelf} {first rest : List Event}
    (h : Steps shelf (first ++ rest) last) :
    ∃ middle, Steps shelf first middle ∧ Steps middle rest last := by
  generalize hl : first ++ rest = events at h
  induction h generalizing rest with
  | nil =>
    obtain ⟨rfl, rfl⟩ := List.append_eq_nil_iff.1 hl
    exact ⟨shelf, .nil, .nil⟩
  | @snoc events middle last e hp hs ih =>
    rcases List.eq_nil_or_concat rest with rfl | ⟨rest, final, rfl⟩
    · rw [List.append_nil] at hl
      subst hl
      exact ⟨last, .snoc hp hs, .nil⟩
    · have hc : (first ++ rest) ++ [final] = events ++ [e] := by simpa using hl
      obtain ⟨rfl, he⟩ := List.append_inj' hc rfl
      obtain rfl : final = e := by simpa using he
      obtain ⟨found, h₁, h₂⟩ := ih rfl
      rw [List.concat_eq_append]
      exact ⟨found, h₁, .snoc h₂ hs⟩

/-- What was handed over stays on the shelf. -/
theorem Shelf.Steps.handed_prefix {shelf last : Shelf} {events : List Event}
    (h : Steps shelf events last) : shelf.handed <+: last.handed := by
  induction h with
  | nil => exact List.prefix_refl _
  | snoc _ hs ih =>
    refine ih.trans ?_
    cases hs with
    | handedOver => exact List.prefix_append _ _
    | _ => exact List.prefix_refl _

/-- An upload sends what the import has put into its file. -/
theorem Path.content_of_sent {client : Api.Client} {files : Files} {scene : Scene}
    {before after : List Happening} {shelf : Shelf} {ticket : Nat}
    {content : Option (List UInt8)} {request : Api.Request} {reply : Api.Reply}
    (h : Path client ⟨[], files⟩
      (before ++ .beside ticket content ⟨.api (.send request), reply⟩ :: after) scene)
    (hs : Shelf.Steps {} (own (before ++ .beside ticket content ⟨.api (.send request), reply⟩ ::
      after)) shelf) :
    ticket < shelf.handed.length ∧ content = shelf.handed[ticket]? := by
  obtain ⟨session, file, -, -, found, rest, hp, hu, rfl⟩ := h.of_sent
  rw [own_append] at hs
  obtain ⟨middle, h₁, h₂⟩ := hs.split
  obtain ⟨later, hl⟩ := h₂.handed_prefix
  have hk := Kept.of_path hp h₁
  have hlt : ticket < middle.handed.length := hk.length ▸ (List.getElem?_eq_some_iff.1 hu).1
  refine ⟨?_, ?_⟩
  · rw [← hl, List.length_append]
    omega
  · rw [hk.held ticket _ hu ⟨_, rest, rfl⟩, ← hl, List.getElem?_append_left hlt]

end BulkLoad.Import
