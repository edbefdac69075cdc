import BulkLoad.Proofs.Service.Depot

/-!
# The scratch table of a replacement

When a table is replaced by way of a scratch table, what is in the scratch table fits the stage of
the session that loads it : nothing before the load, and the load afterwards, until the table is put
in the place of the destination (`Depot.Fits`). With that, the destination is as it was at first, or
has what a complete commit loaded (`Depot.Sound`). The moves of a depot preserve this, and so do the
requests of a replacement, each of them where it is made.
-/

namespace BulkLoad.Import

/-- A table that is replaced, and the session for it. -/
structure Target where
  database : String
  table : String
  session : String

/-- The name of the scratch table. -/
def Target.scratch (t : Target) : String :=
  t.table ++ "_" ++ t.session

theorem Target.scratch_ne_table (t : Target) : t.scratch ≠ t.table := by
  intro h
  have hlength := congrArg String.length h
  simp only [scratch, String.length_append] at hlength
  have hone : "_".length = 1 := rfl
  omega

namespace Depot

variable {t : Target} {origin : Option (List Batch)} {s s' : Depot} {kept : Stored}
  {completed completed' : List (String × Nat)} {content : Option (List Batch)}

/-- What is in the scratch table, by the session. -/
def Fits (t : Target) (completed : List (String × Nat)) :
    Option Stored → Option (List Batch) → Prop
  | none, content => content = none ∨ content = some []
  | some kept, content =>
    match kept.stage with
    | .uploading | .performing | .ready | .committing => content = some []
    | .loaded => content = some [.loaded t.session kept.number]
    | .committed => (t.session, kept.number) ∈ completed ∧
      (content = none ∨ content = some [.loaded t.session kept.number])

theorem Fits.mono {session : Option Stored} (h : Fits t completed session content)
    (hc : completed ⊆ completed') : Fits t completed' session content := by
  cases session with
  | none => exact h
  | some kept =>
    unfold Fits at h ⊢
    cases hs : kept.stage <;> simp only [hs] at h ⊢
    case committed => exact ⟨hc h.1, h.2⟩
    all_goals exact h

/-- The scratch table is empty before the load. -/
theorem fits_early (h : kept.stage.Early) :
    Fits t completed (some kept) content ↔ content = some [] := by
  unfold Fits
  cases hs : kept.stage <;> simp_all

/-- The session is committed. -/
def Complete (t : Target) (s : Depot) : Prop :=
  ∃ kept, s.sessions t.session = some kept ∧ kept.stage = .committed

/-- The service is in order, as far as a replacement goes, where `origin` was the destination at
first. -/
structure Sound (t : Target) (origin : Option (List Batch)) (s : Depot) : Prop where
  destination : s.content t.database t.table = origin ∨
    ∃ number, (t.session, number) ∈ s.completed ∧
      s.content t.database t.table = some [.loaded t.session number]
  /-- No other session loads into the tables. -/
  apart : ∀ name kept, s.sessions name = some kept → name ≠ t.session →
    kept.database = t.database → kept.table ≠ t.table ∧ kept.table ≠ t.scratch
  bound : ∀ kept, s.sessions t.session = some kept →
    kept.database = t.database ∧ kept.table = t.scratch
  fits : Fits t s.completed (s.sessions t.session) (s.content t.database t.scratch)

namespace Sound

theorem congr (h : Sound t origin s) (hc : s'.content = s.content) (hs : s'.sessions = s.sessions)
    (hd : s'.completed = s.completed) : Sound t origin s' := by
  obtain ⟨h₁, h₂, h₃, h₄⟩ := h
  exact ⟨by rwa [hc, hd], by rwa [hs], by rwa [hs], by rwa [hc, hs, hd]⟩

/-- The scratch table is there as long as the session needs it. -/
theorem content_ne_none (h : Sound t origin s) (hk : s.sessions t.session = some kept)
    (hs : kept.stage ≠ .committed) : s.content t.database t.scratch ≠ none := by
  have hf := h.fits
  rw [hk] at hf
  unfold Fits at hf
  cases hstage : kept.stage <;> simp_all

/-- What is in the scratch table of a session that is committed. -/
theorem content_of_committed (h : Sound t origin s) (hk : s.sessions t.session = some kept)
    (hs : kept.stage = .committed) :
    (t.session, kept.number) ∈ s.completed ∧ (s.content t.database t.scratch = none ∨
      s.content t.database t.scratch = some [.loaded t.session kept.number]) := by
  have hf := h.fits
  simpa only [hk, Fits, hs] using hf

/-- A change of sessions that stay where they are, and not of the destination. -/
theorem change (h : Sound t origin s)
    (htable : s'.content t.database t.table = s.content t.database t.table)
    (hcompleted : s.completed ⊆ s'.completed)
    (hsessions : ∀ name kept', s'.sessions name = some kept' → ∃ kept,
      s.sessions name = some kept ∧ kept'.database = kept.database ∧ kept'.table = kept.table)
    (hfits : Fits t s'.completed (s'.sessions t.session) (s'.content t.database t.scratch)) :
    Sound t origin s' where
  destination := by
    rw [htable]
    exact h.destination.imp_right fun ⟨number, hn, hc⟩ => ⟨number, hcompleted hn, hc⟩
  apart name kept' hname := by
    obtain ⟨kept, hk, hd, ht⟩ := hsessions name kept' hname
    rw [hd, ht]
    exact h.apart name kept hk
  bound kept' hname := by
    obtain ⟨kept, hk, hd, ht⟩ := hsessions _ kept' hname
    rw [hd, ht]
    exact h.bound kept hk
  fits := hfits

end Sound

/-! ## Moves -/

/-- A session that comes to another stage loads into the same table. -/
theorem Moves.stays (m : Moves s s') (name : String) (kept' : Stored)
    (h : s'.sessions name = some kept') : ∃ kept, s.sessions name = some kept ∧
      kept'.database = kept.database ∧ kept'.table = kept.table := by
  rcases m.session name with hs | ⟨kept, stage, hk, hk', -⟩
  · exact ⟨kept', hs ▸ h, rfl, rfl⟩
  · obtain rfl := Option.some.inj (hk'.symm.trans h)
    exact ⟨kept, hk, rfl, rfl⟩

theorem Sound.moved (h : Sound t origin s) (m : Moves s s') : Sound t origin s' := by
  refine h.change ?_ m.completed_subset m.stays ?_
  · rcases m.content t.database t.table with hc | ⟨name, kept, hk, -, hd, ht, -⟩
    · exact hc
    · by_cases hname : name = t.session
      · subst hname
        exact absurd (ht.symm.trans (h.bound kept hk).2) t.scratch_ne_table.symm
      · exact absurd ht (h.apart name kept hk hname hd).1
  · have hf := h.fits
    cases m with
    | @performed name kept hk hs =>
      by_cases hname : t.session = name
      · subst hname
        simpa only [Fits, hk, hs, sessions_keep_self, content_keep] using hf
      · rwa [sessions_keep_of_ne hname]
    | @loaded name kept hk hs =>
      by_cases hname : t.session = name
      · subst hname
        obtain ⟨hd, ht⟩ := h.bound kept hk
        simp only [Fits, hk, hs] at hf
        have hne : s.content t.database t.scratch ≠ none := by simp [hf]
        simp only [sessions_put, sessions_keep_self, Fits, hd, ht, hf]
        exact content_put_self (databases_ne_none hne)
      · have hc : ((s.keep name (some { kept with stage := .loaded })).put kept.database kept.table
            ((s.content kept.database kept.table).map (· ++ [.loaded name kept.number]))).content
              t.database t.scratch = s.content t.database t.scratch :=
          content_put_of_ne fun hd ht =>
            (h.apart name kept hk (Ne.symm hname) hd.symm).2 ht.symm
        rwa [hc, sessions_put, sessions_keep_of_ne hname]
    | @completed name kept hk hs =>
      by_cases hname : t.session = name
      · subst hname
        simp only [Fits, hk, hs] at hf
        simp only [sessions_keep_self, Fits]
        exact ⟨List.mem_cons_self, Or.inr hf⟩
      · have hsession : (s.keep name (some { kept with stage := .committed })).sessions t.session =
            s.sessions t.session := sessions_keep_of_ne hname
        rw [hsession]
        exact hf.mono (List.subset_cons_self _ _)

/-! ## Requests -/

namespace Sound

theorem founded (h : Sound t origin s) (database : String) :
    Sound t origin (s.handle (founding database)).2 :=
  h.congr content_founding sessions_founding completed_founding

/-- The scratch table is made before the session. -/
theorem made (h : Sound t origin s)
    (hmade : s.sessions t.session = none ∨ s.content t.database t.scratch ≠ none) :
    Sound t origin (s.handle (making t.database t.scratch)).2 := by
  rcases handle_making s t.database t.scratch with ⟨-, he⟩ | ⟨-, he⟩ | ⟨hd, hc, he⟩ <;> rw [he]
  · exact h
  · exact h
  · have htable : (s.put t.database t.scratch (some [])).content t.database t.table =
        s.content t.database t.table := content_put_of_ne fun _ => t.scratch_ne_table.symm
    refine h.change htable (List.Subset.refl _) (fun _ kept hk => ⟨kept, hk, rfl, rfl⟩) ?_
    rw [sessions_put, hmade.resolve_right (absurd hc), content_put_self hd]
    exact Or.inr rfl

/-- The session is created when the scratch table is there. -/
theorem created (h : Sound t origin s)
    (hmade : s.sessions t.session = none → s.content t.database t.scratch ≠ none) :
    Sound t origin (s.handle (creating t.session t.database t.scratch)).2 := by
  rcases handle_creating s t.session t.database t.scratch with ⟨-, he⟩ | ⟨hnone, he⟩ <;> rw [he]
  · exact h
  · refine ⟨h.destination, fun name kept hk hne => ?_, fun kept hk => ?_, ?_⟩
    · exact h.apart name kept (by rwa [← sessions_keep_of_ne hne]) hne
    · obtain rfl := Option.some.inj (sessions_keep_self.symm.trans hk)
      exact ⟨rfl, rfl⟩
    · have hf := h.fits
      rw [hnone] at hf
      simp only [sessions_keep_self, Fits]
      exact hf.resolve_left (hmade hnone)

/-- A session is taken on. -/
theorem taken {priority : Int} {request : Api.Request} (h : Sound t origin s)
    (hr : SessionDriver.Takes t.session priority request) :
    Sound t origin (s.handle request).2 := by
  rcases handle_takes hr with he | ⟨kept, kept', hk, he, hd, htable, hs, hs'⟩ <;> rw [he]
  · exact h
  · refine h.change rfl (List.Subset.refl _) (fun name other hother => ?_) ?_
    · by_cases hname : name = t.session
      · subst hname
        obtain rfl := Option.some.inj (sessions_keep_self.symm.trans hother)
        exact ⟨kept, hk, hd, htable⟩
      · exact ⟨other, by rwa [← sessions_keep_of_ne hname], rfl, rfl⟩
    · have hf := h.fits
      rw [hk, fits_early hs] at hf
      rw [sessions_keep_self, fits_early hs', content_keep]
      exact hf

/-- The scratch table takes the place of the destination when the session is committed. -/
theorem swapped (h : Sound t origin s) (hc : Complete t s) :
    Sound t origin (s.handle (swapping t.database t.scratch t.table)).2 := by
  obtain ⟨kept, hk, hs⟩ := hc
  obtain ⟨hcompleted, hcontent⟩ := h.content_of_committed hk hs
  rcases handle_swapping s t.database t.scratch t.table with ⟨-, he⟩ | ⟨content, hscratch, he⟩ <;>
    rw [he]
  · exact h
  · have hne : s.content t.database t.scratch ≠ none := by simp [hscratch]
    have hd : s.databases t.database ≠ none := databases_ne_none hne
    have hloaded : some content = some [.loaded t.session kept.number] :=
      hscratch ▸ hcontent.resolve_left hne
    refine ⟨Or.inr ⟨kept.number, hcompleted, ?_⟩, h.apart, h.bound, ?_⟩
    · exact (content_put_self (databases_put_ne_none hd)).trans hloaded
    · rw [content_put_of_ne fun _ => t.scratch_ne_table, content_put_none]
      simp only [sessions_put, hk, Fits, hs, true_or, and_true]
      exact hcompleted

/-- The session is deleted when the scratch table is gone. -/
theorem deleted (h : Sound t origin s) (hgone : s.content t.database t.scratch = none) :
    Sound t origin (s.handle (deleting t.session)).2 := by
  rcases handle_deleting s t.session with ⟨-, he⟩ | ⟨-, he⟩ <;> rw [he]
  · exact h
  · refine h.change rfl (List.Subset.refl _) (fun name kept hk => ?_) ?_
    · by_cases hname : name = t.session
      · subst hname
        cases sessions_keep_self.symm.trans hk
      · exact ⟨kept, by rwa [← sessions_keep_of_ne hname], rfl, rfl⟩
    · simp only [sessions_keep_self, Fits, content_keep]
      exact Or.inl hgone

end Sound

end Depot

end BulkLoad.Import
