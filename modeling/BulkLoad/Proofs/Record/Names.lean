import BulkLoad.Proofs.Record.Resolve
import Mathlib.Data.Finset.Card
import Mathlib.Data.Nat.Find

/-!
# Names that are not in use

A column that cannot keep its name gets underscores until the name is not in use. That is a search
without a bound of its own (`Search`) : a candidate in use gets one more underscore and the search
goes on. It ends, since the candidates are distinct and each but the last one is in use, so that
there are no more rounds than names in use. It ends with `uniqueName`, which is the shortest
candidate that is not in use (`least_of_uniqueName`).
-/

namespace BulkLoad.Record

/-- The search from a candidate ends after a number of rounds with a name that is not in use. -/
inductive Search (used : List String) : String → Nat → String → Prop
  | free {candidate : String} (h : candidate ∉ used) : Search used candidate 0 candidate
  | taken {candidate result : String} {rounds : Nat} (h : candidate ∈ used)
    (hs : Search used (candidate.push '_') rounds result) :
    Search used candidate (rounds + 1) result

section Underscores

theorem underscored_zero (name : String) : underscored name 0 = name := by
  simp [underscored]

/-- One underscore more before the others. -/
theorem underscored_push (name : String) (k : Nat) :
    underscored (name.push '_') k = underscored name (k + 1) := by
  simp [underscored, ← String.toList_inj, List.replicate_succ]

/-- Among the names with underscores there are no more names in use than there are at all. -/
theorem le_card_of_underscored_mem (name : String) {used : List String} {rounds : Nat}
    (h : ∀ j < rounds, underscored name j ∈ used) : rounds ≤ used.toFinset.card := by
  have hsub : (Finset.range rounds).image (underscored name) ⊆ used.toFinset := by
    intro candidate hc
    obtain ⟨j, hj, rfl⟩ := Finset.mem_image.1 hc
    exact List.mem_toFinset.2 (h j (Finset.mem_range.1 hj))
  have hcard := Finset.card_le_card hsub
  rwa [Finset.card_image_of_injective _ (underscored_injective name), Finset.card_range] at hcard

end Underscores

namespace Search

variable {used : List String} {candidate result other : String} {rounds rounds' : Nat}

/-- The search passes the candidates in use and stops at the first that is not. -/
theorem of_least : ∀ {rounds : Nat} {candidate : String},
    (∀ j < rounds, underscored candidate j ∈ used) → underscored candidate rounds ∉ used →
      Search used candidate rounds (underscored candidate rounds)
  | 0, candidate, _, hfree => by
    rw [underscored_zero] at hfree ⊢
    exact .free hfree
  | rounds + 1, candidate, htaken, hfree => by
    have hfirst : candidate ∈ used := by simpa [underscored_zero] using htaken 0 (by omega)
    rw [← underscored_push] at hfree ⊢
    refine .taken hfirst (of_least (fun j hj => ?_) hfree)
    rw [underscored_push]
    exact htaken (j + 1) (by omega)

/-- The search from a candidate has one end. -/
theorem unique (h : Search used candidate rounds result)
    (h' : Search used candidate rounds' other) : rounds' = rounds ∧ other = result := by
  induction h generalizing rounds' with
  | free hfree =>
    cases h' with
    | free => exact ⟨rfl, rfl⟩
    | taken htaken => exact absurd htaken hfree
  | taken htaken _ ih =>
    cases h' with
    | free hfree => exact absurd htaken hfree
    | taken _ hs' =>
      obtain ⟨hrounds, hresult⟩ := ih hs'
      exact ⟨congrArg (· + 1) hrounds, hresult⟩

end Search

/-- The candidate that is chosen is the first one that is not in use. -/
theorem exists_uniqueName_eq (name : String) (used : List String) :
    ∃ rounds, uniqueName name used = underscored name (rounds + 1) ∧
      underscored name (rounds + 1) ∉ used ∧ ∀ j < rounds, underscored name (j + 1) ∈ used := by
  -- Were all candidates in use, there would be more of them than there are names in use.
  obtain ⟨bound, hbound, hfree⟩ : ∃ i < used.length + 1, underscored name (i + 1) ∉ used := by
    by_contra hall
    push Not at hall
    have hle : used.length + 1 ≤ used.toFinset.card :=
      le_card_of_underscored_mem (name.push '_') fun j hj => by
        rw [underscored_push]
        exact hall j hj
    exact absurd (hle.trans (List.toFinset_card_le used)) (Nat.not_succ_le_self _)
  have hsome : ∃ i, underscored name (i + 1) ∉ used := ⟨bound, hfree⟩
  have hmin (j : Nat) (hj : j < Nat.find hsome) : underscored name (j + 1) ∈ used :=
    Decidable.not_not.1 (Nat.find_min hsome hj)
  refine ⟨Nat.find hsome, ?_, Nat.find_spec hsome, hmin⟩
  have hrange : Nat.find hsome < used.length + 1 := (Nat.find_min' hsome hfree).trans_lt hbound
  have hfound : (List.range (used.length + 1)).find?
      ((fun candidate => !used.contains candidate) ∘ fun k => underscored name (k + 1)) =
        some (Nat.find hsome) := by
    refine List.find?_range_eq_some.2 ⟨?_, List.mem_range.2 hrange, fun j hj => ?_⟩
    · simpa using Nat.find_spec hsome
    · simpa using hmin j hj
  rw [uniqueName, List.find?_map, hfound, Option.map_some, Option.getD_some]

/-- The search for a name with underscores that is not in use ends, with the shortest one and after
no more rounds than there are names in use, and `uniqueName` is this name. -/
theorem least_of_uniqueName (name : String) (used : List String) :
    ∃ k, 1 ≤ k ∧ uniqueName name used = underscored name k ∧ underscored name k ∉ used ∧
      (∀ j, 1 ≤ j → j < k → underscored name j ∈ used) ∧ k ≤ used.toFinset.card + 1 ∧
      ∀ rounds result, Search used (name.push '_') rounds result ↔
        rounds + 1 = k ∧ result = uniqueName name used := by
  obtain ⟨last, heq, hfree, htaken⟩ := exists_uniqueName_eq name used
  have hbefore : ∀ j < last, underscored (name.push '_') j ∈ used := by
    intro j hj
    rw [underscored_push]
    exact htaken j hj
  have hsearch : Search used (name.push '_') last (uniqueName name used) := by
    rw [heq, ← underscored_push]
    exact .of_least hbefore (by rwa [underscored_push])
  have hcard : last + 1 ≤ used.toFinset.card + 1 :=
    Nat.add_le_add_right (le_card_of_underscored_mem _ hbefore) 1
  refine ⟨last + 1, Nat.le_add_left 1 last, heq, hfree, fun j h₁ hj => ?_, hcard,
    fun rounds result => ⟨fun h => ?_, ?_⟩⟩
  · obtain ⟨i, rfl⟩ : ∃ i, j = i + 1 := ⟨j - 1, by omega⟩
    exact htaken i (by omega)
  · obtain ⟨hrounds, hresult⟩ := hsearch.unique h
    exact ⟨congrArg (· + 1) hrounds, hresult⟩
  · rintro ⟨hrounds, rfl⟩
    obtain rfl : rounds = last := by omega
    exact hsearch

end BulkLoad.Record
