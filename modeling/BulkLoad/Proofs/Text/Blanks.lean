import BulkLoad.Text.Blank
import Mathlib.Data.List.TakeWhile

/-!
# Trimmed texts

What is left of a text without the blanks around it (`Trimmed`) is the text between its first and
its last character that is not blank, and there is only one such text (`trimmed_iff`). Nothing is
left just of a text that has blanks only.
-/

namespace BulkLoad.Text

/-- Blanks and nothing else. -/
def Blanks (cs : List Char) : Prop :=
  ∀ c ∈ cs, isBlank c

/-- The text `inner` with blanks around it that are not part of it. -/
structure Trimmed (cs inner : List Char) : Prop where
  around : ∃ before after, Blanks before ∧ Blanks after ∧ cs = before ++ inner ++ after
  first : ∀ c ∈ inner.head?, isBlank c = false
  last : ∀ c ∈ inner.getLast?, isBlank c = false

variable {cs inner before after : List Char}

theorem Blanks.reverse (h : Blanks cs) : Blanks cs.reverse :=
  fun c hc => h c (List.mem_reverse.1 hc)

/-- The blanks before a text that begins with another character. -/
theorem dropWhile_blanks (h : Blanks before) (hf : ∀ c ∈ inner.head?, isBlank c = false) :
    (before ++ inner).dropWhile isBlank = inner := by
  rw [List.dropWhile_append_of_pos h]
  cases inner with
  | nil => rfl
  | cons c rest => rw [List.dropWhile_cons_of_neg (by simp [hf c rfl])]

theorem head_dropWhile_isBlank (cs : List Char) :
    ∀ c ∈ (cs.dropWhile isBlank).head?, isBlank c = false := by
  intro c hc
  have hnot := List.head?_dropWhile_not isBlank cs
  rw [Option.mem_def.1 hc] at hnot
  simpa using hnot

/-- Blanks at both ends of a text, and what is between them. -/
theorem trimmed_trimChars (cs : List Char) : Trimmed cs (trimChars cs) := by
  have hfront : cs.takeWhile isBlank ++ cs.dropWhile isBlank = cs :=
    List.takeWhile_append_dropWhile
  have hback : ((cs.dropWhile isBlank).reverse.takeWhile isBlank ++
      (cs.dropWhile isBlank).reverse.dropWhile isBlank).reverse = cs.dropWhile isBlank := by
    rw [List.takeWhile_append_dropWhile, List.reverse_reverse]
  rw [List.reverse_append] at hback
  refine ⟨⟨cs.takeWhile isBlank, ((cs.dropWhile isBlank).reverse.takeWhile isBlank).reverse,
    fun c hc => List.mem_takeWhile_imp hc, ?_, ?_⟩, ?_, ?_⟩
  · have htaken : Blanks ((cs.dropWhile isBlank).reverse.takeWhile isBlank) :=
      fun c hc => List.mem_takeWhile_imp hc
    exact htaken.reverse
  · rw [List.append_assoc, trimChars, hback, hfront]
  · intro c hc
    rw [trimChars, Option.mem_def] at hc
    refine head_dropWhile_isBlank cs c ?_
    rw [← hback, List.head?_append, hc, Option.some_or]
    exact rfl
  · intro c hc
    rw [trimChars, List.getLast?_reverse] at hc
    exact head_dropWhile_isBlank _ c hc

theorem trimmed_iff : Trimmed cs inner ↔ trimChars cs = inner := by
  constructor
  · rintro ⟨⟨before, after, hb, ha, rfl⟩, hf, hl⟩
    by_cases hnil : inner = []
    · subst hnil
      have hall : Blanks (before ++ [] ++ after) := by
        rw [List.append_nil]
        exact List.forall_mem_append.2 ⟨hb, ha⟩
      rw [trimChars, List.dropWhile_eq_nil_iff.2 hall]
      rfl
    · have hfirst : ∀ c ∈ (inner ++ after).head?, isBlank c = false := by
        obtain ⟨d, rest, rfl⟩ := List.exists_cons_of_ne_nil hnil
        exact hf
      have hlast : ∀ c ∈ inner.reverse.head?, isBlank c = false := by
        rwa [List.head?_reverse]
      rw [trimChars, List.append_assoc, dropWhile_blanks hb hfirst, List.reverse_append,
        dropWhile_blanks ha.reverse hlast, List.reverse_reverse]
  · rintro rfl
    exact trimmed_trimChars cs

/-- A text without any blanks is what is left when blanks are put around it. -/
theorem trimmed_of_forall (hb : Blanks before) (ha : Blanks after)
    (h : ∀ c ∈ inner, isBlank c = false) : Trimmed (before ++ inner ++ after) inner where
  around := ⟨before, after, hb, ha, rfl⟩
  first c hc := h c (List.mem_of_mem_head? hc)
  last c hc := h c (List.mem_of_mem_getLast? hc)

theorem trimChars_eq_nil_iff : trimChars cs = [] ↔ Blanks cs := by
  rw [← trimmed_iff]
  constructor
  · rintro ⟨⟨before, after, hb, ha, rfl⟩, -, -⟩
    rw [List.append_nil]
    exact List.forall_mem_append.2 ⟨hb, ha⟩
  · intro h
    exact ⟨⟨cs, [], h, by simp [Blanks], by simp⟩, by simp, by simp⟩

end BulkLoad.Text
