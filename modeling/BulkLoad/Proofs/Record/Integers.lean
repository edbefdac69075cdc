import BulkLoad.Proofs.Record.Conversion
import BulkLoad.Proofs.Text.Blanks

/-!
# Integers as texts

A long is written as a text that is read as the same long again, with any blanks around it. A text
is read as a long just if it is the text of an integer of 64 bits, blanks around it apart, and as
that integer (`integers_kept`). The texts of integers are given by their grammar
(`Decimal.IsInteger`), which allows a plus sign and leading zeros as well.
-/

namespace BulkLoad

namespace Decimal

variable {cs : List Char} {i : Int}

theorem isBlank_of_isDigit {c : Char} (h : isDigit c) : Text.isBlank c = false := by
  obtain ⟨hlow, hhigh⟩ := isDigit_iff_toNat.1 h
  simp only [Text.isBlank, Text.blankRanges, List.any_cons, List.any_nil, Bool.or_false,
    Bool.or_eq_false_iff, Bool.and_eq_false_iff, decide_eq_false_iff_not]
  omega

/-- The text of an integer has no blanks. -/
theorem IsInteger.not_blank (h : IsInteger cs i) : ∀ c ∈ cs, Text.isBlank c = false := by
  have digits {ds : List Char} (hd : IsDigits ds) : ∀ c ∈ ds, Text.isBlank c = false :=
    fun c hc => isBlank_of_isDigit (hd.2 c hc)
  cases h with
  | unsigned hd => exact digits hd
  | positive hd => exact List.forall_mem_cons.2 ⟨by decide, digits hd⟩
  | negative hd => exact List.forall_mem_cons.2 ⟨by decide, digits hd⟩

/-- An integer is what its text stands for. -/
theorem isInteger_signedText (i : Int) : IsInteger (signedText i).toList i := by
  have hd := isDigits_digits i.natAbs
  unfold signedText text
  split_ifs with hneg
  · have hi : -(value (digits i.natAbs) : Int) = i := by
      rw [value_digits]
      omega
    have hminus := IsInteger.negative hd
    rw [hi] at hminus
    rwa [String.toList_append, String.toList_ofList, String.toList_ofList, List.singleton_append]
  · have hi : (value (digits i.natAbs) : Int) = i := by
      rw [value_digits]
      omega
    have hplain := IsInteger.unsigned hd
    rw [hi] at hplain
    rwa [String.toList_ofList]

end Decimal

namespace Record

open Decimal (IsInteger isInteger_signedText)
open Text (Blanks Trimmed trimmed_iff trimmed_of_forall)

variable {column : String} {formatter : Formatter} {s : String}

/-- A text becomes a long just if what is left of it without the blanks around it is the text of the
long. -/
theorem coerce_string_long_iff {inner : List Char} (h : Trimmed s.toList inner) {packed : Packed} :
    coerce column (.string s) .long formatter = .ok packed ↔
      ∃ v : Int64, IsInteger inner v.toInt ∧ packed = .ofInt64 v := by
  have hread (v : Int64) : readLong s = .ok v ↔ IsInteger inner v.toInt := by
    rw [readLong_eq_ok_iff, trimmed_iff.1 h]
  simp only [coerce, ← hread]
  cases readLong s with
  | error fault => simp
  | ok v => simp [eq_comm]

/-- A long becomes a text that becomes the long again, with any blanks around it. A text becomes a
long just if it is the text of one, without the blanks around it, and this one. -/
theorem integers_kept (column : String) (formatter : Formatter) :
    (∀ v : Int64, ∃ text, coerce column (.long v) .string formatter = .ok (.text text) ∧
      ∀ before after : String, Blanks before.toList → Blanks after.toList →
        coerce column (.string (before ++ text ++ after)) .long formatter = .ok (.ofInt64 v)) ∧
    ∀ s : String, ∃ inner, Trimmed s.toList inner ∧ ∀ packed,
      coerce column (.string s) .long formatter = .ok packed ↔
        ∃ v : Int64, IsInteger inner v.toInt ∧ packed = .ofInt64 v := by
  constructor
  · intro v
    have htext := isInteger_signedText v.toInt
    refine ⟨Decimal.signedText v.toInt, rfl, fun before after hb ha => ?_⟩
    have htrimmed : Trimmed (before ++ Decimal.signedText v.toInt ++ after).toList
        (Decimal.signedText v.toInt).toList := by
      rw [String.toList_append, String.toList_append]
      exact trimmed_of_forall hb ha htext.not_blank
    exact (coerce_string_long_iff htrimmed).2 ⟨v, htext, rfl⟩
  · intro s
    have htrimmed := Text.trimmed_trimChars s.toList
    exact ⟨_, htrimmed, fun packed => coerce_string_long_iff htrimmed⟩

end Record

end BulkLoad
