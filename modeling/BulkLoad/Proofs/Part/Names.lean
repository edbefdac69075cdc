import BulkLoad.Part.Name
import BulkLoad.Proofs.Record.Numerals
import Mathlib.Data.List.DropRight
import Mathlib.Data.Nat.Digits.Defs
import Mathlib.Data.String.Basic

/-!
# Names of parts stay apart

A name ends in the digits of its number, and the underscore before them is no digit. So a name is
taken apart from its end, whatever its stem looks like : the digits there are those of the number
(`rtakeWhile_name`), and the stem is what comes before them (`rdropWhile_name`).

Rows of digits of the same length are ordered as the numbers that they stand for
(`lt_iff_value_lt`). Below 10⁸ the numbers of parts have eight digits, so the names of one stem sort
by number (`names_apart`).
-/

namespace BulkLoad

namespace Decimal

variable {c d : Char} {cs ds : List Char}

/-! ## Rows of digits -/

theorem isDigits_padded (width n : Nat) : IsDigits (padded width n) := by
  obtain ⟨hne, hd⟩ := isDigits_digits n
  refine ⟨List.append_ne_nil_of_right_ne_nil _ hne, List.forall_mem_append.2 ⟨fun c hc => ?_, hd⟩⟩
  obtain rfl : c = '0' := List.eq_of_mem_replicate hc
  decide

/-- A number that is short enough is filled up to just the width. -/
theorem length_padded {width n : Nat} (hw : 0 < width) (hn : n < 10 ^ width) :
    (padded width n).length = width := by
  have hlen : (digits n).length ≤ width := (Nat.length_toDigits_le_iff (by decide) hw).2 hn
  rw [padded, padLeft, List.length_append, List.length_replicate]
  exact Nat.sub_add_cancel hlen

theorem digitValue_lt_ten (h : isDigit c) : digitValue c < 10 := by
  obtain ⟨-, hhigh⟩ := isDigit_iff_toNat.1 h
  change c.toNat - 48 < 10
  omega

/-- Digits are ordered as the numbers that they stand for. -/
theorem digitValue_lt_digitValue (hc : isDigit c) (h : c < d) : digitValue c < digitValue d := by
  obtain ⟨hlow, -⟩ := isDigit_iff_toNat.1 hc
  have hlt : c.toNat < d.toNat := h
  change c.toNat - 48 < d.toNat - 48
  omega

/-- The digit in front counts by the number of digits after it. -/
theorem value_cons (c : Char) (cs : List Char) :
    value (c :: cs) = 10 ^ cs.length * digitValue c + value cs := by
  rw [value, Nat.ofDigitChars_cons, Nat.ofDigitChars_eq_ofDigitChars_zero, Nat.mul_zero,
    Nat.zero_add]
  rfl

/-- Whatever the digits after it, the digit in front does not become the next one. -/
theorem value_cons_lt {limit : Nat} (hcs : value cs < 10 ^ cs.length) (hc : digitValue c < limit) :
    value (c :: cs) < 10 ^ cs.length * limit :=
  calc value (c :: cs)
      = 10 ^ cs.length * digitValue c + value cs := value_cons c cs
    _ < 10 ^ cs.length * digitValue c + 10 ^ cs.length := Nat.add_lt_add_left hcs _
    _ = 10 ^ cs.length * (digitValue c + 1) := rfl
    _ ≤ 10 ^ cs.length * limit := Nat.mul_le_mul_left _ hc

theorem value_lt : ∀ {cs : List Char}, (∀ c ∈ cs, isDigit c) → value cs < 10 ^ cs.length
  | [], _ => by decide
  | c :: cs, h => by
    obtain ⟨hc, hcs⟩ := List.forall_mem_cons.1 h
    exact value_cons_lt (value_lt hcs) (digitValue_lt_ten hc)

/-- Rows of digits of the same length are ordered as the numbers that they stand for. -/
theorem value_lt_value : ∀ {cs ds : List Char}, cs.length = ds.length → (∀ c ∈ cs, isDigit c) →
    cs < ds → value cs < value ds
  | [], [], _, _, h => by simp at h
  | c :: cs, d :: ds, hlen, hcs, h => by
    have hrest : cs.length = ds.length := Nat.succ.inj hlen
    obtain ⟨hc, hcs⟩ := List.forall_mem_cons.1 hcs
    rw [value_cons d ds, ← hrest]
    rcases List.cons_lt_cons_iff.1 h with hlt | ⟨rfl, hlt⟩
    · have hfront := value_cons_lt (value_lt hcs) (digitValue_lt_digitValue hc hlt)
      exact Nat.lt_add_right _ hfront
    · rw [value_cons]
      exact Nat.add_lt_add_left (value_lt_value hrest hcs hlt) _

theorem lt_iff_value_lt (hlen : cs.length = ds.length) (hcs : ∀ c ∈ cs, isDigit c)
    (hds : ∀ d ∈ ds, isDigit d) : cs < ds ↔ value cs < value ds := by
  refine ⟨value_lt_value hlen hcs, fun h => ?_⟩
  rcases lt_trichotomy cs ds with hlt | rfl | hgt
  · exact hlt
  · exact absurd h (Nat.lt_irrefl _)
  · exact absurd (value_lt_value hlen.symm hds hgt) h.not_gt

/-- Numbers that are filled up to the same width are ordered as texts. -/
theorem strictMonoOn_padded {width : Nat} (hw : 0 < width) :
    StrictMonoOn (padded width) (Set.Iio (10 ^ width)) := by
  intro n hn m hm hlt
  have hlen : (padded width n).length = (padded width m).length := by
    rw [length_padded hw hn, length_padded hw hm]
  rw [lt_iff_value_lt hlen (isDigits_padded width n).2 (isDigits_padded width m).2, value_padded,
    value_padded]
  exact hlt

end Decimal

namespace Part

open Decimal (isDigit padded isDigits_padded value_padded span_digits strictMonoOn_padded)

/-! ## Names -/

theorem toList_name (stem : String) (number : Nat) :
    (name stem number).toList = stem.toList ++ '_' :: padded 8 number := by
  simp [name]

/-- From its end on, a name has digits up to the underscore. -/
theorem span_reverse_name (stem : String) (number : Nat) :
    (name stem number).toList.reverse.takeWhile isDigit = (padded 8 number).reverse ∧
      (name stem number).toList.reverse.dropWhile isDigit = '_' :: stem.toList.reverse := by
  have hreverse : (name stem number).toList.reverse =
      (padded 8 number).reverse ++ '_' :: stem.toList.reverse := by
    simp [toList_name]
  rw [hreverse]
  refine span_digits (fun c hc => ?_) (by simp; decide)
  exact (isDigits_padded 8 number).2 c (List.mem_reverse.1 hc)

/-- The digits that a name ends in are those of its number. -/
theorem rtakeWhile_name (stem : String) (number : Nat) :
    (name stem number).toList.rtakeWhile isDigit = padded 8 number := by
  rw [List.rtakeWhile, (span_reverse_name stem number).1, List.reverse_reverse]

/-- Before the digits that a name ends in stands its stem. -/
theorem rdropWhile_name (stem : String) (number : Nat) :
    (name stem number).toList.rdropWhile isDigit = stem.toList ++ ['_'] := by
  rw [List.rdropWhile, (span_reverse_name stem number).2, List.reverse_cons, List.reverse_reverse]

variable {stem other : String} {number another : Nat}

theorem stem_eq_of_name_eq (h : name stem number = name other another) : stem = other := by
  have hstem : stem.toList ++ ['_'] = other.toList ++ ['_'] := by
    rw [← rdropWhile_name stem number, ← rdropWhile_name other another, h]
  exact String.toList_injective (List.append_cancel_right hstem)

theorem number_eq_of_name_eq (h : name stem number = name other another) : number = another := by
  have hdigits : padded 8 number = padded 8 another := by
    rw [← rtakeWhile_name stem, ← rtakeWhile_name other, h]
  rw [← value_padded 8 number, hdigits, value_padded]

/-- Names of one stem are ordered as what they end in. -/
theorem name_lt_name (h : padded 8 number < padded 8 another) :
    name stem number < name stem another := by
  rw [String.lt_iff_toList_lt, toList_name, toList_name]
  exact List.append_left_lt (List.cons_lt_cons_iff.2 (.inr ⟨rfl, h⟩))

/-- Names are the same for the same stem and number only, whatever the stems look like. The names of
one stem sort by number, as long as eight digits are enough for the numbers. -/
theorem names_apart :
    (∀ (stem other : String) (number another : Nat),
      name stem number = name other another ↔ stem = other ∧ number = another) ∧
    ∀ stem : String, StrictMonoOn (name stem) (Set.Iio (10 ^ 8)) := by
  refine ⟨fun stem other number another => ⟨fun h => ?_, ?_⟩, fun stem number hn later hl hlt => ?_⟩
  · exact ⟨stem_eq_of_name_eq h, number_eq_of_name_eq h⟩
  · rintro ⟨rfl, rfl⟩
    rfl
  · exact name_lt_name (strictMonoOn_padded (by decide) hn hl hlt)

/-- A stem that is a name itself, with the last numbers that have eight digits. -/
theorem names_apart_nested :
    99999998 < 99999999 ∧ 99999999 < 10 ^ 8 ∧ name "p" 1 = "p_00000001" ∧
      name (name "p" 1) 99999998 < name (name "p" 1) 99999999 :=
  ⟨by decide, by decide, by decide +kernel,
    names_apart.2 (name "p" 1) (by decide) (by decide) (by decide)⟩

-- With one more digit, a name sorts by the digit in front.
example : name "p" 100000000 < name "p" 99999999 := by decide +kernel

end Part

end BulkLoad
