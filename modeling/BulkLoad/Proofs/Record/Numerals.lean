import BulkLoad.Double.Read
import BulkLoad.Proofs.Record.Resolve
import Mathlib.Data.List.TakeWhile

/-!
# Texts that are numbers

The texts that are read as numbers, by their grammar. An integer is a row of digits with a sign or
without one, and is read if it lies between the bounds (`readInteger_eq_ok_iff`). A double may have
a point among its digits and an exponent after them, or be one of three words
(`exists_ofText_iff`).
-/

namespace BulkLoad

namespace Decimal

/-- The digits by their codes. -/
theorem isDigit_iff_toNat {c : Char} : isDigit c ↔ 48 ≤ c.toNat ∧ c.toNat ≤ 57 := by
  rw [isDigit, Bool.and_eq_true, decide_eq_true_eq, decide_eq_true_eq]
  rfl

/-- Digits and nothing else, and one digit at least. -/
def IsDigits (cs : List Char) : Prop :=
  cs ≠ [] ∧ ∀ c ∈ cs, isDigit c

theorem isDigits_digits (n : Nat) : IsDigits (digits n) := by
  refine ⟨Nat.toDigits_ne_nil, fun c hc => ?_⟩
  have hdigit : c.isDigit := Nat.isDigit_of_mem_toDigits (by decide) (by decide) hc
  exact hdigit

/-- What stands before the digits of a number. -/
def signs : List (List Char) :=
  [[], ['+'], ['-']]

/-- The texts of integers, and what they stand for. -/
inductive IsInteger : List Char → Int → Prop
  | unsigned {ds : List Char} (h : IsDigits ds) : IsInteger ds (value ds)
  | positive {ds : List Char} (h : IsDigits ds) : IsInteger ('+' :: ds) (value ds)
  | negative {ds : List Char} (h : IsDigits ds) : IsInteger ('-' :: ds) (-value ds)

/-- More digits do not make a number smaller. -/
theorem le_ofDigitChars : ∀ (cs : List Char) (sofar : Nat), sofar ≤ Nat.ofDigitChars 10 cs sofar
  | [], _ => by simp
  | c :: rest, sofar => by
    have ih := le_ofDigitChars rest (10 * sofar + (c.toNat - '0'.toNat))
    rw [Nat.ofDigitChars_cons]
    omega

/-- The digits are read until the number leaves the bounds, and it does not come back. -/
theorem readDigits_eq_ok_iff {limit : Nat} {beyond : IntegerFault} : ∀ {cs : List Char}
    {sofar n : Nat}, sofar ≤ limit → (readDigits limit beyond sofar cs = .ok n ↔
      (∀ c ∈ cs, isDigit c) ∧ n = Nat.ofDigitChars 10 cs sofar ∧ n ≤ limit)
  | [], sofar, n, hl => by
    simp only [readDigits, Except.ok.injEq, Nat.ofDigitChars_nil]
    grind
  | c :: rest, sofar, n, hl => by
    rw [readDigits, Nat.ofDigitChars_cons, List.forall_mem_cons]
    change (if isDigit c then if 10 * sofar + digitValue c ≤ limit then _ else _ else _) = _ ↔ _
    split_ifs with hc hn
    · rw [readDigits_eq_ok_iff hn]
      simp [hc, digitValue]
    · simp only [false_iff, not_and]
      rintro - rfl hle
      exact hn (Nat.le_trans (le_ofDigitChars rest _) hle)
    · simp [hc]

theorem readSomeDigits_eq_ok_iff {limit : Nat} {beyond : IntegerFault} {cs : List Char} {n : Nat} :
    readSomeDigits limit beyond cs = .ok n ↔ IsDigits cs ∧ n = value cs ∧ n ≤ limit := by
  cases cs with
  | nil => simp [readSomeDigits, IsDigits]
  | cons c rest =>
    rw [readSomeDigits, readDigits_eq_ok_iff (Nat.zero_le limit)]
    simp [IsDigits, value]

/-- A digit is no sign. -/
theorem ne_sign_of_isDigit {c : Char} (h : isDigit c) : c ≠ '+' ∧ c ≠ '-' := by
  constructor <;> rintro rfl <;> exact absurd h (by decide)

theorem IsDigits.ne_sign {c : Char} {rest : List Char} (h : IsDigits (c :: rest)) :
    c ≠ '+' ∧ c ≠ '-' :=
  ne_sign_of_isDigit (h.2 c List.mem_cons_self)

/-- An integer is read if it lies between the bounds. -/
theorem readInteger_eq_ok_iff {low high : Int} (hl : low < 0) (hh : 0 ≤ high) {cs : List Char}
    {i : Int} : readInteger low high cs = .ok i ↔ IsInteger cs i ∧ low ≤ i ∧ i ≤ high := by
  cases cs with
  | nil =>
    simp only [readInteger, reduceCtorEq, false_iff, not_and]
    rintro (⟨hd, -⟩)
    exact absurd rfl hd
  | cons c rest =>
    rw [readInteger]
    split_ifs with hp hn
    · subst hp
      simp only [bind_eq_ok, readSomeDigits_eq_ok_iff]
      constructor
      · rintro ⟨n, ⟨hd, rfl, hle⟩, ⟨⟩⟩
        exact ⟨.positive hd, by omega, by omega⟩
      · rintro ⟨h, hlow, hhigh⟩
        cases h with
        | unsigned hd => exact absurd rfl hd.ne_sign.1
        | positive hd => exact ⟨_, ⟨hd, rfl, by omega⟩, rfl⟩
    · obtain rfl : c = '-' := by simpa [hl] using hn
      simp only [bind_eq_ok, readSomeDigits_eq_ok_iff]
      constructor
      · rintro ⟨n, ⟨hd, rfl, hle⟩, ⟨⟩⟩
        exact ⟨.negative hd, by omega, by omega⟩
      · rintro ⟨h, hlow, hhigh⟩
        cases h with
        | unsigned hd => exact absurd rfl hd.ne_sign.2
        | negative hd => exact ⟨_, ⟨hd, rfl, by omega⟩, rfl⟩
    · have hne : c ≠ '-' := by simpa [hl] using hn
      simp only [bind_eq_ok, readSomeDigits_eq_ok_iff]
      constructor
      · rintro ⟨n, ⟨hd, rfl, hle⟩, ⟨⟩⟩
        exact ⟨.unsigned hd, by omega, by omega⟩
      · rintro ⟨h, hlow, hhigh⟩
        cases h with
        | unsigned hd => exact ⟨_, ⟨hd, rfl, by omega⟩, rfl⟩
        | positive hd => exact absurd rfl hp
        | negative hd => exact absurd rfl hne

/-- The digits at the beginning of a text. -/
theorem span_digits {ds rest : List Char} (hd : ∀ c ∈ ds, isDigit c)
    (hr : ∀ c ∈ rest.head?, isDigit c = false) :
    (ds ++ rest).takeWhile isDigit = ds ∧ (ds ++ rest).dropWhile isDigit = rest := by
  rw [List.takeWhile_append_of_pos hd, List.dropWhile_append_of_pos hd]
  cases rest with
  | nil => simp
  | cons c rest => simp [hr c rfl]

end Decimal

namespace Double

open Decimal (IsDigits isDigit signs span_digits)

/-- No exponent, or one with a sign or without. -/
inductive IsExponent : List Char → Prop
  | none : IsExponent []
  | some {e : Char} {sign ds : List Char} (he : e = 'e' ∨ e = 'E') (hs : sign ∈ signs)
    (hd : IsDigits ds) : IsExponent (e :: (sign ++ ds))

/-- Digits, maybe with a point before, among or after them, and maybe an exponent. -/
inductive IsDecimal : List Char → Prop
  | whole {ds exponent : List Char} (hd : IsDigits ds) (he : IsExponent exponent) :
    IsDecimal (ds ++ exponent)
  | pointed {whole places exponent : List Char} (hd : IsDigits (whole ++ places))
    (he : IsExponent exponent) : IsDecimal (whole ++ '.' :: (places ++ exponent))

/-- The words that stand for doubles, in any case. -/
def IsWord (cs : List Char) : Prop :=
  String.ofList (cs.map Char.toLower) ∈ ["inf", "infinity", "nan"]

/-- The texts of doubles : a decimal or a word, with a sign or without. -/
inductive IsNumber : List Char → Prop
  | word {sign rest : List Char} (hs : sign ∈ signs) (h : IsWord rest) : IsNumber (sign ++ rest)
  | decimal {sign rest : List Char} (hs : sign ∈ signs) (h : IsDecimal rest) :
    IsNumber (sign ++ rest)

theorem IsExponent.head {cs : List Char} (h : IsExponent cs) :
    ∀ c ∈ cs.head?, isDigit c = false ∧ c ≠ '.' := by
  cases h with
  | none => simp
  | some he => rcases he with rfl | rfl <;> simp <;> decide

/-- Whether a text begins with a minus sign, and what comes after a sign. -/
def takeSign : List Char → Bool × List Char
  | '-' :: rest => (true, rest)
  | '+' :: rest => (false, rest)
  | rest => (false, rest)

theorem takeSign_spec (cs : List Char) : ∃ sign ∈ signs, cs = sign ++ (takeSign cs).2 := by
  unfold takeSign
  split
  · exact ⟨['-'], by simp [signs], rfl⟩
  · exact ⟨['+'], by simp [signs], rfl⟩
  · exact ⟨[], by simp [signs], rfl⟩

theorem takeSign_of_head {cs : List Char} (h : ∀ c ∈ cs.head?, c ≠ '+' ∧ c ≠ '-') :
    takeSign cs = (false, cs) := by
  unfold takeSign
  split
  · exact absurd rfl (h '-' rfl).2
  · exact absurd rfl (h '+' rfl).1
  · rfl

theorem takeSign_append {sign rest : List Char} (hs : sign ∈ signs)
    (hr : ∀ c ∈ rest.head?, c ≠ '+' ∧ c ≠ '-') : (takeSign (sign ++ rest)).2 = rest := by
  simp only [signs, List.mem_cons, List.not_mem_nil, or_false] at hs
  rcases hs with rfl | rfl | rfl
  · rw [List.nil_append, takeSign_of_head hr]
  · rfl
  · rfl

theorem isSome_readExponent_cons (c : Char) (rest : List Char) :
    (readExponent (c :: rest)).isSome ↔ (c = 'e' ∨ c = 'E') ∧ IsDigits (takeSign rest).2 := by
  have hdigits : ((takeSign rest).2.isEmpty || !(takeSign rest).2.all isDigit) = false ↔
      IsDigits (takeSign rest).2 := by
    simp [IsDigits]
  rw [← hdigits]
  change (if (c = 'e' || c = 'E') = true then
    if ((takeSign rest).2.isEmpty || !(takeSign rest).2.all isDigit) = true then none else some _
    else none).isSome = true ↔ _
  by_cases hc : c = 'e' ∨ c = 'E'
  · cases (takeSign rest).2.isEmpty || !(takeSign rest).2.all isDigit <;> simp [hc]
  · simp [hc]

theorem isSome_readExponent_iff {cs : List Char} : (readExponent cs).isSome ↔ IsExponent cs := by
  cases cs with
  | nil => exact ⟨fun _ => .none, fun _ => rfl⟩
  | cons c rest =>
    rw [isSome_readExponent_cons]
    constructor
    · rintro ⟨he, hd⟩
      obtain ⟨sign, hs, hrest⟩ := takeSign_spec rest
      rw [hrest]
      exact .some he hs hd
    · rintro (_ | ⟨he, hs, hd⟩)
      rw [takeSign_append hs]
      · exact ⟨he, hd⟩
      · exact fun c hc => Decimal.ne_sign_of_isDigit (hd.2 c (List.mem_of_mem_head? hc))

/-- The digits after a point, and what comes after them. -/
def takePlaces : List Char → List Char × List Char
  | '.' :: rest => (rest.takeWhile isDigit, rest.dropWhile isDigit)
  | rest => ([], rest)

theorem takePlaces_of_isExponent {cs : List Char} (h : IsExponent cs) :
    takePlaces cs = ([], cs) := by
  unfold takePlaces
  split
  · exact absurd rfl (h.head '.' rfl).2
  · rfl

/-- The parts of a decimal. -/
theorem readDecimal_isSome_iff {negative : Bool} {cs : List Char} :
    (readDecimal negative cs).isSome ↔
      cs.takeWhile isDigit ++ (takePlaces (cs.dropWhile isDigit)).1 ≠ [] ∧
        IsExponent (takePlaces (cs.dropWhile isDigit)).2 := by
  change (if ((cs.takeWhile isDigit).isEmpty &&
      (takePlaces (cs.dropWhile isDigit)).1.isEmpty) = true then none
    else (readExponent (takePlaces (cs.dropWhile isDigit)).2).map _).isSome = true ↔ _
  rw [← isSome_readExponent_iff]
  split_ifs with h <;> simp_all

theorem isSome_readDecimal_iff {negative : Bool} {cs : List Char} :
    (readDecimal negative cs).isSome ↔ IsDecimal cs := by
  rw [readDecimal_isSome_iff]
  constructor
  · rintro ⟨hne, he⟩
    have hcs : cs.takeWhile isDigit ++ cs.dropWhile isDigit = cs := List.takeWhile_append_dropWhile
    have hwhole : ∀ c ∈ cs.takeWhile isDigit, isDigit c := fun c hc => List.mem_takeWhile_imp hc
    generalize cs.dropWhile isDigit = rest at *
    rw [← hcs]
    unfold takePlaces at hne he
    split at hne
    · next rest =>
      have hplaces : ∀ c ∈ rest.takeWhile isDigit, isDigit c :=
        fun c hc => List.mem_takeWhile_imp hc
      have hrest : rest.takeWhile isDigit ++ rest.dropWhile isDigit = rest :=
        List.takeWhile_append_dropWhile
      rw [← hrest]
      refine .pointed ⟨hne, ?_⟩ he
      exact List.forall_mem_append.2 ⟨hwhole, hplaces⟩
    · simp only [List.append_nil] at hne
      exact .whole ⟨hne, hwhole⟩ (by simpa using he)
  · rintro (⟨hd, he⟩ | ⟨hd, he⟩)
    · obtain ⟨htake, hdrop⟩ := span_digits hd.2 fun c hc => (he.head c hc).1
      rw [htake, hdrop, takePlaces_of_isExponent he]
      exact ⟨by simpa using hd.1, he⟩
    · obtain ⟨hwhole, hplaces⟩ := List.forall_mem_append.1 hd.2
      have hpoint : ∀ (rest : List Char), ∀ c ∈ ('.' :: rest).head?, isDigit c = false := by
        rintro rest c ⟨⟩
        decide
      obtain ⟨htake, hdrop⟩ := span_digits hwhole (hpoint _)
      obtain ⟨htake', hdrop'⟩ := span_digits hplaces fun c hc => (he.head c hc).1
      rw [htake, hdrop]
      simp only [takePlaces, htake', hdrop']
      exact ⟨hd.1, he⟩

/-- A decimal has no sign. -/
theorem IsDecimal.head {cs : List Char} (h : IsDecimal cs) :
    ∀ c ∈ cs.head?, c ≠ '+' ∧ c ≠ '-' := by
  cases h with
  | @whole ds exponent hd he =>
    obtain ⟨d, ds, rfl⟩ := List.exists_cons_of_ne_nil hd.1
    rintro _ ⟨⟩
    exact Decimal.ne_sign_of_isDigit (hd.2 d List.mem_cons_self)
  | @pointed whole places exponent hd he =>
    cases whole with
    | nil =>
      rintro _ ⟨⟩
      decide
    | cons d whole =>
      rintro _ ⟨⟩
      exact Decimal.ne_sign_of_isDigit (hd.2 d List.mem_cons_self)

theorem IsWord.head {cs : List Char} (h : IsWord cs) : ∀ c ∈ cs.head?, c ≠ '+' ∧ c ≠ '-' := by
  have hsigns (rest : List Char) : ¬ IsWord ('+' :: rest) ∧ ¬ IsWord ('-' :: rest) := by
    simp [IsWord, String.ext_iff]
  cases cs with
  | nil => simp
  | cons c rest =>
    rintro c ⟨⟩
    constructor <;> rintro rfl
    · exact (hsigns rest).1 h
    · exact (hsigns rest).2 h

theorem isSome_readMagnitude_iff {negative : Bool} {cs : List Char} :
    (readMagnitude negative cs).isSome ↔ IsWord cs ∨ IsDecimal cs := by
  rw [← @isSome_readDecimal_iff negative, readMagnitude, IsWord]
  generalize String.ofList (cs.map Char.toLower) = word
  simp only [Bool.or_eq_true, decide_eq_true_eq, List.mem_cons, List.not_mem_nil, or_false]
  by_cases hinf : word = "inf" ∨ word = "infinity"
  · simp [hinf, ← or_assoc]
  · by_cases hnan : word = "nan"
    · simp [hnan]
    · have hne := not_or.1 hinf
      simp [hnan, hne]

/-- A text is read without its sign ; an empty one is refused before. -/
theorem ofText_isOk_iff {cs : List Char} :
    (∃ x, ofText cs = .ok x) ↔ (readMagnitude (takeSign cs).1 (takeSign cs).2).isSome := by
  have helim (magnitude : Option Double) :
      (∃ x, magnitude.elim (Except.error TextFault.invalid) .ok = .ok x) ↔ magnitude.isSome := by
    cases magnitude <;> simp
  unfold ofText
  split
  · simp [takeSign, readMagnitude, readDecimal]
  · exact helim _
  · exact helim _
  · next hminus hplus =>
    have hhead : ∀ c ∈ cs.head?, c ≠ '+' ∧ c ≠ '-' := by
      cases cs with
      | nil => simp
      | cons c rest =>
        rintro _ ⟨⟩
        exact ⟨fun hc => hplus rest (hc ▸ rfl), fun hc => hminus rest (hc ▸ rfl)⟩
    rw [takeSign_of_head hhead]
    exact helim _

/-- The texts that are read as doubles. -/
theorem exists_ofText_iff {cs : List Char} : (∃ x, ofText cs = .ok x) ↔ IsNumber cs := by
  rw [ofText_isOk_iff, isSome_readMagnitude_iff]
  constructor
  · intro h
    obtain ⟨sign, hs, hcs⟩ := takeSign_spec cs
    rw [hcs]
    exact h.elim (.word hs) (.decimal hs)
  · rintro (⟨hs, h⟩ | ⟨hs, h⟩)
    · rw [takeSign_append hs h.head]
      exact Or.inl h
    · rw [takeSign_append hs h.head]
      exact Or.inr h

end Double

end BulkLoad
