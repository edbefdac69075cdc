import BulkLoad.Text.Percent
import Mathlib.Logic.Function.Basic
import Mathlib.Tactic.SplitIfs

/-!
# Texts as bytes and as path segments

A text is read back from its bytes (`Utf8.decode?_encode`) and from the segment that it is written
as in a path (`Percent.decode_encode`), so no two texts are written alike. A segment has unreserved
characters and percent signs only, and in particular no slash.
-/

namespace BulkLoad.Text

namespace Utf8

theorem toByteArray_eq (s : String) : s.toByteArray = ⟨(encode s).toArray⟩ := by
  have hs : s.toByteArray = s.toList.utf8Encode := by simp
  rw [hs]
  exact ByteArray.ext List.data_toByteArray

/-- A text is read back from its bytes. -/
theorem decode?_encode (s : String) : decode? (encode s) = some s := by
  unfold decode?
  rw [← toByteArray_eq]
  exact dif_pos s.isValidUTF8

end Utf8

namespace Percent

/-! ## Single bytes -/

/-- The bytes that stand for themselves are in ASCII. -/
theorem lt_of_isUnreserved : ∀ n < 256, isUnreserved (Char.ofNat n) → n < 128 := by
  decide +kernel

theorem hexDigit_spec : ∀ n < 16,
    Hex.value? (hexDigit n) = some n ∧ isUnreserved (hexDigit n) := by
  decide

theorem toNat_ofNat_byte (b : UInt8) : (Char.ofNat b.toNat).toNat = b.toNat := by
  have hb := b.toNat_lt
  rw [Char.ofNat, dif_pos (Or.inl (by omega))]
  rfl

/-- A byte that stands for itself is the only one of its character. -/
theorem utf8EncodeChar_ofNat {b : UInt8} (h : isUnreserved (Char.ofNat b.toNat)) :
    String.utf8EncodeChar (Char.ofNat b.toNat) = [b] := by
  have hlt : b.toNat < 128 := lt_of_isUnreserved b.toNat b.toNat_lt h
  rw [String.utf8EncodeChar]
  simp only [Char.toNat_val, toNat_ofNat_byte]
  rw [if_pos (by omega), UInt8.ofNat_toNat]

theorem decodeChars_of_ne {c : Char} (hc : c ≠ '%') (rest : List Char) :
    decodeChars (c :: rest) = (decodeChars rest).map (String.utf8EncodeChar c ++ ·) := by
  rw [decodeChars.eq_def]
  split
  · next h => cases h
  · next h =>
    cases h
    exact absurd rfl hc
  · next h =>
    cases h
    rw [if_neg hc]
    cases decodeChars rest <;> rfl

/-- A byte is read back, whatever comes after it. -/
theorem decodeChars_encodeByte (b : UInt8) (rest : List Char) :
    decodeChars (encodeByte b ++ rest) = (decodeChars rest).map (b :: ·) := by
  unfold encodeByte
  dsimp only
  split_ifs with hu
  · have hne : Char.ofNat b.toNat ≠ '%' := by
      intro hp
      rw [hp] at hu
      exact absurd hu (by decide)
    rw [List.singleton_append, decodeChars_of_ne hne, utf8EncodeChar_ofNat hu]
    rfl
  · have hb := b.toNat_lt
    obtain ⟨hhigh, -⟩ := hexDigit_spec (b.toNat / 16) (by omega)
    obtain ⟨hlow, -⟩ := hexDigit_spec (b.toNat % 16) (by omega)
    have hbyte : UInt8.ofNat (16 * (b.toNat / 16) + b.toNat % 16) = b := by
      rw [Nat.div_add_mod, UInt8.ofNat_toNat]
    simp only [List.cons_append, List.nil_append, decodeChars, hhigh, hlow, Option.bind_eq_bind,
      Option.bind_some, hbyte]
    cases decodeChars rest <;> rfl

/-! ## Whole texts -/

theorem decodeChars_encodeBytes : ∀ bytes : List UInt8,
    decodeChars (encodeBytes bytes) = some bytes
  | [] => rfl
  | b :: rest => by
    have ih := decodeChars_encodeBytes rest
    rw [encodeBytes] at ih ⊢
    rw [List.flatMap_cons, decodeChars_encodeByte, ih]
    rfl

/-- A text is read back from the segment that it is written as. -/
theorem decode_encode (s : String) : decode (encode s) = some s := by
  rw [decode, encode, String.toList_ofList, decodeChars_encodeBytes]
  exact Utf8.decode?_encode s

theorem encode_injective : Function.Injective encode := by
  intro s t h
  have hd := congrArg decode h
  rw [decode_encode, decode_encode] at hd
  exact Option.some.inj hd

/-- A segment has unreserved characters and percent signs only. -/
theorem mem_encode {s : String} {c : Char} (h : c ∈ (encode s).toList) :
    isUnreserved c ∨ c = '%' := by
  rw [encode, String.toList_ofList, encodeBytes, List.mem_flatMap] at h
  obtain ⟨b, -, hc⟩ := h
  unfold encodeByte at hc
  dsimp only at hc
  have hb := b.toNat_lt
  split_ifs at hc with hu
  · rw [List.mem_singleton.1 hc]
    exact Or.inl hu
  · simp only [List.mem_cons, List.not_mem_nil, or_false] at hc
    rcases hc with rfl | rfl | rfl
    · exact Or.inr rfl
    · exact Or.inl (hexDigit_spec _ (by omega)).2
    · exact Or.inl (hexDigit_spec _ (by omega)).2

theorem slash_not_mem_encode (s : String) : '/' ∉ (encode s).toList := by
  intro h
  rcases mem_encode h with hu | hp
  · exact absurd hu (by decide)
  · exact absurd hp (by decide)

end Percent

end BulkLoad.Text
