import BulkLoad.MessagePack.Reader
import BulkLoad.MessagePack.Writer
import BulkLoad.Proofs.Text.Encodings

/-!
# Reading back what was written

A value tells by itself where it ends : it is read back off the front of any bytes that it stands
before (`readValue_encode`). So values that were written one after another, with nothing between
them, are read back as they are (`decodeAll?_encodeAll`), and no other values are written alike
(`eq_of_encodeAll_eq`). The lengths of texts, arrays and maps have to fit in 32 bits (`Fits`).
-/

namespace BulkLoad

/-! ## Numbers -/

namespace MessagePack

/-- What the digits of a number add to what was read before. -/
theorem foldl_bigEndian (n : Nat) : ∀ (width sofar : Nat),
    (bigEndian width n).foldl (fun sofar b => 256 * sofar + b.toNat) sofar =
      Nat.pow 256 width * sofar + n % Nat.pow 256 width
  | 0, sofar => by
    have hone : Nat.pow 256 0 = 1 := rfl
    rw [bigEndian, List.foldl_nil, hone, Nat.one_mul, Nat.mod_one, Nat.add_zero]
  | width + 1, sofar => by
    have hbyte : (UInt8.ofNat (n / Nat.pow 256 width)).toNat = n / Nat.pow 256 width % 256 :=
      UInt8.toNat_ofNat'
    have hpow : Nat.pow 256 (width + 1) = Nat.pow 256 width * 256 := rfl
    have hmod : n % Nat.pow 256 (width + 1) =
        n % Nat.pow 256 width + Nat.pow 256 width * (n / Nat.pow 256 width % 256) :=
      Nat.mod_pow_succ
    rw [bigEndian, List.foldl_cons, foldl_bigEndian n width, hbyte, hmod, hpow, Nat.mul_add,
      Nat.mul_assoc, Nat.add_assoc, Nat.add_comm (n % Nat.pow 256 width)]

/-- A number is read back from as many bytes as it needs. -/
theorem ofBigEndian_bigEndian {width n : Nat} (h : n < Nat.pow 256 width) :
    ofBigEndian (bigEndian width n) = n := by
  rw [ofBigEndian, foldl_bigEndian, Nat.mul_zero, Nat.zero_add, Nat.mod_eq_of_lt h]

theorem bigEndian_one (n : Nat) : bigEndian 1 n = [UInt8.ofNat n] := by
  rw [bigEndian, bigEndian]
  exact congrArg (fun m => [UInt8.ofNat m]) (Nat.div_one n)

end MessagePack

namespace Packed

open MessagePack

variable {depth width n : Nat} {rest : List UInt8}

theorem take_append {bytes : List UInt8} (h : bytes.length = n) :
    take n (bytes ++ rest) = some (bytes, rest) := by
  rw [take, if_pos (by simp [h]), List.splitAt_eq, ← h, List.take_left, List.drop_left]

theorem readNat_bigEndian (h : n < Nat.pow 256 width) :
    readNat width (bigEndian width n ++ rest) = some (n, rest) := by
  have hn : ofBigEndian (bigEndian width n) = n := ofBigEndian_bigEndian h
  rw [readNat, take_append (length_bigEndian width n), Option.map_some]
  simp only [hn]

theorem ofInt?_of_val {i : Int} (w : Whole) (h : w.val = i) : ofInt? i = some (.int w) := by
  rw [ofInt?, ← h, Whole.ofInt?_val, Option.map_some]

theorem readUnsigned_bigEndian (w : Whole) (hw : w.val = n) (h : n < Nat.pow 256 width) :
    readUnsigned width (bigEndian width n ++ rest) = some (.int w, rest) := by
  rw [readUnsigned, readNat_bigEndian h, Option.bind_eq_bind, Option.bind_some]
  simp only [ofInt?_of_val w hw, Option.bind_eq_bind, Option.bind_some, Option.pure_def]

/-- A negative number is read back from its complement. -/
theorem readSigned_bigEndian {bits : Nat} (hb : Nat.pow 2 bits = Nat.pow 256 width) (w : Whole)
    (hneg : w.val < 0) (hl : -((Nat.pow 256 width / 2 : Nat) : Int) ≤ w.val) :
    readSigned width (bigEndian width (Nat.pow 2 bits + w.val).toNat ++ rest) =
      some (.int w, rest) := by
  rw [hb]
  generalize hn : (((Nat.pow 256 width : Nat) : Int) + w.val).toNat = n
  have hlow : ¬ n < Nat.pow 256 width / 2 := by omega
  have hi : ofInt? ((n : Int) - (Nat.pow 256 width : Nat)) = some (.int w) :=
    ofInt?_of_val w (by omega)
  rw [readSigned, readNat_bigEndian (by omega), Option.bind_eq_bind, Option.bind_some]
  simp only [if_neg hlow, hi, Option.bind_eq_bind, Option.bind_some, Option.pure_def]

/-! ## Heads -/

theorem toNat_ofNat_of_lt (h : n < 256) : (UInt8.ofNat n).toNat = n := by
  rw [UInt8.toNat_ofNat', Nat.mod_eq_of_lt h]

/-- A byte below 128 is a number. -/
theorem readValue_low (h : n < 0x80) :
    readValue (depth + 1) (bigEndian 1 n ++ rest) = (ofInt? n).map (·, rest) := by
  rw [bigEndian_one, List.singleton_append, readValue]
  simp only [toNat_ofNat_of_lt (show n < 256 by omega)]
  rw [if_pos h]

/-- A byte from 224 on is a negative number. -/
theorem readValue_high (hl : 0xE0 ≤ n) (h : n < 256) :
    readValue (depth + 1) (bigEndian 1 n ++ rest) = (ofInt? (n - 256)).map (·, rest) := by
  rw [bigEndian_one, List.singleton_append, readValue]
  simp only [toNat_ofNat_of_lt h]
  rw [if_neg (by omega), if_neg (by omega), if_neg (by omega), if_neg (by omega), if_pos hl]

/-- A length that was written is what is read on with. -/
theorem bind_readNat {α : Type} (read : Nat → List UInt8 → Option α) (width : Nat)
    (h : n < Nat.pow 256 width) :
    ((readNat width (bigEndian width n ++ rest)).bind fun p => read p.1 p.2) = read n rest := by
  rw [readNat_bigEndian h, Option.bind_some]

theorem readValue_textHead (h : n < 0x100000000) :
    readValue (depth + 1) (textHead n ++ rest) = readText n rest := by
  unfold textHead
  split
  · rw [bigEndian_one, List.singleton_append, readValue]
    simp only [toNat_ofNat_of_lt (show 0xA0 + n < 256 by omega)]
    rw [if_neg (by omega), if_neg (by omega), if_neg (by omega), if_pos (by omega),
      Nat.add_sub_cancel_left]
  · split
    · exact bind_readNat readText 1 ‹_›
    · split
      · exact bind_readNat readText 2 ‹_›
      · exact bind_readNat readText 4 h

/-- Reads the items of an array. -/
def readArray (depth count : Nat) (bytes : List UInt8) : Option (Packed × List UInt8) :=
  (readMany (readValue depth) count bytes).map fun p => (.array p.1, p.2)

theorem readValue_arrayHead (h : n < 0x100000000) :
    readValue (depth + 1) (arrayHead n ++ rest) = readArray depth n rest := by
  unfold arrayHead
  split
  · rw [bigEndian_one, List.singleton_append, readValue]
    simp only [toNat_ofNat_of_lt (show 0x90 + n < 256 by omega)]
    rw [if_neg (by omega), if_neg (by omega), if_pos (by omega), Nat.add_sub_cancel_left]
    rfl
  · split
    · exact bind_readNat (readArray depth) 2 ‹_›
    · exact bind_readNat (readArray depth) 4 h

/-- Reads the entries of a map. -/
def readMap (depth count : Nat) (bytes : List UInt8) : Option (Packed × List UInt8) :=
  (readMany (readEntry (readValue depth)) count bytes).map fun p => (.map p.1, p.2)

theorem readValue_mapHead (h : n < 0x100000000) :
    readValue (depth + 1) (mapHead n ++ rest) = readMap depth n rest := by
  unfold mapHead
  split
  · rw [bigEndian_one, List.singleton_append, readValue]
    simp only [toNat_ofNat_of_lt (show 0x80 + n < 256 by omega)]
    rw [if_neg (by omega), if_pos (by omega), Nat.add_sub_cancel_left]
    rfl
  · split
    · exact bind_readNat (readMap depth) 2 ‹_›
    · exact bind_readNat (readMap depth) 4 h

/-! ## Integers -/

/-- An integer is read back from the smallest form that holds it. -/
theorem readValue_encodeInt (w : Whole) :
    readValue (depth + 1) (encodeInt w.val ++ rest) = some (.int w, rest) := by
  have hlower := w.lower
  have hupper := w.upper
  unfold encodeInt
  dsimp only
  split
  next hpos =>
    have hval : w.val = w.val.toNat := by omega
    have hbound : w.val.toNat < 0x10000000000000000 := by omega
    split
    · rw [readValue_low ‹_›, ofInt?_of_val w hval]
      rfl
    · split
      · exact readUnsigned_bigEndian w hval (by omega)
      · split
        · exact readUnsigned_bigEndian w hval (by omega)
        · split
          · exact readUnsigned_bigEndian w hval (by omega)
          · exact readUnsigned_bigEndian w hval hbound
  next hneg =>
    split
    next hsmall =>
      have hpow : Nat.pow 2 8 = 256 := rfl
      rw [hpow, readValue_high (by omega) (by omega), ofInt?_of_val w (by omega)]
      rfl
    · split
      · exact readSigned_bigEndian rfl w (by omega) (by omega)
      · split
        · exact readSigned_bigEndian rfl w (by omega) (by omega)
        · split
          · exact readSigned_bigEndian rfl w (by omega) (by omega)
          · exact readSigned_bigEndian rfl w (by omega) (by omega)

/-! ## Nested values -/

/-- The length of every text, in bytes, and of every array and map fits in 32 bits. -/
inductive Fits : Packed → Prop
  | nil : Fits .nil
  | bool (b : Bool) : Fits (.bool b)
  | int (n : Whole) : Fits (.int n)
  | double (x : Double) : Fits (.double x)
  | text {s : String} (h : (Text.Utf8.encode s).length < 0x100000000) : Fits (.text s)
  | array {items : List Packed} (h : items.length < 0x100000000)
    (hi : ∀ item ∈ items, Fits item) : Fits (.array items)
  | map {entries : List (Packed × Packed)} (h : entries.length < 0x100000000)
    (hk : ∀ entry ∈ entries, Fits entry.1) (hv : ∀ entry ∈ entries, Fits entry.2) :
    Fits (.map entries)

/-- The written form of a key and its value. -/
def encodeEntry (entry : Packed × Packed) : List UInt8 :=
  encode entry.1 ++ encode entry.2

theorem encodeItems_eq : ∀ items : List Packed, encodeItems items = items.flatMap encode
  | [] => by rw [encodeItems, List.flatMap_nil]
  | item :: rest => by rw [encodeItems, List.flatMap_cons, encodeItems_eq rest]

theorem encodeEntries_eq : ∀ entries : List (Packed × Packed),
    encodeEntries entries = entries.flatMap encodeEntry
  | [] => by rw [encodeEntries, List.flatMap_nil]
  | (key, value) :: rest => by
    rw [encodeEntries, List.flatMap_cons, encodeEntries_eq rest, encodeEntry]

theorem length_textHead_pos (n : Nat) : 0 < (textHead n).length := by
  unfold textHead
  split
  · simp [length_bigEndian]
  · split
    · simp
    · split <;> simp

theorem length_arrayHead_pos (n : Nat) : 0 < (arrayHead n).length := by
  unfold arrayHead
  split
  · simp [length_bigEndian]
  · split <;> simp

theorem length_mapHead_pos (n : Nat) : 0 < (mapHead n).length := by
  unfold mapHead
  split
  · simp [length_bigEndian]
  · split <;> simp

theorem length_encodeInt_pos (i : Int) : 0 < (encodeInt i).length := by
  unfold encodeInt
  dsimp only
  split <;> repeat' split
  all_goals simp [length_bigEndian]

/-- No value is written as nothing. -/
theorem length_encode_pos (v : Packed) : 0 < (encode v).length := by
  cases v with
  | nil => simp [encode]
  | bool b => simp [encode]
  | int n => simpa [encode] using length_encodeInt_pos n.val
  | double x => simp [encode]
  | text s =>
    have h := length_textHead_pos (Text.Utf8.encode s).length
    rw [encode, encodeText, List.length_append]
    omega
  | array items =>
    have h := length_arrayHead_pos items.length
    rw [encode, List.length_append]
    omega
  | map entries =>
    have h := length_mapHead_pos entries.length
    rw [encode, List.length_append]
    omega

/-- Reading needs a depth of one at least. -/
theorem exists_depth {v : Packed} (h : (encode v).length ≤ depth) : ∃ below, depth = below + 1 := by
  have hpos := length_encode_pos v
  exact ⟨depth - 1, by omega⟩

theorem length_le_of_mem_flatMap {α : Type} (write : α → List UInt8) {items : List α} {item : α}
    (h : item ∈ items) : (write item).length ≤ (items.flatMap write).length := by
  obtain ⟨before, after, rfl⟩ := List.append_of_mem h
  simp only [List.flatMap_append, List.flatMap_cons, List.length_append]
  omega

/-- What is read back one by one is read back from one after another. -/
theorem readMany_flatMap {α : Type} {read : List UInt8 → Option (α × List UInt8)}
    {write : α → List UInt8} : ∀ {items : List α},
      (∀ item ∈ items, ∀ rest, read (write item ++ rest) = some (item, rest)) →
        ∀ rest, readMany read items.length (items.flatMap write ++ rest) = some (items, rest)
  | [], _, _ => rfl
  | item :: items, h, rest => by
    obtain ⟨hitem, hitems⟩ := List.forall_mem_cons.1 h
    rw [List.flatMap_cons, List.append_assoc, List.length_cons, readMany, hitem]
    simp only [Option.bind_eq_bind, Option.bind_some, readMany_flatMap hitems, Option.pure_def]

theorem readEntry_encodeEntry {read : List UInt8 → Option (Packed × List UInt8)}
    {entry : Packed × Packed}
    (hk : ∀ rest, read (encode entry.1 ++ rest) = some (entry.1, rest))
    (hv : ∀ rest, read (encode entry.2 ++ rest) = some (entry.2, rest)) (rest : List UInt8) :
    readEntry read (encodeEntry entry ++ rest) = some (entry, rest) := by
  rw [encodeEntry, List.append_assoc, readEntry, hk]
  simp only [Option.bind_eq_bind, Option.bind_some, hv, Option.pure_def]

/-- A value is read back off the front of any bytes. Its length bounds how deep it is nested. -/
theorem readValue_encode {v : Packed} (h : v.Fits) : ∀ {depth : Nat}, (encode v).length ≤ depth →
    ∀ rest, readValue depth (encode v ++ rest) = some (v, rest) := by
  induction h with
  | nil =>
    intro depth hd rest
    obtain ⟨depth, rfl⟩ := exists_depth hd
    rfl
  | bool b =>
    intro depth hd rest
    obtain ⟨depth, rfl⟩ := exists_depth hd
    cases b <;> rfl
  | int n =>
    intro depth hd rest
    obtain ⟨depth, rfl⟩ := exists_depth hd
    rw [encode, readValue_encodeInt]
  | double x =>
    intro depth hd rest
    obtain ⟨depth, rfl⟩ := exists_depth hd
    have hx : x.bits.toNat < Nat.pow 256 8 := x.bits.toNat_lt
    rw [encode]
    change ((readNat 8 (bigEndian 8 x.bits.toNat ++ rest)).map fun p =>
      (Packed.double ⟨UInt64.ofNat p.1⟩, p.2)) = _
    rw [readNat_bigEndian hx, Option.map_some, UInt64.ofNat_toNat]
  | @text s hl =>
    intro depth hd rest
    obtain ⟨depth, rfl⟩ := exists_depth hd
    rw [encode, encodeText, List.append_assoc, readValue_textHead hl, readText, take_append rfl]
    simp only [Option.bind_eq_bind, Option.bind_some, Text.Utf8.decode?_encode, Option.pure_def]
  | @array items hl hi ih =>
    intro depth hd rest
    obtain ⟨depth, rfl⟩ := exists_depth hd
    -- The head takes a byte at least, so the depth below is enough for each item.
    have hhead := length_arrayHead_pos items.length
    rw [encode, encodeItems_eq, List.length_append] at hd
    have hitems : ∀ item ∈ items, ∀ rest,
        readValue depth (encode item ++ rest) = some (item, rest) := by
      intro item hm
      have hle := length_le_of_mem_flatMap encode hm
      exact ih item hm (by omega)
    rw [encode, encodeItems_eq, List.append_assoc, readValue_arrayHead hl, readArray,
      readMany_flatMap hitems, Option.map_some]
  | @map entries hl hk hv ihk ihv =>
    intro depth hd rest
    obtain ⟨depth, rfl⟩ := exists_depth hd
    have hhead := length_mapHead_pos entries.length
    rw [encode, encodeEntries_eq, List.length_append] at hd
    have hentries : ∀ entry ∈ entries, ∀ rest,
        readEntry (readValue depth) (encodeEntry entry ++ rest) = some (entry, rest) := by
      intro entry hm
      have hle := length_le_of_mem_flatMap encodeEntry hm
      rw [encodeEntry, List.length_append] at hle
      exact readEntry_encodeEntry (ihk entry hm (by omega)) (ihv entry hm (by omega))
    rw [encode, encodeEntries_eq, List.append_assoc, readValue_mapHead hl, readMap,
      readMany_flatMap hentries, Option.map_some]

/-! ## One after another -/

theorem readAll_cons {count : Nat} {bytes : List UInt8} (h : bytes ≠ []) :
    readAll depth (count + 1) bytes =
      (readValue depth bytes).bind fun p => (readAll depth count p.2).map (p.1 :: ·) := by
  rw [readAll]
  · rw [Option.bind_eq_bind]
    refine congrArg _ (funext fun ⟨value, rest⟩ => ?_)
    dsimp only
    cases readAll depth count rest <;> rfl
  · exact h

/-- Values are read back from one after another. -/
theorem readAll_encodeAll : ∀ {values : List Packed} {count : Nat}, (∀ v ∈ values, v.Fits) →
    (∀ v ∈ values, (encode v).length ≤ depth) → values.length ≤ count →
      readAll depth count (encodeAll values) = some values
  | [], count, _, _, _ => by
    rw [encodeAll, List.flatMap_nil, readAll]
  | v :: values, 0, _, _, hc => absurd hc (by simp)
  | v :: values, count + 1, hfits, hdepth, hc => by
    obtain ⟨hv, hvalues⟩ := List.forall_mem_cons.1 hfits
    obtain ⟨hd, hds⟩ := List.forall_mem_cons.1 hdepth
    have ih := readAll_encodeAll hvalues hds (Nat.le_of_succ_le_succ hc)
    have hne : encodeAll (v :: values) ≠ [] := by
      have hpos := length_encode_pos v
      intro he
      have hlen := congrArg List.length he
      rw [encodeAll, List.flatMap_cons, List.length_append, List.length_nil] at hlen
      omega
    rw [readAll_cons hne, encodeAll, List.flatMap_cons, readValue_encode hv hd, Option.bind_some]
    exact congrArg _ ih

theorem length_le_length_encodeAll : ∀ values : List Packed,
    values.length ≤ (encodeAll values).length
  | [] => Nat.zero_le _
  | v :: values => by
    have hpos := length_encode_pos v
    have ih := length_le_length_encodeAll values
    rw [encodeAll] at ih ⊢
    rw [List.flatMap_cons, List.length_append, List.length_cons]
    omega

/-- Values written one after another are read back as they are, and nothing is left over. -/
theorem decodeAll?_encodeAll {values : List Packed} (h : ∀ v ∈ values, v.Fits) :
    decodeAll? (encodeAll values) = some values := by
  refine readAll_encodeAll h (fun v hv => ?_) (length_le_length_encodeAll values)
  exact Nat.le_succ_of_le (length_le_of_mem_flatMap encode hv)

example : decodeAll? [0x92, 0xC0, 0xFF, 0xC3] =
    some [.array [.nil, .int ⟨-1, by decide, by decide⟩], .bool true] := by
  rfl

/-- No two lists of values are written alike. -/
theorem eq_of_encodeAll_eq {values others : List Packed} (h : ∀ v ∈ values, v.Fits)
    (ho : ∀ v ∈ others, v.Fits) (he : encodeAll values = encodeAll others) : values = others := by
  have hd := decodeAll?_encodeAll h
  rw [he, decodeAll?_encodeAll ho] at hd
  exact (Option.some.inj hd).symm

end Packed

end BulkLoad
