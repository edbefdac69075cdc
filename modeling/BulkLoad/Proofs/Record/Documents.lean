import BulkLoad.Record.Coerce

/-!
# Documents are packed without loss

A packed value is the packed form of one document at most, which `Packed.toJson?` finds
(`toJson?_eq_some_iff`). So the order and the number of the items of an array and of the fields of
an object are kept, at any depth, and so is the kind of a number : a whole number is packed as the
integer that it is, whether it is signed or not, and a double with its bits (`document_of_packed`).

Both directions are recursions over the values, the items of arrays and the fields of objects, one
theorem for each, in the shape of the definitions.
-/

namespace BulkLoad.Packed

/-! ## Back to the document -/

mutual

theorem toJson?_ofJson : ∀ document : Json, (ofJson document).toJson? = some document
  | .null | .bool _ | .string _ => rfl
  | .number (.whole _) | .number (.double _) => rfl
  | .array items => by rw [ofJson, toJson?, toItems?_ofItems items, Option.map_some]
  | .object fields => by rw [ofJson, toJson?, toFields?_ofFields fields, Option.map_some]

theorem toItems?_ofItems : ∀ items : List Json, toItems? (ofItems items) = some items
  | [] => rfl
  | item :: rest => by
    rw [ofItems, toItems?, toJson?_ofJson item, toItems?_ofItems rest]
    rfl

theorem toFields?_ofFields : ∀ fields : List (String × Json),
    toFields? (ofFields fields) = some fields
  | [] => rfl
  | (_, value) :: rest => by
    rw [ofFields, toFields?, toJson?_ofJson value, toFields?_ofFields rest]
    rfl

end

/-! ## Back to the packed value -/

mutual

/-- A value that stands for a document is the packed form of it. -/
theorem ofJson_of_toJson? : ∀ {packed : Packed} {document : Json},
    packed.toJson? = some document → ofJson document = packed
  | .nil, _, h | .bool _, _, h | .int _, _, h | .double _, _, h | .text _, _, h => by cases h; rfl
  | .array _, _, h => by
    obtain ⟨items, hi, rfl⟩ := Option.map_eq_some_iff.1 h
    rw [ofJson, ofItems_of_toItems? hi]
  | .map _, _, h => by
    obtain ⟨fields, hf, rfl⟩ := Option.map_eq_some_iff.1 h
    rw [ofJson, ofFields_of_toFields? hf]

theorem ofItems_of_toItems? : ∀ {packed : List Packed} {items : List Json},
    toItems? packed = some items → ofItems items = packed
  | [], _, h => by cases h; rfl
  | _ :: _, _, h => by
    obtain ⟨item, hi, h⟩ := Option.bind_eq_some_iff.1 h
    obtain ⟨rest, hr, h⟩ := Option.bind_eq_some_iff.1 h
    cases h
    rw [ofItems, ofJson_of_toJson? hi, ofItems_of_toItems? hr]

theorem ofFields_of_toFields? : ∀ {packed : List (Packed × Packed)} {fields : List (String × Json)},
    toFields? packed = some fields → ofFields fields = packed
  | [], _, h => by cases h; rfl
  | (.text _, _) :: _, _, h => by
    obtain ⟨value, hv, h⟩ := Option.bind_eq_some_iff.1 h
    obtain ⟨rest, hr, h⟩ := Option.bind_eq_some_iff.1 h
    cases h
    rw [ofFields, ofJson_of_toJson? hv, ofFields_of_toFields? hr]
  | (.nil, _) :: _, _, h | (.bool _, _) :: _, _, h | (.int _, _) :: _, _, h
  | (.double _, _) :: _, _, h | (.array _, _) :: _, _, h | (.map _, _) :: _, _, h => by cases h

end

/-- The document of a packed value is the one whose packed form it is. -/
theorem toJson?_eq_some_iff {packed : Packed} {document : Json} :
    packed.toJson? = some document ↔ ofJson document = packed :=
  ⟨ofJson_of_toJson?, fun h => h ▸ toJson?_ofJson document⟩

theorem ofJson_injective : Function.Injective ofJson := by
  intro document other h
  have ho := toJson?_ofJson other
  rw [← h, toJson?_ofJson] at ho
  exact Option.some.inj ho

/-! ## Numbers -/

theorem exists_ofJson_int {i : Int} (hl : -0x8000000000000000 ≤ i) (hu : i < 0x10000000000000000) :
    ∃ n : Whole, n.val = i ∧ ofJson (.int i) = .int n := by
  refine ⟨⟨i, hl, hu⟩, rfl, ?_⟩
  rw [Json.int, Whole.ofInt?, dif_pos ⟨hl, hu⟩, ofJson]

/-- A document is read back from its packed form, and no other value is read as it; so no two
documents are packed alike, nor are they written alike as structured values. Signed and unsigned
integers of 64 bits are packed as what they are. -/
theorem document_of_packed :
    (∀ (packed : Packed) (document : Json),
      packed.toJson? = some document ↔ ofJson document = packed) ∧
    (∀ document other : Json, ofJson document = ofJson other ↔ document = other) ∧
    (∀ i : Int64, ofJson (.int i.toInt) = .ofInt64 i) ∧
    (∀ u : UInt64, ∃ n : Whole, n.val = u.toNat ∧ ofJson (.int u.toNat) = .int n) ∧
    ∀ (column : String) (formatter : Record.Formatter) (document other : Json),
      Record.coerce column (.json document) .structured formatter =
        Record.coerce column (.json other) .structured formatter ↔ document = other := by
  have hsame (document other : Json) : ofJson document = ofJson other ↔ document = other :=
    ofJson_injective.eq_iff
  refine ⟨fun _ _ => toJson?_eq_some_iff, hsame, fun i => ?_, fun u => ?_, fun _ _ a b => ?_⟩
  · obtain ⟨n, hn, hp⟩ := exists_ofJson_int i.le_toInt (Int.lt_trans i.toInt_lt (by decide))
    have hi : n = .ofInt64 i := Whole.ext hn
    rw [hp, hi, ofInt64]
  · have hu := u.toNat_lt
    exact exists_ofJson_int (by omega) (by omega)
  · rw [← hsame a b, Record.coerce, Record.coerce, Except.ok.injEq]

end BulkLoad.Packed
