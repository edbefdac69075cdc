import BulkLoad.Record.Writer
import Mathlib.Data.List.Basic
import Mathlib.Data.List.Nodup
import Mathlib.Data.List.Perm.Subperm

/-!
# What resolving the columns guarantees

A schema made by `Schema.ofColumns` has distinct names (`distinct_of_ofColumns`). From such a
schema `WriterSet.resolve` makes writers that are `Sound` : no two of them share a key, the
key `time` belongs to the column that gives nothing but the partition key, and there is one
source of partition keys, which is a column or a generator.

A column `time` that is not the partition key is renamed by `uniqueName`. Its candidates are
distinct and one more than the names in use, so one of them is free (`uniqueName_not_mem`).
The name it gets joins the names in use, and so the names of all columns stay apart.
-/

namespace BulkLoad

/-- A computation succeeds if its steps do. -/
theorem bind_eq_ok {ε α β : Type} {x : Except ε α} {f : α → Except ε β} {b : β} :
    x >>= f = .ok b ↔ ∃ a, x = .ok a ∧ f a = .ok b := by
  cases x with
  | error e => exact ⟨nofun, nofun⟩
  | ok a => exact ⟨fun h => ⟨a, rfl, h⟩, by rintro ⟨_, ⟨⟩, h⟩; exact h⟩

theorem map_eq_ok_iff {ε α β : Type} {x : Except ε α} {f : α → β} {b : β} :
    x.map f = .ok b ↔ ∃ a, x = .ok a ∧ f a = b := by
  cases x <;> simp [Except.map]

/-- A computation fails if one of its steps does. -/
theorem bind_eq_error {ε α β : Type} {x : Except ε α} {f : α → Except ε β} {e : ε} :
    x >>= f = .error e ↔ x = .error e ∨ ∃ a, x = .ok a ∧ f a = .error e := by
  cases x with
  | error e' =>
    exact ⟨fun h => Or.inl (by cases h; rfl), by rintro (⟨⟨⟩⟩ | ⟨_, ⟨⟩, -⟩); rfl⟩
  | ok a => exact ⟨fun h => Or.inr ⟨a, rfl, h⟩, by rintro (⟨⟨⟩⟩ | ⟨_, ⟨⟩, h⟩); exact h⟩

/-! ## Schemas -/

instance (schema : Schema) : Decidable schema.Distinct :=
  inferInstanceAs (Decidable schema.names.Nodup)

/-- Columns without a first duplicate have distinct names, none of which was seen before. -/
theorem nodup_of_firstDuplicate : ∀ {seen : List String} {columns : List Column},
    Schema.firstDuplicate seen columns = none →
      (columns.map (·.name)).Nodup ∧ ∀ column ∈ columns, column.name ∉ seen
  | _, [], _ => ⟨List.nodup_nil, by simp⟩
  | seen, column :: rest, h => by
    rw [Schema.firstDuplicate] at h
    split_ifs at h with hs
    obtain ⟨hn, hm⟩ := nodup_of_firstDuplicate h
    have hc : column.name ∉ seen := by simpa using hs
    constructor
    · rw [List.map_cons, List.nodup_cons]
      refine ⟨?_, hn⟩
      rintro hmem
      obtain ⟨other, hother, he⟩ := List.mem_map.1 hmem
      exact hm other hother (he ▸ List.mem_cons_self)
    · rintro other (_ | ⟨_, hother⟩)
      · exact hc
      · exact fun hseen => hm other hother (List.mem_cons_of_mem _ hseen)

/-- Schemas that `ofColumns` makes have distinct names. -/
theorem distinct_of_ofColumns {columns : List Column} {schema : Schema}
    (h : Schema.ofColumns columns = .ok schema) : schema.Distinct := by
  unfold Schema.ofColumns at h
  split at h
  · cases h
  · next hd =>
    cases h
    exact (nodup_of_firstDuplicate hd).1

namespace Record

/-! ## Unused names -/

theorem underscored_injective (name : String) : Function.Injective (underscored name) := by
  intro j k h
  have hl := congrArg String.length h
  simpa [underscored] using hl

/-- The name that is chosen is a candidate, and not in use. -/
theorem uniqueName_spec (name : String) (used : List String) :
    (∃ k, uniqueName name used = underscored name (k + 1)) ∧ uniqueName name used ∉ used := by
  set candidates := (List.range (used.length + 1)).map fun k => underscored name (k + 1)
  have hn : candidates.Nodup :=
    List.Nodup.map (fun j k h => by simpa using underscored_injective name h) List.nodup_range
  obtain ⟨free, hfree, hused⟩ : ∃ free ∈ candidates, free ∉ used := by
    by_contra hall
    push Not at hall
    have hle := (List.subperm_of_subset hn hall).length_le
    simp only [candidates, List.length_map, List.length_range] at hle
    omega
  have hfound : (candidates.find? fun c => !used.contains c).isSome :=
    List.find?_isSome.2 ⟨free, hfree, by simpa using hused⟩
  obtain ⟨found, hf⟩ := Option.isSome_iff_exists.1 hfound
  have hname : uniqueName name used = found := by
    rw [uniqueName, hf, Option.getD_some]
  rw [hname]
  constructor
  · obtain ⟨k, -, rfl⟩ := List.mem_map.1 (List.mem_of_find?_eq_some hf)
    exact ⟨k, rfl⟩
  · simpa using List.find?_some hf

theorem uniqueName_not_mem (name : String) (used : List String) : uniqueName name used ∉ used :=
  (uniqueName_spec name used).2

/-! ## The writer of a column -/

/-- The column that gives the partition key, where `timeColumn` is the one that the settings
name and `hasKey` says whether there is a key without a column `time`. -/
def keyColumn (timeColumn : Option String) (hasKey : Bool) : Option String :=
  if hasKey then timeColumn else some timeKey

/-- How the writer of a column stands to the column, where `used` has the names in use. -/
structure Binds (giver : Option String) (used : List String) (column : Column)
    (writer : Writer) : Prop where
  column_eq : writer.binding.column = column.name
  /-- A column keeps its name, or is renamed from `time` to a name that is not in use. -/
  key_eq : writer.binding.key = column.name ∨
    column.name = timeKey ∧ writer.binding.key ∉ used
  /-- The key `time` is for columns that are the partition key and nothing else. -/
  role_eq_key_iff : writer.binding.role = .key ↔ writer.binding.key = timeKey
  givesKey_iff : writer.givesKey ↔ giver = some column.name

theorem Binds.mono {giver : Option String} {used used' : List String} {column : Column}
    {writer : Writer} (h : Binds giver used' column writer) (hu : used ⊆ used') :
    Binds giver used column writer :=
  ⟨h.column_eq, h.key_eq.imp_right (And.imp_right fun hk hmem => hk (hu hmem)),
    h.role_eq_key_iff, h.givesKey_iff⟩

/-- A column is written in one of four ways. -/
theorem columnRole_cases {timeColumn : Option String} {hasKey : Bool} {used : List String}
    {column : Column} {role : Role} {key : String}
    (h : columnRole timeColumn hasKey used column = .ok (role, key)) :
    (timeColumn = some column.name ∧ column.type.holdsTime ∧ key = column.name ∧
        role = if column.name = timeKey then .key else .keyAndPlain) ∨
      (timeColumn ≠ some column.name ∧ column.name = timeKey ∧ hasKey = true ∧
        key = uniqueName column.name used ∧ role = .plain) ∨
      (timeColumn ≠ some column.name ∧ column.name = timeKey ∧ hasKey = false ∧
        column.type.holdsTime ∧ key = column.name ∧ role = .key) ∨
      (timeColumn ≠ some column.name ∧ column.name ≠ timeKey ∧ key = column.name ∧
        role = .plain) := by
  simp only [columnRole] at h
  split_ifs at h <;> cases h <;> simp_all

/-- What `bindColumn` puts into a binding. -/
theorem bindColumn_eq_ok {settings : Settings} {standard : Formatter}
    {timeColumn : Option String} {used : List String} {index : Nat} {column : Column}
    {writer : Writer}
    (h : bindColumn settings standard timeColumn used index column = .ok writer) :
    writer.binding.index = index ∧ writer.binding.column = column.name ∧
      writer.binding.source = column.type ∧
      columnRole timeColumn (timeColumn.isSome || settings.timeValue.isSome) used column =
        .ok (writer.binding.role, writer.binding.key) := by
  obtain ⟨formatter, -, h⟩ := bind_eq_ok.1 h
  obtain ⟨⟨role, key⟩, hr, h⟩ := bind_eq_ok.1 h
  cases h
  exact ⟨rfl, rfl, rfl, hr⟩

theorem binds_of_bindColumn {settings : Settings} {standard : Formatter}
    {timeColumn : Option String} {used : List String} {index : Nat} {column : Column}
    {writer : Writer}
    (h : bindColumn settings standard timeColumn used index column = .ok writer)
    (hu : column.name ∈ used) :
    Binds (keyColumn timeColumn (timeColumn.isSome || settings.timeValue.isSome)) used column
      writer := by
  obtain ⟨-, hc, -, hr⟩ := bindColumn_eq_ok h
  have hnew := uniqueName_not_mem column.name used
  have htime : column.name = timeKey → uniqueName column.name used ≠ timeKey := by
    rintro hn he
    exact hnew (he ▸ hn ▸ hu)
  rcases columnRole_cases hr with ⟨ht, -, hk, hrole⟩ | ⟨ht, hn, hh, hk, hrole⟩ |
    ⟨ht, hn, hh, -, hk, hrole⟩ | ⟨ht, hn, hk, hrole⟩
  · refine ⟨hc, Or.inl hk, ?_, ?_⟩
    · rw [hrole, hk]; split_ifs with hn <;> simp [hn]
    · rw [Writer.givesKey, hrole]
      split_ifs <;> simp [keyColumn, ht]
  · refine ⟨hc, Or.inr ⟨hn, hk ▸ hnew⟩, ?_, ?_⟩
    · rw [hrole, hk]; simpa using htime hn
    · rw [Writer.givesKey, hrole, hh]
      simpa [keyColumn] using ht
  · refine ⟨hc, Or.inl hk, ?_, ?_⟩
    · rw [hrole, hk]; simpa using hn
    · rw [Writer.givesKey, hrole, hh]
      simpa [keyColumn] using hn.symm
  · refine ⟨hc, Or.inl hk, ?_, ?_⟩
    · rw [hrole, hk]; simpa using hn
    · rw [Writer.givesKey, hrole]
      unfold keyColumn
      split_ifs
      · simpa using ht
      · simpa using Ne.symm hn

/-! ## The writers of all columns -/

/-- The names in use grow from column to column. -/
theorem forall₂_binds {settings : Settings} {standard : Formatter} {timeColumn : Option String} :
    ∀ {used : List String} {index : Nat} {columns : List Column} {writers : List Writer},
      bindColumns settings standard timeColumn used index columns = .ok writers →
      (∀ column ∈ columns, column.name ∈ used) →
      List.Forall₂
        (Binds (keyColumn timeColumn (timeColumn.isSome || settings.timeValue.isSome)) used)
        columns writers
  | _, _, [], _, h, _ => by cases h; exact .nil
  | used, index, column :: rest, writers, h, hu => by
    obtain ⟨writer, hw, h⟩ := bind_eq_ok.1 h
    obtain ⟨later, hl, h⟩ := bind_eq_ok.1 h
    cases h
    have ih := forall₂_binds hl fun other hother =>
      List.mem_cons_of_mem _ (hu other (List.mem_cons_of_mem _ hother))
    exact .cons (binds_of_bindColumn hw (hu column List.mem_cons_self))
      (ih.imp fun _ _ hb => hb.mono (List.subset_cons_self _ _))

/-- A key is the name of a column, or was not in use. -/
theorem key_of_forall₂_binds {giver : Option String} {used : List String}
    {columns : List Column} {writers : List Writer}
    (h : List.Forall₂ (Binds giver used) columns writers) {writer : Writer}
    (hw : writer ∈ writers) :
    writer.binding.key ∈ columns.map (·.name) ∨ writer.binding.key ∉ used := by
  induction h with
  | nil => cases hw
  | cons hb _ ih =>
    rcases List.mem_cons.1 hw with rfl | hw
    · rcases hb.key_eq with hk | ⟨-, hk⟩
      · exact Or.inl (hk ▸ List.mem_cons_self)
      · exact Or.inr hk
    · exact (ih hw).imp_left (List.mem_cons_of_mem _)

/-- Different columns have different keys : a name that is kept differs from the other names, and a
name that is made up was not in use. -/
theorem nodup_keys_of_bindColumns {settings : Settings} {standard : Formatter}
    {timeColumn : Option String} :
    ∀ {used : List String} {index : Nat} {columns : List Column} {writers : List Writer},
      bindColumns settings standard timeColumn used index columns = .ok writers →
      (∀ column ∈ columns, column.name ∈ used) → (columns.map (·.name)).Nodup →
      (writers.map (·.binding.key)).Nodup
  | _, _, [], _, h, _, _ => by cases h; exact List.nodup_nil
  | used, index, column :: rest, writers, h, hu, hn => by
    obtain ⟨writer, hw, h⟩ := bind_eq_ok.1 h
    obtain ⟨later, hl, h⟩ := bind_eq_ok.1 h
    cases h
    have hu' : ∀ other ∈ rest, other.name ∈ writer.binding.key :: used := fun other hother =>
      List.mem_cons_of_mem _ (hu other (List.mem_cons_of_mem _ hother))
    rw [List.map_cons, List.nodup_cons] at hn ⊢
    refine ⟨?_, nodup_keys_of_bindColumns hl hu' hn.2⟩
    intro hmem
    obtain ⟨other, hother, hkey⟩ := List.mem_map.1 hmem
    rcases key_of_forall₂_binds (forall₂_binds hl hu') hother with hname | hnew
    · rcases (binds_of_bindColumn hw (hu column List.mem_cons_self)).key_eq with hk | ⟨-, hk⟩
      · exact hn.1 (hk ▸ hkey ▸ hname)
      · obtain ⟨column', hc, hname⟩ := List.mem_map.1 hname
        exact hk (hkey ▸ hname ▸ hu column' (List.mem_cons_of_mem _ hc))
    · exact hnew (hkey ▸ List.mem_cons_self)

/-- The columns that give the partition key. -/
theorem countP_givesKey {giver : Option String} {used : List String} {columns : List Column}
    {writers : List Writer} (h : List.Forall₂ (Binds giver used) columns writers) :
    writers.countP Writer.givesKey = (columns.map (·.name)).countP (giver = some ·) := by
  induction h with
  | nil => rfl
  | @cons column writer _ _ hb _ ih =>
    rw [List.map_cons, List.countP_cons, List.countP_cons, ih]
    congr 1
    simp only [hb.givesKey_iff, decide_eq_true_eq]

/-- The first timestamp column is the one that is promoted. -/
theorem promoteTimestamp_eq_some : ∀ {writers promoted : List Writer},
    promoteTimestamp writers = some promoted → ∃ before writer after,
      writers = before ++ writer :: after ∧ writer.binding.source = .timestamp ∧
      (∀ w ∈ before, w.binding.source ≠ .timestamp) ∧ promoted = before ++
        { writer with binding := { writer.binding with role := .keyAndPlain } } :: after
  | [], _, h => by cases h
  | writer :: rest, promoted, h => by
    rw [promoteTimestamp] at h
    split_ifs at h with hs
    · cases h
      exact ⟨[], writer, rest, rfl, hs, by simp, rfl⟩
    · obtain ⟨later, hl, rfl⟩ := Option.map_eq_some_iff.1 h
      obtain ⟨before, w, after, rfl, hw, hb, rfl⟩ := promoteTimestamp_eq_some hl
      exact ⟨writer :: before, w, after, rfl, hw, List.forall_mem_cons.2 ⟨hs, hb⟩, rfl⟩

/-! ## Sound writers -/

/-- What `resolve` guarantees of the writers of a schema with distinct names. -/
structure WriterSet.Sound (schema : Schema) (set : WriterSet) : Prop where
  columns_eq : set.writers.map (·.binding.column) = schema.names
  /-- No two columns share a key. -/
  nodup_keys : (set.writers.map (·.binding.key)).Nodup
  /-- The key `time` is for columns that are the partition key and nothing else. -/
  role_eq_key_iff : ∀ writer ∈ set.writers,
    writer.binding.role = .key ↔ writer.binding.key = timeKey
  /-- The partition key comes from one column or from the generator. -/
  one_source : set.writers.countP Writer.givesKey + set.generator.toList.length = 1

theorem columns_of_forall₂_binds {giver : Option String} {used : List String}
    {columns : List Column} {writers : List Writer}
    (h : List.Forall₂ (Binds giver used) columns writers) :
    writers.map (·.binding.column) = columns.map (·.name) := by
  induction h with
  | nil => rfl
  | cons hb _ ih => rw [List.map_cons, List.map_cons, hb.column_eq, ih]

theorem role_of_forall₂_binds {giver : Option String} {used : List String}
    {columns : List Column} {writers : List Writer}
    (h : List.Forall₂ (Binds giver used) columns writers) :
    ∀ writer ∈ writers, writer.binding.role = .key ↔ writer.binding.key = timeKey := by
  induction h with
  | nil => simp
  | cons hb _ ih => exact List.forall_mem_cons.2 ⟨hb.role_eq_key_iff, ih⟩

/-- In a list without repetitions a member stands once. -/
theorem countP_some_eq {names : List String} (hn : names.Nodup) (name : String) :
    names.countP (some name = some ·) = if name ∈ names then 1 else 0 := by
  have hc : names.countP (some name = some ·) = names.count name := by
    rw [List.count]
    refine List.countP_congr fun other _ => ?_
    simp only [Option.some.injEq, decide_eq_true_eq, beq_iff_eq]
    exact eq_comm
  rw [hc]
  exact hn.count

theorem isSome_of_mapM_eq_ok {value : Option TimeValue} {generator : Option TimeGenerator}
    (h : value.mapM TimeGenerator.ofValue = .ok generator) :
    generator.isSome = value.isSome := by
  cases value with
  | none => cases h; rfl
  | some v =>
    cases hv : TimeGenerator.ofValue v with
    | error e => rw [Option.mapM_some, hv] at h; cases h
    | ok g => rw [Option.mapM_some, hv] at h; cases h; rfl

/-- Settings that are accepted name one source of partition keys at most, and a time column that
the schema has. -/
theorem checkSettings_eq_ok {schema : Schema} {settings : Settings}
    {generator : Option TimeGenerator} (h : checkSettings schema settings = .ok generator) :
    generator.isSome = settings.timeValue.isSome ∧
      (settings.timeColumn.isSome → settings.timeValue = none) ∧
      ∀ name, settings.timeColumn = some name → name ∈ schema.names := by
  unfold checkSettings at h
  split_ifs at h with hboth
  obtain ⟨-, -, h⟩ := bind_eq_ok.1 h
  obtain ⟨g, hg, h⟩ := bind_eq_ok.1 h
  obtain ⟨⟨⟩, hc, h⟩ := bind_eq_ok.1 h
  cases h
  refine ⟨isSome_of_mapM_eq_ok hg, ?_, ?_⟩
  · simpa using hboth
  · intro name hn
    simp only [checkTimeColumn, hn] at hc
    split_ifs at hc with hm
    simpa [Schema.contains] using hm

theorem timeColumn_of_effective {schema : Schema} {settings : Settings} {name : String}
    (h : effectiveTimeColumn schema settings = some name) : settings.timeColumn = some name :=
  (Option.filter_eq_some_iff.1 h).1

/-- Before a timestamp column is promoted there is one source of partition keys at most. -/
theorem sources_le_one {schema : Schema} (hs : schema.Distinct) {settings : Settings}
    {generator : Option TimeGenerator} (hg : checkSettings schema settings = .ok generator)
    {standard : Formatter} {writers : List Writer}
    (hw : bindColumns settings standard (effectiveTimeColumn schema settings) schema.names 0
      schema.columns = .ok writers) :
    writers.countP Writer.givesKey + generator.toList.length ≤ 1 := by
  obtain ⟨hsome, hnone, -⟩ := checkSettings_eq_ok hg
  have hb := forall₂_binds hw fun column hc => List.mem_map_of_mem hc
  rw [countP_givesKey hb]
  cases generator with
  | none =>
    rw [Option.toList_none, List.length_nil, Nat.add_zero]
    generalize keyColumn _ _ = giver
    cases giver with
    | none => simp
    | some name =>
      have hc := countP_some_eq hs name
      rw [Schema.names] at hc
      rw [hc]
      split_ifs <;> simp
  | some g =>
    have hv : settings.timeValue.isSome := by rw [← hsome]; rfl
    have ht : effectiveTimeColumn schema settings = none := by
      rw [Option.eq_none_iff_forall_ne_some]
      intro name hn
      have hc := hnone (by rw [timeColumn_of_effective hn]; rfl)
      simp [hc] at hv
    simp [keyColumn, ht, hv]

/-- Either there is a source of partition keys already, or the first timestamp column becomes
one. -/
theorem ensureKey_eq_ok {generator : Option TimeGenerator} {writers ensured : List Writer}
    (h : ensureKey generator writers = .ok ensured) :
    (ensured = writers ∧ (generator.isSome ∨ ∃ writer ∈ writers, writer.givesKey)) ∨
      generator = none ∧ (∀ writer ∈ writers, writer.binding.role = .plain) ∧
        ∃ before writer after, writers = before ++ writer :: after ∧
          writer.binding.source = .timestamp ∧
          (∀ w ∈ before, w.binding.source ≠ .timestamp) ∧ ensured = before ++
            { writer with binding := { writer.binding with role := .keyAndPlain } } :: after := by
  unfold ensureKey at h
  split_ifs at h with hsource
  · cases h
    exact Or.inl ⟨rfl, by simpa using hsource⟩
  · split at h
    · next promoted hp =>
      cases h
      simp only [Bool.or_eq_true, not_or, Option.not_isSome_iff_eq_none, List.any_eq_true,
        not_exists, not_and] at hsource
      refine Or.inr ⟨hsource.1, fun writer hw => ?_, promoteTimestamp_eq_some hp⟩
      simpa [Writer.givesKey] using hsource.2 writer hw
    · cases h

/-- Writers that `resolve` makes are sound. -/
theorem sound_of_resolve {schema : Schema} (hs : schema.Distinct) {settings : Settings}
    {set : WriterSet} (h : WriterSet.resolve schema settings = .ok set) : set.Sound schema := by
  obtain ⟨generator, hg, h⟩ := bind_eq_ok.1 h
  obtain ⟨standard, -, h⟩ := bind_eq_ok.1 h
  obtain ⟨writers, hw, h⟩ := bind_eq_ok.1 h
  obtain ⟨ensured, he, h⟩ := bind_eq_ok.1 h
  cases h
  have hu : ∀ column ∈ schema.columns, column.name ∈ schema.names :=
    fun column hc => List.mem_map_of_mem hc
  have hb := forall₂_binds hw hu
  have hcolumns := columns_of_forall₂_binds hb
  have hkeys := nodup_keys_of_bindColumns hw hu hs
  have hroles := role_of_forall₂_binds hb
  have hle := sources_le_one hs hg hw
  rcases ensureKey_eq_ok he with ⟨rfl, hsource⟩ |
    ⟨rfl, hplain, before, writer, after, rfl, -, -, rfl⟩
  · refine ⟨hcolumns, hkeys, hroles, Nat.le_antisymm hle ?_⟩
    rcases hsource with hsome | ⟨writer, hmem, hgives⟩
    · obtain ⟨g, rfl⟩ := Option.isSome_iff_exists.1 hsome
      simp
    · exact Nat.le_add_right_of_le (List.countP_pos_iff.2 ⟨writer, hmem, hgives⟩)
  · have hkey : writer.binding.key ≠ timeKey := by
      intro hk
      have hrole := (hroles writer (by simp)).2 hk
      rw [hplain writer (by simp)] at hrole
      cases hrole
    have hzero : ∀ others : List Writer, (∀ w ∈ others, w.binding.role = .plain) →
        others.countP Writer.givesKey = 0 := by
      intro others ho
      rw [List.countP_eq_zero]
      intro w hw
      simp [Writer.givesKey, ho w hw]
    refine ⟨by simpa [Schema.names] using hcolumns, by simpa using hkeys, ?_, ?_⟩
    · simp only [List.mem_append, List.mem_cons]
      rintro w (hw | rfl | hw)
      · exact hroles w (by simp [hw])
      · simpa using hkey
      · exact hroles w (by simp [hw])
    · rw [List.countP_append, List.countP_cons, hzero before fun w hw => hplain w (by simp [hw]),
        hzero after fun w hw => hplain w (by simp [hw])]
      simp [Writer.givesKey]

end Record

end BulkLoad
