import BulkLoad.Proofs.Record.Resolve

/-!
# Settings that fit a schema

A schema with distinct names is resolved for exactly the settings that are `Fitting`, and then the
partition key has one source, which is the one that is `Asked` for : a time value, the column that
the settings name, a column `time`, or the first timestamp column (`resolved_iff_fitting`).

Both are said of the schema and the settings alone. The columns are resolved one after the other,
and the names in use grow on the way, but whether a column can be resolved does not depend on
them (`bindColumns_isOk_iff`), and neither does which column gives the key (`sources_of_forall₂`).
-/

namespace BulkLoad.Record

variable {schema : Schema} {settings : Settings}

/-! ## What fits -/

/-- There is a column `time` that can hold the partition key. -/
def HasTime (schema : Schema) : Prop :=
  ∃ column ∈ schema.columns, column.name = timeKey ∧ column.type.holdsTime

/-- The settings name a column for the partition key, and a column `time` is not preferred to it. -/
structure Overrides (schema : Schema) (settings : Settings) (name : String) : Prop where
  named : settings.timeColumn = some name
  kept : ¬ (settings.preferTime ∧ name ≠ timeKey ∧ HasTime schema)

/-- A pattern and a zone that can be read. -/
def Readable (pattern zone : String) : Prop :=
  ∃ formatter, Formatter.ofTexts pattern zone = .ok formatter

/-- What a schema asks of settings. -/
structure Fitting (schema : Schema) (settings : Settings) : Prop where
  one_source : settings.timeColumn = none ∨ settings.timeValue = none
  options : ∀ option ∈ settings.options, option.1 ∈ schema.names
  /-- A range does not run backwards. -/
  range : ∀ low high, settings.timeValue = some (.incremental low high) → low ≤ high
  timeColumn : ∀ name, settings.timeColumn = some name → name ∈ schema.names
  defaults : Readable settings.defaultPattern settings.defaultZone
  /-- What an option leaves out is as in the defaults. -/
  formats : ∀ name option, settings.options.lookup name = some option →
    Readable (option.pattern.getD settings.defaultPattern)
      (option.zone.getD settings.defaultZone)
  overriding : ∀ column ∈ schema.columns, Overrides schema settings column.name →
    column.type.holdsTime
  /-- Without a time value or a column that overrides it, a column `time` has to hold the key; if
  there is none, a timestamp column has to. -/
  key : settings.timeValue = none → (∀ name, ¬ Overrides schema settings name) →
    HasTime schema ∨
      timeKey ∉ schema.names ∧ ∃ column ∈ schema.columns, column.type = .timestamp

/-! ## Sources of partition keys -/

/-- A generator at its beginning. -/
def TimeValue.begun : TimeValue → TimeGenerator
  | .fixed value => .fixed value
  | .incremental low high => .cycle low high low

/-- Where the partition key of a record comes from. -/
inductive KeySource
  | generated (generator : TimeGenerator)
  | column (name : String) (role : Role)
deriving DecidableEq

/-- The column that gives the partition key is written under its name as well, unless that is
`time`. -/
def KeySource.ofName (name : String) : KeySource :=
  .column name (if name = timeKey then .key else .keyAndPlain)

/-- The source that settings ask for. -/
inductive Asked (schema : Schema) (settings : Settings) : KeySource → Prop
  | value {value : TimeValue} (h : settings.timeValue = some value) :
    Asked schema settings (.generated value.begun)
  | override {name : String} (hv : settings.timeValue = none)
    (h : Overrides schema settings name) : Asked schema settings (.ofName name)
  | time (hv : settings.timeValue = none) (ho : ∀ name, ¬ Overrides schema settings name)
    (h : timeKey ∈ schema.names) : Asked schema settings (.column timeKey .key)
  /-- The first timestamp column. -/
  | timestamp {before after : List Column} {column : Column} (hv : settings.timeValue = none)
    (ho : ∀ name, ¬ Overrides schema settings name) (hn : timeKey ∉ schema.names)
    (h : schema.columns = before ++ column :: after) (ht : column.type = .timestamp)
    (hb : ∀ other ∈ before, other.type ≠ .timestamp) :
    Asked schema settings (.column column.name .keyAndPlain)

/-- The column of a writer, as a source. -/
def Writer.asSource (writer : Writer) : KeySource :=
  .column writer.binding.column writer.binding.role

/-- The column of a writer, as the schema has it. -/
def Writer.asColumn (writer : Writer) : Column :=
  ⟨writer.binding.column, writer.binding.source⟩

/-- All sources of partition keys that writers have. -/
def WriterSet.sources (set : WriterSet) : List KeySource :=
  set.generator.toList.map .generated ++ (set.writers.filter Writer.givesKey).map Writer.asSource

/-! ## Checks of the settings -/

theorem checkOptions_eq_ok_iff :
    checkOptions schema settings = .ok () ↔
      ∀ option ∈ settings.options, option.1 ∈ schema.names := by
  unfold checkOptions
  split
  next name option h =>
    have hm := List.mem_of_find?_eq_some h
    have hn : name ∉ schema.names := by simpa [Schema.contains] using List.find?_some h
    exact ⟨fun hok => by simp at hok, fun hall => absurd (hall _ hm) hn⟩
  next h =>
    rw [List.find?_eq_none] at h
    exact ⟨fun _ option ho => by simpa [Schema.contains] using h option ho, fun _ => rfl⟩

theorem checkTimeColumn_eq_ok_iff :
    checkTimeColumn schema settings = .ok () ↔
      ∀ name, settings.timeColumn = some name → name ∈ schema.names := by
  unfold checkTimeColumn
  cases settings.timeColumn with
  | none => simp
  | some name => simp [Schema.contains]

theorem ofValue_eq_ok_iff {value : TimeValue} {generator : TimeGenerator} :
    TimeGenerator.ofValue value = .ok generator ↔
      (∀ low high, value = .incremental low high → low ≤ high) ∧ generator = value.begun := by
  cases value with
  | fixed value => simp [TimeGenerator.ofValue, TimeValue.begun, eq_comm]
  | incremental low high =>
    rw [TimeGenerator.ofValue]
    split_ifs with h
    · simp [Int64.not_le.2 h]
    · simp [TimeValue.begun, eq_comm, Int64.not_lt.1 h]

theorem mapM_ofValue_eq_ok_iff {value : Option TimeValue} {generator : Option TimeGenerator} :
    value.mapM TimeGenerator.ofValue = .ok generator ↔
      (∀ low high, value = some (.incremental low high) → low ≤ high) ∧
        generator = value.map TimeValue.begun := by
  cases value with
  | none => simp [pure, Except.pure, eq_comm]
  | some v =>
    have hv := @ofValue_eq_ok_iff v
    rw [Option.mapM_some]
    cases h : TimeGenerator.ofValue v with
    | error e =>
      simp only [h, reduceCtorEq, false_iff] at hv
      simp only [Functor.map, Except.map, reduceCtorEq, Option.some.injEq, false_iff]
      exact fun hall => hv ⟨hall.1, rfl⟩
    | ok g =>
      obtain ⟨hr, rfl⟩ := hv.1 h
      have hr' : ∀ low high, some v = some (.incremental low high) → low ≤ high := by simpa using hr
      simp only [Functor.map, Except.map, Except.ok.injEq, Option.map_some, eq_comm]
      exact ⟨fun hg => ⟨hr', hg⟩, And.right⟩

/-- The settings are checked without a look at the columns but for their names. -/
theorem checkSettings_eq_ok_iff {generator : Option TimeGenerator} :
    checkSettings schema settings = .ok generator ↔
      (settings.timeColumn = none ∨ settings.timeValue = none) ∧
      (∀ option ∈ settings.options, option.1 ∈ schema.names) ∧
      (∀ low high, settings.timeValue = some (.incremental low high) → low ≤ high) ∧
      (∀ name, settings.timeColumn = some name → name ∈ schema.names) ∧
      generator = settings.timeValue.map TimeValue.begun := by
  unfold checkSettings
  split_ifs with hboth
  · have hboth : settings.timeColumn ≠ none ∧ settings.timeValue ≠ none := by
      simpa [Option.isSome_iff_ne_none] using hboth
    simp [hboth]
  · have hone : settings.timeColumn = none ∨ settings.timeValue = none := by
      simpa [Option.isSome_iff_ne_none, ← or_iff_not_imp_left] using hboth
    simp only [bind_eq_ok, mapM_ofValue_eq_ok_iff, hone, true_and]
    constructor
    · rintro ⟨⟨⟩, ho, g, ⟨hr, rfl⟩, ⟨⟩, ht, ⟨⟩⟩
      exact ⟨checkOptions_eq_ok_iff.1 ho, hr, checkTimeColumn_eq_ok_iff.1 ht, rfl⟩
    · rintro ⟨ho, hr, ht, rfl⟩
      exact ⟨(), checkOptions_eq_ok_iff.2 ho, _, ⟨hr, rfl⟩, (), checkTimeColumn_eq_ok_iff.2 ht, rfl⟩

/-! ## The column that the settings name -/

/-- In a schema with distinct names there is one column `time` at most. -/
theorem any_column?_iff (hs : schema.Distinct) :
    (schema.column? timeKey).any (fun column => column.type.holdsTime) = true ↔
      HasTime schema := by
  have hnamed {column : Column} (hc : schema.column? timeKey = some column) :
      column ∈ schema.columns ∧ column.name = timeKey :=
    ⟨List.mem_of_find?_eq_some hc, by simpa using List.find?_some hc⟩
  constructor
  · intro h
    cases hc : schema.column? timeKey with
    | none => simp [hc] at h
    | some column =>
      obtain ⟨hm, hn⟩ := hnamed hc
      exact ⟨column, hm, hn, by simpa [hc] using h⟩
  · rintro ⟨column, hm, hn, ht⟩
    have hsome : (schema.column? timeKey).isSome :=
      List.find?_isSome.2 ⟨column, hm, by simpa using hn⟩
    obtain ⟨found, hf⟩ := Option.isSome_iff_exists.1 hsome
    obtain ⟨hm', hn'⟩ := hnamed hf
    obtain rfl := List.inj_on_of_nodup_map hs hm' hm (hn'.trans hn.symm)
    simpa [hf] using ht

theorem effectiveTimeColumn_eq_some_iff (hs : schema.Distinct) {name : String} :
    effectiveTimeColumn schema settings = some name ↔ Overrides schema settings name := by
  have husable := any_column?_iff hs
  rw [effectiveTimeColumn, Option.filter_eq_some_iff]
  constructor
  · rintro ⟨hn, hk⟩
    refine ⟨hn, fun ⟨hp, hne, ht⟩ => ?_⟩
    simp [hp, hne, husable.2 ht] at hk
  · rintro ⟨hn, hk⟩
    refine ⟨hn, ?_⟩
    rw [← husable] at hk
    simpa [or_iff_not_imp_left] using hk

/-! ## Whether columns can be resolved -/

section Columns

variable {standard : Formatter} {timeColumn : Option String} {used : List String} {index : Nat}
  {column : Column} {columns : List Column} {writers : List Writer} {hasKey : Bool}

theorem columnFormatter_isOk_iff
    (hd : Formatter.ofTexts settings.defaultPattern settings.defaultZone = .ok standard)
    {option : Option ColumnOption} :
    (∃ formatter, columnFormatter settings standard option = .ok formatter) ↔
      ∀ o, option = some o → Readable (o.pattern.getD settings.defaultPattern)
        (o.zone.getD settings.defaultZone) := by
  cases option with
  | none => simp [columnFormatter]
  | some o =>
    simp only [columnFormatter, Option.some.injEq, forall_eq']
    split_ifs with h
    · rfl
    · obtain ⟨hp, hz⟩ : o.pattern = none ∧ o.zone = none := by simpa using h
      rw [hp, hz]
      exact ⟨fun _ => ⟨standard, hd⟩, fun _ => ⟨standard, rfl⟩⟩

/-- Only the column that gives the key has to hold a time. -/
theorem columnRole_isOk_iff (used : List String) (hk : timeColumn.isSome → hasKey = true) :
    (∃ role, columnRole timeColumn hasKey used column = .ok role) ↔
      (keyColumn timeColumn hasKey = some column.name → column.type.holdsTime) := by
  unfold columnRole
  cases hasKey with
  | true =>
    simp only [keyColumn, if_true]
    by_cases hn : timeColumn = some column.name
    · by_cases ht : column.type.holdsTime <;> simp [hn, ht]
    · simp only [hn, if_false, false_imp_iff, iff_true]
      split_ifs <;> exact ⟨_, rfl⟩
  | false =>
    obtain rfl : timeColumn = none := by simpa using hk
    simp only [keyColumn, reduceCtorEq, Bool.false_eq_true, if_false, Option.some.injEq]
    split_ifs with hn ht
    · simp [ht]
    · simp [ht, hn]
    · simp [Ne.symm hn]

/-- What is asked of the settings for one column. -/
def Resolvable (settings : Settings) (giver : Option String) (column : Column) : Prop :=
  (∀ option, settings.options.lookup column.name = some option →
    Readable (option.pattern.getD settings.defaultPattern)
      (option.zone.getD settings.defaultZone)) ∧
  (giver = some column.name → column.type.holdsTime)

theorem bindColumn_isOk_iff
    (hd : Formatter.ofTexts settings.defaultPattern settings.defaultZone = .ok standard) :
    (∃ writer, bindColumn settings standard timeColumn used index column = .ok writer) ↔
      Resolvable settings
        (keyColumn timeColumn (timeColumn.isSome || settings.timeValue.isSome)) column := by
  rw [Resolvable, ← columnFormatter_isOk_iff hd,
    ← columnRole_isOk_iff used fun h => by simp [h]]
  constructor
  · rintro ⟨writer, h⟩
    obtain ⟨formatter, hf, h⟩ := bind_eq_ok.1 h
    obtain ⟨role, hr, -⟩ := bind_eq_ok.1 h
    exact ⟨⟨formatter, hf⟩, ⟨role, hr⟩⟩
  · rintro ⟨⟨formatter, hf⟩, ⟨role, hr⟩⟩
    exact ⟨_, bind_eq_ok.2 ⟨formatter, hf, bind_eq_ok.2 ⟨role, hr, rfl⟩⟩⟩

/-- By induction on the columns, for any names in use : what is asked does not depend on them. -/
theorem bindColumns_isOk_iff
    (hd : Formatter.ofTexts settings.defaultPattern settings.defaultZone = .ok standard) :
    (∃ writers, bindColumns settings standard timeColumn used index columns = .ok writers) ↔
      ∀ column ∈ columns, Resolvable settings
        (keyColumn timeColumn (timeColumn.isSome || settings.timeValue.isSome)) column := by
  induction columns generalizing used index with
  | nil => simp [bindColumns]
  | cons column rest ih =>
    rw [List.forall_mem_cons]
    constructor
    · rintro ⟨writers, h⟩
      obtain ⟨writer, hw, h⟩ := bind_eq_ok.1 h
      obtain ⟨later, hl, -⟩ := bind_eq_ok.1 h
      exact ⟨(bindColumn_isOk_iff hd).1 ⟨writer, hw⟩, ih.1 ⟨later, hl⟩⟩
    · rintro ⟨hcolumn, hrest⟩
      obtain ⟨writer, hw⟩ := (bindColumn_isOk_iff hd).2 hcolumn
      obtain ⟨later, hl⟩ := ih.2 hrest
      exact ⟨writer :: later, bind_eq_ok.2 ⟨writer, hw, bind_eq_ok.2 ⟨later, hl, rfl⟩⟩⟩

/-! ## Which columns give the key -/

/-- How the writer of a column was made, and that it keeps its name among those in use. -/
def MadeOf (settings : Settings) (standard : Formatter) (timeColumn : Option String)
    (column : Column) (writer : Writer) : Prop :=
  ∃ used index, column.name ∈ used ∧
    bindColumn settings standard timeColumn used index column = .ok writer

theorem forall₂_madeOf : ∀ {used : List String} {index : Nat} {columns : List Column}
    {writers : List Writer},
    bindColumns settings standard timeColumn used index columns = .ok writers →
    (∀ column ∈ columns, column.name ∈ used) →
    List.Forall₂ (MadeOf settings standard timeColumn) columns writers
  | _, _, [], _, h, _ => by cases h; exact .nil
  | used, index, column :: rest, writers, h, hu => by
    obtain ⟨writer, hw, h⟩ := bind_eq_ok.1 h
    obtain ⟨later, hl, h⟩ := bind_eq_ok.1 h
    cases h
    exact .cons ⟨used, index, hu column List.mem_cons_self, hw⟩ (forall₂_madeOf hl fun other ho =>
      List.mem_cons_of_mem _ (hu other (List.mem_cons_of_mem _ ho)))

/-- There is a writer for each column, in the order of the columns. -/
theorem asColumn_of_forall₂
    (h : List.Forall₂ (MadeOf settings standard timeColumn) columns writers) :
    writers.map Writer.asColumn = columns := by
  induction h with
  | nil => rfl
  | @cons column writer _ _ hm _ ih =>
    obtain ⟨used, index, -, hw⟩ := hm
    obtain ⟨-, hc, ht, -⟩ := bindColumn_eq_ok hw
    rw [List.map_cons, ih, Writer.asColumn, hc, ht]

/-- A column that gives the key does so by its name. -/
theorem MadeOf.asSource {writer : Writer} (h : MadeOf settings standard timeColumn column writer)
    (hg : writer.givesKey) : writer.asSource = .ofName column.name := by
  obtain ⟨used, index, -, hw⟩ := h
  obtain ⟨-, hc, -, hr⟩ := bindColumn_eq_ok hw
  rw [Writer.asSource, KeySource.ofName, hc]
  rcases columnRole_cases hr with ⟨-, -, -, hrole⟩ | ⟨-, -, -, -, hrole⟩ |
    ⟨-, hn, -, -, -, hrole⟩ | ⟨-, -, -, hrole⟩
  · rw [hrole]
  · simp [Writer.givesKey, hrole] at hg
  · simp [hrole, hn]
  · simp [Writer.givesKey, hrole] at hg

/-- The columns that give the key, by their names. -/
theorem sources_of_forall₂
    (h : List.Forall₂ (MadeOf settings standard timeColumn) columns writers) :
    (writers.filter Writer.givesKey).map Writer.asSource =
      ((columns.map (·.name)).filter (keyColumn timeColumn
        (timeColumn.isSome || settings.timeValue.isSome) = some ·)).map .ofName := by
  induction h with
  | nil => rfl
  | @cons column writer _ _ hm _ ih =>
    obtain ⟨used, index, hu, hw⟩ := hm
    have hb := (binds_of_bindColumn hw hu).givesKey_iff
    rw [List.map_cons, List.filter_cons, List.filter_cons]
    by_cases hg : writer.givesKey
    · have hname := MadeOf.asSource ⟨used, index, hu, hw⟩ hg
      simp [hg, hb.1 hg, hname, ih]
    · have hne := mt hb.2 hg
      simp [hg, hne, ih]

/-- In a schema with distinct names one column at most has a given name. -/
theorem filter_some_eq {names : List String} (hn : names.Nodup) (giver : Option String) :
    names.filter (giver = some ·) = giver.toList.filter (· ∈ names) := by
  cases giver with
  | none => simp
  | some name =>
    have heq : names.filter (some name = some ·) = names.filter (· = name) :=
      List.filter_congr fun other _ => by simp [eq_comm]
    rw [heq, List.filter_eq, hn.count]
    split_ifs with hm <;> simp [hm]

theorem isSome_promoteTimestamp_iff : ∀ {writers : List Writer},
    (promoteTimestamp writers).isSome ↔ ∃ writer ∈ writers, writer.binding.source = .timestamp
  | [] => by simp [promoteTimestamp]
  | writer :: rest => by
    rw [promoteTimestamp]
    split_ifs with h
    · simp [h]
    · simp [h, isSome_promoteTimestamp_iff]

theorem ensureKey_isOk_iff {generator : Option TimeGenerator} :
    (∃ ensured, ensureKey generator writers = .ok ensured) ↔
      generator.isSome ∨ (∃ writer ∈ writers, writer.givesKey) ∨
        ∃ writer ∈ writers, writer.binding.source = .timestamp := by
  rw [← isSome_promoteTimestamp_iff, ensureKey, ← or_assoc]
  split_ifs with h
  · have h' : generator.isSome ∨ ∃ writer ∈ writers, writer.givesKey := by simpa using h
    exact ⟨fun _ => Or.inl h', fun _ => ⟨writers, rfl⟩⟩
  · have h' : ¬ (generator.isSome ∨ ∃ writer ∈ writers, writer.givesKey) := by simpa using h
    rw [or_iff_right h']
    cases promoteTimestamp writers <;> simp

end Columns

/-! ## The giver of the key -/

/-- The column that is to give the key, if no generator does. -/
def giver (schema : Schema) (settings : Settings) : Option String :=
  keyColumn (effectiveTimeColumn schema settings)
    ((effectiveTimeColumn schema settings).isSome || settings.timeValue.isSome)

theorem giver_cases (hs : schema.Distinct)
    (hone : settings.timeColumn = none ∨ settings.timeValue = none) :
    (∃ value, settings.timeValue = some value ∧ giver schema settings = none) ∨
    settings.timeValue = none ∧
      ((∃ name, Overrides schema settings name ∧ giver schema settings = some name) ∨
        (∀ name, ¬ Overrides schema settings name) ∧ giver schema settings = some timeKey) := by
  unfold giver
  cases hv : settings.timeValue with
  | some value =>
    have ht : effectiveTimeColumn schema settings = none := by
      have hnone : settings.timeColumn = none := by simpa [hv] using hone
      rw [effectiveTimeColumn, hnone, Option.filter_none]
    exact Or.inl ⟨value, rfl, by simp [keyColumn, ht]⟩
  | none =>
    refine Or.inr ⟨rfl, ?_⟩
    cases ht : effectiveTimeColumn schema settings with
    | some name =>
      exact Or.inl ⟨name, (effectiveTimeColumn_eq_some_iff hs).1 ht, by simp [keyColumn]⟩
    | none =>
      refine Or.inr ⟨fun name ho => ?_, by simp [keyColumn]⟩
      rw [(effectiveTimeColumn_eq_some_iff hs).2 ho] at ht
      cases ht

/-- The time value and the columns leave no choice of a giver. -/
theorem giver_of_overrides (hs : schema.Distinct)
    (hone : settings.timeColumn = none ∨ settings.timeValue = none) {name : String}
    (h : Overrides schema settings name) : giver schema settings = some name := by
  rcases giver_cases hs hone with ⟨value, hv, -⟩ | ⟨-, ⟨name', ho, hg⟩ | ⟨hn, -⟩⟩
  · simp [h.named, hv] at hone
  · rw [hg, Option.some.injEq]
    exact Option.some.inj (ho.named.symm.trans h.named)
  · exact absurd h (hn name)

theorem giver_of_not_overrides (hs : schema.Distinct) (hv : settings.timeValue = none)
    (ho : ∀ name, ¬ Overrides schema settings name) : giver schema settings = some timeKey := by
  rcases giver_cases hs (Or.inr hv) with ⟨value, hv', -⟩ | ⟨-, ⟨name, h, -⟩ | ⟨-, hg⟩⟩
  · simp [hv] at hv'
  · exact absurd h (ho name)
  · exact hg

/-! ## Resolving -/

/-- The parts of a set of writers. -/
theorem resolve_eq_ok_iff {set : WriterSet} :
    WriterSet.resolve schema settings = .ok set ↔ ∃ generator standard writers ensured,
      checkSettings schema settings = .ok generator ∧
      Formatter.ofTexts settings.defaultPattern settings.defaultZone = .ok standard ∧
      bindColumns settings standard (effectiveTimeColumn schema settings) schema.names 0
        schema.columns = .ok writers ∧
      ensureKey generator writers = .ok ensured ∧
      set = ⟨ensured, settings.unit, generator⟩ := by
  constructor
  · intro h
    obtain ⟨generator, hg, h⟩ := bind_eq_ok.1 h
    obtain ⟨standard, hd, h⟩ := bind_eq_ok.1 h
    obtain ⟨writers, hw, h⟩ := bind_eq_ok.1 h
    obtain ⟨ensured, he, h⟩ := bind_eq_ok.1 h
    cases h
    exact ⟨generator, standard, writers, ensured, hg, hd, hw, he, rfl⟩
  · rintro ⟨generator, standard, writers, ensured, hg, hd, hw, he, rfl⟩
    exact bind_eq_ok.2 ⟨_, hg, bind_eq_ok.2 ⟨_, hd, bind_eq_ok.2 ⟨_, hw,
      bind_eq_ok.2 ⟨_, he, rfl⟩⟩⟩⟩

section Bound

variable {standard : Formatter} {writers : List Writer}

/-- The columns that are bound give the key by the name of the giver, if the schema has it. -/
theorem sources_of_bindColumns (hs : schema.Distinct)
    (hw : bindColumns settings standard (effectiveTimeColumn schema settings) schema.names 0
      schema.columns = .ok writers) :
    (writers.filter Writer.givesKey).map Writer.asSource =
      ((giver schema settings).toList.filter (· ∈ schema.names)).map .ofName := by
  have hm := forall₂_madeOf hw fun column hc => List.mem_map_of_mem hc
  have hf := filter_some_eq hs (giver schema settings)
  rw [sources_of_forall₂ hm, ← hf, giver, Schema.names]

theorem asColumn_of_bindColumns
    (hw : bindColumns settings standard (effectiveTimeColumn schema settings) schema.names 0
      schema.columns = .ok writers) :
    writers.map Writer.asColumn = schema.columns :=
  asColumn_of_forall₂ (forall₂_madeOf hw fun _ hc => List.mem_map_of_mem hc)

/-- Whether there is a timestamp column can be seen from the writers. -/
theorem exists_timestamp_iff (h : writers.map Writer.asColumn = schema.columns) :
    (∃ writer ∈ writers, writer.binding.source = .timestamp) ↔
      ∃ column ∈ schema.columns, column.type = .timestamp := by
  rw [← h]
  simp [Writer.asColumn]

theorem exists_givesKey_iff :
    (∃ writer ∈ writers, writer.givesKey) ↔
      (writers.filter Writer.givesKey).map Writer.asSource ≠ [] := by
  simp [List.filter_eq_nil_iff]

/-- If the settings leave it to a column `time`, some column gives the key just if there is one. -/
theorem sources_of_not_overrides (hs : schema.Distinct)
    (hw : bindColumns settings standard (effectiveTimeColumn schema settings) schema.names 0
      schema.columns = .ok writers) (hv : settings.timeValue = none)
    (ho : ∀ name, ¬ Overrides schema settings name) :
    (writers.filter Writer.givesKey).map Writer.asSource =
      if timeKey ∈ schema.names then [.ofName timeKey] else [] := by
  rw [sources_of_bindColumns hs hw, giver_of_not_overrides hs hv ho]
  split_ifs with hn <;> simp [hn]

end Bound

/-- What the settings of a schema that is resolved are like. -/
theorem fitting_of_resolve (hs : schema.Distinct) {set : WriterSet}
    (h : WriterSet.resolve schema settings = .ok set) : Fitting schema settings := by
  obtain ⟨generator, standard, writers, ensured, hg, hd, hw, he, -⟩ := resolve_eq_ok_iff.1 h
  obtain ⟨hone, hoptions, hrange, htime, rfl⟩ := checkSettings_eq_ok_iff.1 hg
  have hcolumns : ∀ column ∈ schema.columns,
      Resolvable settings (giver schema settings) column :=
    (bindColumns_isOk_iff hd).1 ⟨writers, hw⟩
  refine ⟨hone, hoptions, hrange, htime, ⟨standard, hd⟩, ?_, ?_, ?_⟩
  · intro name option hl
    obtain ⟨before, after, hmem, -⟩ := List.lookup_eq_some_iff.1 hl
    obtain ⟨column, hc, rfl⟩ := List.mem_map.1 (hoptions (name, option) (by simp [hmem]))
    exact (hcolumns column hc).1 option hl
  · intro column hc ho
    exact (hcolumns column hc).2 (giver_of_overrides hs hone ho)
  · intro hv ho
    by_cases hn : timeKey ∈ schema.names
    · obtain ⟨column, hc, hname⟩ := List.mem_map.1 hn
      refine Or.inl ⟨column, hc, hname, (hcolumns column hc).2 ?_⟩
      rw [giver_of_not_overrides hs hv ho, hname]
    · refine Or.inr ⟨hn, (exists_timestamp_iff (asColumn_of_bindColumns hw)).1 ?_⟩
      rcases ensureKey_isOk_iff.1 ⟨ensured, he⟩ with hsome | hgives | hstamp
      · simp [hv] at hsome
      · rw [exists_givesKey_iff, sources_of_not_overrides hs hw hv ho, if_neg hn] at hgives
        exact absurd rfl hgives
      · exact hstamp

/-- Settings that fit are enough. -/
theorem exists_resolve_of_fitting (hs : schema.Distinct) (h : Fitting schema settings) :
    ∃ set, WriterSet.resolve schema settings = .ok set := by
  have hg := checkSettings_eq_ok_iff.2 ⟨h.one_source, h.options, h.range, h.timeColumn, rfl⟩
  obtain ⟨standard, hd⟩ := h.defaults
  have hcolumns : ∀ column ∈ schema.columns,
      Resolvable settings (giver schema settings) column := by
    refine fun column hc => ⟨h.formats column.name, fun hgiver => ?_⟩
    rcases giver_cases hs h.one_source with ⟨-, -, hn⟩ | ⟨hv, ⟨name, ho, hn⟩ | ⟨ho, hn⟩⟩
    · rw [hn] at hgiver
      cases hgiver
    · obtain rfl : name = column.name := by simpa [hn] using hgiver
      exact h.overriding column hc ho
    · have hname : timeKey = column.name := by simpa [hn] using hgiver
      rcases h.key hv ho with ⟨other, hmem, hother, htime⟩ | ⟨hnot, -⟩
      · obtain rfl := List.inj_on_of_nodup_map hs hmem hc (hother.trans hname)
        exact htime
      · exact absurd (hname ▸ List.mem_map_of_mem hc) hnot
  obtain ⟨writers, hw⟩ : ∃ writers, bindColumns settings standard
      (effectiveTimeColumn schema settings) schema.names 0 schema.columns = .ok writers :=
    (bindColumns_isOk_iff hd).2 hcolumns
  have hkey : (settings.timeValue.map TimeValue.begun).isSome ∨
      (∃ writer ∈ writers, writer.givesKey) ∨
        ∃ writer ∈ writers, writer.binding.source = .timestamp := by
    rw [exists_timestamp_iff (asColumn_of_bindColumns hw), exists_givesKey_iff]
    rcases giver_cases hs h.one_source with ⟨value, hv, -⟩ | ⟨hv, ⟨name, ho, hn⟩ | ⟨ho, -⟩⟩
    · simp [hv]
    · rw [sources_of_bindColumns hs hw, hn]
      simp [h.timeColumn name ho.named]
    · rw [sources_of_not_overrides hs hw hv ho]
      rcases h.key hv ho with ⟨column, hc, hname, -⟩ | ⟨-, hstamp⟩
      · have hmem : timeKey ∈ schema.names := hname ▸ List.mem_map_of_mem hc
        simp [hmem]
      · exact Or.inr (Or.inr hstamp)
  obtain ⟨ensured, he⟩ := ensureKey_isOk_iff.2 hkey
  exact ⟨_, resolve_eq_ok_iff.2 ⟨_, _, _, _, hg, hd, hw, he, rfl⟩⟩

/-- The source of partition keys is the one that is asked for. -/
theorem sources_of_resolve (hs : schema.Distinct) {set : WriterSet}
    (h : WriterSet.resolve schema settings = .ok set) :
    ∃ source, Asked schema settings source ∧ set.sources = [source] := by
  obtain ⟨generator, standard, writers, ensured, hg, hd, hw, he, rfl⟩ := resolve_eq_ok_iff.1 h
  obtain ⟨hone, -, -, htime, rfl⟩ := checkSettings_eq_ok_iff.1 hg
  have hsources := sources_of_bindColumns hs hw
  -- Only where no column gives the key yet, a timestamp column comes to give it.
  have hkept (hgives : (writers.filter Writer.givesKey).map Writer.asSource ≠ []) :
      ensured = writers := by
    obtain ⟨writer, hmem, hgives⟩ := exists_givesKey_iff.2 hgives
    rcases ensureKey_eq_ok he with ⟨heq, -⟩ | ⟨-, hplain, -⟩
    · exact heq
    · simp [Writer.givesKey, hplain writer hmem] at hgives
  rcases giver_cases hs hone with ⟨value, hv, hn⟩ | ⟨hv, ⟨name, ho, hn⟩ | ⟨ho, hn⟩⟩
  · refine ⟨_, .value hv, ?_⟩
    have heq : ensured = writers := by
      rcases ensureKey_eq_ok he with ⟨heq, -⟩ | ⟨hnone, -⟩
      · exact heq
      · simp [hv] at hnone
    rw [hn] at hsources
    simp only [WriterSet.sources, heq, hsources, hv]
    rfl
  · refine ⟨_, .override hv ho, ?_⟩
    have hmem := htime name ho.named
    have hone : (writers.filter Writer.givesKey).map Writer.asSource = [.ofName name] := by
      rw [hsources, hn]
      simp [hmem]
    simp [WriterSet.sources, hkept (by simp [hone]), hone, hv]
  · have hsources := sources_of_not_overrides hs hw hv ho
    split_ifs at hsources with hn
    · refine ⟨_, .time hv ho hn, ?_⟩
      simp [WriterSet.sources, hkept (by simp [hsources]), hsources, hv, KeySource.ofName]
    · have hnone : ¬ ∃ writer ∈ writers, writer.givesKey := by
        rw [exists_givesKey_iff, hsources]
        simp
      rcases ensureKey_eq_ok he with ⟨-, hsome | hgives⟩ |
        ⟨-, hplain, before, writer, after, rfl, hstamp, hbefore, rfl⟩
      · simp [hv] at hsome
      · exact absurd hgives hnone
      · have hcolumns := asColumn_of_bindColumns hw
        rw [List.map_append, List.map_cons] at hcolumns
        refine ⟨_, .timestamp hv ho hn hcolumns.symm hstamp ?_, ?_⟩
        · simpa [Writer.asColumn] using hbefore
        · have hzero (others : List Writer) (hp : ∀ w ∈ others, w.binding.role = .plain) :
              others.filter Writer.givesKey = [] := by
            rw [List.filter_eq_nil_iff]
            intro w hw
            simp [Writer.givesKey, hp w hw]
          rw [WriterSet.sources, List.filter_append, List.filter_cons_of_pos rfl,
            hzero before fun w hw => hplain w (by simp [hw]),
            hzero after fun w hw => hplain w (by simp [hw]), hv]
          rfl

/-- Let a schema have distinct names. It is resolved for the settings that fit it and for no others,
and then there is one source of partition keys, which is the one that the settings ask for : a time
value, the column that they name, a column `time`, or the first timestamp column. -/
theorem resolved_iff_fitting (hs : schema.Distinct) (settings : Settings) :
    ((∃ set, WriterSet.resolve schema settings = .ok set) ↔ Fitting schema settings) ∧
      ∀ set, WriterSet.resolve schema settings = .ok set →
        ∃ source, Asked schema settings source ∧ set.sources = [source] :=
  ⟨⟨fun ⟨_, h⟩ => fitting_of_resolve hs h, exists_resolve_of_fitting hs⟩,
    fun _ h => sources_of_resolve hs h⟩

/-! ## A column `time` that is not preferred -/

/-- A column `time` that cannot hold the key. -/
def wordySchema : Schema :=
  ⟨[⟨"time", .string⟩, ⟨"at", .timestamp⟩, ⟨"seen", .long⟩]⟩

/-- A column `time` would be preferred to `seen`. -/
def wordySettings : Settings :=
  { timeColumn := some "seen", preferTime := true }

theorem resolved_wordy :
    wordySchema.Distinct ∧ Fitting wordySchema wordySettings ∧
      Asked wordySchema wordySettings (.column "seen" .keyAndPlain) := by
  have hs : wordySchema.Distinct := by decide
  obtain ⟨hiff, hsource⟩ := resolved_iff_fitting hs wordySettings
  have hset : ∃ set, WriterSet.resolve wordySchema wordySettings = .ok set ∧
      set.sources = [.column "seen" .keyAndPlain] :=
    ⟨⟨[⟨⟨0, "time", "time_", .plain, .string, .string⟩, .standard⟩,
      ⟨⟨1, "at", "at", .plain, .timestamp, .string⟩, .standard⟩,
      ⟨⟨2, "seen", "seen", .keyAndPlain, .long, .long⟩, .standard⟩], .second, none⟩,
      by decide +kernel, by decide +kernel⟩
  obtain ⟨set, h, hone⟩ := hset
  obtain ⟨source, hasked, heq⟩ := hsource set h
  obtain rfl : source = .column "seen" .keyAndPlain := by simpa [hone] using heq.symm
  exact ⟨hs, hiff.1 ⟨set, h⟩, hasked⟩

end BulkLoad.Record
