import BulkLoad.Proofs.Calendar.Patterns
import BulkLoad.Proofs.Record.Conversion

/-!
# Which instants have a text

A formatter that two texts were accepted for writes each instant as a text and each timestamp of a
column of strings as this text, unless its pattern asks for the lenient zone; then it writes none
(`written_unless_lenient`). The check of the two texts does not see the difference
(`accepted_unwritten`).

So a set of writers can write all timestamps just if no pattern that its columns use asks for the
lenient zone (`renderable_iff_of_resolve`).
-/

namespace BulkLoad.Record

open Calendar.Pattern (AsksLenient)

variable {schema : Schema} {settings : Settings} {set : WriterSet} {pattern zone : String}
  {formatter : Formatter}

theorem ofTexts_eq_ok_iff : Formatter.ofTexts pattern zone = .ok formatter ↔
    Calendar.Pattern.parse? pattern = some formatter.pattern ∧
      Calendar.Zone.parse? zone = some formatter.zone := by
  rw [Formatter.ofTexts, Formatter.readZone]
  cases formatter
  cases Calendar.Pattern.parse? pattern <;> cases Calendar.Zone.parse? zone <;> simp [Except.map]

/-- All instants have a text under a pattern that does not ask for the lenient zone, and none has
one under a pattern that does. -/
theorem written_unless_lenient (h : Formatter.ofTexts pattern zone = .ok formatter)
    (t : Calendar.Instant) (column : String) :
    (¬ AsksLenient pattern ∧ ∃ s, formatter.text? t = some s ∧
      coerce column (.timestamp t) .string formatter = .ok (.text s)) ∨
    (AsksLenient pattern ∧ formatter.text? t = none ∧
      coerce column (.timestamp t) .string formatter = .error .unwritable) := by
  have hlenient := Calendar.Pattern.renderable_iff (ofTexts_eq_ok_iff.1 h).1
  by_cases hp : formatter.pattern.Renderable
  · obtain ⟨s, hs⟩ := exists_text? hp t
    exact Or.inl ⟨hlenient.1 hp, s, hs, by rw [coerce, hs]⟩
  · have hs : formatter.text? t = none := by
      rw [Formatter.text?, Option.map_eq_none_iff, ← Option.not_isSome_iff_eq_none,
        Calendar.Pattern.isSome_render?_iff]
      exact hp
    exact Or.inr ⟨not_not.1 fun hn => hp (hlenient.2 hn), hs, by rw [coerce, hs]⟩

/-- What stands after two percent signs is no directive. -/
theorem written_after_percent :
    Formatter.ofTexts "%%#z" "+01:00" =
        .ok ⟨[.literal '%', .literal '#', .literal 'z'], ⟨3600⟩⟩ ∧
      coerce "time" (.timestamp ⟨0, 0, by decide, by decide, by decide⟩) .string
        ⟨[.literal '%', .literal '#', .literal 'z'], ⟨3600⟩⟩ = .ok (.text "%#z") := by
  have h : Formatter.ofTexts "%%#z" "+01:00" =
      .ok ⟨[.literal '%', .literal '#', .literal 'z'], ⟨3600⟩⟩ := by
    decide +kernel
  refine ⟨h, ?_⟩
  rcases written_unless_lenient h ⟨0, 0, by decide, by decide, by decide⟩ "time" with
    ⟨-, s, hs, hc⟩ | ⟨-, hs, -⟩
  · obtain rfl : "%#z" = s := Option.some.inj hs
    exact hc
  · cases hs

/-- The epoch has no text under a pattern that is accepted. -/
theorem accepted_unwritten :
    Formatter.ofTexts "%#z" "UTC" = .ok ⟨[.zone .lenient], .utc⟩ ∧
      Formatter.text? ⟨[.zone .lenient], .utc⟩ ⟨0, 0, by decide, by decide, by decide⟩ = none ∧
      coerce "time" (.timestamp ⟨0, 0, by decide, by decide, by decide⟩) .string
        ⟨[.zone .lenient], .utc⟩ = .error .unwritable := by
  refine ⟨by decide +kernel, rfl, rfl⟩

/-! ## The columns of a set -/

/-- The pattern that a column uses. -/
def Settings.patternOf (settings : Settings) (name : String) : String :=
  ((settings.options.lookup name).bind (·.pattern)).getD settings.defaultPattern

theorem parse?_of_bindColumn {standard : Formatter} {timeColumn : Option String}
    {used : List String} {index : Nat} {column : Column} {writer : Writer}
    (hd : Formatter.ofTexts settings.defaultPattern settings.defaultZone = .ok standard)
    (h : bindColumn settings standard timeColumn used index column = .ok writer) :
    Calendar.Pattern.parse? (settings.patternOf column.name) = some writer.formatter.pattern := by
  obtain ⟨formatter, hf, h⟩ := bind_eq_ok.1 h
  obtain ⟨⟨role, key⟩, -, h⟩ := bind_eq_ok.1 h
  cases h
  rw [Settings.patternOf]
  have hstandard := (ofTexts_eq_ok_iff.1 hd).1
  cases ho : settings.options.lookup column.name with
  | none =>
    rw [ho] at hf
    cases hf
    exact hstandard
  | some o =>
    rw [ho, columnFormatter] at hf
    split_ifs at hf with hc
    · exact (ofTexts_eq_ok_iff.1 hf).1
    · obtain ⟨hp, -⟩ : o.pattern = none ∧ o.zone = none := by simpa using hc
      cases hf
      simpa [hp] using hstandard

theorem parse?_of_bindColumns {standard : Formatter} {timeColumn : Option String}
    (hd : Formatter.ofTexts settings.defaultPattern settings.defaultZone = .ok standard) :
    ∀ {used : List String} {index : Nat} {columns : List Column} {writers : List Writer},
      bindColumns settings standard timeColumn used index columns = .ok writers →
      ∀ writer ∈ writers,
        Calendar.Pattern.parse? (settings.patternOf writer.binding.column) =
          some writer.formatter.pattern
  | _, _, [], _, h => by
    cases h
    exact List.forall_mem_nil _
  | _, _, column :: _, _, h => by
    obtain ⟨writer, hw, h⟩ := bind_eq_ok.1 h
    obtain ⟨later, hl, h⟩ := bind_eq_ok.1 h
    cases h
    have hcolumn : writer.binding.column = column.name := (bindColumn_eq_ok hw).2.1
    exact List.forall_mem_cons.2
      ⟨hcolumn ▸ parse?_of_bindColumn hd hw, parse?_of_bindColumns hd hl⟩

/-- The formatter of each writer is read from the pattern that its column uses. A column that is
promoted keeps its formatter. -/
theorem parse?_of_resolve (h : WriterSet.resolve schema settings = .ok set) :
    ∀ writer ∈ set.writers, Calendar.Pattern.parse? (settings.patternOf writer.binding.column) =
      some writer.formatter.pattern := by
  obtain ⟨generator, standard, writers, ensured, -, hd, hw, he, rfl⟩ := resolve_eq_ok_iff.1 h
  have hbound := parse?_of_bindColumns hd hw
  rcases ensureKey_eq_ok he with ⟨rfl, -⟩ | ⟨-, -, before, writer, after, rfl, -, -, rfl⟩
  · exact hbound
  · simpa only [List.forall_mem_append, List.forall_mem_cons] using hbound

/-- A set of writers can write all timestamps just if no column uses a pattern with the lenient
zone. -/
theorem renderable_iff_of_resolve (h : WriterSet.resolve schema settings = .ok set) :
    (∀ writer ∈ set.writers, writer.formatter.pattern.Renderable) ↔
      ∀ column ∈ schema.columns, ¬ AsksLenient (settings.patternOf column.name) := by
  rw [← asColumn_of_resolve h, List.forall_mem_map]
  exact forall₂_congr fun writer hw =>
    Calendar.Pattern.renderable_iff (parse?_of_resolve h writer hw)

end BulkLoad.Record
