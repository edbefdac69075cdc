import BulkLoad.Record.Coerce

/-!
# What patterns say

A pattern is read by a grammar : it is a sequence of directives, each after a percent sign, and of
other characters, which stand for themselves (`read?_eq_some_iff`). No directive goes on into the
text after it, so a pattern that can be read is read alike before any other text (`parse?_append`).

All pieces of a pattern that can be read can be written as well, except for the lenient zone. So a
pattern has a written form just if the lenient zone is not among its directives (`renderable_iff`).
-/

namespace BulkLoad.Calendar.Pattern

variable {cs before rest : List Char} {items pattern : Pattern}

/-! ## Directives -/

/-- The directives for zones of more than one letter. -/
def zoneDirectives : List (String × ZoneStyle) :=
  [(":z", .colon), ("::z", .seconds), (":::z", .hours), ("#z", .lenient)]

/-- The characters of a directive after its percent sign, and the pieces that it stands for. -/
inductive Directive : List Char → Pattern → Prop
  | letter {c : Char} {items : Pattern} (h : letter? c = some items) : Directive [c] items
  | padded {mark c : Char} {padding : Padding} {items : Pattern}
      (hp : padding? mark = some padding) (h : padded? padding c = some items) :
      Directive [mark, c] items
  | fraction : Directive ['.', 'f'] [.fraction]
  | point {c : Char} {n : Nat} (h : fractionDigits? c = some n) :
      Directive ['.', c, 'f'] [.fixedFraction n true]
  | digits {c : Char} {n : Nat} (h : fractionDigits? c = some n) :
      Directive [c, 'f'] [.fixedFraction n false]
  | zone {s : String} {style : ZoneStyle} (h : (s, style) ∈ zoneDirectives) :
      Directive s.toList [.zone style]

/-- The characters that begin a directive and are no directives themselves. -/
def leads : List Char := [':', '#', '.', '-', '0', '_', '3', '6', '9']

theorem letter?_eq_none : ∀ c ∈ leads, letter? c = none := by
  simp [leads, letter?]

theorem padding?_eq_some {c : Char} {padding : Padding} (h : padding? c = some padding) :
    c = '-' ∨ c = '0' ∨ c = '_' := by
  unfold padding? at h
  split at h <;> simp_all

theorem fractionDigits?_eq_some {c : Char} {n : Nat} (h : fractionDigits? c = some n) :
    c = '3' ∨ c = '6' ∨ c = '9' := by
  unfold fractionDigits? at h
  split at h <;> simp_all

/-- A directive is read where it stands, whatever comes after it. -/
theorem Directive.run (h : Directive before items) (rest : List Char) :
    directive? (before ++ rest) = some (items, rest) := by
  cases h with
  | @letter c items h =>
    -- A letter is not the beginning of a longer directive.
    have hc : c ∉ leads := fun hc => by simp [letter?_eq_none c hc] at h
    have hp : padding? c = none := Option.eq_none_iff_forall_ne_some.2 fun padding hp =>
      hc (by rcases padding?_eq_some hp with rfl | rfl | rfl <;> decide)
    have hf : fractionDigits? c = none := Option.eq_none_iff_forall_ne_some.2 fun n hf =>
      hc (by rcases fractionDigits?_eq_some hf with rfl | rfl | rfl <;> decide)
    simp only [leads, List.mem_cons, List.not_mem_nil, or_false, not_or] at hc
    simp [directive?, hp, hf, h, hc]
  | padded hp h =>
    rcases padding?_eq_some hp with rfl | rfl | rfl <;> simp [directive?, hp, h]
  | fraction => rfl
  | point h =>
    rcases fractionDigits?_eq_some h with rfl | rfl | rfl <;> simp [directive?, h]
  | digits h =>
    rcases fractionDigits?_eq_some h with rfl | rfl | rfl <;> simp [directive?, padding?, h]
  | zone h =>
    simp only [zoneDirectives, List.mem_cons, Prod.mk.injEq, List.not_mem_nil, or_false] at h
    rcases h with ⟨rfl, rfl⟩ | ⟨rfl, rfl⟩ | ⟨rfl, rfl⟩ | ⟨rfl, rfl⟩ <;> rfl

/-- What is read after a percent sign is a directive. -/
theorem exists_directive (h : directive? cs = some (items, rest)) :
    ∃ before, Directive before items ∧ cs = before ++ rest := by
  unfold directive? at h
  split at h
  · cases h
    exact ⟨":::z".toList, .zone (by decide), rfl⟩
  · cases h
    exact ⟨"::z".toList, .zone (by decide), rfl⟩
  · cases h
    exact ⟨":z".toList, .zone (by decide), rfl⟩
  · cases h
    exact ⟨"#z".toList, .zone (by decide), rfl⟩
  · cases h
    exact ⟨_, .fraction, rfl⟩
  · obtain ⟨n, hn, he⟩ := Option.map_eq_some_iff.1 h
    cases he
    exact ⟨_, .point hn, rfl⟩
  · split at h
    · obtain ⟨items, hi, he⟩ := Option.map_eq_some_iff.1 h
      cases he
      exact ⟨_, .padded ‹padding? _ = some _› hi, rfl⟩
    · cases h
      exact ⟨_, .digits ‹fractionDigits? _ = some _›, rfl⟩
    · obtain ⟨items, hi, he⟩ := Option.map_eq_some_iff.1 h
      cases he
      exact ⟨_, .letter hi, rfl⟩
  · cases h

/-! ## Patterns -/

/-- The grammar of patterns. -/
inductive Reads : List Char → Pattern → Prop
  | nil : Reads [] []
  | literal {c : Char} {rest : List Char} {pattern : Pattern} (hc : c ≠ '%')
      (h : Reads rest pattern) : Reads (c :: rest) (.literal c :: pattern)
  | directive {before rest : List Char} {items pattern : Pattern} (hd : Directive before items)
      (h : Reads rest pattern) : Reads ('%' :: (before ++ rest)) (items ++ pattern)

theorem read?_directive (h : Directive before items) (rest : List Char) :
    read? ('%' :: (before ++ rest)) = (read? rest).map (items ++ ·) := by
  rw [read?.eq_2]
  split
  · next hr =>
    rw [h.run] at hr
    cases hr
    rfl
  · next hr =>
    rw [h.run] at hr
    cases hr

/-- What is read is what the grammar says, and all that it says is read. -/
theorem read?_eq_some_iff : read? cs = some pattern ↔ Reads cs pattern := by
  constructor
  · intro h
    fun_induction read? cs generalizing pattern with
    | case1 =>
      cases h
      exact .nil
    | case2 tail items rest hd ih =>
      obtain ⟨pattern, hr, rfl⟩ := Option.map_eq_some_iff.1 h
      obtain ⟨before, hb, rfl⟩ := exists_directive hd
      exact .directive hb (ih hr)
    | case3 => cases h
    | case4 c rest hc ih =>
      obtain ⟨pattern, hr, rfl⟩ := Option.map_eq_some_iff.1 h
      exact .literal hc (ih hr)
  · intro h
    induction h with
    | nil => exact read?.eq_1
    | literal hc _ ih => rw [read?.eq_3 _ _ hc, ih, Option.map_some]
    | directive hd _ ih => rw [read?_directive hd, ih, Option.map_some]

/-- A pattern that can be read is read by itself before any other text. -/
theorem Reads.run_append (h : Reads before pattern) (rest : List Char) :
    read? (before ++ rest) = (read? rest).map (pattern ++ ·) := by
  induction h with
  | nil => simp
  | literal hc _ ih =>
    rw [List.cons_append, read?.eq_3 _ _ hc, ih, Option.map_map]
    rfl
  | directive hd _ ih =>
    rw [List.cons_append, List.append_assoc, read?_directive hd, ih, Option.map_map]
    simp [Function.comp_def]

theorem parse?_append {s : String} (h : parse? s = some pattern) (t : String) :
    parse? (s ++ t) = (parse? t).map (pattern ++ ·) := by
  rw [parse?, String.toList_append]
  exact (read?_eq_some_iff.1 h).run_append t.toList

/-! ## The lenient zone -/

theorem renderable_of_letter? {c : Char} (h : letter? c = some items) : items.Renderable := by
  unfold letter? at h
  split at h <;> first | (obtain rfl := Option.some.inj h; decide) | cases h

/-- Only its own directive stands for the lenient zone. -/
theorem Directive.eq_of_lenient_mem (h : Directive before items)
    (hl : Item.zone .lenient ∈ items) : before = "#z".toList := by
  cases h with
  | letter h => exact absurd hl (renderable_of_letter? h)
  | padded _ h =>
    unfold padded? at h
    split at h
    · obtain rfl := Option.some.inj h
      simp at hl
    · cases h
  | fraction | point _ | digits _ => simp at hl
  | zone h =>
    simp only [zoneDirectives, List.mem_cons, Prod.mk.injEq, List.not_mem_nil, or_false] at h
    rcases h with ⟨rfl, rfl⟩ | ⟨rfl, rfl⟩ | ⟨rfl, rfl⟩ | ⟨rfl, rfl⟩
    · simp at hl
    · simp at hl
    · simp at hl
    · rfl

/-- The lenient zone is one of the directives of a text : what stands before it can be read without
it. -/
def AsksLenient (text : String) : Prop :=
  ∃ before after, text = before ++ "%#z" ++ after ∧ ∃ pattern, parse? before = some pattern

/-- By induction on the reading : the lenient zone is in a directive or in what comes after it. -/
theorem Reads.exists_of_lenient_mem (h : Reads cs pattern) (hl : Item.zone .lenient ∈ pattern) :
    ∃ before after, cs = before ++ '%' :: ("#z".toList ++ after) ∧ ∃ p, Reads before p := by
  induction h with
  | nil => simp at hl
  | literal hc _ ih =>
    obtain ⟨before, after, rfl, p, hp⟩ := ih (by simpa using hl)
    exact ⟨_ :: before, after, rfl, _, .literal hc hp⟩
  | @directive before rest items pattern hd hr ih =>
    rcases List.mem_append.1 hl with hl | hl
    · rw [hd.eq_of_lenient_mem hl]
      exact ⟨[], rest, rfl, [], .nil⟩
    · obtain ⟨first, after, rfl, p, hp⟩ := ih hl
      exact ⟨'%' :: (before ++ first), after, by simp, _, .directive hd hp⟩

/-- A pattern can be written just if it does not ask for the lenient zone. -/
theorem renderable_iff {text : String} (h : parse? text = some pattern) :
    pattern.Renderable ↔ ¬ AsksLenient text := by
  refine not_congr ⟨fun hl => ?_, ?_⟩
  · obtain ⟨before, after, hs, p, hp⟩ := (read?_eq_some_iff.1 h).exists_of_lenient_mem hl
    refine ⟨String.ofList before, String.ofList after, ?_, p, ?_⟩
    · rw [← String.toList_inj, hs]
      simp
    · rw [parse?, String.toList_ofList]
      exact read?_eq_some_iff.2 hp
  · rintro ⟨before, after, rfl, p, hp⟩
    rw [String.append_assoc, parse?_append hp] at h
    obtain ⟨items, hi, rfl⟩ := Option.map_eq_some_iff.1 h
    have hz : Directive "#z".toList [.zone .lenient] := .zone (by decide)
    have hr : parse? ("%#z" ++ after) = (read? after.toList).map ([.zone .lenient] ++ ·) := by
      rw [parse?, String.toList_append]
      exact read?_directive hz after.toList
    rw [hr] at hi
    obtain ⟨q, -, rfl⟩ := Option.map_eq_some_iff.1 hi
    simp

end BulkLoad.Calendar.Pattern
