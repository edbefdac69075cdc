import BulkLoad.Proofs.Program.Trace

/-!
# States along a trace

Often a proof keeps a state beside a program that the program itself does not have : what it owes,
or what it holds. A relation says what a question does to such a state, and `Along` what the
questions of a trace do to it, one after the other. `Follows` says of a program that all its
questions fit the relation, and which states it can end in; it is closed under everything that
programs are composed with.
-/

namespace BulkLoad.Program

variable {Q : Type} {A : Q → Type} {σ ε α β : Type} {step : σ → Event A → σ → Prop}

/-! ## Steps one after the other -/

/-- What events do to a state, one after the other. -/
inductive Along (step : σ → Event A → σ → Prop) (s : σ) : List (Event A) → σ → Prop
  | nil : Along step s [] s
  | snoc {events : List (Event A)} {e : Event A} {middle last : σ} (h : Along step s events middle)
    (hs : step middle e last) : Along step s (events ++ [e]) last

namespace Along

variable {s middle last : σ} {events first rest : List (Event A)} {e : Event A}

theorem append (h₁ : Along step s first middle) (h₂ : Along step middle rest last) :
    Along step s (first ++ rest) last := by
  induction h₂ with
  | nil => simpa using h₁
  | snoc _ hs ih =>
    rw [← List.append_assoc]
    exact .snoc ih hs

theorem one (hs : step s e last) : Along step s [e] last :=
  .snoc .nil hs

theorem cons (hs : step s e middle) (h : Along step middle rest last) :
    Along step s (e :: rest) last :=
  append (one hs) h

theorem of_nil (h : Along step s [] last) : last = s := by
  generalize hl : [] = events at h
  cases h with
  | nil => rfl
  | snoc => simp at hl

theorem of_snoc (h : Along step s (events ++ [e]) last) :
    ∃ middle, Along step s events middle ∧ step middle e last := by
  generalize hl : events ++ [e] = all at h
  cases h with
  | nil => simp at hl
  | snoc h hs =>
    obtain ⟨rfl, he⟩ := List.append_inj' hl rfl
    obtain rfl : e = _ := by simpa using he
    exact ⟨_, h, hs⟩

theorem split (h : Along step s (first ++ rest) last) :
    ∃ middle, Along step s first middle ∧ Along step middle rest last := by
  generalize hl : first ++ rest = events at h
  induction h generalizing rest with
  | nil =>
    obtain ⟨rfl, rfl⟩ := List.append_eq_nil_iff.1 hl
    exact ⟨s, .nil, .nil⟩
  | @snoc events e middle last hp hs ih =>
    rcases List.eq_nil_or_concat rest with rfl | ⟨rest, final, rfl⟩
    · rw [List.append_nil] at hl
      subst hl
      exact ⟨last, .snoc hp hs, .nil⟩
    · have hc : (first ++ rest) ++ [final] = events ++ [e] := by simpa using hl
      obtain ⟨rfl, he⟩ := List.append_inj' hc rfl
      obtain rfl : final = e := by simpa using he
      obtain ⟨found, h₁, h₂⟩ := ih rfl
      rw [List.concat_eq_append]
      exact ⟨found, h₁, .snoc h₂ hs⟩

/-- What each step preserves holds at the end. -/
theorem preserves {I : σ → Prop} (hI : ∀ s e s', I s → step s e s' → I s')
    (h : Along step s events last) (hs : I s) : I last := by
  induction h with
  | nil => exact hs
  | snoc _ hstep ih => exact hI _ _ _ ih hstep

/-- Events that leave a state as it is. -/
theorem still : ∀ {events : List (Event A)}, (∀ e ∈ events, step s e s) → Along step s events s
  | [], _ => .nil
  | _ :: _, h =>
    cons (h _ List.mem_cons_self) (still fun e he => h e (List.mem_cons_of_mem _ he))

/-- Part of a state, which steps of its own. -/
theorem image {τ : Type} {other : τ → Event A → τ → Prop} {f : σ → τ}
    (h : Along step s events last) (hstep : ∀ s e s', step s e s' → other (f s) e (f s')) :
    Along other (f s) events (f last) := by
  induction h with
  | nil => exact .nil
  | snoc _ hs ih => exact .snoc ih (hstep _ _ _ hs)

end Along

/-- Two states along the same events. -/
theorem Along.both {τ : Type} {other : τ → Event A → τ → Prop} {events : List (Event A)}
    {s s' : σ} {t t' : τ} (h : Along step s events s') (h' : Along other t events t') :
    Along (fun x e y => step x.1 e y.1 ∧ other x.2 e y.2) (s, t) events (s', t') := by
  induction h generalizing t' with
  | nil =>
    generalize he : ([] : List (Event A)) = events at h'
    cases h' with
    | nil => exact .nil
    | snoc => simp at he
  | snoc _ hs ih =>
    obtain ⟨middle, hm, hs'⟩ := h'.of_snoc
    exact .snoc (ih hm) ⟨hs, hs'⟩

/-! ## Programs that take such steps -/

/-- From a state on, all questions of a program are steps, whatever the answers are. A result finds
a state that fits it, and so does a failure. -/
def Follows (step : σ → Event A → σ → Prop) (R : α → σ → Prop) (F : ε → σ → Prop)
    (p : Program A ε α) (s : σ) : Prop :=
  ∀ events outcome, Trace p events outcome → ∃ last, Along step s events last ∧
    (∀ a, outcome = some (.done a) → R a last) ∧ ∀ e, outcome = some (.failed e) → F e last

/-- What holds of a result with its state : `R` of a value, `G` of an error. -/
def OnResult {ε' : Type} (R : α → σ → Prop) (G : ε' → σ → Prop) : Except ε' α → σ → Prop
  | .ok a => R a
  | .error e => G e

namespace Follows

variable {R : α → σ → Prop} {S : β → σ → Prop} {F : ε → σ → Prop} {p : Program A ε α} {s : σ}

theorem pure {a : α} (h : R a s) : (Pure.pure a : Program A ε α).Follows step R F s := by
  intro events outcome ht
  obtain ⟨rfl, rfl⟩ := Trace.of_pure ht
  exact ⟨s, .nil, by simpa using h, by simp⟩

theorem throw {e : ε} (h : F e s) :
    (MonadExcept.throw e : Program A ε α).Follows step R F s := by
  intro events outcome ht
  obtain ⟨rfl, rfl⟩ := Trace.of_throw ht
  exact ⟨s, .nil, by simp, by simpa using h⟩

theorem aborted (reason : Abort) : (.aborted reason : Program A ε α).Follows step R F s := by
  intro events outcome ht
  obtain ⟨rfl, rfl⟩ := Trace.of_aborted ht
  exact ⟨s, .nil, by simp, by simp⟩

theorem query {q : Q} {R : A q → σ → Prop} (h : ∀ a, ∃ s', step s ⟨q, a⟩ s' ∧ R a s') :
    (query q : Program A ε (A q)).Follows step R F s := by
  intro events outcome ht
  rcases Trace.of_query ht with ⟨rfl, rfl⟩ | ⟨a, rfl, rfl⟩
  · exact ⟨s, .nil, by simp, by simp⟩
  · obtain ⟨s', hs, ha⟩ := h a
    exact ⟨s', .one hs, by simpa using ha, by simp⟩

theorem require {holds : Bool} {e : ε} {R : Unit → σ → Prop} (h : R () s) (hF : F e s) :
    (require holds e : Program A ε Unit).Follows step R F s := by
  cases holds with
  | true => exact pure h
  | false => exact throw hF

theorem mono {R' : α → σ → Prop} {F' : ε → σ → Prop} (h : p.Follows step R F s)
    (hR : ∀ a s, R a s → R' a s) (hF : ∀ e s, F e s → F' e s) : p.Follows step R' F' s := by
  intro events outcome ht
  obtain ⟨last, hl, hdone, hfailed⟩ := h events outcome ht
  exact ⟨last, hl, fun a ho => hR a last (hdone a ho), fun e ho => hF e last (hfailed e ho)⟩

theorem bind {f : α → Program A ε β} (h : p.Follows step R F s)
    (hf : ∀ a s, R a s → (f a).Follows step S F s) : (p >>= f).Follows step S F s := by
  intro events outcome ht
  rcases Trace.of_bind ht with ⟨first, a, rest, rfl, h₁, h₂⟩ | ⟨stop, h₁, hs⟩
  · obtain ⟨middle, hm, hdone, -⟩ := h first _ h₁
    obtain ⟨last, hl, ho⟩ := hf a middle (hdone a rfl) rest outcome h₂
    exact ⟨last, hm.append hl, ho⟩
  · obtain ⟨last, hl, -, hfailed⟩ := h events stop h₁
    refine ⟨last, hl, fun b ho => absurd ho (hs.ne_done b), ?_⟩
    rintro e rfl
    cases hs
    exact hfailed e rfl

/-- After a result that may be an error, a program goes on with either. -/
theorem bind_result {ε' : Type} {G : ε' → σ → Prop} {p : Program A ε (Except ε' α)}
    {f : Except ε' α → Program A ε β} (h : p.Follows step (OnResult R G) F s)
    (hok : ∀ a s, R a s → (f (.ok a)).Follows step S F s)
    (herror : ∀ e s, G e s → (f (.error e)).Follows step S F s) :
    (p >>= f).Follows step S F s := by
  refine h.bind fun r s hr => ?_
  cases r with
  | ok a => exact hok a s hr
  | error e => exact herror e s hr

/-- After an attempt, the failure of a program is a result. -/
theorem attempt {ε' : Type} {F' : ε' → σ → Prop} (h : p.Follows step R F s) :
    (p.attempt : Program A ε' (Except ε α)).Follows step (OnResult R F) F' s := by
  intro events outcome ht
  obtain ⟨inner, hi, rfl⟩ := Trace.of_attempt ht
  obtain ⟨last, hl, hdone, hfailed⟩ := h events inner hi
  rcases inner with - | (a | e | reason)
  · exact ⟨last, hl, by simp, by simp⟩
  · exact ⟨last, hl, by simpa [Outcome.attempt, OnResult] using hdone a rfl,
      by simp [Outcome.attempt]⟩
  · exact ⟨last, hl, by simpa [Outcome.attempt, OnResult] using hfailed e rfl,
      by simp [Outcome.attempt]⟩
  · exact ⟨last, hl, by simp [Outcome.attempt], by simp [Outcome.attempt]⟩

end Follows

end BulkLoad.Program
