import BulkLoad.Proofs.Program.Trace
import Mathlib.Data.List.Forall2

/-!
# Programs side by side

Two programs are `Twins` if they ask the same questions as long as the answers that they are given
are alike, and then end alike. Which answers are alike is a parameter, and so is how endings have to
agree. A program that does not tell certain answers apart is a twin of itself.

Twins are closed under everything that programs are composed with. Their traces go together
(`Twins.trace`), and they are played alike against surroundings that answer alike
(`Twins.played`).
-/

namespace BulkLoad

namespace Program

variable {Q : Type} {A : Q → Type} {ε ε' α β γ δ : Type} {alike : ∀ q, A q → A q → Prop}

/-- How a program ends that asks nothing any more. -/
def ending? : Program A ε α → Option (Outcome ε α)
  | done a => some (.done a)
  | failed e => some (.failed e)
  | aborted reason => some (.aborted reason)
  | ask _ _ => none

/-- What comes after a program that has ended, if a function takes its result on. -/
def goOn (f : α → Program A ε β) : Outcome ε α → Program A ε β
  | .done a => f a
  | .failed e => failed e
  | .aborted reason => aborted reason

/-- The same question with answers that are alike. -/
inductive Answered (alike : ∀ q, A q → A q → Prop) : Event A → Event A → Prop
  | mk {q : Q} {a a' : A q} (h : alike q a a') : Answered alike ⟨q, a⟩ ⟨q, a'⟩

/-- Two programs that ask the same questions and end alike, as long as they are answered alike. -/
inductive Twins (alike : ∀ q, A q → A q → Prop) (R : Outcome ε α → Outcome ε' β → Prop) :
    Program A ε α → Program A ε' β → Prop
  | ended {p : Program A ε α} {p' : Program A ε' β} {o : Outcome ε α} {o' : Outcome ε' β}
    (h : p.ending? = some o) (h' : p'.ending? = some o') (hr : R o o') : Twins alike R p p'
  | ask {q : Q} {next : A q → Program A ε α} {next' : A q → Program A ε' β}
    (h : ∀ a a', alike q a a' → Twins alike R (next a) (next' a')) :
    Twins alike R (.ask q next) (.ask q next')

theorem trace_of_ending {p : Program A ε α} {o : Outcome ε α} (h : p.ending? = some o) :
    Trace p [] (some o) := by
  cases p with
  | ask => cases h
  | _ => cases h; constructor

theorem ending_of_trace {p : Program A ε α} {o : Outcome ε α} (h : Trace p [] (some o)) :
    p.ending? = some o := by
  cases h <;> rfl

theorem Trace.of_ending {p : Program A ε α} {o : Outcome ε α} {events : List (Event A)}
    {outcome : Option (Outcome ε α)} (ht : Trace p events outcome) (h : p.ending? = some o) :
    events = [] ∧ outcome = some o := by
  cases ht <;> cases h <;> exact ⟨rfl, rfl⟩

namespace Twins

variable {R : Outcome ε α → Outcome ε' β → Prop} {p : Program A ε α} {p' : Program A ε' β}

theorem done {a : α} {b : β} (h : R (.done a) (.done b)) :
    Twins alike R (.done a : Program A ε α) (.done b : Program A ε' β) :=
  .ended rfl rfl h

/-- A program whose questions have no answers that are alike but the same. -/
theorem refl {R : Outcome ε α → Outcome ε α → Prop} (hr : ∀ o, R o o) :
    ∀ {p : Program A ε α}, p.Keeps (fun q => ∀ a a', alike q a a' → a = a') (fun _ => True) →
      Twins alike R p p
  | .done a, _ => .ended rfl rfl (hr (.done a))
  | .failed e, _ => .ended rfl rfl (hr (.failed e))
  | .aborted reason, _ => .ended rfl rfl (hr (.aborted reason))
  | .ask q next, h => .ask fun a a' ha => by
    obtain rfl := h.1 a a' ha
    exact refl hr (h.2 a)

theorem mono {S : Outcome ε α → Outcome ε' β → Prop} (h : Twins alike R p p')
    (hrs : ∀ o o', R o o' → S o o') : Twins alike S p p' := by
  induction h with
  | ended h h' hr => exact .ended h h' (hrs _ _ hr)
  | ask _ ih => exact .ask ih

/-- Twins one after the other : what comes after them depends on how they end. -/
theorem bind {S : Outcome ε γ → Outcome ε' δ → Prop} {f : α → Program A ε γ}
    {f' : β → Program A ε' δ} (h : Twins alike R p p')
    (hf : ∀ o o', R o o' → Twins alike S (goOn f o) (goOn f' o')) :
    Twins alike S (p >>= f) (p' >>= f') := by
  have after {ε α γ : Type} {f : α → Program A ε γ} {p : Program A ε α} {o : Outcome ε α}
      (h : p.ending? = some o) : p >>= f = goOn f o := by
    cases p with
    | ask => cases h
    | _ => cases h; rfl
  induction h with
  | ended h h' hr =>
    rw [after h, after h']
    exact hf _ _ hr
  | ask _ ih => exact .ask ih

theorem attempt {ε₁ ε₂ : Type} (h : Twins alike R p p') :
    Twins alike (fun r r' => ∃ o o', R o o' ∧ r = o.attempt ∧ r' = o'.attempt)
      (p.attempt : Program A ε₁ _) (p'.attempt : Program A ε₂ _) := by
  have ending {ε ε₁ α : Type} {p : Program A ε α} {o : Outcome ε α} (h : p.ending? = some o) :
      (p.attempt : Program A ε₁ _).ending? = some o.attempt := by
    cases p with
    | ask => cases h
    | _ => cases h; rfl
  induction h with
  | ended h h' hr => exact .ended (ending h) (ending h') ⟨_, _, hr, rfl, rfl⟩
  | ask _ ih => exact .ask ih

theorem embed {Q' : Type} {A' : Q' → Type} {alike' : ∀ q, A' q → A' q → Prop} {f : Q → Q'}
    {back : ∀ q, A' (f q) → A q} (h : Twins alike R p p')
    (ha : ∀ q b b', alike' (f q) b b' → alike q (back q b) (back q b')) :
    Twins alike' R (p.embed f back) (p'.embed f back) := by
  have ending {ε α : Type} {p : Program A ε α} {o : Outcome ε α} (h : p.ending? = some o) :
      (p.embed f back).ending? = some o := by
    cases p with
    | ask => cases h
    | _ => exact h
  induction h with
  | ended h h' hr => exact .ended (ending h) (ending h') hr
  | ask _ ih => exact .ask fun b b' hb => ih _ _ (ha _ b b' hb)

/-! ## What twins do -/

/-- With answers that are alike, a trace of the one is a trace of the other, and ends alike. -/
theorem trace {events events' : List (Event A)} {outcome : Option (Outcome ε α)}
    (h : Twins alike R p p') (ht : Trace p events outcome)
    (he : List.Forall₂ (Answered alike) events events') :
    ∃ outcome', Trace p' events' outcome' ∧ Option.Rel R outcome outcome' := by
  induction h generalizing events events' with
  | ended h h' hr =>
    obtain ⟨rfl, rfl⟩ := ht.of_ending h
    cases he
    exact ⟨_, trace_of_ending h', .some hr⟩
  | ask _ ih =>
    cases ht with
    | cut =>
      cases he
      exact ⟨none, .cut _ _, .none⟩
    | ask a ht =>
      cases he with
      | cons hq he =>
        cases hq with
        | mk ha =>
          obtain ⟨outcome', ht', ho⟩ := ih _ _ ha ht he
          exact ⟨outcome', .ask _ ht', ho⟩

/-- Surroundings that answer alike, as long as their states are related, see the same questions and
endings that agree. -/
theorem played {σ σ' : Type} {answer : (q : Q) → σ → A q × σ}
    {answer' : (q : Q) → σ' → A q × σ'} {Near : σ → σ' → Prop} (h : Twins alike R p p')
    (hn : ∀ q s s', Near s s' → alike q (answer q s).1 (answer' q s').1 ∧
      Near (answer q s).2 (answer' q s').2) {s : σ} {s' : σ'} (hs : Near s s') :
    List.Forall₂ (Answered alike) (transcript answer p s).1 (transcript answer' p' s').1 ∧
      R (transcript answer p s).2 (transcript answer' p' s').2 := by
  have ending {ε α σ : Type} {answer : (q : Q) → σ → A q × σ} {p : Program A ε α} {s : σ}
      {o : Outcome ε α} (h : p.ending? = some o) : transcript answer p s = ([], o) := by
    cases p with
    | ask => cases h
    | _ => cases h; rfl
  induction h generalizing s s' with
  | ended h h' hr =>
    rw [ending h, ending h']
    exact ⟨.nil, hr⟩
  | @ask q next next' _ ih =>
    obtain ⟨ha, hnear⟩ := hn q s s' hs
    obtain ⟨hevents, hr⟩ := ih _ _ ha hnear
    exact ⟨.cons (.mk ha) hevents, hr⟩

end Twins

/-! ## Questions whose answers do not matter -/

/-- A program that comes to an end has a result with a property. -/
def Ends (P : α → Prop) (p : Program A ε α) : Prop :=
  ∀ events outcome, Trace p events outcome → outcome = none ∨ ∃ a, outcome = some (.done a) ∧ P a

/-- A program that comes to an end fails with one error. -/
def Fails (e : ε) (p : Program A ε α) : Prop :=
  ∀ events outcome, Trace p events outcome → outcome = none ∨ outcome = some (.failed e)

/-- Once some question is asked, the result is determined, however it is answered : `P` says which
results fit what is determined then. -/
def Determined (asked : Q → Prop) (P : γ → α → Prop) : Program A ε α → Prop
  | ask q next =>
    (asked q → ∃ c, ∀ a, (next a).Ends (P c)) ∧ ∀ a, (next a).Determined asked P
  | _ => True

namespace Ends

variable {P : α → Prop} {S : β → Prop} {p : Program A ε α}

theorem pure {a : α} (h : P a) : (Pure.pure a : Program A ε α).Ends P := by
  intro events outcome ht
  exact Or.inr ⟨a, (Trace.of_pure ht).2, h⟩

theorem query (q : Q) : (query q : Program A ε (A q)).Ends fun _ => True := by
  intro events outcome ht
  rcases Trace.of_query ht with ⟨-, ho⟩ | ⟨a, -, ho⟩
  · exact Or.inl ho
  · exact Or.inr ⟨a, ho, trivial⟩

theorem bind {f : α → Program A ε β} (h : p.Ends P) (hf : ∀ a, P a → (f a).Ends S) :
    (p >>= f).Ends S := by
  intro events outcome ht
  rcases Trace.of_bind ht with ⟨first, a, rest, rfl, h₁, h₂⟩ | ⟨stop, h₁, hs⟩
  · rcases h _ _ h₁ with ho | ⟨a', ho, ha⟩
    · cases ho
    · cases ho
      exact hf a ha _ _ h₂
  · rcases h _ _ h₁ with rfl | ⟨a, rfl, -⟩
    · cases hs
      exact Or.inl rfl
    · cases hs

end Ends

theorem Fails.throw (e : ε) : (MonadExcept.throw e : Program A ε α).Fails e :=
  fun _ _ ht => Or.inr (Trace.of_throw ht).2

theorem Ends.fails {P : α → Prop} {p : Program A ε α} {e : ε} {f : α → Program A ε β}
    (h : p.Ends P) (hf : ∀ a, (f a).Fails e) : (p >>= f).Fails e := by
  intro events outcome ht
  rcases Trace.of_bind ht with ⟨first, a, rest, rfl, -, h₂⟩ | ⟨stop, h₁, hs⟩
  · exact hf a _ _ h₂
  · rcases h _ _ h₁ with rfl | ⟨a, rfl, -⟩
    · cases hs
      exact Or.inl rfl
    · cases hs

namespace Determined

variable {asked : Q → Prop} {P : γ → α → Prop} {S : γ → β → Prop}

theorem of_ends {c : γ} : ∀ {p : Program A ε α}, p.Ends (P c) → p.Determined asked P
  | .done _, _ | .failed _, _ | .aborted _, _ => trivial
  | .ask _ _, h =>
    have hnext a := fun events outcome ht => h (⟨_, a⟩ :: events) outcome (.ask a ht)
    ⟨fun _ => ⟨c, hnext⟩, fun a => of_ends (hnext a)⟩

/-- A program that does not ask such a question, and then one that may. -/
theorem keeps_bind {R : α → Prop} {f : α → Program A ε β} : ∀ {p : Program A ε α},
    p.Keeps (fun q => ¬ asked q) R → (∀ a, R a → (f a).Determined asked S) →
      (p >>= f).Determined asked S
  | .done a, h, hf => hf a h
  | .failed _, _, _ | .aborted _, _, _ => trivial
  | .ask _ _, h, hf =>
    ⟨fun hq => absurd hq h.1, fun a => keeps_bind (h.2 a) hf⟩

theorem bind {f : α → Program A ε β} (hends : ∀ c a, P c a → (f a).Ends (S c))
    (hf : ∀ a, (f a).Determined asked S) : ∀ {p : Program A ε α}, p.Determined asked P →
      (p >>= f).Determined asked S
  | .done a, _ => hf a
  | .failed _, _ | .aborted _, _ => trivial
  | .ask _ _, h => by
    refine ⟨fun hq => ?_, fun a => bind hends hf (h.2 a)⟩
    obtain ⟨c, hc⟩ := h.1 hq
    exact ⟨c, fun a => (hc a).bind (hends c)⟩

/-- Two traces that are the same up to the question have results that fit the same. -/
theorem of_traces {q : Q} (hq : asked q) {a a' : A q} {after after' : List (Event A)}
    {outcome outcome' : Option (Outcome ε α)} : ∀ {p : Program A ε α} {before : List (Event A)},
      p.Determined asked P → Trace p (before ++ ⟨q, a⟩ :: after) outcome →
        Trace p (before ++ ⟨q, a'⟩ :: after') outcome' →
          ∃ c, (outcome = none ∨ ∃ b, outcome = some (.done b) ∧ P c b) ∧
            (outcome' = none ∨ ∃ b, outcome' = some (.done b) ∧ P c b)
  | p, [], h, ht, ht' => by
    cases ht with
    | ask _ ht =>
      cases ht' with
      | ask _ ht' =>
        obtain ⟨c, hc⟩ := h.1 hq
        exact ⟨c, hc _ _ _ ht, hc _ _ _ ht'⟩
  | p, ⟨_, b⟩ :: before, h, ht, ht' => by
    cases ht with
    | ask _ ht =>
      cases ht' with
      | ask _ ht' => exact of_traces hq (h.2 b) ht ht'

end Determined

end Program

end BulkLoad
