import BulkLoad.Program

/-!
# Traces of programs

A trace is what surroundings see of a program: the questions that it asks, each with the answer
that it is given (`Trace`). The answers are arbitrary, so a statement about all traces of a
program is one about all surroundings. A trace may break off at a question that is not answered.

The inversion lemmas take the trace of a composed program apart : that of `p >>= f` is one of `p`
followed by one of `f` at its result, unless `p` stops first (`Trace.of_bind`). `Keeps` says which
questions a program can ask at all, and `Leads` what is left of it after some of them.
-/

namespace BulkLoad

/-- How a program ends that does not fail, but tells. -/
def Outcome.attempt {ε ε' α : Type} : Outcome ε α → Outcome ε' (Except ε α)
  | .done a => .done (.ok a)
  | .failed e => .done (.error e)
  | .aborted reason => .aborted reason

/-- Takes a failure for one of another kind. -/
def Outcome.mapError {ε ε' α : Type} (f : ε → ε') : Outcome ε α → Outcome ε' α
  | .done a => .done a
  | .failed e => .failed (f e)
  | .aborted reason => .aborted reason

theorem ok_of_mapError {ε ε' α : Type} {f : ε → ε'} {r : Except ε α} {a : α}
    (h : r.mapError f = .ok a) : r = .ok a := by
  cases r with
  | ok b =>
    cases h
    rfl
  | error e => cases h

theorem error_of_mapError {ε ε' α : Type} {f : ε → ε'} {r : Except ε α} {e' : ε'}
    (h : r.mapError f = .error e') : ∃ e, r = .error e ∧ f e = e' := by
  cases r with
  | ok b => cases h
  | error e =>
    cases h
    exact ⟨e, rfl, rfl⟩

namespace Program

variable {Q : Type} {A : Q → Type} {ε α β : Type}

/-- A question and its answer. -/
abbrev Event (A : Q → Type) : Type := (q : Q) × A q

/-- `Trace p events outcome` says that `p` can ask the questions of `events`, be given their
answers, and have the outcome then. Without an outcome it has asked another question, which is
not answered. -/
inductive Trace : Program A ε α → List (Event A) → Option (Outcome ε α) → Prop
  | done (a : α) : Trace (.done a) [] (some (.done a))
  | failed (e : ε) : Trace (.failed e) [] (some (.failed e))
  | aborted (reason : Abort) : Trace (.aborted reason) [] (some (.aborted reason))
  | cut (q : Q) (next : A q → Program A ε α) : Trace (.ask q next) [] none
  | ask {q : Q} {next : A q → Program A ε α} {events : List (Event A)}
    {outcome : Option (Outcome ε α)} (a : A q) (h : Trace (next a) events outcome) :
    Trace (.ask q next) (⟨q, a⟩ :: events) outcome

/-- The same ending without a result, of programs with results of different types. -/
inductive Stopped : Option (Outcome ε α) → Option (Outcome ε β) → Prop
  | cut : Stopped none none
  | failed (e : ε) : Stopped (some (.failed e)) (some (.failed e))
  | aborted (reason : Abort) : Stopped (some (.aborted reason)) (some (.aborted reason))

theorem Stopped.ne_done {stop : Option (Outcome ε α)} {outcome : Option (Outcome ε β)}
    (h : Stopped stop outcome) (b : β) : outcome ≠ some (.done b) := by
  cases h <;> simp

theorem Stopped.left_ne_done {stop : Option (Outcome ε α)} {outcome : Option (Outcome ε β)}
    (h : Stopped stop outcome) (a : α) : stop ≠ some (.done a) := by
  cases h <;> simp

/-- A program that does not fail stops only at a question. -/
theorem Stopped.eq_none {stop : Option (Outcome ε α)} {outcome : Option (Outcome ε β)}
    (h : Stopped stop outcome) (hs : stop = none ∨ ∃ a, stop = some (.done a)) :
    outcome = none := by
  cases h <;> simp_all

namespace Trace

variable {p : Program A ε α} {events : List (Event A)} {outcome : Option (Outcome ε α)}

theorem of_done {a : α} (h : Trace (.done a : Program A ε α) events outcome) :
    events = [] ∧ outcome = some (.done a) := by
  cases h
  exact ⟨rfl, rfl⟩

theorem of_pure {a : α} (h : Trace (pure a : Program A ε α) events outcome) :
    events = [] ∧ outcome = some (.done a) :=
  of_done h

theorem of_failed {e : ε} (h : Trace (.failed e : Program A ε α) events outcome) :
    events = [] ∧ outcome = some (.failed e) := by
  cases h
  exact ⟨rfl, rfl⟩

theorem of_throw {e : ε} (h : Trace (throw e : Program A ε α) events outcome) :
    events = [] ∧ outcome = some (.failed e) :=
  of_failed h

theorem of_aborted {reason : Abort}
    (h : Trace (.aborted reason : Program A ε α) events outcome) :
    events = [] ∧ outcome = some (.aborted reason) := by
  cases h
  exact ⟨rfl, rfl⟩

theorem of_ask {q : Q} {next : A q → Program A ε α} (h : Trace (.ask q next) events outcome) :
    (events = [] ∧ outcome = none) ∨
      ∃ a rest, events = ⟨q, a⟩ :: rest ∧ Trace (next a) rest outcome := by
  cases h with
  | cut => exact Or.inl ⟨rfl, rfl⟩
  | ask a h => exact Or.inr ⟨a, _, rfl, h⟩

/-- A trace of a composed program is one of the first, which ends with a result, and one of the
second at the result, or the first stops. -/
theorem of_bind {f : α → Program A ε β} {outcome : Option (Outcome ε β)}
    (h : Trace (p >>= f) events outcome) :
    (∃ first a rest, events = first ++ rest ∧ Trace p first (some (.done a)) ∧
      Trace (f a) rest outcome) ∨
      ∃ stop, Trace p events stop ∧ Stopped stop outcome := by
  change Trace (p.bind f) events outcome at h
  induction p generalizing events with
  | done a => exact Or.inl ⟨[], a, events, rfl, .done a, h⟩
  | failed e =>
    obtain ⟨rfl, rfl⟩ := of_failed h
    exact Or.inr ⟨_, .failed e, .failed e⟩
  | aborted reason =>
    obtain ⟨rfl, rfl⟩ := of_aborted h
    exact Or.inr ⟨_, .aborted reason, .aborted reason⟩
  | ask q next ih =>
    cases h with
    | cut => exact Or.inr ⟨none, .cut _ _, .cut⟩
    | ask a hn =>
      rcases ih a hn with ⟨first, b, rest, rfl, hp, hf⟩ | ⟨stop, hp, hs⟩
      · exact Or.inl ⟨⟨q, a⟩ :: first, b, rest, rfl, .ask a hp, hf⟩
      · exact Or.inr ⟨stop, .ask a hp, hs⟩

/-- A trace of a program with a result, and one of what it goes on with. -/
theorem bind_done {f : α → Program A ε β} {first rest : List (Event A)} {a : α}
    {outcome : Option (Outcome ε β)} (h : Trace p first (some (.done a)))
    (hf : Trace (f a) rest outcome) : Trace (p >>= f) (first ++ rest) outcome := by
  change Trace (p.bind f) (first ++ rest) outcome
  generalize ho : some (Outcome.done a) = result at h
  induction h with
  | done =>
    cases ho
    exact hf
  | failed | aborted | cut => cases ho
  | ask b _ ih => exact .ask b (ih ho)

theorem bind_stopped {f : α → Program A ε β} {stop : Option (Outcome ε α)}
    {outcome : Option (Outcome ε β)} (h : Trace p events stop) (hs : Stopped stop outcome) :
    Trace (p >>= f) events outcome := by
  change Trace (p.bind f) events outcome
  induction h with
  | done => cases hs
  | failed e =>
    cases hs
    exact .failed e
  | aborted reason =>
    cases hs
    exact .aborted reason
  | cut q =>
    cases hs
    exact .cut q _
  | ask a _ ih => exact .ask a (ih hs)

theorem of_attempt {ε' : Type} {outcome : Option (Outcome ε' (Except ε α))}
    (h : Trace (p.attempt : Program A ε' (Except ε α)) events outcome) :
    ∃ inner, Trace p events inner ∧ outcome = inner.map .attempt := by
  induction p generalizing events with
  | done a =>
    obtain ⟨rfl, rfl⟩ := of_done h
    exact ⟨_, .done a, rfl⟩
  | failed e =>
    obtain ⟨rfl, rfl⟩ := of_done h
    exact ⟨_, .failed e, rfl⟩
  | aborted reason =>
    obtain ⟨rfl, rfl⟩ := of_aborted h
    exact ⟨_, .aborted reason, rfl⟩
  | ask q next ih =>
    cases h with
    | cut => exact ⟨none, .cut _ _, rfl⟩
    | ask a hn =>
      obtain ⟨inner, hp, rfl⟩ := ih a hn
      exact ⟨inner, .ask a hp, rfl⟩

theorem attempt {ε' : Type} (h : Trace p events outcome) :
    Trace (p.attempt : Program A ε' (Except ε α)) events (outcome.map .attempt) := by
  induction h with
  | done a => exact .done _
  | failed e => exact .done _
  | aborted reason => exact .aborted reason
  | cut q => exact .cut q _
  | ask a _ ih => exact .ask a ih

theorem of_mapError {ε' : Type} {f : ε → ε'} {outcome : Option (Outcome ε' α)}
    (h : Trace (p.mapError f) events outcome) :
    ∃ inner, Trace p events inner ∧ outcome = inner.map (.mapError f) := by
  induction p generalizing events with
  | done a =>
    obtain ⟨rfl, rfl⟩ := of_done h
    exact ⟨_, .done a, rfl⟩
  | failed e =>
    obtain ⟨rfl, rfl⟩ := of_failed h
    exact ⟨_, .failed e, rfl⟩
  | aborted reason =>
    obtain ⟨rfl, rfl⟩ := of_aborted h
    exact ⟨_, .aborted reason, rfl⟩
  | ask q next ih =>
    cases h with
    | cut => exact ⟨none, .cut _ _, rfl⟩
    | ask a hn =>
      obtain ⟨inner, hp, rfl⟩ := ih a hn
      exact ⟨inner, .ask a hp, rfl⟩

/-- A trace of an embedded program is a trace of the program, with the questions embedded. -/
theorem of_embed {Q' : Type} {A' : Q' → Type} {f : Q → Q'} {back : ∀ q, A' (f q) → A q}
    {events : List (Event A')} (h : Trace (p.embed f back) events outcome) :
    ∃ inner : List ((q : Q) × A' (f q)), events = inner.map (fun e => ⟨f e.1, e.2⟩) ∧
      Trace p (inner.map fun e => ⟨e.1, back e.1 e.2⟩) outcome := by
  induction p generalizing events with
  | done a =>
    obtain ⟨rfl, rfl⟩ := of_done h
    exact ⟨[], rfl, .done a⟩
  | failed e =>
    obtain ⟨rfl, rfl⟩ := of_failed h
    exact ⟨[], rfl, .failed e⟩
  | aborted reason =>
    obtain ⟨rfl, rfl⟩ := of_aborted h
    exact ⟨[], rfl, .aborted reason⟩
  | ask q next ih =>
    cases h with
    | cut => exact ⟨[], rfl, .cut _ _⟩
    | ask a hn =>
      obtain ⟨inner, rfl, hp⟩ := ih (back q a) hn
      exact ⟨⟨q, a⟩ :: inner, rfl, .ask _ hp⟩

theorem of_ofExcept {r : Except ε α} (h : Trace (ofExcept r : Program A ε α) events outcome) :
    events = [] ∧ ((∃ a, r = .ok a ∧ outcome = some (.done a)) ∨
      ∃ e, r = .error e ∧ outcome = some (.failed e)) := by
  cases r with
  | ok a =>
    obtain ⟨rfl, rfl⟩ := of_done h
    exact ⟨rfl, Or.inl ⟨a, rfl, rfl⟩⟩
  | error e =>
    obtain ⟨rfl, rfl⟩ := of_failed h
    exact ⟨rfl, Or.inr ⟨e, rfl, rfl⟩⟩

/-- A condition before a program: it holds, or it does not and nothing is asked. -/
theorem of_require_bind_cases {holds : Bool} {e : ε} {f : Unit → Program A ε α}
    (h : Trace (require holds e >>= f) events outcome) :
    holds = true ∧ Trace (f ()) events outcome ∨
      holds = false ∧ events = [] ∧ outcome = some (.failed e) := by
  cases holds with
  | true => exact Or.inl ⟨rfl, h⟩
  | false => exact Or.inr ⟨rfl, of_failed h⟩

theorem of_require_bind {holds : Bool} {e : ε} {f : Unit → Program A ε α}
    (h : Trace (require holds e >>= f) events outcome) :
    holds = true ∧ Trace (f ()) events outcome ∨ events = [] ∧ outcome = some (.failed e) :=
  (of_require_bind_cases h).imp_right And.right

/-- One question is answered, or the trace breaks off there. -/
theorem of_query {q : Q} {outcome : Option (Outcome ε (A q))}
    (h : Trace (query q : Program A ε (A q)) events outcome) :
    (events = [] ∧ outcome = none) ∨ ∃ a, events = [⟨q, a⟩] ∧ outcome = some (.done a) := by
  rcases of_ask h with h | ⟨a, rest, rfl, hd⟩
  · exact Or.inl h
  · obtain ⟨rfl, rfl⟩ := of_done hd
    exact Or.inr ⟨a, rfl, rfl⟩

/-- A question at the head of a composed program. -/
theorem of_query_bind {q : Q} {f : A q → Program A ε α}
    (h : Trace (query q >>= f) events outcome) :
    (events = [] ∧ outcome = none) ∨
      ∃ a rest, events = ⟨q, a⟩ :: rest ∧ Trace (f a) rest outcome :=
  of_ask h

/-! A composed program has a result when all its parts have. -/

theorem of_pure_done {a b : α} (h : Trace (pure a : Program A ε α) events (some (.done b))) :
    events = [] ∧ b = a := by
  obtain ⟨rfl, hb⟩ := of_pure h
  exact ⟨rfl, by simpa using hb⟩

theorem not_throw_done {e : ε} {a : α}
    (h : Trace (throw e : Program A ε α) events (some (.done a))) : False := by
  have ho := (of_throw h).2
  simp at ho

theorem of_bind_done {f : α → Program A ε β} {b : β}
    (h : Trace (p >>= f) events (some (.done b))) :
    ∃ first a rest, events = first ++ rest ∧ Trace p first (some (.done a)) ∧
      Trace (f a) rest (some (.done b)) := by
  rcases of_bind h with h | ⟨stop, -, hs⟩
  · exact h
  · exact absurd rfl (hs.ne_done b)

theorem of_query_bind_done {q : Q} {f : A q → Program A ε α} {b : α}
    (h : Trace (query q >>= f) events (some (.done b))) :
    ∃ a rest, events = ⟨q, a⟩ :: rest ∧ Trace (f a) rest (some (.done b)) := by
  rcases of_query_bind h with ⟨-, ho⟩ | h
  · cases ho
  · exact h

theorem of_require_bind_done {holds : Bool} {e : ε} {f : Unit → Program A ε α} {b : α}
    (h : Trace (require holds e >>= f) events (some (.done b))) :
    holds = true ∧ Trace (f ()) events (some (.done b)) := by
  rcases of_require_bind h with h | ⟨-, ho⟩
  · exact h
  · simp at ho

theorem of_attempt_done {ε' : Type} {r : Except ε α}
    (h : Trace (p.attempt : Program A ε' (Except ε α)) events (some (.done r))) :
    (∃ a, r = .ok a ∧ Trace p events (some (.done a))) ∨
      ∃ e, r = .error e ∧ Trace p events (some (.failed e)) := by
  obtain ⟨inner, hp, ho⟩ := of_attempt h
  rcases inner with - | (a | e | reason)
  · simp at ho
  · exact Or.inl ⟨a, by simpa [Outcome.attempt] using ho, hp⟩
  · exact Or.inr ⟨e, by simpa [Outcome.attempt] using ho, hp⟩
  · simp [Outcome.attempt] at ho

end Trace

/-! ## What is left of a program -/

/-- `Leads p events q` says that `q` is what is left of `p` after the questions of `events` and
their answers. -/
inductive Leads : Program A ε α → List (Event A) → Program A ε α → Prop
  | refl (p : Program A ε α) : Leads p [] p
  | snoc {p : Program A ε α} {events : List (Event A)} {q : Q} {next : A q → Program A ε α}
    (h : Leads p events (.ask q next)) (a : A q) : Leads p (events ++ [⟨q, a⟩]) (next a)

theorem Leads.trace {p p' : Program A ε α} {first rest : List (Event A)}
    {outcome : Option (Outcome ε α)} (h : Leads p first p') (ht : Trace p' rest outcome) :
    Trace p (first ++ rest) outcome := by
  induction h generalizing rest with
  | refl => exact ht
  | snoc _ a ih =>
    rw [List.append_assoc]
    exact ih (.ask a ht)

theorem exists_trace : ∀ p : Program A ε α, ∃ outcome, Trace p [] outcome
  | .done a => ⟨_, .done a⟩
  | .failed e => ⟨_, .failed e⟩
  | .aborted reason => ⟨_, .aborted reason⟩
  | .ask q next => ⟨none, .cut q next⟩

theorem Leads.exists_trace {p p' : Program A ε α} {events : List (Event A)}
    (h : Leads p events p') : ∃ outcome, Trace p events outcome := by
  obtain ⟨outcome, ht⟩ := Program.exists_trace p'
  exact ⟨outcome, by simpa using h.trace ht⟩

theorem Leads.cons {q : Q} {next : A q → Program A ε α} {a : A q} {events : List (Event A)}
    {p' : Program A ε α} (h : Leads (next a) events p') :
    Leads (.ask q next) (⟨q, a⟩ :: events) p' := by
  generalize hp : next a = p at h
  induction h with
  | refl => exact hp ▸ .snoc (.refl _) a
  | snoc _ b ih => exact .snoc ih b

theorem Trace.exists_leads {p : Program A ε α} {events : List (Event A)}
    {outcome : Option (Outcome ε α)} (h : Trace p events outcome) : ∃ p', Leads p events p' := by
  induction h with
  | done | failed | aborted | cut => exact ⟨_, .refl _⟩
  | ask a _ ih =>
    obtain ⟨p', hl⟩ := ih
    exact ⟨p', hl.cons⟩

/-- What is left of a program when it asks one of the questions of a trace. -/
theorem Trace.leads {p : Program A ε α} {events : List (Event A)}
    {outcome : Option (Outcome ε α)} (h : Trace p events outcome) {n : Nat} {q : Q} {a : A q}
    (hn : events[n]? = some ⟨q, a⟩) :
    ∃ next : A q → Program A ε α, Leads p (events.take n) (.ask q next) := by
  induction h generalizing n with
  | done | failed | aborted | cut => simp at hn
  | @ask q' next events outcome b h ih =>
    cases n with
    | zero =>
      obtain ⟨rfl, -⟩ : q' = q ∧ _ := by simpa using hn
      exact ⟨next, .refl _⟩
    | succ n =>
      obtain ⟨next', hl⟩ := ih (by simpa using hn)
      exact ⟨next', hl.cons⟩

/-! ## Played programs -/

/-- The questions of a program that is played against surroundings with a state, each with the
answer, and how it ends. -/
def transcript {σ : Type} (answer : (q : Q) → σ → A q × σ) :
    Program A ε α → σ → List (Event A) × Outcome ε α
  | done a, _ => ([], .done a)
  | failed e, _ => ([], .failed e)
  | aborted reason, _ => ([], .aborted reason)
  | ask q next, s =>
    let rest := transcript answer (next (answer q s).1) (answer q s).2
    (⟨q, (answer q s).1⟩ :: rest.1, rest.2)

theorem trace_transcript {σ : Type} (answer : (q : Q) → σ → A q × σ) :
    ∀ (p : Program A ε α) (s : σ),
      Trace p (transcript answer p s).1 (some (transcript answer p s).2)
  | done a, _ => .done a
  | failed e, _ => .failed e
  | aborted reason, _ => .aborted reason
  | ask _ next, s => .ask _ (trace_transcript answer (next (answer _ s).1) (answer _ s).2)

section Transcripts

variable {σ : Type} (answer : (q : Q) → σ → A q × σ) (state : σ)

theorem transcript_query_bind {q : Q} {a : A q} {next : σ} (h : answer q state = (a, next))
    (f : A q → Program A ε β) :
    transcript answer (query q >>= f) state =
      (⟨q, a⟩ :: (transcript answer (f a) next).1, (transcript answer (f a) next).2) := by
  change (⟨q, (answer q state).1⟩ ::
    (transcript answer (f (answer q state).1) (answer q state).2).1, _) = _
  rw [h]
  rfl

theorem transcript_require_bind {holds : Bool} (h : holds = true) (e : ε)
    (f : Unit → Program A ε β) :
    transcript answer (require holds e >>= f) state = transcript answer (f ()) state := by
  rw [require, if_pos h]
  rfl

theorem transcript_require_bind_of_not {holds : Bool} (h : holds = false) (e : ε)
    (f : Unit → Program A ε β) :
    transcript answer (require holds e >>= f) state = ([], .failed e) := by
  rw [require, if_neg (by simp [h])]
  rfl

end Transcripts

/-! ## What a program can ask -/

/-- All questions that a program can ask have a property, and all results that it can have have
another. -/
def Keeps (P : Q → Prop) (R : α → Prop) : Program A ε α → Prop
  | done a => R a
  | failed _ | aborted _ => True
  | ask q next => P q ∧ ∀ a, (next a).Keeps P R

namespace Keeps

variable {P : Q → Prop} {R : α → Prop} {S : β → Prop} {p : Program A ε α}

theorem of_trace {events : List (Event A)} {outcome : Option (Outcome ε α)} (h : p.Keeps P R)
    (ht : Trace p events outcome) :
    (∀ e ∈ events, P e.1) ∧ ∀ a, outcome = some (.done a) → R a := by
  induction ht with
  | done a =>
    refine ⟨by simp, fun a' ha => ?_⟩
    obtain rfl : a = a' := by simpa using ha
    exact h
  | failed | aborted | cut => simp
  | ask a _ ih =>
    obtain ⟨hevents, hresult⟩ := ih (h.2 a)
    exact ⟨List.forall_mem_cons.2 ⟨h.1, hevents⟩, hresult⟩

/-- A composed program whose first part keeps something. -/
theorem of_trace_bind {f : α → Program A ε β} {events : List (Event A)}
    {outcome : Option (Outcome ε β)} (h : p.Keeps P R) (ht : Trace (p >>= f) events outcome) :
    (∃ first a rest, events = first ++ rest ∧ (∀ e ∈ first, P e.1) ∧ R a ∧
      Trace (f a) rest outcome) ∨
      (∀ e ∈ events, P e.1) ∧ ∀ b, outcome ≠ some (.done b) := by
  rcases ht.of_bind with ⟨first, a, rest, rfl, h₁, h₂⟩ | ⟨stop, h₁, hs⟩
  · obtain ⟨hevents, ha⟩ := h.of_trace h₁
    exact Or.inl ⟨first, a, rest, rfl, hevents, ha a rfl, h₂⟩
  · exact Or.inr ⟨(h.of_trace h₁).1, hs.ne_done⟩

theorem mono {P' : Q → Prop} {R' : α → Prop} (h : p.Keeps P R) (hP : ∀ q, P q → P' q)
    (hR : ∀ a, R a → R' a) : p.Keeps P' R' := by
  induction p with
  | done a => exact hR a h
  | failed | aborted => trivial
  | ask q next ih => exact ⟨hP q h.1, fun a => ih a (h.2 a)⟩

theorem and {P' : Q → Prop} {R' : α → Prop} (h : p.Keeps P R) (h' : p.Keeps P' R') :
    p.Keeps (fun q => P q ∧ P' q) fun a => R a ∧ R' a := by
  induction p with
  | done => exact ⟨h, h'⟩
  | failed | aborted => trivial
  | ask q next ih => exact ⟨⟨h.1, h'.1⟩, fun a => ih a (h.2 a) (h'.2 a)⟩

theorem bind {f : α → Program A ε β} (h : p.Keeps P R) (hf : ∀ a, R a → (f a).Keeps P S) :
    (p >>= f).Keeps P S := by
  change (p.bind f).Keeps P S
  induction p with
  | done a => exact hf a h
  | failed | aborted => trivial
  | ask q next ih => exact ⟨h.1, fun a => ih a (h.2 a)⟩

theorem attempt {ε' : Type} (h : p.Keeps P R) :
    (p.attempt : Program A ε' (Except ε α)).Keeps P fun r => ∀ a, r = .ok a → R a := by
  induction p with
  | done a =>
    intro a' ha
    obtain rfl : a = a' := by simpa using ha
    exact h
  | failed e => exact fun a ha => by simp at ha
  | aborted => trivial
  | ask q next ih => exact ⟨h.1, fun a => ih a (h.2 a)⟩

theorem mapError {ε' : Type} {f : ε → ε'} (h : p.Keeps P R) : (p.mapError f).Keeps P R := by
  induction p with
  | done => exact h
  | failed | aborted => trivial
  | ask q next ih => exact ⟨h.1, fun a => ih a (h.2 a)⟩

theorem embed {Q' : Type} {A' : Q' → Type} {P : Q' → Prop} {f : Q → Q'}
    {back : ∀ q, A' (f q) → A q} (h : p.Keeps (fun q => P (f q)) R) :
    (p.embed f back).Keeps P R := by
  induction p with
  | done => exact h
  | failed | aborted => trivial
  | ask q next ih => exact ⟨h.1, fun a => ih (back q a) (h.2 _)⟩

theorem of_forall (hP : ∀ q, P q) (hR : ∀ a, R a) : ∀ p : Program A ε α, p.Keeps P R
  | .done a => hR a
  | .failed _ | .aborted _ => trivial
  | .ask q next => ⟨hP q, fun a => of_forall hP hR (next a)⟩

theorem pure {a : α} (h : R a) : (Pure.pure a : Program A ε α).Keeps P R :=
  h

theorem throw (e : ε) : (MonadExcept.throw e : Program A ε α).Keeps P R :=
  trivial

theorem ofExcept {r : Except ε α} (h : ∀ a, r = .ok a → R a) :
    (ofExcept r : Program A ε α).Keeps P R := by
  cases r with
  | ok a => exact h a rfl
  | error => trivial

theorem require (holds : Bool) (e : ε) :
    (require holds e : Program A ε Unit).Keeps P fun _ => holds = true := by
  cases holds <;> trivial

theorem query {q : Q} (h : P q) : (query q : Program A ε (A q)).Keeps P fun _ => True :=
  ⟨h, fun _ => trivial⟩

end Keeps

end Program

end BulkLoad
