import BulkLoad.Proofs.Import.Requests
import BulkLoad.Proofs.Import.Traffic

/-!
# Programs at a service

A service has a state. It treats one request at a time, and may move on its own in between
(`Behaviour`). What a program makes of the state is told by triples with a condition for programs
that are cut off (`Brings`) : from states with one property, whatever the service does, results come
with states that have another, and the `Aim` of the program holds of all that is sent, of every
state on the way and of all failures. The triple of a composed program is put together from those of
its parts, and a call is judged by its replies (`Judged.of_verdicts`).

A `Visit` is a run of a program at a service that may be cut off, where the last request may take
effect without an answer; what triples say, they say of visits as well.
-/

namespace BulkLoad

/-- An error that tells of no verdict of the service. -/
def Api.Error.Passing (e : Api.Error) : Prop :=
  e.isRetryable = true ∨ e.isCancellation = true

theorem Api.Error.Passing.not_conflict {e : Api.Error} (h : e.Passing) : e.isConflict = false := by
  cases e <;> simp_all [Passing, isRetryable, isCancellation, isConflict]

theorem Api.Error.Passing.not_missing {e : Api.Error} (h : e.Passing) : e.isNotFound = false := by
  cases e <;> simp_all [Passing, isRetryable, isCancellation, isNotFound]

namespace Import

open Program (Trace Stopped Keeps Leads)

/-! ## Services -/

/-- A service, as far as its state goes. -/
structure Behaviour (σ : Type) where
  /-- What can become of the state without a request. -/
  moves : σ → σ → Prop
  /-- How a request can be answered, and the state then. -/
  treats : σ → Api.Request → Api.Reply → σ → Prop

variable {σ ε α β : Type} {v : Behaviour σ} {start last s s' : σ}
  {sent : List (Api.Request × Api.Reply)}

namespace Behaviour

/-- Requests are treated one after the other, while the service moves on its own at any time. -/
inductive Serves (v : Behaviour σ) : σ → List (Api.Request × Api.Reply) → σ → Prop
  | nil (s : σ) : Serves v s [] s
  | moved {s s' last : σ} {sent : List (Api.Request × Api.Reply)} (m : v.moves s s')
    (h : Serves v s' sent last) : Serves v s sent last
  | treated {s s' last : σ} {request : Api.Request} {reply : Api.Reply}
    {sent : List (Api.Request × Api.Reply)} (t : v.treats s request reply s')
    (h : Serves v s' sent last) : Serves v s ((request, reply) :: sent) last

/-- A property that lasts as long as no request is treated. -/
def Lasts (v : Behaviour σ) (P : σ → Prop) : Prop :=
  ∀ s s', v.moves s s' → P s → P s'

theorem Lasts.of_serves {P : σ → Prop} (hP : v.Lasts P) (h : v.Serves s [] s') (hs : P s) :
    P s' := by
  generalize hsent : ([] : List (Api.Request × Api.Reply)) = sent at h
  induction h with
  | nil => exact hs
  | moved m _ ih => exact ih (hP _ _ m hs) hsent
  | treated => cases hsent

theorem Serves.of_append : ∀ {first rest : List (Api.Request × Api.Reply)},
    v.Serves s (first ++ rest) last → ∃ mid, v.Serves s first mid ∧ v.Serves mid rest last := by
  intro first rest h
  generalize hsent : first ++ rest = sent at h
  induction h generalizing first with
  | nil s =>
    obtain ⟨rfl, rfl⟩ := List.append_eq_nil_iff.1 hsent
    exact ⟨s, .nil s, .nil s⟩
  | moved m _ ih =>
    obtain ⟨mid, h₁, h₂⟩ := ih hsent
    exact ⟨mid, .moved m h₁, h₂⟩
  | @treated s _ last request reply sent t h ih =>
    rcases List.append_eq_cons_iff.1 hsent with ⟨rfl, rfl⟩ | ⟨first, rfl, rfl⟩
    · exact ⟨s, .nil s, .treated t h⟩
    · obtain ⟨mid, h₁, h₂⟩ := ih rfl
      exact ⟨mid, .treated t h₁, h₂⟩

theorem Serves.append {mid : σ} {first rest : List (Api.Request × Api.Reply)}
    (h₁ : v.Serves s first mid) (h₂ : v.Serves mid rest last) :
    v.Serves s (first ++ rest) last := by
  induction h₁ with
  | nil => exact h₂
  | moved m _ ih => exact .moved m (ih h₂)
  | treated t _ ih => exact .treated t (ih h₂)

theorem Serves.of_cons {request : Api.Request} {reply : Api.Reply}
    (h : v.Serves s ((request, reply) :: sent) last) :
    ∃ before after, v.Serves s [] before ∧ v.treats before request reply after ∧
      v.Serves after sent last := by
  generalize hsent : (request, reply) :: sent = all at h
  induction h with
  | nil => cases hsent
  | moved m _ ih =>
    obtain ⟨before, after, h₁, t, h₂⟩ := ih hsent
    exact ⟨before, after, .moved m h₁, t, h₂⟩
  | @treated s _ _ _ _ _ t h =>
    cases hsent
    exact ⟨s, _, .nil s, t, h⟩

/-- A property that lasts, and that no request ends. -/
theorem Serves.keeps {J : σ → Prop} (h : v.Serves s sent last) (hJ : v.Lasts J)
    (hkept : ∀ sending ∈ sent, ∀ s reply s', J s → v.treats s sending.1 reply s' → J s')
    (hs : J s) : J last := by
  induction h with
  | nil => exact hs
  | moved m _ ih => exact ih hkept (hJ _ _ m hs)
  | treated t _ ih =>
    rw [List.forall_mem_cons] at hkept
    exact ih hkept.2 (hkept.1 _ _ _ hs t)

/-- Requests of uploads that a service takes no notice of can be left out. -/
theorem Serves.of_traffic : ∀ {log : List Happening} {s : σ},
    (∀ ticket content request reply, .beside ticket content ⟨.api (.send request), reply⟩ ∈ log →
      ∀ s s', v.treats s request reply s' → s' = s) →
    v.Serves s (traffic log) last → v.Serves s (sendings (own log)) last
  | [], _, _, h => h
  | happening :: log, s, hb, h => by
    have ih {s : σ} (h : v.Serves s (traffic log) last) : v.Serves s (sendings (own log)) last :=
      h.of_traffic fun ticket content request reply hm =>
        hb ticket content request reply (List.mem_cons_of_mem _ hm)
    match happening with
    | .own e =>
      rw [traffic_cons] at h
      obtain ⟨mid, h₁, h₂⟩ := h.of_append
      rw [own_cons_own, sendings_cons]
      exact h₁.append (ih h₂)
    | .beside ticket content ⟨.api (.send request), reply⟩ =>
      obtain ⟨before, after, h₁, t, h₂⟩ := Serves.of_cons h
      obtain rfl := hb ticket content request reply List.mem_cons_self _ _ t
      exact h₁.append (ih h₂)
    | .beside _ _ ⟨.api (.wait _), _⟩ => exact ih h
    | .beside _ _ ⟨.part _, _⟩ => exact ih h
    | .crashed _ => exact ih h

end Behaviour

/-! ## Triples -/

/-- What is to hold whatever comes of a program. -/
structure Aim (σ ε : Type) where
  /-- Of all requests. -/
  sends : Api.Request → Prop := fun _ => True
  /-- At any moment. -/
  always : σ → Prop := fun _ => True
  fails : ε → Prop := fun _ => True
  aborts : Prop := True

/-- An aim is met by what was sent, how it ended, and the state then. -/
structure Meets (aim : Aim σ ε) (Q : α → σ → Prop) (sent : List (Api.Request × Api.Reply))
    (outcome : Option (Outcome ε α)) (last : σ) : Prop where
  sent : ∀ sending ∈ sent, aim.sends sending.1
  always : aim.always last
  result : ∀ a, outcome = some (.done a) → Q a last
  failure : ∀ e, outcome = some (.failed e) → aim.fails e
  abort : ∀ reason, outcome = some (.aborted reason) → aim.aborts

/-- From states with `P` the program meets its aim, and its results come with states as `Q` says. -/
structure Brings (v : Behaviour σ) (aim : Aim σ ε) (P : σ → Prop) (p : Work ε α)
    (Q : α → σ → Prop) : Prop where
  meets : ∀ {start events outcome last}, P start → Trace p events outcome →
    v.Serves start (sendings events) last → Meets aim Q (sendings events) outcome last

/-- A property of states that lasts and does not go beyond an aim. -/
structure Steady (v : Behaviour σ) (aim : Aim σ ε) (P : σ → Prop) : Prop where
  lasts : v.Lasts P
  within : ∀ s, P s → aim.always s

theorem Steady.fact {aim : Aim σ ε} {P : σ → Prop} {fact : Prop} (h : Steady v aim P) :
    Steady v aim fun s => fact ∧ P s :=
  ⟨fun s s' m hs => ⟨hs.1, h.lasts s s' m hs.2⟩, fun s hs => h.within s hs.2⟩

variable {aim : Aim σ ε} {P P' : σ → Prop} {p : Work ε α} {f : α → Work ε β} {Q Q' : α → σ → Prop}
  {R : β → σ → Prop}

namespace Brings

/-- A program that asks nothing. -/
theorem unasked (hP : Steady v aim P) {outcome : Option (Outcome ε α)}
    (hq : ∀ s a, P s → outcome = some (.done a) → Q a s)
    (he : ∀ s e, P s → outcome = some (.failed e) → aim.fails e)
    (hr : ∀ reason, outcome = some (.aborted reason) → aim.aborts) (hs : P start)
    (hv : v.Serves start (sendings []) last) : Meets aim Q (sendings []) outcome last := by
  have hlast : P last := hP.lasts.of_serves hv hs
  exact ⟨by simp, hP.within _ hlast, fun a => hq last a hlast, fun e => he last e hlast, hr⟩

theorem pure {a : α} (hP : Steady v aim P) (hq : ∀ s, P s → Q a s) :
    Brings v aim P (Pure.pure a) Q := by
  constructor
  intro start events outcome last hs ht hv
  obtain ⟨rfl, rfl⟩ := Trace.of_pure ht
  refine unasked hP (fun s a' h ho => ?_) (by simp) (by simp) hs hv
  obtain rfl : a = a' := by simpa using ho
  exact hq s h

theorem throw {e : ε} (hP : Steady v aim P) (he : ∀ s, P s → aim.fails e) :
    Brings v aim P (MonadExcept.throw e) Q := by
  constructor
  intro start events outcome last hs ht hv
  obtain ⟨rfl, rfl⟩ := Trace.of_throw ht
  refine unasked hP (by simp) (fun s e' h ho => ?_) (by simp) hs hv
  obtain rfl : e = e' := by simpa using ho
  exact he s h

theorem aborted {reason : Abort} (hP : Steady v aim P) (hr : aim.aborts) :
    Brings v aim P (.aborted reason) Q := by
  constructor
  intro start events outcome last hs ht hv
  obtain ⟨rfl, rfl⟩ := Trace.of_aborted ht
  exact unasked hP (by simp) (by simp) (fun _ _ => hr) hs hv

theorem ofExcept {r : Except ε α} (hP : Steady v aim P) (hq : ∀ s a, r = .ok a → P s → Q a s)
    (he : ∀ s e, r = .error e → P s → aim.fails e) : Brings v aim P (Program.ofExcept r) Q := by
  cases r with
  | ok a => exact pure hP fun s => hq s a rfl
  | error e => exact throw hP fun s => he s e rfl

theorem bind (hp : Brings v aim P p Q) (hf : ∀ a, Brings v aim (Q a) (f a) R) :
    Brings v aim P (p >>= f) R := by
  constructor
  intro start events outcome last hs ht hv
  rcases Trace.of_bind ht with ⟨first, a, rest, rfl, h₁, h₂⟩ | ⟨stop, h₁, hstop⟩
  · rw [sendings_append] at hv ⊢
    obtain ⟨mid, hv₁, hv₂⟩ := hv.of_append
    have hfirst := hp.meets hs h₁ hv₁
    have hrest := (hf a).meets (hfirst.result a rfl) h₂ hv₂
    exact { hrest with sent := List.forall_mem_append.2 ⟨hfirst.sent, hrest.sent⟩ }
  · have h := hp.meets hs h₁ hv
    refine ⟨h.sent, h.always, fun b hb => absurd hb (hstop.ne_done b), ?_, ?_⟩
    · rintro e rfl
      cases hstop
      exact h.failure e rfl
    · rintro reason rfl
      cases hstop
      exact h.abort reason rfl

theorem mono (h : Brings v aim P p Q) (hP : ∀ s, P' s → P s) (hQ : ∀ a s, Q a s → Q' a s) :
    Brings v aim P' p Q' := by
  constructor
  intro start events outcome last hs ht hv
  have hm := h.meets (hP _ hs) ht hv
  exact { hm with result := fun a ha => hQ a last (hm.result a ha) }

/-- The aim of the first of two triples is met. -/
theorem and {aim' : Aim σ ε} (h : Brings v aim P p Q) (h' : Brings v aim' P' p Q') :
    Brings v aim (fun s => P s ∧ P' s) p fun a s => Q a s ∧ Q' a s := by
  constructor
  intro start events outcome last hs ht hv
  have hm := h.meets hs.1 ht hv
  exact { hm with result := fun a ha => ⟨hm.result a ha, (h'.meets hs.2 ht hv).result a ha⟩ }

/-- What the states before a program tell of anything but the states. -/
theorem assume {fact : Prop} (hP : ∀ s, P s → fact) (h : fact → Brings v aim P p Q) :
    Brings v aim P p Q :=
  ⟨fun hs ht hv => (h (hP _ hs)).meets hs ht hv⟩

/-- A fact that is none of the states. -/
theorem fact {fact : Prop} (h : fact → Brings v aim P p Q) :
    Brings v aim (fun s => fact ∧ P s) p fun a s => fact ∧ Q a s :=
  assume (fun _ hs => hs.1) fun hf => (h hf).mono (fun _ hs => hs.2) fun _ _ hs => ⟨hf, hs⟩

/-- A condition before a program. -/
theorem require {holds : Bool} {e : ε} {g : Unit → Work ε α} (hP : Steady v aim P)
    (ht : holds = true → Brings v aim P (g ()) Q)
    (he : holds = false → ∀ s, P s → aim.fails e) :
    Brings v aim P (Program.require holds e >>= g) Q := by
  cases holds with
  | true => exact ht rfl
  | false => exact throw hP (he rfl)

/-- A question that is none of a call. -/
theorem ask {q : Question} {g : Answer q → Work ε α} (hq : ∀ call, q ≠ .api call)
    (hP : Steady v aim P) (hg : ∀ a, Brings v aim P (g a) Q) :
    Brings v aim P (Import.ask q >>= g) Q := by
  constructor
  intro start events outcome last hs ht hv
  rcases Trace.of_query_bind ht with ⟨rfl, rfl⟩ | ⟨a, rest, rfl, ha⟩
  · exact unasked hP (by simp) (by simp) (by simp) hs hv
  · rw [sendings_aside hq] at hv ⊢
    exact (hg a).meets hs ha hv

/-- A program that fails, but tells. -/
theorem attempt {ε' : Type} {aim' : Aim σ ε'} (h : Brings v aim P p Q)
    (hsends : ∀ request, aim.sends request → aim'.sends request)
    (halways : ∀ s, aim.always s → aim'.always s) (haborts : aim.aborts → aim'.aborts) :
    Brings v aim' P p.attempt fun r s => match r with
      | .ok a => Q a s
      | .error e => aim.fails e ∧ aim.always s := by
  constructor
  intro start events outcome last hs ht hv
  obtain ⟨inner, hp, rfl⟩ := Trace.of_attempt ht
  have hm := h.meets hs hp hv
  refine ⟨fun sending hx => hsends _ (hm.sent sending hx), halways _ hm.always, ?_, ?_, ?_⟩
  all_goals rcases inner with - | (a | e | reason)
  all_goals simp only [Option.map_none, Option.map_some, Outcome.attempt, Option.some.injEq,
    Outcome.done.injEq, reduceCtorEq, false_implies, implies_true]
  · rintro r rfl
    exact hm.result a rfl
  · rintro r rfl
    exact ⟨hm.failure e rfl, hm.always⟩
  · exact fun _ _ => haborts (hm.abort reason rfl)

end Brings

/-! ## Calls -/

section Calls

variable {client : Api.Client} {request : Api.Request} {γ : Type}

/-- Carries a request out, where `k` tells what its outcome means. -/
def requesting (client : Api.Client) (request : Api.Request)
    (k : Except Api.Error (List UInt8) → Except Api.Error γ) : Work Error γ := do
  Program.ofExcept ((k (← attempting (client.execute request))).mapError .api)

theorem bind_assoc (p : Work ε α) (f : α → Work ε β) (g : β → Work ε γ) :
    p >>= f >>= g = p >>= fun a => f a >>= g := by
  induction p with
  | done | failed | aborted => rfl
  | ask q next ih => exact congrArg (Program.ask q) (funext fun a => ih a)

theorem attempting_bind (p : Api.Call α) (f : α → Api.Call β) :
    (attempting (p >>= f) : Work ε (Except Api.Error β)) = attempting p >>= fun r =>
      match r with
      | .ok a => attempting (f a)
      | .error e => Pure.pure (.error e) := by
  induction p with
  | done | failed | aborted => rfl
  | ask q next ih => exact congrArg (Program.ask (Question.api q)) (funext fun a => ih a)

theorem calling_eq (call : Api.Call α) :
    calling call = attempting call >>= fun r => Program.ofExcept (r.mapError .api) := by
  induction call with
  | done | failed | aborted => rfl
  | ask q next ih => exact congrArg (Program.ask (Question.api q)) (funext fun a => ih a)

/-- What the outcome of a call that reads says. -/
def decoded (client : Api.Client) (endpoint : Api.Endpoint) (decoder : Json.Decoder γ) :
    Except Api.Error (List UInt8) → Except Api.Error γ
  | .ok body =>
    match Api.Client.read decoder body with
    | some c => .ok c
    | none => .error (.decode endpoint.path (client.library.bodyFault endpoint body))
  | .error e => .error e

theorem attempting_perform : (attempting (client.perform request) : Work ε _) =
    attempting (client.execute request) >>= fun r => Pure.pure (r.map fun _ => ()) := by
  refine (attempting_bind _ _).trans (congrArg _ (funext fun r => ?_))
  cases r <;> rfl

theorem attempting_fetch {endpoint : Api.Endpoint} {decoder : Json.Decoder γ} :
    (attempting (client.fetch endpoint decoder) : Work ε _) =
      attempting (client.execute ⟨.get, endpoint, .empty⟩) >>= fun r =>
        Pure.pure (decoded client endpoint decoder r) := by
  refine (attempting_bind _ _).trans (congrArg _ (funext fun r => ?_))
  cases r with
  | error => rfl
  | ok body => cases hr : Api.Client.read decoder body <;> simp only [decoded, hr] <;> rfl

/-- What a service makes of a call that starts in states with `J` : replies that another attempt may
mend leave such a state, and the call ends as `Q` says. When the attempts are used up, any error
that tells of no verdict may be reported. -/
structure Judged (v : Behaviour σ) (aim : Aim σ ε) (J : σ → Prop) (request : Api.Request)
    (Q : Except Api.Error (List UInt8) → σ → Prop) : Prop where
  sends : aim.sends request
  before : Steady v aim J
  after : ∀ r, Steady v aim (Q r)
  again : ∀ {s reply s' e}, J s → v.treats s request reply s' →
    Api.Client.settle request reply = .error e → e.isRetryable = true →
      J s' ∧ ∀ reported : Api.Error, reported.Passing → Q (.error reported) s'
  settled : ∀ {s reply s'}, J s → v.treats s request reply s' →
    (∀ e, Api.Client.settle request reply = .error e → e.isRetryable = false) →
      Q (Api.Client.settle request reply) s'

namespace Judged

variable {J : σ → Prop} {Q : Except Api.Error (List UInt8) → σ → Prop}

/-- A call that has ended. -/
theorem ended (h : Judged v aim J request Q) {r : Except Api.Error (List UInt8)} {reply : Api.Reply}
    {wait : List Event} (hwait : sendings wait = [])
    (hq : ∀ s s', J s → v.treats s request reply s' → Q r s') (hs : J start)
    (hv : v.Serves start (sendings (⟨.api (.send request), reply⟩ :: wait)) last)
    {outcome : Option (Outcome ε (Except Api.Error (List UInt8)))}
    (ho : outcome = some (.done r)) :
    Meets aim Q (sendings (⟨.api (.send request), reply⟩ :: wait)) outcome last := by
  rw [sendings_send, hwait] at hv ⊢
  obtain ⟨before, after, h₁, t, h₂⟩ := hv.of_cons
  have hafter : Q r after := hq before after (h.before.lasts.of_serves h₁ hs) t
  have hlast : Q r last := (h.after r).lasts.of_serves h₂ hafter
  subst ho
  refine ⟨by simpa using h.sends, (h.after r).within _ hlast, fun r' hr => ?_, by simp, by simp⟩
  obtain rfl : r = r' := by simpa using hr
  exact hlast

/-- A failure that another attempt may mend, however the call goes on. -/
theorem mendable (h : Judged v aim J request Q) {reply : Api.Reply} {e : Api.Error}
    {sent : List (Api.Request × Api.Reply)} (hr : Api.Client.settle request reply = .error e)
    (he : e.isRetryable = true) (hs : J start)
    (hv : v.Serves start ((request, reply) :: sent) last) :
    ∃ after, J after ∧ v.Serves after sent last := by
  obtain ⟨before, after, h₁, t, h₂⟩ := hv.of_cons
  exact ⟨after, (h.again (h.before.lasts.of_serves h₁ hs) t hr he).1, h₂⟩

/-- By induction on the attempts that are left; every failure so far is one that another attempt may
mend, so it tells of no verdict. -/
theorem meets_executeFrom (h : Judged v aim J request Q) (policy : Api.RetryPolicy) :
    ∀ {left : Nat} {state : Api.RetryState} {events : List (Program.Event Api.Answer)}
      {outcome : Option (Outcome Api.Error (List UInt8))} {start last : σ},
      (∀ e, state.first = some e → e.isRetryable = true) → J start →
      Trace (Api.Client.executeFrom policy request left state) events outcome →
      v.Serves start (sendings (events.map ofCall)) last →
        Meets aim Q (sendings (events.map ofCall))
          (outcome.map Outcome.attempt : Option (Outcome ε (Except Api.Error (List UInt8)))) last
  | left, state, events, outcome, start, last, hfirst, hs, ht, hv => by
    have hmendable {e : Api.Error} (he : e.isRetryable = true) :
        (state.first.getD e).isRetryable = true := by
      cases hf : state.first with
      | none => exact he
      | some first => exact hfirst first hf
    cases Api.Client.attempt_of_executeFrom ht with
    | unsent => exact Brings.unasked h.before (by simp) (by simp) (by simp) hs hv
    | answered hr =>
      exact h.ended rfl (fun _ _ hs ht => hr ▸ h.settled hs ht (by simp [hr])) hs hv rfl
    | refused hr he =>
      refine h.ended rfl (fun _ _ hs ht => hr ▸ h.settled hs ht fun e' he' => ?_) hs hv rfl
      exact Except.error.inj (hr.symm.trans he') ▸ he
    | @givenUp _ reply e reported hr he hreported =>
      have hpassing : reported.Passing := by
        rcases hreported with rfl | rfl
        · exact Or.inl he
        · exact Or.inl (hmendable he)
      exact h.ended rfl (fun _ _ hs ht => (h.again hs ht hr he).2 _ hpassing) hs hv rfl
    | waiting hr he =>
      obtain ⟨after, hafter, hv⟩ := h.mendable hr he hs hv
      have hlast := h.before.lasts.of_serves hv hafter
      exact ⟨by simpa [ofCall] using h.sends, h.before.within _ hlast, by simp, by simp, by simp⟩
    | interrupted span hr he =>
      exact h.ended rfl (fun _ _ hs ht => (h.again hs ht hr he).2 _ (Or.inr rfl)) hs hv rfl
    | @again left reply e next rest _ span hr he hnext hrest =>
      obtain ⟨after, hafter, hv⟩ := h.mendable hr he hs hv
      have hfirst' : ∀ e', next.first = some e' → e'.isRetryable = true := by
        rintro e' he'
        exact Option.some.inj (hnext.symm.trans he') ▸ hmendable he
      have hm := h.meets_executeFrom policy hfirst' hafter hrest hv
      exact { hm with sent := List.forall_mem_cons.2 ⟨h.sends, hm.sent⟩ }

theorem attempting (h : Judged v aim J request Q) :
    Brings v aim J (attempting (client.execute request)) Q := by
  constructor
  intro start events outcome last hs ht hv
  obtain ⟨inner, result, rfl, hc, rfl⟩ := of_attempting ht
  exact h.meets_executeFrom client.policy (by simp [Api.RetryState.start]) hs hc hv

end Judged

/-- What a reply tells of what was asked for. -/
inductive Verdict
  | taken
  /-- It is there already, or the state is not the one for it. -/
  | conflict
  | missing
  /-- It does not tell. -/
  | lost
deriving DecidableEq

/-- The verdict of a reply. -/
def verdict (request : Api.Request) (reply : Api.Reply) : Verdict :=
  match Api.Client.settle request reply with
  | .ok _ => .taken
  | .error e => if e.isConflict then .conflict else if e.isNotFound then .missing else .lost

/-- A reply and its verdict. -/
theorem verdict_cases (request : Api.Request) (reply : Api.Reply) :
    (∃ body, Api.Client.settle request reply = .ok body ∧ verdict request reply = .taken) ∨
    (∃ e, Api.Client.settle request reply = .error e ∧ e.isConflict = true ∧
      verdict request reply = .conflict) ∨
    (∃ e, Api.Client.settle request reply = .error e ∧ e.isConflict = false ∧
      e.isNotFound = true ∧ verdict request reply = .missing) ∨
    ∃ e, Api.Client.settle request reply = .error e ∧ e.isConflict = false ∧
      e.isNotFound = false ∧ verdict request reply = .lost := by
  unfold verdict
  cases Api.Client.settle request reply with
  | ok body => exact Or.inl ⟨body, rfl, rfl⟩
  | error e =>
    refine Or.inr ?_
    cases hc : e.isConflict <;> cases hn : e.isNotFound <;> simp [hc, hn]

/-- A call that may find nothing says so when that is the verdict. -/
theorem missing_or_decoded {endpoint : Api.Endpoint} {decoder : Json.Decoder γ}
    {reply : Api.Reply} {r : Option γ}
    (h : Api.ignoreNotFound (decoded client endpoint decoder
      (Api.Client.settle request reply)) = .ok r) :
    (r = none ∧ verdict request reply = .missing) ∨
      ∃ c, r = some c ∧
        decoded client endpoint decoder (Api.Client.settle request reply) = .ok c := by
  cases hd : decoded client endpoint decoder (Api.Client.settle request reply) with
  | ok c => exact Or.inr ⟨c, by simpa [hd, Api.ignoreNotFound, eq_comm] using h, rfl⟩
  | error e =>
    rw [hd, Api.ignoreNotFound] at h
    split at h
    next he =>
      obtain rfl : r = none := by simpa [eq_comm] using h
      refine Or.inl ⟨rfl, ?_⟩
      cases hs : Api.Client.settle request reply with
      | ok body =>
        rw [hs, decoded] at hd
        split at hd
        · cases hd
        · obtain rfl := Except.error.inj hd
          cases he
      | error e' =>
        obtain rfl : e' = e := by simpa [hs, decoded] using hd
        cases e' <;> simp_all [verdict, Api.Error.isConflict, Api.Error.isNotFound]
    next => cases h

theorem decoded_eq_ok_iff {endpoint : Api.Endpoint} {decoder : Json.Decoder γ}
    {r : Except Api.Error (List UInt8)} {c : γ} : decoded client endpoint decoder r = .ok c ↔
      ∃ body, r = .ok body ∧ Api.Client.read decoder body = some c := by
  cases r with
  | error e => simp [decoded]
  | ok body => cases hr : Api.Client.read decoder body <;> simp [decoded, hr]

/-- A look that shows a session. -/
theorem decoded_iff_seen {name : String} {shown : Api.Session} {reply : Api.Reply} :
    decoded client (.sessionShow name) Api.Session.decoder
      (Api.Client.settle (lookAt name) reply) = .ok shown ↔ seen name reply = some shown := by
  rw [decoded_eq_ok_iff, seen]
  cases Api.Client.settle (lookAt name) reply <;> simp

/-- A reply with the verdict that there is nothing. -/
theorem missing_of_verdict {reply : Api.Reply} (h : verdict request reply = .missing) :
    ∃ e, Api.Client.settle request reply = .error e ∧ e.isConflict = false ∧
      e.isNotFound = true := by
  rcases verdict_cases request reply with
    ⟨_, _, hv⟩ | ⟨_, _, _, hv⟩ | ⟨e, he, hc, hn, -⟩ | ⟨_, _, _, _, hv⟩
  · simp [h] at hv
  · simp [h] at hv
  · exact ⟨e, he, hc, hn⟩
  · simp [h] at hv

/-- The request that lists the tables of a database. -/
def listing (database : String) : Api.Request :=
  ⟨.get, .tableList database, .empty⟩

/-- The tables that a reply lists. -/
def listed (database : String) (reply : Api.Reply) : Option (List Api.Table) :=
  match Api.Client.settle (listing database) reply with
  | .ok body => Api.Client.read Api.Table.listDecoder body
  | .error _ => none

theorem decoded_iff_listed {database : String} {tables : List Api.Table} {reply : Api.Reply} :
    decoded client (.tableList database) Api.Table.listDecoder
      (Api.Client.settle (listing database) reply) = .ok tables ↔
        listed database reply = some tables := by
  rw [decoded_eq_ok_iff, listed]
  cases Api.Client.settle (listing database) reply <;> simp

/-- What the outcome of a call comes to. -/
def Landed (aim : Aim σ Error) (R : γ → σ → Prop) : Except Api.Error γ → σ → Prop
  | .ok c, s => R c s
  | .error e, s => aim.fails (.api e) ∧ aim.always s

@[simp] theorem landed_ok {aim : Aim σ Error} {R : γ → σ → Prop} {c : γ} :
    Landed aim R (.ok c) s ↔ R c s :=
  Iff.rfl

@[simp] theorem landed_error {aim : Aim σ Error} {R : γ → σ → Prop} {e : Api.Error} :
    Landed aim R (.error e) s ↔ aim.fails (.api e) ∧ aim.always s :=
  Iff.rfl

theorem steady_landed {aim : Aim σ Error} {R : γ → σ → Prop} (hR : ∀ c, Steady v aim (R c))
    (halways : v.Lasts aim.always) : ∀ r, Steady v aim (Landed aim R r)
  | .ok c => hR c
  | .error _ => ⟨fun s s' m h => ⟨h.1, halways s s' m h.2⟩, fun _ h => h.2⟩

/-- A call is judged by the verdicts of the replies. -/
theorem Judged.of_verdicts {aim : Aim σ Error} {J : σ → Prop} {R : γ → σ → Prop}
    {k : Except Api.Error (List UInt8) → Except Api.Error γ} (hsends : aim.sends request)
    (hJ : Steady v aim J) (hR : ∀ c, Steady v aim (R c)) (halways : v.Lasts aim.always)
    (hk : ∀ e, e.isConflict = false → e.isNotFound = false → k (.error e) = .error e)
    (hlost : ∀ s reply s', J s → v.treats s request reply s' → verdict request reply = .lost →
      J s' ∧ ∀ e, aim.fails (.api e))
    (htold : ∀ s reply s', J s → v.treats s request reply s' → verdict request reply ≠ .lost →
      Landed aim R (k (Api.Client.settle request reply)) s') :
    Judged v aim J request fun r => Landed aim R (k r) := by
  have failed {e : Api.Error} {s : σ} (hs : J s) (hf : ∀ e, aim.fails (.api e))
      (hc : e.isConflict = false) (hn : e.isNotFound = false) :
      Landed aim R (k (.error e)) s := by
    rw [hk e hc hn]
    exact ⟨hf e, hJ.within s hs⟩
  refine ⟨hsends, hJ, fun r => steady_landed hR halways (k r), ?_, ?_⟩
  · intro s reply s' e hs ht he hretry
    have hl : verdict request reply = .lost := by
      have hp : e.Passing := Or.inl hretry
      simp [verdict, he, hp.not_conflict, hp.not_missing]
    obtain ⟨hs', hf⟩ := hlost s reply s' hs ht hl
    exact ⟨hs', fun reported hp => failed hs' hf hp.not_conflict hp.not_missing⟩
  · intro s reply s' hs ht _
    by_cases hl : verdict request reply = .lost
    · obtain ⟨hs', hf⟩ := hlost s reply s' hs ht hl
      rcases verdict_cases request reply with
        ⟨_, _, h⟩ | ⟨_, _, _, h⟩ | ⟨_, _, _, _, h⟩ | ⟨e, he, hc, hn, -⟩
      · simp [h] at hl
      · simp [h] at hl
      · simp [h] at hl
      · rw [he]
        exact failed hs' hf hc hn
    · exact htold s reply s' hs ht hl

/-- A call that fails when it is not judged well. -/
theorem Judged.requesting {aim : Aim σ Error} {J : σ → Prop} {R : γ → σ → Prop}
    {k : Except Api.Error (List UInt8) → Except Api.Error γ}
    (h : Judged v aim J request fun r => Landed aim R (k r)) :
    Brings v aim J (requesting client request k) R := by
  refine h.attempting.bind fun r => Brings.ofExcept (h.after r) ?_ ?_
  · intro s c hc hl
    simpa [ok_of_mapError hc] using hl
  · intro s e he hl
    obtain ⟨e, hr, rfl⟩ := error_of_mapError he
    simp only [hr, landed_error] at hl
    exact hl.1

/-- A call that reads, and tells when it fails. -/
theorem Judged.fetching {aim : Aim σ Error} {J : σ → Prop} {R : γ → σ → Prop}
    {endpoint : Api.Endpoint} {decoder : Json.Decoder γ}
    (h : Judged v aim J ⟨.get, endpoint, .empty⟩ fun r =>
      Landed aim R (decoded client endpoint decoder r)) :
    Brings v aim J (Import.attempting (client.fetch endpoint decoder)) (Landed aim R) := by
  rw [attempting_fetch]
  exact h.attempting.bind fun r => Brings.pure (h.after r) fun _ => id

/-! The calls of an import, told by the outcome of the request. -/

theorem calling_perform : calling (client.perform request) =
    Import.requesting client request fun r => r.map fun _ => () := by
  rw [calling_eq, attempting_perform]
  exact bind_assoc _ _ _

theorem callingOrConflict_perform : callingOrConflict (client.perform request) =
    Import.requesting client request fun r => Api.ignoreConflict (r.map fun _ => ()) := by
  rw [callingOrConflict, attempting_perform]
  exact bind_assoc _ _ _

theorem callingOrMissing_perform : callingOrMissing (client.perform request) =
    Import.requesting client request fun r => Api.ignoreNotFound (r.map fun _ => ()) := by
  rw [callingOrMissing, attempting_perform]
  exact bind_assoc _ _ _

variable {endpoint : Api.Endpoint} {decoder : Json.Decoder γ}

theorem calling_fetch : calling (client.fetch endpoint decoder) =
    Import.requesting client ⟨.get, endpoint, .empty⟩ (decoded client endpoint decoder) := by
  rw [calling_eq, attempting_fetch]
  exact bind_assoc _ _ _

theorem callingOrMissing_fetch : callingOrMissing (client.fetch endpoint decoder) =
    Import.requesting client ⟨.get, endpoint, .empty⟩ fun r =>
      Api.ignoreNotFound (decoded client endpoint decoder r) := by
  rw [callingOrMissing, attempting_fetch]
  exact bind_assoc _ _ _

end Calls

/-! ## Programs that keep a property -/

/-- All requests that a program can make are allowed, and none of them ends a property of the
states. -/
theorem Brings.of_keeps {N : Question → Prop} {S : Api.Request → Prop} {K : α → Prop} {J : σ → Prop}
    (h : p.Keeps N K) (hN : ∀ request, N (.api (.send request)) → S request)
    (hJ : Steady v aim J) (hsends : ∀ request, S request → aim.sends request)
    (hkept : ∀ request, S request → ∀ s reply s', J s → v.treats s request reply s' → J s')
    (hfails : ∀ e, aim.fails e) (haborts : aim.aborts) :
    Brings v aim J p fun a s => K a ∧ J s := by
  constructor
  intro start events outcome last hs ht hv
  obtain ⟨hevents, hresult⟩ := h.of_trace ht
  have hsent : ∀ sending ∈ sendings events, S sending.1 := by
    rintro ⟨request, reply⟩ hm
    exact hN _ (hevents _ (mem_sendings.1 hm))
  have hlast : J last := hv.keeps hJ.lasts (fun sending hm => hkept _ (hsent sending hm)) hs
  exact ⟨fun sending hm => hsends _ (hsent sending hm), hJ.within _ hlast,
    fun a ha => ⟨hresult a ha, hlast⟩, fun e _ => hfails e, fun _ _ => haborts⟩

/-! ## Visits -/

/-- A run of a program at a service, with the requests that are sent, its outcome and the state
then. A run that is cut off has no outcome; its last request may take effect all the same. -/
inductive Visit (v : Behaviour σ) (p : Work ε α) (log : List Happening) (start : σ) :
    List Api.Request → Option (Outcome ε α) → σ → Prop
  | answered {outcome : Option (Outcome ε α)} {last : σ} (ht : Trace p (own log) outcome)
    (hs : v.Serves start (traffic log) last) :
    Visit v p log start ((traffic log).map Prod.fst) outcome last
  | unanswered {request : Api.Request} {reply : Api.Reply}
    {next : Answer (.api (.send request)) → Work ε α} {mid last : σ}
    (hl : Leads p (own log) (.ask (.api (.send request)) next))
    (hs : v.Serves start (traffic log) mid) (hr : v.treats mid request reply last) :
    Visit v p log start ((traffic log).map Prod.fst ++ [request]) none last

/-- A visit of a program that starts no uploads. -/
theorem Visit.of_trace {events : List Event} {outcome : Option (Outcome ε α)}
    (ht : Trace p events outcome) (hs : v.Serves start (sendings events) last) :
    Visit v p (events.map .own) start ((sendings events).map Prod.fst) outcome last := by
  have hv : Visit v p (events.map .own) start _ outcome last :=
    .answered (by rwa [own_map_own]) (by rwa [traffic_own])
  rwa [traffic_own] at hv

/-- A visit that is cut off when a request of a longer one is not answered. -/
theorem Visit.of_cut {log : List Happening} {outcome : Option (Outcome ε α)} {n : Nat}
    {request : Api.Request} {reply reply' : Api.Reply} {mid : σ} (ht : Trace p (own log) outcome)
    (hn : (log[n]?).bind Happening.ownSending? = some (request, reply))
    (hs : v.Serves start (traffic (log.take n)) mid) (hr : v.treats mid request reply' last) :
    Visit v p (log.take n) start ((traffic (log.take n)).map Prod.fst ++ [request]) none last := by
  have hown := (congrArg own (split_of_ownSending? hn)).trans (own_append _ _)
  rw [own_cons_own] at hown
  have hasked : (own log)[(own (log.take n)).length]? = some ⟨.api (.send request), reply⟩ := by
    rw [hown]
    simp
  obtain ⟨next, hl⟩ := ht.leads hasked
  rw [hown] at hl
  rw [List.take_left] at hl
  exact .unanswered hl hs hr

/-- What comes of a visit, where `requests` are those of the program itself. -/
structure Visited (aim : Aim σ ε) (Q : α → σ → Prop) (log : List Happening)
    (requests : List Api.Request) (outcome : Option (Outcome ε α)) (last : σ) : Prop where
  sent : ∀ request ∈ requests, aim.sends request ∨
    ∃ ticket content reply, .beside ticket content ⟨.api (.send request), reply⟩ ∈ log
  always : aim.always last
  result : ∀ a, outcome = some (.done a) → Q a last
  failure : ∀ e, outcome = some (.failed e) → aim.fails e
  abort : ∀ reason, outcome = some (.aborted reason) → aim.aborts

/-- What is brought by a program is so on every visit, if the service takes no notice of the
uploads. -/
theorem Brings.of_visit {log : List Happening} {requests : List Api.Request}
    {outcome : Option (Outcome ε α)} (h : Brings v aim P p Q)
    (hv : Visit v p log start requests outcome last) (hs : P start)
    (hbeside : ∀ ticket content request reply,
      .beside ticket content ⟨.api (.send request), reply⟩ ∈ log →
        ∀ s s', v.treats s request reply s' → s' = s) :
    Visited aim Q log requests outcome last := by
  have sent (hsent : ∀ sending ∈ sendings (own log), aim.sends sending.1) :
      ∀ request ∈ (traffic log).map Prod.fst, aim.sends request ∨
        ∃ ticket content reply, .beside ticket content ⟨.api (.send request), reply⟩ ∈ log := by
    intro request hm
    obtain ⟨⟨request, reply⟩, ht, rfl⟩ := List.mem_map.1 hm
    rcases of_mem_traffic ht with ho | ⟨ticket, content, hm⟩
    · exact Or.inl (hsent _ ho)
    · exact Or.inr ⟨ticket, content, reply, hm⟩
  cases hv with
  | answered ht hserves =>
    have hm := h.meets hs ht (hserves.of_traffic hbeside)
    exact ⟨sent hm.sent, hm.always, hm.result, hm.failure, hm.abort⟩
  | @unanswered request reply next mid last hl hserves hr =>
    -- Had the answer been seen, the program would meet its aim as well.
    obtain ⟨outcome, hrest⟩ := Program.exists_trace (next reply)
    have hm := h.meets hs (hl.trace (.ask reply hrest)) (by
      rw [sendings_append]
      exact (hserves.of_traffic hbeside).append (.treated hr (.nil last)))
    have hsent := hm.sent
    rw [sendings_append, List.forall_mem_append] at hsent
    refine ⟨List.forall_mem_append.2 ⟨sent hsent.1, ?_⟩, hm.always, by simp, by simp, by simp⟩
    simpa using Or.inl (hsent.2 (request, reply) (by simp))

end Import

end BulkLoad
