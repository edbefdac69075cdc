import BulkLoad.Import.SessionDriver
import BulkLoad.Proofs.Api.Exchange

/-!
# Notes on a session

What matters of a trace to a session is what the service tells of it and which calls are made : the
`notes` on a trace. An attempt that repeats the last one after a wait is not noted again, so the
notes do not depend on how often the calls are retried.

A program is `Tidy` when none of its traces ends between two attempts of a call, and no request
escapes notice. Tidy programs can be put one after the other, and so can the notes on them
(`Noted.of_bind`).
-/

namespace BulkLoad.Import

open Program (Trace Stopped)

/-- A question of an import with its answer. -/
abbrev Event : Type := Program.Event Answer

/-- A question of a call, as one of an import. -/
def ofCall (e : Program.Event Api.Answer) : Event :=
  ⟨.api e.1, e.2⟩

variable {ε α β : Type}

theorem of_calling {call : Api.Call α} {events : List Event} {outcome : Option (Outcome Error α)}
    (h : Trace (calling call) events outcome) :
    ∃ inner result, events = inner.map ofCall ∧ Trace call inner result ∧
      outcome = result.map (.mapError .api) := by
  obtain ⟨result, he, rfl⟩ := Trace.of_mapError h
  obtain ⟨inner, rfl, hc⟩ := Trace.of_embed he
  refine ⟨inner, result, rfl, ?_, rfl⟩
  simpa using hc

theorem of_attempting {call : Api.Call α} {events : List Event}
    {outcome : Option (Outcome ε (Except Api.Error α))}
    (h : Trace (attempting call) events outcome) :
    ∃ inner result, events = inner.map ofCall ∧ Trace call inner result ∧
      outcome = result.map .attempt := by
  obtain ⟨result, he, rfl⟩ := Trace.of_attempt h
  obtain ⟨inner, rfl, hc⟩ := Trace.of_embed he
  refine ⟨inner, result, rfl, ?_, rfl⟩
  simpa using hc

/-! ## Notes -/

/-- The request that looks at a session. -/
def lookAt (name : String) : Api.Request :=
  ⟨.get, .sessionShow name, .empty⟩

/-- What a reply tells of a session. -/
def seen (name : String) (reply : Api.Reply) : Option Api.Session :=
  match Api.Client.settle (lookAt name) reply with
  | .ok body => Api.Client.read Api.Session.decoder body
  | .error _ => none

/-- What is noted of a trace. -/
inductive Note
  /-- The service has told how the session is. -/
  | shown (session : Api.Session)
  /-- A call other than a look at the session is made. -/
  | called (request : Api.Request)
deriving DecidableEq

/-- What is noted of one event, where `again` says that it may be another attempt. -/
def note (name : String) (again : Bool) : Event → List Note
  | ⟨.api (.send request), reply⟩ =>
    if request = lookAt name then (seen name reply).toList.map .shown
    else if again then [] else [.called request]
  | _ => []

/-- Whether a request that follows is another attempt. -/
def retries : Event → Bool
  | ⟨.api (.wait _), cancelled⟩ => !(cancelled : Bool)
  | _ => false

@[simp] theorem retries_wait (span : Api.Span) (cancelled : Bool) :
    retries ⟨.api (.wait span), cancelled⟩ = !cancelled :=
  rfl

/-- The notes on a trace. -/
def notes (name : String) : (again : Bool) → List Event → List Note
  | _, [] => []
  | again, e :: rest => note name again e ++ notes name (retries e) rest

/-- Whether a request that follows a trace is another attempt. -/
def retrying : (again : Bool) → List Event → Bool
  | again, [] => again
  | _, e :: rest => retrying (retries e) rest

theorem notes_append (name : String) : ∀ (again : Bool) (first rest : List Event),
    notes name again (first ++ rest) =
      notes name again first ++ notes name (retrying again first) rest
  | _, [], _ => rfl
  | again, e :: first, rest => by
    simp only [List.cons_append, notes, retrying, notes_append name (retries e) first rest,
      List.append_assoc]

theorem retrying_append : ∀ (again : Bool) (first rest : List Event),
    retrying again (first ++ rest) = retrying (retrying again first) rest
  | _, [], _ => rfl
  | _, e :: first, rest => retrying_append (retries e) first rest

/-- What is noted as shown was told in an answer. -/
theorem seen_of_mem_notes {name : String} {s : Api.Session} :
    ∀ {again : Bool} {events : List Event}, Note.shown s ∈ notes name again events →
      ∃ reply, (⟨.api (.send (lookAt name)), reply⟩ : Event) ∈ events ∧ seen name reply = some s
  | _, [], h => by simp [notes] at h
  | again, e :: rest, h => by
    rcases List.mem_append.1 h with h | h
    · unfold note at h
      split at h
      case h_1 request reply _ =>
        split at h
        next hr =>
          subst hr
          refine ⟨reply, List.mem_cons_self, ?_⟩
          simpa using h
        next => split at h <;> simp at h
      case h_2 => simp at h
    · obtain ⟨reply, hm, hs⟩ := seen_of_mem_notes h
      exact ⟨reply, List.mem_cons_of_mem _ hm, hs⟩

/-- What is noted as called was sent. -/
theorem sent_of_mem_notes {name : String} {request : Api.Request} :
    ∀ {again : Bool} {events : List Event}, Note.called request ∈ notes name again events →
      ∃ reply, (⟨.api (.send request), reply⟩ : Event) ∈ events
  | _, [], h => by simp [notes] at h
  | again, e :: rest, h => by
    rcases List.mem_append.1 h with h | h
    · unfold note at h
      split at h
      case h_1 sent reply _ =>
        split at h
        · simp at h
        · split at h
          · simp at h
          · obtain rfl : request = sent := by simpa using h
            exact ⟨reply, List.mem_cons_self⟩
      case h_2 => simp at h
    · obtain ⟨reply, hm⟩ := sent_of_mem_notes h
      exact ⟨reply, List.mem_cons_of_mem _ hm⟩

/-! ## Notes on one call -/

section Exchange

variable {name : String} {request : Api.Request} {inner : List (Program.Event Api.Answer)}
  {result : Option (Outcome Api.Error (List UInt8))}

theorem retrying_exchange (h : Api.Exchange request inner result) (hr : result ≠ none)
    (again : Bool) : retrying again (inner.map ofCall) = false := by
  induction h generalizing again with
  | unsent | waiting => exact absurd rfl hr
  | answered | refused | interrupted => rfl
  | again span h he rest ih => exact ih hr true

/-- The session that a call shows. -/
def shownBy : Option (Outcome Api.Error (List UInt8)) → Option Api.Session
  | some (.done body) => Api.Client.read Api.Session.decoder body
  | _ => none

theorem notes_look (h : Api.Exchange (lookAt name) inner result) (again : Bool) :
    notes name again (inner.map ofCall) = (shownBy result).toList.map .shown := by
  induction h generalizing again with
  | unsent => rfl
  | answered hs => simp [notes, note, ofCall, seen, hs, shownBy]
  | refused hs | waiting hs | interrupted _ hs =>
    simp [notes, note, ofCall, seen, hs, shownBy]
  | again span hs he rest ih =>
    simpa [notes, note, ofCall, seen, hs] using ih true

theorem notes_call (hn : request ≠ lookAt name) (h : Api.Exchange request inner result) :
    notes name true (inner.map ofCall) = [] ∧
      (inner ≠ [] → notes name false (inner.map ofCall) = [.called request]) := by
  induction h with
  | unsent => simp [notes]
  | answered | refused | waiting | interrupted => simp [notes, note, ofCall, hn]
  | again span hs he rest ih =>
    constructor
    · simpa [notes, note, ofCall, hn] using ih.1
    · intro
      simpa [notes, note, ofCall, hn] using ih.1

end Exchange

/-- A look at a session is not noted as a call, any other request is. -/
theorem noticed_exchange {name : String} {request sent : Api.Request} {reply : Api.Reply}
    {inner : List (Program.Event Api.Answer)} {result : Option (Outcome Api.Error (List UInt8))}
    (h : Api.Exchange request inner result)
    (hm : (⟨.api (.send sent), reply⟩ : Event) ∈ inner.map ofCall) :
    sent = lookAt name ∨ .called sent ∈ notes name false (inner.map ofCall) := by
  obtain ⟨⟨q, a⟩, hi, he⟩ := List.mem_map.1 hm
  obtain ⟨rfl, ha⟩ : q = .send sent ∧ HEq a reply := by simpa [ofCall] using he
  obtain rfl := h.request_eq hi
  by_cases hs : sent = lookAt name
  · exact Or.inl hs
  · rw [(notes_call hs h).2 (List.ne_nil_of_mem hi)]
    exact Or.inr (List.mem_singleton_self _)

/-! ## Notes on programs -/

/-- What holds of the traces of tidy programs. -/
structure Noticed (name : String) (events : List Event) (ended : Prop) : Prop where
  /-- No call is left between two attempts. -/
  settled : ended → retrying false events = false
  /-- Every request is noticed. -/
  noticed : ∀ request reply, (⟨.api (.send request), reply⟩ : Event) ∈ events →
    request = lookAt name ∨ .called request ∈ notes name false events

/-- No trace of the program ends between two attempts of a call, and every request is noticed. -/
def Tidy (name : String) (p : Work ε α) : Prop :=
  ∀ events outcome, Trace p events outcome → Noticed name events (outcome ≠ none)

/-- `Noted name p ns outcome` says that `p` can have the outcome on a trace with the notes `ns`. -/
def Noted (name : String) (p : Work ε α) (ns : List Note) (outcome : Option (Outcome ε α)) :
    Prop :=
  ∃ events, Trace p events outcome ∧ notes name false events = ns

theorem Noticed.nil {name : String} {ended : Prop} : Noticed name [] ended :=
  ⟨fun _ => rfl, fun _ _ h => by simp at h⟩

theorem Noticed.append {name : String} {first rest : List Event} {ended : Prop}
    (h₁ : Noticed name first True) (h₂ : Noticed name rest ended) :
    Noticed name (first ++ rest) ended where
  settled h := by rw [retrying_append, h₁.settled trivial, h₂.settled h]
  noticed request reply hm := by
    rw [notes_append, h₁.settled trivial]
    rcases List.mem_append.1 hm with hm | hm
    · exact (h₁.noticed request reply hm).imp_right (List.mem_append_left _)
    · exact (h₂.noticed request reply hm).imp_right (List.mem_append_right _)

/-- A question that is none of a call goes unnoticed. -/
theorem unnoticed (name : String) {q : Question} (hq : ∀ call, q ≠ .api call) (a : Answer q) :
    note name false ⟨q, a⟩ = [] ∧ retries ⟨q, a⟩ = false := by
  cases q with
  | api call => exact absurd rfl (hq call)
  | _ => exact ⟨rfl, rfl⟩

namespace Tidy

variable {name : String}

theorem pure (a : α) : Tidy name (Pure.pure a : Work ε α) := by
  intro events outcome h
  rw [(Trace.of_pure h).1]
  exact .nil

theorem throw (e : ε) : Tidy name (MonadExcept.throw e : Work ε α) := by
  intro events outcome h
  rw [(Trace.of_throw h).1]
  exact .nil

theorem ofExcept (r : Except ε α) : Tidy name (Program.ofExcept r : Work ε α) := by
  cases r with
  | ok a => exact pure a
  | error e => exact throw e

theorem require (holds : Bool) (e : ε) : Tidy name (Program.require holds e : Work ε Unit) := by
  cases holds with
  | true => exact pure ()
  | false => exact throw e

theorem bind {p : Work ε α} {f : α → Work ε β} (hp : Tidy name p) (hf : ∀ a, Tidy name (f a)) :
    Tidy name (p >>= f) := by
  intro events outcome h
  rcases Trace.of_bind h with ⟨first, a, rest, rfl, h₁, h₂⟩ | ⟨stop, h₁, hs⟩
  · have hn := hp first _ h₁
    exact .append ⟨fun _ => hn.settled (by simp), hn.noticed⟩ (hf a rest outcome h₂)
  · have hn := hp events stop h₁
    refine ⟨fun ho => hn.settled ?_, hn.noticed⟩
    cases hs <;> simp_all

/-- A question that is none of a call. -/
theorem ask {q : Question} (hq : ∀ call, q ≠ .api call) :
    Tidy name (ask q : Work ε (Answer q)) := by
  intro events outcome h
  rcases Trace.of_query h with ⟨rfl, rfl⟩ | ⟨a, rfl, rfl⟩
  · exact .nil
  · refine ⟨fun _ => (unnoticed name hq a).2, fun request reply hm => ?_⟩
    obtain ⟨rfl, -⟩ : Question.api (.send request) = q ∧ _ := by simpa using hm
    exact absurd rfl (hq _)

/-- A call whose traces are exchanges. -/
theorem attempting {call : Api.Call α} (request : Api.Request)
    (hc : ∀ {inner result}, Trace call inner result → ∃ result',
      Api.Exchange request inner result' ∧ (result' = none → result = none)) :
    Tidy name (attempting call : Work ε (Except Api.Error α)) := by
  intro events outcome h
  obtain ⟨inner, result, rfl, ht, rfl⟩ := of_attempting h
  obtain ⟨result', he, hn⟩ := hc ht
  exact ⟨fun ho => retrying_exchange he (fun h => ho (by simp [hn h])) false,
    fun _ _ hm => noticed_exchange he hm⟩

theorem calling {call : Api.Call α} (request : Api.Request)
    (hc : ∀ {inner result}, Trace call inner result → ∃ result',
      Api.Exchange request inner result' ∧ (result' = none → result = none)) :
    Tidy name (calling call) := by
  intro events outcome h
  obtain ⟨inner, result, rfl, ht, rfl⟩ := of_calling h
  obtain ⟨result', he, hn⟩ := hc ht
  exact ⟨fun ho => retrying_exchange he (fun h => ho (by simp [hn h])) false,
    fun _ _ hm => noticed_exchange he hm⟩

end Tidy

namespace Noted

variable {name : String} {ns : List Note}

theorem of_pure {a : α} {outcome : Option (Outcome ε α)}
    (h : Noted name (Pure.pure a : Work ε α) ns outcome) : ns = [] ∧ outcome = some (.done a) := by
  obtain ⟨events, h, rfl⟩ := h
  obtain ⟨rfl, rfl⟩ := Trace.of_pure h
  exact ⟨rfl, rfl⟩

theorem of_throw {e : ε} {outcome : Option (Outcome ε α)}
    (h : Noted name (MonadExcept.throw e : Work ε α) ns outcome) :
    ns = [] ∧ outcome = some (.failed e) := by
  obtain ⟨events, h, rfl⟩ := h
  obtain ⟨rfl, rfl⟩ := Trace.of_throw h
  exact ⟨rfl, rfl⟩

theorem of_require_bind {holds : Bool} {e : ε} {f : Unit → Work ε α}
    {outcome : Option (Outcome ε α)} (h : Noted name (Program.require holds e >>= f) ns outcome) :
    holds = true ∧ Noted name (f ()) ns outcome ∨ ns = [] ∧ outcome = some (.failed e) := by
  obtain ⟨events, h, rfl⟩ := h
  rcases Trace.of_require_bind h with ⟨ht, h⟩ | ⟨rfl, rfl⟩
  · exact Or.inl ⟨ht, events, h, rfl⟩
  · exact Or.inr ⟨rfl, rfl⟩

/-- A question that nothing is noted of. -/
theorem of_ask_bind {q : Question} {f : Answer q → Work ε α} {outcome : Option (Outcome ε α)}
    (hq : ∀ call, q ≠ .api call) (h : Noted name (Import.ask q >>= f) ns outcome) :
    ns = [] ∧ outcome = none ∨ ∃ a, Noted name (f a) ns outcome := by
  obtain ⟨events, h, rfl⟩ := h
  rcases Trace.of_query_bind h with ⟨rfl, rfl⟩ | ⟨a, rest, rfl, ha⟩
  · exact Or.inl ⟨rfl, rfl⟩
  · refine Or.inr ⟨a, rest, ha, ?_⟩
    have hu := unnoticed name hq a
    rw [notes, hu.1, hu.2, List.nil_append]

/-- Notes on one program after another. -/
theorem of_bind {p : Work ε α} {f : α → Work ε β} {outcome : Option (Outcome ε β)}
    (hp : Tidy name p) (h : Noted name (p >>= f) ns outcome) :
    (∃ first a rest, ns = first ++ rest ∧ Noted name p first (some (.done a)) ∧
      Noted name (f a) rest outcome) ∨
      ∃ stop, Noted name p ns stop ∧ Stopped stop outcome := by
  obtain ⟨events, h, rfl⟩ := h
  rcases Trace.of_bind h with ⟨first, a, rest, rfl, h₁, h₂⟩ | ⟨stop, h₁, hs⟩
  · refine Or.inl ⟨_, a, _, ?_, ⟨first, h₁, rfl⟩, ⟨rest, h₂, rfl⟩⟩
    rw [notes_append, (hp first _ h₁).settled (by simp)]
  · exact Or.inr ⟨stop, ⟨events, h₁, rfl⟩, hs⟩

end Noted

end BulkLoad.Import
