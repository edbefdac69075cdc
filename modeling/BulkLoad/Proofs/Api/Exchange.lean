import BulkLoad.Api.Client
import BulkLoad.Proofs.Program.Trace

/-!
# Exchanges

A call sends one request, over and over, and nothing else. `Exchange` tells how its traces look,
whatever the replies are and however many retries there are : every reply but the last is a failure
that another attempt may mend, and the last one decides. Its consequences speak of calls as a whole,
so that no proof about an import has to look into the retries. Where more is to be known of them,
`Attempt` tells what comes of a single one.
-/

namespace BulkLoad.Api

open Program (Event Trace Keeps)

/-- A question that makes a request with a property, or none. -/
def Sends (P : Request → Prop) (q : Question) : Prop :=
  ∀ request, q = .send request → P request

/-- The trace of one call with its outcome. -/
inductive Exchange (request : Request) :
    List (Event Answer) → Option (Outcome Error (List UInt8)) → Prop
  /-- The request is not answered yet. -/
  | unsent : Exchange request [] none
  | answered {reply : Reply} {body : List UInt8} (h : Client.settle request reply = .ok body) :
    Exchange request [⟨.send request, reply⟩] (some (.done body))
  /-- The call fails; after several attempts it does so with the first error. -/
  | refused {reply : Reply} {e reported : Error} (h : Client.settle request reply = .error e)
    (he : e.isRetryable = false → reported = e) :
    Exchange request [⟨.send request, reply⟩] (some (.failed reported))
  /-- The wait for the next attempt is not over yet. -/
  | waiting {reply : Reply} {e : Error} (h : Client.settle request reply = .error e)
    (he : e.isRetryable = true) :
    Exchange request [⟨.send request, reply⟩] none
  | interrupted {reply : Reply} {e : Error} (span : Span)
    (h : Client.settle request reply = .error e) (he : e.isRetryable = true) :
    Exchange request [⟨.send request, reply⟩, ⟨.wait span, true⟩]
      (some (.failed (.interrupted request.endpoint.path)))
  | again {reply : Reply} {e : Error} (span : Span) {events : List (Event Answer)}
    {outcome : Option (Outcome Error (List UInt8))}
    (h : Client.settle request reply = .error e) (he : e.isRetryable = true)
    (rest : Exchange request events outcome) :
    Exchange request (⟨.send request, reply⟩ :: ⟨.wait span, false⟩ :: events) outcome

/-- A call sends its request only. -/
theorem Exchange.request_eq {request sent : Request} {reply : Reply}
    {events : List (Event Answer)} {outcome : Option (Outcome Error (List UInt8))}
    (h : Exchange request events outcome)
    (hm : (⟨.send sent, reply⟩ : Event Answer) ∈ events) : sent = request := by
  induction h with
  | unsent => simp at hm
  | answered | refused | waiting | interrupted => simp_all
  | again span h he rest ih =>
    rcases List.mem_cons.1 hm with hm | hm
    · simp_all
    · exact ih (by simpa using hm)

theorem Exchange.not_aborted {request : Request} {events : List (Event Answer)}
    {outcome : Option (Outcome Error (List UInt8))} (h : Exchange request events outcome)
    (reason : Abort) : outcome ≠ some (.aborted reason) := by
  induction h with
  | again _ _ _ _ ih => exact ih
  | _ => simp

/-- A call that succeeds does so with its last attempt, after failures. -/
theorem Exchange.of_done {request : Request} {events : List (Event Answer)} {body : List UInt8}
    (h : Exchange request events (some (.done body))) :
    ∃ before reply, events = before ++ [⟨.send request, reply⟩] ∧
      Client.settle request reply = .ok body ∧
      ∀ sent failed, (⟨.send sent, failed⟩ : Event Answer) ∈ before →
        ∃ e, Client.settle request failed = .error e := by
  generalize ho : some (Outcome.done body) = outcome at h
  induction h with
  | unsent | refused | waiting | interrupted => simp at ho
  | answered hs =>
    obtain rfl : body = _ := by simpa using ho
    exact ⟨[], _, rfl, hs, by simp⟩
  | @again failed e span events outcome hs he rest ih =>
    obtain ⟨before, reply, rfl, hr, hb⟩ := ih ho
    refine ⟨⟨.send request, failed⟩ :: ⟨.wait span, false⟩ :: before, reply, rfl, hr, ?_⟩
    intro sent failed' hm
    rcases List.mem_cons.1 hm with hm | hm
    · obtain ⟨rfl, rfl⟩ : sent = request ∧ failed' = failed := by simpa using hm
      exact ⟨e, hs⟩
    · exact hb sent failed' (by simpa using hm)

/-! ## Attempts -/

namespace RetryState

variable {policy : RetryPolicy} {state next : RetryState} {e first : Error} {span : Span}

/-- The error of the first attempt is reported. -/
theorem eq_of_giveUp (h : state.record policy e = (.giveUp first, next)) :
    first = state.first.getD e := by
  unfold record at h
  simp only at h
  split at h
  · simpa using (congrArg Prod.fst h).symm
  · simp at h

/-- The error of the first attempt is remembered. -/
theorem first_of_retry (h : state.record policy e = (.retry span, next)) :
    next.first = some (state.first.getD e) := by
  unfold record at h
  simp only at h
  split at h
  · simp at h
  · rw [← (Prod.mk.inj h).2]

end RetryState

namespace Client

/-- The trace of a call with its outcome, by what comes of its next attempt. -/
inductive Attempt (policy : RetryPolicy) (request : Request) (state : RetryState) :
    Nat → List (Event Answer) → Option (Outcome Error (List UInt8)) → Prop
  | unsent {left : Nat} : Attempt policy request state left [] none
  | answered {left : Nat} {reply : Reply} {body : List UInt8}
    (h : settle request reply = .ok body) :
    Attempt policy request state left [⟨.send request, reply⟩] (some (.done body))
  | refused {left : Nat} {reply : Reply} {e : Error} (h : settle request reply = .error e)
    (he : e.isRetryable = false) :
    Attempt policy request state left [⟨.send request, reply⟩] (some (.failed e))
  /-- No attempts are left; this error or the first one is reported. -/
  | givenUp {left : Nat} {reply : Reply} {e reported : Error}
    (h : settle request reply = .error e) (he : e.isRetryable = true)
    (hr : reported = e ∨ reported = state.first.getD e) :
    Attempt policy request state left [⟨.send request, reply⟩] (some (.failed reported))
  | waiting {left : Nat} {reply : Reply} {e : Error} (h : settle request reply = .error e)
    (he : e.isRetryable = true) :
    Attempt policy request state left [⟨.send request, reply⟩] none
  | interrupted {left : Nat} {reply : Reply} {e : Error} (span : Span)
    (h : settle request reply = .error e) (he : e.isRetryable = true) :
    Attempt policy request state left [⟨.send request, reply⟩, ⟨.wait span, true⟩]
      (some (.failed (.interrupted request.endpoint.path)))
  | again {left : Nat} {reply : Reply} {e : Error} {next : RetryState}
    {events : List (Event Answer)} {outcome : Option (Outcome Error (List UInt8))} (span : Span)
    (h : settle request reply = .error e) (he : e.isRetryable = true)
    (hn : next.first = some (state.first.getD e))
    (rest : Trace (executeFrom policy request left next) events outcome) :
    Attempt policy request state (left + 1)
      (⟨.send request, reply⟩ :: ⟨.wait span, false⟩ :: events) outcome

theorem attempt_of_executeFrom {policy : RetryPolicy} {request : Request} {left : Nat}
    {state : RetryState} {events : List (Event Answer)}
    {outcome : Option (Outcome Error (List UInt8))}
    (h : Trace (executeFrom policy request left state) events outcome) :
    Attempt policy request state left events outcome := by
  rw [executeFrom.eq_def] at h
  rcases Trace.of_ask h with ⟨rfl, rfl⟩ | ⟨reply, rest, rfl, hs⟩
  · exact .unsent
  cases hr : settle request reply with
  | ok body =>
    simp only [hr] at hs
    obtain ⟨rfl, rfl⟩ := Trace.of_done hs
    exact .answered hr
  | error e =>
    simp only [hr] at hs
    split at hs
    next he =>
      split at hs
      case h_1 first _ hrecord =>
        obtain ⟨rfl, rfl⟩ := Trace.of_failed hs
        exact .givenUp hr he (Or.inr (RetryState.eq_of_giveUp hrecord))
      case h_2 span next hrecord =>
        cases left with
        | zero =>
          obtain ⟨rfl, rfl⟩ := Trace.of_failed hs
          exact .givenUp hr he (Or.inl rfl)
        | succ left =>
          rcases Trace.of_ask hs with ⟨rfl, rfl⟩ | ⟨cancelled, rest, rfl, hc⟩
          · exact .waiting hr he
          cases cancelled with
          | true =>
            obtain ⟨rfl, rfl⟩ := Trace.of_failed hc
            exact .interrupted span hr he
          | false => exact .again span hr he (RetryState.first_of_retry hrecord) hc
    next he =>
      obtain ⟨rfl, rfl⟩ := Trace.of_failed hs
      exact .refused hr (by simpa using he)

theorem exchange_of_executeFrom (policy : RetryPolicy) (request : Request) :
    ∀ {left : Nat} {state : RetryState} {events : List (Event Answer)}
      {outcome : Option (Outcome Error (List UInt8))},
      Trace (executeFrom policy request left state) events outcome →
        Exchange request events outcome
  | left, state, events, outcome, h => by
    cases attempt_of_executeFrom h with
    | unsent => exact .unsent
    | answered hr => exact .answered hr
    | refused hr he => exact .refused hr fun _ => rfl
    | givenUp hr he => exact .refused hr (by simp [he])
    | waiting hr he => exact .waiting hr he
    | interrupted span hr he => exact .interrupted span hr he
    | again span hr he hn rest =>
      exact .again span hr he (exchange_of_executeFrom policy request rest)

variable {client : Client} {request : Request} {events : List (Event Answer)}

theorem exchange_of_execute {outcome : Option (Outcome Error (List UInt8))}
    (h : Trace (client.execute request) events outcome) : Exchange request events outcome :=
  exchange_of_executeFrom client.policy request h

/-- A call whose answer says nothing more. -/
theorem exchange_of_perform {outcome : Option (Outcome Error Unit)}
    (h : Trace (client.perform request) events outcome) :
    ∃ inner, Exchange request events inner ∧
      ((∃ body, inner = some (.done body) ∧ outcome = some (.done ())) ∨
        Program.Stopped inner outcome) := by
  rcases Trace.of_bind h with ⟨first, body, rest, rfl, he, hd⟩ | ⟨stop, he, hs⟩
  · obtain ⟨rfl, rfl⟩ := Trace.of_pure hd
    rw [List.append_nil]
    exact ⟨_, exchange_of_execute he, Or.inl ⟨body, rfl, rfl⟩⟩
  · exact ⟨stop, exchange_of_execute he, Or.inr hs⟩

/-- A call that reads what the answer says. -/
theorem exchange_of_fetch {α : Type} {endpoint : Endpoint} {decoder : Json.Decoder α}
    {outcome : Option (Outcome Error α)}
    (h : Trace (client.fetch endpoint decoder) events outcome) :
    ∃ inner, Exchange ⟨.get, endpoint, .empty⟩ events inner ∧
      ((∃ body a, inner = some (.done body) ∧ read decoder body = some a ∧
          outcome = some (.done a)) ∨
        (∃ body, inner = some (.done body) ∧ read decoder body = none ∧
          outcome =
            some (.failed (.decode endpoint.path (client.library.bodyFault endpoint body)))) ∨
        Program.Stopped inner outcome) := by
  rcases Trace.of_bind h with ⟨first, body, rest, rfl, he, hd⟩ | ⟨stop, he, hs⟩
  · cases hr : read decoder body with
    | some a =>
      simp only [hr] at hd
      obtain ⟨rfl, rfl⟩ := Trace.of_pure hd
      rw [List.append_nil]
      exact ⟨_, exchange_of_execute he, Or.inl ⟨body, a, rfl, hr, rfl⟩⟩
    | none =>
      simp only [hr] at hd
      obtain ⟨rfl, rfl⟩ := Trace.of_throw hd
      rw [List.append_nil]
      exact ⟨_, exchange_of_execute he, Or.inr (Or.inl ⟨body, rfl, hr, rfl⟩)⟩
  · exact ⟨stop, exchange_of_execute he, Or.inr (Or.inr hs)⟩

/-! ## The requests of calls -/

section Requests

variable {client : Client} {P : Request → Prop} {request : Request}

theorem keeps_executeFrom (h : P request) (policy : RetryPolicy) :
    ∀ (left : Nat) (state : RetryState),
      (executeFrom policy request left state).Keeps (Sends P) fun _ => True
  | left, state => by
    rw [executeFrom.eq_def]
    refine ⟨fun r hr => ?_, fun reply => ?_⟩
    · obtain rfl : request = r := by simpa using hr
      exact h
    · simp only
      split
      · trivial
      · split
        · split
          · trivial
          · cases left with
            | zero => trivial
            | succ left =>
              refine ⟨fun r hr => by simp at hr, fun cancelled => ?_⟩
              simp only
              split
              · trivial
              · exact keeps_executeFrom h policy left _
        · trivial

theorem keeps_perform (h : P request) :
    (client.perform request).Keeps (Sends P) fun _ => True :=
  Keeps.bind (keeps_executeFrom h _ _ _) fun _ _ => Keeps.pure trivial

theorem keeps_fetch {α : Type} {endpoint : Endpoint} {decoder : Json.Decoder α}
    (h : P ⟨.get, endpoint, .empty⟩) :
    (client.fetch endpoint decoder).Keeps (Sends P) fun _ => True := by
  refine Keeps.bind (keeps_executeFrom h _ _ _) fun body _ => ?_
  split
  · exact Keeps.pure trivial
  · exact Keeps.throw _

end Requests

end Client

end BulkLoad.Api
