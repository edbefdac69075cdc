import BulkLoad.Api.WebUrl
import BulkLoad.Proofs.Api.Exchange

/-!
# The attempts of a call

How often a call is tried, and with which result. The surroundings of a call are given by what each
attempt is answered and by the waits that are cancelled, counted from one (`Conditions`); they are
arbitrary. A call then has one of three ends (`Retried`) : the first reply that another attempt
cannot mend is the result; or the retries are used up, and the error of the first attempt is
reported; or a wait is cancelled.

After some failed attempts a call is at the beginning of its loop again, with a state that fits
(`Failed`). One lemma for each way the next attempt can go on tells the rest of the call from
there, and by induction every call comes that far (`reaches`).
-/

namespace BulkLoad.Api

open Program (Event transcript)

/-! ## What a call meets -/

/-- What the attempts of a call are answered, and which of the waits after them are cancelled. The
first attempt has the number one, and so has the wait after it. -/
structure Conditions where
  reply : Nat → Reply
  cancelled : Nat → Bool

/-- The surroundings of a call, which know how many attempts were made. -/
def Conditions.answer (c : Conditions) : (q : Question) → Nat → Answer q × Nat
  | .send _, made => (c.reply (made + 1), made + 1)
  | .wait _, made => (c.cancelled made, made)

/-- Another attempt may mend what comes of a request : the server failed, or nothing came back. A
file that could not be read, and any other status, is final. -/
def Request.mendable (request : Request) : Reply → Bool
  | .answered status _ => 500 ≤ status && status ≤ 599
  | .dropped _ => true
  | .unreadable _ =>
    match request.body with
    | .file _ => false
    | _ => true

namespace Conditions

variable {c : Conditions} {request : Request} {n m : Nat}

/-- The first `n` replies can be mended by another attempt. -/
def Failing (c : Conditions) (request : Request) (n : Nat) : Prop :=
  ∀ i, 1 ≤ i → i ≤ n → request.mendable (c.reply i) = true

/-- None of the first `n` waits is cancelled. -/
def Uncancelled (c : Conditions) (n : Nat) : Prop :=
  ∀ i, 1 ≤ i → i ≤ n → c.cancelled i = false

theorem Failing.mono (h : c.Failing request n) (hm : m ≤ n) : c.Failing request m :=
  fun i h₁ hi => h i h₁ (Nat.le_trans hi hm)

theorem Failing.last (h : c.Failing request (n + 1)) : request.mendable (c.reply (n + 1)) = true :=
  h (n + 1) (Nat.le_add_left 1 n) (Nat.le_refl _)

theorem Uncancelled.mono (h : c.Uncancelled n) (hm : m ≤ n) : c.Uncancelled m :=
  fun i h₁ hi => h i h₁ (Nat.le_trans hi hm)

theorem Uncancelled.last (h : c.Uncancelled (n + 1)) : c.cancelled (n + 1) = false :=
  h (n + 1) (Nat.le_add_left 1 n) (Nat.le_refl _)

end Conditions

/-- The requests of a call, one for each attempt. -/
def attempts (events : List (Event Answer)) : List Request :=
  events.filterMap fun
    | ⟨.send request, _⟩ => some request
    | _ => none

@[simp] theorem attempts_append (first rest : List (Event Answer)) :
    attempts (first ++ rest) = attempts first ++ attempts rest :=
  List.filterMap_append

@[simp] theorem attempts_send (request : Request) (reply : Reply) (rest : List (Event Answer)) :
    attempts (⟨.send request, reply⟩ :: rest) = request :: attempts rest :=
  rfl

@[simp] theorem attempts_wait (span : Span) (cancelled : Bool) (rest : List (Event Answer)) :
    attempts (⟨.wait span, cancelled⟩ :: rest) = attempts rest :=
  rfl

@[simp] theorem attempts_nil : attempts [] = [] :=
  rfl

/-- How a call ends that has the result of an attempt. -/
def ending : Except Error (List UInt8) → Outcome Error (List UInt8)
  | .ok body => .done body
  | .error e => .failed e

namespace Client

variable {request : Request} {reply : Reply}

theorem error_of_mendable (h : request.mendable reply = true) :
    ∃ e, settle request reply = .error e ∧ e.isRetryable = true := by
  cases reply with
  | answered status body =>
    obtain ⟨hlow, hhigh⟩ : 500 ≤ status ∧ status ≤ 599 := by simpa [Request.mendable] using h
    refine ⟨.server request.endpoint.path status (Text.Utf8.decodeLossy body), ?_, rfl⟩
    have hfail : ¬ (200 ≤ status ∧ status ≤ 299) := by omega
    have hne : status ≠ 404 ∧ status ≠ 409 := by omega
    simp [settle, Error.ofStatus, hfail, hne, hlow, hhigh]
  | dropped detail => exact ⟨_, rfl, rfl⟩
  | unreadable detail =>
    unfold Request.mendable at h
    cases hb : request.body with
    | file path => simp [hb] at h
    | empty | form => exact ⟨.transport request.endpoint.path detail, by simp [settle, hb], rfl⟩

theorem final_of_not_mendable (h : request.mendable reply = false) {e : Error}
    (he : settle request reply = .error e) : e.isRetryable = false := by
  cases reply with
  | answered status body =>
    have hout : 500 ≤ status → 599 < status := by simpa [Request.mendable] using h
    by_cases hok : 200 ≤ status ∧ status ≤ 299
    · simp [settle, hok] at he
    · obtain rfl : Error.ofStatus request.endpoint.path status _ = e := by
        simpa [settle, hok] using he
      unfold Error.ofStatus
      split
      · rfl
      · split
        · rfl
        · split
          next hs =>
            obtain ⟨hlow, hhigh⟩ : 500 ≤ status ∧ status ≤ 599 := by simpa using hs
            exact absurd (hout hlow) (by omega)
          next => rfl
  | dropped => simp [Request.mendable] at h
  | unreadable detail =>
    unfold Request.mendable at h
    cases hb : request.body with
    | file path =>
      obtain rfl : Error.file path detail = e := by simpa [settle, hb] using he
      rfl
    | empty | form => simp [hb] at h

/-! ## The next attempt -/

section Next

variable {policy : RetryPolicy} {c : Conditions} {state : RetryState} {n left : Nat}

/-- `n` attempts have failed, and `left` more may follow after the next one. The error of the first
is remembered; before it has failed, the next one is the first. -/
structure Failed (policy : RetryPolicy) (request : Request) (c : Conditions) (n left : Nat)
    (state : RetryState) : Prop where
  failures : state.failures = n
  left : n + left = policy.limit
  first : ∀ e, settle request (c.reply (n + 1)) = .error e →
    settle request (c.reply 1) = .error (state.first.getD e)

theorem Failed.start (policy : RetryPolicy) (request : Request) (c : Conditions) :
    Failed policy request c 0 policy.limit (RetryState.start policy) where
  failures := rfl
  left := Nat.zero_add _
  first _ he := he

theorem Failed.exists_left (hf : Failed policy request c n left state) (hn : n < policy.limit) :
    ∃ fewer, left = fewer + 1 := by
  have := hf.left
  exact ⟨left - 1, by omega⟩

/-- The rest of a call after `made` attempts. -/
abbrev rest (policy : RetryPolicy) (request : Request) (c : Conditions) (left : Nat)
    (state : RetryState) (made : Nat) : List (Event Answer) × Outcome Error (List UInt8) :=
  transcript c.answer (executeFrom policy request left state) made

/-- What no other attempt can mend is the result. -/
theorem rest_of_not_mendable (h : request.mendable (c.reply (n + 1)) = false) :
    rest policy request c left state n =
      ([⟨.send request, c.reply (n + 1)⟩], ending (settle request (c.reply (n + 1)))) := by
  rw [rest, executeFrom.eq_def]
  simp only [transcript, Conditions.answer]
  cases hs : settle request (c.reply (n + 1)) with
  | ok body => rfl
  | error e =>
    simp only [final_of_not_mendable h hs]
    rfl

/-- When the last attempt fails, the error of the first one is reported. -/
theorem rest_of_used_up (hf : Failed policy request c n 0 state)
    (h : request.mendable (c.reply (n + 1)) = true) :
    ∃ e, settle request (c.reply 1) = .error e ∧
      rest policy request c 0 state n = ([⟨.send request, c.reply (n + 1)⟩], .failed e) := by
  obtain ⟨e, hs, he⟩ := error_of_mendable h
  have hover : policy.limit < state.failures + 1 := by
    have := hf.failures
    have := hf.left
    omega
  refine ⟨state.first.getD e, hf.first e hs, ?_⟩
  rw [rest, executeFrom.eq_def]
  simp only [transcript, Conditions.answer, hs, he, RetryState.record, hover, if_true]

/-- What is recorded of a failure after which there are attempts left. -/
theorem Failed.record (hf : Failed policy request c n (left + 1) state) {e : Error}
    (hs : settle request (c.reply (n + 1)) = .error e) :
    ∃ span next, state.record policy e = (.retry span, next) ∧
      Failed policy request c (n + 1) left next := by
  have hunder : ¬ policy.limit < state.failures + 1 := by
    have := hf.failures
    have := hf.left
    omega
  refine ⟨state.wait,
    ⟨state.failures + 1, state.wait.double.shorter policy.maximal, some (state.first.getD e)⟩,
    by simp [RetryState.record, hunder], ?_, ?_, fun _ _ => hf.first e hs⟩
  · exact congrArg (· + 1) hf.failures
  · have := hf.left
    omega

/-- A wait that is cancelled ends the call. -/
theorem rest_of_cancelled (hf : Failed policy request c n (left + 1) state)
    (h : request.mendable (c.reply (n + 1)) = true) (hc : c.cancelled (n + 1) = true) :
    ∃ span, rest policy request c (left + 1) state n =
      ([⟨.send request, c.reply (n + 1)⟩, ⟨.wait span, true⟩],
        .failed (.interrupted request.endpoint.path)) := by
  obtain ⟨e, hs, he⟩ := error_of_mendable h
  obtain ⟨span, next, hr, -⟩ := hf.record hs
  refine ⟨span, ?_⟩
  rw [rest, executeFrom.eq_def]
  simp only [transcript, Conditions.answer, hs, he, hr, hc, if_true]

/-- After a wait comes the next attempt. -/
theorem rest_of_again (hf : Failed policy request c n (left + 1) state)
    (h : request.mendable (c.reply (n + 1)) = true) (hc : c.cancelled (n + 1) = false) :
    ∃ span next, Failed policy request c (n + 1) left next ∧
      rest policy request c (left + 1) state n =
        (⟨.send request, c.reply (n + 1)⟩ :: ⟨.wait span, false⟩ ::
            (rest policy request c left next (n + 1)).1,
          (rest policy request c left next (n + 1)).2) := by
  obtain ⟨e, hs, he⟩ := error_of_mendable h
  obtain ⟨span, next, hr, hnext⟩ := hf.record hs
  refine ⟨span, next, hnext, ?_⟩
  rw [rest, executeFrom.eq_def]
  simp only [transcript, Conditions.answer, hs, he, hr, hc, if_true]
  rfl

end Next

/-! ## Whole calls -/

variable {c : Conditions} {client : Client}

/-- Every call comes to its next attempt as long as the earlier ones fail and no wait is
cancelled. -/
theorem reaches (client : Client) {n : Nat} (hn : n ≤ client.policy.limit)
    (hfailing : c.Failing request n) (hc : c.Uncancelled n) :
    ∃ left state tries, Failed client.policy request c n left state ∧
      attempts tries = List.replicate n request ∧
      transcript c.answer (client.execute request) 0 =
        (tries ++ (rest client.policy request c left state n).1,
          (rest client.policy request c left state n).2) := by
  induction n with
  | zero => exact ⟨_, _, [], .start client.policy request c, rfl, rfl⟩
  | succ n ih =>
    obtain ⟨left, state, tries, hf, ht, hp⟩ :=
      ih (Nat.le_of_succ_le hn) (hfailing.mono (Nat.le_succ n)) (hc.mono (Nat.le_succ n))
    obtain ⟨left, rfl⟩ := hf.exists_left hn
    obtain ⟨span, next, hnext, hr⟩ := rest_of_again hf hfailing.last hc.last
    refine ⟨left, next, tries ++ [⟨.send request, c.reply (n + 1)⟩, ⟨.wait span, false⟩], hnext,
      ?_, ?_⟩
    · simp [ht, List.replicate_succ']
    · rw [hp, hr]
      simp

/-- How a call ends with at most `limit` attempts after the first. -/
structure Retried (limit : Nat) (request : Request) (c : Conditions)
    (call : List (Event Answer) × Outcome Error (List UInt8)) : Prop where
  /-- The first reply that another attempt cannot mend is the last, and it is the result. -/
  settled : ∀ k, 1 ≤ k → k ≤ limit + 1 → c.Failing request (k - 1) → c.Uncancelled (k - 1) →
    request.mendable (c.reply k) = false →
      attempts call.1 = List.replicate k request ∧ call.2 = ending (settle request (c.reply k))
  /-- When all attempts fail, the error of the first is the result. -/
  exhausted : c.Failing request (limit + 1) → c.Uncancelled limit →
    attempts call.1 = List.replicate (limit + 1) request ∧
      ∃ e, settle request (c.reply 1) = .error e ∧ call.2 = .failed e
  /-- A wait that is cancelled is the last. -/
  interrupted : ∀ j, 1 ≤ j → j ≤ limit → c.Failing request j → c.Uncancelled (j - 1) →
    c.cancelled j = true → attempts call.1 = List.replicate j request ∧
      call.2 = .failed (.interrupted request.endpoint.path)
  /-- All attempts send the same request. -/
  same : ∀ sent ∈ attempts call.1, sent = request

theorem Retried.of_execute_settled {n : Nat} (hn : n ≤ client.policy.limit)
    (hfailing : c.Failing request n) (hc : c.Uncancelled n)
    (h : request.mendable (c.reply (n + 1)) = false) :
    attempts (transcript c.answer (client.execute request) 0).1 = List.replicate (n + 1) request ∧
      (transcript c.answer (client.execute request) 0).2 =
        ending (settle request (c.reply (n + 1))) := by
  obtain ⟨left, state, tries, -, ht, hp⟩ := reaches client hn hfailing hc
  rw [hp, rest_of_not_mendable h]
  exact ⟨by simp [ht, List.replicate_succ'], rfl⟩

theorem Retried.of_execute_exhausted (hfailing : c.Failing request (client.policy.limit + 1))
    (hc : c.Uncancelled client.policy.limit) :
    attempts (transcript c.answer (client.execute request) 0).1 =
        List.replicate (client.policy.limit + 1) request ∧
      ∃ e, settle request (c.reply 1) = .error e ∧
        (transcript c.answer (client.execute request) 0).2 = .failed e := by
  obtain ⟨left, state, tries, hf, ht, hp⟩ :=
    reaches client (Nat.le_refl _) (hfailing.mono (Nat.le_succ _)) hc
  obtain rfl : left = 0 := by
    have := hf.left
    omega
  obtain ⟨e, he, hr⟩ := rest_of_used_up hf hfailing.last
  rw [hp, hr]
  exact ⟨by simp [ht, List.replicate_succ'], e, he, rfl⟩

theorem Retried.of_execute_cancelled {n : Nat} (hn : n < client.policy.limit)
    (hfailing : c.Failing request (n + 1)) (hu : c.Uncancelled n)
    (hc : c.cancelled (n + 1) = true) :
    attempts (transcript c.answer (client.execute request) 0).1 = List.replicate (n + 1) request ∧
      (transcript c.answer (client.execute request) 0).2 =
        .failed (.interrupted request.endpoint.path) := by
  obtain ⟨left, state, tries, hf, ht, hp⟩ :=
    reaches client (Nat.le_of_lt hn) (hfailing.mono (Nat.le_succ n)) hu
  obtain ⟨left, rfl⟩ := hf.exists_left hn
  obtain ⟨span, hr⟩ := rest_of_cancelled hf hfailing.last hc
  rw [hp, hr]
  exact ⟨by simp [ht, List.replicate_succ'], rfl⟩

/-- Whatever a call meets, the first reply that decides ends it, or a cancelled wait, or the limit
of its retries. -/
theorem retried_of_execute (client : Client) (request : Request) (c : Conditions) :
    Retried client.policy.limit request c (transcript c.answer (client.execute request) 0) where
  settled k h₁ hk hfailing hc h := by
    obtain ⟨n, rfl⟩ : ∃ n, k = n + 1 := ⟨k - 1, by omega⟩
    exact Retried.of_execute_settled (by omega) hfailing hc h
  exhausted := Retried.of_execute_exhausted
  interrupted j h₁ hj hfailing hu hc := by
    obtain ⟨n, rfl⟩ : ∃ n, j = n + 1 := ⟨j - 1, by omega⟩
    exact Retried.of_execute_cancelled (by omega) hfailing hu hc
  same sent hs := by
    have hsends : (client.execute request).Keeps (Sends (· = request)) fun _ => True :=
      keeps_executeFrom (P := (· = request)) rfl _ _ _
    obtain ⟨⟨q, reply⟩, hm, he⟩ := List.mem_filterMap.1 hs
    have hq := (hsends.of_trace (Program.trace_transcript c.answer _ 0)).1 _ hm
    cases q with
    | wait span => simp at he
    | send request' =>
      obtain rfl : request' = sent := by simpa using he
      exact hq _ rfl

/-! ## Three attempts -/

/-- The server fails, then the connection breaks, and then the session is not found. -/
def unsteady : Conditions where
  reply
    | 1 => .answered 503 []
    | 2 => .dropped "connection reset by peer"
    | _ => .answered 404 []
  cancelled _ := false

/-- A client that may try again twice. -/
def patient : Client :=
  ⟨"http://localhost", "key", ⟨2, .ofMillis 10, .ofMillis 50⟩, WebUrl.library⟩

theorem retried_unsteady :
    (attempts (transcript unsteady.answer
        (patient.execute ⟨.get, .sessionShow "s", .empty⟩) 0).1).length = 3 ∧
      (transcript unsteady.answer (patient.execute ⟨.get, .sessionShow "s", .empty⟩) 0).2 =
        .failed (.notFound (Endpoint.sessionShow "s").path (Text.Utf8.decodeLossy [])) := by
  obtain ⟨hattempts, hresult⟩ :=
    (retried_of_execute patient ⟨.get, .sessionShow "s", .empty⟩ unsteady).settled 3 (by decide)
      (by decide)
      (fun i h₁ hi => by
        obtain rfl | rfl : i = 1 ∨ i = 2 := by omega
        · rfl
        · rfl)
      (fun _ _ _ => rfl) rfl
  exact ⟨by rw [hattempts, List.length_replicate], hresult⟩

end Client

end BulkLoad.Api
