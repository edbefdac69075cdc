import Mathlib
import BulkLoad.Api.Retry

/-!
# Waits that double

The waits after failed attempts are kept as spans, which are bounded, and each is made from the one
before : twice as long, but the longest span at most, and then the maximal interval at most. The
first of these bounds never shows. What is left is a closed form over the numbers without a bound
(`RetryPolicy.waitNanos`), and the retries are used up after as many failures as the policy says :
the failure after them is answered with the error of the first one, and each later one with its own
(`doubling_of_recordAll`).

A state knows of the failures so far what `Recorded` says. Recording one more failure preserves it
(`Recorded.record`), and so do many (`recorded_after`).
-/

namespace BulkLoad.Api

/-! ## Spans -/

namespace Span

@[simp] theorem nanos_shorter (a b : Span) : (a.shorter b).nanos = min a.nanos b.nanos := by
  unfold shorter
  split_ifs <;> omega

theorem nanos_le_longest (s : Span) : s.nanos ≤ longest.nanos := by
  have := s.lt_limit
  simp only [longest]
  omega

theorem nanos_ofNanos (n : Nat) : (ofNanos n).nanos = min n longest.nanos := by
  unfold ofNanos
  split_ifs with h
  · exact (Nat.min_eq_left (nanos_le_longest ⟨n, h⟩)).symm
  · have hle : longest.nanos ≤ n := by
      simp only [longest]
      omega
    exact (Nat.min_eq_right hle).symm

/-- Below another span the longest one is no bound. -/
theorem nanos_double_shorter (s most : Span) :
    (s.double.shorter most).nanos = min (2 * s.nanos) most.nanos := by
  have hmost := most.nanos_le_longest
  rw [nanos_shorter, double, nanos_ofNanos]
  omega

end Span

/-- The nanoseconds of the wait after `n` failures and one more, if there are retries left. -/
def RetryPolicy.waitNanos (policy : RetryPolicy) (n : Nat) : Nat :=
  min (policy.initial.nanos * 2 ^ n) policy.maximal.nanos

namespace RetryPolicy

variable (policy : RetryPolicy) {m n : Nat}

/-- Doubling what was cut off already is the same as cutting off what was doubled. -/
theorem waitNanos_succ (n : Nat) :
    policy.waitNanos (n + 1) = min (2 * policy.waitNanos n) policy.maximal.nanos := by
  have hpow : policy.initial.nanos * 2 ^ (n + 1) = 2 * (policy.initial.nanos * 2 ^ n) := by
    rw [Nat.pow_succ]
    ac_rfl
  unfold waitNanos
  rw [hpow]
  omega

theorem waitNanos_mono (h : m ≤ n) : policy.waitNanos m ≤ policy.waitNanos n := by
  have hpow : 2 ^ m ≤ 2 ^ n := Nat.pow_le_pow_right (by decide) h
  have hmul := Nat.mul_le_mul_left policy.initial.nanos hpow
  unfold waitNanos
  omega

theorem waitNanos_le (n : Nat) : policy.waitNanos n ≤ policy.maximal.nanos :=
  Nat.min_le_right _ _

end RetryPolicy

/-! ## States -/

namespace RetryState

variable {policy : RetryPolicy} {state : RetryState} {errors : List Error} {e : Error}

/-- What a state knows of the failures so far. The error of the first one is remembered as long as
it can still be reported. -/
structure Recorded (policy : RetryPolicy) (errors : List Error) (state : RetryState) : Prop where
  failures : state.failures = errors.length
  wait : errors.length ≤ policy.limit → state.wait.nanos = policy.waitNanos errors.length
  first : state.first = if errors.length ≤ policy.limit then errors.head? else none

theorem recorded_start (policy : RetryPolicy) : Recorded policy [] (start policy) where
  failures := rfl
  wait _ := by
    rw [start, Span.nanos_shorter, RetryPolicy.waitNanos, List.length_nil, Nat.pow_zero,
      Nat.mul_one]
  first := by simp [start]

/-- A failure after which there are retries left. -/
theorem record_of_lt (h : state.failures < policy.limit) (e : Error) :
    state.record policy e = (.retry state.wait, ⟨state.failures + 1,
      state.wait.double.shorter policy.maximal, some (state.first.getD e)⟩) := by
  have hunder : ¬ policy.limit < state.failures + 1 := by omega
  simp only [record, hunder, if_false]

/-- A failure after which there are none. -/
theorem record_of_le (h : policy.limit ≤ state.failures) (e : Error) :
    state.record policy e = (.giveUp (state.first.getD e),
      { state with failures := state.failures + 1, first := none }) := by
  have hover : policy.limit < state.failures + 1 := by omega
  simp only [record, hover, if_true]

/-- What is decided on a failure that comes after others. -/
theorem Recorded.decides (h : Recorded policy errors state) (e : Error) :
    (errors.length < policy.limit → ∃ wait, (state.record policy e).1 = .retry wait ∧
      wait.nanos = policy.waitNanos errors.length) ∧
    (policy.limit ≤ errors.length →
      (state.record policy e).1 = .giveUp (state.first.getD e)) := by
  rw [← h.failures]
  constructor
  · intro hlt
    have hle : errors.length ≤ policy.limit := h.failures ▸ Nat.le_of_lt hlt
    refine ⟨state.wait, by rw [record_of_lt hlt], ?_⟩
    rw [h.failures]
    exact h.wait hle
  · intro hle
    rw [record_of_le hle]

/-- One more failure is recorded. -/
theorem Recorded.record (h : Recorded policy errors state) (e : Error) :
    Recorded policy (errors ++ [e]) (state.record policy e).2 := by
  have hlength : (errors ++ [e]).length = state.failures + 1 := by
    rw [List.length_append, h.failures, List.length_singleton]
  rcases Nat.lt_or_ge state.failures policy.limit with hlt | hge
  · have hle : errors.length ≤ policy.limit := h.failures ▸ Nat.le_of_lt hlt
    have hfirst : state.first = errors.head? := by rw [h.first, if_pos hle]
    rw [record_of_lt hlt]
    refine ⟨hlength.symm, fun _ => ?_, ?_⟩
    · rw [hlength, RetryPolicy.waitNanos_succ, Span.nanos_double_shorter, h.wait hle, h.failures]
    · rw [if_pos (by omega), hfirst]
      cases errors <;> rfl
  · have hlate : ¬ (errors ++ [e]).length ≤ policy.limit := by omega
    rw [record_of_le hge]
    exact ⟨hlength.symm, fun hl => absurd hl hlate, by rw [if_neg hlate]⟩

/-- The state after failures. -/
def after (policy : RetryPolicy) (state : RetryState) (errors : List Error) : RetryState :=
  errors.foldl (fun state e => (state.record policy e).2) state

/-- By induction on the failures, the last of them first. -/
theorem recorded_after (policy : RetryPolicy) (errors : List Error) :
    Recorded policy errors (after policy (start policy) errors) := by
  induction errors using List.reverseRecOn with
  | nil => exact recorded_start policy
  | append_singleton before e ih =>
    rw [after, List.foldl_append]
    exact ih.record e

/-- Each failure is recorded in the state after those before it. -/
theorem getElem?_recordAll : ∀ (errors : List Error) (state : RetryState) (n : Nat),
    (recordAll policy state errors)[n]? =
      errors[n]?.map fun e => (after policy state (errors.take n)).record policy e
  | [], _, _ => rfl
  | e :: rest, state, 0 => rfl
  | e :: rest, state, n + 1 => by
    rw [recordAll, List.getElem?_cons_succ, List.getElem?_cons_succ, List.take_succ_cons]
    exact getElem?_recordAll rest (state.record policy e).2 n

theorem length_recordAll : ∀ (errors : List Error) (state : RetryState),
    (recordAll policy state errors).length = errors.length
  | [], _ => rfl
  | e :: rest, state => congrArg (· + 1) (length_recordAll rest (state.record policy e).2)

/-- What failures are answered with, and the states then; the failure number `n + 1` is at the
place `n`. -/
structure Doubling (policy : RetryPolicy) (errors : List Error)
    (results : List (RetryDecision × RetryState)) : Prop where
  length : results.length = errors.length
  /-- Failures are counted, so the count stays within 32 bits as long as their number does. -/
  counted : ∀ n decision state, results[n]? = some (decision, state) → state.failures = n + 1
  /-- The wait doubles from the initial interval on, up to the maximal one. -/
  waits : ∀ n, n < policy.limit → n < errors.length → ∃ wait state,
    results[n]? = some (.retry wait, state) ∧
      wait.nanos = min (policy.initial.nanos * 2 ^ n) policy.maximal.nanos
  /-- When the retries are used up, the error of the first failure is reported. -/
  usedUp : ∀ first, errors.head? = some first → policy.limit < errors.length →
    ∃ state, results[policy.limit]? = some (.giveUp first, state)
  /-- Later failures are reported as they are. -/
  later : ∀ n e, policy.limit < n → errors[n]? = some e →
    ∃ state, results[n]? = some (.giveUp e, state)
  /-- Waits do not get shorter, nor longer than the maximal interval. -/
  rising : ∀ (m n : Nat) (wait wait' : Span) (state state' : RetryState), m ≤ n →
    results[m]? = some (.retry wait, state) → results[n]? = some (.retry wait', state') →
      wait.nanos ≤ wait'.nanos ∧ wait'.nanos ≤ policy.maximal.nanos

section Results

variable {n : Nat}

/-- One failure of many, and what the state before it knows. -/
theorem exists_recorded (policy : RetryPolicy) (he : errors[n]? = some e) :
    ∃ state, Recorded policy (errors.take n) state ∧ (errors.take n).length = n ∧
      (recordAll policy (start policy) errors)[n]? = some (state.record policy e) := by
  obtain ⟨hn, -⟩ := List.getElem?_eq_some_iff.1 he
  refine ⟨_, recorded_after policy (errors.take n), ?_, ?_⟩
  · rw [List.length_take]
    omega
  · rw [getElem?_recordAll, he, Option.map_some]

theorem exists_of_recordAll {result : RetryDecision × RetryState}
    (h : (recordAll policy (start policy) errors)[n]? = some result) :
    ∃ e, errors[n]? = some e := by
  rw [getElem?_recordAll] at h
  obtain ⟨e, he, -⟩ := Option.map_eq_some_iff.1 h
  exact ⟨e, he⟩

/-- A wait is as long as the closed form says. -/
theorem waitNanos_of_retry {wait : Span} {next : RetryState}
    (h : (recordAll policy (start policy) errors)[n]? = some (.retry wait, next)) :
    wait.nanos = policy.waitNanos n := by
  obtain ⟨e, he⟩ := exists_of_recordAll h
  obtain ⟨state, hs, hlength, hr⟩ := exists_recorded policy he
  obtain ⟨hretry, hgive⟩ := hs.decides e
  have hdecision : (state.record policy e).1 = .retry wait :=
    congrArg Prod.fst (Option.some.inj (hr.symm.trans h))
  rw [hlength] at hretry hgive
  rcases Nat.lt_or_ge n policy.limit with hn | hn
  · obtain ⟨wait', hd, hw⟩ := hretry hn
    have heq : wait' = wait := by simpa using hd.symm.trans hdecision
    exact heq ▸ hw
  · have hd := (hgive hn).symm.trans hdecision
    simp at hd

end Results

/-- However long the intervals are and however many failures there are, the waits double up to the
maximal interval, and then the error of the first failure is reported. -/
theorem doubling_of_recordAll (policy : RetryPolicy) (errors : List Error) :
    Doubling policy errors (recordAll policy (start policy) errors) where
  length := length_recordAll errors _
  counted n decision state h := by
    obtain ⟨e, he⟩ := exists_of_recordAll h
    obtain ⟨before, hs, hlength, hr⟩ := exists_recorded policy he
    have hstate : (before.record policy e).2 = state :=
      congrArg Prod.snd (Option.some.inj (hr.symm.trans h))
    rw [← hstate, (hs.record e).failures, List.length_append, hlength, List.length_singleton]
  waits n hn hlt := by
    obtain ⟨state, hs, hlength, hr⟩ := exists_recorded policy (List.getElem?_eq_getElem hlt)
    obtain ⟨wait, hd, hw⟩ := (hs.decides errors[n]).1 (by omega)
    rw [hlength] at hw
    exact ⟨wait, _, by rw [hr, ← hd], hw⟩
  usedUp first hfirst hlt := by
    obtain ⟨state, hs, hlength, hr⟩ := exists_recorded policy (List.getElem?_eq_getElem hlt)
    have hd := (hs.decides errors[policy.limit]).2 (by omega)
    have hreported : state.first.getD errors[policy.limit] = first := by
      rw [hs.first, hlength, if_pos (Nat.le_refl _), List.head?_take]
      split_ifs with hzero
      · rw [Option.getD_none]
        simp only [hzero]
        rw [List.head?_eq_getElem?] at hfirst
        exact (List.getElem?_eq_some_iff.1 hfirst).2
      · rw [hfirst, Option.getD_some]
    exact ⟨_, by rw [hr, ← hreported, ← hd]⟩
  later n e hn he := by
    obtain ⟨state, hs, hlength, hr⟩ := exists_recorded policy he
    have hd := (hs.decides e).2 (by omega)
    rw [hs.first, hlength, if_neg (by omega), Option.getD_none] at hd
    exact ⟨_, by rw [hr, ← hd]⟩
  rising m n wait wait' _ _ hle hm hn := by
    rw [waitNanos_of_retry hm, waitNanos_of_retry hn]
    exact ⟨policy.waitNanos_mono hle, policy.waitNanos_le n⟩

end RetryState

end BulkLoad.Api
