import BulkLoad.Proofs.Api.Retries
import BulkLoad.Proofs.Import.Polling

/-!
# Waiting for a session to leave a stage

What a wait meets is given by the replies to its requests, the readings of the clock and the moments
at which it is cancelled (`Watch`); they are arbitrary. As long as the session is shown in the stage
that it is to leave, the time is not up and no pause is cut short, the wait comes to its next look
(`reaches`). The first session in another stage ends it, and the clock is not asked any more
(`watched_of_waitFor`). The patience of a driver is not meant to run out ; it bounds the looks that
are spoken of here, and can have any size.
-/

namespace BulkLoad.Import

open Program (Trace transcript transcript_query_bind transcript_require_bind
  transcript_require_bind_of_not)

/-! ## What a wait meets -/

/-- The replies and the cancelled waits of calls, the readings of the clock, and for each pause the
nanoseconds after which the import is cancelled in it, if it is. Replies and pauses are numbered
from one ; the reading at the start has the number zero. -/
structure Watch where
  calls : Api.Conditions
  clock : Nat → Nat
  cancelledAfter : Nat → Option Nat
  /-- What else could be asked. -/
  aside : (q : Question) → Answer q

namespace Watch

/-- The numbers of requests, of readings and of pauses. -/
structure Counts where
  requests : Nat
  readings : Nat
  pauses : Nat

/-- A pause is cut short by what comes before its end, or just then. -/
def cuts (w : Watch) (i : Nat) (span : Api.Span) : Bool :=
  (w.cancelledAfter i).any (· ≤ span.nanos)

/-- The surroundings of a wait. -/
def answer (w : Watch) : (q : Question) → Counts → Answer q × Counts
  | .api q, n =>
    let (a, requests) := w.calls.answer q n.requests
    (a, { n with requests })
  | .clock, n => (w.clock n.readings, { n with readings := n.readings + 1 })
  | .pause span, n => (w.cuts (n.pauses + 1) span, { n with pauses := n.pauses + 1 })
  | q, n => (w.aside q, n)

/-- The nanoseconds from the start to a reading. -/
def elapsed (w : Watch) (i : Nat) : Nat :=
  w.clock i - w.clock 0

end Watch

namespace SessionDriver

/-- The pause between two looks. -/
def span (d : SessionDriver) : Api.Span :=
  .ofMillis d.pollInterval

/-- The nanoseconds after which waiting is given up. -/
def deadline (d : SessionDriver) : Nat :=
  d.pollTimeout * 1000000000

/-- In the first `n` rounds the session stays in a stage, there is time and no pause is cut. -/
def Quiet (d : SessionDriver) (name : String) (current : Api.Status) (w : Watch) (n : Nat) : Prop :=
  ∀ i, 1 ≤ i → i ≤ n → (∃ s, seen name (w.calls.reply i) = some s ∧ s.status = current) ∧
    w.elapsed i < d.deadline ∧ w.cuts i d.span = false

variable {d : SessionDriver} {name : String} {current expecting : Api.Status} {w : Watch}
  {n patience : Nat} {s : Api.Session}

/-! ## One round -/

/-- A look sends its request, and is over when the reply shows the session. -/
theorem exists_look_eq (d : SessionDriver) (name : String) :
    ∃ next, d.look name = .ask (.api (.send (lookAt name))) next ∧
      ∀ reply s, seen name reply = some s → next reply = .done s := by
  obtain ⟨next, hnext⟩ : ∃ next, d.look name = .ask (.api (.send (lookAt name))) next := by
    rw [look, Api.Client.session, Api.Client.fetch, Api.Client.execute,
      Api.Client.executeFrom.eq_def]
    exact ⟨_, rfl⟩
  refine ⟨next, hnext, fun reply s hs => ?_⟩
  obtain ⟨outcome, ht⟩ := Program.exists_trace (next reply)
  have hlook : Trace (d.look name) ([] ++ ⟨.api (.send (lookAt name)), reply⟩ :: []) outcome := by
    rw [hnext, List.nil_append]
    exact .ask _ ht
  obtain ⟨-, -, rfl⟩ := look_shows hlook hs
  generalize next reply = p at ht
  cases ht
  rfl

theorem transcript_look_bind (hs : seen name (w.calls.reply (n + 1)) = some s) (readings : Nat)
    (f : Api.Session → Work Error Api.Session) :
    transcript w.answer (d.look name >>= f) ⟨n, readings, n⟩ =
      (⟨.api (.send (lookAt name)), w.calls.reply (n + 1)⟩ ::
          (transcript w.answer (f s) ⟨n + 1, readings, n⟩).1,
        (transcript w.answer (f s) ⟨n + 1, readings, n⟩).2) := by
  obtain ⟨next, hnext, hshown⟩ := exists_look_eq d name
  have hbind : (d.look name >>= f) =
      .ask (.api (.send (lookAt name))) fun reply => (next reply).bind f := by
    rw [hnext]
    rfl
  have hanswer : w.answer (.api (.send (lookAt name))) ⟨n, readings, n⟩ =
      (w.calls.reply (n + 1), ⟨n + 1, readings, n⟩) := rfl
  rw [hbind, transcript, hanswer]
  dsimp only
  rw [hshown _ _ hs]
  rfl

section Rounds

variable (d name current expecting w)

/-- What a wait does with a session that has stayed where it is. -/
def linger (started patience : Nat) : Work Error Api.Session := do
  let now ← Program.query .clock
  Program.require (now - started < d.deadline)
    (.pollTimeout name expecting ((now - started) / 1000000000))
  let cancelled ← Program.query (.pause d.span)
  Program.require (!cancelled) .cancelled
  d.poll name current expecting started patience

theorem poll_succ (started patience : Nat) :
    d.poll name current expecting started (patience + 1) = d.look name >>= fun session =>
      if session.status = expecting then pure session
      else Program.require (session.status = current)
        (.wrongStatus name current expecting session.status) >>= fun _ =>
          d.linger name current expecting started patience :=
  rfl

/-- The rest of a wait after `n` rounds. -/
abbrev rest (patience n : Nat) : List Event × Outcome Error Api.Session :=
  transcript w.answer (d.poll name current expecting (w.clock 0) patience) ⟨n, n + 1, n⟩

end Rounds

/-- A session in another stage ends the wait, whatever the clock has to say. -/
theorem rest_of_changed (hs : seen name (w.calls.reply (n + 1)) = some s)
    (hc : s.status ≠ current) :
    rest d name current expecting w (patience + 1) n =
      ([⟨.api (.send (lookAt name)), w.calls.reply (n + 1)⟩],
        if s.status = expecting then .done s
        else .failed (.wrongStatus name current expecting s.status)) := by
  rw [rest, poll_succ, transcript_look_bind hs]
  by_cases he : s.status = expecting
  · rw [if_pos he, if_pos he]
    rfl
  · rw [if_neg he, if_neg he, transcript_require_bind_of_not _ _ (by simpa using hc)]

/-- A session that has stayed where it is makes the wait linger. -/
theorem rest_of_stayed (hne : current ≠ expecting)
    (hs : seen name (w.calls.reply (n + 1)) = some s) (hc : s.status = current) :
    rest d name current expecting w (patience + 1) n =
      (⟨.api (.send (lookAt name)), w.calls.reply (n + 1)⟩ :: (transcript w.answer
          (d.linger name current expecting (w.clock 0) patience) ⟨n + 1, n + 1, n⟩).1,
        (transcript w.answer
          (d.linger name current expecting (w.clock 0) patience) ⟨n + 1, n + 1, n⟩).2) := by
  have hexpecting : s.status ≠ expecting := hc ▸ hne
  rw [rest, poll_succ, transcript_look_bind hs, if_neg hexpecting,
    transcript_require_bind _ _ (by simpa using hc)]

/-- The time is up. -/
theorem rest_of_late (hne : current ≠ expecting)
    (hs : seen name (w.calls.reply (n + 1)) = some s) (hc : s.status = current)
    (ht : d.deadline ≤ w.elapsed (n + 1)) :
    rest d name current expecting w (patience + 1) n =
      ([⟨.api (.send (lookAt name)), w.calls.reply (n + 1)⟩, ⟨.clock, w.clock (n + 1)⟩],
        .failed (.pollTimeout name expecting (w.elapsed (n + 1) / 1000000000))) := by
  have hclock : w.answer .clock ⟨n + 1, n + 1, n⟩ = (w.clock (n + 1), ⟨n + 1, n + 2, n⟩) := rfl
  have hlate : decide (w.clock (n + 1) - w.clock 0 < d.deadline) = false :=
    decide_eq_false (Nat.not_lt.2 ht)
  rw [rest_of_stayed hne hs hc, linger, transcript_query_bind _ _ hclock,
    transcript_require_bind_of_not _ _ hlate]
  rfl

/-- There is time, and the pause decides. -/
theorem rest_of_early (hne : current ≠ expecting)
    (hs : seen name (w.calls.reply (n + 1)) = some s) (hc : s.status = current)
    (ht : w.elapsed (n + 1) < d.deadline) :
    rest d name current expecting w (patience + 1) n =
      if w.cuts (n + 1) d.span then
        ([⟨.api (.send (lookAt name)), w.calls.reply (n + 1)⟩, ⟨.clock, w.clock (n + 1)⟩,
          ⟨.pause d.span, true⟩], .failed .cancelled)
      else
        (⟨.api (.send (lookAt name)), w.calls.reply (n + 1)⟩ :: ⟨.clock, w.clock (n + 1)⟩ ::
            ⟨.pause d.span, false⟩ :: (rest d name current expecting w patience (n + 1)).1,
          (rest d name current expecting w patience (n + 1)).2) := by
  have hclock : w.answer .clock ⟨n + 1, n + 1, n⟩ = (w.clock (n + 1), ⟨n + 1, n + 2, n⟩) := rfl
  have hpause : w.answer (.pause d.span) ⟨n + 1, n + 2, n⟩ =
      (w.cuts (n + 1) d.span, ⟨n + 1, n + 2, n + 1⟩) := rfl
  have hearly : decide (w.clock (n + 1) - w.clock 0 < d.deadline) = true := decide_eq_true ht
  rw [rest_of_stayed hne hs hc, linger, transcript_query_bind _ _ hclock,
    transcript_require_bind _ _ hearly, transcript_query_bind _ _ hpause]
  by_cases hcut : w.cuts (n + 1) d.span = true
  · have hstop : (!w.cuts (n + 1) d.span) = false := by simpa using hcut
    rw [if_pos hcut, transcript_require_bind_of_not _ _ hstop, hcut]
  · have hgo : (!w.cuts (n + 1) d.span) = true := by simpa using hcut
    rw [if_neg hcut, transcript_require_bind _ _ hgo, eq_false_of_ne_true hcut]

/-! ## Whole waits -/

/-- A wait for a session in these surroundings : its questions with their answers, and its end. -/
def waiting (d : SessionDriver) (name : String) (current expecting : Api.Status) (w : Watch) :
    List Event × Outcome Error Api.Session :=
  transcript w.answer (d.waitFor name current expecting) ⟨0, 0, 0⟩

theorem waiting_eq (d : SessionDriver) (name : String) (current expecting : Api.Status)
    (w : Watch) : waiting d name current expecting w =
      (⟨.clock, w.clock 0⟩ :: (rest d name current expecting w d.patience 0).1,
        (rest d name current expecting w d.patience 0).2) := by
  have hclock : w.answer .clock ⟨0, 0, 0⟩ = (w.clock 0, ⟨0, 1, 0⟩) := rfl
  rw [waiting, waitFor, ask, transcript_query_bind _ _ hclock]

/-- A wait comes to its next look as long as nothing happens. -/
theorem reaches (hne : current ≠ expecting) (hn : n ≤ d.patience) (hq : d.Quiet name current w n) :
    ∃ left tried, n + left = d.patience ∧ (sendings tried).length = n ∧
      waiting d name current expecting w =
        (tried ++ (rest d name current expecting w left n).1,
          (rest d name current expecting w left n).2) := by
  induction n with
  | zero => exact ⟨d.patience, [⟨.clock, w.clock 0⟩], Nat.zero_add _, rfl, waiting_eq ..⟩
  | succ n ih =>
    obtain ⟨left, tried, hl, ht, hw⟩ :=
      ih (Nat.le_of_succ_le hn) fun i h₁ hi => hq i h₁ (Nat.le_succ_of_le hi)
    obtain ⟨⟨s, hs, hc⟩, htime, hcut⟩ := hq (n + 1) (Nat.le_add_left 1 n) (Nat.le_refl _)
    obtain ⟨left, rfl⟩ : ∃ fewer, left = fewer + 1 := ⟨left - 1, by omega⟩
    refine ⟨left, tried ++ [⟨.api (.send (lookAt name)), w.calls.reply (n + 1)⟩,
      ⟨.clock, w.clock (n + 1)⟩, ⟨.pause d.span, false⟩], by omega, ?_, ?_⟩
    · rw [sendings_append, List.length_append, ht]
      rfl
    · rw [hw, rest_of_early hne hs hc htime, hcut, if_neg Bool.false_ne_true]
      simp

/-- When the next look is the last, it is the only one more. -/
theorem waiting_of_rest {events : List Event} {o : Outcome Error Api.Session}
    (hne : current ≠ expecting) (hn : n < d.patience) (hq : d.Quiet name current w n)
    (hr : ∀ left, rest d name current expecting w (left + 1) n = (events, o))
    (hlast : (sendings events).length = 1) :
    (sendings (waiting d name current expecting w).1).length = n + 1 ∧
      (waiting d name current expecting w).2 = o := by
  obtain ⟨left, tried, hl, ht, hw⟩ := reaches hne (Nat.le_of_lt hn) hq
  obtain ⟨left, rfl⟩ : ∃ fewer, left = fewer + 1 := ⟨left - 1, by omega⟩
  rw [hw, hr, sendings_append, List.length_append, ht, hlast]
  exact ⟨rfl, rfl⟩

/-- A wait that is over is out of patience, or its last reply has decided. -/
theorem decided_of_some : ∀ {patience started : Nat} {events : List Event}
    {o : Outcome Error Api.Session},
    Trace (d.poll name current expecting started patience) events (some o) →
      o = .aborted .patience ∨ Decided d name current expecting started events o
  | 0, _, _, _, h => Or.inl (Option.some.inj (Trace.of_aborted h).2)
  | patience + 1, started, events, o, h => by
    generalize ho : some o = outcome at h
    cases round_of_poll h with
    | last hl =>
      subst ho
      exact Or.inr hl.decided
    | again hl hrest =>
      subst ho
      exact (decided_of_some hrest).imp_right fun hd => by
        rw [List.append_cons]
        exact hd.after _

/-- A look does not pause, so a pause of a wait comes after its first look. -/
theorem pause_of_look {looked after first later : List Event} {span : Api.Span} {cancelled : Bool}
    {outcome : Option (Outcome Error Api.Session)} (h : Trace (d.look name) looked outcome)
    (hall : looked ++ after = first ++ ⟨.pause span, cancelled⟩ :: later) :
    ∃ more, first = looked ++ more ∧ after = more ++ ⟨.pause span, cancelled⟩ :: later := by
  rcases split_append hall with ⟨more, rfl, -⟩ | hafter
  · obtain ⟨inner, -, he, -, -⟩ := of_calling h
    have hm : (⟨.pause span, cancelled⟩ : Event) ∈ inner.map ofCall := by
      rw [← he]
      simp
    obtain ⟨e, -, hcall⟩ := List.mem_map.1 hm
    cases hcall
  · exact hafter

theorem Judged.of_pause {started : Nat} {first later : List Event} {span : Api.Span}
    {outcome : Option (Outcome Error Api.Session)}
    (h : Judged d name current expecting started s (first ++ ⟨.pause span, true⟩ :: later)
      outcome) : later = [] ∧ outcome = some (.failed .cancelled) := by
  generalize he : first ++ ⟨.pause span, true⟩ :: later = events at h
  cases h with
  | cancelled =>
    rcases first with - | ⟨e, - | ⟨e', first⟩⟩
    · cases he
    · obtain ⟨-, he⟩ := List.cons.inj he
      exact ⟨(List.cons.inj he).2, rfl⟩
    · simp at he
  | _ => rcases first with - | ⟨e, first⟩ <;> simp at he

/-- A pause that is cut short is the last of a wait. -/
theorem last_of_cancelled : ∀ {patience started : Nat} {events first later : List Event}
    {span : Api.Span} {outcome : Option (Outcome Error Api.Session)},
    Trace (d.poll name current expecting started patience) events outcome →
      events = first ++ ⟨.pause span, true⟩ :: later →
      later = [] ∧ outcome = some (.failed .cancelled)
  | 0, _, _, _, _, _, _, h, he => by
    rw [(Trace.of_aborted h).1] at he
    simp at he
  | patience + 1, started, events, first, later, span, outcome, h, he => by
    cases round_of_poll h with
    | last hl =>
      cases hl with
      | looking hl hs =>
        rw [← List.append_nil events] at he
        obtain ⟨more, -, hm⟩ := pause_of_look hl he
        simp at hm
      | judged hl hj =>
        obtain ⟨more, -, hm⟩ := pause_of_look hl he
        exact (hm ▸ hj).of_pause
    | again hl hrest =>
      rw [List.append_assoc] at he
      obtain ⟨more, -, hm⟩ := pause_of_look hl he
      rcases more with - | ⟨e, - | ⟨e', more⟩⟩
      · cases hm
      · cases hm
      · obtain ⟨-, hm⟩ := List.cons.inj hm
        exact last_of_cancelled hrest (List.cons.inj hm).2

/-- How a wait for a session goes and ends. -/
structure Watched (d : SessionDriver) (name : String) (current expecting : Api.Status) (w : Watch)
    (wait : List Event × Outcome Error Api.Session) : Prop where
  /-- Nothing is sent but looks. -/
  looks : ∀ sent ∈ sendings wait.1, sent.1 = lookAt name
  /-- The last reply decides, also where attempts have failed before it. -/
  ended : wait.2 = .aborted .patience ∨
    Decided d name current expecting (w.clock 0) wait.1 wait.2
  /-- The first session in another stage is the last that is looked at, and it is the result if it
  is in the expected stage, however late that is. -/
  changed : ∀ i s, 1 ≤ i → i ≤ d.patience → d.Quiet name current w (i - 1) →
    seen name (w.calls.reply i) = some s → s.status ≠ current →
      (sendings wait.1).length = i ∧ wait.2 =
        if s.status = expecting then .done s
        else .failed (.wrongStatus name current expecting s.status)
  /-- A session that has stayed where it is until the time is up ends the wait, -/
  late : ∀ i s, 1 ≤ i → i ≤ d.patience → d.Quiet name current w (i - 1) →
    seen name (w.calls.reply i) = some s → s.status = current → d.deadline ≤ w.elapsed i →
      (sendings wait.1).length = i ∧
        wait.2 = .failed (.pollTimeout name expecting (w.elapsed i / 1000000000))
  /-- and only such a session does so with this failure. -/
  overdue : ∀ session stage seconds, wait.2 = .failed (.pollTimeout session stage seconds) →
    ∃ tried reply s now,
      wait.1 = tried ++ [⟨.api (.send (lookAt name)), reply⟩, ⟨.clock, now⟩] ∧
      seen name reply = some s ∧ s.status = current ∧ d.deadline ≤ now - w.clock 0
  /-- A pause in which the wait is cancelled, be it at its very end, is followed by no look, -/
  cancelled : ∀ i s, 1 ≤ i → i ≤ d.patience → d.Quiet name current w (i - 1) →
    seen name (w.calls.reply i) = some s → s.status = current → w.elapsed i < d.deadline →
      ∀ t, w.cancelledAfter i = some t → t ≤ d.span.nanos →
        (sendings wait.1).length = i ∧ wait.2 = .failed .cancelled
  /-- whatever was before. -/
  dropped : ∀ first span later, wait.1 = first ++ ⟨.pause span, true⟩ :: later →
    later = [] ∧ wait.2 = .failed .cancelled

/-- Waiting is given up late only with a session that has stayed where it is. -/
theorem Decided.of_pollTimeout {started : Nat} {events : List Event} {session : String}
    {stage : Api.Status} {seconds : Nat}
    (h : Decided d name current expecting started events
      (.failed (.pollTimeout session stage seconds))) :
    ∃ tried reply s now, events = tried ++ [⟨.api (.send (lookAt name)), reply⟩, ⟨.clock, now⟩] ∧
      seen name reply = some s ∧ s.status = current ∧ d.deadline ≤ now - started := by
  obtain ⟨tried, reply, rest, rfl, -, ⟨s, hs, hj⟩ | ⟨-, e, he⟩⟩ := h
  · generalize ho : some (Outcome.failed (Error.pollTimeout session stage seconds)) = outcome at hj
    cases hj with
    | late _ hc ht => exact ⟨tried, reply, s, _, rfl, hs, hc, ht⟩
    | _ => cases ho
  · cases he

theorem decided_of_waiting (d : SessionDriver) (name : String) (current expecting : Api.Status)
    (w : Watch) : (waiting d name current expecting w).2 = .aborted .patience ∨
      Decided d name current expecting (w.clock 0) (waiting d name current expecting w).1
        (waiting d name current expecting w).2 := by
  rw [waiting_eq]
  exact (decided_of_some (Program.trace_transcript _ _ _)).imp_right fun hd =>
    hd.after [⟨.clock, w.clock 0⟩]

/-- A wait for a session ends with the first that has left its stage, or in time. -/
theorem watched_of_waitFor (d : SessionDriver) (name : String) {current expecting : Api.Status}
    (hne : current ≠ expecting) (w : Watch) :
    Watched d name current expecting w (waiting d name current expecting w) := by
  have hended := decided_of_waiting d name current expecting w
  refine ⟨sent_of_waitFor (Program.trace_transcript _ _ _), hended, ?_, ?_, ?_, ?_, ?_⟩
  · intro i s h₁ hi hq hs hc
    obtain ⟨n, rfl⟩ : ∃ n, i = n + 1 := ⟨i - 1, by omega⟩
    exact waiting_of_rest hne hi hq (fun left => rest_of_changed hs hc) rfl
  · intro i s h₁ hi hq hs hc ht
    obtain ⟨n, rfl⟩ : ∃ n, i = n + 1 := ⟨i - 1, by omega⟩
    exact waiting_of_rest hne hi hq (fun left => rest_of_late hne hs hc ht) rfl
  · intro session stage seconds ho
    rw [ho] at hended
    exact (hended.resolve_left (by simp)).of_pollTimeout
  · intro i s h₁ hi hq hs hc ht t hat hle
    obtain ⟨n, rfl⟩ : ∃ n, i = n + 1 := ⟨i - 1, by omega⟩
    have hcut : w.cuts (n + 1) d.span = true := by simpa [Watch.cuts, hat] using hle
    exact waiting_of_rest hne hi hq
      (fun left => (rest_of_early hne hs hc ht).trans (if_pos hcut)) rfl
  · intro first span later he
    rw [waiting_eq] at he ⊢
    rcases first with - | ⟨e, first⟩
    · cases he
    · obtain ⟨hlater, ho⟩ := last_of_cancelled (Program.trace_transcript _ _ _) (List.cons.inj he).2
      exact ⟨hlater, Option.some.inj ho⟩

/-! ## A session that is late -/

/-- A session is ready when it is looked at for the third time. Cancelling takes a while, counted
from the beginning of the second pause. -/
def tardy (after : Nat) : Watch where
  calls :=
    { reply := fun i => .answered 200 (told "t" (if i < 3 then "performing" else "ready")).body
      cancelled := fun _ => false }
  clock i := 3000000000 * i
  cancelledAfter i := if i = 2 then some after else none
  aside q := (Rehearsal.World.answer careful.client q passing).1

/-- A driver that gives up after nine seconds. -/
def hasty : SessionDriver :=
  { careful with pollTimeout := 9 }

theorem seen_tardy {after i : Nat} (hi : i < 3) :
    seen "s" ((tardy after).calls.reply i) = some ⟨"s", "d", "t", .performing, false, none, none,
      none, none, none⟩ := by
  simp only [tardy, if_pos hi]
  decide +kernel

theorem quiet_tardy {after n : Nat} (hn : n ≤ 2) (hcut : n = 2 → 3000000000 < after) :
    hasty.Quiet "s" .performing (tardy after) n := by
  have hspan : hasty.span.nanos = 3000000000 := by decide
  intro i h₁ hi
  refine ⟨⟨_, seen_tardy (by omega), rfl⟩, ?_, ?_⟩
  · simp only [Watch.elapsed, tardy, deadline, hasty]
    omega
  · unfold Watch.cuts tardy
    by_cases htwo : i = 2
    · have hlate : 3000000000 < after := hcut (by omega)
      simpa [htwo, hspan] using hlate
    · simp [htwo]

/-- The time is up when the session is ready, but it is taken. At the very end of a pause the wait
can still be cancelled. -/
theorem watched_tardy :
    Api.Status.performing ≠ .ready ∧ hasty.deadline ≤ (tardy 3000000001).elapsed 3 ∧
      (sendings (waiting hasty "s" .performing .ready (tardy 3000000001)).1).length = 3 ∧
      (∃ s, (waiting hasty "s" .performing .ready (tardy 3000000001)).2 = .done s ∧
        s.status = .ready) ∧
      (sendings (waiting hasty "s" .performing .ready (tardy 3000000000)).1).length = 2 ∧
      (waiting hasty "s" .performing .ready (tardy 3000000000)).2 = .failed .cancelled := by
  have hne : Api.Status.performing ≠ .ready := by decide
  have hready : seen "s" ((tardy 3000000001).calls.reply 3) =
      some ⟨"s", "d", "t", .ready, false, none, none, none, none, none⟩ := by
    decide +kernel
  have hlong : hasty.Quiet "s" .performing (tardy 3000000001) 2 :=
    quiet_tardy (by decide) (by decide)
  have hshort : hasty.Quiet "s" .performing (tardy 3000000000) 1 :=
    quiet_tardy (by decide) (by decide)
  obtain ⟨hthree, hdone⟩ := (watched_of_waitFor hasty "s" hne (tardy 3000000001)).changed 3 _
    (by decide) (by decide) hlong hready (by decide)
  obtain ⟨htwo, hcancelled⟩ := (watched_of_waitFor hasty "s" hne (tardy 3000000000)).cancelled 2 _
    (by decide) (by decide) hshort (seen_tardy (by decide)) rfl (by decide) 3000000000 rfl
    (by decide)
  exact ⟨hne, by decide, hthree, ⟨_, hdone, rfl⟩, htwo, hcancelled⟩

end SessionDriver

end BulkLoad.Import
