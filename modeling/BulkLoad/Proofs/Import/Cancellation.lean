import BulkLoad.Proofs.Import.Admission
import BulkLoad.Proofs.Import.Delivery
import BulkLoad.Proofs.Import.Polling

/-!
# Cancelled imports

One signal cancels an import, its calls and its uploads. It may be given at any moment; from then on
nobody who looks at it is told to go on. A question is asked as soon as the one before is answered,
so at that moment each party has one question on its way at most. From then on no attempt is
repeated, a wait for a session is cut short, and no other row is let in (`cancellable_run`).
-/

namespace BulkLoad.Import

open Program (Trace transcript)
open Api (Released attempts)
open Api.Client (settle)

variable {α : Type} {client : Api.Client} {s : Settings} {schema : Schema}
  {rows : List (Except RowFault Row)}

/-! ## From the moment of cancellation on -/

/-- An import, or an upload beside it, is told that it may go on. -/
def Happening.goesOn : Happening → Bool
  | .own e => Import.goesOn e
  | .beside _ _ ⟨.api (.wait _), cancelled⟩ => !(cancelled : Bool)
  | _ => false

/-- What is answered after a moment, and the last answer before it. -/
def lately (first rest : List α) : List α :=
  first.getLast?.toList ++ rest

theorem split_of_lately {first rest earlier later : List α} {a : α}
    (h : lately first rest = earlier ++ a :: later) :
    (∃ before, first ++ rest = before ++ a :: later) ∧ later <:+ rest := by
  rcases List.eq_nil_or_concat first with rfl | ⟨first, last, rfl⟩
  · obtain rfl : rest = earlier ++ a :: later := h
    exact ⟨⟨earlier, rfl⟩, (List.suffix_cons a later).trans (List.suffix_append _ _)⟩
  · have hl : last :: rest = earlier ++ a :: later := by simpa [lately] using h
    refine ⟨⟨first ++ earlier, by simp [hl]⟩, ?_⟩
    rcases earlier with - | ⟨b, earlier⟩
    · obtain ⟨-, rfl⟩ := List.cons.inj hl
      exact List.suffix_rfl
    · obtain ⟨-, rfl⟩ := List.cons.inj hl
      exact (List.suffix_cons a later).trans (List.suffix_append _ _)

theorem not_released {later rest : List (Program.Event Api.Answer)} (hl : later <:+ rest)
    (hc : ∀ span, (⟨.wait span, false⟩ : Program.Event Api.Answer) ∉ rest) : ¬ Released later := by
  rintro ⟨span, tail, rfl⟩
  exact hc span (hl.mem List.mem_cons_self)

theorem not_waited_of_stopped {after : List Happening} (hc : ∀ h ∈ after, h.goesOn = false) :
    ∀ party span, (⟨.wait span, false⟩ : Program.Event Api.Answer) ∉ callsOf party after
  | .itself, span, hm => by
    have hg := hc _ (mem_own.1 (mem_apis.1 hm))
    simp [Happening.goesOn, goesOn] at hg
  | .upload ticket, span, hm => by
    obtain ⟨⟨q, a⟩, hb, he⟩ := List.mem_filterMap.1 hm
    obtain ⟨content, hm⟩ := mem_beside.1 hb
    cases q with
    | api q =>
      obtain ⟨rfl, ha⟩ := Sigma.mk.inj (Option.some.inj he)
      obtain rfl := eq_of_heq ha
      have hg := hc _ hm
      simp [Happening.goesOn] at hg
    | part => cases he

/-- How an import goes on after the moment at which it is cancelled. -/
structure Ceased (client : Api.Client) (s : Settings) (schema : Schema)
    (rows : List (Except RowFault Row)) (before after : List Happening)
    (outcome : Option (Outcome Error Report)) : Prop where
  /-- Whoever fails in an attempt that might be repeated sends nothing any more. -/
  silent : ∀ party tried sent reply e later,
    lately (callsOf party before) (callsOf party after) = tried ++ ⟨.send sent, reply⟩ :: later →
      settle sent reply = .error e → e.isRetryable = true → attempts later = []
  /-- The rows that are let in come first, and all of them before the moment. If another one is
  read, it is the next, but what is in it and in those after it makes no difference at all. -/
  unread : ∃ (taken : List Row) (rest : List (Except RowFault Row)), rows = taken.map .ok ++ rest ∧
    taken.length = admitted (own before) ∧
    (dismissal ∈ own after → ∃ row more, rest = .ok row :: more) ∧
    ∀ row more, rest = .ok row :: more → ∀ row' more',
      Trace (run client s schema (taken.map .ok ++ .ok row' :: more')) (own (before ++ after))
        outcome
  /-- When it is read, the import fails, -/
  failed : dismissal ∈ own after → outcome = none ∨ outcome = some (.failed .cancelled)
  /-- and neither it nor an upload has taken anything on. -/
  unsettled : dismissal ∈ own after →
    ∀ sent ∈ traffic (before ++ after), ¬ sent.1.endpoint.Settles

theorem ceased_of_run {before after : List Happening} {outcome : Option (Outcome Error Report)}
    (h : Run client (run client s schema rows) (before ++ after) outcome)
    (hc : ∀ h ∈ after, h.goesOn = false) : Ceased client s schema rows before after outcome := by
  obtain ⟨⟨taken, rest, hrows, hl, hnext⟩, hfailed, hearly⟩ := admits_run _ _ h.trace
  have hlater : admitted (own after) = 0 := by
    refine List.countP_eq_zero.2 fun e he => ?_
    have hg := hc _ (mem_own.1 he)
    obtain ⟨q, a⟩ := e
    cases q with
    | cancelled => simpa [admits, Happening.goesOn, goesOn] using hg
    | _ => simp [admits]
  have hl' : taken.length = admitted (own before) := by
    simpa [hlater] using hl
  have dismissed (hm : dismissal ∈ own after) : dismissal ∈ own (before ++ after) := by
    rw [own_append]
    exact List.mem_append_right _ hm
  refine ⟨fun party tried sent reply e later hlate hs he => ?_,
    ⟨taken, rest, hrows, hl', fun hm => hnext (dismissed hm), ?_⟩, fun hm => ?_,
    fun hm sent hsent => ?_⟩
  · obtain ⟨⟨tried, hall⟩, hsuffix⟩ := split_of_lately hlate
    rw [← callsOf_append] at hall
    exact attempts_eq_nil_of_run h hall hs he
      (not_released hsuffix (not_waited_of_stopped hc party))
  · rintro row more rfl row' more'
    exact covers_run _ _ hl.ge (hrows ▸ h.trace)
  · rcases hfailed (dismissed hm) with ho | ⟨e, ho, rfl⟩
    · exact Or.inl ho
    · exact Or.inr ho
  · obtain ⟨request, reply⟩ := sent
    rcases of_mem_traffic hsent with hown | ⟨ticket, content, hbeside⟩
    · exact hearly (dismissed hm) _ (mem_sendings.1 hown) request rfl
    · obtain ⟨⟨files, scene, hp⟩, -⟩ := h
      obtain ⟨earlier, later, hall⟩ := List.append_of_mem hbeside
      rw [hall] at hp
      obtain ⟨session, file, rfl, -⟩ := hp.of_sent
      simp [Upload.sending]

/-- An import can be cancelled at any moment. -/
structure Cancellable (client : Api.Client) (s : Settings) (schema : Schema)
    (rows : List (Except RowFault Row)) : Prop where
  /-- No call repeats an attempt that fails. -/
  call : ∀ request first rest outcome, Trace (client.execute request) (first ++ rest) outcome →
    (∀ span, (⟨.wait span, false⟩ : Program.Event Api.Answer) ∉ rest) →
      ∀ tried sent reply e later, lately first rest = tried ++ ⟨.send sent, reply⟩ :: later →
        settle sent reply = .error e → attempts later = []
  /-- Every wait for a session is cut short. -/
  wait : ∀ (d : SessionDriver) name current expecting first rest outcome, d.patience ≠ 0 →
    Trace (d.waitFor name current expecting) (first ++ rest) outcome →
      (∀ e ∈ rest, goesOn e = false) →
        SessionDriver.CutShort d name current expecting first rest outcome
  run : ∀ before after outcome, Run client (run client s schema rows) (before ++ after) outcome →
    (∀ h ∈ after, h.goesOn = false) → Ceased client s schema rows before after outcome
  /-- An import that reads a row once it is cancelled comes to its end with a failure, if only its
  questions are answered. -/
  returned : ∀ (σ : Type) (answer : (q : Question) → σ → Answer q × σ) (state : σ),
    dismissal ∈ (transcript answer (Import.run client s schema rows) state).1 →
      (transcript answer (Import.run client s schema rows) state).2 = .failed .cancelled

theorem cancellable_run (client : Api.Client) (s : Settings) (schema : Schema)
    (rows : List (Except RowFault Row)) : Cancellable client s schema rows where
  call := by
    intro request first rest outcome h hc tried sent reply e later hlate hs
    obtain ⟨⟨tried, hall⟩, hsuffix⟩ := split_of_lately hlate
    exact (Api.Client.halted_of_execute (hall ▸ h) hs (not_released hsuffix hc)).1
  wait := by
    intro d name current expecting first rest outcome hp h hc
    exact SessionDriver.cutShort_of_waitFor hp h hc
  run _ _ _ h hc := ceased_of_run h hc
  returned := by
    intro σ answer state hm
    obtain ⟨-, hfailed, -⟩ := admits_run _ _ (Program.trace_transcript answer _ state)
    rcases hfailed hm with ho | ⟨e, ho, rfl⟩
    · cases ho
    · exact Option.some.inj ho

/-! ## An import that is cancelled while its first part is on its way -/

/-- The service gets the first part, and then the import of the four rows is cancelled. -/
def interrupted : List Happening × Option (Outcome Error Report) :=
  play SessionDriver.careful.client (attended SessionDriver.careful.client)
    (run SessionDriver.careful.client halving ⟨[⟨"time", .long⟩]⟩ halvedRows) ⟨[], fun _ => none⟩
    { service := ⟨[⟨"GET *", [SessionDriver.told "t" "uploading"]⟩, ⟨"POST *", [{}]⟩,
        ⟨"PUT *", [{ cancels := true }]⟩], []⟩
      moment := SessionDriver.epoch }

/-- Whether a row is dismissed. -/
def dismisses : Event → Bool
  | ⟨.cancelled, cancelled⟩ => cancelled
  | _ => false

theorem mem_of_dismisses {events : List Event} (h : events.any dismisses = true) :
    dismissal ∈ events := by
  obtain ⟨⟨q, a⟩, hm, hd⟩ := List.any_eq_true.1 h
  cases q with
  | cancelled =>
    obtain rfl : a = true := hd
    exact hm
  | _ => cases hd

/-- The fourth row is read and dismissed. -/
theorem cancellable_halved :
    admitted (own (interrupted.1.take 13)) = 3 ∧ dismissal ∈ own (interrupted.1.drop 13) ∧
      Ceased SessionDriver.careful.client halving ⟨[⟨"time", .long⟩]⟩ halvedRows
        (interrupted.1.take 13) (interrupted.1.drop 13) interrupted.2 := by
  have hrun : Run _ _ interrupted.1 interrupted.2 := run_of_play _ _ _ _
  refine ⟨by decide +kernel, mem_of_dismisses (by decide +kernel),
    (cancellable_run _ _ _ _).run _ _ _ ?_ ?_⟩
  · rwa [List.take_append_drop]
  · have hall : (interrupted.1.drop 13).all (!·.goesOn) = true := by decide +kernel
    simpa using List.all_eq_true.1 hall

end BulkLoad.Import
