import BulkLoad.Api.WebUrl
import BulkLoad.Proofs.Import.Notes
import BulkLoad.Rehearsal.World

/-!
# The course of a session

However the service answers, a driver makes the calls that take a session to its last stage in
their order, each one once, and each one only after the service has told what it waits for
(`Allowed`). Which calls there are depends on the stage that the session is in first (`courses`).

A step of a driver preserves that (`Leg`), and so does a number of steps (`leg_advanceBy`).
-/

namespace BulkLoad.Import.SessionDriver

open Program (Trace Stopped)

variable {d : SessionDriver} {name : String} {priority : Int} {ns : List Note}

/-! ## Single calls -/

/-- The request that freezes a session. -/
def freezing (name : String) : Api.Request :=
  ⟨.post, .sessionFreeze name, .empty⟩

/-- The request that starts the job of a session. -/
def performing (name : String) (priority : Int) : Api.Request :=
  ⟨.post, .sessionPerform name, .form "priority" (Decimal.signedText priority)⟩

/-- The request that commits a session. -/
def committing (name : String) : Api.Request :=
  ⟨.post, .sessionCommit name, .empty⟩

theorem tidy_look : Tidy name (d.look name) :=
  Tidy.calling (lookAt name) fun hc => by
    obtain ⟨result, he, hr⟩ := Api.Client.exchange_of_fetch hc
    refine ⟨result, he, ?_⟩
    rintro rfl
    rcases hr with ⟨body, s, h, -⟩ | ⟨body, h, -⟩ | hs
    · simp at h
    · simp at h
    · cases hs
      rfl

/-- A look shows a session, or the driver does not go on. -/
theorem noted_look {outcome : Option (Outcome Error Api.Session)}
    (h : Noted name (d.look name) ns outcome) :
    (∃ s, ns = [.shown s] ∧ outcome = some (.done s)) ∨
      ns = [] ∧ ∀ s, outcome ≠ some (.done s) := by
  obtain ⟨events, h, rfl⟩ := h
  obtain ⟨inner, result, rfl, hc, rfl⟩ := of_calling h
  obtain ⟨reply, he, hr⟩ := Api.Client.exchange_of_fetch hc
  rw [notes_look he]
  rcases hr with ⟨body, s, rfl, hs, rfl⟩ | ⟨body, rfl, hs, rfl⟩ | hs
  · exact Or.inl ⟨s, by simp [shownBy, hs], rfl⟩
  · exact Or.inr ⟨by simp [shownBy, hs], by simp [Outcome.mapError]⟩
  · cases hs <;> exact Or.inr ⟨rfl, by simp [Outcome.mapError]⟩

variable {client : Api.Client} {request : Api.Request}

theorem tidy_call : Tidy name (callingOrConflict (client.perform request)) := by
  refine Tidy.bind (Tidy.attempting request fun hc => ?_) fun r => Tidy.ofExcept _
  obtain ⟨result, he, hr⟩ := Api.Client.exchange_of_perform hc
  refine ⟨result, he, ?_⟩
  rintro rfl
  rcases hr with ⟨body, h, -⟩ | hs
  · simp at h
  · cases hs
    rfl

/-- A call is made, or the driver does not go on. -/
theorem noted_call (hn : request ≠ lookAt name) {outcome : Option (Outcome Error (Option Unit))}
    (h : Noted name (callingOrConflict (client.perform request)) ns outcome) :
    ns = [.called request] ∨ ns = [] ∧ outcome = none := by
  obtain ⟨events, h, rfl⟩ := h
  rcases Trace.of_bind h with ⟨first, r, rest, rfl, ha, hd⟩ | ⟨stop, ha, hs⟩
  · obtain ⟨inner, result, rfl, hc, hr⟩ := of_attempting ha
    obtain ⟨reply, he, ho⟩ := Api.Client.exchange_of_perform hc
    rw [(Trace.of_ofExcept hd).1, List.append_nil]
    refine Or.inl ((notes_call hn he).2 ?_)
    rintro rfl
    cases he
    rcases ho with ⟨_, h, -⟩ | hs
    · simp at h
    · cases hs
      simp at hr
  · obtain ⟨inner, result, rfl, hc, rfl⟩ := of_attempting ha
    obtain ⟨reply, he, ho⟩ := Api.Client.exchange_of_perform hc
    by_cases hi : inner = []
    · subst hi
      cases he
      rcases ho with ⟨_, h, -⟩ | ho
      · simp at h
      · cases ho
        cases hs
        exact Or.inr ⟨rfl, rfl⟩
    · exact Or.inl ((notes_call hn he).2 hi)

theorem tidy_call_unit : Tidy name (do let _ ← callingOrConflict (client.perform request)) :=
  Tidy.bind tidy_call fun _ => Tidy.pure ()

theorem noted_call_unit (hn : request ≠ lookAt name) {outcome : Option (Outcome Error Unit)}
    (h : Noted name (do let _ ← callingOrConflict (client.perform request)) ns outcome) :
    ns = [.called request] ∨ ns = [] ∧ outcome = none := by
  rcases Noted.of_bind tidy_call h with ⟨first, r, rest, rfl, h₁, h₂⟩ | ⟨stop, h₁, hs⟩
  · obtain ⟨rfl, -⟩ := Noted.of_pure h₂
    rcases noted_call hn h₁ with rfl | ⟨-, ho⟩
    · exact Or.inl rfl
    · simp at ho
  · rcases noted_call hn h₁ with rfl | ⟨rfl, rfl⟩
    · exact Or.inl rfl
    · cases hs
      exact Or.inr ⟨rfl, rfl⟩

theorem tidy_poll (current expecting : Api.Status) (started : Nat) :
    ∀ patience, Tidy name (d.poll name current expecting started patience)
  | 0 => by
    intro events outcome h
    rw [(Trace.of_aborted h).1]
    exact .nil
  | patience + 1 => by
    unfold poll
    refine Tidy.bind tidy_look fun s => ?_
    split
    · exact Tidy.pure s
    · refine Tidy.bind (Tidy.require _ _) fun _ => Tidy.bind (Tidy.ask (by simp)) fun _ =>
        Tidy.bind (Tidy.require _ _) fun _ => Tidy.bind (Tidy.ask (by simp)) fun _ =>
          Tidy.bind (Tidy.require _ _) fun _ => tidy_poll current expecting started patience

theorem tidy_waitFor {current expecting : Api.Status} :
    Tidy name (d.waitFor name current expecting) :=
  Tidy.bind (Tidy.ask (by simp)) fun started => tidy_poll current expecting started d.patience

/-- The notes on a wait : no calls, and the expected stage at its end. -/
def Waits (expecting : Api.Status) (ns : List Note)
    (outcome : Option (Outcome Error Api.Session)) : Prop :=
  ∃ sessions : List Api.Session, ns = sessions.map .shown ∧
    ∀ s, outcome = some (.done s) → s ∈ sessions ∧ s.status = expecting

theorem Waits.stopped {expecting : Api.Status} {outcome : Option (Outcome Error Api.Session)}
    (h : ∀ s, outcome ≠ some (.done s)) : Waits expecting [] outcome :=
  ⟨[], rfl, fun s hs => absurd hs (h s)⟩

theorem Waits.found {expecting : Api.Status} {s : Api.Session} (h : s.status = expecting) :
    Waits expecting [.shown s] (some (.done s)) := by
  refine ⟨[s], rfl, fun s' h' => ?_⟩
  obtain rfl : s = s' := by simpa using h'
  exact ⟨List.mem_singleton_self s, h⟩

theorem Waits.cons {expecting : Api.Status} {outcome : Option (Outcome Error Api.Session)}
    (s : Api.Session) (h : Waits expecting ns outcome) :
    Waits expecting (.shown s :: ns) outcome := by
  obtain ⟨sessions, rfl, hd⟩ := h
  exact ⟨s :: sessions, rfl, fun s' h' => ⟨List.mem_cons_of_mem _ (hd s' h').1, (hd s' h').2⟩⟩

theorem waits_of_poll {current expecting : Api.Status} {started : Nat} :
    ∀ {patience : Nat} {ns : List Note} {outcome : Option (Outcome Error Api.Session)},
      Noted name (d.poll name current expecting started patience) ns outcome →
        Waits expecting ns outcome
  | 0, ns, outcome, ⟨events, h, hn⟩ => by
    obtain ⟨rfl, rfl⟩ := Trace.of_aborted h
    subst hn
    exact Waits.stopped (by simp)
  | patience + 1, ns, outcome, h => by
    unfold poll at h
    rcases Noted.of_bind tidy_look h with ⟨first, s, rest, rfl, h₁, h₂⟩ | ⟨stop, h₁, hs⟩
    · rcases noted_look h₁ with ⟨s', rfl, he⟩ | ⟨-, he⟩
      · obtain rfl : s = s' := by simpa using he
        split at h₂
        next hx =>
          obtain ⟨rfl, rfl⟩ := Noted.of_pure h₂
          exact Waits.found hx
        next =>
          refine Waits.cons s ?_
          rcases Noted.of_require_bind h₂ with ⟨-, h₃⟩ | ⟨rfl, rfl⟩
          · rcases Noted.of_ask_bind (by simp) h₃ with ⟨rfl, rfl⟩ | ⟨now, h₄⟩
            · exact Waits.stopped (by simp)
            rcases Noted.of_require_bind h₄ with ⟨-, h₅⟩ | ⟨rfl, rfl⟩
            · rcases Noted.of_ask_bind (by simp) h₅ with ⟨rfl, rfl⟩ | ⟨cancelled, h₆⟩
              · exact Waits.stopped (by simp)
              rcases Noted.of_require_bind h₆ with ⟨-, h₇⟩ | ⟨rfl, rfl⟩
              · exact waits_of_poll h₇
              · exact Waits.stopped (by simp)
            · exact Waits.stopped (by simp)
          · exact Waits.stopped (by simp)
      · exact absurd rfl (he s)
    · rcases noted_look h₁ with ⟨s, -, rfl⟩ | ⟨rfl, -⟩
      · exact absurd rfl (hs.left_ne_done s)
      · exact Waits.stopped hs.ne_done

theorem waits_of_waitFor {current expecting : Api.Status}
    {outcome : Option (Outcome Error Api.Session)}
    (h : Noted name (d.waitFor name current expecting) ns outcome) :
    Waits expecting ns outcome := by
  rcases Noted.of_ask_bind (by simp) h with ⟨rfl, rfl⟩ | ⟨started, h⟩
  · exact Waits.stopped (by simp)
  · exact waits_of_poll h

/-! ## What calls wait for -/

/-- The calls of a trace. -/
def calls (ns : List Note) : List Api.Request :=
  ns.filterMap fun
    | .called request => some request
    | .shown _ => none

/-- What the service has told before a call is made. -/
structure Allowed (d : SessionDriver) (name : String) (priority : Int) (before : List Note)
    (request : Api.Request) : Prop where
  /-- A session is frozen only when it was shown right before that it is not. -/
  freeze : request = freezing name → ∃ s, before.getLast? = some (.shown s) ∧ s.frozen = false
  /-- A session that was not frozen by the driver was shown right before to be frozen. -/
  perform : request = performing name priority → .called (freezing name) ∈ before ∨
    ∃ s, before.getLast? = some (.shown s) ∧ s.frozen = true
  /-- A session is committed only when it was shown to be ready. -/
  commit : request = committing name → ∃ s, .shown s ∈ before ∧ s.status = .ready
  /-- Bad records matter if the driver is told so. -/
  records : request = committing name → d.stopOnInvalid = true →
    ∃ s, before.getLast? = some (.shown s) ∧ (s.errorRecords = none ∨ s.errorRecords = some 0)

/-- All calls are allowed, where `before` was noted before. -/
def Guarded (d : SessionDriver) (name : String) (priority : Int) (before : List Note) :
    List Note → Prop
  | [] => True
  | .shown s :: rest => Guarded d name priority (before ++ [.shown s]) rest
  | .called request :: rest => Allowed d name priority before request ∧
      Guarded d name priority (before ++ [.called request]) rest

theorem guarded_append {before : List Note} :
    ∀ (first rest : List Note), Guarded d name priority before first →
      Guarded d name priority (before ++ first) rest →
        Guarded d name priority before (first ++ rest)
  | [], rest, _, h₂ => by simpa using h₂
  | .shown s :: first, rest, h₁, h₂ =>
    guarded_append first rest h₁ (by simpa using h₂)
  | .called request :: first, rest, h₁, h₂ =>
    ⟨h₁.1, guarded_append first rest h₁.2 (by simpa using h₂)⟩

theorem guarded_shown {before : List Note} :
    ∀ sessions : List Api.Session, Guarded d name priority before (sessions.map .shown)
  | [] => trivial
  | _ :: sessions => guarded_shown sessions

theorem allowed_of_guarded {request : Api.Request} {after : List Note} :
    ∀ (before first : List Note),
      Guarded d name priority before (first ++ .called request :: after) →
        Allowed d name priority (before ++ first) request
  | before, [], h => by simpa using h.1
  | before, .shown s :: first, h => by
    have hs := allowed_of_guarded (before ++ [.shown s]) first h
    rwa [List.append_assoc] at hs
  | before, .called r :: first, h => by
    have hr := allowed_of_guarded (before ++ [.called r]) first h.2
    rwa [List.append_assoc] at hr

/-! ## Steps -/

/-- The calls of one step from a stage. -/
def legs (name : String) (priority : Int) : Api.Status → List (List Api.Request)
  | .uploading => [[freezing name, performing name priority], [performing name priority]]
  | .ready => [[committing name]]
  | _ => [[]]

/-- The calls that take a session from a stage to the last one. -/
def courses (name : String) (priority : Int) : Api.Status → List (List Api.Request)
  | .uploading => [[freezing name, performing name priority, committing name],
      [performing name priority, committing name]]
  | .performing | .ready => [[committing name]]
  | .committing | .committed | .unknown => [[]]

/-- A stage that is waited for was shown. -/
def Reached (status : Api.Status) (ns : List Note) : Prop :=
  status = .ready ∨ status = .committed → ∃ s, Note.shown s ∈ ns ∧ s.status = status

/-- The notes on a step, or on several, from a stage, where `before` was noted before. -/
structure Leg (d : SessionDriver) (name : String) (priority : Int)
    (ways : List (List Api.Request)) (next : Api.Status) (before ns : List Note)
    (finished : Prop) : Prop where
  guarded : Guarded d name priority before ns
  ordered : ∃ way ∈ ways, calls ns <+: way
  complete : finished → calls ns ∈ ways ∧ Reached next (before ++ ns)

variable {before : List Note}

theorem calls_append (first rest : List Note) : calls (first ++ rest) = calls first ++ calls rest :=
  List.filterMap_append

theorem calls_shown : ∀ sessions : List Api.Session, calls (sessions.map .shown) = []
  | [] => rfl
  | _ :: sessions => calls_shown sessions

theorem Leg.of_waits {expecting : Api.Status} {outcome : Option (Outcome Error Api.Session)}
    (h : Waits expecting ns outcome) :
    Leg d name priority [[]] expecting before ns (∃ s, outcome = some (.done s)) := by
  obtain ⟨sessions, rfl, hd⟩ := h
  refine ⟨guarded_shown sessions, ⟨[], by simp, by simp [calls_shown]⟩, ?_⟩
  rintro ⟨s, hs⟩
  refine ⟨by simp [calls_shown], fun _ => ⟨s, ?_, (hd s hs).2⟩⟩
  simp [(hd s hs).1]

section Composition

variable {first rest : List Note} {ways ways' all : List (List Api.Request)}
  {stage next : Api.Status} {finished finished' : Prop}

/-- A leg that is complete, and the one after it. -/
theorem Leg.append (h : Leg d name priority ways stage before first finished) (hf : finished)
    (h' : Reached stage (before ++ first) →
      Leg d name priority ways' next (before ++ first) rest finished')
    (hall : ∀ way ∈ ways, ∀ way' ∈ ways', way ++ way' ∈ all) :
    Leg d name priority all next before (first ++ rest) finished' := by
  obtain ⟨hc, hr⟩ := h.complete hf
  have hrest := h' hr
  obtain ⟨way, hw, hp⟩ := hrest.ordered
  refine ⟨guarded_append _ _ h.guarded hrest.guarded, ⟨_, hall _ hc way hw, ?_⟩, fun ho => ?_⟩
  · rw [calls_append]
    exact (List.prefix_append_right_inj _).2 hp
  · obtain ⟨hc', hr'⟩ := hrest.complete ho
    rw [calls_append, ← List.append_assoc]
    exact ⟨hall _ hc _ hc', hr'⟩

/-- A leg that nothing comes after. -/
theorem Leg.cut (h : Leg d name priority ways stage before first finished)
    (hn : ¬ finished') {way' : List Api.Request}
    (hall : ∀ way ∈ ways, way ++ way' ∈ all) :
    Leg d name priority all next before first finished' := by
  obtain ⟨way, hw, hp⟩ := h.ordered
  exact ⟨h.guarded, ⟨_, hall way hw, hp.trans (List.prefix_append _ _)⟩, fun ho => absurd ho hn⟩

end Composition

theorem tidy_freeze : Tidy name (d.freeze name) := by
  refine Tidy.bind tidy_look fun s => ?_
  split
  · exact Tidy.pure ()
  · exact tidy_call_unit

theorem noted_freeze {outcome : Option (Outcome Error Unit)}
    (h : Noted name (d.freeze name) ns outcome) :
    (ns = [] ∧ outcome ≠ some (.done ())) ∨ ∃ s,
      ns = [.shown s] ∧ (outcome = some (.done ()) → s.frozen = true) ∨
      ns = [.shown s, .called (freezing name)] ∧ s.frozen = false := by
  rcases Noted.of_bind tidy_look h with ⟨first, s, rest, rfl, h₁, h₂⟩ | ⟨stop, h₁, hs⟩
  · rcases noted_look h₁ with ⟨s', rfl, he⟩ | ⟨-, he⟩
    · obtain rfl : s = s' := by simpa using he
      refine Or.inr ⟨s, ?_⟩
      split at h₂
      next hf =>
        obtain ⟨rfl, rfl⟩ := Noted.of_pure h₂
        exact Or.inl ⟨rfl, fun _ => hf⟩
      next hf =>
        rcases noted_call_unit (by simp [lookAt]) h₂ with rfl | ⟨rfl, rfl⟩
        · exact Or.inr ⟨rfl, by simpa using hf⟩
        · exact Or.inl ⟨rfl, by simp⟩
    · exact absurd rfl (he s)
  · rcases noted_look h₁ with ⟨s, -, rfl⟩ | ⟨rfl, -⟩
    · exact absurd rfl (hs.left_ne_done s)
    · exact Or.inl ⟨rfl, hs.ne_done ()⟩

theorem allowed_freezing {s : Api.Session} (hs : s.frozen = false) :
    Allowed d name priority (before ++ [.shown s]) (freezing name) where
  freeze _ := ⟨s, by simp, hs⟩
  perform h := absurd h (by simp [freezing, performing])
  commit h := absurd h (by simp [freezing, committing])
  records h := absurd h (by simp [freezing, committing])

theorem allowed_performing (h : .called (freezing name) ∈ before ∨
    ∃ s, before.getLast? = some (.shown s) ∧ s.frozen = true) :
    Allowed d name priority before (performing name priority) where
  freeze h := absurd h (by simp [freezing, performing])
  perform _ := h
  commit h := absurd h (by simp [performing, committing])
  records h := absurd h (by simp [performing, committing])

theorem allowed_committing (h : ∃ s, .shown s ∈ before ∧ s.status = .ready)
    (hr : d.stopOnInvalid = true → ∃ s, before.getLast? = some (.shown s) ∧
      (s.errorRecords = none ∨ s.errorRecords = some 0)) :
    Allowed d name priority before (committing name) where
  freeze h := absurd h (by simp [freezing, committing])
  perform h := absurd h (by simp [performing, committing])
  commit _ := h
  records _ := hr

/-- Freezing a session leaves it frozen. -/
theorem leg_freeze {outcome : Option (Outcome Error Unit)}
    (h : Noted name (d.freeze name) ns outcome) :
    Leg d name priority [[freezing name], []] .performing before ns
      (outcome = some (.done ())) ∧
    (outcome = some (.done ()) → .called (freezing name) ∈ before ++ ns ∨
      ∃ s, (before ++ ns).getLast? = some (.shown s) ∧ s.frozen = true) := by
  have reached (ns : List Note) : Reached .performing ns := by simp [Reached]
  rcases noted_freeze h with ⟨rfl, hn⟩ | ⟨s, ⟨rfl, hf⟩ | ⟨rfl, hf⟩⟩
  · exact ⟨⟨trivial, ⟨[], by simp, List.prefix_refl _⟩, fun ho => absurd ho hn⟩,
      fun ho => absurd ho hn⟩
  · exact ⟨⟨trivial, ⟨[], by simp, List.prefix_refl _⟩, fun _ => ⟨by simp [calls], reached _⟩⟩,
      fun ho => Or.inr ⟨s, by simp, hf ho⟩⟩
  · exact ⟨⟨⟨allowed_freezing hf, trivial⟩, ⟨[freezing name], by simp, List.prefix_refl _⟩,
      fun _ => ⟨by simp [calls], reached _⟩⟩, fun _ => Or.inl (by simp)⟩

theorem leg_perform {outcome : Option (Outcome Error Unit)}
    (ha : Allowed d name priority before (performing name priority))
    (h : Noted name (do let _ ← callingOrConflict (d.client.perform (performing name priority)))
      ns outcome) :
    Leg d name priority [[performing name priority]] .performing before ns
      (outcome = some (.done ())) := by
  rcases noted_call_unit (by simp [lookAt, performing]) h with rfl | ⟨rfl, rfl⟩
  · exact ⟨⟨ha, trivial⟩, ⟨_, List.mem_singleton_self _, List.prefix_refl _⟩,
      fun _ => ⟨List.mem_singleton_self _, by simp [Reached]⟩⟩
  · exact ⟨trivial, ⟨_, List.mem_singleton_self _, List.nil_prefix⟩, by simp⟩

theorem leg_uploading {outcome : Option (Outcome Error Unit)}
    (h : Noted name (d.advance name priority .uploading) ns outcome) :
    Leg d name priority (legs name priority .uploading) .performing before ns
      (outcome = some (.done ())) := by
  rcases Noted.of_bind tidy_freeze h with ⟨first, u, rest, rfl, h₁, h₂⟩ | ⟨stop, h₁, hs⟩
  · obtain ⟨hl, hfrozen⟩ := leg_freeze h₁
    refine hl.append rfl (fun _ => leg_perform (allowed_performing (hfrozen rfl)) h₂) ?_
    simp [legs]
  · have hall (way : List Api.Request) (hw : way ∈ [[freezing name], []]) :
        way ++ [performing name priority] ∈ legs name priority .uploading := by
      simp only [List.mem_cons, List.not_mem_nil, or_false] at hw
      rcases hw with rfl | rfl <;> simp [legs]
    exact (leg_freeze h₁).1.cut (hs.ne_done ()) hall

theorem tidy_commit : Tidy name (d.commit name) :=
  Tidy.bind tidy_look fun _ => Tidy.bind (Tidy.require _ _) fun _ => tidy_call_unit

theorem noted_commit {outcome : Option (Outcome Error Unit)}
    (h : Noted name (d.commit name) ns outcome) :
    (calls ns = [] ∧ (∃ sessions : List Api.Session, ns = sessions.map .shown) ∧
      outcome ≠ some (.done ())) ∨
    ∃ s, ns = [.shown s, .called (committing name)] ∧
      (d.stopOnInvalid = true → s.errorRecords = none ∨ s.errorRecords = some 0) := by
  rcases Noted.of_bind tidy_look h with ⟨first, s, rest, rfl, h₁, h₂⟩ | ⟨stop, h₁, hs⟩
  · rcases noted_look h₁ with ⟨s', rfl, he⟩ | ⟨-, he⟩
    · obtain rfl : s = s' := by simpa using he
      rcases Noted.of_require_bind h₂ with ⟨hr, h₃⟩ | ⟨rfl, rfl⟩
      · rcases noted_call_unit (by simp [lookAt]) h₃ with rfl | ⟨rfl, rfl⟩
        · refine Or.inr ⟨s, rfl, fun hd => ?_⟩
          have hz : s.errors = 0 := by simpa [hd] using hr
          unfold Api.Session.errors at hz
          cases he : s.errorRecords with
          | none => exact Or.inl rfl
          | some n => exact Or.inr (by simpa [he] using hz)
        · exact Or.inl ⟨rfl, ⟨[s], rfl⟩, by simp⟩
      · exact Or.inl ⟨rfl, ⟨[s], rfl⟩, by simp⟩
    · exact absurd rfl (he s)
  · rcases noted_look h₁ with ⟨s, -, rfl⟩ | ⟨rfl, -⟩
    · exact absurd rfl (hs.left_ne_done s)
    · exact Or.inl ⟨rfl, ⟨[], rfl⟩, hs.ne_done ()⟩

theorem leg_ready (hb : Reached .ready before) {outcome : Option (Outcome Error Unit)}
    (h : Noted name (d.commit name) ns outcome) :
    Leg d name priority (legs name priority .ready) .committing before ns
      (outcome = some (.done ())) := by
  obtain ⟨shown, hm, hs⟩ := hb (Or.inl rfl)
  rcases noted_commit h with ⟨hc, ⟨sessions, rfl⟩, hn⟩ | ⟨s, rfl, hr⟩
  · refine ⟨guarded_shown sessions, ⟨[committing name], by simp [legs], ?_⟩, fun ho => absurd ho hn⟩
    rw [hc]
    exact List.nil_prefix
  · refine ⟨⟨allowed_committing ⟨shown, by simp [hm], hs⟩ fun hd => ⟨s, by simp, hr hd⟩, trivial⟩,
      ⟨[committing name], by simp [legs], List.prefix_refl _⟩, fun _ => ?_⟩
    exact ⟨by simp [calls, legs], by simp [Reached]⟩

/-- A wait, as a step of its own. -/
theorem leg_wait {current expecting : Api.Status} {outcome : Option (Outcome Error Unit)}
    (h : Noted name (do let _ ← d.waitFor name current expecting) ns outcome) :
    Leg d name priority [[]] expecting before ns (outcome = some (.done ())) := by
  rcases Noted.of_bind tidy_waitFor h with ⟨first, s, rest, rfl, h₁, h₂⟩ | ⟨stop, h₁, hs⟩
  · obtain ⟨rfl, rfl⟩ := Noted.of_pure h₂
    rw [List.append_nil]
    have hl : Leg d name priority [[]] expecting before first _ := .of_waits (waits_of_waitFor h₁)
    exact ⟨hl.guarded, hl.ordered, fun _ => hl.complete ⟨s, rfl⟩⟩
  · have hl : Leg d name priority [[]] expecting before ns _ := .of_waits (waits_of_waitFor h₁)
    exact ⟨hl.guarded, hl.ordered, fun ho => absurd ho (hs.ne_done ())⟩

theorem tidy_advance : ∀ status, Tidy name (d.advance name priority status)
  | .uploading => Tidy.bind tidy_freeze fun _ => tidy_call_unit
  | .performing => Tidy.bind tidy_waitFor fun _ => Tidy.pure ()
  | .ready => tidy_commit
  | .committing => Tidy.bind tidy_waitFor fun _ => Tidy.pure ()
  | .committed => Tidy.pure ()
  | .unknown => Tidy.throw _

/-- One step makes the calls of its stage, each one allowed. -/
theorem leg_advance {outcome : Option (Outcome Error Unit)} :
    ∀ {status : Api.Status}, Reached status before →
      Noted name (d.advance name priority status) ns outcome →
        Leg d name priority (legs name priority status) (nextStatus status) before ns
          (outcome = some (.done ()))
  | .uploading, _, h => leg_uploading h
  | .performing, _, h => leg_wait h
  | .ready, hb, h => leg_ready hb h
  | .committing, _, h => leg_wait h
  | .committed, hb, h => by
    obtain ⟨rfl, rfl⟩ := Noted.of_pure h
    exact ⟨trivial, ⟨[], by simp [legs], List.prefix_refl _⟩,
      fun _ => ⟨by simp [calls, legs], by simpa [nextStatus] using hb⟩⟩
  | .unknown, _, h => by
    obtain ⟨rfl, rfl⟩ := Noted.of_throw h
    exact ⟨trivial, ⟨[], by simp [legs], List.prefix_refl _⟩, fun ho => by simp at ho⟩

/-! ## Several steps -/

/-- A step and the way from the next stage make a way. -/
theorem append_mem_courses {leg way : List Api.Request} :
    ∀ {status : Api.Status}, leg ∈ legs name priority status →
      way ∈ courses name priority (nextStatus status) →
        leg ++ way ∈ courses name priority status
  | .uploading, hl, hw => by
    simp only [courses, legs, nextStatus, List.mem_cons, List.not_mem_nil, or_false] at hl hw ⊢
    rcases hl with rfl | rfl <;> subst hw
    · exact Or.inl rfl
    · exact Or.inr rfl
  | .performing, hl, hw | .ready, hl, hw | .committing, hl, hw | .committed, hl, hw
  | .unknown, hl, hw => by
    simp_all [courses, legs, nextStatus]

theorem exists_mem_courses (name : String) (priority : Int) :
    ∀ status, ∃ way, way ∈ courses name priority status
  | .uploading | .performing | .ready | .committing | .committed | .unknown => by
    simp [courses]

theorem tidy_advanceBy : ∀ steps status, Tidy name (d.advanceBy name priority steps status)
  | 0, _ => Tidy.pure ()
  | steps + 1, status =>
    Tidy.bind (Tidy.bind (tidy_advance status) fun _ => Tidy.pure _) fun next =>
      tidy_advanceBy steps next

/-- However the service answers, several steps make the calls from a stage on in their order, each
one allowed, and all of them when there are enough steps. -/
theorem leg_advanceBy {outcome : Option (Outcome Error Unit)} :
    ∀ {steps : Nat} {status : Api.Status} {before ns : List Note}, Reached status before →
      Noted name (d.advanceBy name priority steps status) ns outcome →
        Leg d name priority (courses name priority status) .committed before ns
          (stepsLeft status ≤ steps ∧ outcome = some (.done ()))
  | 0, status, before, ns, hb, h => by
    obtain ⟨rfl, rfl⟩ := Noted.of_pure h
    obtain ⟨way, hw⟩ := exists_mem_courses name priority status
    refine ⟨trivial, ⟨way, hw, List.nil_prefix⟩, ?_⟩
    rintro ⟨hs, -⟩
    cases status <;> simp [stepsLeft] at hs
    exact ⟨by simp [calls, courses], by simpa using hb⟩
  | steps + 1, status, before, ns, hb, h => by
    have ht : Tidy name (d.step name status priority) :=
      Tidy.bind (tidy_advance status) fun _ => Tidy.pure _
    obtain ⟨way, hw⟩ := exists_mem_courses name priority (nextStatus status)
    rcases Noted.of_bind ht h with ⟨first, next, rest, rfl, h₁, h₂⟩ | ⟨stop, h₁, hs⟩
    · rcases Noted.of_bind (tidy_advance status) h₁ with ⟨first, u, none, rfl, h₃, h₄⟩ | ⟨_, _, hs⟩
      · obtain ⟨rfl, he⟩ := Noted.of_pure h₄
        obtain rfl : next = nextStatus status := by simpa using he
        rw [List.append_nil]
        have hl := (leg_advance hb h₃).append rfl (fun hr => leg_advanceBy hr h₂)
          fun _ hc _ hc' => append_mem_courses hc hc'
        refine ⟨hl.guarded, hl.ordered, ?_⟩
        rintro ⟨hs, ho⟩
        refine hl.complete ⟨?_, ho⟩
        cases status with
        | unknown =>
          have hn := (Noted.of_throw h₃).2
          simp at hn
        | _ =>
          simp only [stepsLeft, nextStatus] at hs ⊢
          omega
      · exact absurd rfl (hs.ne_done next)
    · have hn : ¬ (stepsLeft status ≤ steps + 1 ∧ outcome = some (.done ())) :=
        fun ho => hs.ne_done () ho.2
      rcases Noted.of_bind (tidy_advance status) h₁ with
        ⟨first, u, none, rfl, h₃, h₄⟩ | ⟨_, h₃, hs'⟩
      · obtain ⟨rfl, rfl⟩ := Noted.of_pure h₄
        exact absurd rfl (hs.left_ne_done _)
      · exact (leg_advance hb h₃).cut hn fun _ hc => append_mem_courses hc hw

theorem tidy_drive {status : Api.Status} : Tidy name (d.drive name status priority) :=
  Tidy.bind (tidy_advanceBy (stepsLeft status) status) fun _ => tidy_look

theorem tidy_complete : Tidy name (d.complete name priority) :=
  Tidy.bind tidy_look fun _ => tidy_drive

/-- Driving a session from a stage that was shown makes the calls from there on, and ends well
only when the last stage was shown. -/
theorem leg_drive {first : Api.Session} {outcome : Option (Outcome Error Api.Session)}
    (h : Noted name (d.drive name first.status priority) ns outcome) :
    Leg d name priority (courses name priority first.status) .committed [.shown first] ns
      (∃ s, outcome = some (.done s)) := by
  have hb : Reached first.status [.shown first] := fun _ => ⟨first, by simp, rfl⟩
  rcases Noted.of_bind (tidy_advanceBy _ _) h with ⟨way, u, last, rfl, h₁, h₂⟩ | ⟨stop, h₁, hs⟩
  · have hl := leg_advanceBy hb h₁
    have hc := hl.complete ⟨Nat.le_refl _, rfl⟩
    obtain ⟨sessions, rfl⟩ : ∃ sessions : List Api.Session, last = sessions.map .shown := by
      rcases noted_look h₂ with ⟨s, rfl, -⟩ | ⟨rfl, -⟩
      · exact ⟨[s], rfl⟩
      · exact ⟨[], rfl⟩
    have hcalls : calls (way ++ sessions.map .shown) = calls way := by
      rw [calls_append, calls_shown, List.append_nil]
    refine ⟨guarded_append _ _ hl.guarded (guarded_shown sessions), ?_, fun _ => ⟨?_, fun hr => ?_⟩⟩
    · rw [hcalls]
      exact hl.ordered
    · rw [hcalls]
      exact hc.1
    · obtain ⟨s, hm, hs⟩ := hc.2 hr
      rw [← List.append_assoc]
      exact ⟨s, List.mem_append_left _ hm, hs⟩
  · have hl := leg_advanceBy hb h₁
    refine ⟨hl.guarded, hl.ordered, ?_⟩
    rintro ⟨s, ho⟩
    exact absurd ho (hs.ne_done s)

/-- Nothing is noted before the session is shown, and then it is driven from the stage that it is
in. -/
theorem noted_complete {outcome : Option (Outcome Error Api.Session)}
    (h : Noted name (d.complete name priority) ns outcome) :
    (ns = [] ∧ ∀ s, outcome ≠ some (.done s)) ∨ ∃ first rest, ns = .shown first :: rest ∧
      Noted name (d.drive name first.status priority) rest outcome := by
  rcases Noted.of_bind tidy_look h with ⟨looked, first, rest, rfl, h₁, h₂⟩ | ⟨stop, h₁, hs⟩
  · rcases noted_look h₁ with ⟨s, rfl, he⟩ | ⟨-, he⟩
    · obtain rfl : first = s := by simpa using he
      exact Or.inr ⟨first, rest, rfl, h₂⟩
    · exact absurd rfl (he first)
  · rcases noted_look h₁ with ⟨s, -, rfl⟩ | ⟨rfl, -⟩
    · exact absurd rfl (hs.left_ne_done s)
    · exact Or.inl ⟨rfl, hs.ne_done⟩

/-- A session that was driven to its end was shown to be committed. -/
theorem committed_of_complete {events : List Event} {last : Api.Session}
    (h : Trace (d.complete name priority) events (some (.done last))) :
    ∃ looked shown, (⟨.api (.send (lookAt name)), looked⟩ : Event) ∈ events ∧
      seen name looked = some shown ∧ shown.status = .committed := by
  have hn : Noted name (d.complete name priority) (notes name false events) _ := ⟨events, h, rfl⟩
  rcases noted_complete hn with ⟨-, ho⟩ | ⟨first, rest, hns, hd⟩
  · exact absurd rfl (ho last)
  · obtain ⟨shown, hm, hs⟩ := ((leg_drive hd).complete ⟨last, rfl⟩).2 (Or.inr rfl)
    have hm' : .shown shown ∈ notes name false events := by
      rw [hns]
      exact hm
    obtain ⟨looked, hl, hseen⟩ := seen_of_mem_notes hm'
    exact ⟨looked, shown, hl, hseen, hs⟩

/-! ## The whole course -/

theorem nodup_of_mem_courses {status : Api.Status} {way : List Api.Request}
    (h : way ∈ courses name priority status) : way.Nodup := by
  cases status with
  | uploading =>
    simp only [courses, List.mem_cons, List.not_mem_nil, or_false] at h
    rcases h with rfl | rfl <;> simp [freezing, performing, committing]
  | performing | ready | committing | committed | unknown =>
    rw [List.mem_singleton.1 h]
    simp

/-- A session is taken to its last stage from the one that it is shown in first. -/
structure Course (d : SessionDriver) (name : String) (priority : Int) (first : Api.Session)
    (ns : List Note) (outcome : Option (Outcome Error Api.Session)) : Prop where
  /-- The calls are made in their order. -/
  ordered : ∃ way ∈ courses name priority first.status, calls ns <+: way
  /-- No call is made twice. -/
  once : (calls ns).Nodup
  /-- Each call waits for what the service has to tell first. -/
  allowed : ∀ before request after, ns = before ++ .called request :: after →
    Allowed d name priority before request
  /-- When the driver succeeds, all calls were made and the last stage was shown. -/
  complete : ∀ s, outcome = some (.done s) → calls ns ∈ courses name priority first.status ∧
    ∃ shown, .shown shown ∈ ns ∧ shown.status = .committed

/-- Whatever the service answers, a session is taken through the calls that its first stage leaves
to be made, and no request is sent that is neither a look nor one of these calls. -/
theorem course_of_complete {events : List Event} {outcome : Option (Outcome Error Api.Session)}
    (h : Trace (d.complete name priority) events outcome) :
    (∀ request reply, (⟨.api (.send request), reply⟩ : Event) ∈ events →
      request = lookAt name ∨ request ∈ calls (notes name false events)) ∧
    ((notes name false events = [] ∧ ∀ s, outcome ≠ some (.done s)) ∨
      ∃ first rest, notes name false events = .shown first :: rest ∧
        Course d name priority first (notes name false events) outcome) := by
  refine ⟨fun request reply hm => ?_, ?_⟩
  · refine ((tidy_complete events outcome h).noticed request reply hm).imp_right fun hn => ?_
    exact List.mem_filterMap.2 ⟨_, hn, rfl⟩
  · rcases noted_complete ⟨events, h, rfl⟩ with hn | ⟨first, rest, hns, hd⟩
    · exact Or.inl hn
    · have hl := leg_drive hd
      obtain ⟨way, hw, hp⟩ := hl.ordered
      refine Or.inr ⟨first, rest, hns, ?_⟩
      rw [hns]
      refine ⟨⟨way, hw, hp⟩, hp.sublist.nodup (nodup_of_mem_courses hw), ?_, ?_⟩
      · intro before request after he
        have hg : Guarded d name priority [] (.shown first :: rest) := hl.guarded
        exact allowed_of_guarded [] before (he ▸ hg)
      · intro s hs
        obtain ⟨hc, hr⟩ := hl.complete ⟨s, hs⟩
        exact ⟨hc, hr (Or.inr rfl)⟩

/-- A reply that tells the table and the stage of a session. -/
def told (table status : String) : Rehearsal.Reaction :=
  { body := Text.Utf8.encode ("\x7b\"name\":\"s\",\"database\":\"d\",\"table\":\"" ++ table ++
      "\",\"status\":\"" ++ status ++ "\"\x7d") }

/-- The moment at which everything is played. -/
def epoch : Calendar.Instant :=
  ⟨0, 0, by decide, by decide, by decide⟩

/-- A service at which a session passes through its stages; one look at it fails. -/
def passing : Rehearsal.World where
  service :=
    { routes := [⟨"GET *", [told "t" "uploading", { status := 503 }, told "t" "uploading",
        told "t" "ready", told "t" "ready", told "t" "committed"]⟩, ⟨"POST *", [{}]⟩] }
  moment := epoch

/-- A driver that tries each call twice. -/
def careful : SessionDriver where
  client := ⟨"http://localhost", "k", ⟨1, .ofMillis 1, .ofMillis 1⟩, Api.WebUrl.library⟩
  stopOnInvalid := true

/-- The driver at a service : its questions with their answers, and how it ends. -/
def driving (world : Rehearsal.World) : List Event × Outcome Error Api.Session :=
  Program.transcript (Rehearsal.World.answer careful.client) (careful.complete "s" 1) world

theorem trace_driving (world : Rehearsal.World) :
    Trace (careful.complete "s" 1) (driving world).1 (some (driving world).2) :=
  Program.trace_transcript _ _ _

/-- The questions of the driver at that service. -/
def passage : List Event × Outcome Error Api.Session :=
  Program.transcript (Rehearsal.World.answer careful.client) (careful.complete "s" 1) passing

/-- At that service the session is frozen, performed and committed. -/
theorem course_of_passing :
    calls (notes "s" false passage.1) = [freezing "s", performing "s" 1, committing "s"] ∧
      ∃ first rest, notes "s" false passage.1 = .shown first :: rest ∧
        Course careful "s" 1 first (notes "s" false passage.1) (some passage.2) := by
  have hc : calls (notes "s" false passage.1) =
      [freezing "s", performing "s" 1, committing "s"] := by
    decide +kernel
  have ht : Trace (careful.complete "s" 1) passage.1 (some passage.2) :=
    Program.trace_transcript _ _ _
  obtain ⟨-, ⟨hn, -⟩ | hp⟩ := course_of_complete ht
  · rw [hn] at hc
    cases hc
  · exact ⟨hc, hp⟩

end BulkLoad.Import.SessionDriver
