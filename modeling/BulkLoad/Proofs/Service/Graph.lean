import BulkLoad.Proofs.Service.Behaviour

/-!
# Driving a session at its service

A service that follows the graph of the stages takes a session from uploading to performing and from
ready to committing when it is asked to, and on from performing and from committing by itself
(`Follows`). Any reply may be lost, whether the request took effect or not.

What a driver knows of the stage is where the session was when it last heard of it, or where its
call has taken it; since then the session may only have moved alone (`Since`). This is kept by every
part of a driver, so drivers that take a session on one after the other, each from where the one
before was cut off, never find it in a stage that they do not expect (`tracked_of_driven`).
-/

namespace BulkLoad.Import

open Program (Trace)
open SessionDriver (freezing performing committing driving trace_driving)

/-- The error says that a session is not in a stage that it should be in. -/
def Error.Strays : Error → Prop
  | .wrongStatus .. | .unknownStatus _ => True
  | _ => False

/-! ## The graph -/

/-- What becomes of a stage while nothing is asked for. -/
inductive Alone : Api.Status → Api.Status → Prop
  | still (stage : Api.Status) : Alone stage stage
  | performed : Alone .performing .ready
  | loaded : Alone .committing .committed

namespace Alone

variable {a b c : Api.Status}

theorem trans (h : Alone a b) (h' : Alone b c) : Alone a c := by
  cases h with
  | still => exact h'
  | performed => cases h'; exact performed
  | loaded => cases h'; exact loaded

theorem ne_unknown (h : Alone a b) (ha : a ≠ .unknown) : b ≠ .unknown := by
  cases h with
  | still => exact ha
  | performed | loaded => simp

theorem of_uploading (h : Alone .uploading a) : a = .uploading := by
  cases h; rfl

theorem of_ready (h : Alone .ready a) : a = .ready := by
  cases h; rfl

theorem of_committed (h : Alone .committed a) : a = .committed := by
  cases h; rfl

/-- A stage that is left alone is the one that follows then. -/
theorem eq_or_eq (h : Alone a b) : b = a ∨ b = nextStatus a := by
  cases h with
  | still => exact Or.inl rfl
  | performed | loaded => exact Or.inr rfl

end Alone

/-- What becomes of a stage when it is asked to turn from one into another, by the verdict on the
request. -/
def Turns (source target : Api.Status) : Verdict → Api.Status → Api.Status → Prop
  | .taken, stage, stage' => stage = source ∧ stage' = target
  | .conflict, stage, stage' => stage ≠ source ∧ stage' = stage
  | .missing, stage, stage' | .lost, stage, stage' =>
    stage' = stage ∨ stage = source ∧ stage' = target

/-- How a request is answered that a driver makes of a session, and the stage then. -/
structure Obeys (name : String) (stage : Api.Status) (request : Api.Request) (reply : Api.Reply)
    (stage' : Api.Status) : Prop where
  looked : request = lookAt name →
    stage' = stage ∧ ∀ shown, seen name reply = some shown → shown.status = stage
  frozen : request = freezing name → stage' = stage
  performed : ∀ priority, request = performing name priority →
    Turns .uploading .performing (verdict request reply) stage stage'
  committed : request = committing name →
    Turns .ready .committing (verdict request reply) stage stage'

variable {σ : Type} {v : Behaviour σ} {name : String} {stage : σ → Api.Status}

/-- A service that takes a session along the graph, where `stage` tells its stage. -/
structure Follows (v : Behaviour σ) (name : String) (stage : σ → Api.Status) : Prop where
  moves : ∀ s s', v.moves s s' → Alone (stage s) (stage s')
  treats : ∀ s request reply s', v.treats s request reply s' →
    Obeys name (stage s) request reply (stage s')

/-! ## What a driver knows -/

/-- The session was in a stage of the graph, and was left alone since then. -/
def Since (stage : σ → Api.Status) (known : Api.Status) (s : σ) : Prop :=
  known ≠ .unknown ∧ Alone known (stage s)

/-- The session stays in the graph, and is never found elsewhere. -/
def tracking (stage : σ → Api.Status) : Aim σ Error where
  always s := stage s ≠ .unknown
  fails e := ¬ e.Strays

namespace Follows

variable {d : SessionDriver} {priority : Int} {K : Api.Status → Prop}

/-- A property of stages that lasts while the session is left alone. -/
theorem steady (h : Follows v name stage) (hK : ∀ a b, Alone a b → K a → K b)
    (hu : ¬ K .unknown) : Steady v (tracking stage) fun s => K (stage s) where
  lasts s s' m hs := hK _ _ (h.moves s s' m) hs
  within _ hs he := hu (he ▸ hs)

theorem steady_since (h : Follows v name stage) (known : Api.Status) :
    Steady v (tracking stage) (Since stage known) where
  lasts s s' m hs := ⟨hs.1, hs.2.trans (h.moves s s' m)⟩
  within _ hs := hs.2.ne_unknown hs.1

theorem lasts_always (h : Follows v name stage) : v.Lasts (tracking stage).always :=
  fun _ _ m hs => (h.moves _ _ m).ne_unknown hs

/-- A look shows the session in a stage that it was in, and it was left alone since then. -/
theorem brings_look (h : Follows v name stage) (hK : ∀ a b, Alone a b → K a → K b)
    (hu : ¬ K .unknown) :
    Brings v (tracking stage) (fun s => K (stage s)) (d.look name)
      fun shown s => K shown.status ∧ Since stage shown.status s := by
  have hJ := h.steady hK hu
  have hR (shown : Api.Session) :
      Steady v (tracking stage) fun s => K shown.status ∧ Since stage shown.status s :=
    ⟨fun s s' m hs => ⟨hs.1, (h.steady_since _).lasts s s' m hs.2⟩,
      fun _ hs => (h.steady_since _).within _ hs.2⟩
  change Brings v _ _ (calling (d.client.fetch (.sessionShow name) Api.Session.decoder)) _
  rw [calling_fetch]
  refine Judged.requesting (.of_verdicts trivial hJ hR h.lasts_always (fun _ _ _ => rfl) ?_ ?_)
  · intro s reply s' hs ht _
    exact ⟨((h.treats _ _ _ _ ht).looked rfl).1 ▸ hs, fun _ => id⟩
  · intro s reply s' hs ht _
    obtain ⟨hstage, hshown⟩ := (h.treats _ _ _ _ ht).looked rfl
    cases hd : decoded d.client (.sessionShow name) Api.Session.decoder
        (Api.Client.settle (lookAt name) reply) with
    | ok shown =>
      have hk : K shown.status := hshown shown (decoded_iff_seen.1 hd) ▸ hs
      rw [lookAt] at hd
      rw [hd, landed_ok, Since, hstage, ← hshown shown (decoded_iff_seen.1 hd)]
      exact ⟨hk, fun hn => hu (hn ▸ hk), .still _⟩
    | error e =>
      rw [lookAt] at hd
      rw [hd, landed_error]
      exact ⟨id, hJ.within s' (hstage ▸ hs)⟩

/-- A call for something that may be done already. -/
theorem brings_orConflict (h : Follows v name stage) {request : Api.Request} {J R : σ → Prop}
    (hJ : Steady v (tracking stage) J) (hR : Steady v (tracking stage) R)
    (hkept : ∀ s reply s', J s → v.treats s request reply s' →
      verdict request reply = .missing ∨ verdict request reply = .lost → J s')
    (hdone : ∀ s reply s', J s → v.treats s request reply s' →
      verdict request reply = .taken ∨ verdict request reply = .conflict → R s') :
    Brings v (tracking stage) J (do let _ ← callingOrConflict (d.client.perform request))
      fun _ => R := by
  have hcall : Brings v (tracking stage) J (callingOrConflict (d.client.perform request))
      fun _ => R := by
    rw [callingOrConflict_perform]
    refine Judged.requesting (.of_verdicts trivial hJ (fun _ => hR) h.lasts_always ?_ ?_ ?_)
    · intro e hc _
      simp [Except.map, Api.ignoreConflict, hc]
    · exact fun s reply s' hs ht hl => ⟨hkept s reply s' hs ht (Or.inr hl), fun _ => id⟩
    · intro s reply s' hs ht hl
      rcases verdict_cases request reply with
        ⟨body, hb, hv⟩ | ⟨e, he, hc, hv⟩ | ⟨e, he, hc, -, hv⟩ | ⟨-, -, -, -, hv⟩
      · rw [hb]
        exact hdone s reply s' hs ht (Or.inl hv)
      · rw [he]
        simp only [Except.map, Api.ignoreConflict, hc, if_true, landed_ok]
        exact hdone s reply s' hs ht (Or.inr hv)
      · rw [he]
        simp only [Except.map, Api.ignoreConflict, hc]
        exact ⟨id, hJ.within s' (hkept s reply s' hs ht (Or.inl hv))⟩
      · exact absurd hv hl
  exact hcall.bind fun _ => Brings.pure hR fun _ => id

/-- A call that asks a session to turn from one stage into another has done so when it ends, or an
earlier attempt has. -/
theorem brings_turn (h : Follows v name stage) {request : Api.Request} {source target : Api.Status}
    (hturns : ∀ s reply s', v.treats s request reply s' →
      Turns source target (verdict request reply) (stage s) (stage s'))
    (hsource : ∀ a, Alone source a → a = source) (hne : source ≠ .unknown)
    (hne' : target ≠ .unknown) :
    Brings v (tracking stage) (Since stage source)
      (do let _ ← callingOrConflict (d.client.perform request)) fun _ => Since stage target := by
  -- An attempt whose reply was lost may have turned the session already.
  let J (s : σ) : Prop := stage s = source ∨ Alone target (stage s)
  have hJ : Steady v (tracking stage) J := by
    constructor
    · rintro s s' m (hs | hs)
      · exact Or.inl (hsource _ (hs ▸ h.moves s s' m))
      · exact Or.inr (hs.trans (h.moves s s' m))
    · rintro s (hs | hs)
      · exact fun he => hne (hs ▸ he)
      · exact hs.ne_unknown hne'
  refine Brings.mono (h.brings_orConflict hJ (h.steady_since target) ?_ ?_)
    (fun s hs => Or.inl (hsource _ hs.2)) fun _ _ => id
  · intro s reply s' hs ht hv
    have hturn : stage s' = stage s ∨ stage s = source ∧ stage s' = target := by
      have hturn := hturns s reply s' ht
      rcases hv with hv | hv <;> simpa only [hv, Turns] using hturn
    rcases hturn with hturn | ⟨-, hturn⟩
    · simpa only [J, hturn] using hs
    · exact Or.inr (hturn ▸ .still _)
  · intro s reply s' hs ht hv
    have hturn := hturns s reply s' ht
    rcases hv with hv | hv
    · rw [hv] at hturn
      exact ⟨hne', hturn.2 ▸ .still _⟩
    · rw [hv] at hturn
      exact ⟨hne', hturn.2 ▸ hs.resolve_left hturn.1⟩

theorem brings_freeze (h : Follows v name stage) :
    Brings v (tracking stage) (Since stage .uploading) (d.freeze name)
      fun _ => Since stage .uploading := by
  have hJ := h.steady_since .uploading
  have hkept (s : σ) (reply : Api.Reply) (s' : σ) (hs : Since stage .uploading s)
      (ht : v.treats s (freezing name) reply s') : Since stage .uploading s' :=
    ⟨hs.1, (h.treats _ _ _ _ ht).frozen rfl ▸ hs.2⟩
  refine Brings.bind (Q := fun _ => Since stage .uploading) ?_ fun shown => ?_
  · refine (h.brings_look (K := (· = .uploading)) ?_ (by simp)).mono ?_ ?_
    · rintro a b m rfl
      exact m.of_uploading
    · exact fun s hs => hs.2.of_uploading
    · rintro shown s ⟨hk, hs⟩
      exact hk ▸ hs
  · split
    · exact Brings.pure hJ fun _ => id
    · exact h.brings_orConflict hJ hJ (fun s reply s' hs ht _ => hkept s reply s' hs ht)
        fun s reply s' hs ht _ => hkept s reply s' hs ht

/-- A wait from a stage for the next one finds no other, and ends there if it ends. -/
theorem brings_poll (h : Follows v name stage) {current : Api.Status} {started : Nat} :
    ∀ {patience : Nat}, Brings v (tracking stage) (Since stage current)
      (d.poll name current (nextStatus current) started patience)
      fun _ => Since stage (nextStatus current)
  | 0 => Brings.aborted (h.steady_since current) trivial
  | patience + 1 => by
    unfold SessionDriver.poll
    refine Brings.bind (Q := fun shown s => (current ≠ .unknown ∧ Alone current shown.status) ∧
      Since stage shown.status s) ?_ fun shown => ?_
    · refine (h.brings_look (K := fun a => current ≠ .unknown ∧ Alone current a) ?_ ?_).mono
        (fun _ => id) fun _ _ => id
      · exact fun a b m hs => ⟨hs.1, hs.2.trans m⟩
      · exact fun hs => hs.2.ne_unknown hs.1 rfl
    refine Brings.assume (fun s hs => hs.1) ?_
    rintro ⟨hne, hshown⟩
    have hsteady := h.steady_since shown.status
    refine Brings.mono (P := Since stage shown.status)
      (Q := fun _ => Since stage (nextStatus current)) ?_ (fun s hs => hs.2) fun _ _ => id
    split
    next he => exact Brings.pure hsteady fun s hs => he ▸ hs
    next he =>
      have hcurrent : shown.status = current := hshown.eq_or_eq.resolve_right he
      rw [hcurrent] at hsteady ⊢
      refine Brings.require hsteady (fun _ => ?_) fun hf => absurd hf (by simp)
      refine Brings.ask (by simp) hsteady fun now => ?_
      refine Brings.require hsteady (fun _ => ?_) fun _ _ _ => id
      refine Brings.ask (by simp) hsteady fun cancelled => ?_
      refine Brings.require hsteady (fun _ => ?_) fun _ _ _ => id
      exact brings_poll h

theorem brings_wait (h : Follows v name stage) {current : Api.Status} :
    Brings v (tracking stage) (Since stage current)
      (do let _ ← d.waitFor name current (nextStatus current))
      fun _ => Since stage (nextStatus current) :=
  Brings.bind (Brings.ask (by simp) (h.steady_since current) fun _ => brings_poll h)
    fun _ => Brings.pure (h.steady_since _) fun _ => id

theorem brings_commit (h : Follows v name stage) :
    Brings v (tracking stage) (Since stage .ready) (d.commit name)
      fun _ => Since stage .committing := by
  refine Brings.bind (Q := fun _ => Since stage .ready) ?_ fun shown => ?_
  · refine (h.brings_look (K := (· = .ready)) ?_ (by simp)).mono ?_ ?_
    · rintro a b m rfl
      exact m.of_ready
    · exact fun s hs => hs.2.of_ready
    · rintro shown s ⟨hk, hs⟩
      exact hk ▸ hs
  · refine Brings.require (h.steady_since _) (fun _ => ?_) fun _ _ _ => id
    exact h.brings_turn (fun s reply s' ht => (h.treats _ _ _ _ ht).committed rfl)
      (fun _ => Alone.of_ready) (by simp) (by simp)

/-- A step from a stage leads to the next one. -/
theorem brings_advance (h : Follows v name stage) : ∀ {known : Api.Status},
    Brings v (tracking stage) (Since stage known) (d.advance name priority known)
      fun _ => Since stage (nextStatus known)
  | .uploading => h.brings_freeze.bind fun _ =>
    h.brings_turn (fun s reply s' ht => (h.treats _ _ _ _ ht).performed priority rfl)
      (fun _ => Alone.of_uploading) (by simp) (by simp [nextStatus])
  | .performing => h.brings_wait
  | .ready => h.brings_commit
  | .committing => h.brings_wait
  | .committed => Brings.pure (h.steady_since _) fun _ => id
  | .unknown => Brings.throw (h.steady_since _) fun _ hs => absurd rfl hs.1

/-- As many steps as are left lead to the last stage. -/
theorem brings_advanceBy (h : Follows v name stage) : ∀ {steps : Nat} {known : Api.Status},
    Brings v (tracking stage) (Since stage known) (d.advanceBy name priority steps known)
      fun _ s => stepsLeft known ≤ steps → Since stage .committed s
  | 0, known => Brings.pure (h.steady_since _) fun s hs hsteps => by
    obtain rfl : known = .committed := by
      cases known <;> simp [stepsLeft] at hsteps
      rfl
    exact hs
  | steps + 1, known => by
    refine Brings.assume (fun s hs => hs.1) fun hne => ?_
    refine Brings.bind (Q := fun next s => next = nextStatus known ∧ Since stage next s) ?_ ?_
    · exact h.brings_advance.bind fun _ => Brings.pure (h.steady_since _) fun s hs => ⟨rfl, hs⟩
    · intro next
      refine Brings.assume (fun s hs => hs.1) ?_
      rintro rfl
      refine (brings_advanceBy h).mono (fun s hs => hs.2) fun _ s hs hsteps => hs ?_
      cases known <;> simp [stepsLeft, nextStatus] at hne hsteps ⊢ <;> omega

/-- A driver takes a session from any stage of the graph to the last one. -/
theorem brings_complete (h : Follows v name stage) :
    Brings v (tracking stage) (fun s => stage s ≠ .unknown) (d.complete name priority)
      fun shown s => shown.status = .committed ∧ stage s = .committed := by
  refine Brings.bind (Q := fun shown => Since stage shown.status) ?_ fun shown => ?_
  · exact (h.brings_look (K := (· ≠ .unknown)) (fun a b m => m.ne_unknown) (by simp)).mono
      (fun _ => id) fun _ s hs => hs.2
  · refine Brings.bind (Q := fun _ => Since stage .committed) ?_ fun _ => ?_
    · exact h.brings_advanceBy.mono (fun _ => id) fun _ s hs => hs (Nat.le_refl _)
    · refine (h.brings_look (K := (· = .committed)) ?_ (by simp)).mono ?_ ?_
      · rintro a b m rfl
        exact m.of_committed
      · exact fun s hs => hs.2.of_committed
      · rintro shown s ⟨hk, -, hs⟩
        exact ⟨hk, (hk ▸ hs).of_committed⟩

end Follows

/-! ## Drivers that are cut off -/

/-- Drivers take a session on, one after the other, each of them up to any point. Their outcomes are
told; a driver that was cut off has none. -/
inductive Driven (v : Behaviour σ) (name : String) (start : σ) :
    List (Option (Outcome Error Api.Session)) → σ → Prop
  | nobody : Driven v name start [] start
  | again {outcomes : List (Option (Outcome Error Api.Session))} {s last : σ} {d : SessionDriver}
    {priority : Int} {events : List Event} {requests : List Api.Request}
    {outcome : Option (Outcome Error Api.Session)} (h : Driven v name start outcomes s)
    (hv : Visit v (d.complete name priority) (events.map .own) s requests outcome last) :
    Driven v name start (outcomes ++ [outcome]) last

/-- However often drivers are cut off and others go on in their place, and whatever replies are
lost, none of them finds the session in a stage that it does not expect, and those that succeed
leave it committed. -/
theorem tracked_of_driven {start last : σ} {outcomes : List (Option (Outcome Error Api.Session))}
    (hf : Follows v name stage) (hstart : stage start ≠ .unknown)
    (h : Driven v name start outcomes last) :
    stage last ≠ .unknown ∧ ∀ outcome ∈ outcomes,
      (∀ e, outcome = some (.failed e) → ¬ e.Strays) ∧
      ∀ shown, outcome = some (.done shown) → shown.status = .committed := by
  induction h with
  | nobody => exact ⟨hstart, by simp⟩
  | again h hv ih =>
    obtain ⟨hs, houtcomes⟩ := ih
    have hm := hf.brings_complete.of_visit hv hs (by simp)
    refine ⟨hm.always, List.forall_mem_append.2 ⟨houtcomes, ?_⟩⟩
    rw [List.forall_mem_singleton]
    exact ⟨hm.failure, fun shown ho => (hm.result shown ho).1⟩

/-! A service that does whatever it may, and a driver that is cut off at it. -/

/-- The service that answers a request about a session in any way that follows the graph. -/
def following (name : String) : Behaviour Api.Status where
  moves := Alone
  treats := Obeys name

theorem follows_following (name : String) : Follows (following name) name id :=
  ⟨fun _ _ => id, fun _ _ _ _ => id⟩

/-- A service at which the replies to a perform are lost. -/
def mislaying : Rehearsal.World where
  service :=
    { routes := [⟨"GET *", [SessionDriver.told "t" "uploading"]⟩,
        ⟨"POST /v3/bulk_import/perform/*", [{ drops := true }]⟩, ⟨"POST *", [{}]⟩] }
  moment := SessionDriver.epoch

/-- The service later on, where the first reply to a commit is lost. -/
def recovering : Rehearsal.World where
  service :=
    { routes := [⟨"GET *", ["performing", "performing", "ready", "ready", "committed"].map
          (SessionDriver.told "t")⟩,
        ⟨"POST *", [{ status := 503 }, { status := 409 }]⟩] }
  moment := SessionDriver.epoch

/-- The reply that shows a session. -/
def showing (status : String) : Api.Reply :=
  .answered 200 (SessionDriver.told "t" status).body

theorem obeys_look {status : Api.Status} {reply : Api.Reply}
    (h : (seen name reply).map (·.status) = some status) :
    Obeys name status (lookAt name) reply status where
  looked _ := ⟨rfl, fun shown hs => by simpa [hs] using h⟩
  frozen _ := rfl
  performed _ hp := by simp [lookAt, performing] at hp
  committed hc := by simp [lookAt, committing] at hc

theorem obeys_freezing {status : Api.Status} {reply : Api.Reply} :
    Obeys name status (freezing name) reply status where
  looked hl := by simp [lookAt, freezing] at hl
  frozen _ := rfl
  performed _ hp := by simp [freezing, performing] at hp
  committed hc := by simp [freezing, committing] at hc

theorem obeys_performing {priority : Int} {status status' : Api.Status} {reply : Api.Reply}
    (h : Turns .uploading .performing (verdict (performing name priority) reply) status status') :
    Obeys name status (performing name priority) reply status' where
  looked hl := by simp [lookAt, performing] at hl
  frozen hf := by simp [freezing, performing] at hf
  performed _ hp := hp ▸ h
  committed hc := by simp [performing, committing] at hc

theorem obeys_committing {status status' : Api.Status} {reply : Api.Reply}
    (h : Turns .ready .committing (verdict (committing name) reply) status status') :
    Obeys name status (committing name) reply status' where
  looked hl := by simp [lookAt, committing] at hl
  frozen hf := by simp [freezing, committing] at hf
  performed _ hp := by simp [performing, committing] at hp
  committed _ := h

theorem obeys_showing : ∀ status ∈ [Api.Status.uploading, .performing, .ready, .committed],
    Obeys "s" status (lookAt "s") (showing status.name) status := by
  have hseen : ∀ status ∈ [Api.Status.uploading, .performing, .ready, .committed],
      (seen "s" (showing status.name)).map (·.status) = some status := by decide +kernel
  exact fun status hm => obeys_look (hseen status hm)

/-- A driver is cut off before it hears that the session was performed. The next one finds it
performing, and hears of its commit only by a conflict. -/
theorem tracked_resumed : Follows (following "s") "s" id ∧ Api.Status.uploading ≠ .unknown ∧
    ∃ shown, Driven (following "s") "s" .uploading [none, some (.done shown)] .committed ∧
      shown.status = .committed := by
  obtain ⟨_, hcut⟩ : ∃ requests, Visit (following "s") (SessionDriver.careful.complete "s" 1)
      (((driving mislaying).1.take 3).map .own) .uploading requests none .performing := by
    obtain ⟨hsent, hasked⟩ : sendings ((driving mislaying).1.take 3) =
        [(lookAt "s", showing "uploading"), (lookAt "s", showing "uploading"),
          (freezing "s", .answered 200 [])] ∧
        ((((driving mislaying).1.map Happening.own)[3]?).bind Happening.ownSending?) =
          some (performing "s" 1, .dropped Rehearsal.World.noAnswer) := by
      decide +kernel
    have hlost : Obeys "s" .uploading (performing "s" 1) (.dropped Rehearsal.World.noAnswer)
        .performing :=
      obeys_performing (Or.inr ⟨rfl, rfl⟩)
    have hserved : (following "s").Serves .uploading
        (traffic (((driving mislaying).1.map .own).take 3)) .uploading := by
      rw [← List.map_take, traffic_own, hsent]
      exact .treated (obeys_showing _ (by simp)) (.treated (obeys_showing _ (by simp))
        (.treated obeys_freezing (.nil _)))
    have htrace := trace_driving mislaying
    rw [← own_map_own (driving mislaying).1] at htrace
    have hcut : Visit (following "s") (SessionDriver.careful.complete "s" 1) _ _ _ _ .performing :=
      Visit.of_cut htrace hasked hserved hlost
    rw [← List.map_take] at hcut
    exact ⟨_, hcut⟩
  obtain ⟨hsent, hshown⟩ : sendings (driving recovering).1 =
      [(lookAt "s", showing "performing"), (lookAt "s", showing "performing"),
        (lookAt "s", showing "ready"), (lookAt "s", showing "ready"),
        (committing "s", .answered 503 []), (committing "s", .answered 409 []),
        (lookAt "s", showing "committed"), (lookAt "s", showing "committed")] ∧
      (driving recovering).2 =
        .done ⟨"s", "d", "t", .committed, false, none, none, none, none, none⟩ := by
    decide +kernel
  have hlost : Obeys "s" .ready (committing "s") (.answered 503 []) .committing :=
    obeys_committing (Or.inr ⟨rfl, rfl⟩)
  have hdone : Visit (following "s") (SessionDriver.careful.complete "s" 1)
      ((driving recovering).1.map .own) .performing _ (some (driving recovering).2) .committed :=
    Visit.of_trace (trace_driving recovering) (by
      rw [hsent]
      exact .treated (obeys_showing _ (by simp)) (.treated (obeys_showing _ (by simp))
        (.moved .performed (.treated (obeys_showing _ (by simp))
          (.treated (obeys_showing _ (by simp))
            (.treated hlost
              (.moved .loaded (.treated (obeys_committing ⟨by decide, rfl⟩)
                (.treated (obeys_showing _ (by simp))
                  (.treated (obeys_showing _ (by simp)) (.nil _)))))))))))
  have hdriven := Driven.again (.again .nobody hcut) hdone
  rw [hshown] at hdriven
  obtain ⟨-, houtcomes⟩ := tracked_of_driven (follows_following "s") (by decide) hdriven
  exact ⟨follows_following "s", by decide, _, hdriven, (houtcomes _ (by simp)).2 _ rfl⟩

end BulkLoad.Import
