import BulkLoad.Proofs.Import.Requests
import BulkLoad.Proofs.Import.Traffic

/-!
# Sessions in unknown stages

A driver that looks at a session to learn its stage stops when the stage is unknown : it asks
nothing any more and fails (`stopped_of_unknown`). But a driver also looks again at a session whose
stage it was just told, before it freezes or commits it and at the very end (`LooksAgain`). What it
is told of the stage then is not heeded : with an unknown stage in such a reply it goes on to
freeze, perform and commit, and succeeds (`unknown_unheeded`).
-/

namespace BulkLoad.Import

open Program (Trace Stopped Keeps)

/-- The error says that the stage of a session is unknown. -/
def Error.TellsUnknown (name : String) : Error → Prop
  | .unknownStatus session => session = name
  | .wrongStatus session _ _ observed => session = name ∧ observed = .unknown
  | _ => False

namespace SessionDriver

variable {d : SessionDriver} {name : String} {priority : Int} {ε α β : Type}
  {before first rest events : List Event} {reply : Api.Reply} {s : Api.Session}

/-! ## What was told -/

/-- A session in this stage was shown last, and no call was made since. -/
def Told (name : String) (status : Api.Status) (events : List Event) : Prop :=
  ∃ s, (notes name false events).getLast? = some (.shown s) ∧ s.status = status

/-- The stages in which a driver looks again at a session. -/
def lookedAtAgain : List Api.Status :=
  [.uploading, .ready, .committed]

/-- The driver has just been told of a stage in which it looks again. -/
def LooksAgain (name : String) (events : List Event) : Prop :=
  ∃ status ∈ lookedAtAgain, Told name status events

/-- A stage in which a driver looks again was told. -/
def Standing (name : String) (status : Api.Status) (events : List Event) : Prop :=
  status ∈ lookedAtAgain → Told name status events

theorem Standing.looksAgain {status : Api.Status} (h : Standing name status events)
    (hm : status ∈ lookedAtAgain) : LooksAgain name events :=
  ⟨status, hm, h hm⟩

/-- A reply that shows a session is noted. -/
theorem shown_mem_notes (hs : seen name reply = some s) : ∀ {again : Bool} {events : List Event},
    (⟨.api (.send (lookAt name)), reply⟩ : Event) ∈ events →
      Note.shown s ∈ notes name again events
  | again, e :: rest, hm => by
    rcases List.mem_cons.1 hm with rfl | hm
    · simp [notes, note, hs]
    · exact List.mem_append_right _ (shown_mem_notes hs hm)

theorem notes_snoc_look (hs : seen name reply = some s) (again : Bool) (events : List Event) :
    notes name again (events ++ [⟨.api (.send (lookAt name)), reply⟩]) =
      notes name again events ++ [.shown s] := by
  simp [notes_append, notes, note, hs]

theorem told_snoc_look (hs : seen name reply = some s) :
    Told name s.status (events ++ [⟨.api (.send (lookAt name)), reply⟩]) :=
  ⟨s, by simp [notes_snoc_look hs], rfl⟩

/-- What nothing is noted of does not change what was told. -/
theorem LooksAgain.append (h : LooksAgain name before)
    (hn : ∀ again, notes name again events = []) : LooksAgain name (before ++ events) := by
  obtain ⟨status, hm, s, hs⟩ := h
  exact ⟨status, hm, s, by rwa [notes_append, hn, List.append_nil]⟩

/-- A look ends with the reply that shows a session, if there is one. -/
theorem look_cases {outcome : Option (Outcome Error Api.Session)}
    (h : Trace (d.look name) events outcome) :
    (∃ tries reply s, events = tries ++ [⟨.api (.send (lookAt name)), reply⟩] ∧
      (∀ again, notes name again tries = []) ∧ seen name reply = some s ∧
      outcome = some (.done s)) ∨
    (∀ again, notes name again events = []) ∧ ∀ s, outcome ≠ some (.done s) := by
  obtain ⟨inner, result, rfl, hc, rfl⟩ := of_calling h
  obtain ⟨told, hx, hr⟩ := Api.Client.exchange_of_fetch hc
  have hn := notes_look hx
  rcases hr with ⟨body, s, rfl, hs, rfl⟩ | ⟨body, rfl, hs, rfl⟩ | hstop
  · obtain ⟨tries, reply, rfl, hsettle, -⟩ := hx.of_done
    have hseen : seen name reply = some s := by
      rw [seen, lookAt, hsettle]
      exact hs
    refine Or.inl ⟨tries.map ofCall, reply, s, by simp [ofCall, lookAt], fun again => ?_, hseen,
      rfl⟩
    have ha := hn again
    rw [List.map_append] at ha
    change notes name again (_ ++ [⟨.api (.send (lookAt name)), reply⟩]) = _ at ha
    rw [notes_snoc_look hseen] at ha
    simpa [shownBy, hs] using ha
  · exact Or.inr ⟨fun again => by simp [hn again, shownBy, hs], by simp [Outcome.mapError]⟩
  · refine Or.inr ⟨fun again => ?_, ?_⟩
    · cases hstop <;> simp [hn again, shownBy]
    · cases hstop <;> simp [Outcome.mapError]

/-- When a look shows a session, it is over. -/
theorem look_shows {outcome : Option (Outcome Error Api.Session)}
    (h : Trace (d.look name) (first ++ ⟨.api (.send (lookAt name)), reply⟩ :: rest) outcome)
    (hs : seen name reply = some s) :
    (∀ again, notes name again first = []) ∧ rest = [] ∧ outcome = some (.done s) := by
  have unnoted (tries : List Event) (hn : ∀ again, notes name again tries = []) :
      (⟨.api (.send (lookAt name)), reply⟩ : Event) ∉ tries := fun hm => by
    have hmem : Note.shown s ∈ notes name false tries := shown_mem_notes hs hm
    rw [hn] at hmem
    cases hmem
  rcases look_cases h with ⟨tries, reply', s', he, hn, hs', rfl⟩ | ⟨hn, -⟩
  · obtain ⟨rfl, hlast, rfl⟩ : first = tries ∧ reply = reply' ∧ rest = [] := by
      rcases List.append_eq_append_iff.1 he with ⟨more, rfl, hr⟩ | ⟨more, rfl, hr⟩
      · rcases more with - | ⟨e, more⟩
        · simpa using hr
        · obtain rfl := (List.cons.inj hr).1
          exact absurd (by simp) (unnoted _ hn)
      · rcases more with - | ⟨e, more⟩
        · simpa [eq_comm] using hr
        · simp at hr
    subst hlast
    obtain rfl : s' = s := by simpa [hs] using hs'.symm
    exact ⟨hn, rfl, rfl⟩
  · exact absurd (by simp) (unnoted _ hn)

/-- An event of one trace after another is one of the first, or of the second. -/
theorem split_append {earlier later : List Event} {e : Event}
    (h : first ++ rest = earlier ++ e :: later) :
    (∃ more, first = earlier ++ e :: more ∧ later = more ++ rest) ∨
      ∃ more, earlier = first ++ more ∧ rest = more ++ e :: later := by
  rcases List.append_eq_append_iff.1 h with ⟨more, rfl, hr⟩ | ⟨more, rfl, hr⟩
  · exact Or.inr ⟨more, rfl, hr⟩
  · rcases more with - | ⟨e', more⟩
    · exact Or.inr ⟨[], by simp, by simpa using hr.symm⟩
    · obtain ⟨rfl, rfl⟩ := List.cons.inj hr
      exact Or.inl ⟨more, rfl, rfl⟩

/-! ## Heeding what is told -/

/-- A part of a driver that comes after `before` heeds the unknown stages that it is told of, unless
it looks again : it stops and fails. -/
def Heeds (name : String) (before events : List Event) (outcome : Option (Outcome Error α)) :
    Prop :=
  ∀ first reply s rest, events = first ++ ⟨.api (.send (lookAt name)), reply⟩ :: rest →
    seen name reply = some s → s.status = .unknown → ¬ LooksAgain name (before ++ first) →
      rest = [] ∧ ∃ e, outcome = some (.failed e) ∧ e.TellsUnknown name

namespace Heeds

/-- Nothing is told. -/
theorem untold {outcome : Option (Outcome Error α)}
    (h : ∀ reply, (⟨.api (.send (lookAt name)), reply⟩ : Event) ∈ events →
      seen name reply = none) : Heeds name before events outcome := by
  rintro first reply s rest rfl hs
  simp [h reply (by simp)] at hs

theorem nil {outcome : Option (Outcome Error α)} : Heeds name before [] outcome :=
  untold (by simp)

/-- A program that does not look. -/
theorem of_keeps {p : Work Error α} {R : α → Prop} {outcome : Option (Outcome Error α)}
    (h : p.Keeps (Makes (· ≠ lookAt name)) R) (ht : Trace p events outcome) :
    Heeds name before events outcome :=
  untold fun _ hm => absurd rfl (((h.of_trace ht).1 _ hm).2 _ rfl)

/-- A program after one that ended well. -/
theorem append {a : α} {outcome : Option (Outcome Error β)}
    (h : Heeds name before first (some (.done a) : Option (Outcome Error α)))
    (h' : Heeds name (before ++ first) rest outcome) :
    Heeds name before (first ++ rest) outcome := by
  intro earlier reply s later he hs hu hn
  rcases split_append he with ⟨more, rfl, -⟩ | ⟨more, rfl, hr⟩
  · obtain ⟨-, e, he, -⟩ := h earlier reply s more rfl hs hu hn
    cases he
  · exact h' more reply s later hr hs hu (by rwa [List.append_assoc])

theorem bind {p : Work Error α} {f : α → Work Error β} {outcome : Option (Outcome Error β)}
    (ht : Trace (p >>= f) events outcome)
    (hp : ∀ events outcome, Trace p events outcome → Heeds name before events outcome)
    (hf : ∀ first a rest, Trace p first (some (.done a)) → Trace (f a) rest outcome →
      Heeds name (before ++ first) rest outcome) : Heeds name before events outcome := by
  rcases Trace.of_bind ht with ⟨first, a, rest, rfl, h₁, h₂⟩ | ⟨stop, h₁, hstop⟩
  · exact (hp _ _ h₁).append (hf first a rest h₁ h₂)
  · intro earlier reply s later he hs hu hn
    obtain ⟨hl, e, rfl, hunknown⟩ := hp _ _ h₁ earlier reply s later he hs hu hn
    cases hstop
    exact ⟨hl, e, rfl, hunknown⟩

/-- A driver that looks again. -/
theorem looking_again {outcome : Option (Outcome Error Api.Session)}
    (hb : LooksAgain name before) (h : Trace (d.look name) events outcome) :
    Heeds name before events outcome := by
  rintro first reply s rest rfl hs - hn
  exact absurd (hb.append (look_shows h hs).1) hn

/-- A driver that looks, and stops at an unknown stage. -/
theorem looking {f : Api.Session → Work Error β} {outcome : Option (Outcome Error β)}
    (ht : Trace (d.look name >>= f) events outcome)
    (hstop : ∀ s rest outcome, s.status = .unknown → Trace (f s) rest outcome →
      rest = [] ∧ ∃ e, outcome = some (.failed e) ∧ e.TellsUnknown name)
    (hf : ∀ first s rest, Trace (d.look name) first (some (.done s)) → Trace (f s) rest outcome →
      Heeds name (before ++ first) rest outcome) : Heeds name before events outcome := by
  rcases Trace.of_bind ht with ⟨first, s, rest, rfl, h₁, h₂⟩ | ⟨stop, h₁, hstopped⟩
  · intro earlier reply shown later he hs hu hn
    rcases split_append he with ⟨more, rfl, rfl⟩ | ⟨more, rfl, hr⟩
    · obtain ⟨-, rfl, ho⟩ := look_shows h₁ hs
      obtain rfl : s = shown := by simpa using ho
      obtain ⟨rfl, hfailed⟩ := hstop s rest outcome hu h₂
      exact ⟨rfl, hfailed⟩
    · exact hf first s rest h₁ h₂ more reply shown later hr hs hu (by rwa [List.append_assoc])
  · rintro earlier reply s later rfl hs hu -
    exact absurd (look_shows h₁ hs).2.2 (hstopped.left_ne_done s)

end Heeds

/-! ## Parts of a driver -/

theorem heeds_freeze {outcome : Option (Outcome Error Unit)} (hb : LooksAgain name before)
    (h : Trace (d.freeze name) events outcome) : Heeds name before events outcome := by
  refine Heeds.bind h (fun _ _ => Heeds.looking_again hb) fun first shown rest _ hr => ?_
  split at hr
  · rw [(Trace.of_pure hr).1]
    exact Heeds.nil
  · exact Heeds.of_keeps (keeps_call (by simp [lookAt])) hr

theorem heeds_commit {outcome : Option (Outcome Error Unit)} (hb : LooksAgain name before)
    (h : Trace (d.commit name) events outcome) : Heeds name before events outcome := by
  refine Heeds.bind h (fun _ _ => Heeds.looking_again hb) fun first shown rest _ hr => ?_
  rcases Trace.of_require_bind hr with ⟨-, hr⟩ | ⟨rfl, rfl⟩
  · exact Heeds.of_keeps (keeps_call (by simp [lookAt])) hr
  · exact Heeds.nil

/-- A wait stops at an unknown stage. -/
theorem heeds_poll {current expecting : Api.Status} {started : Nat} (hc : current ≠ .unknown)
    (hx : expecting ≠ .unknown) :
    ∀ {patience : Nat} {before events : List Event} {outcome : Option (Outcome Error Api.Session)},
      Trace (d.poll name current expecting started patience) events outcome →
        Heeds name before events outcome
  | 0, before, events, outcome, h => by
    rw [(Trace.of_aborted h).1]
    exact Heeds.nil
  | patience + 1, before, events, outcome, h => by
    unfold poll at h
    refine Heeds.looking h (fun shown rest outcome hu hr => ?_) fun first shown rest _ hr => ?_
    · rw [if_neg fun he => hx (he.symm.trans hu)] at hr
      rcases Trace.of_require_bind hr with ⟨he, -⟩ | ⟨rfl, rfl⟩
      · exact absurd ((of_decide_eq_true he).symm.trans hu) hc
      · exact ⟨rfl, _, rfl, rfl, hu⟩
    · split at hr
      · rw [(Trace.of_pure hr).1]
        exact Heeds.nil
      rcases Trace.of_require_bind hr with ⟨-, hr⟩ | ⟨rfl, rfl⟩
      · refine Heeds.bind hr (fun _ _ => Heeds.of_keeps (keeps_ask trivial (by simp)))
          fun _ now rest _ hr => ?_
        rcases Trace.of_require_bind hr with ⟨-, hr⟩ | ⟨rfl, rfl⟩
        · refine Heeds.bind hr (fun _ _ => Heeds.of_keeps (keeps_ask trivial (by simp)))
            fun _ cancelled rest _ hr => ?_
          rcases Trace.of_require_bind hr with ⟨-, hr⟩ | ⟨rfl, rfl⟩
          · exact heeds_poll hc hx hr
          · exact Heeds.nil
        · exact Heeds.nil
      · exact Heeds.nil

/-- A wait ends with a look that shows the stage it waits for. -/
theorem told_of_poll {current expecting : Api.Status} {started : Nat} :
    ∀ {patience : Nat} {before events : List Event} {s : Api.Session},
      Trace (d.poll name current expecting started patience) events (some (.done s)) →
        Told name expecting (before ++ events)
  | 0, _, _, _, h => by
    have ho := (Trace.of_aborted h).2
    simp at ho
  | patience + 1, before, events, s, h => by
    unfold poll at h
    obtain ⟨first, shown, rest, rfl, h₁, h₂⟩ := Trace.of_bind_done h
    split at h₂
    next he =>
      rw [(Trace.of_pure h₂).1, List.append_nil]
      rcases look_cases h₁ with ⟨tries, reply, s', rfl, -, hs, ho⟩ | ⟨-, ho⟩
      · obtain rfl : shown = s' := by simpa using ho
        rw [← List.append_assoc, ← he]
        exact told_snoc_look hs
      · exact absurd rfl (ho shown)
    next =>
      obtain ⟨-, h₃⟩ := Trace.of_require_bind_done h₂
      obtain ⟨now, rest, rfl, h₄⟩ := Trace.of_query_bind_done h₃
      obtain ⟨-, h₅⟩ := Trace.of_require_bind_done h₄
      obtain ⟨cancelled, rest, rfl, h₆⟩ := Trace.of_query_bind_done h₅
      obtain ⟨-, h₇⟩ := Trace.of_require_bind_done h₆
      have ht : Told name expecting
          (before ++ first ++ [⟨.clock, now⟩, ⟨.pause _, cancelled⟩] ++ _) := told_of_poll h₇
      simpa using ht

/-- What comes of a part of a driver that leads to a stage. -/
structure Attentive (name : String) (next : Api.Status) (before events : List Event)
    (outcome : Option (Outcome Error Unit)) : Prop where
  heeds : Heeds name before events outcome
  standing : outcome = some (.done ()) → Standing name next (before ++ events)

theorem attentive_wait {current expecting : Api.Status} {outcome : Option (Outcome Error Unit)}
    (hc : current ≠ .unknown) (hx : expecting ≠ .unknown)
    (h : Trace (do let _ ← d.waitFor name current expecting) events outcome) :
    Attentive name expecting before events outcome := by
  constructor
  · refine Heeds.bind h (fun events outcome hw => ?_) fun _ _ rest _ hr => ?_
    · exact Heeds.bind hw (fun _ _ => Heeds.of_keeps (keeps_ask trivial (by simp)))
        fun _ _ _ _ => heeds_poll hc hx
    · rw [(Trace.of_pure hr).1]
      exact Heeds.nil
  · rintro rfl -
    obtain ⟨waiting, s, rest, rfl, hw, hr⟩ := Trace.of_bind_done h
    obtain ⟨started, looking, rfl, hp⟩ := Trace.of_query_bind_done hw
    have ht : Told name expecting (before ++ [⟨.clock, started⟩] ++ looking) := told_of_poll hp
    simpa [(Trace.of_pure hr).1] using ht

theorem attentive_advance {outcome : Option (Outcome Error Unit)} :
    ∀ {status : Api.Status}, Standing name status before →
      Trace (d.advance name priority status) events outcome →
        Attentive name (nextStatus status) before events outcome
  | .uploading, hb, h => by
    have hagain := hb.looksAgain (by simp [lookedAtAgain])
    refine ⟨Heeds.bind h (fun _ _ => heeds_freeze hagain) fun _ _ _ _ hr => ?_, fun _ hn => ?_⟩
    · exact Heeds.of_keeps (keeps_call (by simp [lookAt])) hr
    · simp [nextStatus, lookedAtAgain] at hn
  | .performing, _, h => attentive_wait (by simp) (by simp [nextStatus]) h
  | .ready, hb, h => by
    have hagain := hb.looksAgain (by simp [lookedAtAgain])
    refine ⟨heeds_commit hagain h, fun _ hn => ?_⟩
    simp [nextStatus, lookedAtAgain] at hn
  | .committing, _, h => attentive_wait (by simp) (by simp [nextStatus]) h
  | .committed, hb, h => by
    rw [(Trace.of_pure h).1]
    exact ⟨Heeds.nil, fun _ => by simpa [nextStatus] using hb⟩
  | .unknown, _, h => by
    obtain ⟨rfl, rfl⟩ := Trace.of_throw h
    exact ⟨Heeds.nil, by simp⟩

/-- By induction on the steps : a stage in which the driver looks again is told before its step. -/
theorem heeds_advanceBy : ∀ {steps : Nat} {status : Api.Status} {before events : List Event}
    {outcome : Option (Outcome Error Unit)}, Standing name status before →
      Trace (d.advanceBy name priority steps status) events outcome →
        Heeds name before events outcome ∧
        (outcome = some (.done ()) → stepsLeft status ≤ steps →
          Standing name .committed (before ++ events))
  | 0, status, before, events, outcome, hb, h => by
    rw [(Trace.of_pure h).1]
    refine ⟨Heeds.nil, fun _ hs => ?_⟩
    obtain rfl : status = .committed := by
      cases status <;> simp [stepsLeft] at hs
      rfl
    simpa using hb
  | steps + 1, status, before, events, outcome, hb, h => by
    have step {first : List Event} {next : Api.Status}
        (h : Trace (d.step name status priority) first (some (.done next))) :
        Trace (d.advance name priority status) first (some (.done ())) ∧
          next = nextStatus status := by
      obtain ⟨first, u, rest, rfl, h₁, h₂⟩ := Trace.of_bind_done h
      obtain ⟨rfl, hn⟩ := Trace.of_pure_done h₂
      exact ⟨by simpa using h₁, hn⟩
    refine ⟨Heeds.bind h (fun events outcome hs => ?_) fun first next rest hs hr => ?_, ?_⟩
    · exact Heeds.bind hs (fun _ _ ha => (attentive_advance hb ha).heeds) fun _ _ rest _ hr => by
        rw [(Trace.of_pure hr).1]
        exact Heeds.nil
    · obtain ⟨ha, rfl⟩ := step hs
      exact (heeds_advanceBy ((attentive_advance hb ha).standing rfl) hr).1
    · rintro rfl hsteps
      obtain ⟨first, next, rest, rfl, hs, hr⟩ := Trace.of_bind_done h
      obtain ⟨ha, rfl⟩ := step hs
      rw [← List.append_assoc]
      refine (heeds_advanceBy ((attentive_advance hb ha).standing rfl) hr).2 rfl ?_
      cases status with
      | unknown => exact (Trace.not_throw_done ha).elim
      | _ =>
        simp only [stepsLeft, nextStatus] at hsteps ⊢
        omega

/-- A driver that looks at a session to learn its stage, or waits for it, asks nothing more when the
stage is unknown, and fails for that reason. -/
theorem stopped_of_unknown {outcome : Option (Outcome Error Api.Session)}
    (h : Trace (d.complete name priority)
      (first ++ ⟨.api (.send (lookAt name)), reply⟩ :: rest) outcome)
    (hs : seen name reply = some s) (hu : s.status = .unknown) (hn : ¬ LooksAgain name first) :
    rest = [] ∧ ∃ e, outcome = some (.failed e) ∧ e.TellsUnknown name := by
  have hheeds : Heeds name [] (first ++ ⟨.api (.send (lookAt name)), reply⟩ :: rest) outcome := by
    refine Heeds.looking h (fun shown rest outcome hu hr => ?_) fun looking shown rest hl hr => ?_
    · have hthrow : d.drive name shown.status priority = throw (.unknownStatus name) := by
        rw [hu]
        rfl
      rw [hthrow] at hr
      obtain ⟨rfl, rfl⟩ := Trace.of_throw hr
      exact ⟨rfl, _, rfl, rfl⟩
    · have htold : Told name shown.status ([] ++ looking) := by
        rcases look_cases hl with ⟨tries, reply', s', rfl, -, hs', ho⟩ | ⟨-, ho⟩
        · obtain rfl : shown = s' := by simpa using ho
          exact told_snoc_look hs'
        · exact absurd rfl (ho shown)
      refine Heeds.bind hr (fun _ _ ha => (heeds_advanceBy (fun _ => htold) ha).1)
        fun advancing _ last ha hlast => ?_
      have hstanding := (heeds_advanceBy (fun _ => htold) ha).2 rfl (Nat.le_refl _)
      exact Heeds.looking_again (hstanding.looksAgain (by simp [lookedAtAgain])) hlast
  exact hheeds first reply s rest rfl hs hu (by simpa using hn)

/-- A service that shows a session in one stage after another, and takes all calls. -/
def showingIn (stages : List String) : Rehearsal.World where
  service := { routes := [⟨"GET *", stages.map (told "t")⟩, ⟨"POST *", [{}]⟩] }
  moment := epoch

/-- The session that is shown. -/
def shownIn (status : Api.Status) : Api.Session :=
  { name := "s", database := "d", table := "t", status }

/-- A driver that waits for a session stops when it is shown in an unknown stage. -/
theorem stopped_waiting : ∃ first reply s rest,
    (driving (showingIn ["performing", "archived"])).1 =
      first ++ ⟨.api (.send (lookAt "s")), reply⟩ :: rest ∧
    seen "s" reply = some s ∧ s.status = .unknown ∧ ¬ LooksAgain "s" first ∧ rest = [] ∧
    ∃ e, some (driving (showingIn ["performing", "archived"])).2 = some (.failed e) ∧
      e.TellsUnknown "s" := by
  have hasked : ((driving (showingIn ["performing", "archived"])).1[2]?).bind sending? =
      some (lookAt "s", .answered 200 (told "t" "archived").body) := by decide +kernel
  have hseen : seen "s" (.answered 200 (told "t" "archived").body) = some (shownIn .unknown) := by
    decide +kernel
  have hagain : ¬ LooksAgain "s" ((driving (showingIn ["performing", "archived"])).1.take 2) := by
    have hnotes : notes "s" false ((driving (showingIn ["performing", "archived"])).1.take 2) =
        [.shown (shownIn .performing)] := by decide +kernel
    rintro ⟨status, hm, s, hs, rfl⟩
    rw [hnotes] at hs
    obtain rfl : shownIn .performing = s := by simpa using hs
    simp [lookedAtAgain, shownIn] at hm
  have hsplit := split_of_sending? hasked
  have ht := trace_driving (showingIn ["performing", "archived"])
  rw [hsplit] at ht
  exact ⟨_, _, _, _, hsplit, hseen, rfl, hagain, stopped_of_unknown ht hseen rfl hagain⟩

/-- A driver that is about to freeze a session is told that its stage is unknown. It freezes,
performs and commits the session, and succeeds. -/
theorem unknown_unheeded : ∃ events last before shown after,
    Trace (careful.complete "s" 1) events (some (.done last)) ∧
      notes "s" false events = before ++ .shown shown :: after ∧ shown.status = .unknown ∧
      calls after = [freezing "s", performing "s" 1, committing "s"] := by
  have hplayed : notes "s" false
        (driving (showingIn ["uploading", "archived", "ready", "ready", "committed"])).1 =
      [.shown (shownIn .uploading), .shown (shownIn .unknown), .called (freezing "s"),
        .called (performing "s" 1), .shown (shownIn .ready), .shown (shownIn .ready),
        .called (committing "s"), .shown (shownIn .committed), .shown (shownIn .committed)] ∧
      (driving (showingIn ["uploading", "archived", "ready", "ready", "committed"])).2 =
        .done (shownIn .committed) := by
    decide +kernel
  have ht := trace_driving (showingIn ["uploading", "archived", "ready", "ready", "committed"])
  rw [hplayed.2] at ht
  exact ⟨_, _, [_], _, _, ht, hplayed.1, rfl, rfl⟩

end SessionDriver

end BulkLoad.Import
