import BulkLoad.Proofs.Import.Backoff
import BulkLoad.Proofs.Import.Unknown

/-!
# Waits that are cut short

A wait for a session looks at it over and over, with a pause in between. Once the import is
cancelled no pause is left to end well, so there is at most one more look, and the last reply
decides how the wait ends (`cutShort_of_waitFor`) : it returns the session, or it fails, and if only
the stage is not there yet and the time is not up it fails because it is cancelled.
-/

namespace BulkLoad

/-- What is not in the second of two parts is in the first. -/
theorem split_of_not_mem {α : Type} {earlier later first rest : List α} {a : α}
    (h : earlier ++ a :: later = first ++ rest) (ha : a ∉ rest) :
    ∃ more, first = earlier ++ a :: more ∧ later = more ++ rest := by
  rcases List.append_eq_append_iff.1 h with ⟨more, rfl, hr⟩ | ⟨more, rfl, hr⟩
  · rcases more with - | ⟨b, more⟩
    · obtain rfl : a :: later = rest := hr
      exact absurd List.mem_cons_self ha
    · obtain ⟨rfl, rfl⟩ := List.cons.inj hr
      exact ⟨more, rfl, rfl⟩
  · exact absurd (hr ▸ by simp) ha

namespace Api

open Program (Event)

/-- The part of a call in which all waits are cancelled is the end of a call with one attempt. -/
theorem Exchange.exists_last {request : Request} {first rest : List (Event Answer)}
    {result : Option (Outcome Error (List UInt8))} (h : Exchange request (first ++ rest) result)
    (hc : ∀ span, (⟨.wait span, false⟩ : Event Answer) ∉ rest) :
    ∃ last, rest <:+ last ∧ Exchange request last result ∧
      ∀ span, (⟨.wait span, false⟩ : Event Answer) ∉ last := by
  generalize hall : first ++ rest = events at h
  have whole (h : Exchange request events result)
      (hn : ∀ span, (⟨.wait span, false⟩ : Event Answer) ∉ events) :=
    (⟨events, hall ▸ List.suffix_append first rest, h, hn⟩ : ∃ last, rest <:+ last ∧
      Exchange request last result ∧ ∀ span, (⟨.wait span, false⟩ : Event Answer) ∉ last)
  induction h generalizing first with
  | unsent => exact whole .unsent (by simp)
  | answered hs => exact whole (.answered hs) (by simp)
  | refused hs he => exact whole (.refused hs he) (by simp)
  | waiting hs he => exact whole (.waiting hs he) (by simp)
  | interrupted span hs he => exact whole (.interrupted span hs he) (by simp)
  | again span hs he hrest ih =>
    obtain ⟨more, -, hmore⟩ := split_of_not_mem
      (show [_] ++ ⟨.wait span, false⟩ :: _ = first ++ rest from hall.symm) (hc span)
    exact ih hmore.symm fun h hn => ⟨_, hmore ▸ List.suffix_append more rest, h, hn⟩

section Last

variable {request : Request} {first rest : List (Event Answer)}
  {result : Option (Outcome Error (List UInt8))}

/-- A call attempts at most once more when all its waits are cancelled. -/
theorem Exchange.attempts_le_one (h : Exchange request (first ++ rest) result)
    (hc : ∀ span, (⟨.wait span, false⟩ : Event Answer) ∉ rest) : (attempts rest).length ≤ 1 := by
  obtain ⟨last, hsuffix, hlast, hn⟩ := h.exists_last hc
  have hle : (attempts rest).length ≤ (attempts last).length :=
    (hsuffix.sublist.filterMap _).length_le
  refine hle.trans ?_
  cases hlast with
  | again span => exact absurd (by simp) (hn span)
  | _ => simp

/-- Unless it fails, that attempt is all. -/
theorem Exchange.length_le_one (h : Exchange request (first ++ rest) result)
    (hc : ∀ span, (⟨.wait span, false⟩ : Event Answer) ∉ rest)
    (hf : ∀ e, result ≠ some (.failed e)) : rest.length ≤ 1 := by
  obtain ⟨last, hsuffix, hlast, hn⟩ := h.exists_last hc
  refine hsuffix.length_le.trans ?_
  cases hlast with
  | again span => exact absurd (by simp) (hn span)
  | refused => exact absurd rfl (hf _)
  | interrupted => exact absurd rfl (hf _)
  | _ => simp

end Last

/-- The last attempt of a call that is over tells how it ends. -/
theorem Exchange.of_some {request : Request} {events : List (Event Answer)}
    {o : Outcome Error (List UInt8)} (h : Exchange request events (some o)) :
    ∃ tried reply waits, events = tried ++ ⟨.send request, reply⟩ :: waits ∧ attempts waits = [] ∧
      ((∃ body, Client.settle request reply = .ok body ∧ o = .done body) ∨
        ∃ e reported, Client.settle request reply = .error e ∧ o = .failed reported) := by
  generalize ho : some o = outcome at h
  induction h with
  | unsent | waiting => cases ho
  | @answered reply body hs =>
    cases ho
    exact ⟨[], reply, [], rfl, rfl, Or.inl ⟨body, hs, rfl⟩⟩
  | @refused reply e reported hs he =>
    cases ho
    exact ⟨[], reply, [], rfl, rfl, Or.inr ⟨e, reported, hs, rfl⟩⟩
  | @interrupted reply e span hs he =>
    cases ho
    exact ⟨[], reply, [⟨.wait span, true⟩], rfl, rfl, Or.inr ⟨e, _, hs, rfl⟩⟩
  | @again failed e span events outcome hs he hrest ih =>
    obtain ⟨tried, reply, waits, rfl, hw, hlast⟩ := ih ho
    exact ⟨⟨.send request, failed⟩ :: ⟨.wait span, false⟩ :: tried, reply, waits, rfl, hw, hlast⟩

end Api

namespace Import

open Program (Trace Stopped)

/-- An import is told that it may go on. -/
def goesOn : Event → Bool
  | ⟨.api (.wait _), cancelled⟩ => !(cancelled : Bool)
  | ⟨.pause _, cancelled⟩ => !(cancelled : Bool)
  | ⟨.cancelled, cancelled⟩ => !(cancelled : Bool)
  | _ => false

theorem length_sendings (inner : List (Program.Event Api.Answer)) :
    (sendings (inner.map ofCall)).length = (Api.attempts inner).length := by
  induction inner with
  | nil => rfl
  | cons e rest ih =>
    obtain ⟨q, a⟩ := e
    cases q with
    | send request => simpa [ofCall] using ih
    | wait span => simpa [ofCall] using ih

namespace SessionDriver

variable {d : SessionDriver} {name : String} {current expecting : Api.Status} {started : Nat}

/-! ## One look -/

/-- A look in two parts is a call in two parts. -/
theorem exchange_of_look {first rest : List Event} {outcome : Option (Outcome Error Api.Session)}
    (h : Trace (d.look name) (first ++ rest) outcome) (hc : ∀ e ∈ rest, goesOn e = false) :
    ∃ before after result, first = before.map ofCall ∧ rest = after.map ofCall ∧
      Api.Exchange (lookAt name) (before ++ after) result ∧
      (∀ span, (⟨.wait span, false⟩ : Program.Event Api.Answer) ∉ after) ∧
      ∀ e, result = some (.failed e) → outcome = some (.failed (.api e)) := by
  obtain ⟨inner, answer, hinner, hcall, rfl⟩ := of_calling h
  obtain ⟨before, after, rfl, rfl, rfl⟩ := List.append_eq_map_iff.1 hinner
  obtain ⟨result, hx, hr⟩ := Api.Client.exchange_of_fetch hcall
  refine ⟨before, after, result, rfl, rfl, hx, fun span hm => ?_, ?_⟩
  · have hw := hc (ofCall ⟨.wait span, false⟩) (List.mem_map_of_mem hm)
    simp [ofCall, goesOn] at hw
  · rintro e rfl
    rcases hr with ⟨_, _, he, -⟩ | ⟨_, he, -⟩ | hstop
    · cases he
    · cases he
    · cases hstop
      rfl

theorem length_sendings_look {first rest : List Event}
    {outcome : Option (Outcome Error Api.Session)}
    (h : Trace (d.look name) (first ++ rest) outcome) (hc : ∀ e ∈ rest, goesOn e = false) :
    (sendings rest).length ≤ 1 := by
  obtain ⟨before, after, result, rfl, rfl, hx, hw, -⟩ := exchange_of_look h hc
  rw [length_sendings]
  exact hx.attempts_le_one hw

theorem length_look {first rest : List Event} {outcome : Option (Outcome Error Api.Session)}
    (h : Trace (d.look name) (first ++ rest) outcome) (hc : ∀ e ∈ rest, goesOn e = false)
    (hf : ∀ e, outcome ≠ some (.failed e)) : rest.length ≤ 1 := by
  obtain ⟨before, after, result, rfl, rfl, hx, hw, hfailed⟩ := exchange_of_look h hc
  rw [List.length_map]
  exact hx.length_le_one hw fun e he => hf _ (hfailed e he)

/-- A look that is over has shown the session with its last reply, or has failed. -/
theorem of_look {events : List Event} {o : Outcome Error Api.Session}
    (h : Trace (d.look name) events (some o)) :
    ∃ tried reply waits, events = tried ++ ⟨.api (.send (lookAt name)), reply⟩ :: waits ∧
      sendings waits = [] ∧ ((∃ s, seen name reply = some s ∧ waits = [] ∧ o = .done s) ∨
        seen name reply = none ∧ ∃ e, o = .failed (.api e)) := by
  rcases look_cases h with ⟨tried, reply, s, rfl, -, hs, ho⟩ | ⟨hn, hd⟩
  · exact ⟨tried, reply, [], rfl, rfl, Or.inl ⟨s, hs, rfl, Option.some.inj ho⟩⟩
  · obtain ⟨inner, result, rfl, hcall, ho⟩ := of_calling h
    obtain ⟨told, hx, hr⟩ := Api.Client.exchange_of_fetch hcall
    obtain ⟨r, rfl, rfl⟩ : ∃ r, result = some r ∧ o = r.mapError .api := by
      cases result with
      | none => cases ho
      | some r => exact ⟨r, rfl, Option.some.inj ho⟩
    have last {t : Outcome Api.Error (List UInt8)} (ht : told = some t)
        (hunseen : ∀ body, t = .done body → Api.Client.read Api.Session.decoder body = none) :
        ∃ tried reply waits, inner.map ofCall =
          tried ++ ⟨.api (.send (lookAt name)), reply⟩ :: waits ∧ sendings waits = [] ∧
            seen name reply = none := by
      subst ht
      obtain ⟨tried, reply, waits, rfl, hw, hlast⟩ := hx.of_some
      refine ⟨tried.map ofCall, reply, waits.map ofCall, by simp [ofCall, lookAt], ?_, ?_⟩
      · exact List.eq_nil_of_length_eq_zero (by rw [length_sendings, hw]; rfl)
      · rcases hlast with ⟨body, hs, ho⟩ | ⟨e, _, hs, -⟩
        · rw [seen, lookAt, hs]
          exact hunseen body ho
        · rw [seen, lookAt, hs]
    rcases hr with ⟨body, s, -, -, hdone⟩ | ⟨body, ht, hread, hfailed⟩ | hstop
    · cases hdone
      exact absurd rfl (hd s)
    · cases hfailed
      obtain ⟨tried, reply, waits, he, hw, hs⟩ := last ht fun _ hb => by
        cases hb
        exact hread
      exact ⟨tried, reply, waits, he, hw, Or.inr ⟨hs, _, rfl⟩⟩
    · cases hstop with
      | failed e =>
        obtain ⟨tried, reply, waits, he, hw, hs⟩ := last rfl fun _ hb => by cases hb
        exact ⟨tried, reply, waits, he, hw, Or.inr ⟨hs, e, rfl⟩⟩
      | aborted reason => exact absurd rfl (hx.not_aborted reason)

/-! ## Rounds -/

/-- What comes of a wait when a session is shown that ends it. Only a session in the stage that is
to be left gets a pause, which is cancelled, and only as long as there is time. -/
inductive Judged (d : SessionDriver) (name : String) (current expecting : Api.Status)
    (started : Nat) (s : Api.Session) : List Event → Option (Outcome Error Api.Session) → Prop
  | expected (h : s.status = expecting) :
    Judged d name current expecting started s [] (some (.done s))
  | wrong (h : s.status ≠ expecting) (hc : s.status ≠ current) :
    Judged d name current expecting started s []
      (some (.failed (.wrongStatus name current expecting s.status)))
  /-- The clock has not answered yet. -/
  | unclocked (h : s.status ≠ expecting) (hc : s.status = current) :
    Judged d name current expecting started s [] none
  | late {now : Nat} (h : s.status ≠ expecting) (hc : s.status = current)
    (ht : d.pollTimeout * 1000000000 ≤ now - started) :
    Judged d name current expecting started s [⟨.clock, now⟩]
      (some (.failed (.pollTimeout name expecting ((now - started) / 1000000000))))
  /-- The pause is not over yet. -/
  | pausing {now : Nat} (h : s.status ≠ expecting) (hc : s.status = current)
    (ht : now - started < d.pollTimeout * 1000000000) :
    Judged d name current expecting started s [⟨.clock, now⟩] none
  | cancelled {now : Nat} {span : Api.Span} (h : s.status ≠ expecting) (hc : s.status = current)
    (ht : now - started < d.pollTimeout * 1000000000) :
    Judged d name current expecting started s [⟨.clock, now⟩, ⟨.pause span, true⟩]
      (some (.failed .cancelled))

theorem Judged.sendings_eq {s : Api.Session} {events : List Event}
    {outcome : Option (Outcome Error Api.Session)}
    (h : Judged d name current expecting started s events outcome) : sendings events = [] := by
  cases h <;> rfl

/-- The last reply of a wait decides how it ends : with the session that is shown, or with what
comes of the stage that is shown, or with the failure of the look. -/
def Decided (d : SessionDriver) (name : String) (current expecting : Api.Status) (started : Nat)
    (events : List Event) (o : Outcome Error Api.Session) : Prop :=
  ∃ tried reply rest, events = tried ++ ⟨.api (.send (lookAt name)), reply⟩ :: rest ∧
    sendings rest = [] ∧
      ((∃ s, seen name reply = some s ∧
          Judged d name current expecting started s rest (some o)) ∨
        seen name reply = none ∧ ∃ e, o = .failed (.api e))

theorem Decided.after {events : List Event} {o : Outcome Error Api.Session}
    (h : Decided d name current expecting started events o) (earlier : List Event) :
    Decided d name current expecting started (earlier ++ events) o := by
  obtain ⟨tried, reply, rest, rfl, hdecided⟩ := h
  exact ⟨earlier ++ tried, reply, rest, by simp, hdecided⟩

/-- The last round of a wait is a look and what comes of it. -/
inductive LastRound (d : SessionDriver) (name : String) (current expecting : Api.Status)
    (started : Nat) : List Event → Option (Outcome Error Api.Session) → Prop
  | looking {looked : List Event} {stop outcome : Option (Outcome Error Api.Session)}
    (h : Trace (d.look name) looked stop) (hs : Stopped stop outcome) :
    LastRound d name current expecting started looked outcome
  | judged {looked rest : List Event} {s : Api.Session}
    {outcome : Option (Outcome Error Api.Session)}
    (h : Trace (d.look name) looked (some (.done s)))
    (hj : Judged d name current expecting started s rest outcome) :
    LastRound d name current expecting started (looked ++ rest) outcome

namespace LastRound

variable {first rest events : List Event} {outcome : Option (Outcome Error Api.Session)}

/-- What is left of the last round has one request at most. -/
theorem length_sendings (h : LastRound d name current expecting started (first ++ rest) outcome)
    (hc : ∀ e ∈ rest, goesOn e = false) : (sendings rest).length ≤ 1 := by
  generalize hall : first ++ rest = events at h
  cases h with
  | looking hl _ => exact length_sendings_look (hall ▸ hl) hc
  | judged hl hj =>
    rcases List.append_eq_append_iff.1 hall with ⟨more, rfl, rfl⟩ | ⟨more, rfl, rfl⟩
    · have hlook := length_sendings_look hl fun e he => hc e (List.mem_append_left _ he)
      simpa [hj.sendings_eq] using hlook
    · have hnone := hj.sendings_eq
      rw [sendings_append] at hnone
      simp [(List.append_eq_nil_iff.1 hnone).2]

/-- Until it is over, there is one more look and the time is asked for. -/
theorem length_le (h : LastRound d name current expecting started (first ++ rest) none)
    (hc : ∀ e ∈ rest, goesOn e = false) : rest.length ≤ 2 := by
  generalize hall : first ++ rest = events at h
  generalize ho : none = outcome at h
  cases h with
  | looking hl hs =>
    subst ho
    cases hs
    exact (length_look (hall ▸ hl) hc (by simp)).trans (by decide)
  | @judged looked judged _ _ hl hj =>
    have hone : judged.length ≤ 1 := by
      cases hj with
      | unclocked | pausing => simp
      | _ => cases ho
    rcases List.append_eq_append_iff.1 hall with ⟨more, rfl, rfl⟩ | ⟨more, rfl, rfl⟩
    · have hlook : more.length ≤ 1 :=
        length_look hl (fun e he => hc e (List.mem_append_left _ he)) (by simp)
      rw [List.length_append]
      omega
    · rw [List.length_append] at hone
      omega

theorem decided {o : Outcome Error Api.Session}
    (h : LastRound d name current expecting started events (some o)) :
    Decided d name current expecting started events o := by
  generalize ho : some o = outcome at h
  cases h with
  | @looking _ stop _ hl hs =>
    subst ho
    obtain ⟨o', rfl⟩ : ∃ o', stop = some o' := by cases hs <;> exact ⟨_, rfl⟩
    obtain ⟨tried, reply, waits, rfl, hw, ⟨s, -, -, rfl⟩ | ⟨hn, e, rfl⟩⟩ := of_look hl
    · cases hs
    · cases hs
      exact ⟨tried, reply, waits, rfl, hw, Or.inr ⟨hn, e, rfl⟩⟩
  | @judged _ rest s _ hl hj =>
    subst ho
    obtain ⟨tried, reply, waits, rfl, hw, ⟨shown, hs, rfl, ho⟩ | ⟨-, e, he⟩⟩ := of_look hl
    · cases ho
      exact ⟨tried, reply, rest, by simp, hj.sendings_eq, Or.inl ⟨s, hs, hj⟩⟩
    · cases he

end LastRound

/-- The trace of a wait by what comes of its next look; `patience` more may follow. -/
inductive Round (d : SessionDriver) (name : String) (current expecting : Api.Status)
    (started patience : Nat) : List Event → Option (Outcome Error Api.Session) → Prop
  | last {events : List Event} {outcome : Option (Outcome Error Api.Session)}
    (h : LastRound d name current expecting started events outcome) :
    Round d name current expecting started patience events outcome
  | again {looked rest : List Event} {s : Api.Session} {now : Nat} {span : Api.Span}
    {outcome : Option (Outcome Error Api.Session)}
    (h : Trace (d.look name) looked (some (.done s)))
    (hrest : Trace (d.poll name current expecting started patience) rest outcome) :
    Round d name current expecting started patience
      ((looked ++ [⟨.clock, now⟩]) ++ ⟨.pause span, false⟩ :: rest) outcome

theorem round_of_poll {patience : Nat} {events : List Event}
    {outcome : Option (Outcome Error Api.Session)}
    (h : Trace (d.poll name current expecting started (patience + 1)) events outcome) :
    Round d name current expecting started patience events outcome := by
  unfold poll at h
  rcases Trace.of_bind h with ⟨looked, s, rest, rfl, h₁, h₂⟩ | ⟨stop, h₁, hs⟩
  swap
  · exact .last (.looking h₁ hs)
  split at h₂
  next he =>
    obtain ⟨rfl, rfl⟩ := Trace.of_pure h₂
    exact .last (.judged h₁ (.expected he))
  next he =>
  rcases Trace.of_require_bind_cases h₂ with ⟨hc, h₃⟩ | ⟨hc, rfl, rfl⟩
  swap
  · exact .last (.judged h₁ (.wrong he (by simpa using hc)))
  have hc : s.status = current := by simpa using hc
  rcases Trace.of_query_bind h₃ with ⟨rfl, rfl⟩ | ⟨now, rest, rfl, h₄⟩
  · exact .last (.judged h₁ (.unclocked he hc))
  rcases Trace.of_require_bind_cases h₄ with ⟨ht, h₅⟩ | ⟨ht, rfl, rfl⟩
  swap
  · exact .last (.judged h₁ (.late he hc (by simpa using ht)))
  have ht : now - started < d.pollTimeout * 1000000000 := by simpa using ht
  rcases Trace.of_query_bind h₅ with ⟨rfl, rfl⟩ | ⟨cancelled, rest, rfl, h₆⟩
  · exact .last (.judged h₁ (.pausing he hc ht))
  cases cancelled with
  | true =>
    obtain ⟨rfl, rfl⟩ := Trace.of_failed h₆
    exact .last (.judged h₁ (.cancelled he hc ht))
  | false => simpa using Round.again h₁ h₆

/-! ## Whole waits -/

/-- What comes when no pause goes on any more belongs to the last round. -/
theorem lastRound_of_poll : ∀ {patience : Nat} {first rest : List Event}
    {outcome : Option (Outcome Error Api.Session)},
    Trace (d.poll name current expecting started patience) (first ++ rest) outcome →
      (∀ e ∈ rest, goesOn e = false) → rest ≠ [] → ∃ earlier begun, first = earlier ++ begun ∧
        LastRound d name current expecting started (begun ++ rest) outcome
  | 0, _, _, _, h, _, hne => absurd (List.append_eq_nil_iff.1 (Trace.of_aborted h).1).2 hne
  | patience + 1, first, rest, outcome, h, hc, hne => by
    have hround := round_of_poll h
    generalize hall : first ++ rest = events at hround
    cases hround with
    | last hl => exact ⟨[], first, rfl, hall ▸ hl⟩
    | @again looked _ _ now span _ hl hrest =>
      obtain ⟨more, rfl, rfl⟩ := split_of_not_mem hall.symm fun hm => by
        simpa [goesOn] using hc _ hm
      obtain ⟨earlier, begun, rfl, hlast⟩ := lastRound_of_poll hrest hc hne
      exact ⟨(looked ++ [⟨.clock, now⟩]) ++ ⟨.pause span, false⟩ :: earlier, begun, by simp, hlast⟩

section Poll

variable {patience : Nat} {first rest : List Event}

theorem length_sendings_poll {outcome : Option (Outcome Error Api.Session)}
    (h : Trace (d.poll name current expecting started patience) (first ++ rest) outcome)
    (hc : ∀ e ∈ rest, goesOn e = false) : (sendings rest).length ≤ 1 := by
  by_cases hne : rest = []
  · simp [hne]
  · obtain ⟨_, _, -, hl⟩ := lastRound_of_poll h hc hne
    exact hl.length_sendings hc

theorem length_poll
    (h : Trace (d.poll name current expecting started patience) (first ++ rest) none)
    (hc : ∀ e ∈ rest, goesOn e = false) : rest.length ≤ 2 := by
  by_cases hne : rest = []
  · simp [hne]
  · obtain ⟨_, _, -, hl⟩ := lastRound_of_poll h hc hne
    exact hl.length_le hc

/-- A wait that is over has looked at least once. -/
theorem decided_of_poll {o : Outcome Error Api.Session} (hp : patience ≠ 0)
    (h : Trace (d.poll name current expecting started patience) (first ++ rest) (some o))
    (hc : ∀ e ∈ rest, goesOn e = false) (hne : rest = [] → first = []) :
    Decided d name current expecting started (first ++ rest) o := by
  by_cases hnil : rest = []
  · subst hnil
    obtain rfl := hne rfl
    obtain ⟨patience, rfl⟩ := Nat.exists_eq_succ_of_ne_zero hp
    generalize hall : [] ++ [] = events at h
    cases round_of_poll h with
    | last hl => exact hl.decided
    | again => simp at hall
  · obtain ⟨earlier, begun, rfl, hl⟩ := lastRound_of_poll h hc hnil
    rw [List.append_assoc]
    exact hl.decided.after earlier

end Poll

/-- How a wait goes on in `rest`, when it has begun with `first`. -/
structure CutShort (d : SessionDriver) (name : String) (current expecting : Api.Status)
    (first rest : List Event) (outcome : Option (Outcome Error Api.Session)) : Prop where
  /-- It looks at the session, -/
  looks : ∀ sent ∈ sendings (first ++ rest), sent.1 = lookAt name
  /-- once at most, -/
  once : (sendings rest).length ≤ 1
  /-- it is over soon, the time being asked for before that look and after it, -/
  soon : outcome = none → rest.length ≤ 3
  /-- and the last reply has decided how. -/
  decided : rest ≠ [] → ∀ o, outcome = some o → ∃ (started : Nat) (events : List Event),
    first ++ rest = ⟨.clock, started⟩ :: events ∧
      Decided d name current expecting started events o

/-- A wait for a session sends nothing but looks at it. -/
theorem sent_of_waitFor {events : List Event} {outcome : Option (Outcome Error Api.Session)}
    (h : Trace (d.waitFor name current expecting) events outcome) :
    ∀ sent ∈ sendings events, sent.1 = lookAt name := by
  have looks : (d.waitFor name current expecting).Keeps (Makes (· = lookAt name)) fun _ => True :=
    Program.Keeps.bind (keeps_ask trivial (by simp)) fun _ _ =>
      keeps_poll (P := (· = lookAt name)) rfl
  rintro ⟨request, reply⟩ hm
  exact ((looks.of_trace h).1 _ (mem_sendings.1 hm)).2 request rfl

/-- When no wait and no pause goes on any more, a wait for a session is cut short. -/
theorem cutShort_of_waitFor {first rest : List Event}
    {outcome : Option (Outcome Error Api.Session)} (hp : d.patience ≠ 0)
    (h : Trace (d.waitFor name current expecting) (first ++ rest) outcome)
    (hc : ∀ e ∈ rest, goesOn e = false) :
    CutShort d name current expecting first rest outcome := by
  have looks := sent_of_waitFor h
  rcases Trace.of_query_bind h with ⟨hnone, ho⟩ | ⟨started, polled, hall, hpoll⟩
  · obtain ⟨rfl, rfl⟩ := List.append_eq_nil_iff.1 hnone
    exact ⟨by simp, by simp, by simp, by simp⟩
  -- What comes last of the wait may begin with the clock.
  obtain ⟨before, after, rfl, hrest⟩ : ∃ before after, polled = before ++ after ∧
      (rest = after ∨ before = [] ∧ rest = ⟨.clock, started⟩ :: after) := by
    rcases first with - | ⟨e, first⟩
    · exact ⟨[], polled, rfl, Or.inr ⟨rfl, hall⟩⟩
    · exact ⟨first, rest, (List.cons.inj hall).2.symm, Or.inl rfl⟩
  have hafter : ∀ e ∈ after, goesOn e = false := fun e he => hc e (by
    rcases hrest with rfl | ⟨-, rfl⟩
    · exact he
    · exact List.mem_cons_of_mem _ he)
  refine ⟨looks, ?_, ?_, ?_⟩
  · have honce := length_sendings_poll hpoll hafter
    rcases hrest with rfl | ⟨-, rfl⟩
    · exact honce
    · exact honce
  · rintro rfl
    have hsoon := length_poll hpoll hafter
    rcases hrest with rfl | ⟨-, rfl⟩
    · omega
    · rw [List.length_cons]
      omega
  · rintro hne o rfl
    refine ⟨started, before ++ after, hall, decided_of_poll hp hpoll hafter ?_⟩
    rintro rfl
    exact (hrest.resolve_left hne).1

end SessionDriver

end Import

end BulkLoad
