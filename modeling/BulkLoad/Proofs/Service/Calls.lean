import BulkLoad.Proofs.Service.Depot

/-!
# Calls at a depot

What a call brings at a depot follows from what the depot makes of its request (`Depot.judged`). For
calls whose answer says no more than a verdict it is enough to tell the states before and after, and
with which verdicts the call succeeds (`Depot.Performs`); looks and lists show what there is. When
replies may be lost, the state after the request must be one from which it can be made again.
-/

namespace BulkLoad.Import

namespace Depot

variable {s s' : Depot} {name : String} {lossy : Bool} {request : Api.Request} {reply : Api.Reply}

/-- An aim that lost replies do not thwart. -/
structure Bears (lossy : Bool) (aim : Aim Depot Error) : Prop where
  lasts : (depot lossy).Lasts aim.always
  lost : lossy = true → ∀ e, aim.fails (.api e)

section Calls

variable {client : Api.Client} {aim : Aim Depot Error} {J : Depot → Prop} {γ : Type}
  {database : String}

/-- A request is judged by what is made of it. -/
theorem judged (h : Bears lossy aim)
    {k : Except Api.Error (List UInt8) → Except Api.Error γ} {R : γ → Depot → Prop}
    (hsends : aim.sends request) (hJ : Steady (depot lossy) aim J)
    (hR : ∀ c, Steady (depot lossy) aim (R c))
    (hk : ∀ e, e.isConflict = false → e.isNotFound = false → k (.error e) = .error e)
    (hkept : lossy = true → ∀ s, J s → J (s.handle request).2)
    (htold : ∀ s reply, J s → verdict request reply = (s.handle request).1 →
      s.Tells request reply →
        Landed aim R (k (Api.Client.settle request reply)) (s.handle request).2) :
    Judged (depot lossy) aim J request fun r => Landed aim R (k r) := by
  refine Judged.of_verdicts hsends hJ hR h.lasts hk (fun s reply s' hs t hl => ?_)
    fun s reply s' hs t hl => ?_
  · cases t with
    | answered hv => exact absurd (hv.symm.trans hl) (handle_ne_lost request)
    | unheard hlossy => exact ⟨hs, h.lost hlossy⟩
    | lost hlossy => exact ⟨hkept hlossy s hs, h.lost hlossy⟩
  · cases t with
    | answered hv ht => exact htold s reply hs hv ht
    | unheard _ hv | lost _ hv => exact absurd hv hl

/-- What a call brings whose answer says no more than the verdict, where `good` are the verdicts
that it succeeds with. -/
structure Performs (lossy : Bool) (aim : Aim Depot Error) (request : Api.Request)
    (good : Verdict → Prop) (J R : Depot → Prop) : Prop where
  sends : aim.sends request
  before : Steady (depot lossy) aim J
  after : Steady (depot lossy) aim R
  kept : lossy = true → ∀ s, J s → J (s.handle request).2
  done : ∀ s, J s → good (s.handle request).1 → R (s.handle request).2
  failed : ∀ s, J s → ¬ good (s.handle request).1 →
    (∀ e, aim.fails (.api e)) ∧ aim.always (s.handle request).2

namespace Performs

variable {good : Verdict → Prop} {R : Depot → Prop}

theorem judged (hp : Performs lossy aim request good J R) (h : Bears lossy aim)
    {k : Except Api.Error Unit → Except Api.Error γ}
    (hk : ∀ e, e.isConflict = false → e.isNotFound = false → k (.error e) = .error e)
    (hgood : ∀ reply, good (verdict request reply) →
      ∃ c, k ((Api.Client.settle request reply).map fun _ => ()) = .ok c)
    (hbad : ∀ reply, ¬ good (verdict request reply) →
      ∃ e, k ((Api.Client.settle request reply).map fun _ => ()) = .error e) :
    Judged (depot lossy) aim J request fun r =>
      Landed aim (fun _ => R) (k (r.map fun _ => ())) := by
  refine Depot.judged h (k := fun r => k (r.map fun _ => ())) hp.sends hp.before
    (fun _ => hp.after) hk hp.kept fun s reply hs hv _ => ?_
  by_cases hg : good (verdict request reply)
  · obtain ⟨c, hc⟩ := hgood reply hg
    rw [hc]
    exact hp.done s hs (hv ▸ hg)
  · obtain ⟨e, he⟩ := hbad reply hg
    rw [he]
    obtain ⟨hf, ha⟩ := hp.failed s hs (hv ▸ hg)
    exact ⟨hf e, ha⟩

/-- A call that must be taken. -/
theorem calling (hp : Performs lossy aim request (· = .taken) J R) (h : Bears lossy aim) :
    Brings (depot lossy) aim J (calling (client.perform request)) fun _ => R := by
  rw [calling_perform]
  refine (hp.judged h (k := id) (fun _ _ _ => rfl) (fun reply hg => ?_)
    fun reply hg => ?_).requesting
  · rcases verdict_cases request reply with
      ⟨_, he, -⟩ | ⟨_, _, _, hv⟩ | ⟨_, _, _, _, hv⟩ | ⟨_, _, _, _, hv⟩
    · exact ⟨(), by rw [he]; rfl⟩
    all_goals exact absurd (hv.symm.trans hg) (by simp)
  · rcases verdict_cases request reply with
      ⟨_, _, hv⟩ | ⟨e, he, -⟩ | ⟨e, he, -⟩ | ⟨e, he, -⟩
    · exact absurd hv hg
    all_goals exact ⟨e, by rw [he]; rfl⟩

/-- A call for something that may be done already. -/
theorem orConflict (hp : Performs lossy aim request (fun v => v = .taken ∨ v = .conflict) J R)
    (h : Bears lossy aim) :
    Brings (depot lossy) aim J (callingOrConflict (client.perform request)) fun _ => R := by
  rw [callingOrConflict_perform]
  refine (hp.judged h (fun e hc _ => ?_) (fun reply hg => ?_) fun reply hg => ?_).requesting
  · simp [Api.ignoreConflict, hc]
  · rcases verdict_cases request reply with
      ⟨_, he, -⟩ | ⟨e, he, hc, -⟩ | ⟨_, _, _, _, hv⟩ | ⟨_, _, _, _, hv⟩
    · exact ⟨some (), by rw [he]; rfl⟩
    · exact ⟨none, by simp [he, Except.map, Api.ignoreConflict, hc]⟩
    all_goals simp [hv] at hg
  · rcases verdict_cases request reply with
      ⟨_, _, hv⟩ | ⟨_, _, _, hv⟩ | ⟨e, he, hc, -⟩ | ⟨e, he, hc, -⟩
    · exact absurd (Or.inl hv) hg
    · exact absurd (Or.inr hv) hg
    all_goals exact ⟨e, by simp [he, Except.map, Api.ignoreConflict, hc]⟩

/-- A call about something that may not be there. -/
theorem orMissing (hp : Performs lossy aim request (fun v => v = .taken ∨ v = .missing) J R)
    (h : Bears lossy aim) :
    Brings (depot lossy) aim J (callingOrMissing (client.perform request)) fun _ => R := by
  rw [callingOrMissing_perform]
  refine (hp.judged h (fun e _ hn => ?_) (fun reply hg => ?_) fun reply hg => ?_).requesting
  · simp [Api.ignoreNotFound, hn]
  · rcases verdict_cases request reply with
      ⟨_, he, -⟩ | ⟨_, _, _, hv⟩ | ⟨e, he, -, hn, -⟩ | ⟨_, _, _, _, hv⟩
    · exact ⟨some (), by rw [he]; rfl⟩
    · simp [hv] at hg
    · exact ⟨none, by simp [he, Except.map, Api.ignoreNotFound, hn]⟩
    · simp [hv] at hg
  · rcases verdict_cases request reply with
      ⟨_, _, hv⟩ | ⟨e, he, hc, -⟩ | ⟨_, _, _, _, hv⟩ | ⟨e, he, -, hn, -⟩
    · exact absurd (Or.inl hv) hg
    · refine ⟨e, ?_⟩
      cases e <;> simp_all [Api.Error.isConflict, Api.Error.isNotFound, Except.map,
        Api.ignoreNotFound]
    · exact absurd (Or.inr hv) hg
    · exact ⟨e, by simp [he, Except.map, Api.ignoreNotFound, hn]⟩

end Performs

/-- What a reply to a look tells. -/
theorem told_of_look (client : Api.Client)
    (hv : verdict (lookAt name) reply = (s.handle (lookAt name)).1)
    (ht : s.Tells (lookAt name) reply) :
    (s.sessions name = none ∧ ∃ e, Api.Client.settle (lookAt name) reply = .error e ∧
      e.isConflict = false ∧ e.isNotFound = true) ∨
    ∃ kept shown, s.sessions name = some kept ∧ kept.Shown shown ∧
      decoded client (.sessionShow name) Api.Session.decoder
        (Api.Client.settle (lookAt name) reply) = .ok shown := by
  cases hs : s.sessions name with
  | none =>
    rw [handle_lookAt, hs] at hv
    exact Or.inl ⟨rfl, missing_of_verdict hv⟩
  | some kept =>
    obtain ⟨shown, hseen, hk⟩ := ht.session name kept rfl hs
    exact Or.inr ⟨kept, shown, rfl, hk, decoded_iff_seen.2 hseen⟩

/-- What a look finds, if it finds anything. -/
theorem brings_seek (h : Bears lossy aim) {R : Option Api.Session → Depot → Prop}
    (hsends : aim.sends (lookAt name)) (hJ : Steady (depot lossy) aim J)
    (hR : ∀ existing, Steady (depot lossy) aim (R existing))
    (hmissing : ∀ s, J s → s.sessions name = none → R none s)
    (hshown : ∀ s kept shown, J s → s.sessions name = some kept → kept.Shown shown →
      R (some shown) s) :
    Brings (depot lossy) aim J (callingOrMissing (client.session name)) R := by
  change Brings _ _ _ (callingOrMissing (client.fetch (.sessionShow name) Api.Session.decoder)) _
  rw [callingOrMissing_fetch]
  refine (judged h hsends hJ hR (fun e _ hn => ?_) (fun _ _ => id)
    fun s reply hs hv ht => ?_).requesting
  · simp [decoded, Api.ignoreNotFound, hn]
  · rcases told_of_look client hv ht with ⟨hnone, e, he, -, hn⟩ | ⟨kept, shown, hsome, hk, hd⟩
    · have hd : decoded client (.sessionShow name) Api.Session.decoder
          (Api.Client.settle (lookAt name) reply) = .error e := by rw [he]; rfl
      simp only [hd, Api.ignoreNotFound, hn, if_true, landed_ok]
      exact hmissing s hs hnone
    · simp only [hd, Api.ignoreNotFound, landed_ok]
      exact hshown s kept shown hs hsome hk

/-- What a look finds. -/
theorem brings_look (h : Bears lossy aim) {R : Api.Session → Depot → Prop}
    (hsends : aim.sends (lookAt name)) (hJ : Steady (depot lossy) aim J)
    (hR : ∀ shown, Steady (depot lossy) aim (R shown))
    (hfail : ∀ s, J s → s.sessions name = none → ∀ e, aim.fails (.api e))
    (hshown : ∀ s kept shown, J s → s.sessions name = some kept → kept.Shown shown → R shown s) :
    Brings (depot lossy) aim J (calling (client.session name)) R := by
  change Brings _ _ _ (calling (client.fetch (.sessionShow name) Api.Session.decoder)) _
  rw [calling_fetch]
  refine (judged h hsends hJ hR (fun _ _ _ => rfl) (fun _ _ => id)
    fun s reply hs hv ht => ?_).requesting
  rcases told_of_look client hv ht with ⟨hnone, e, he, -, -⟩ | ⟨kept, shown, hsome, hk, hd⟩
  · rw [he]
    exact ⟨hfail s hs hnone e, hJ.within s hs⟩
  · rw [hd]
    exact hshown s kept shown hs hsome hk

/-- What a list of tables tells. -/
theorem told_of_listing (client : Api.Client)
    (hv : verdict (listing name) reply = (s.handle (listing name)).1)
    (ht : s.Tells (listing name) reply) :
    (s.databases name = none ∧ ∃ e, Api.Client.settle (listing name) reply = .error e) ∨
    ∃ found, (∀ table, found.any (·.name = table) = (s.content name table).isSome) ∧
      decoded client (.tableList name) Api.Table.listDecoder
        (Api.Client.settle (listing name) reply) = .ok found := by
  by_cases hs : s.databases name = none
  · rw [handle_listing, hs] at hv
    obtain ⟨e, he, -⟩ := missing_of_verdict hv
    exact Or.inl ⟨hs, e, he⟩
  · obtain ⟨found, hl, hfound⟩ := ht.tables name rfl hs
    exact Or.inr ⟨found, hfound, decoded_iff_listed.2 hl⟩

/-- The tables that are found in a database. -/
theorem judged_tables (h : Bears lossy aim) {R : List Api.Table → Depot → Prop}
    (hsends : aim.sends (listing database)) (hJ : Steady (depot lossy) aim J)
    (hR : ∀ found, Steady (depot lossy) aim (R found))
    (hfail : ∀ s, J s → s.databases database = none → ∀ e, aim.fails (.api e))
    (hfound : ∀ s (found : List Api.Table), J s →
      (∀ table, found.any (·.name = table) = (s.content database table).isSome) → R found s) :
    Judged (depot lossy) aim J (listing database) fun r =>
      Landed aim R (decoded client (.tableList database) Api.Table.listDecoder r) := by
  refine judged h hsends hJ hR (fun _ _ _ => rfl) (fun _ _ => id) fun s reply hs hv ht => ?_
  rcases told_of_listing client hv ht with ⟨hnone, e, he⟩ | ⟨found, hf, hd⟩
  · rw [he]
    exact ⟨hfail s hs hnone e, hJ.within s hs⟩
  · rw [hd]
    exact hfound s found hs hf

theorem brings_tables {R : List Api.Table → Depot → Prop}
    (h : Judged (depot lossy) aim J (listing database) fun r =>
      Landed aim R (decoded client (.tableList database) Api.Table.listDecoder r)) :
    Brings (depot lossy) aim J (calling (client.tables database)) R := by
  change Brings _ _ _ (calling (client.fetch (.tableList database) Api.Table.listDecoder)) _
  rw [calling_fetch]
  exact h.requesting

end Calls

end Depot

end BulkLoad.Import
