import BulkLoad.Proofs.Service.Calls
import BulkLoad.Proofs.Service.Landmarks
import BulkLoad.Proofs.Service.Scratch

/-!
# A replacement from stage to stage

A replacement finds a depot in order and leaves it so, wherever it is cut off (`Depot.Sound`). From
one stage to the next it knows a little more of the session and of the scratch table : that the
table is there before the session is created, that the session is committed before the table is put
in place, and that the table is gone before the session is deleted. If the table was gone at the
beginning, that is known to the end (`Depot.Over`).
-/

namespace BulkLoad.Import

open Program (Trace Keeps)

/-- The settings are those of a replacement. -/
structure Replaces (settings : Settings) (t : Target) : Prop where
  mode : settings.mode = .replace
  database : settings.database = t.database
  table : settings.table = t.table
  session : settings.session = some t.session

theorem Replaces.loadTable {settings : Settings} {t : Target} (h : Replaces settings t) :
    settings.loadTable t.session = t.scratch := by
  simp only [Settings.loadTable, h.mode, h.table, Target.scratch]

namespace Depot

variable {t : Target} {origin : Option (List Batch)} {s s' : Depot} {swap lossy : Bool}
  {client : Api.Client} {settings : Settings} {schema : Schema}
  {rows : List (Except RowFault Row)}

/-! ## From one stage to the next -/

/-- The scratch table was put in place. -/
def Over (t : Target) (s : Depot) : Prop :=
  Complete t s ∧ s.content t.database t.scratch = none

/-- What holds once it is decided whether the scratch table is to be put in place. -/
def Decided (t : Target) : Bool → Depot → Prop
  | true, s => s.sessions t.session = none ∨ s.content t.database t.scratch ≠ none
  | false, s => Over t s

/-- What holds once the table to load into is there. -/
def Prepared (t : Target) : Bool → Depot → Prop
  | true, s => s.content t.database t.scratch ≠ none
  | false, s => Over t s

/-- What holds once the session takes no more rows. -/
def Filled (t : Target) : Bool → Depot → Prop
  | true, s => s.sessions t.session ≠ none
  | false, s => Over t s

/-- What holds once the session was driven. -/
def Driven (t : Target) : Bool → Depot → Prop
  | true, s => Complete t s
  | false, s => Over t s

theorem Moves.session_eq_none (m : Moves s s') (name : String) :
    s'.sessions name = none ↔ s.sessions name = none := by
  rcases m.session name with h | ⟨kept, stage, h, h', -⟩ <;> simp [*]

theorem Moves.content_eq_none (m : Moves s s') (database table : String) :
    s'.content database table = none ↔ s.content database table = none := by
  rcases m.content database table with h | ⟨name, kept, -, -, -, -, -, h⟩ <;> simp [h]

theorem Complete.moved (h : Complete t s) (m : Moves s s') : Complete t s' := by
  obtain ⟨kept, hk, hs⟩ := h
  rcases m.session t.session with h | ⟨kept', stage, hk', -, hn⟩
  · exact ⟨kept, h ▸ hk, hs⟩
  · obtain rfl := Option.some.inj (hk.symm.trans hk')
    rw [hs] at hn
    cases hn

theorem Over.moved (h : Over t s) (m : Moves s s') : Over t s' :=
  ⟨h.1.moved m, (m.content_eq_none _ _).2 h.2⟩

theorem Decided.moved (m : Moves s s') : ∀ {swap : Bool}, Decided t swap s → Decided t swap s'
  | true, h => by simpa only [Decided, m.session_eq_none, ne_eq, m.content_eq_none] using h
  | false, h => Over.moved h m

theorem Prepared.moved (m : Moves s s') : ∀ {swap : Bool}, Prepared t swap s → Prepared t swap s'
  | true, h => by simpa only [Prepared, ne_eq, m.content_eq_none] using h
  | false, h => Over.moved h m

theorem Filled.moved (m : Moves s s') : ∀ {swap : Bool}, Filled t swap s → Filled t swap s'
  | true, h => by simpa only [Filled, ne_eq, m.session_eq_none] using h
  | false, h => Over.moved h m

theorem Driven.moved (m : Moves s s') : ∀ {swap : Bool}, Driven t swap s → Driven t swap s'
  | true, h => Complete.moved h m
  | false, h => Over.moved h m

/-- The service stays in order. -/
def guarding (t : Target) (origin : Option (List Batch)) : Aim Depot Error where
  always := Sound t origin

theorem bears_guarding : Bears lossy (guarding t origin) :=
  ⟨fun _ _ m h => h.moved m, fun _ _ => trivial⟩

theorem steady_guarding {K : Depot → Prop} (hK : ∀ s s', Moves s s' → K s → K s') :
    Steady (depot lossy) (guarding t origin) fun s => Sound t origin s ∧ K s :=
  ⟨fun s s' m h => ⟨h.1.moved m, hK s s' m h.2⟩, fun _ h => h.1⟩

theorem steady_decided :
    Steady (depot lossy) (guarding t origin) fun s => Sound t origin s ∧ Decided t swap s :=
  steady_guarding fun _ _ m => Decided.moved m

theorem steady_prepared :
    Steady (depot lossy) (guarding t origin) fun s => Sound t origin s ∧ Prepared t swap s :=
  steady_guarding fun _ _ m => Prepared.moved m

theorem steady_filled :
    Steady (depot lossy) (guarding t origin) fun s => Sound t origin s ∧ Filled t swap s :=
  steady_guarding fun _ _ m => Filled.moved m

theorem steady_driven :
    Steady (depot lossy) (guarding t origin) fun s => Sound t origin s ∧ Driven t swap s :=
  steady_guarding fun _ _ m => Driven.moved m

/-- It is decided whether the scratch table is to be put in place. -/
theorem brings_swapWanted (hr : Replaces settings t) :
    Brings (depot lossy) (guarding t origin) (Sound t origin)
      (swapWanted client settings t.session t.scratch)
      fun swap s => Sound t origin s ∧ Decided t swap s := by
  have hsteady : Steady (depot lossy) (guarding t origin) (Sound t origin) :=
    ⟨fun _ _ m h => h.moved m, fun _ => id⟩
  simp only [swapWanted, hr.mode, swapPending, hr.database]
  refine (brings_seek bears_guarding trivial hsteady
    (R := fun existing s => Sound t origin s ∧
      if existing.any (·.status = .committed) then Complete t s else Decided t true s)
    (fun existing => steady_guarding fun s s' m h => ?_) ?_ ?_).bind fun existing => ?_
  · split at h
    next hc =>
      rw [if_pos hc]
      exact h.moved m
    next hc =>
      rw [if_neg hc]
      exact Decided.moved m h
  · exact fun s h hnone => ⟨h, Or.inl hnone⟩
  · intro s kept shown h hk hshown
    refine ⟨h, ?_⟩
    split
    next hc =>
      refine ⟨kept, hk, ?_⟩
      simpa [hshown.status] using hc
    next hc =>
      refine Or.inr (h.content_ne_none hk ?_)
      simpa [hshown.status] using hc
  · split
    next hc =>
      refine (brings_tables (judged_tables bears_guarding trivial
        (steady_guarding fun _ _ m h => Complete.moved h m)
        (R := fun found s => Sound t origin s ∧ Decided t (found.any (·.name = t.scratch)) s)
        (fun _ => steady_decided) (fun _ _ _ _ => trivial)
        fun s found h hfound => ⟨h.1, ?_⟩)).bind fun found =>
          Brings.pure steady_decided fun _ => id
      rw [hfound]
      cases hcontent : s.content t.database t.scratch with
      | none => exact ⟨h.2, hcontent⟩
      | some => exact Or.inr (by simp [hcontent])
    next hc =>
      exact Brings.pure steady_decided fun _ => id

theorem performs_founding : Performs lossy (guarding t origin) (founding t.database)
    (fun v => v = .taken ∨ v = .conflict) (fun s => Sound t origin s ∧ Decided t true s)
    fun s => Sound t origin s ∧ Decided t true s := by
  have hkept (s : Depot) (h : Sound t origin s ∧ Decided t true s) :
      Sound t origin (s.handle (founding t.database)).2 ∧
        Decided t true (s.handle (founding t.database)).2 :=
    ⟨h.1.founded _, by simpa only [Decided, sessions_founding, content_founding] using h.2⟩
  exact ⟨trivial, steady_decided, steady_decided, fun _ => hkept, fun s h _ => hkept s h,
    fun s h _ => ⟨fun _ => trivial, (hkept s h).1⟩⟩

theorem performs_making : Performs lossy (guarding t origin) (making t.database t.scratch)
    (fun v => v = .taken ∨ v = .conflict) (fun s => Sound t origin s ∧ Decided t true s)
    fun s => Sound t origin s ∧ Prepared t true s := by
  have hprepared (s : Depot) (hv : (s.handle (making t.database t.scratch)).1 ≠ .missing) :
      Prepared t true (s.handle (making t.database t.scratch)).2 := by
    rcases handle_making s t.database t.scratch with ⟨-, he⟩ | ⟨hc, he⟩ | ⟨hd, -, he⟩
    · exact absurd (congrArg Prod.fst he) hv
    · exact he ▸ hc
    · simp [he, Prepared, content_put_self hd]
  have hkept (s : Depot) (h : Sound t origin s ∧ Decided t true s) :
      Sound t origin (s.handle (making t.database t.scratch)).2 ∧
        Decided t true (s.handle (making t.database t.scratch)).2 := by
    refine ⟨h.1.made h.2, ?_⟩
    by_cases hv : (s.handle (making t.database t.scratch)).1 = .missing
    · rcases handle_making s t.database t.scratch with ⟨-, he⟩ | ⟨-, he⟩ | ⟨-, -, he⟩
      · exact he ▸ h.2
      · simp [he] at hv
      · simp [he] at hv
    · exact Or.inr (hprepared s hv)
  refine ⟨trivial, steady_decided, steady_prepared, fun _ => hkept, fun s h hv => ?_,
    fun s h _ => ⟨fun _ => trivial, (hkept s h).1⟩⟩
  exact ⟨(hkept s h).1, hprepared s (by rcases hv with hv | hv <;> simp [hv])⟩

/-- The table to load into is made, unless the session is committed and the table gone. -/
theorem brings_prepare (hr : Replaces settings t) :
    Brings (depot lossy) (guarding t origin) (fun s => Sound t origin s ∧ Decided t swap s)
      (prepare client settings t.scratch swap) fun _ s => Sound t origin s ∧ Prepared t swap s := by
  cases swap with
  | false =>
    simp only [prepare, hr.mode]
    exact Brings.pure steady_decided fun _ => id
  | true =>
    have hmaking : Brings (depot lossy) (guarding t origin)
        (fun s => Sound t origin s ∧ Decided t true s)
        (do let _ ← callingOrConflict (client.createTable t.database t.scratch))
        fun _ s => Sound t origin s ∧ Prepared t true s :=
      (performs_making.orConflict bears_guarding).bind fun _ =>
        Brings.pure steady_prepared fun _ => id
    simp only [prepare, prepareDestination, hr.mode, hr.database, Bool.or_true, if_true]
    split
    · exact (performs_founding.orConflict bears_guarding).bind fun _ => hmaking
    · refine Brings.bind (Judged.fetching (judged_tables bears_guarding trivial steady_decided
        (R := fun _ s => Sound t origin s ∧ Decided t true s) (fun _ => steady_decided)
        (fun _ _ _ _ => trivial) fun _ _ h _ => h)) fun r => ?_
      cases r with
      | error e =>
        dsimp only
        split <;> exact Brings.throw (steady_landed (fun _ => steady_decided)
          bears_guarding.lasts (.error e)) fun _ _ => trivial
      | ok found => exact hmaking

theorem performs_creating :
    Performs lossy (guarding t origin) (creating t.session t.database t.scratch)
      (fun v => v = .taken ∨ v = .conflict) (fun s => Sound t origin s ∧ Prepared t swap s)
      fun s => Sound t origin s ∧ Filled t swap s := by
  have hover (s : Depot) (h : Over t s) :
      s.handle (creating t.session t.database t.scratch) = (.conflict, s) := by
    obtain ⟨⟨kept, hk, -⟩, -⟩ := h
    rcases handle_creating s t.session t.database t.scratch with ⟨-, he⟩ | ⟨hnone, -⟩
    · exact he
    · simp [hk] at hnone
  have hsound (s : Depot) (h : Sound t origin s ∧ Prepared t swap s) :
      Sound t origin (s.handle (creating t.session t.database t.scratch)).2 := by
    cases swap with
    | true => exact h.1.created fun _ => h.2
    | false => exact (hover s h.2) ▸ h.1
  have hprepared (s : Depot) (h : Prepared t swap s) :
      Prepared t swap (s.handle (creating t.session t.database t.scratch)).2 := by
    cases swap with
    | true =>
      rcases handle_creating s t.session t.database t.scratch with ⟨-, he⟩ | ⟨-, he⟩ <;>
        exact he ▸ h
    | false => exact (hover s h) ▸ h
  have hfilled (s : Depot) (h : Prepared t swap s) :
      Filled t swap (s.handle (creating t.session t.database t.scratch)).2 := by
    cases swap with
    | true =>
      rcases handle_creating s t.session t.database t.scratch with ⟨hs, he⟩ | ⟨-, he⟩
      · exact he ▸ hs
      · simp [he, Filled]
    | false => exact (hover s h) ▸ h
  exact ⟨trivial, steady_prepared, steady_filled,
    fun _ s h => ⟨hsound s h, hprepared s h.2⟩, fun s h _ => ⟨hsound s h, hfilled s h.2⟩,
    fun s h _ => ⟨fun _ => trivial, hsound s h⟩⟩

/-- The session is there when it is opened. -/
theorem brings_start {d : SessionDriver} :
    Brings (depot lossy) (guarding t origin) (fun s => Sound t origin s ∧ Prepared t swap s)
      (d.start t.session t.database t.scratch) fun _ s => Sound t origin s ∧ Filled t swap s := by
  refine (performs_creating.orConflict bears_guarding).bind fun _ => ?_
  refine Brings.bind (brings_look bears_guarding trivial steady_filled
    (R := fun _ s => Sound t origin s ∧ Filled t swap s) (fun _ => steady_filled)
    (fun _ _ _ _ => trivial) fun _ _ _ h _ _ => h) fun shown => ?_
  refine Brings.require steady_filled (fun _ => ?_) fun _ _ _ => trivial
  split
  · exact Brings.pure steady_filled fun _ => id
  · exact Brings.throw steady_filled fun _ _ => trivial
  · exact Brings.pure steady_filled fun _ => id

/-- The session is committed when it was driven. -/
theorem brings_complete {d : SessionDriver} {priority : Int} :
    Brings (depot lossy) (guarding t origin) (fun s => Sound t origin s ∧ Filled t swap s)
      (d.complete t.session priority) fun _ s => Sound t origin s ∧ Driven t swap s := by
  have hkept (request : Api.Request) (hr : SessionDriver.Takes t.session priority request)
      (s : Depot) (h : Filled t swap s) : Filled t swap (s.handle request).2 := by
    rcases handle_takes hr with he | ⟨kept, kept', hk, he, -, -, hs, -⟩ <;> rw [he]
    · exact h
    · cases swap with
      | true => simp [Filled]
      | false =>
        obtain ⟨⟨kept, hk', hc⟩, -⟩ := h
        obtain rfl := Option.some.inj (hk.symm.trans hk')
        simp [hc] at hs
  have hkeeps : Brings (depot lossy) (guarding t origin)
      (fun s => Sound t origin s ∧ Filled t swap s) (d.complete t.session priority)
      fun _ s => True ∧ Sound t origin s ∧ Filled t swap s := by
    refine Brings.of_keeps SessionDriver.keeps_complete (fun request hq => hq.2 request rfl)
      steady_filled (fun _ _ => trivial) ?_ (fun _ => trivial) trivial
    rintro request hr s reply s' ⟨h, hf⟩ ht
    rcases Treats.eq_or_eq ht with rfl | rfl
    · exact ⟨h, hf⟩
    · exact ⟨h.taken hr, hkept request hr s hf⟩
  refine (hkeeps.and (follows lossy t.session).brings_complete).mono
    (fun s h => ⟨h, status_ne_unknown⟩) ?_
  rintro shown s ⟨⟨-, h, hf⟩, -, hstatus⟩
  refine ⟨h, ?_⟩
  cases swap with
  | true =>
    obtain ⟨kept, hk⟩ := Option.ne_none_iff_exists'.1 hf
    exact ⟨kept, hk, by simpa [status_of_some hk] using hstatus⟩
  | false => exact hf

theorem performs_swapping :
    Performs lossy (guarding t origin) (swapping t.database t.scratch t.table) (· = .taken)
      (fun s => Sound t origin s ∧ Complete t s)
      fun s => Sound t origin s ∧ s.content t.database t.scratch = none := by
  have hkept (s : Depot) (h : Sound t origin s ∧ Complete t s) :
      Sound t origin (s.handle (swapping t.database t.scratch t.table)).2 ∧
        Complete t (s.handle (swapping t.database t.scratch t.table)).2 := by
    refine ⟨h.1.swapped h.2, ?_⟩
    rcases handle_swapping s t.database t.scratch t.table with ⟨-, he⟩ | ⟨_, -, he⟩ <;>
      exact he ▸ h.2
  refine ⟨trivial, steady_guarding fun _ _ m h => h.moved m,
    steady_guarding fun _ _ m => (m.content_eq_none _ _).2, fun _ => hkept, fun s h hv => ?_,
    fun s h _ => ⟨fun _ => trivial, (hkept s h).1⟩⟩
  refine ⟨(hkept s h).1, ?_⟩
  rcases handle_swapping s t.database t.scratch t.table with ⟨-, he⟩ | ⟨_, -, he⟩
  · simp [he] at hv
  · rw [he, content_put_of_ne fun _ => t.scratch_ne_table, content_put_none]

/-- The scratch table is gone when it was put in place. -/
theorem brings_putInPlace (hr : Replaces settings t) :
    Brings (depot lossy) (guarding t origin) (fun s => Sound t origin s ∧ Driven t swap s)
      (putInPlace client settings t.scratch swap)
      fun _ s => Sound t origin s ∧ s.content t.database t.scratch = none := by
  cases swap with
  | true =>
    simp only [putInPlace, hr.database, hr.table, if_true]
    exact performs_swapping.calling bears_guarding
  | false => exact Brings.pure steady_driven fun _ h => ⟨h.1, h.2.2⟩

theorem brings_cleanUp {d : SessionDriver} :
    Brings (depot lossy) (guarding t origin)
      (fun s => Sound t origin s ∧ s.content t.database t.scratch = none)
      (cleanUp settings d t.session) fun _ => Sound t origin := by
  refine (Brings.of_keeps keeps_cleanUp (fun request hq => hq.2 request rfl)
    (steady_guarding fun _ _ m => (m.content_eq_none _ _).2) (fun _ _ => trivial) ?_
    (fun _ => trivial) trivial).mono (fun _ => id) fun _ s h => h.2.1
  rintro request rfl s reply s' ⟨h, hgone⟩ ht
  rcases Treats.eq_or_eq ht with rfl | rfl
  · exact ⟨h, hgone⟩
  · refine ⟨h.deleted hgone, ?_⟩
    rcases handle_deleting s t.session with ⟨-, he⟩ | ⟨-, he⟩ <;> exact he ▸ hgone

/-- A replacement leaves the service in order, from one stage to the next. -/
theorem route_guarding (hr : Replaces settings t) :
    Route (depot lossy) (guarding t origin) client settings schema rows
      { entered := Sound t origin
        decided := fun name swap s => name = t.session ∧ Sound t origin s ∧ Decided t swap s
        prepared := fun name swap s => name = t.session ∧ Sound t origin s ∧ Prepared t swap s
        loaded := fun name swap s => name = t.session ∧ Sound t origin s ∧ Filled t swap s
        driven := fun name swap s => name = t.session ∧ Sound t origin s ∧ Driven t swap s
        placed := fun name _ s => name = t.session ∧ Sound t origin s ∧
          s.content t.database t.scratch = none
        left := fun name _ s => name = t.session ∧ Sound t origin s } where
  entered := ⟨fun _ _ m h => h.moved m, fun _ => id⟩
  loaded _ _ := steady_filled.fact
  driven _ _ := steady_driven.fact
  left _ _ := Steady.fact ⟨fun _ _ m h => h.moved m, fun _ => id⟩
  resolves _ _ := trivial
  decides name hname := by
    obtain rfl : t.session = name := by simpa [hr.session] using hname
    rw [hr.loadTable]
    exact (brings_swapWanted hr).mono (fun _ => id) fun _ _ h => ⟨rfl, h⟩
  prepares name swap := Brings.fact fun hname => by
    rw [hname, hr.loadTable]
    exact brings_prepare hr
  loads name swap writers report hname := by
    refine Brings.assume (fun _ h => h.1) fun ht => ?_
    subst hname
    rw [ht, hr.loadTable]
    refine (brings_uploadInto steady_filled ?_ (fun _ _ => id)
      fun _ _ => ⟨fun _ => trivial, trivial⟩).mono (fun _ h => h.2)
      fun _ _ h => ⟨h.1.trans ht, rfl, h.2⟩
    rw [ht, hr.database]
    exact brings_start
  drives name swap := Brings.fact fun hname => hname ▸ brings_complete
  places name swap := Brings.fact fun hname => by
    rw [hname, hr.loadTable]
    exact brings_putInPlace hr
  leaves name swap := Brings.fact fun hname => hname ▸ brings_cleanUp

end Depot

end BulkLoad.Import
