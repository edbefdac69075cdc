import BulkLoad.Proofs.Service.Replacement
import BulkLoad.Proofs.Service.Swap

/-!
# Replacements that are run again

A replacement may be cut off at any point, also between a request and the reply to it, and another
one with the same session goes on in its place. However often that happens, at a service that loads
the scratch table before the session is committed, the destination is as it was at first or has what
a complete commit loaded (`safe_of_reruns`). Once the session is committed, a further run makes no
table and moves none when the scratch table is gone; when it is still there, a run that ends puts it
in the place of the destination, and only lost replies keep it from that.
-/

namespace BulkLoad.Import

open Program (Trace Keeps)

namespace Depot

variable {t : Target} {content : Option (List Batch)} {s s' : Depot} {swap lossy : Bool}
  {excused : Prop} {client : Api.Client} {settings : Settings} {schema : Schema}
  {rows : List (Except RowFault Row)}

/-! ## When the session is committed -/

/-- No session loads into the tables any more. -/
def Idle (t : Target) (s : Depot) : Prop :=
  ∀ name kept, s.sessions name = some kept → kept.database = t.database →
    kept.table = t.table ∨ kept.table = t.scratch → kept.stage = .committed

/-- The session is committed, with the scratch table as it is. -/
structure Ripe (t : Target) (content : Option (List Batch)) (s : Depot) : Prop where
  idle : Idle t s
  session : ∃ kept, s.sessions t.session = some kept ∧ kept.database = t.database ∧
    kept.table = t.scratch ∧ kept.stage = .committed
  scratch : s.content t.database t.scratch = content

/-- The scratch table was put in place, if it was there. -/
structure Placed (t : Target) (content : Option (List Batch)) (s : Depot) : Prop where
  idle : Idle t s
  scratch : s.content t.database t.scratch = none
  destination : ∀ batches, content = some batches → s.content t.database t.table = some batches

theorem Idle.moved (h : Idle t s) (m : Moves s s') : Idle t s' := by
  intro name kept' hk' hd ht
  rcases m.session name with hs | ⟨kept, stage, hk, hk'', hn⟩
  · exact h name kept' (hs ▸ hk') hd ht
  · obtain rfl := Option.some.inj (hk''.symm.trans hk')
    rw [h name kept hk hd ht] at hn
    cases hn

theorem Idle.content_eq (h : Idle t s) (m : Moves s s') {table : String}
    (ht : table = t.table ∨ table = t.scratch) :
    s'.content t.database table = s.content t.database table := by
  rcases m.content t.database table with hc | ⟨name, kept, hk, hs, hd, rfl, -⟩
  · exact hc
  · rw [h name kept hk hd ht] at hs
    cases hs

theorem Ripe.moved (h : Ripe t content s) (m : Moves s s') : Ripe t content s' := by
  refine ⟨h.idle.moved m, ?_, (h.idle.content_eq m (Or.inr rfl)).trans h.scratch⟩
  obtain ⟨kept, hk, hd, ht, hs⟩ := h.session
  rcases m.session t.session with he | ⟨kept', stage, hk', -, hn⟩
  · exact ⟨kept, he ▸ hk, hd, ht, hs⟩
  · obtain rfl := Option.some.inj (hk.symm.trans hk')
    rw [hs] at hn
    cases hn

theorem Placed.moved (h : Placed t content s) (m : Moves s s') : Placed t content s' :=
  ⟨h.idle.moved m, (h.idle.content_eq m (Or.inr rfl)).trans h.scratch,
    fun batches hb => (h.idle.content_eq m (Or.inl rfl)).trans (h.destination batches hb)⟩

/-- No table is made or moved when there is nothing to put in place, and the run does not fail
without an excuse. -/
def finishing (content : Option (List Batch)) (excused : Prop) : Aim Depot Error where
  sends request := request.endpoint.Arranges → content ≠ none
  fails _ := excused
  aborts := False

theorem bears_finishing (h : lossy = true → excused) : Bears lossy (finishing content excused) :=
  ⟨fun _ _ _ _ => trivial, fun hl _ => h hl⟩

theorem steady_ripe : Steady (depot lossy) (finishing content excused) (Ripe t content) :=
  ⟨fun _ _ m h => h.moved m, fun _ _ => trivial⟩

theorem steady_placed : Steady (depot lossy) (finishing content excused) (Placed t content) :=
  ⟨fun _ _ m h => h.moved m, fun _ _ => trivial⟩

/-- A look shows the session committed. -/
theorem Ripe.committed {kept : Stored} {shown : Api.Session} (h : Ripe t content s)
    (hk : s.sessions t.session = some kept) (hs : kept.Shown shown) :
    shown.database = t.database ∧ shown.table = t.scratch ∧ shown.status = .committed := by
  obtain ⟨kept', hk', hd, ht, hstage⟩ := h.session
  obtain rfl := Option.some.inj (hk.symm.trans hk')
  exact ⟨hs.database.trans hd, hs.table.trans ht, by rw [hs.status, hstage]; rfl⟩

theorem Ripe.session_ne_none (h : Ripe t content s) : s.sessions t.session ≠ none := by
  obtain ⟨kept, hk, -⟩ := h.session
  simp [hk]

theorem brings_look_ripe {d : SessionDriver} (hl : lossy = true → excused) :
    Brings (depot lossy) (finishing content excused) (Ripe t content) (d.look t.session)
      fun shown s => (shown.database = t.database ∧ shown.table = t.scratch ∧
        shown.status = .committed) ∧ Ripe t content s :=
  brings_look (bears_finishing hl) (by simp [finishing, lookAt]) steady_ripe
    (fun _ => steady_ripe.fact) (fun _ h hnone => absurd hnone h.session_ne_none)
    fun _ _ _ h hk hs => ⟨h.committed hk hs, h⟩

/-- A swap is wanted when the scratch table is there. -/
theorem brings_swapWanted_ripe (hr : Replaces settings t) (hl : lossy = true → excused)
    (hn : content = none → excused) :
    Brings (depot lossy) (finishing content excused) (Ripe t content)
      (swapWanted client settings t.session t.scratch)
      fun swap s => swap = content.isSome ∧ Ripe t content s := by
  simp only [swapWanted, hr.mode, swapPending, hr.database]
  refine (brings_seek (bears_finishing hl) (by simp [finishing, lookAt]) steady_ripe
    (R := fun existing s => existing.any (·.status = .committed) = true ∧ Ripe t content s)
    (fun _ => steady_ripe.fact) (fun _ h hnone => absurd hnone h.session_ne_none)
    fun s kept shown h hk hs => ⟨by simp [(h.committed hk hs).2.2], h⟩).bind fun existing => ?_
  refine Brings.assume (fun _ h => h.1) fun he => ?_
  simp only [he, if_true]
  refine Brings.mono (P := Ripe t content) ((brings_tables (judged_tables (bears_finishing hl)
    (by simp [finishing, listing]) steady_ripe
    (R := fun found s => found.any (·.name = t.scratch) = content.isSome ∧ Ripe t content s)
    (fun _ => steady_ripe.fact) ?_ ?_)).bind fun found => Brings.pure steady_ripe.fact fun _ => id)
    (fun _ h => h.2) fun _ _ => id
  · intro s h hd e
    refine hn ?_
    simp [← h.scratch, Depot.content, hd]
  · exact fun s found h hfound => ⟨by rw [hfound, h.scratch], h⟩

theorem performs_founding_ripe : Performs lossy (finishing content excused) (founding t.database)
    (fun v => v = .taken ∨ v = .conflict) (Ripe t content) (Ripe t content) := by
  have hkept (s : Depot) (h : Ripe t content s) :
      Ripe t content (s.handle (founding t.database)).2 := by
    obtain ⟨hi, hs, hscratch⟩ := h
    exact ⟨by rwa [Idle, sessions_founding], by rwa [sessions_founding],
      by rwa [content_founding]⟩
  exact ⟨by simp [finishing, founding], steady_ripe, steady_ripe, fun _ => hkept,
    fun s h _ => hkept s h, fun s _ hv => absurd (handle_founding s _) hv⟩

/-- The scratch table is not made once more. -/
theorem performs_making_ripe (hc : content ≠ none) :
    Performs lossy (finishing content excused) (making t.database t.scratch)
      (fun v => v = .taken ∨ v = .conflict) (Ripe t content) (Ripe t content) := by
  have hmade (s : Depot) (h : Ripe t content s) :
      s.handle (making t.database t.scratch) = (.conflict, s) := by
    have hne : s.content t.database t.scratch ≠ none := by rwa [h.scratch]
    rcases handle_making s t.database t.scratch with ⟨hd, -⟩ | ⟨-, he⟩ | ⟨-, hnone, -⟩
    · exact absurd hd (databases_ne_none hne)
    · exact he
    · exact absurd hnone hne
  refine ⟨fun _ => hc, steady_ripe, steady_ripe, fun _ s h => (hmade s h) ▸ h,
    fun s h _ => (hmade s h) ▸ h, fun s h hv => absurd (Or.inr ?_) hv⟩
  rw [hmade s h]

/-- The table to load into is there already. -/
theorem brings_prepare_ripe (hr : Replaces settings t) (hl : lossy = true → excused) :
    Brings (depot lossy) (finishing content excused) (Ripe t content)
      (prepare client settings t.scratch content.isSome) fun _ => Ripe t content := by
  by_cases hc : content = none
  · subst hc
    simp only [prepare, hr.mode]
    exact Brings.pure steady_ripe fun _ => id
  have hmakes : Brings (depot lossy) (finishing content excused) (Ripe t content)
      (do let _ ← callingOrConflict (client.createTable t.database t.scratch))
      fun _ => Ripe t content :=
    ((performs_making_ripe hc).orConflict (bears_finishing hl)).bind fun _ =>
      Brings.pure steady_ripe fun _ => id
  have hsome : content.isSome = true := Option.isSome_iff_ne_none.2 hc
  simp only [prepare, prepareDestination, hr.mode, hr.database, hsome, Bool.or_true, if_true]
  split
  · exact (performs_founding_ripe.orConflict (bears_finishing hl)).bind fun _ => hmakes
  · refine Brings.bind (Judged.fetching (judged_tables (bears_finishing hl)
      (by simp [finishing, listing]) steady_ripe (R := fun _ => Ripe t content)
      (fun _ => steady_ripe) (fun s h hd => ?_) fun _ _ h _ => h)) fun r => ?_
    · exact absurd hd (databases_ne_none (by rwa [h.scratch]))
    cases r with
    | error e =>
      dsimp only
      split <;> exact Brings.throw (steady_landed (fun _ => steady_ripe)
        (bears_finishing hl).lasts (.error e)) fun _ h => h.1
    | ok found => exact hmakes

/-- The session is not created once more. -/
theorem performs_creating_ripe : Performs lossy (finishing content excused)
    (creating t.session t.database t.scratch) (fun v => v = .taken ∨ v = .conflict)
    (Ripe t content) (Ripe t content) := by
  have hthere (s : Depot) (h : Ripe t content s) :
      s.handle (creating t.session t.database t.scratch) = (.conflict, s) := by
    rcases handle_creating s t.session t.database t.scratch with ⟨-, he⟩ | ⟨hnone, -⟩
    · exact he
    · exact absurd hnone h.session_ne_none
  refine ⟨by simp [finishing, creating], steady_ripe, steady_ripe,
    fun _ s h => (hthere s h) ▸ h, fun s h _ => (hthere s h) ▸ h,
    fun s h hv => absurd (Or.inr ?_) hv⟩
  rw [hthere s h]

/-- The session takes no rows. -/
theorem brings_start_ripe {d : SessionDriver} (hl : lossy = true → excused) :
    Brings (depot lossy) (finishing content excused) (Ripe t content)
      (d.start t.session t.database t.scratch) fun takes s => takes = false ∧ Ripe t content s := by
  refine (performs_creating_ripe.orConflict (bears_finishing hl)).bind fun _ =>
    (brings_look_ripe hl).bind fun shown => Brings.assume (fun _ h => h.1) fun ⟨hd, ht, hs⟩ => ?_
  refine Brings.require steady_ripe.fact (fun _ => ?_) fun hf => by simp [hd, ht] at hf
  simp only [hs]
  exact Brings.pure steady_ripe.fact fun _ h => ⟨rfl, h.2⟩

/-- There is nothing left to drive the session to. -/
theorem brings_complete_ripe {d : SessionDriver} {priority : Int} (hl : lossy = true → excused) :
    Brings (depot lossy) (finishing content excused) (Ripe t content)
      (d.complete t.session priority) fun _ => Ripe t content := by
  refine (brings_look_ripe hl).bind fun shown => Brings.assume (fun _ h => h.1) fun hs => ?_
  have hdrive : d.drive t.session shown.status priority = d.look t.session := by
    rw [hs.2.2]
    rfl
  rw [hdrive]
  exact (brings_look_ripe hl).mono (fun _ h => h.2) fun _ _ h => h.2

/-- The scratch table is put in place. -/
theorem Ripe.swapped {batches : List Batch} (h : Ripe t (some batches) s) :
    (s.handle (swapping t.database t.scratch t.table)).1 = .taken ∧
      Placed t (some batches) (s.handle (swapping t.database t.scratch t.table)).2 := by
  have hne : s.content t.database t.scratch ≠ none := by simp [h.scratch]
  rcases handle_swapping s t.database t.scratch t.table with ⟨hnone, -⟩ | ⟨found, hs, he⟩
  · exact absurd hnone hne
  · obtain rfl := Option.some.inj (hs.symm.trans h.scratch)
    rw [he]
    refine ⟨rfl, h.idle, ?_, fun other hb => ?_⟩
    · rw [content_put_of_ne fun _ => t.scratch_ne_table, content_put_none]
    · rw [content_put_self (databases_put_ne_none (databases_ne_none hne)), hb]

/-- It is put in place once only. -/
theorem Placed.swapped (h : Placed t content s) :
    s.handle (swapping t.database t.scratch t.table) = (.missing, s) := by
  rcases handle_swapping s t.database t.scratch t.table with ⟨-, he⟩ | ⟨found, hs, -⟩
  · exact he
  · simp [h.scratch] at hs

theorem performs_swapping_ripe {batches : List Batch} (hl : lossy = true → excused) :
    Performs lossy (finishing (some batches) excused) (swapping t.database t.scratch t.table)
      (· = .taken) (fun s => Ripe t (some batches) s ∨ excused ∧ Placed t (some batches) s)
      (Placed t (some batches)) := by
  -- After a lost reply it may be in place already; then another attempt fails.
  have hsteady : Steady (depot lossy) (finishing (some batches) excused) fun s =>
      Ripe t (some batches) s ∨ excused ∧ Placed t (some batches) s :=
    ⟨fun _ _ m h => h.imp (·.moved m) fun h => ⟨h.1, h.2.moved m⟩, fun _ _ => trivial⟩
  refine ⟨fun _ => by simp, hsteady, steady_placed, ?_, ?_, ?_⟩
  · rintro hlossy s (h | ⟨he, h⟩)
    · exact Or.inr ⟨hl hlossy, h.swapped.2⟩
    · exact Or.inr ⟨he, h.swapped ▸ h⟩
  · rintro s (h | ⟨-, h⟩) hv
    · exact h.swapped.2
    · simp [h.swapped] at hv
  · rintro s (h | ⟨he, -⟩) hv
    · exact absurd h.swapped.1 hv
    · exact ⟨fun _ => he, trivial⟩

/-- The scratch table is put in place, if it is there. -/
theorem brings_putInPlace_ripe (hr : Replaces settings t) (hl : lossy = true → excused) :
    Brings (depot lossy) (finishing content excused) (Ripe t content)
      (putInPlace client settings t.scratch content.isSome) fun _ => Placed t content := by
  cases content with
  | none => exact Brings.pure steady_ripe fun s h => ⟨h.idle, h.scratch, by simp⟩
  | some batches =>
    simp only [putInPlace, hr.database, hr.table, Option.isSome_some, if_true]
    exact ((performs_swapping_ripe hl).calling (bears_finishing hl)).mono (fun _ => Or.inl)
      fun _ _ => id

theorem Placed.deleted (h : Placed t content s) :
    Placed t content (s.handle (deleting t.session)).2 := by
  rcases handle_deleting s t.session with ⟨-, he⟩ | ⟨-, he⟩ <;> rw [he]
  · exact h
  · refine ⟨fun name kept hk => ?_, h.scratch, h.destination⟩
    by_cases hname : name = t.session
    · subst hname
      simp at hk
    · exact h.idle name kept (by rwa [← sessions_keep_of_ne hname])

/-- It does not matter whether the session is deleted in the end. -/
theorem brings_cleanUp_placed {d : SessionDriver} :
    Brings (depot lossy) (finishing content excused) (Placed t content)
      (cleanUp settings d t.session) fun _ => Placed t content := by
  let aim : Aim Depot Error :=
    { (finishing content excused) with always := Placed t content, fails := fun _ => True }
  have hsteady : Steady (depot lossy) aim (Placed t content) :=
    ⟨fun _ _ m h => h.moved m, fun _ => id⟩
  have hdeleting : Performs lossy aim (deleting t.session)
      (fun v => v = .taken ∨ v = .missing) (Placed t content) (Placed t content) :=
    ⟨by simp [aim, finishing, deleting], hsteady, hsteady, fun _ _ h => h.deleted,
      fun _ h _ => h.deleted, fun _ h _ => ⟨fun _ => trivial, h.deleted⟩⟩
  have hdelete : Brings (depot lossy) aim (Placed t content) (d.delete t.session)
      fun _ => Placed t content :=
    (hdeleting.orMissing ⟨fun _ _ m h => h.moved m, fun _ _ => trivial⟩).bind fun _ =>
      Brings.pure hsteady fun _ => id
  have hattempt : Brings (depot lossy) (finishing content excused) (Placed t content)
      (d.delete t.session).attempt fun (_ : Except Error Bool) => Placed t content := by
    refine Brings.mono (hdelete.attempt (fun _ => id) (fun _ _ => trivial) id) (fun _ => id)
      fun r s h => ?_
    cases r with
    | ok => exact h
    | error => exact h.2
  unfold cleanUp
  split
  · exact hattempt.bind fun _ => Brings.pure steady_placed fun _ => id
  · exact Brings.pure steady_placed fun _ => id

theorem route_finishing (hr : Replaces settings t) (hl : lossy = true → excused)
    (hn : content = none → excused)
    (hw : ∀ fault, Record.WriterSet.resolve schema settings.record = .error fault → excused) :
    Route (depot lossy) (finishing content excused) client settings schema rows
      { entered := Ripe t content
        decided := fun name swap s => name = t.session ∧ swap = content.isSome ∧ Ripe t content s
        prepared := fun name swap s => name = t.session ∧ swap = content.isSome ∧ Ripe t content s
        loaded := fun name swap s => name = t.session ∧ swap = content.isSome ∧ Ripe t content s
        driven := fun name swap s => name = t.session ∧ swap = content.isSome ∧ Ripe t content s
        placed := fun name _ s => name = t.session ∧ Placed t content s
        left := fun name _ s => name = t.session ∧ Placed t content s } where
  entered := steady_ripe
  loaded _ _ := steady_ripe.fact.fact
  driven _ _ := steady_ripe.fact.fact
  left _ _ := steady_placed.fact
  resolves := hw
  decides name hname := by
    obtain rfl : t.session = name := by simpa [hr.session] using hname
    rw [hr.loadTable]
    exact (brings_swapWanted_ripe hr hl hn).mono (fun _ => id) fun _ _ h => ⟨rfl, h⟩
  prepares name swap := Brings.fact fun hname => Brings.fact fun hswap => by
    rw [hname, hswap, hr.loadTable]
    exact brings_prepare_ripe hr hl
  loads name swap writers report hname := by
    refine Brings.assume (fun _ h => h.1) fun ht => Brings.assume (fun _ h => h.2.1) fun hs => ?_
    subst hname
    have hstart : Brings (depot lossy) (finishing content excused) (Ripe t content)
        ((SessionDriver.ofSettings client settings).start report.session settings.database
          t.scratch)
        fun takes s => takes = false ∧ Ripe t content s := by
      rw [ht, hr.database]
      exact brings_start_ripe hl
    rw [ht, hr.loadTable]
    exact Brings.mono (brings_uploadInto steady_ripe hstart (fun _ _ h => h.2)
      fun _ h => absurd h.1 (by simp)) (fun _ h => h.2.2) fun _ _ h => ⟨h.1.trans ht, rfl, hs, h.2⟩
  drives name swap := Brings.fact fun hname => Brings.fact fun _ => hname ▸ brings_complete_ripe hl
  places name swap := Brings.fact fun hname => Brings.assume (fun _ h => h.1) fun hswap => by
    rw [hname, hswap, hr.loadTable]
    exact (brings_putInPlace_ripe hr hl).mono (fun _ h => h.2) fun _ _ => id
  leaves name swap := Brings.fact fun hname => hname ▸ brings_cleanUp_placed

end Depot

/-! ## One run after the other -/

/-- A replacement at a service, up to any point. -/
inductive Rerun {σ : Type} (v : Behaviour σ) (t : Target) (settings : Settings) (schema : Schema)
    (start : σ) : List Api.Request → Option (Outcome Error Report) → σ → Prop
  | visit {client : Api.Client} {rows : List (Except RowFault Row)} {log : List Happening}
    {files : Files} {scene : Scene} {requests : List Api.Request}
    {outcome : Option (Outcome Error Report)} {last : σ} (hr : Replaces settings t)
    (hp : Path client ⟨[], files⟩ log scene)
    (hv : Visit v (run client settings schema rows) log start requests outcome last) :
    Rerun v t settings schema start requests outcome last

/-- Replacements of one table with one session, one after the other, each of them up to any point.
-/
inductive Reruns {σ : Type} (v : Behaviour σ) (t : Target) (start : σ) : σ → Prop
  | nobody : Reruns v t start start
  | again {s last : σ} {settings : Settings} {schema : Schema} {requests : List Api.Request}
    {outcome : Option (Outcome Error Report)} (h : Reruns v t start s)
    (hr : Rerun v t settings schema s requests outcome last) : Reruns v t start last

namespace Depot

variable {t : Target} {s start last : Depot} {lossy : Bool} {settings : Settings} {schema : Schema}
  {requests : List Api.Request} {outcome : Option (Outcome Error Report)}

/-- There is no session of that name and no scratch table, and no other session loads into the
tables. -/
structure Fresh (t : Target) (s : Depot) : Prop where
  session : s.sessions t.session = none
  scratch : s.content t.database t.scratch = none
  apart : ∀ name kept, s.sessions name = some kept → kept.database = t.database →
    kept.table ≠ t.table ∧ kept.table ≠ t.scratch

theorem Fresh.sound (h : Fresh t s) : Sound t (s.content t.database t.table) s where
  destination := Or.inl rfl
  apart name kept hk _ := h.apart name kept hk
  bound kept hk := by simp [h.session] at hk
  fits := by
    rw [h.session]
    exact Or.inl h.scratch

theorem Sound.ripe {origin : Option (List Batch)} {kept : Stored} (h : Sound t origin s)
    (hk : s.sessions t.session = some kept) (hs : kept.stage = .committed) :
    Ripe t (s.content t.database t.scratch) s where
  idle name kept' hk' hd ht := by
    by_cases hname : name = t.session
    · subst hname
      obtain rfl := Option.some.inj (hk.symm.trans hk')
      exact hs
    · obtain ⟨hne, hne'⟩ := h.apart name kept' hk' hname hd
      exact (ht.elim hne hne').elim
  session := ⟨kept, hk, (h.bound kept hk).1, (h.bound kept hk).2, hs⟩
  scratch := rfl

/-- Uploads go on beside a run, and are no requests that a depot keeps anything of. -/
theorem treats_beside {client : Api.Client} {log : List Happening} {files : Files} {scene : Scene}
    (hp : Path client ⟨[], files⟩ log scene) {ticket : Nat} {content : Option (List UInt8)}
    {request : Api.Request} {reply : Api.Reply}
    (hm : .beside ticket content ⟨.api (.send request), reply⟩ ∈ log) :
    ¬ request.endpoint.Arranges ∧
      ∀ lossy s s', (depot lossy).treats s request reply s' → s' = s := by
  obtain ⟨before, after, rfl⟩ := List.append_of_mem hm
  obtain ⟨session, file, rfl, -⟩ := hp.of_sent
  exact ⟨by simp [Upload.sending], fun _ s s' ht => (Treats.eq_or_eq ht).elim id id⟩

theorem sound_of_rerun {origin : Option (List Batch)} (h : Sound t origin s)
    (hr : Rerun (depot lossy) t settings schema s requests outcome last) : Sound t origin last := by
  obtain ⟨hr, hp, hv⟩ := hr
  exact ((route_guarding hr).brings_run.of_visit hv h
    fun _ _ _ _ hm => (treats_beside hp hm).2 lossy).always

/-- What comes of a rerun when the session is committed, where `number` is that of the session. -/
structure Finishes (t : Target) (number : Nat) (lossy : Bool) (settings : Settings)
    (schema : Schema) (s : Depot) (requests : List Api.Request)
    (outcome : Option (Outcome Error Report)) (last : Depot) : Prop where
  /-- When the scratch table is gone, no table is made or moved. -/
  quiet : s.content t.database t.scratch = none →
    ∀ request ∈ requests, ¬ request.endpoint.Arranges
  /-- When it is still there, it is put in place before the run succeeds. -/
  placed : s.content t.database t.scratch ≠ none → ∀ report, outcome = some (.done report) →
    last.content t.database t.table = some [.loaded t.session number] ∧
      last.content t.database t.scratch = none
  /-- The run does succeed when no reply is lost. -/
  succeeds : s.content t.database t.scratch ≠ none → lossy = false →
    (∃ writers, Record.WriterSet.resolve schema settings.record = .ok writers) →
      ∀ ending, outcome = some ending → ∃ report, ending = .done report

theorem finishes_of_rerun {origin : Option (List Batch)} {kept : Stored} (h : Sound t origin s)
    (hk : s.sessions t.session = some kept) (hs : kept.stage = .committed)
    (hr : Rerun (depot lossy) t settings schema s requests outcome last) :
    Finishes t kept.number lossy settings schema s requests outcome last := by
  obtain ⟨hr, hp, hv⟩ := hr
  let excused : Prop := s.content t.database t.scratch = none ∨ lossy = true ∨
    ∃ fault, Record.WriterSet.resolve schema settings.record = .error fault
  have hl (hl : lossy = true) : excused := Or.inr (Or.inl hl)
  have hw (fault : Record.SettingsFault)
      (hf : Record.WriterSet.resolve schema settings.record = .error fault) : excused :=
    Or.inr (Or.inr ⟨fault, hf⟩)
  have hvisited := (route_finishing hr hl Or.inl hw).brings_run.of_visit hv (h.ripe hk hs)
    fun _ _ _ _ hm => (treats_beside hp hm).2 lossy
  refine ⟨fun hnone request hm => ?_, fun hne report ho => ?_,
    fun hne hlossy hwriters ending ho => ?_⟩
  · rcases hvisited.sent request hm with hsends | ⟨ticket, content, reply, hb⟩
    · exact fun ha => hsends ha hnone
    · exact (treats_beside hp hb).1
  · obtain ⟨swap, -, hplaced⟩ := hvisited.result report ho
    have hcontent := (h.content_of_committed hk hs).2.resolve_left hne
    exact ⟨hplaced.destination _ hcontent, hplaced.scratch⟩
  · have hexcused : ¬ excused := by
      obtain ⟨writers, hw⟩ := hwriters
      simp [excused, hne, hlossy, hw]
    cases ending with
    | done report => exact ⟨report, rfl⟩
    | failed e => exact absurd (hvisited.failure e ho) hexcused
    | aborted reason => exact (hvisited.abort reason ho).elim

/-- However often a replacement is cut off and run again, the destination is as it was or has what a
complete commit of the session loaded; and once the session is committed, a further run finishes
what is left of the replacement. -/
theorem safe_of_reruns (hf : Fresh t start) (h : Reruns (depot true) t start s) :
    (s.content t.database t.table = start.content t.database t.table ∨
      ∃ number, (t.session, number) ∈ s.completed ∧
        s.content t.database t.table = some [.loaded t.session number]) ∧
    ∀ kept, s.sessions t.session = some kept → kept.stage = .committed →
      ∀ lossy settings schema requests outcome last,
        Rerun (depot lossy) t settings schema s requests outcome last →
          Finishes t kept.number lossy settings schema s requests outcome last := by
  have hsound : Sound t (start.content t.database t.table) s := by
    induction h with
    | nobody => exact hf.sound
    | again _ hr ih => exact sound_of_rerun ih hr
  exact ⟨hsound.destination, fun kept hk hs _ _ _ _ _ _ hr => finishes_of_rerun hsound hk hs hr⟩

end Depot

/-! ## A run that is cut off, and another one -/

section Played

variable {t : Target} {client : Api.Client} {settings : Settings} {schema : Schema}
  {rows : List (Except RowFault Row)} {log : List Happening}
  {outcome : Option (Outcome Error Report)} {start last : Depot} {lossy : Bool}

/-- A run whose replies are those of a depot. -/
theorem Rerun.of_run (hr : Replaces settings t)
    (h : Run client (run client settings schema rows) log outcome)
    (hs : start.serve (traffic log) = some last) :
    Rerun (depot lossy) t settings schema start ((traffic log).map Prod.fst) outcome last := by
  obtain ⟨⟨files, scene, hp⟩, ht⟩ := h
  exact .visit hr hp (.answered ht (Depot.serves_of_serve hs))

/-- Such a run that is cut off when one of its requests comes to nothing. -/
theorem Rerun.of_cut {n : Nat} {request : Api.Request} {reply : Api.Reply}
    (hr : Replaces settings t) (h : Run client (run client settings schema rows) log outcome)
    (hn : (log[n]?).bind Happening.ownSending? = some (request, reply))
    (hs : start.serve (traffic (log.take n)) = some last) :
    Rerun (depot true) t settings schema start
      ((traffic (log.take n)).map Prod.fst ++ [request]) none last := by
  obtain ⟨⟨files, scene, hp⟩, ht⟩ := h
  rw [← List.take_append_drop n log] at hp
  obtain ⟨middle, hp, -⟩ := hp.split
  have hlost : (depot true).treats last request (.dropped Rehearsal.World.noAnswer) last :=
    .unheard rfl rfl
  exact .visit hr hp (Visit.of_cut ht hn (Depot.serves_of_serve hs) hlost)

end Played

/-- The reply that shows a frozen session. -/
def shownFrozen (status : String) : Rehearsal.Reaction :=
  { body := Text.Utf8.encode ("\x7b\"name\":\"s\",\"database\":\"d\",\"table\":\"t_s\"," ++
      "\"status\":\"" ++ status ++ "\",\"upload_frozen\":true\x7d") }

/-- The reply that lists the destination and the scratch table. -/
def inventory : Rehearsal.Reaction :=
  { body := Text.Utf8.encode
      "\x7b\"tables\":[\x7b\"name\":\"t\"\x7d,\x7b\"name\":\"t_s\"\x7d]\x7d" }

/-- A service at which a table is replaced for the first time. -/
def beginning : Rehearsal.World where
  service :=
    { routes := [⟨"GET *", { status := 404 } ::
          List.replicate 3 (SessionDriver.told "t_s" "uploading") ++
          [shownFrozen "ready", shownFrozen "ready", shownFrozen "committed"]⟩,
        ⟨"POST /v3/database/*", [{ status := 409 }]⟩, ⟨"P*", [{}]⟩] }
  moment := SessionDriver.epoch

/-- The service later on, when the session is committed and the scratch table still there. -/
def resuming : Rehearsal.World where
  service :=
    { routes := [⟨"GET /v3/table/*", [inventory]⟩, ⟨"GET *", [shownFrozen "committed"]⟩,
        ⟨"POST /v3/table/rename/*", [{}]⟩, ⟨"POST /v3/bulk_import/delete/*", [{}]⟩,
        ⟨"POST *", [{ status := 409 }]⟩] }
  moment := SessionDriver.epoch

/-- A row takes the place of those of a table. -/
def substituting (world : Rehearsal.World) : List Happening × Option (Outcome Error Report) :=
  play SessionDriver.careful.client (attended SessionDriver.careful.client)
    (run SessionDriver.careful.client replacement ⟨[⟨"time", .long⟩]⟩ [.ok [.long 1]])
    ⟨[], fun _ => none⟩ world

theorem run_substituting (world : Rehearsal.World) :
    Run SessionDriver.careful.client (run SessionDriver.careful.client replacement
      ⟨[⟨"time", .long⟩]⟩ [.ok [.long 1]]) (substituting world).1 (substituting world).2 :=
  run_of_play _ _ _ _

/-- A depot with a table. -/
def stocked : Depot where
  databases := Function.update (fun _ => none) "d" (some (AList.insert "t" [.other 0] ∅))
  sessions _ := none
  made := 0
  completed := []

/-- The scratch table is loaded when the run is about to put it in place, and another run puts it
there. -/
theorem serve_substituting :
    ((substituting beginning).1[25]?).bind Happening.ownSending? =
      some (swapping "d" "t_s" "t", .answered 200 []) ∧
    (substituting resuming).2 =
      some (.done { session := "s", database := "d", table := "t" }) ∧
    ∃ s last, stocked.serve (traffic ((substituting beginning).1.take 25)) = some s ∧
      s.serve (traffic (substituting resuming).1) = some last ∧
      s.content "d" "t" = some [.other 0] ∧ s.content "d" "t_s" = some [.loaded "s" 0] ∧
      s.sessions "s" = some ⟨"d", "t_s", .committed, true, 0⟩ := by
  have hplayed :
      ((substituting beginning).1[25]?).bind Happening.ownSending? =
        some (swapping "d" "t_s" "t", .answered 200 []) ∧
      (substituting resuming).2 =
        some (.done { session := "s", database := "d", table := "t" }) ∧
      ((stocked.serve (traffic ((substituting beginning).1.take 25))).bind fun s =>
        (s.serve (traffic (substituting resuming).1)).map fun _ =>
          (s.content "d" "t", s.content "d" "t_s", s.sessions "s")) =
            some (some [.other 0], some [.loaded "s" 0],
              some ⟨"d", "t_s", .committed, true, 0⟩) := by
    decide +kernel
  obtain ⟨hasked, hended, hserved⟩ := hplayed
  obtain ⟨s, hs, hm⟩ := Option.bind_eq_some_iff.1 hserved
  obtain ⟨last, hlast, hfacts⟩ := Option.map_eq_some_iff.1 hm
  exact ⟨hasked, hended, s, last, hs, hlast, by simpa only [Prod.mk.injEq] using hfacts⟩

/-- A replacement is cut off when it puts the scratch table in place, and nothing comes of that. The
destination is as it was then, and another run puts the table in its place. -/
theorem safe_interrupted : ∃ s kept requests report last,
    Depot.Fresh ⟨"d", "t", "s"⟩ stocked ∧ Reruns (depot true) ⟨"d", "t", "s"⟩ stocked s ∧
    s.content "d" "t" = some [.other 0] ∧
    s.sessions "s" = some kept ∧ kept.stage = .committed ∧
    Rerun (depot false) ⟨"d", "t", "s"⟩ replacement ⟨[⟨"time", .long⟩]⟩ s requests
      (some (.done report)) last ∧
    last.content "d" "t" = some [.loaded "s" kept.number] := by
  obtain ⟨hasked, hended, s, last, hs, hlast, htable, hscratch, hsession⟩ := serve_substituting
  have hreplaces : Replaces replacement ⟨"d", "t", "s"⟩ := ⟨rfl, rfl, rfl, rfl⟩
  have hfresh : Depot.Fresh ⟨"d", "t", "s"⟩ stocked :=
    ⟨rfl, by decide +kernel, fun _ _ h => nomatch h⟩
  have hreruns : Reruns (depot true) ⟨"d", "t", "s"⟩ stocked s :=
    .again .nobody (.of_cut hreplaces (run_substituting beginning) hasked hs)
  have hrun := run_substituting resuming
  rw [hended] at hrun
  have hrerun : Rerun (depot false) ⟨"d", "t", "s"⟩ replacement ⟨[⟨"time", .long⟩]⟩ s _ _ last :=
    .of_run hreplaces hrun hlast
  obtain ⟨-, hfinishes⟩ := Depot.safe_of_reruns hfresh hreruns
  have hne : s.content "d" (Target.scratch ⟨"d", "t", "s"⟩) ≠ none := by
    rw [show Target.scratch ⟨"d", "t", "s"⟩ = "t_s" by decide +kernel, hscratch]
    simp
  have hplaced := (hfinishes _ hsession rfl _ _ _ _ _ _ hrerun).placed hne _ rfl
  exact ⟨s, _, _, _, last, hfresh, hreruns, htable, hsession, rfl, hrerun, hplaced.1⟩

end BulkLoad.Import
