import BulkLoad.Proofs.Import.Stages
import BulkLoad.Proofs.Service.Behaviour

/-!
# Imports at a service

The triple of an import, put together from those of its stages. What holds of the states of the
service when an import passes from one stage to the next are its `Landmarks`; a `Route` along them
is a triple for each stage, and makes one for the whole (`Route.brings_run`).
-/

namespace BulkLoad.Import

variable {σ : Type} {v : Behaviour σ} {aim : Aim σ Error} {client : Api.Client} {s : Settings}
  {schema : Schema} {rows : List (Except RowFault Row)}

/-! ## The upload stage -/

/-- While rows are fed in, the import itself sends nothing. -/
theorem brings_uploadRows {session : String} {writers : Record.WriterSet} {J : σ → Prop}
    (hJ : Steady v aim J) (hfails : ∀ e, aim.fails e) (haborts : aim.aborts) :
    Brings v aim J (uploadRows s session writers rows) fun _ => J :=
  (Brings.of_keeps (S := fun _ => False) keeps_uploadRows (fun _ hq => hq.1 _ rfl) hJ
    (fun _ hf => hf.elim) (fun _ hf => hf.elim) hfails haborts).mono (fun _ => id)
    fun _ _ hs => hs.2

/-- Rows are fed into a session that was opened for them; what fails then is not the service's. -/
theorem brings_uploadInto {d : SessionDriver} {loadTable : String} {writers : Record.WriterSet}
    {report : Report} {P J : σ → Prop} {R : Bool → σ → Prop} (hJ : Steady v aim J)
    (hstart : Brings v aim P (d.start report.session s.database loadTable) R)
    (hopened : ∀ takes s, R takes s → J s)
    (hfeeds : ∀ s, R true s → (∀ e, aim.fails e) ∧ aim.aborts) :
    Brings v aim P (uploadInto s d loadTable writers rows report)
      fun after s => after.session = report.session ∧ J s := by
  refine hstart.bind fun takes => ?_
  cases takes with
  | false => exact Brings.mono (Brings.pure hJ fun _ hs => ⟨rfl, hs⟩) (hopened false) fun _ _ => id
  | true =>
    refine Brings.assume hfeeds fun ⟨hfails, haborts⟩ => ?_
    exact Brings.mono ((brings_uploadRows hJ hfails haborts).bind fun _ =>
      Brings.pure hJ fun _ hs => ⟨rfl, hs⟩) (hopened true) fun _ _ => id

/-! ## The whole import -/

/-- What holds of the states of a service at the stages of an import, by the name of the session and
by whether the scratch table is to be put in the place of the destination. -/
structure Landmarks (σ : Type) where
  entered : σ → Prop
  decided : String → Bool → σ → Prop
  prepared : String → Bool → σ → Prop
  loaded : String → Bool → σ → Prop
  driven : String → Bool → σ → Prop
  placed : String → Bool → σ → Prop
  left : String → Bool → σ → Prop

/-- Each stage of an import leads from one landmark to the next. -/
structure Route (v : Behaviour σ) (aim : Aim σ Error) (client : Api.Client) (s : Settings)
    (schema : Schema) (rows : List (Except RowFault Row)) (m : Landmarks σ) : Prop where
  entered : Steady v aim m.entered
  loaded : ∀ name swap, Steady v aim (m.loaded name swap)
  driven : ∀ name swap, Steady v aim (m.driven name swap)
  left : ∀ name swap, Steady v aim (m.left name swap)
  resolves : ∀ fault, Record.WriterSet.resolve schema s.record = .error fault →
    aim.fails (.settings (.record fault))
  decides : ∀ name, s.session.getD name = name →
    Brings v aim m.entered (swapWanted client s name (s.loadTable name)) (m.decided name)
  prepares : ∀ name swap, Brings v aim (m.decided name swap)
    (prepare client s (s.loadTable name) swap) fun _ => m.prepared name swap
  loads : ∀ name swap writers (report : Report), report.session = name →
    Brings v aim (m.prepared name swap)
      (uploadInto s (SessionDriver.ofSettings client s) (s.loadTable name) writers rows report)
      fun after s => after.session = name ∧ m.loaded name swap s
  drives : ∀ name swap, Brings v aim (m.loaded name swap)
    ((SessionDriver.ofSettings client s).complete name s.priority) fun _ => m.driven name swap
  places : ∀ name swap, Brings v aim (m.driven name swap)
    (putInPlace client s (s.loadTable name) swap) fun _ => m.placed name swap
  leaves : ∀ name swap, Brings v aim (m.placed name swap)
    (cleanUp s (SessionDriver.ofSettings client s) name) fun _ => m.left name swap

namespace Route

variable {m : Landmarks σ} (h : Route v aim client s schema rows m)
include h

theorem brings_chooseSession : Brings v aim m.entered (chooseSession s)
    fun name s' => s.session.getD name = name ∧ m.entered s' := by
  unfold chooseSession
  split
  next hs => exact Brings.pure h.entered fun _ hm => ⟨by simp [hs], hm⟩
  next hs =>
    refine Brings.ask (by simp) h.entered fun now => ?_
    refine Brings.ask (by simp) h.entered fun id => ?_
    exact Brings.pure h.entered fun _ hm => ⟨by simp [hs], hm⟩

theorem brings_load : Brings v aim m.entered (load client s schema rows)
    fun r => m.loaded r.2.session r.1 := by
  refine Brings.bind (Q := fun _ => m.entered) ?_ fun writers => ?_
  · refine Brings.ofExcept h.entered (fun _ _ _ => id) fun _ e he _ => ?_
    obtain ⟨fault, hr, rfl⟩ := error_of_mapError he
    exact h.resolves fault hr
  · refine h.brings_chooseSession.bind fun name => Brings.assume (fun _ hm => hm.1) fun hname => ?_
    refine Brings.mono (P := m.entered) ((h.decides name hname).bind fun swap => ?_)
      (fun _ hm => hm.2) fun _ _ => id
    refine (h.prepares name swap).bind fun _ => (h.loads name swap _ _ rfl).bind fun report => ?_
    refine Brings.assume (fun _ hm => hm.1) ?_
    rintro rfl
    exact Brings.mono (Brings.pure (h.loaded _ swap) fun _ => id) (fun _ hm => hm.2) fun _ _ => id

theorem brings_conclude {swap : Bool} {report : Report} :
    Brings v aim (m.loaded report.session swap) (conclude client s swap report)
      fun after => m.left after.session swap := by
  refine Brings.bind (Q := fun after s => after.session = report.session ∧
    m.driven report.session swap s) ?_ fun after => Brings.assume (fun _ hm => hm.1) fun ha => ?_
  · exact (h.drives report.session swap).bind fun _ =>
      Brings.pure (h.driven _ swap) fun _ hm => ⟨rfl, hm⟩
  · rw [ha]
    refine Brings.mono (P := m.driven report.session swap) ((h.places _ swap).bind fun _ =>
      (h.leaves _ swap).bind fun _ => Brings.pure (h.left _ swap) fun _ hm => ?_)
      (fun _ hm => hm.2) fun _ _ => id
    exact ha ▸ hm

/-- A route leads through the whole import. -/
theorem brings_run : Brings v aim m.entered (run client s schema rows)
    fun report s' => ∃ swap, m.left report.session swap s' := by
  refine Brings.ask (by simp) h.entered fun started => h.brings_load.bind fun ⟨swap, report⟩ => ?_
  refine h.brings_conclude.bind fun after => Brings.ask (by simp) (h.left _ swap) fun ended => ?_
  exact Brings.pure (h.left _ swap) fun _ hm => ⟨swap, hm⟩

end Route

end BulkLoad.Import
