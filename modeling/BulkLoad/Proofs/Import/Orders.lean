import BulkLoad.Proofs.Import.Course
import BulkLoad.Proofs.Import.Progress

/-!
# Calls of a scheduler

Parts are submitted to a scheduler, and between submissions all uploads may be waited for, in any
order and as often as one likes; at the end the scheduler finishes (`Scheduler.useAndFinish`).
Whatever the uploads end with and however long they take, the number of those on their way is
bounded at every moment, each part is uploaded once if its submission is reported to be in order
and never if not, no file is left once all uploads were waited for, and the summary counts exactly
what has landed (`Handled`).

What one call does is read off its trace (`of_obey`), and by induction what a sequence of calls
does (`of_use`); the ledger carries the rest.
-/

namespace BulkLoad.Import

open Program (Trace Along)

/-- A call of a scheduler. -/
inductive Order
  | submit (file : Part.File)
  | drain
deriving DecidableEq

namespace Order

/-- The part that was taken on by a call, which returned a result. -/
def taken? : Order × Except Error Unit → Option Part.File
  | (.submit file, .ok ()) => some file
  | _ => none

/-- After the call no upload is on its way : it waited for all of them, or a submission failed. -/
def Settles : Order × Except Error Unit → Prop
  | (.submit _, .ok ()) => False
  | (.submit _, .error _) | (.drain, _) => True

end Order

namespace Scheduler

/-- Carries a call out. -/
def obey {ε : Type} (s : Scheduler) : Order → Work ε (Except Error Unit × Scheduler)
  | .submit file => s.submit file
  | .drain => do return (.ok (), ← s.drain)

/-- Carries calls out, and keeps what they returned. -/
def use {ε : Type} (s : Scheduler) :
    List Order → Work ε (List (Order × Except Error Unit) × Scheduler)
  | [] => return ([], s)
  | order :: rest => do
    let (report, s) ← s.obey order
    let (later, s) ← s.use rest
    return ((order, report) :: later, s)

/-- Carries calls out, from a new scheduler on, and finishes. -/
def useAndFinish (session : String) (requested : Nat) (orders : List Order) :
    Work Error (List (Order × Except Error Unit) × Summary) := do
  let (history, s) ← (start session requested).use orders
  return (history, ← s.finish)

/-! ## One call -/

variable {ε : Type} {s : Scheduler} {events : List Event}

theorem Waits.handles {last : Scheduler} (h : Waits s events last) : ∀ e ∈ events, e.1.handles := by
  intro e he
  obtain ⟨ticket, ending, rfl⟩ := h.mem he
  trivial

theorem Submission.handles {file : Part.File}
    {outcome : Option (Outcome ε (Except Error Unit × Scheduler))}
    (h : Submission s file events outcome) : ∀ e ∈ events, e.1.handles := by
  cases h with
  | waiting hw => exact hw.handles
  | started ticket hw =>
    exact List.forall_mem_append.2 ⟨hw.handles, List.forall_mem_singleton.2 trivial⟩
  | draining hw _ hl | refused hw _ hl =>
    exact List.forall_mem_append.2 ⟨hw.handles, List.forall_mem_cons.2 ⟨trivial, hl.handles⟩⟩

/-- What was asked while calls were carried out : an upload was started for each part that was taken
on, and for no other, and the files of the others were removed. -/
structure Obeyed (history : List (Order × Except Error Unit)) (events : List Event)
    (last : Scheduler) : Prop where
  launched : (launches events).map (·.2.file) = history.filterMap Order.taken?
  removed : ∀ file e, (.submit file, .error e) ∈ history →
    (⟨.part (.remove file.path), ()⟩ : Event) ∈ events
  settled : ∀ call ∈ history.getLast?, Order.Settles call → last.outstanding = []

theorem of_obey {order : Order} {outcome : Option (Outcome ε (Except Error Unit × Scheduler))}
    (hlimit : 0 < s.limit)
    (h : Trace (s.obey order : Work ε (Except Error Unit × Scheduler)) events outcome) :
    ∃ last, Along Step s events last ∧ (∀ e ∈ events, e.1.handles) ∧
      (outcome = none ∨ ∃ report, outcome = some (.done (report, last)) ∧
        Obeyed [(order, report)] events last) := by
  cases order with
  | submit file =>
    have hsub := submission_of_submit h
    obtain ⟨last, halong, ho⟩ := hsub.result hlimit
    rcases ho with ⟨rfl, -⟩ | ⟨rfl, -, ticket, hl⟩ | ⟨e, rfl, -, hl, hempty, hm⟩
    · exact ⟨last, halong, hsub.handles, Or.inl rfl⟩
    · refine ⟨last, halong, hsub.handles,
        Or.inr ⟨.ok (), rfl, ?_, by simp, by simp [Order.Settles]⟩⟩
      simp [hl, Order.taken?]
    · refine ⟨last, halong, hsub.handles, Or.inr ⟨.error e, rfl, ?_, ?_, fun _ _ _ => hempty⟩⟩
      · simp [hl, Order.taken?]
      · intro file' e' hf
        obtain ⟨rfl, -⟩ : file' = file ∧ _ := by simpa using hf
        exact hm
  | drain =>
    rcases Trace.of_bind h with ⟨first, after, rest, rfl, h₁, h₂⟩ | ⟨stop, h₁, hs⟩
    · obtain ⟨last, hw, hl⟩ := waits_of_drain h₁
      obtain ⟨hempty, rfl⟩ : last.outstanding = [] ∧ after = last := by simpa using hl
      obtain ⟨rfl, rfl⟩ := Trace.of_pure h₂
      rw [List.append_nil]
      refine ⟨_, hw.along, hw.handles, Or.inr ⟨.ok (), rfl, ?_, by simp, fun _ _ _ => hempty⟩⟩
      simp [hw.launches_eq, Order.taken?]
    · obtain ⟨last, hw, hl⟩ := waits_of_drain h₁
      exact ⟨last, hw.along, hw.handles, Or.inl (hs.eq_none (hl.imp_right fun h => ⟨_, h.2⟩))⟩

/-! ## Calls one after the other -/

theorem Obeyed.cons {call : Order × Except Error Unit}
    {later : List (Order × Except Error Unit)} {first rest : List Event} {middle last : Scheduler}
    (h₁ : Obeyed [call] first middle) (h₂ : Obeyed later rest last)
    (hlast : later = [] → last = middle) : Obeyed (call :: later) (first ++ rest) last where
  launched := by
    rw [launches_append, List.map_append, h₁.launched, h₂.launched, ← List.filterMap_append,
      List.singleton_append]
  removed file e hm := by
    rcases List.mem_cons.1 hm with rfl | hm
    · exact List.mem_append_left _ (h₁.removed file e (by simp))
    · exact List.mem_append_right _ (h₂.removed file e hm)
  settled := by
    cases later with
    | nil =>
      rw [hlast rfl]
      exact h₁.settled
    | cons next later => simpa [List.getLast?_cons_cons] using h₂.settled

theorem of_use : ∀ {orders : List Order} {s : Scheduler} {events : List Event}
    {outcome : Option (Outcome ε (List (Order × Except Error Unit) × Scheduler))},
    0 < s.limit → Trace (s.use orders : Work ε (List (Order × Except Error Unit) × Scheduler))
      events outcome →
      ∃ last, Along Step s events last ∧ (∀ e ∈ events, e.1.handles) ∧
        (outcome = none ∨ ∃ history, outcome = some (.done (history, last)) ∧
          history.map Prod.fst = orders ∧ (orders = [] → last = s) ∧ Obeyed history events last)
  | [], s, events, outcome, _, h => by
    obtain ⟨rfl, rfl⟩ := Trace.of_pure h
    exact ⟨s, .nil, by simp, Or.inr ⟨[], rfl, rfl, fun _ => rfl, rfl, by simp, by simp⟩⟩
  | order :: rest, s, events, outcome, hlimit, h => by
    rcases Trace.of_bind h with ⟨first, ⟨report, middle⟩, later, rfl, h₁, h₂⟩ | ⟨stop, h₁, hs⟩
    · obtain ⟨found, ha₁, hq₁, ho₁⟩ := of_obey hlimit h₁
      obtain ⟨rfl, hobeyed⟩ : middle = found ∧ Obeyed [(order, report)] first found := by
        simpa using ho₁
      have hlimit' : 0 < middle.limit := (same_of_along ha₁).2 ▸ hlimit
      rcases Trace.of_bind h₂ with ⟨second, ⟨later, after⟩, final, rfl, h₃, h₄⟩ | ⟨stop, h₃, hs⟩
      · obtain ⟨rfl, rfl⟩ := Trace.of_pure h₄
        obtain ⟨last, ha₂, hq₂, ho₂⟩ := of_use hlimit' h₃
        obtain ⟨rfl, hlater, hlast, hobeyed'⟩ : after = last ∧ later.map Prod.fst = rest ∧
            (rest = [] → last = middle) ∧ Obeyed later second last := by
          simpa using ho₂
        rw [List.append_nil]
        refine ⟨_, ha₁.append ha₂, List.forall_mem_append.2 ⟨hq₁, hq₂⟩, Or.inr ⟨_, rfl, ?_, by simp,
          hobeyed.cons hobeyed' fun hnil => hlast ?_⟩⟩
        · rw [List.map_cons, hlater]
        · rw [← hlater, hnil, List.map_nil]
      · obtain ⟨last, ha₂, hq₂, ho₂⟩ := of_use hlimit' h₃
        refine ⟨last, ha₁.append ha₂, List.forall_mem_append.2 ⟨hq₁, hq₂⟩, Or.inl ?_⟩
        exact hs.eq_none (ho₂.imp_right fun ⟨_, ho, _⟩ => ⟨_, ho⟩)
    · obtain ⟨found, ha₁, hq₁, ho₁⟩ := of_obey hlimit h₁
      exact ⟨found, ha₁, hq₁, Or.inl (hs.eq_none (ho₁.imp_right fun ⟨_, ho, _⟩ => ⟨_, ho⟩))⟩

end Scheduler

/-! ## Moments -/

variable {client : Api.Client} {files : Files} {log : List Happening} {scene : Scene}

/-- The uploads that are not over. -/
def Scene.underWay (scene : Scene) : List Running :=
  scene.uploads.filter (·.ending?.isNone)

/-- At a moment no more uploads than `limit` are outstanding : all others were waited for, once
each, in the order in which they were started, and are over. -/
structure Bounded (limit : Nat) (log : List Happening) (scene : Scene) : Prop where
  outstanding : scene.uploads.length ≤ (awaits (own log)).length + limit
  underWay : scene.underWay.length ≤ limit
  inOrder : (awaits (own log)).map Prod.fst = List.range (awaits (own log)).length

/-- Nothing is outstanding : each upload was waited for, is over and has left no file. -/
structure AtRest (log : List Happening) (scene : Scene) : Prop where
  awaited : (awaits (own log)).map Prod.fst = List.range scene.uploads.length
  ended : ∀ running ∈ scene.uploads, running.ending?.isSome
  gone : ∀ running ∈ scene.uploads, scene.files running.file.path = none

namespace Scheduler.Ledger

variable {s : Scheduler} {settled : List (Started × Upload.Ending)}

theorem bounded (h : Ledger (own log) s settled) (hp : Path client ⟨[], files⟩ log scene) :
    Bounded s.limit log scene where
  outstanding := by
    rw [h.length_uploads hp, h.awaited, List.length_map]
    exact Nat.add_le_add_left h.room _
  underWay := by
    have htold : (scene.uploads.take settled.length).filter (·.ending?.isNone) = [] := by
      rw [h.uploads hp]
      exact List.filter_eq_nil_iff.2 (List.forall_mem_map.2 fun _ _ => by simp [Running.ending?])
    rw [Scene.underWay, ← List.take_append_drop settled.length scene.uploads, List.filter_append,
      htold, List.nil_append]
    refine Nat.le_trans (List.length_filter_le _ _) ?_
    rw [List.length_drop, h.length_uploads hp, Nat.add_sub_cancel_left]
    exact h.room
  inOrder := h.tickets hp

theorem atRest (h : Ledger (own log) s settled) (hp : Path client ⟨[], files⟩ log scene)
    (hempty : s.outstanding = []) (hq : ∀ e ∈ own log, e.1.handles) : AtRest log scene := by
  have hover := h.over_of_empty hp hempty
  refine ⟨?_, hover, fun running hm => hp.gone hq (Or.inr ⟨running, hm, rfl, hover running hm⟩)⟩
  rw [h.tickets hp, h.awaited, List.length_map, h.uploads_of_empty hp hempty, List.length_map]

end Scheduler.Ledger

open Scheduler

/-- The uploads of a scene are those that were started. -/
theorem Tracked.files_eq (h : Tracked client log scene) :
    scene.uploads.map (·.file) = (launches (own log)).map (·.2.file) := by
  refine List.ext_getElem? fun n => ?_
  cases hu : scene.uploads[n]? with
  | none =>
    have hlen := h.length
    rw [List.getElem?_map, hu, List.getElem?_eq_none]
    · rfl
    · simpa [hlen] using hu
  | some running =>
    obtain ⟨session, rest, hl, -⟩ := h.left n running hu
    simp [hu, hl]

/-- What holds when calls of a scheduler were carried out, which returned their results. -/
structure CarriedOut (orders : List Order) (history : List (Order × Except Error Unit))
    (s : Scheduler) (log : List Happening) (scene : Scene) : Prop where
  complete : history.map Prod.fst = orders
  /-- A part is uploaded once if its submission was in order, and never if not. -/
  taken : scene.uploads.map (·.file) = history.filterMap Order.taken?
  /-- After a failed submission, or when all uploads were waited for, no file is left. -/
  settled : ∀ call ∈ history.getLast?, Order.Settles call →
    AtRest log scene ∧ ∀ file, .submit file ∈ orders → scene.files file.path = none
  summary : s.summary = Summary.of (landed log scene)

/-- How calls of a scheduler go. -/
structure Handled (client : Api.Client) (session : String) (requested : Nat) (orders : List Order)
    (log : List Happening) (scene : Scene) : Prop where
  clamped : 1 ≤ clampUploads requested ∧ clampUploads requested ≤ 8 ∧
    (1 ≤ requested → requested ≤ 8 → clampUploads requested = requested)
  /-- At every moment the uploads are bounded. -/
  bounded : ∀ outcome, Trace (useAndFinish session requested orders) (own log) outcome →
    Bounded (clampUploads requested) log scene
  carriedOut : ∀ history s, Trace ((start session requested).use orders :
      Work Error (List (Order × Except Error Unit) × Scheduler)) (own log)
        (some (.done (history, s))) → CarriedOut orders history s log scene
  /-- At the end nothing is left, and what has landed is reported. -/
  finished : ∀ outcome, Trace (useAndFinish session requested orders) (own log) (some outcome) →
    AtRest log scene ∧ (∀ file, .submit file ∈ orders → scene.files file.path = none) ∧
      ∀ history total, outcome = .done (history, total) →
        scene.uploads.map (·.file) = history.filterMap Order.taken? ∧
          total = Summary.of (landed log scene)
  /-- The scheduler is never stuck. -/
  ends : ∀ outcome, Trace (useAndFinish session requested orders) (own log) outcome →
    ∃ later last result, Path client scene later last ∧
      Trace (useAndFinish session requested orders) (own (log ++ later)) (some result)

/-- Each part that was submitted is that of an upload, or was removed. -/
theorem Scheduler.Obeyed.dropped {history : List (Order × Except Error Unit)} {s : Scheduler}
    (h : Obeyed history (own log) s)
    (htaken : scene.uploads.map (·.file) = history.filterMap Order.taken?)
    (hrest : AtRest log scene) {file : Part.File} (hm : .submit file ∈ history.map Prod.fst) :
    Dropped file.path log scene := by
  obtain ⟨⟨order, report⟩, hm, rfl⟩ := List.mem_map.1 hm
  cases report with
  | ok =>
    have hf : file ∈ scene.uploads.map (·.file) := by
      rw [htaken]
      exact List.mem_filterMap.2 ⟨_, hm, rfl⟩
    obtain ⟨running, hu, rfl⟩ := List.mem_map.1 hf
    exact Or.inr ⟨running, hu, rfl, hrest.ended running hu⟩
  | error e => exact Or.inl (h.removed file e hm)

theorem carriedOut_of_use {session : String} {requested : Nat} {orders : List Order}
    {history : List (Order × Except Error Unit)} {s : Scheduler}
    (hp : Path client ⟨[], files⟩ log scene)
    (ht : Trace ((start session requested).use orders :
      Work Error (List (Order × Except Error Unit) × Scheduler)) (own log)
        (some (.done (history, s)))) : CarriedOut orders history s log scene := by
  obtain ⟨last, halong, hq, ho⟩ := of_use (limit_pos session requested) ht
  obtain ⟨rfl, hcomplete, -, hobeyed⟩ : s = last ∧ history.map Prod.fst = orders ∧
      (orders = [] → last = start session requested) ∧ Obeyed history (own log) last := by
    simpa using ho
  obtain ⟨settled, hledger⟩ := ledger_of_along halong
  have htaken : scene.uploads.map (·.file) = history.filterMap Order.taken? := by
    rw [(Tracked.of_path hp).files_eq, hobeyed.launched]
  refine ⟨hcomplete, htaken, fun call hc hs => ?_, hledger.summary_eq hp⟩
  have hrest := hledger.atRest hp (hobeyed.settled call hc hs) hq
  exact ⟨hrest, fun file hm => hp.gone hq (hobeyed.dropped htaken hrest (hcomplete ▸ hm))⟩

/-- Waiting for all uploads at the end. -/
theorem Scheduler.Obeyed.finish {history : List (Order × Except Error Unit)}
    {first rest : List Event} {middle last : Scheduler} (h : Obeyed history first middle)
    (hw : Waits middle rest last) (hempty : last.outstanding = []) :
    Obeyed history (first ++ rest) last where
  launched := by simp [h.launched, hw.launches_eq]
  removed file e hm := List.mem_append_left _ (h.removed file e hm)
  settled _ _ _ := hempty

/-- A scheduler that was used and has finished waited for all uploads. -/
theorem of_useAndFinish {session : String} {requested : Nat} {orders : List Order}
    {events : List Event}
    {outcome : Option (Outcome Error (List (Order × Except Error Unit) × Summary))}
    (h : Trace (useAndFinish session requested orders) events outcome) :
    ∃ last, Along Step (start session requested) events last ∧ (∀ e ∈ events, e.1.handles) ∧
      (outcome = none ∨ last.outstanding = [] ∧ ∃ history, history.map Prod.fst = orders ∧
        Obeyed history events last ∧ ∀ reported total, outcome = some (.done (reported, total)) →
          reported = history ∧ total = last.summary) := by
  have hlimit := limit_pos session requested
  rcases Trace.of_bind h with ⟨first, ⟨history, middle⟩, rest, rfl, h₁, h₂⟩ | ⟨stop, h₁, hs⟩
  · obtain ⟨found, ha₁, hq₁, ho₁⟩ := of_use hlimit h₁
    obtain ⟨rfl, hcomplete, -, hobeyed⟩ : middle = found ∧ history.map Prod.fst = orders ∧
        (orders = [] → found = start session requested) ∧ Obeyed history first found := by
      simpa using ho₁
    rcases Trace.of_bind h₂ with ⟨waiting, total, final, rfl, h₃, h₄⟩ | ⟨stop, h₃, hs⟩
    · obtain ⟨rfl, rfl⟩ := Trace.of_pure h₄
      obtain ⟨last, hw, hl⟩ := waits_of_finish h₃
      obtain ⟨hempty, -, rfl⟩ : last.outstanding = [] ∧ firstFailure waiting = none ∧
          total = last.summary := by
        simpa using hl
      rw [List.append_nil]
      refine ⟨last, ha₁.append hw.along, List.forall_mem_append.2 ⟨hq₁, hw.handles⟩, Or.inr
        ⟨hempty, history, hcomplete, hobeyed.finish hw hempty, ?_⟩⟩
      intro reported total ho
      simpa [eq_comm] using ho
    · obtain ⟨last, hw, hl⟩ := waits_of_finish h₃
      refine ⟨last, ha₁.append hw.along, List.forall_mem_append.2 ⟨hq₁, hw.handles⟩, ?_⟩
      rcases hl with rfl | ⟨hempty, -⟩
      · exact Or.inl (hs.eq_none (Or.inl rfl))
      · exact Or.inr ⟨hempty, history, hcomplete, hobeyed.finish hw hempty,
          fun _ _ ho => absurd ho (hs.ne_done _)⟩
  · obtain ⟨found, ha₁, hq₁, ho₁⟩ := of_use hlimit h₁
    exact ⟨found, ha₁, hq₁, Or.inl (hs.eq_none (ho₁.imp_right fun ⟨_, ho, _⟩ => ⟨_, ho⟩))⟩

theorem schedules_useAndFinish {session : String} {requested : Nat} {orders : List Order} :
    Schedules session requested (useAndFinish session requested orders) := by
  intro events outcome h
  obtain ⟨last, halong, -⟩ := of_useAndFinish h
  exact ⟨last, halong⟩

/-- However the uploads of a scheduler go, calls of it are handled. -/
theorem handled_of_orders (session : String) (requested : Nat) (orders : List Order)
    (hp : Path client ⟨[], files⟩ log scene) :
    Handled client session requested orders log scene where
  clamped := by
    unfold clampUploads
    omega
  bounded outcome ht := by
    obtain ⟨last, halong, -, -⟩ := of_useAndFinish ht
    obtain ⟨settled, hledger⟩ := ledger_of_along halong
    have hlimit : last.limit = clampUploads requested := (same_of_along halong).2
    exact hlimit ▸ hledger.bounded hp
  carriedOut _ _ ht := carriedOut_of_use hp ht
  finished outcome ht := by
    obtain ⟨last, halong, hq, ho⟩ := of_useAndFinish ht
    obtain ⟨hempty, history, hcomplete, hobeyed, hreported⟩ := ho.resolve_left (by simp)
    obtain ⟨settled, hledger⟩ := ledger_of_along halong
    have hrest := hledger.atRest hp hempty hq
    have htaken : scene.uploads.map (·.file) = history.filterMap Order.taken? := by
      rw [(Tracked.of_path hp).files_eq, hobeyed.launched]
    refine ⟨hrest, fun file hm => hp.gone hq (hobeyed.dropped htaken hrest (hcomplete ▸ hm)), ?_⟩
    rintro history' total rfl
    obtain ⟨rfl, rfl⟩ := hreported history' total rfl
    exact ⟨htaken, hledger.summary_eq hp⟩
  ends _ ht := hp.completes schedules_useAndFinish ht

/-! ## A part that is refused -/

/-- A part with one record. -/
def smallPart (number : Nat) : Part.File :=
  ⟨number, Part.name "p" number, Part.name "p" number, 1, 20⟩

/-- The first part is submitted, then the second, then all uploads are waited for, and then the
third part is submitted. -/
def threeParts : List Order :=
  [.submit (smallPart 1), .submit (smallPart 2), .drain, .submit (smallPart 3)]

/-- The service refuses the first part, and there is room for one upload at a time. -/
def refused :
    List Happening × Option (Outcome Error (List (Order × Except Error Unit) × Summary)) :=
  play SessionDriver.careful.client (attended SessionDriver.careful.client)
    (useAndFinish "s" 1 threeParts) ⟨[], fun _ => some []⟩
    { service := ⟨[⟨"PUT *", [{ status := 400 }, {}]⟩], []⟩, moment := SessionDriver.epoch }

/-- Whether only the second submission failed, and one part was uploaded. -/
def isRefused : Option (Outcome Error (List (Order × Except Error Unit) × Summary)) → Bool
  | some (.done ([(_, .ok ()), (_, .error _), (_, .ok ()), (_, .ok ())], total)) => total.parts == 1
  | _ => false

theorem handled_refused :
    ∃ scene history total,
      Path SessionDriver.careful.client ⟨[], fun _ => some []⟩ refused.1 scene ∧
      refused.2 = some (.done (history, total)) ∧ total.parts = 1 ∧
      Bounded 1 refused.1 scene ∧ AtRest refused.1 scene ∧
      total = Summary.of (landed refused.1 scene) := by
  obtain ⟨scene, hp⟩ : ∃ scene, Path SessionDriver.careful.client ⟨[], fun _ => some []⟩ refused.1
      scene := path_play _ _ _ _
  have ht : Trace (useAndFinish "s" 1 threeParts) (own refused.1) refused.2 := trace_play _ _ _ _
  have hdone : isRefused refused.2 = true := by decide +kernel
  have hhandled := handled_of_orders "s" 1 threeParts hp
  unfold isRefused at hdone
  split at hdone
  next total ho =>
    rw [ho] at ht
    obtain ⟨hrest, -, hreport⟩ := hhandled.finished _ ht
    exact ⟨scene, _, total, hp, ho, by simpa using hdone, hhandled.bounded _ ht, hrest,
      (hreport _ total rfl).2⟩
  next => simp at hdone

end BulkLoad.Import
