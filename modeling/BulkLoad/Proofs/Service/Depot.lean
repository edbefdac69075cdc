import BulkLoad.Proofs.Import.Stages
import BulkLoad.Proofs.Service.Graph
import Mathlib.Data.List.AList

/-!
# A service with tables and sessions

A depot keeps databases of tables, and sessions that load into them. It treats one request at a time
(`Depot.handle`), and takes sessions on by itself; a session that is being committed loads its table
some time before the commit is complete (`Depot.Moves`). As a service it tells what is true, unless
a reply is lost, which happens whether the request took effect or not (`depot`). A depot can be
played : `Depot.serve` has requests answered.
-/

namespace BulkLoad.Import

open Program (Trace Keeps)
open SessionDriver (freezing performing committing)

/-! ## What is kept -/

/-- A part of what is in a table. -/
inductive Batch
  /-- It came from elsewhere. -/
  | other (id : Nat)
  /-- A session loaded it when it was committed. -/
  | loaded (session : String) (number : Nat)
deriving DecidableEq

/-- How far a session has come. -/
inductive Stage
  | uploading
  | performing
  | ready
  | committing
  /-- The table is loaded, but the commit is not complete. -/
  | loaded
  | committed
deriving DecidableEq

namespace Stage

/-- The stage as it is shown. -/
def status : Stage → Api.Status
  | .uploading => .uploading
  | .performing => .performing
  | .ready => .ready
  | .committing | .loaded => .committing
  | .committed => .committed

theorem status_ne_unknown (stage : Stage) : stage.status ≠ .unknown := by
  cases stage <;> simp [status]

@[simp] theorem status_eq_committed {stage : Stage} :
    stage.status = .committed ↔ stage = .committed := by
  cases stage <;> simp [status]

end Stage

/-- Nothing is loaded yet. -/
@[simp] def Stage.Early : Stage → Prop
  | .uploading | .performing | .ready | .committing => True
  | .loaded | .committed => False

/-- A session as it is kept. -/
structure Stored where
  database : String
  table : String
  stage : Stage := .uploading
  frozen : Bool := false
  /-- Tells it from earlier sessions of the same name. -/
  number : Nat
deriving DecidableEq

/-- A session is shown as it is. -/
structure Stored.Shown (kept : Stored) (shown : Api.Session) : Prop where
  database : shown.database = kept.database
  table : shown.table = kept.table
  status : shown.status = kept.stage.status
  frozen : shown.frozen = kept.frozen

/-- The tables of a database, by what is in them. -/
abbrev Tables : Type :=
  AList fun _ : String => List Batch

/-- A table is changed; nothing new takes it away. -/
def Tables.put (tables : Tables) (table : String) : Option (List Batch) → Tables
  | none => tables.erase table
  | some batches => tables.insert table batches

@[simp] theorem Tables.lookup_put {tables : Tables} {table : String} {new : Option (List Batch)} :
    (tables.put table new).lookup table = new := by
  cases new with
  | none => exact AList.lookup_erase table tables
  | some => exact AList.lookup_insert tables

theorem Tables.lookup_put_of_ne {tables : Tables} {table other : String}
    {new : Option (List Batch)} (h : other ≠ table) :
    (tables.put table new).lookup other = tables.lookup other := by
  cases new with
  | none => exact AList.lookup_erase_ne h
  | some => exact AList.lookup_insert_ne h

/-- What a service keeps. -/
structure Depot where
  databases : String → Option Tables
  sessions : String → Option Stored
  /-- The number of sessions that there were so far. -/
  made : Nat
  /-- The sessions whose commits are complete. -/
  completed : List (String × Nat)

namespace Depot

variable {s s' : Depot} {name database table : String} {kept : Stored} {new : Option (List Batch)}

/-- What is in a table, if it is there. -/
def content (s : Depot) (database table : String) : Option (List Batch) :=
  (s.databases database).bind (·.lookup table)

/-- Changes a table of a database that is there. -/
def put (s : Depot) (database table : String) (new : Option (List Batch)) : Depot :=
  { s with
    databases := Function.update s.databases database
      ((s.databases database).map fun tables => tables.put table new) }

/-- Changes a session. -/
def keep (s : Depot) (name : String) (kept : Option Stored) : Depot :=
  { s with sessions := Function.update s.sessions name kept }

@[simp] theorem sessions_put : (s.put database table new).sessions = s.sessions :=
  rfl

@[simp] theorem completed_put : (s.put database table new).completed = s.completed :=
  rfl

@[simp] theorem content_keep {k : Option Stored} (d t : String) :
    (s.keep name k).content d t = s.content d t :=
  rfl

@[simp] theorem completed_keep {k : Option Stored} : (s.keep name k).completed = s.completed :=
  rfl

@[simp] theorem sessions_keep_self {k : Option Stored} : (s.keep name k).sessions name = k :=
  Function.update_self ..

theorem sessions_keep_of_ne {k : Option Stored} {other : String} (h : other ≠ name) :
    (s.keep name k).sessions other = s.sessions other :=
  Function.update_of_ne h ..

theorem content_put_of_ne {d t : String} (h : d = database → t ≠ table) :
    (s.put database table new).content d t = s.content d t := by
  by_cases hd : d = database
  · subst hd
    cases hs : s.databases d <;> simp [Depot.content, put, hs, Tables.lookup_put_of_ne (h rfl)]
  · simp [Depot.content, put, Function.update_of_ne hd]

@[simp] theorem content_put_none : (s.put database table none).content database table = none := by
  cases hs : s.databases database <;> simp [Depot.content, put, hs]

theorem content_put_self (h : s.databases database ≠ none) :
    (s.put database table new).content database table = new := by
  obtain ⟨tables, hs⟩ := Option.ne_none_iff_exists'.1 h
  simp [Depot.content, put, hs]

theorem databases_ne_none (h : s.content database table ≠ none) : s.databases database ≠ none := by
  intro hd
  simp [Depot.content, hd] at h

theorem databases_put_ne_none {d : String} (h : s.databases d ≠ none) :
    (s.put database table new).databases d ≠ none := by
  by_cases hd : d = database
  · subst hd
    simpa [put] using h
  · simpa [put, Function.update_of_ne hd] using h

/-! ## Requests -/

/-- Changes a session that may be changed. -/
def change (s : Depot) (name : String) (may : Stored → Bool) (f : Stored → Stored) :
    Verdict × Depot :=
  match s.sessions name with
  | none => (.missing, s)
  | some kept => if may kept then (.taken, s.keep name (some (f kept))) else (.conflict, s)

/-- What is made of a request. -/
def handle (s : Depot) (request : Api.Request) : Verdict × Depot :=
  match request.endpoint with
  | .databaseList => (.taken, s)
  | .databaseCreate database =>
    match s.databases database with
    | some _ => (.conflict, s)
    | none =>
      (.taken, { s with databases := Function.update s.databases database (some ∅) })
  | .tableList database => (if (s.databases database).isSome then .taken else .missing, s)
  | .tableCreate database table =>
    match s.databases database with
    | none => (.missing, s)
    | some tables =>
      if (tables.lookup table).isSome then (.conflict, s)
      else (.taken, s.put database table (some []))
  | .tableDelete database table =>
    if (s.content database table).isSome then (.taken, s.put database table none) else (.missing, s)
  | .tableRename database source destination =>
    match s.content database source with
    | none => (.missing, s)
    | some content =>
      if (s.content database destination).isSome && request.body ≠ .form "overwrite" "true" then
        (.conflict, s)
      else (.taken, (s.put database source none).put database destination (some content))
  | .sessionCreate name database table =>
    if (s.sessions name).isSome then (.conflict, s)
    else (.taken, { s.keep name (some { database, table, number := s.made }) with
      made := s.made + 1 })
  | .sessionShow name => (if (s.sessions name).isSome then .taken else .missing, s)
  | .sessionFreeze name =>
    s.change name (fun kept => kept.stage = .uploading && !kept.frozen)
      fun kept => { kept with frozen := true }
  | .sessionPerform name =>
    s.change name (·.stage = .uploading) fun kept => { kept with stage := .performing }
  | .sessionCommit name =>
    s.change name (·.stage = .ready) fun kept => { kept with stage := .committing }
  | .sessionDelete name =>
    if (s.sessions name).isSome then (.taken, s.keep name none) else (.missing, s)
  | .partUpload name _ =>
    ((s.change name (fun kept => kept.stage = .uploading && !kept.frozen) id).1, s)

theorem change_ne_lost {may : Stored → Bool} {f : Stored → Stored} :
    (s.change name may f).1 ≠ .lost := by
  unfold change
  split
  · simp
  · split <;> simp

/-- The service knows what it makes of a request. -/
theorem handle_ne_lost (request : Api.Request) : (s.handle request).1 ≠ .lost := by
  unfold handle
  split <;> first
    | exact change_ne_lost
    | (split <;> first | (split <;> simp) | simp)
    | simp

/-! What is made of the requests of an import. -/

theorem handle_lookAt : s.handle (lookAt name) =
    (if (s.sessions name).isSome then .taken else .missing, s) :=
  rfl

theorem handle_listing : s.handle (listing database) =
    (if (s.databases database).isSome then .taken else .missing, s) :=
  rfl

/-- The request that creates a table. -/
def making (database table : String) : Api.Request :=
  ⟨.post, .tableCreate database table, .empty⟩

theorem handle_making (s : Depot) (database table : String) :
    (s.databases database = none ∧ s.handle (making database table) = (.missing, s)) ∨
    (s.content database table ≠ none ∧ s.handle (making database table) = (.conflict, s)) ∨
    (s.databases database ≠ none ∧ s.content database table = none ∧
      s.handle (making database table) = (.taken, s.put database table (some []))) := by
  simp only [making, handle, Depot.content]
  cases hd : s.databases database with
  | none => simp
  | some tables => cases ht : tables.lookup table <;> simp [ht]

/-- The request that creates a database. -/
def founding (database : String) : Api.Request :=
  ⟨.post, .databaseCreate database, .empty⟩

theorem handle_founding (s : Depot) (database : String) :
    (s.handle (founding database)).1 = .taken ∨ (s.handle (founding database)).1 = .conflict := by
  simp only [founding, handle]
  split <;> simp

@[simp] theorem sessions_founding : (s.handle (founding database)).2.sessions = s.sessions := by
  simp only [founding, handle]
  split <;> rfl

@[simp] theorem completed_founding : (s.handle (founding database)).2.completed = s.completed := by
  simp only [founding, handle]
  split <;> rfl

/-- A new database has no tables. -/
@[simp] theorem content_founding : (s.handle (founding database)).2.content = s.content := by
  simp only [founding, handle]
  split
  · rfl
  next hd =>
    funext other table
    by_cases ho : other = database
    · subst ho
      simp [Depot.content, hd]
    · simp [Depot.content, Function.update_of_ne ho]

theorem handle_creating (s : Depot) (name database table : String) :
    (s.sessions name ≠ none ∧ s.handle (creating name database table) = (.conflict, s)) ∨
    (s.sessions name = none ∧ s.handle (creating name database table) =
      (.taken, { s.keep name (some { database, table, number := s.made }) with
        made := s.made + 1 })) := by
  simp only [creating, handle]
  cases s.sessions name <;> simp

theorem handle_swapping (s : Depot) (database source destination : String) :
    (s.content database source = none ∧
      s.handle (swapping database source destination) = (.missing, s)) ∨
    ∃ content, s.content database source = some content ∧
      s.handle (swapping database source destination) =
        (.taken, (s.put database source none).put database destination (some content)) := by
  simp only [swapping, handle]
  cases s.content database source <;> simp

theorem handle_deleting (s : Depot) (name : String) :
    (s.sessions name = none ∧ s.handle (deleting name) = (.missing, s)) ∨
    (s.sessions name ≠ none ∧ s.handle (deleting name) = (.taken, s.keep name none)) := by
  simp only [deleting, handle]
  cases s.sessions name <;> simp

theorem change_cases (s : Depot) (name : String) (may : Stored → Bool) (f : Stored → Stored) :
    (s.change name may f).2 = s ∨ ∃ kept, s.sessions name = some kept ∧ may kept = true ∧
      (s.change name may f).2 = s.keep name (some (f kept)) := by
  unfold change
  cases hs : s.sessions name with
  | none => exact Or.inl rfl
  | some kept =>
    dsimp only
    split
    next hm => exact Or.inr ⟨kept, rfl, hm, rfl⟩
    next => exact Or.inl rfl

/-- A session that is taken on loads into the same table as before, and has loaded nothing. -/
theorem handle_takes {priority : Int} {request : Api.Request}
    (h : SessionDriver.Takes name priority request) :
    (s.handle request).2 = s ∨ ∃ kept kept', s.sessions name = some kept ∧
      (s.handle request).2 = s.keep name (some kept') ∧ kept'.database = kept.database ∧
      kept'.table = kept.table ∧ kept.stage.Early ∧ kept'.stage.Early := by
  rcases h with rfl | rfl | rfl | rfl
  · exact Or.inl rfl
  all_goals
    refine (change_cases s name _ _).imp_right ?_
    rintro ⟨kept, hk, hm, he⟩
    refine ⟨kept, _, hk, he, rfl, rfl, ?_, ?_⟩ <;> simp_all

/-! ## On its own -/

/-- What becomes of what is kept while nothing is asked for. -/
inductive Moves : Depot → Depot → Prop
  | performed {s : Depot} {name : String} {kept : Stored} (h : s.sessions name = some kept)
    (hs : kept.stage = .performing) :
    Moves s (s.keep name (some { kept with stage := .ready }))
  | loaded {s : Depot} {name : String} {kept : Stored} (h : s.sessions name = some kept)
    (hs : kept.stage = .committing) :
    Moves s ((s.keep name (some { kept with stage := .loaded })).put kept.database kept.table
      ((s.content kept.database kept.table).map (· ++ [.loaded name kept.number])))
  | completed {s : Depot} {name : String} {kept : Stored} (h : s.sessions name = some kept)
    (hs : kept.stage = .loaded) :
    Moves s { s.keep name (some { kept with stage := .committed }) with
      completed := (name, kept.number) :: s.completed }

/-- The stages that sessions come to by themselves. -/
inductive Next : Stage → Stage → Prop
  | performed : Next .performing .ready
  | loaded : Next .committing .loaded
  | completed : Next .loaded .committed

/-- A session is left as it is, or comes to its next stage. -/
theorem Moves.session (m : Moves s s') (name : String) : s'.sessions name = s.sessions name ∨
    ∃ kept stage, s.sessions name = some kept ∧ s'.sessions name = some { kept with stage } ∧
      Next kept.stage stage := by
  have turned {mover : String} {kept : Stored} {stage : Stage} (h : s.sessions mover = some kept)
      (hn : Next kept.stage stage)
      (hs : s'.sessions = (s.keep mover (some { kept with stage })).sessions) :
      s'.sessions name = s.sessions name ∨
        ∃ kept stage, s.sessions name = some kept ∧ s'.sessions name = some { kept with stage } ∧
          Next kept.stage stage := by
    rw [hs]
    by_cases hname : name = mover
    · subst hname
      exact Or.inr ⟨kept, stage, h, sessions_keep_self, hn⟩
    · exact Or.inl (sessions_keep_of_ne hname)
  cases m with
  | performed h hs => exact turned h (hs ▸ .performed) rfl
  | loaded h hs => exact turned h (hs ▸ .loaded) rfl
  | completed h hs => exact turned h (hs ▸ .completed) rfl

/-- A table is left as it is, or loaded by a session that is being committed. -/
theorem Moves.content (m : Moves s s') (database table : String) :
    s'.content database table = s.content database table ∨
      ∃ name kept, s.sessions name = some kept ∧ kept.stage = .committing ∧
        kept.database = database ∧ kept.table = table ∧
        s'.sessions name = some { kept with stage := .loaded } ∧
        s'.content database table =
          (s.content database table).map (· ++ [.loaded name kept.number]) := by
  cases m with
  | performed | completed => exact Or.inl rfl
  | @loaded name kept h hs =>
    by_cases hd : database = kept.database ∧ table = kept.table
    · obtain ⟨rfl, rfl⟩ := hd
      refine Or.inr ⟨name, kept, h, hs, rfl, rfl, by simp, ?_⟩
      by_cases hc : s.content kept.database kept.table = none
      · rw [hc]
        exact content_put_none
      · exact content_put_self (databases_ne_none hc)
    · exact Or.inl (content_put_of_ne fun hdb ht => hd ⟨hdb, ht⟩)

/-- Commits stay complete. -/
theorem Moves.completed_subset (m : Moves s s') : s.completed ⊆ s'.completed := by
  cases m with
  | performed | loaded => exact List.Subset.refl _
  | completed => exact List.subset_cons_self _ _

/-! ## Replies -/

/-- A reply shows what there is. -/
structure Tells (s : Depot) (request : Api.Request) (reply : Api.Reply) : Prop where
  session : ∀ name kept, request = lookAt name → s.sessions name = some kept →
    ∃ shown, seen name reply = some shown ∧ kept.Shown shown
  tables : ∀ database, request = listing database → s.databases database ≠ none →
    ∃ found, listed database reply = some found ∧
      ∀ table, found.any (·.name = table) = (s.content database table).isSome

/-- How a request is treated. A service that is `lossy` may give no answer that tells anything,
whether the request takes effect or not. -/
inductive Treats (lossy : Bool) (s : Depot) (request : Api.Request) (reply : Api.Reply) :
    Depot → Prop
  | answered (hv : verdict request reply = (s.handle request).1) (ht : s.Tells request reply) :
    Treats lossy s request reply (s.handle request).2
  | unheard (hl : lossy = true) (hv : verdict request reply = .lost) :
    Treats lossy s request reply s
  | lost (hl : lossy = true) (hv : verdict request reply = .lost) :
    Treats lossy s request reply (s.handle request).2

theorem Treats.eq_or_eq {lossy : Bool} {request : Api.Request} {reply : Api.Reply}
    (t : Treats lossy s request reply s') : s' = s ∨ s' = (s.handle request).2 := by
  cases t with
  | answered | lost => exact Or.inr rfl
  | unheard => exact Or.inl rfl

end Depot

/-- Depots as a service. -/
def depot (lossy : Bool) : Behaviour Depot where
  moves := Depot.Moves
  treats := Depot.Treats lossy

namespace Depot

variable {s s' : Depot} {name : String} {lossy : Bool} {request : Api.Request}

/-! ## The graph -/

/-- The stage of a session as it is shown; one that is not there is taken for a new one. -/
def status (name : String) (s : Depot) : Api.Status :=
  ((s.sessions name).map (·.stage.status)).getD .uploading

theorem status_of_some {kept : Stored} (h : s.sessions name = some kept) :
    status name s = kept.stage.status := by
  simp [status, h]

theorem status_ne_unknown : status name s ≠ .unknown := by
  cases h : s.sessions name with
  | none => simp [status, h]
  | some kept => simpa [status, h] using kept.stage.status_ne_unknown

theorem Moves.alone (m : Moves s s') : Alone (status name s) (status name s') := by
  rcases m.session name with h | ⟨kept, stage, h, h', hn⟩
  · simpa only [status, h] using .still _
  · rw [status_of_some h, status_of_some h']
    cases hs : kept.stage <;> rw [hs] at hn <;> cases hn
    · exact .performed
    · exact .still _
    · exact .loaded

/-- What may be changed is a session in one stage, and it is in another one then. -/
theorem turns_change {source target : Api.Status} {may : Stored → Bool} {f : Stored → Stored}
    (hmay : ∀ kept, may kept = true ↔ kept.stage.status = source)
    (hf : ∀ kept, (f kept).stage.status = target) :
    Turns source target (s.change name may f).1 (status name s)
      (status name (s.change name may f).2) := by
  unfold change
  cases h : s.sessions name with
  | none => exact Or.inl rfl
  | some kept =>
    dsimp only
    cases hm : may kept with
    | true =>
      simp only [if_true, Turns]
      refine ⟨(status_of_some h).trans ((hmay kept).1 hm), ?_⟩
      simp [status, hf]
    | false =>
      simp only [Bool.false_eq_true, if_false, Turns, and_true]
      intro hs
      rw [status_of_some h, ← hmay kept, hm] at hs
      cases hs

end Depot

/-- What a verdict tells of a turn, it does not tell when it is lost. -/
theorem Turns.lost {source target a b : Api.Status} {verdict : Verdict}
    (h : Turns source target verdict a b) : Turns source target .lost a b := by
  cases verdict with
  | taken => exact Or.inr h
  | conflict => exact Or.inl h.2
  | missing | lost => exact h

namespace Depot

variable {s s' : Depot} {name : String} {lossy : Bool} {request : Api.Request} {reply : Api.Reply}

theorem Treats.turns {source target : Api.Status} (t : Treats lossy s request reply s')
    (h : Turns source target (s.handle request).1 (status name s)
      (status name (s.handle request).2)) :
    Turns source target (verdict request reply) (status name s) (status name s') := by
  cases t with
  | answered hv => exact hv ▸ h
  | unheard _ hv =>
    rw [hv]
    exact Or.inl rfl
  | lost _ hv =>
    rw [hv]
    exact h.lost

theorem seen_eq_none (h : verdict (lookAt name) reply ≠ .taken) : seen name reply = none := by
  rcases verdict_cases (lookAt name) reply with
    ⟨_, _, hv⟩ | ⟨e, he, _⟩ | ⟨e, he, _⟩ | ⟨e, he, _⟩
  · exact absurd hv h
  all_goals simp [seen, he]

theorem Treats.obeys (t : Treats lossy s request reply s') :
    Obeys name (status name s) request reply (status name s') where
  looked hr := by
    subst hr
    have hs' : s' = s := t.eq_or_eq.elim id id
    refine ⟨by rw [hs'], fun shown hshown => ?_⟩
    cases t with
    | answered hv ht =>
      cases h : s.sessions name with
      | none =>
        rw [seen_eq_none (by simp [hv, handle_lookAt, h])] at hshown
        cases hshown
      | some kept =>
        obtain ⟨shown', hs, hk⟩ := ht.session name kept rfl h
        obtain rfl : shown' = shown := Option.some.inj (hs.symm.trans hshown)
        rw [hk.status, status_of_some h]
    | unheard _ hv | lost _ hv =>
      rw [seen_eq_none (by simp [hv])] at hshown
      cases hshown
  frozen hr := by
    subst hr
    rcases t.eq_or_eq with rfl | rfl
    · rfl
    · change status name (s.change name _ _).2 = _
      unfold change
      cases h : s.sessions name with
      | none => rfl
      | some kept =>
        dsimp only
        split
        · simp [status, h]
        · rfl
  performed priority hr := by
    subst hr
    refine t.turns (turns_change (fun kept => ?_) fun _ => rfl)
    cases hs : kept.stage <;> simp [Stage.status]
  committed hr := by
    subst hr
    refine t.turns (turns_change (fun kept => ?_) fun _ => rfl)
    cases hs : kept.stage <;> simp [Stage.status]

/-- The sessions of a depot follow the graph. -/
theorem follows (lossy : Bool) (name : String) : Follows (depot lossy) name (status name) :=
  ⟨fun _ _ m => Moves.alone m, fun _ _ _ _ t => Treats.obeys t⟩

/-! ## Played depots -/

/-- A session is taken on by itself, if it is its turn. -/
def turn (s : Depot) (name : String) : Depot :=
  match s.sessions name with
  | none => s
  | some kept =>
    match kept.stage with
    | .performing => s.keep name (some { kept with stage := .ready })
    | .committing =>
      (s.keep name (some { kept with stage := .loaded })).put kept.database kept.table
        ((s.content kept.database kept.table).map (· ++ [.loaded name kept.number]))
    | .loaded =>
      { s.keep name (some { kept with stage := .committed }) with
        completed := (name, kept.number) :: s.completed }
    | _ => s

theorem serves_turn (s : Depot) (name : String) {sent : List (Api.Request × Api.Reply)}
    {last : Depot} (h : (depot lossy).Serves (s.turn name) sent last) :
    (depot lossy).Serves s sent last := by
  unfold turn at h
  split at h
  · exact h
  next kept hk =>
    split at h
    next hs => exact .moved (.performed hk hs) h
    next hs => exact .moved (.loaded hk hs) h
    next hs => exact .moved (.completed hk hs) h
    next => exact h

/-- Whether a reply shows what there is. -/
def tells (s : Depot) (request : Api.Request) (reply : Api.Reply) : Bool :=
  match request.endpoint with
  | .sessionShow name =>
    match s.sessions name with
    | none => true
    | some kept => (seen name reply).any fun shown =>
      shown.database = kept.database && shown.table = kept.table &&
        shown.status = kept.stage.status && shown.frozen = kept.frozen
  | .tableList database =>
    match s.databases database with
    | none => true
    | some tables => (listed database reply).any fun found =>
      found.all (fun table => (tables.lookup table.name).isSome) &&
        tables.keys.all fun name => found.any (·.name = name)
  | _ => true

theorem Tells.of_tells (h : s.tells request reply = true) : s.Tells request reply where
  session name kept hr hk := by
    subst hr
    simp only [tells, lookAt, hk, Option.any_eq_true, Bool.and_eq_true, decide_eq_true_eq] at h
    obtain ⟨shown, hs, ⟨⟨hd, ht⟩, hstatus⟩, hf⟩ := h
    exact ⟨shown, hs, hd, ht, hstatus, hf⟩
  tables database hr hd := by
    subst hr
    obtain ⟨tables, hs⟩ := Option.ne_none_iff_exists'.1 hd
    simp only [tells, listing, hs, Option.any_eq_true, Bool.and_eq_true, List.all_eq_true] at h
    obtain ⟨found, hl, hfound, hkeys⟩ := h
    refine ⟨found, hl, fun table => ?_⟩
    simp only [Depot.content, hs, Option.bind_some]
    refine Bool.eq_iff_iff.2 ⟨fun ht => ?_, fun ht => hkeys table ?_⟩
    · obtain ⟨x, hx, hname⟩ := List.any_eq_true.1 ht
      obtain rfl : x.name = table := by simpa using hname
      exact hfound x hx
    · exact AList.mem_keys.1 (AList.lookup_isSome.1 ht)

/-- Has requests answered; before a look the session is taken on as far as it goes. Nothing comes of
replies that are not those of the depot. -/
def serve : Depot → List (Api.Request × Api.Reply) → Option Depot
  | s, [] => some s
  | s, (request, reply) :: sent =>
    let s := match request.endpoint with
      | .sessionShow name => (s.turn name).turn name
      | _ => s
    if verdict request reply = (s.handle request).1 && s.tells request reply then
      serve (s.handle request).2 sent
    else none

theorem serves_of_serve : ∀ {sent : List (Api.Request × Api.Reply)} {s last : Depot},
    s.serve sent = some last → (depot lossy).Serves s sent last
  | [], s, last, h => by
    obtain rfl := Option.some.inj h
    exact .nil s
  | (request, reply) :: sent, s, last, h => by
    have answered {s : Depot} (h : (if verdict request reply = (s.handle request).1 &&
        s.tells request reply then serve (s.handle request).2 sent else none) = some last) :
        (depot lossy).Serves s ((request, reply) :: sent) last := by
      split at h
      next ht =>
        simp only [Bool.and_eq_true, decide_eq_true_eq] at ht
        exact .treated (Treats.answered ht.1 (Tells.of_tells ht.2)) (serves_of_serve h)
      next => cases h
    unfold serve at h
    split at h
    next name _ => exact serves_turn s name (serves_turn _ name (answered h))
    next => exact answered h

end Depot

end BulkLoad.Import
