import BulkLoad.Import.Feed
import BulkLoad.Proofs.Import.Accounts
import BulkLoad.Proofs.Import.Shelf

/-!
# Packing records into parts

What a feed has done so far is told by its entries : those of the parts that were handed over and
those of the part that is open, each with the size of the part after it (`Packing`). A record
joins the open part, which is handed over when its size reaches the bound (`packs_of_putRecord`),
so every part but the last is closed right after the first record that makes it `Full`.
-/

namespace BulkLoad.Import

open Program (Trace)

/-- A record in a part, and the size of the part with it. -/
structure Entry where
  record : Packed
  size : Nat

/-- The content of a part. -/
def contentOf (entries : List Entry) : List UInt8 :=
  entries.flatMap (·.record.encode)

/-- The part reaches the bound with its last record and not before. -/
def Full (bound : Nat) (entries : List Entry) : Prop :=
  ∃ before last, entries = before ++ [last] ∧ (∀ e ∈ before, e.size < bound) ∧ bound ≤ last.size

namespace Full

variable {bound : Nat} {entries : List Entry}

theorem of_below {e : Entry} (hb : ∀ e ∈ entries, e.size < bound) (he : bound ≤ e.size) :
    Full bound (entries ++ [e]) :=
  ⟨entries, e, rfl, hb, he⟩

theorem ne_nil (h : Full bound entries) : entries ≠ [] := by
  obtain ⟨before, last, rfl, -, -⟩ := h
  simp

theorem below (h : Full bound entries) : ∀ e ∈ entries.dropLast, e.size < bound := by
  obtain ⟨before, last, rfl, hb, -⟩ := h
  simpa using hb

end Full

/-- What is added to part files, with the sizes that are answered. -/
def additions (events : List Event) : List (List UInt8 × Nat) :=
  events.filterMap fun
    | ⟨.part (.append _ bytes), .ok size⟩ => some (bytes, size)
    | _ => none

@[simp] theorem additions_append (first rest : List Event) :
    additions (first ++ rest) = additions first ++ additions rest :=
  List.filterMap_append

@[simp] theorem additions_nil : additions [] = [] :=
  rfl

@[simp] theorem additions_append_ok (path : String) (bytes : List UInt8) (size : Nat)
    (rest : List Event) :
    additions (⟨.part (.append path bytes), .ok size⟩ :: rest) = (bytes, size) :: additions rest :=
  rfl

@[simp] theorem additions_create (directory : Option String) (name : String)
    (a : Except Part.FileFault String) (rest : List Event) :
    additions (⟨.part (.create directory name), a⟩ :: rest) = additions rest :=
  rfl

@[simp] theorem additions_close (path : String) (a : Except Part.FileFault Nat)
    (rest : List Event) : additions (⟨.part (.close path), a⟩ :: rest) = additions rest :=
  rfl

@[simp] theorem additions_start (session : String) (file : Part.File) (ticket : Nat)
    (rest : List Event) :
    additions (⟨.startUpload session file, ticket⟩ :: rest) = additions rest :=
  rfl

@[simp] theorem additions_succeeded (uploads : List Started) :
    additions (uploads.map succeeded) = [] := by
  simp [additions, succeeded, List.filterMap_eq_nil_iff]

theorem Shelf.steps_succeeded {shelf : Shelf} (uploads : List Started) :
    Shelf.Steps shelf (uploads.map succeeded) shelf :=
  .aside fun e he => by
    obtain ⟨upload, -, rfl⟩ := List.mem_map.1 he
    exact ⟨by simp [succeeded], by simp [succeeded]⟩

namespace Feed

variable {plan : Plan} {events ev : List Event} {feed feed' : Feed} {part : Part.Builder}
  {closed : List (List Entry)} {current : List Entry}

/-- How the file of a part is called and how many records it has, by the number of the part. -/
def label (stem : String) (index : Nat) (entries : List Entry) : Nat × String × Nat :=
  (index + 1, Part.name stem (index + 1), entries.length)

/-- The file of an upload, in the same way. -/
def labelOf (launch : String × Started) : Nat × String × Nat :=
  (launch.2.file.number, launch.2.file.name, launch.2.file.records)

/-- What a feed has done, apart from the part that is open. -/
structure Packing (plan : Plan) (events : List Event) (feed : Feed) (closed : List (List Entry))
    (current : List Entry) : Prop where
  additions : additions events =
    (closed.flatten ++ current).map fun e => (e.record.encode, e.size)
  labels : (launches events).map labelOf = closed.mapIdx (label plan.stem)
  accounts : feed.scheduler.Accounts events

/-- The part that is open, with its entries. -/
structure Holding (plan : Plan) (events : List Event) (feed : Feed) (closed : List (List Entry))
    (current : List Entry) (part : Part.Builder) : Prop extends
    Packing plan events feed closed current where
  number : feed.number = closed.length + 1
  part_number : part.number = feed.number
  part_name : part.name = Part.name plan.stem feed.number
  part_records : part.records = current.length
  shelf : Shelf.Steps {} events ⟨closed.map contentOf, some (part.path, contentOf current)⟩

/-- No part is open. -/
structure Idle (plan : Plan) (events : List Event) (feed : Feed) (closed : List (List Entry)) :
    Prop extends Packing plan events feed closed [] where
  number : feed.number = closed.length
  shelf : Shelf.Steps {} events ⟨closed.map contentOf, none⟩

/-- The part that is open is the one that the feed knows of. -/
def Packs (plan : Plan) (events : List Event) (feed : Feed) (closed : List (List Entry))
    (current : List Entry) : Prop :=
  match feed.part with
  | none => current = [] ∧ Idle plan events feed closed
  | some part => current ≠ [] ∧ Holding plan events feed closed current part

/-- A question about neither files nor uploads does not matter. -/
theorem Packs.aside (h : Packs plan events feed closed current) {q : Question}
    (hq : ∀ part, q ≠ .part part) (hs : ∀ session file, q ≠ .startUpload session file)
    (a : Answer q) : Packs plan (events ++ [⟨q, a⟩]) feed closed current := by
  have hadd : Import.additions [⟨q, a⟩] = [] := by
    cases q with
    | part part => exact absurd rfl (hq part)
    | _ => rfl
  have hl : launches [⟨q, a⟩] = [] := launches_of_ne hs a
  unfold Packs at h ⊢
  cases hp : feed.part with
  | none =>
    simp only [hp] at h ⊢
    obtain ⟨hc, hi⟩ := h
    exact ⟨hc, ⟨⟨by simp [hadd, hi.additions], by simp [hl, hi.labels], hi.accounts.aside hl⟩,
      hi.number, hi.shelf.snoc (.aside hq hs a)⟩⟩
  | some part =>
    simp only [hp] at h ⊢
    obtain ⟨hc, hh⟩ := h
    exact ⟨hc, ⟨⟨by simp [hadd, hh.additions], by simp [hl, hh.labels], hh.accounts.aside hl⟩,
      hh.number, hh.part_number, hh.part_name, hh.part_records, hh.shelf.snoc (.aside hq hs a)⟩⟩

/-- A part is opened, unless one is open. -/
theorem holding_of_openPart (h : Packs plan events feed closed current)
    (ht : Trace (openPart plan feed) ev (some (.done (part, feed')))) :
    Holding plan (events ++ ev) feed' closed current part ∧ feed'.read = feed.read ∧
      feed'.skipped = feed.skipped ∧ feed'.writers = feed.writers := by
  unfold openPart at ht
  unfold Packs at h
  cases hp : feed.part with
  | some open_ =>
    simp only [hp] at h ht
    obtain ⟨rfl, ho⟩ := Trace.of_pure_done ht
    obtain ⟨rfl, rfl⟩ : part = open_ ∧ feed' = feed := by simpa using ho
    rw [List.append_nil]
    exact ⟨h.2, rfl, rfl, rfl⟩
  | none =>
    simp only [hp] at h ht
    obtain ⟨rfl, hi⟩ := h
    obtain ⟨first, r, rest, rfl, h₁, h₂⟩ := Trace.of_bind_done ht
    cases r with
    | error fault => exact absurd h₂ Trace.not_throw_done
    | ok opened =>
      obtain ⟨path, rfl, rfl⟩ := of_create h₁
      obtain ⟨rfl, ho⟩ := Trace.of_pure_done h₂
      obtain ⟨rfl, rfl⟩ : part = _ ∧ feed' = _ := by simpa using ho
      refine ⟨⟨⟨?_, ?_, ?_⟩, ?_, rfl, rfl, rfl, ?_⟩, rfl, rfl, rfl⟩
      · simpa using hi.additions
      · simpa using hi.labels
      · exact hi.accounts.aside rfl
      · simp [hi.number]
      · exact hi.shelf.append (.one .created)

theorem Holding.add {ε : Type} {record : Packed} {part' : Part.Builder}
    (h : Holding plan events feed closed current part)
    (ht : Trace ((onPart (part.add record)).attempt : Work ε (Except Part.Fault Part.Builder))
      ev (some (.done (.ok part')))) :
    Holding plan (events ++ ev) feed closed (current ++ [⟨record, part'.size⟩]) part' := by
  obtain ⟨size, rfl, rfl⟩ := of_add ht
  refine ⟨⟨?_, ?_, h.accounts.aside rfl⟩, h.number, h.part_number, h.part_name, ?_, ?_⟩
  · simp [h.additions]
  · simpa using h.labels
  · simp [h.part_records]
  · have hc : contentOf (current ++ [⟨record, size⟩]) = contentOf current ++ record.encode := by
      simp [contentOf]
    rw [hc]
    exact h.shelf.append (.one .appended)

/-- A part is closed and handed over. -/
theorem idle_of_handOver (hc : current ≠ []) (h : Holding plan events feed closed current part)
    (ht : Trace (handOver feed part) ev (some (.done feed'))) :
    Idle plan (events ++ ev) feed' (closed ++ [current]) ∧ feed'.part = none ∧
      feed'.read = feed.read ∧ feed'.skipped = feed.skipped ∧ feed'.writers = feed.writers := by
  have hr : part.records ≠ 0 := by
    rw [h.part_records]
    exact fun hz => hc (List.eq_nil_of_length_eq_zero hz)
  obtain ⟨first, r, rest, rfl, h₁, h₂⟩ := Trace.of_bind_done ht
  cases r with
  | error fault => exact absurd h₂ Trace.not_throw_done
  | ok file? =>
    obtain ⟨size, rfl, rfl⟩ := of_close hr h₁
    obtain ⟨second, ⟨r, scheduler⟩, last, rfl, h₃, h₄⟩ := Trace.of_bind_done h₂
    cases r with
    | error e => exact absurd h₄ Trace.not_throw_done
    | ok =>
      obtain ⟨rfl, rfl⟩ := Trace.of_pure_done h₄
      have hacc : feed.scheduler.Accounts
          (events ++ [⟨.part (.close part.path), .ok size⟩]) := h.accounts.aside rfl
      obtain ⟨hacc, hsession, waits, ticket, rfl⟩ := Scheduler.of_submit h₃ hacc
      refine ⟨⟨⟨?_, ?_, ?_⟩, ?_, ?_⟩, rfl, rfl, rfl, rfl⟩
      · simpa using h.additions
      · simp [h.labels, label, labelOf, h.part_number, h.part_name, h.part_records, h.number]
      · simpa using hacc
      · simp [h.number]
      · have hs : Shelf.Steps ⟨closed.map contentOf, some (part.path, contentOf current)⟩
            ([⟨.part (.close part.path), .ok size⟩] ++ (waits.map succeeded ++
              [⟨.startUpload feed.scheduler.session
                ⟨part.number, part.name, part.path, part.records, size⟩, ticket⟩]))
            ⟨closed.map contentOf ++ [contentOf current], none⟩ :=
          Shelf.Steps.append (.one .closed)
            ((Shelf.steps_succeeded waits).append (.one (.handedOver rfl)))
        simpa using h.shelf.append hs

/-- A record joins the open part, which is handed over when its size reaches the bound. -/
theorem packs_of_putRecord {record : Packed} (h : Packs plan events feed closed current)
    (ht : Trace (putRecord plan feed record) ev (some (.done feed'))) :
    feed'.read = feed.read ∧ feed'.skipped = feed.skipped ∧ feed'.writers = feed.writers ∧
      ∃ size,
        (size < plan.partSize ∧
          Packs plan (events ++ ev) feed' closed (current ++ [⟨record, size⟩])) ∨
        (plan.partSize ≤ size ∧
          Packs plan (events ++ ev) feed' (closed ++ [current ++ [⟨record, size⟩]]) []) := by
  obtain ⟨first, ⟨part, opened⟩, rest, rfl, h₁, h₂⟩ := Trace.of_bind_done ht
  obtain ⟨hh, hread, hskipped, hwriters⟩ := holding_of_openPart h h₁
  obtain ⟨second, r, last, rfl, h₃, h₄⟩ := Trace.of_bind_done h₂
  rw [← List.append_assoc, ← List.append_assoc]
  cases r with
  | error fault => exact absurd h₄ Trace.not_throw_done
  | ok part' =>
    have hadd := hh.add h₃
    simp only at h₄
    split at h₄
    next hfull =>
      obtain ⟨hi, hpart, hr, hs, hw⟩ := idle_of_handOver (by simp) hadd h₄
      refine ⟨hr.trans hread, hs.trans hskipped, hw.trans hwriters, part'.size,
        Or.inr ⟨hfull, ?_⟩⟩
      unfold Packs
      rw [hpart]
      exact ⟨rfl, by simpa using hi⟩
    next hbelow =>
      obtain ⟨rfl, rfl⟩ := Trace.of_pure_done h₄
      refine ⟨hread, hskipped, hwriters, part'.size, Or.inl ⟨by omega, ?_⟩⟩
      refine ⟨by simp, ⟨⟨?_, ?_, ?_⟩, hadd.number, hadd.part_number, hadd.part_name,
        hadd.part_records, ?_⟩⟩
      · simpa using hadd.additions
      · simpa using hadd.labels
      · simpa using hadd.accounts
      · simpa using hadd.shelf

end Feed

end BulkLoad.Import
