import BulkLoad.Proofs.Import.Packing
import BulkLoad.Proofs.Import.Requests
import Mathlib.Data.List.Infix

/-!
# Feeding rows in

Rows that can be written become the entries of the parts, in their order, and rows that cannot are
counted (`Fed`). When all rows are fed in, each part has been handed over, and each but the last was
closed when it was `Full` (`AllFed`).
-/

namespace BulkLoad.Import

open Program (Trace)

/-- The records of the rows that could be written. -/
def written (results : List (Except Record.Failure Packed)) : List Packed :=
  results.filterMap Except.toOption

/-- The number of rows that could not be written. -/
def refusals (results : List (Except Record.Failure Packed)) : Nat :=
  results.countP fun result => !result.toOption.isSome

namespace Feed

variable {plan : Plan} {set : Record.WriterSet} {rows : List Row} {events ev : List Event}
  {feed feed' : Feed} {closed : List (List Entry)} {current : List Entry}

/-- What a feed has done with the rows so far. -/
structure Fed (plan : Plan) (set : Record.WriterSet) (rows : List Row) (events : List Event)
    (feed : Feed) (closed : List (List Entry)) (current : List Entry) : Prop where
  packs : Packs plan events feed closed current
  full : ∀ entries ∈ closed, Full plan.partSize entries
  below : ∀ e ∈ current, e.size < plan.partSize
  records : (closed.flatten ++ current).map Entry.record = written (set.writeAll rows)
  /-- The writers are those for the rows to come. -/
  onwards : ∀ more, set.writeAll (rows ++ more) =
    set.writeAll rows ++ feed.writers.writeAll more
  read : feed.read = rows.length
  skipped : feed.skipped = refusals (set.writeAll rows)

/-- The counts of rows do not matter for the parts. -/
theorem Packs.congr (h : Packs plan events feed closed current) (hp : feed'.part = feed.part)
    (hn : feed'.number = feed.number) (hs : feed'.scheduler = feed.scheduler) :
    Packs plan events feed' closed current := by
  unfold Packs at h ⊢
  rw [hp]
  cases hpart : feed.part with
  | none =>
    simp only [hpart] at h ⊢
    obtain ⟨hc, hi⟩ := h
    exact ⟨hc, ⟨⟨hi.additions, hi.labels, hs ▸ hi.accounts⟩, hn ▸ hi.number, hi.shelf⟩⟩
  | some part =>
    simp only [hpart] at h ⊢
    obtain ⟨hc, hh⟩ := h
    exact ⟨hc, ⟨⟨hh.additions, hh.labels, hs ▸ hh.accounts⟩, hn ▸ hh.number, hn ▸ hh.part_number,
      hn ▸ hh.part_name, hh.part_records, hh.shelf⟩⟩

/-- One more result comes after those of the rows before, and the writers go on from there. -/
theorem Fed.writeAll_snoc (h : Fed plan set rows events feed closed current) {row : Row}
    {result : Except Record.Failure Packed} {writers : Record.WriterSet}
    (hrow : ∀ more, feed.writers.writeAll (row :: more) = result :: writers.writeAll more) :
    set.writeAll (rows ++ [row]) = set.writeAll rows ++ [result] ∧
      ∀ more, set.writeAll (rows ++ [row] ++ more) =
        set.writeAll (rows ++ [row]) ++ writers.writeAll more := by
  have hone : set.writeAll (rows ++ [row]) = set.writeAll rows ++ [result] := by
    rw [h.onwards, hrow]
    rfl
  refine ⟨hone, fun more => ?_⟩
  rw [List.append_assoc, h.onwards, List.singleton_append, hrow, hone]
  simp

/-- A row that cannot be written is counted. -/
theorem Fed.refuse (h : Fed plan set rows events feed closed current) {row : Row}
    {e : Record.Failure} (hw : feed.writers.write row = .error e) :
    Fed plan set (rows ++ [row]) events
      { feed with read := feed.read + 1, skipped := feed.skipped + 1 } closed current := by
  obtain ⟨hone, honwards⟩ := h.writeAll_snoc fun more => by
    rw [Record.WriterSet.writeAll, hw]
  refine ⟨h.packs.congr rfl rfl rfl, h.full, h.below, ?_, honwards, ?_, ?_⟩
  · rw [hone, h.records]
    simp [written, Except.toOption]
  · simp [h.read]
  · rw [hone, h.skipped]
    simp [refusals, Except.toOption]

/-- A row that can be written becomes an entry. -/
theorem Fed.put (h : Fed plan set rows events feed closed current) {row : Row} {record : Packed}
    {writers : Record.WriterSet} (hw : feed.writers.write row = .ok (record, writers)) (size : Nat)
    {closed' : List (List Entry)} {current' : List Entry}
    (hp : Packs plan (events ++ ev) feed' closed' current')
    (hj : closed'.flatten ++ current' = (closed.flatten ++ current) ++ [⟨record, size⟩])
    (hf : ∀ entries ∈ closed', Full plan.partSize entries)
    (hb : ∀ e ∈ current', e.size < plan.partSize) (hread : feed'.read = feed.read + 1)
    (hskipped : feed'.skipped = feed.skipped) (hwriters : feed'.writers = writers) :
    Fed plan set (rows ++ [row]) (events ++ ev) feed' closed' current' := by
  subst hwriters
  obtain ⟨hone, honwards⟩ := h.writeAll_snoc fun more => by
    rw [Record.WriterSet.writeAll, hw]
  refine ⟨hp, hf, hb, ?_, honwards, ?_, ?_⟩
  · rw [hj, List.map_append, h.records, hone]
    simp [written, Except.toOption]
  · simp [hread, h.read]
  · rw [hskipped, hone, h.skipped]
    simp [refusals, Except.toOption]

/-- One more row becomes an entry, or is counted. -/
theorem Fed.takeRow {row : Row} (h : Fed plan set rows events feed closed current)
    (ht : Trace (takeRow plan feed row) ev (some (.done feed'))) :
    ∃ closed current, Fed plan set (rows ++ [row]) (events ++ ev) feed' closed current := by
  unfold Feed.takeRow at ht
  simp only at ht
  cases hw : feed.writers.write row with
  | error e =>
    cases e with
    | unwritable =>
      simp only [hw] at ht
      obtain ⟨_, _, _, rfl, -, ha⟩ := Trace.of_bind_done ht
      have ho := (Trace.of_aborted ha).2
      simp at ho
    | refused e =>
      simp only [hw] at ht
      split at ht
      · exact absurd ht Trace.not_throw_done
      · obtain ⟨rfl, rfl⟩ := Trace.of_pure_done ht
        rw [List.append_nil]
        exact ⟨closed, current, h.refuse hw⟩
  | ok result =>
    obtain ⟨record, writers⟩ := result
    simp only [hw] at ht
    have hp : Packs plan events { feed with read := feed.read + 1, writers } closed current :=
      h.packs.congr rfl rfl rfl
    obtain ⟨hread, hskipped, hwriters, size, ⟨hlt, hparts⟩ | ⟨hle, hparts⟩⟩ :=
      packs_of_putRecord hp ht
    · have hb : ∀ e ∈ current ++ [⟨record, size⟩], e.size < plan.partSize := by
        intro e he
        rcases List.mem_append.1 he with he | he
        · exact h.below e he
        · rw [List.mem_singleton.1 he]
          exact hlt
      exact ⟨_, _, h.put hw size hparts (by simp) h.full hb hread hskipped hwriters⟩
    · have hf : ∀ entries ∈ closed ++ [current ++ [⟨record, size⟩]],
          Full plan.partSize entries := by
        intro entries he
        rcases List.mem_append.1 he with he | he
        · exact h.full entries he
        · rw [List.mem_singleton.1 he]
          exact .of_below h.below hle
      exact ⟨_, _, h.put hw size hparts (by simp) hf (by simp) hread hskipped hwriters⟩

/-- What a feed has done when all rows are fed in. -/
structure AllFed (plan : Plan) (set : Record.WriterSet) (rows : List Row) (events : List Event)
    (feed : Feed) (parts : List (List Entry)) : Prop where
  idle : Idle plan events feed parts
  nonempty : ∀ entries ∈ parts, entries ≠ []
  /-- Each part but the last reaches the bound. -/
  full : ∀ entries ∈ parts.dropLast, Full plan.partSize entries
  /-- No part reaches it before its last record. -/
  below : ∀ entries ∈ parts, ∀ e ∈ entries.dropLast, e.size < plan.partSize
  records : parts.flatten.map Entry.record = written (set.writeAll rows)
  read : feed.read = rows.length
  skipped : feed.skipped = refusals (set.writeAll rows)

/-- The part that is open at the end is the last one. -/
theorem Fed.finish (h : Fed plan set rows events feed closed current)
    (ht : Trace (match feed.part with
      | some part => feed.handOver part
      | none => return feed) ev (some (.done feed'))) :
    ∃ parts, AllFed plan set rows (events ++ ev) feed' parts := by
  have hfull := h.full
  have hpacks := h.packs
  unfold Packs at hpacks
  cases hp : feed.part with
  | none =>
    simp only [hp] at hpacks ht
    obtain ⟨rfl, hi⟩ := hpacks
    obtain ⟨rfl, rfl⟩ := Trace.of_pure_done ht
    refine ⟨closed, by simpa using hi, fun entries he => ?_, ?_, ?_, ?_, h.read, h.skipped⟩
    · exact (hfull entries he).ne_nil
    · exact fun entries he => hfull entries (List.mem_of_mem_dropLast he)
    · exact fun entries he => (hfull entries he).below
    · simpa using h.records
  | some part =>
    simp only [hp] at hpacks ht
    obtain ⟨hc, hh⟩ := hpacks
    obtain ⟨hi, -, hread, hskipped, -⟩ := idle_of_handOver hc hh ht
    refine ⟨closed ++ [current], hi, ?_, ?_, ?_, ?_, hread.trans h.read,
      hskipped.trans h.skipped⟩
    · intro entries he
      rcases List.mem_append.1 he with he | he
      · exact (hfull entries he).ne_nil
      · rw [List.mem_singleton.1 he]
        exact hc
    · simpa using hfull
    · intro entries he
      rcases List.mem_append.1 he with he | he
      · exact (hfull entries he).below
      · rw [List.mem_singleton.1 he]
        exact fun e hd => h.below e (List.mem_of_mem_dropLast hd)
    · simpa using h.records

/-- Rows are fed in one after the other, when none of them fails. -/
theorem Fed.takeRows : ∀ {more : List (Except RowFault Row)} {rows : List Row}
    {events ev : List Event} {feed : Feed} {closed : List (List Entry)} {current : List Entry},
    Fed plan set rows events feed closed current →
      Trace (takeRows plan feed more) ev (some (.done feed')) →
        ∃ taken parts, more = taken.map .ok ∧
          AllFed plan set (rows ++ taken) (events ++ ev) feed' parts
  | [], rows, events, ev, feed, closed, current, h, ht => by
    obtain ⟨parts, hparts⟩ := h.finish ht
    exact ⟨[], parts, rfl, by simpa using hparts⟩
  | .error fault :: _, rows, events, ev, feed, closed, current, h, ht =>
    absurd ht Trace.not_throw_done
  | .ok row :: more, rows, events, ev, feed, closed, current, h, ht => by
    unfold Feed.takeRows at ht
    obtain ⟨cancelled, rest, rfl, h₁⟩ := Trace.of_query_bind_done ht
    obtain ⟨-, h₂⟩ := Trace.of_require_bind_done h₁
    obtain ⟨first, next, last, rfl, h₃, h₄⟩ := Trace.of_bind_done h₂
    have hc : Fed plan set rows (events ++ [⟨.cancelled, cancelled⟩]) feed closed current :=
      ⟨h.packs.aside (by simp) (by simp) _, h.full, h.below, h.records, h.onwards, h.read,
        h.skipped⟩
    obtain ⟨closed', current', hrow⟩ := hc.takeRow h₃
    obtain ⟨taken, parts, rfl, hall⟩ := hrow.takeRows h₄
    exact ⟨row :: taken, parts, rfl, by simpa using hall⟩

/-! ## All rows -/

/-- What was uploaded when all rows are fed in and all uploads have succeeded. -/
structure Uploaded (plan : Plan) (set : Record.WriterSet) (session : String) (rows : List Row)
    (events : List Event) (feed : Feed) (summary : Summary) (parts : List (List Entry)) :
    Prop where
  nonempty : ∀ entries ∈ parts, entries ≠ []
  full : ∀ entries ∈ parts.dropLast, Full plan.partSize entries
  below : ∀ entries ∈ parts, ∀ e ∈ entries.dropLast, e.size < plan.partSize
  records : parts.flatten.map Entry.record = written (set.writeAll rows)
  additions : additions events = parts.flatten.map fun e => (e.record.encode, e.size)
  labels : (launches events).map labelOf = parts.mapIdx (label plan.stem)
  /-- Each part was uploaded into the session, and the import was told that it succeeded. -/
  succeeded : ∀ launch ∈ launches events, launch.1 = session ∧ succeeded launch.2 ∈ events
  shelf : Shelf.Steps {} events ⟨parts.map contentOf, none⟩
  read : feed.read = rows.length
  skipped : feed.skipped = refusals (set.writeAll rows)
  parts_eq : summary.parts = parts.length
  records_eq : summary.records = parts.flatten.length

theorem fed_start {session : String} {limit : Nat} :
    Fed plan set [] [] { scheduler := .start session limit, writers := set } [] [] := by
  refine ⟨⟨rfl, ⟨rfl, rfl, [], rfl, by simp, rfl⟩, rfl, .nil⟩, by simp, by simp, rfl, ?_, rfl, rfl⟩
  intro more
  rfl

theorem map_mapIdx_label (stem : String) (parts : List (List Entry)) :
    (parts.mapIdx (label stem)).map (fun label => label.2.2) = parts.map List.length := by
  refine List.ext_getElem? fun i => ?_
  simp [label, Function.comp_def]

/-- When the rows are uploaded, all of them were fed in, and each part has been accepted. -/
theorem uploaded_of_upload {session : String} {limit : Nat} {rows : List (Except RowFault Row)}
    {summary : Summary}
    (h : Trace (upload plan { scheduler := .start session limit, writers := set } rows) events
      (some (.done (feed, summary)))) :
    ∃ taken parts, rows = taken.map .ok ∧
      Uploaded plan set session taken events feed summary parts := by
  obtain ⟨feeding, r, rest, rfl, h₁, h₂⟩ := Trace.of_bind_done h
  rcases Trace.of_attempt_done h₁ with ⟨fed, rfl, hrows⟩ | ⟨setback, rfl, -⟩
  · obtain ⟨finishing, total, last, rfl, h₃, h₄⟩ := Trace.of_bind_done h₂
    obtain ⟨rfl, ho⟩ := Trace.of_pure_done h₄
    obtain ⟨rfl, rfl⟩ : feed = fed ∧ summary = total := by simpa using ho
    have hkeeps : (takeRows plan { scheduler := .start session limit, writers := set } rows).Keeps
        (Uploading session) fun after => after.scheduler.session = session :=
      keeps_takeRows rfl
    have hsession := (hkeeps.of_trace hrows).2 feed rfl
    obtain ⟨taken, parts, rfl, hall⟩ := fed_start.takeRows hrows
    simp only [List.nil_append, List.append_nil] at hall ⊢
    obtain ⟨⟨waits, rfl⟩, settled, hl, hw, rfl⟩ := Scheduler.of_finish h₃ hall.idle.accounts
    rw [hsession] at hl
    have hlabels : settled.map (fun upload => labelOf (session, upload)) =
        parts.mapIdx (label plan.stem) := by
      have h := hall.idle.labels
      rw [launches_append, launches_succeeded, List.append_nil] at hl
      rw [hl, List.map_map] at h
      exact h
    refine ⟨taken, parts, rfl, hall.nonempty, hall.full, hall.below, hall.records, ?_, ?_, ?_, ?_,
      hall.read, hall.skipped, ?_, ?_⟩
    · simpa using hall.idle.additions
    · simpa using hall.idle.labels
    · intro launch hm
      rw [hl] at hm
      obtain ⟨upload, hu, rfl⟩ := List.mem_map.1 hm
      exact ⟨rfl, hw upload hu⟩
    · exact hall.idle.shelf.append (Shelf.steps_succeeded waits)
    · have hlen := congrArg List.length hlabels
      rw [Summary.addAll_eq]
      simpa using hlen
    · have hcounts := congrArg (List.map fun label => label.2.2) hlabels
      rw [map_mapIdx_label, List.map_map] at hcounts
      rw [Summary.addAll_eq, List.length_flatten, ← hcounts]
      exact Nat.zero_add _
  · obtain ⟨_, _, _, -, -, h₃⟩ := Trace.of_bind_done h₂
    obtain ⟨_, _, _, -, -, h₄⟩ := Trace.of_bind_done h₃
    exact absurd h₄ Trace.not_throw_done

end Feed

end BulkLoad.Import
