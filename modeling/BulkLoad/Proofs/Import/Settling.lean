import BulkLoad.Proofs.Import.Ledger
import BulkLoad.Proofs.Import.Tracking
import Mathlib.Data.List.Basic

/-!
# Uploads that are over

The ledger of a scheduler beside the scene of its uploads. An upload that the scheduler was told of
is over, and ended as it was told; the uploads are told of in the order in which they were started
(`Ledger.uploads`), so the others are those on their way. While a scheduler makes no file, a file
that is removed stays so, and an upload that is over has removed its own (`Path.gone`).
-/

namespace BulkLoad.Import

open Program (Trace Leads)

variable {client : Api.Client} {files : Files} {log : List Happening} {scene : Scene}

/-- What an upload has ended with, if it is over. -/
def Running.ending? (running : Running) : Option Upload.Ending :=
  match running.rest with
  | .done ending => some ending
  | _ => none

/-! ## From the start of an upload to its end -/

/-- An upload that has not removed its file yet is not over. -/
theorem Upload.exists_ask {session : String} {file : Part.File}
    {events : List (Program.Event Upload.Answer)}
    {rest : Program Upload.Answer Empty Upload.Ending}
    (h : Leads (task client session file) events rest)
    (hl : ∀ path, events.getLast? ≠ some ⟨.part (.remove path), ()⟩) :
    ∃ q next, rest = .ask q next := by
  obtain ⟨outcome, ht⟩ := Program.exists_trace rest
  obtain ⟨inner, result, tail, he, -, htail, -⟩ := of_task (h.trace ht)
  rcases htail with ⟨-, rfl⟩ | ⟨rfl, -⟩
  · cases ht
    exact ⟨_, _, rfl⟩
  · rw [List.append_nil] at he
    exact absurd (by simp [he]) (hl file.path)

theorem Upload.task_ask (client : Api.Client) (session : String) (file : Part.File) :
    ∃ q next, task client session file = .ask q next :=
  exists_ask (.refl _) (by simp)

/-- An upload that has called the service is not over. -/
theorem Tracked.called (h : Tracked client log scene) {ticket : Nat} {file : Part.File}
    {q : Api.Question} {next : Api.Answer q → Program Upload.Answer Empty Upload.Ending}
    (hu : scene.uploads[ticket]? = some ⟨file, .ask (.api q) next⟩) (a : Api.Answer q) :
    ∃ q' next', next a = .ask q' next' := by
  obtain ⟨session, rest, -, hd, he⟩ := h.left ticket _ hu
  obtain rfl : .ask (.api q) next = rest := by simpa using he
  exact Upload.exists_ask (hd.snoc a) (by simp)

/-- An upload whose ending the import was told is over. -/
theorem Path.over_of_awaited {start : Scene} {ticket : Nat} {ending : Upload.Ending}
    (h : Path client start log scene) (hm : (ticket, ending) ∈ awaits (own log)) :
    ∃ file, scene.uploads[ticket]? = some ⟨file, .done ending⟩ := by
  obtain ⟨before, after, rfl⟩ := List.append_of_mem (mem_own.1 (mem_awaits.1 hm))
  obtain ⟨found, next, -, m, hafter⟩ := h.move_at
  obtain ⟨rfl, file, hu⟩ := m.of_awaited
  exact ⟨file, hafter.over hu⟩

/-! ## The uploads of a ledger -/

namespace Scheduler.Ledger

variable {s : Scheduler} {settled : List (Started × Upload.Ending)}

/-- The ticket of an upload that was told of is its number, and the upload ended as it was told. -/
theorem upload_at (h : Ledger (own log) s settled) (hp : Path client ⟨[], files⟩ log scene)
    {n : Nat} {upload : Started} {ending : Upload.Ending}
    (hn : settled[n]? = some (upload, ending)) :
    upload.ticket = n ∧ scene.uploads[n]? = some ⟨upload.file, .done ending⟩ := by
  have hlt := (List.getElem?_eq_some_iff.1 hn).1
  have hlaunch : (launches (own log))[n]? = some (s.session, upload) := by
    rw [h.started, List.getElem?_map, List.getElem?_append_left (by simpa using hlt),
      List.getElem?_map, hn]
    rfl
  have ht := (Tracked.of_path hp).ticket_eq hlaunch
  have hm : (n, ending) ∈ awaits (own log) := by
    rw [h.awaited, ← ht]
    exact List.mem_map.2 ⟨_, List.mem_of_getElem? hn, rfl⟩
  obtain ⟨file, hu⟩ := hp.over_of_awaited hm
  obtain ⟨session, rest, hl, -⟩ := (Tracked.of_path hp).left n _ hu
  obtain ⟨-, rfl⟩ : s.session = session ∧ upload = ⟨n, file⟩ := by simpa [hlaunch] using hl
  exact ⟨rfl, hu⟩

theorem length_uploads (h : Ledger (own log) s settled) (hp : Path client ⟨[], files⟩ log scene) :
    scene.uploads.length = settled.length + s.outstanding.length := by
  have hlen := (Tracked.of_path hp).length
  rw [h.started] at hlen
  simpa [eq_comm] using hlen

/-- The first uploads are those that were told of. -/
theorem uploads (h : Ledger (own log) s settled) (hp : Path client ⟨[], files⟩ log scene) :
    scene.uploads.take settled.length =
      settled.map fun upload => ⟨upload.1.file, .done upload.2⟩ := by
  refine List.ext_getElem? fun n => ?_
  rcases Nat.lt_or_ge n settled.length with hn | hn
  · have hsettled := List.getElem?_eq_getElem hn
    rw [List.getElem?_take_of_lt hn, (h.upload_at hp hsettled).2, List.getElem?_map, hsettled]
    rfl
  · rw [List.getElem?_eq_none (Nat.le_trans (List.length_take_le _ _) hn),
      List.getElem?_eq_none (by simpa using hn)]

/-- When nothing is on its way, all uploads were told of. -/
theorem uploads_of_empty (h : Ledger (own log) s settled) (hp : Path client ⟨[], files⟩ log scene)
    (hempty : s.outstanding = []) :
    scene.uploads = settled.map fun upload => ⟨upload.1.file, .done upload.2⟩ := by
  have hlen := h.length_uploads hp
  rw [hempty] at hlen
  rw [← h.uploads hp, List.take_of_length_le (by simp [hlen])]

theorem over_of_empty (h : Ledger (own log) s settled) (hp : Path client ⟨[], files⟩ log scene)
    (hempty : s.outstanding = []) : ∀ running ∈ scene.uploads, running.ending?.isSome := by
  rw [h.uploads_of_empty hp hempty]
  exact List.forall_mem_map.2 fun _ _ => rfl

/-- The scheduler is told of each upload once, in the order in which they were started. -/
theorem tickets (h : Ledger (own log) s settled) (hp : Path client ⟨[], files⟩ log scene) :
    (awaits (own log)).map Prod.fst = List.range (awaits (own log)).length := by
  rw [h.awaited, List.map_map, List.length_map]
  refine List.ext_getElem (by simp) fun n hn _ => ?_
  have hlt : n < settled.length := by simpa using hn
  have hsettled := List.getElem?_eq_getElem hlt
  simpa using (h.upload_at hp hsettled).1

end Scheduler.Ledger

/-! ## What has landed -/

/-- The summary of some files. -/
def Summary.of (files : List Part.File) : Summary :=
  ⟨files.length, (files.map (·.records)).sum, (files.map (·.size)).sum⟩

theorem Summary.addAll_eq_of (uploads : List Started) :
    Summary.addAll {} uploads = Summary.of (uploads.map (·.file)) := by
  simp [addAll_eq, of, Function.comp_def]

/-- The files of the uploads that an import was told have succeeded. -/
def landed (log : List Happening) (scene : Scene) : List Part.File :=
  (awaits (own log)).filterMap fun told =>
    if told.2 = .uploaded then (scene.uploads[told.1]?).map (·.file) else none

/-- The summary of a scheduler is that of what has landed. -/
theorem Scheduler.Ledger.summary_eq {s : Scheduler} {settled : List (Started × Upload.Ending)}
    (h : Ledger (own log) s settled) (hp : Path client ⟨[], files⟩ log scene) :
    s.summary = Summary.of (landed log scene) := by
  have hlanded : landed log scene =
      ((settled.filter (·.2 = .uploaded)).map Prod.fst).map (·.file) := by
    rw [landed, h.awaited, List.filterMap_map, List.map_map, ← List.filterMap_eq_map,
      List.filterMap_filter]
    refine List.filterMap_congr fun upload hm => ?_
    obtain ⟨n, hn⟩ := List.getElem?_of_mem hm
    obtain ⟨ht, hu⟩ := h.upload_at hp hn
    by_cases he : upload.2 = .uploaded <;> simp [he, ht, hu]
  rw [h.summary, Summary.addAll_eq_of, hlanded]

/-! ## Files that are gone -/

/-- A question that a scheduler asks : it starts uploads, waits for them, or removes a file. -/
def Question.handles : Question → Prop
  | .startUpload .. | .awaitUpload _ | .part (.remove _) => True
  | _ => False

/-- The file was removed by the import, or it is that of an upload that is over. -/
def Dropped (path : String) (log : List Happening) (scene : Scene) : Prop :=
  (⟨.part (.remove path), ()⟩ : Event) ∈ own log ∨
    ∃ running ∈ scene.uploads, running.file.path = path ∧ running.ending?.isSome

/-- An upload that goes on drops no other file than its own, and that one only when it is over. -/
theorem Dropped.of_goOn {path : String} {happening : Happening} {ticket : Nat} {file : Part.File}
    {rest : Program Upload.Answer Empty Upload.Ending} {left : Files}
    (hn : own [happening] = [])
    (h : Dropped path (log ++ [happening]) { scene.goOn ticket file rest with files := left }) :
    Dropped path log scene ∨ file.path = path ∧ (Running.ending? ⟨file, rest⟩).isSome := by
  rcases h with h | ⟨running, hm, hpath, hover⟩
  · exact Or.inl (Or.inl (by simpa [hn] using h))
  · rcases List.mem_or_eq_of_mem_set hm with hm | rfl
    · exact Or.inl (Or.inr ⟨running, hm, hpath, hover⟩)
    · exact Or.inr ⟨hpath, hover⟩

theorem Files.eq_none_of_removed {files : Files} {path removed : String}
    (h : path ≠ removed → files path = none) : Function.update files removed none path = none := by
  by_cases hr : path = removed
  · simp [hr]
  · exact (Function.update_of_ne hr _ _).trans (h hr)

/-- As long as no file is made, what was dropped is gone. -/
theorem Path.gone {path : String} (h : Path client ⟨[], files⟩ log scene)
    (hq : ∀ e ∈ own log, e.1.handles) (hd : Dropped path log scene) : scene.files path = none := by
  induction h with
  | nil => simp [Dropped, own] at hd
  | @snoc log scene scene' happening hp m ih =>
    have hq' : ∀ e ∈ own log, e.1.handles := fun e he => hq e (by simp [he])
    cases m with
    | @part q a files hs =>
      have hh : (Question.part q).handles := hq ⟨.part q, a⟩ (by simp)
      cases hs with
      | @removed removed =>
        refine Files.eq_none_of_removed fun hr => ih hq' ?_
        simpa [Dropped, hr] using hd
      | _ => exact hh.elim
    | started session file =>
      refine ih hq' (hd.imp (by simp) ?_)
      rintro ⟨running, hm, hpath, hover⟩
      rcases List.mem_append.1 hm with hm | hm
      · exact ⟨running, hm, hpath, hover⟩
      · obtain ⟨q, next, ht⟩ := Upload.task_ask client session file
        rw [List.mem_singleton.1 hm, Running.ending?, ht] at hover
        simp at hover
    | awaited hu => exact ih hq' (by simpa [Dropped] using hd)
    | @aside q ha a =>
      have hh : q.handles := hq ⟨q, a⟩ (by simp)
      cases q with
      | part | startUpload | awaitUpload => exact ha.elim
      | _ => exact hh.elim
    | called hu a =>
      obtain ⟨q', next', hn⟩ := (Tracked.of_path hp).called hu a
      rcases Dropped.of_goOn rfl hd with hd | ⟨-, hover⟩
      · exact ih hq' hd
      · simp [Running.ending?, hn] at hover
    | @worked ticket file q next a left hu hs =>
      obtain ⟨rfl, ending, -⟩ := (Tracked.of_path hp).worked hu a
      cases hs with
      | removed =>
        refine Files.eq_none_of_removed fun hr => ?_
        rcases Dropped.of_goOn rfl hd with hd | ⟨rfl, -⟩
        · exact ih hq' hd
        · exact absurd rfl hr
    | @crashed ticket file q next hu =>
      refine Files.eq_none_of_removed fun hr => ?_
      rcases Dropped.of_goOn rfl hd with hd | ⟨rfl, -⟩
      · exact ih hq' hd
      · exact absurd rfl hr

end BulkLoad.Import
