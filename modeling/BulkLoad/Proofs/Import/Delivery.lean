import BulkLoad.Proofs.Import.Contents
import BulkLoad.Proofs.Import.Player
import BulkLoad.Proofs.Import.Stages

/-!
# The delivery of rows

When rows are uploaded, the service has each record once and in the order of the rows, however the
uploads went on beside the import and whatever sizes the part files had (`Delivered`) : what an
upload sends is the content of its part, and each part is accepted once.
-/

namespace BulkLoad.Import

open Program (Trace)

variable {client : Api.Client} {s : Settings} {schema : Schema}
  {source : List (Except RowFault Row)} {log : List Happening} {swap : Bool} {report : Report}

/-- The request that sends the part of a number. -/
def delivering (session stem : String) (number : Nat) (path : String) : Api.Request :=
  ⟨.put, .partUpload session (Part.name stem number), .file path⟩

/-- What was delivered of some rows, part by part. -/
structure Delivered (s : Settings) (writers : Record.WriterSet) (rows : List Row)
    (log : List Happening) (report : Report) (stem : String) (parts : List (List Entry)) :
    Prop where
  ofSettings : ∀ given, s.partStem = some given → stem = given
  nonempty : ∀ entries ∈ parts, entries ≠ []
  /-- One after the other, the parts have the records of the rows that could be written. -/
  records : parts.flatten.map Entry.record = written (writers.writeAll rows)
  /-- The parts are numbered from one on. -/
  names : (launches (own log)).map (fun launch => (launch.1, launch.2.file.name)) =
    parts.mapIdx fun i _ => (report.session, Part.name stem (i + 1))
  /-- Each attempt to send a part sends its records, under its name. -/
  sent : ∀ ticket content request reply,
    .beside ticket content ⟨.api (.send request), reply⟩ ∈ log → ∃ entries path,
      parts[ticket]? = some entries ∧ content = some (contentOf entries) ∧
      request = delivering report.session stem (ticket + 1) path
  /-- One attempt for each part is accepted. -/
  accepted : ∀ ticket < parts.length, ∃ path reply, (beside ticket log).filter Upload.accepted =
    [⟨.api (.send (delivering report.session stem (ticket + 1) path)), reply⟩]
  /-- The sizes are those of the open part after each record. -/
  sizes : additions (own log) = parts.flatten.map fun e => (e.record.encode, e.size)
  full : ∀ entries ∈ parts.dropLast, Full s.partSize entries
  below : ∀ entries ∈ parts, ∀ e ∈ entries.dropLast, e.size < s.partSize
  rowsRead : report.rowsRead = rows.length
  rowsSkipped : report.rowsSkipped = refusals (writers.writeAll rows)
  recordsUploaded : report.recordsUploaded = report.rowsRead - report.rowsSkipped
  partsUploaded : report.parts = parts.length

/-! ## Rows and records -/

theorem length_writeAll : ∀ (set : Record.WriterSet) (rows : List Row),
    (set.writeAll rows).length = rows.length
  | _, [] => rfl
  | set, row :: rest => by
    unfold Record.WriterSet.writeAll
    split <;> simp [length_writeAll _ rest]

/-- Each result is a record or a refusal. -/
theorem length_written (results : List (Except Record.Failure Packed)) :
    (written results).length + refusals results = results.length := by
  rw [written, List.length_filterMap_eq_countP, refusals,
    List.length_eq_countP_add_countP fun result : Except Record.Failure Packed =>
      result.toOption.isSome]
  exact congrArg _ (List.countP_congr fun result _ => by simp)

/-! ## What comes before the rows are fed in -/

theorem additions_of_aside {events : List Event} (h : ∀ e ∈ events, e.1.isAside) :
    additions events = [] := by
  refine List.filterMap_eq_nil_iff.2 fun e he => ?_
  have ha := h e he
  obtain ⟨q, a⟩ := e
  cases q with
  | part => exact ha.elim
  | _ => rfl

theorem Shelf.steps_of_aside {shelf : Shelf} {events : List Event}
    (h : ∀ e ∈ events, e.1.isAside) : Steps shelf events shelf := by
  refine .aside fun e he => ?_
  have ha := h e he
  obtain ⟨q, a⟩ := e
  constructor
  · rintro part rfl
    exact ha
  · rintro session file rfl
    exact ha

/-- Rows that are loaded are fed in after a destination was prepared and a session was opened. -/
theorem upload_of_load {events : List Event}
    (h : Trace (load client s schema source) events (some (.done (swap, report))))
    (hu : report.uploaded = true) :
    ∃ writers stem leading feeding feed summary, events = leading ++ feeding ∧
      (∀ e ∈ leading, e.1.isAside) ∧ Record.WriterSet.resolve schema s.record = .ok writers ∧
      (∀ given, s.partStem = some given → stem = given) ∧
      Trace (Feed.upload ⟨s.directory, stem, s.partSize, s.stopOnInvalid⟩
        { scheduler := .start report.session s.uploads, writers } source) feeding
          (some (.done (feed, summary))) ∧
      report.rowsRead = feed.read ∧ report.rowsSkipped = feed.skipped ∧
      report.parts = summary.parts ∧ report.recordsUploaded = summary.records := by
  rcases of_load h with
    ⟨-, hn⟩ | ⟨preparing, staging, writers, session, swap', rfl, hq, hw, -, result, h₁, hr⟩
  · exact absurd rfl (hn _)
  rcases hr with ⟨report', rfl, ho⟩ | hstop
  · obtain ⟨-, rfl⟩ : swap = swap' ∧ report = report' := by simpa using ho
    rcases of_uploadInto h₁ with
      ⟨-, hsame⟩ | ⟨opening, feeding, rfl, hs, -, result, h₂, hr⟩
    · rw [hsame report rfl] at hu
      simp at hu
    · rcases hr with ⟨feed, summary, rfl, ho⟩ | hstop
      · obtain rfl : report = _ := by simpa using ho
        obtain ⟨naming, stem, feeding, rfl, hnaming, hstem, h₃⟩ := upload_of_uploadRows h₂
        refine ⟨writers, stem, preparing ++ opening ++ naming, feeding, feed, summary, by simp, ?_,
          hw, hstem, h₃, rfl, rfl, rfl, rfl⟩
        simp only [List.forall_mem_append]
        exact ⟨⟨fun e he => (hq e he).1, fun e he => (hs e he).1⟩, hnaming⟩
      · exact absurd rfl (hstop.ne_done _)
  · exact absurd rfl (hstop.ne_done _)

/-! ## All parts -/

section Parts

variable {writers : Record.WriterSet} {rows : List Row} {stem session : String} {plan : Feed.Plan}
  {leading feeding : List Event} {feed : Feed} {summary : Summary} {parts : List (List Entry)}

/-- The upload with a ticket is that of the part with the number. -/
theorem Feed.part_of_launch
    (h : Uploaded plan writers session rows feeding feed summary parts) {ticket : Nat}
    {launch : String × Started} (hl : (launches feeding)[ticket]? = some launch) :
    ∃ entries, parts[ticket]? = some entries ∧ launch.1 = session ∧
      launch.2.file.name = Part.name plan.stem (ticket + 1) ∧ succeeded launch.2 ∈ feeding := by
  have hlabel : ((launches feeding).map labelOf)[ticket]? = some (labelOf launch) := by
    rw [List.getElem?_map, hl]
    rfl
  rw [h.labels, List.getElem?_mapIdx] at hlabel
  obtain ⟨hsession, hsucceeded⟩ := h.succeeded launch (List.mem_of_getElem? hl)
  cases hp : parts[ticket]? with
  | none => simp [hp] at hlabel
  | some entries =>
    rw [hp] at hlabel
    have hname := congrArg (fun label => label.2.1) (Option.some.inj hlabel)
    exact ⟨entries, rfl, hsession, hname.symm, hsucceeded⟩

theorem Feed.length_launches
    (h : Uploaded plan writers session rows feeding feed summary parts) :
    (launches feeding).length = parts.length := by
  have hlen := congrArg List.length h.labels
  simpa using hlen

/-- The parts are uploaded under the stem, numbered from one on. -/
theorem Feed.names_of_launches
    (h : Uploaded plan writers session rows feeding feed summary parts) :
    (launches feeding).map (fun launch => (launch.1, launch.2.file.name)) =
      parts.mapIdx fun i _ => (session, Part.name plan.stem (i + 1)) := by
  refine List.ext_getElem? fun i => ?_
  rw [List.getElem?_map, List.getElem?_mapIdx]
  cases hl : (launches feeding)[i]? with
  | none =>
    rw [List.getElem?_eq_none_iff, Feed.length_launches h] at hl
    rw [List.getElem?_eq_none hl]
    rfl
  | some launch =>
    obtain ⟨entries, he, hsession, hname, -⟩ := Feed.part_of_launch h hl
    simp [he, hsession, hname]

variable {files : Files} {scene : Scene} (hp : Path client ⟨[], files⟩ log scene)
  (hup : Feed.Uploaded plan writers session rows feeding feed summary parts)
  (hlaunches : launches (own log) = launches feeding)
include hp hup hlaunches

/-- What an upload sends is the content of its part. -/
theorem Path.delivers (hshelf : Shelf.Steps {} (own log) ⟨parts.map contentOf, none⟩)
    {ticket : Nat} {content : Option (List UInt8)} {request : Api.Request} {reply : Api.Reply}
    (hm : .beside ticket content ⟨.api (.send request), reply⟩ ∈ log) :
    ∃ entries path, parts[ticket]? = some entries ∧ content = some (contentOf entries) ∧
      request = delivering session plan.stem (ticket + 1) path := by
  obtain ⟨before, after, rfl⟩ := List.append_of_mem hm
  obtain ⟨hlt, hcontent⟩ := hp.content_of_sent hshelf
  obtain ⟨other, file, rfl, hstart, -⟩ := hp.of_sent
  have hl : (other, ⟨ticket, file⟩) ∈ launches (own (before ++
      .beside ticket content ⟨.api (.send (Upload.sending other file)), reply⟩ :: after)) := by
    rw [own_append, launches_append]
    exact List.mem_append_left _ (mem_launches.2 hstart)
  have hat := (Tracked.of_path hp).launch_at hl
  rw [hlaunches] at hat
  obtain ⟨entries, he, rfl, hname, -⟩ := Feed.part_of_launch hup hat
  refine ⟨entries, file.path, he, ?_, ?_⟩
  · rw [hcontent, List.getElem?_map, he]
    rfl
  · rw [Upload.sending, hname, delivering]

/-- Each part is accepted once. -/
theorem Path.delivered_once (hsub : feeding ⊆ own log) {ticket : Nat}
    (hlt : ticket < parts.length) :
    ∃ path reply, (beside ticket log).filter Upload.accepted =
      [⟨.api (.send (delivering session plan.stem (ticket + 1) path)), reply⟩] := by
  obtain ⟨launch, hl⟩ : ∃ launch, (launches feeding)[ticket]? = some launch :=
    ⟨_, List.getElem?_eq_getElem (Feed.length_launches hup ▸ hlt)⟩
  obtain ⟨entries, he, hsession, hname, hsucceeded⟩ := Feed.part_of_launch hup hl
  rw [← hlaunches] at hl
  have hticket := (Tracked.of_path hp).ticket_eq hl
  have hm : (⟨.awaitUpload ticket, .uploaded⟩ : Event) ∈ own log := by
    rw [← hticket]
    exact hsub hsucceeded
  obtain ⟨other, file, reply, hl', hf⟩ := hp.filter_accepted hm
  rw [hl', Option.some.injEq] at hl
  subst hl
  obtain rfl : other = session := hsession
  exact ⟨file.path, reply, by rw [hf, Upload.sending, hname, delivering]⟩

end Parts

/-- When rows are uploaded, each record is delivered once, in the order of the rows, however the
uploads go on beside the import and whatever sizes the part files have. -/
theorem delivered_of_load
    (h : Run client (load client s schema source) log (some (.done (swap, report))))
    (hu : report.uploaded = true) :
    ∃ writers rows stem parts, Record.WriterSet.resolve schema s.record = .ok writers ∧
      source = rows.map .ok ∧ Delivered s writers rows log report stem parts := by
  obtain ⟨⟨files, scene, hp⟩, ht⟩ := h
  obtain ⟨writers, stem, leading, feeding, feed, summary, hown, haside, hw, hstem, hupload, hread,
    hskipped, hparts, hrecords⟩ := upload_of_load ht hu
  obtain ⟨rows, parts, rfl, hup⟩ := Feed.uploaded_of_upload hupload
  have hlaunches : launches (own log) = launches feeding := by
    rw [hown, launches_append, launches_of_aside haside, List.nil_append]
  have hadditions : additions (own log) = additions feeding := by
    rw [hown, additions_append, additions_of_aside haside, List.nil_append]
  have hshelf : Shelf.Steps {} (own log) ⟨parts.map contentOf, none⟩ := by
    rw [hown]
    exact (Shelf.steps_of_aside haside).append hup.shelf
  have hsub : feeding ⊆ own log := by
    rw [hown]
    exact List.subset_append_right _ _
  refine ⟨writers, rows, stem, parts, hw, rfl, ?_⟩
  exact
    { ofSettings := hstem
      nonempty := hup.nonempty
      records := hup.records
      names := hlaunches ▸ Feed.names_of_launches hup
      sent := fun _ _ _ _ hm => hp.delivers hup hlaunches hshelf hm
      accepted := fun _ hlt => hp.delivered_once hup hlaunches hsub hlt
      sizes := hadditions.trans hup.additions
      full := hup.full
      below := hup.below
      rowsRead := hread.trans hup.read
      rowsSkipped := hskipped.trans hup.skipped
      recordsUploaded := by
        have hlen := length_written (writers.writeAll rows)
        rw [length_writeAll, ← hup.records, List.length_map] at hlen
        rw [hrecords, hup.records_eq, hread, hup.read, hskipped, hup.skipped]
        omega
      partsUploaded := hparts.trans hup.parts_eq }

/-! ## Two parts -/

/-- Settings under which two records make a part. -/
def halving : Settings where
  database := "d"
  table := "t"
  session := some "s"
  partSize := 10
  partStem := some "p"

/-- Four rows, of which the second has no partition key. -/
def halvedRows : List (Except RowFault Row) :=
  [.ok [.long 1], .ok [.null], .ok [.long 2], .ok [.long 3]]

/-- The rows are loaded into a session that takes parts. -/
def halved : List Happening × Option (Outcome Error (Bool × Report)) :=
  play SessionDriver.careful.client (attended SessionDriver.careful.client)
    (load SessionDriver.careful.client halving ⟨[⟨"time", .long⟩]⟩ halvedRows) ⟨[], fun _ => none⟩
    { service := ⟨[⟨"GET *", [SessionDriver.told "t" "uploading"]⟩, ⟨"P*", [{}]⟩], []⟩
      moment := SessionDriver.epoch }

/-- Whether rows were uploaded in two parts, and one row was skipped. -/
def isHalved : Option (Outcome Error (Bool × Report)) → Bool
  | some (.done (_, report)) => report.uploaded && report.parts == 2 && report.rowsSkipped == 1
  | _ => false

theorem delivered_halved :
    ∃ swap report, halved.2 = some (.done (swap, report)) ∧ report.uploaded = true ∧
      report.parts = 2 ∧ report.rowsSkipped = 1 ∧ ∃ writers rows stem parts,
        Record.WriterSet.resolve ⟨[⟨"time", .long⟩]⟩ halving.record = .ok writers ∧
        halvedRows = rows.map .ok ∧
        Delivered halving writers rows halved.1 report stem parts := by
  have hrun : Run _ _ halved.1 halved.2 := run_of_play _ _ _ _
  have hdone : isHalved halved.2 = true := by decide +kernel
  unfold isHalved at hdone
  split at hdone
  next swap report ho =>
    obtain ⟨⟨hu, hparts⟩, hskipped⟩ : (report.uploaded = true ∧ report.parts = 2) ∧
        report.rowsSkipped = 1 := by
      simpa using hdone
    rw [ho] at hrun
    exact ⟨swap, report, ho, hu, hparts, hskipped, delivered_of_load hrun hu⟩
  next => simp at hdone

end BulkLoad.Import
