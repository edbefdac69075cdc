import BulkLoad.Proofs.Import.Feeding
import BulkLoad.Proofs.Import.Requests

/-!
# The stages of an import

The trace of an import, taken apart : what comes before the rows are fed in, the feeding, the
driving of the session, the rename and the deletion. Each stage is only reached when the ones
before it succeeded.
-/

namespace BulkLoad.Import

open Program (Trace Stopped Keeps)

variable {client : Api.Client} {s : Settings} {schema : Schema}
  {rows : List (Except RowFault Row)} {events : List Event}

/-! ## Opening a session -/

/-- The request that creates a session. -/
def creating (name database table : String) : Api.Request :=
  ⟨.post, .sessionCreate name database table, .empty⟩

/-- The session was created, if it was not there, and then shown to take parts for the table. -/
def Opened (name database table : String) (events : List Event) : Prop :=
  ∃ before created after looked shown,
    events = before ++ ⟨.api (.send (creating name database table)), created⟩ :: after ∧
    (⟨.api (.send (lookAt name)), looked⟩ : Event) ∈ after ∧ seen name looked = some shown ∧
    shown.database = database ∧ shown.table = table ∧ shown.status = .uploading ∧
    shown.frozen = false

theorem Opened.append {name database table : String} (h : Opened name database table events)
    (earlier later : List Event) : Opened name database table (earlier ++ events ++ later) := by
  obtain ⟨before, created, after, looked, shown, rfl, hm, hs⟩ := h
  exact ⟨earlier ++ before, created, after ++ later, looked, shown, by simp,
    List.mem_append_left _ hm, hs⟩

/-- A session that takes parts was opened. -/
theorem opened_of_start {d : SessionDriver} {name database table : String}
    (h : Trace (d.start name database table) events (some (.done true))) :
    Opened name database table events := by
  obtain ⟨first, r, rest, rfl, h₁, h₂⟩ := Trace.of_bind_done h
  obtain ⟨second, shown, rest, rfl, h₃, h₄⟩ := Trace.of_bind_done h₂
  obtain ⟨hown, h₅⟩ := Trace.of_require_bind_done h₄
  have hshown : shown.status = .uploading ∧ shown.frozen = false := by
    split at h₅
    next hs => exact ⟨hs, by simpa using (Trace.of_pure_done h₅).2⟩
    next => exact absurd h₅ Trace.not_throw_done
    next =>
      have hf := (Trace.of_pure_done h₅).2
      simp at hf
  obtain ⟨created, hcreated⟩ : ∃ created,
      (⟨.api (.send (creating name database table)), created⟩ : Event) ∈ first := by
    have hnoted : Noted name _ (notes name false first) _ := ⟨first, h₁, rfl⟩
    rcases SessionDriver.noted_call (by simp [lookAt]) hnoted with hn | ⟨-, ho⟩
    · exact sent_of_mem_notes (hn ▸ List.mem_singleton_self _)
    · simp at ho
  obtain ⟨looked, hlooked, hseen⟩ : ∃ looked,
      (⟨.api (.send (lookAt name)), looked⟩ : Event) ∈ second ∧ seen name looked = some shown := by
    rcases SessionDriver.noted_look ⟨second, h₃, rfl⟩ with ⟨s, hn, ho⟩ | ⟨-, ho⟩
    · obtain rfl : shown = s := by simpa using ho
      exact seen_of_mem_notes (hn ▸ List.mem_singleton_self _)
    · exact absurd rfl (ho shown)
  obtain ⟨before, after, rfl⟩ := List.append_of_mem hcreated
  have hnames : shown.database = database ∧ shown.table = table := by simpa using hown
  exact ⟨before, created, after ++ (second ++ rest), looked, shown, by simp,
    List.mem_append_right _ (List.mem_append_left _ hlooked), hseen, hnames.1, hnames.2, hshown⟩

/-! ## Loading -/

/-- The trace of an upload stage : the session is opened, and then the rows are fed in. -/
theorem of_uploadInto {d : SessionDriver} {loadTable : String} {writers : Record.WriterSet}
    {report : Report} {outcome : Option (Outcome Error Report)}
    (h : Trace (uploadInto s d loadTable writers rows report) events outcome) :
    ((∀ e ∈ events, Preparing e.1) ∧ ∀ after, outcome = some (.done after) → after = report) ∨
    ∃ opening feeding, events = opening ++ feeding ∧ (∀ e ∈ opening, Preparing e.1) ∧
      Opened report.session s.database loadTable opening ∧
      ∃ result, Trace (uploadRows s report.session writers rows) feeding result ∧
        ((∃ feed summary, result = some (.done (feed, summary)) ∧
          outcome = some (.done { report with
            uploaded := true
            rowsRead := feed.read
            rowsSkipped := feed.skipped
            parts := summary.parts
            recordsUploaded := summary.records
            bytesUploaded := summary.bytes })) ∨
        Stopped result outcome) := by
  rcases Trace.of_bind h with ⟨opening, takes, rest, rfl, h₁, h₂⟩ | ⟨stop, h₁, hs⟩
  · have hquiet := (keeps_start.of_trace h₁).1
    cases takes with
    | false =>
      obtain ⟨rfl, rfl⟩ := Trace.of_pure h₂
      exact Or.inl ⟨by simpa using hquiet, by simp⟩
    | true =>
      refine Or.inr ⟨opening, rest, rfl, hquiet, opened_of_start h₁, ?_⟩
      rcases Trace.of_bind h₂ with ⟨feeding, ⟨feed, summary⟩, last, rfl, h₃, h₄⟩ | ⟨stop, h₃, hs⟩
      · obtain ⟨rfl, rfl⟩ := Trace.of_pure h₄
        rw [List.append_nil]
        exact ⟨_, h₃, Or.inl ⟨feed, summary, rfl, rfl⟩⟩
      · exact ⟨stop, h₃, Or.inr hs⟩
  · exact Or.inl ⟨(keeps_start.of_trace h₁).1, fun after ho => absurd ho (hs.ne_done _)⟩

/-- The trace of a load : the destination is prepared, and then comes the upload stage. -/
theorem of_load {outcome : Option (Outcome Error (Bool × Report))}
    (h : Trace (load client s schema rows) events outcome) :
    ((∀ e ∈ events, Preparing e.1) ∧ ∀ a, outcome ≠ some (.done a)) ∨
    ∃ preparing staging writers session swap, events = preparing ++ staging ∧
      (∀ e ∈ preparing, Preparing e.1) ∧ Record.WriterSet.resolve schema s.record = .ok writers ∧
      (swap = true → s.mode = .replace) ∧
      ∃ result, Trace (uploadInto s (SessionDriver.ofSettings client s) (s.loadTable session)
          writers rows { session, database := s.database, table := s.table }) staging result ∧
        ((∃ report, result = some (.done report) ∧ outcome = some (.done (swap, report))) ∨
        Stopped result outcome) := by
  have hresolve : (Program.ofExcept ((Record.WriterSet.resolve schema s.record).mapError
      fun fault => .settings (.record fault)) : Work Error Record.WriterSet).Keeps Preparing
        fun writers => Record.WriterSet.resolve schema s.record = .ok writers :=
    Keeps.ofExcept fun _ hw => ok_of_mapError hw
  rcases hresolve.of_trace_bind h with ⟨ev₁, writers, rest, rfl, hq₁, hw, h₁⟩ | hstop
  · rcases keeps_chooseSession.of_trace_bind h₁ with
      ⟨ev₂, session, rest, rfl, hq₂, -, h₂⟩ | ⟨hq, hn⟩
    · rcases keeps_swapWanted.of_trace_bind h₂ with
        ⟨ev₃, swap, rest, rfl, hq₃, hswap, h₃⟩ | ⟨hq, hn⟩
      · rcases keeps_prepare.of_trace_bind h₃ with ⟨ev₄, u, rest, rfl, hq₄, -, h₄⟩ | ⟨hq, hn⟩
        · refine Or.inr ⟨ev₁ ++ ev₂ ++ ev₃ ++ ev₄, rest, writers, session, swap, by simp, ?_, hw,
            hswap, ?_⟩
          · simp only [List.forall_mem_append]
            exact ⟨⟨⟨hq₁, hq₂⟩, hq₃⟩, hq₄⟩
          · rcases Trace.of_bind h₄ with ⟨staging, report, last, rfl, h₅, h₆⟩ | ⟨stop, h₅, hs⟩
            · obtain ⟨rfl, rfl⟩ := Trace.of_pure h₆
              rw [List.append_nil]
              exact ⟨_, h₅, Or.inl ⟨report, rfl, rfl⟩⟩
            · exact ⟨stop, h₅, Or.inr hs⟩
        · refine Or.inl ⟨?_, hn⟩
          simp only [List.forall_mem_append]
          exact ⟨hq₁, hq₂, hq₃, hq⟩
      · refine Or.inl ⟨?_, hn⟩
        simp only [List.forall_mem_append]
        exact ⟨hq₁, hq₂, hq⟩
    · refine Or.inl ⟨?_, hn⟩
      simp only [List.forall_mem_append]
      exact ⟨hq₁, hq⟩
  · exact Or.inl hstop

/-! ## Concluding -/

/-- The request that puts a table in the place of another. -/
def swapping (database source destination : String) : Api.Request :=
  ⟨.post, .tableRename database source destination, .form "overwrite" "true"⟩

/-- The request that deletes a session. -/
def deleting (name : String) : Api.Request :=
  ⟨.post, .sessionDelete name, .empty⟩

theorem of_putInPlace {loadTable : String} {swap : Bool} {outcome : Option (Outcome Error Unit)}
    (h : Trace (putInPlace client s loadTable swap) events outcome) :
    ∃ call result, events = call.map ofCall ∧ (call ≠ [] → swap = true) ∧
      Api.Exchange (swapping s.database loadTable s.table) call result := by
  unfold putInPlace at h
  split at h
  next hs =>
    obtain ⟨call, r, rfl, hc, -⟩ := of_calling h
    obtain ⟨result, hx, -⟩ := Api.Client.exchange_of_perform hc
    exact ⟨call, result, rfl, fun _ => hs, hx⟩
  next =>
    rw [(Trace.of_pure h).1]
    exact ⟨[], none, rfl, by simp, .unsent⟩

/-- A call that may find nothing is not aborted. -/
theorem not_aborted_of_callingOrMissing {request : Api.Request}
    {outcome : Option (Outcome Error (Option Unit))}
    (h : Trace (callingOrMissing (client.perform request)) events outcome) (reason : Abort) :
    outcome ≠ some (.aborted reason) := by
  rintro rfl
  rcases Trace.of_bind h with ⟨_, r, _, -, -, h₂⟩ | ⟨stop, h₁, hs⟩
  · rcases (Trace.of_ofExcept h₂).2 with ⟨a, -, ho⟩ | ⟨e, -, ho⟩ <;> simp at ho
  · cases hs
    obtain ⟨call, result, -, hc, ho⟩ := of_attempting h₁
    obtain ⟨inner, hx, hr⟩ := Api.Client.exchange_of_perform hc
    rcases result with - | (u | e | reason')
    · simp at ho
    · simp [Outcome.attempt] at ho
    · simp [Outcome.attempt] at ho
    · rcases hr with ⟨body, -, hd⟩ | hs
      · simp at hd
      · cases hs
        exact hx.not_aborted _ rfl

/-- Deleting a session does not keep an import from its end. -/
theorem of_cleanUp {d : SessionDriver} {session : String} {outcome : Option (Outcome Error Unit)}
    (h : Trace (cleanUp s d session) events outcome) :
    outcome = none ∨ outcome = some (.done ()) := by
  unfold cleanUp at h
  split at h
  · rcases Trace.of_bind h with ⟨_, r, _, -, -, h₂⟩ | ⟨stop, h₁, hs⟩
    · exact Or.inr (Trace.of_pure h₂).2
    · obtain ⟨inner, hd, rfl⟩ := Trace.of_attempt h₁
      rcases inner with - | (u | e | reason)
      · cases hs
        exact Or.inl rfl
      · cases hs
      · cases hs
      · rcases Trace.of_bind hd with ⟨_, _, _, -, -, h₃⟩ | ⟨stop, h₃, hs'⟩
        · have ho := (Trace.of_pure h₃).2
          simp at ho
        · cases hs'
          exact absurd rfl (not_aborted_of_callingOrMissing h₃ reason)
  · exact Or.inr (Trace.of_pure h).2

theorem keeps_cleanUp {d : SessionDriver} {session : String} :
    (cleanUp s d session).Keeps (Makes (· = deleting session)) fun _ => True := by
  have deletes : (d.delete session).Keeps (Makes (· = deleting session)) fun _ => True :=
    Keeps.bind (keeps_callingOrMissing (Api.Client.keeps_perform rfl)) fun _ _ => Keeps.pure trivial
  unfold cleanUp
  split
  · exact Keeps.bind (Keeps.attempt deletes) fun _ _ => Keeps.pure trivial
  · exact Keeps.pure trivial

/-- How a load is concluded : the session is driven, then the loaded table is put in its place, and
then the session is deleted. -/
structure Concluded (s : Settings) (session : String) (outcome : Option (Outcome Error Report))
    (driving : List Event) (call : List (Program.Event Api.Answer)) (last : List Event) :
    Prop where
  driven : ∀ e ∈ driving, Makes (SessionDriver.Takes session s.priority) e.1
  /-- Only a session that was shown to be committed is concluded any further. -/
  committed : call ≠ [] ∨ last ≠ [] ∨ (∃ r, outcome = some (.done r)) →
    ∃ looked shown, (⟨.api (.send (lookAt session)), looked⟩ : Event) ∈ driving ∧
      seen session looked = some shown ∧ shown.status = .committed
  replacing : call ≠ [] → s.mode = .replace
  swapped : ∃ result, Api.Exchange (swapping s.database (s.loadTable session) s.table) call result
  deleted : ∀ e ∈ last, Makes (· = deleting session) e.1
  /-- Once the session is deleted, nothing fails any more. -/
  kept : last ≠ [] → outcome = none ∨ ∃ r, outcome = some (.done r)

/-- A session that is driven to its end is shown to be committed. -/
theorem of_commit {report : Report} {outcome : Option (Outcome Error Report)}
    (h : Trace (commit s (SessionDriver.ofSettings client s) report) events outcome) :
    (∀ e ∈ events, Makes (SessionDriver.Takes report.session s.priority) e.1) ∧
      ∀ r, outcome = some (.done r) → r.session = report.session ∧
        ∃ looked shown, (⟨.api (.send (lookAt report.session)), looked⟩ : Event) ∈ events ∧
          seen report.session looked = some shown ∧ shown.status = .committed := by
  rcases Trace.of_bind h with ⟨first, last, rest, rfl, h₁, h₂⟩ | ⟨stop, h₁, hs⟩
  · obtain ⟨rfl, rfl⟩ := Trace.of_pure h₂
    rw [List.append_nil]
    refine ⟨(SessionDriver.keeps_complete.of_trace h₁).1, fun r hr => ?_⟩
    obtain rfl : _ = r := by simpa using hr
    exact ⟨rfl, SessionDriver.committed_of_complete h₁⟩
  · exact ⟨(SessionDriver.keeps_complete.of_trace h₁).1, fun r hr => absurd hr (hs.ne_done r)⟩

/-- The trace of a conclusion. -/
theorem of_conclude {swap : Bool} {report : Report} {outcome : Option (Outcome Error Report)}
    (h : Trace (conclude client s swap report) events outcome)
    (hmode : swap = true → s.mode = .replace) :
    ∃ driving call last, events = driving ++ call.map ofCall ++ last ∧
      Concluded s report.session outcome driving call last := by
  rcases Trace.of_bind h with ⟨driving, after, rest, rfl, h₁, h₂⟩ | ⟨stop, h₁, hs⟩
  · obtain ⟨hdriving, hafter⟩ := of_commit h₁
    obtain ⟨hsession, hcommitted⟩ := hafter after rfl
    rw [hsession] at h₂
    rcases Trace.of_bind h₂ with ⟨putting, u, last, rfl, h₃, h₄⟩ | ⟨stop, h₃, hs⟩
    · obtain ⟨call, result, rfl, hswap, hx⟩ := of_putInPlace h₃
      have hreplacing (hc : call ≠ []) : s.mode = .replace := hmode (hswap hc)
      rcases Trace.of_bind h₄ with ⟨last, v, final, rfl, h₅, h₆⟩ | ⟨stop, h₅, hs⟩
      · obtain ⟨rfl, rfl⟩ := Trace.of_pure h₆
        exact ⟨driving, call, last, by simp, hdriving, fun _ => hcommitted, hreplacing,
          ⟨result, hx⟩, (keeps_cleanUp.of_trace h₅).1, fun _ => Or.inr ⟨after, rfl⟩⟩
      · refine ⟨driving, call, last, by simp, hdriving, fun _ => hcommitted, hreplacing,
          ⟨result, hx⟩, (keeps_cleanUp.of_trace h₅).1, fun _ => ?_⟩
        rcases of_cleanUp h₅ with rfl | rfl
        · cases hs
          exact Or.inl rfl
        · cases hs
    · obtain ⟨call, result, rfl, hswap, hx⟩ := of_putInPlace h₃
      have hreplacing (hc : call ≠ []) : s.mode = .replace := hmode (hswap hc)
      exact ⟨driving, call, [], by simp, hdriving, fun _ => hcommitted, hreplacing, ⟨result, hx⟩,
        by simp, by simp⟩
  · refine ⟨events, [], [], by simp, (of_commit h₁).1, ?_, by simp, ⟨none, .unsent⟩, by simp,
      by simp⟩
    rintro (hc | hl | ⟨r, rfl⟩)
    · exact absurd rfl hc
    · exact absurd rfl hl
    · exact absurd rfl (hs.ne_done r)

/-! ## From the beginning to the end -/

theorem launches_of_aside (h : ∀ e ∈ events, e.1.isAside) : launches events = [] := by
  refine List.eq_nil_iff_forall_not_mem.2 fun ⟨session, upload⟩ hm => ?_
  exact h _ (mem_launches.1 hm)

/-- Rows that are uploaded are fed in under a stem, which is that of the settings if they have
one. -/
theorem upload_of_uploadRows {session : String} {writers : Record.WriterSet} {feed : Feed}
    {summary : Summary}
    (h : Trace (uploadRows s session writers rows) events (some (.done (feed, summary)))) :
    ∃ naming stem feeding, events = naming ++ feeding ∧ (∀ e ∈ naming, e.1.isAside) ∧
      (∀ given, s.partStem = some given → stem = given) ∧
      Trace (Feed.upload ⟨s.directory, stem, s.partSize, s.stopOnInvalid⟩
        { scheduler := .start session s.uploads, writers } rows) feeding
          (some (.done (feed, summary))) := by
  obtain ⟨naming, stem, feeding, rfl, h₁, h₂⟩ := Trace.of_bind_done h
  refine ⟨naming, stem, feeding, rfl, ?_, ?_, h₂⟩
  · unfold chooseStem at h₁
    split at h₁
    · simp [(Trace.of_pure h₁).1]
    · obtain ⟨id, rest, rfl, h₃⟩ := Trace.of_query_bind_done h₁
      rw [(Trace.of_pure h₃).1]
      simp [Question.isAside]
  · intro given hgiven
    rw [chooseStem, hgiven] at h₁
    exact (Trace.of_pure_done h₁).2

/-- While rows are uploaded, no requests are made by the import. It is done only when it was told
of each upload that it succeeded. -/
theorem of_uploadRows {session : String} {writers : Record.WriterSet}
    {outcome : Option (Outcome Error (Feed × Summary))}
    (h : Trace (uploadRows s session writers rows) events outcome) :
    (∀ e ∈ events, Uploading session e.1) ∧
      ∀ a, outcome = some (.done a) → ∀ launch ∈ launches events, succeeded launch.2 ∈ events := by
  refine ⟨(keeps_uploadRows.of_trace h).1, ?_⟩
  rintro ⟨feed, summary⟩ rfl launch hl
  obtain ⟨naming, stem, feeding, rfl, hnaming, -, h₁⟩ := upload_of_uploadRows h
  obtain ⟨taken, parts, -, hup⟩ := Feed.uploaded_of_upload h₁
  rw [launches_append, launches_of_aside hnaming, List.nil_append] at hl
  exact List.mem_append_right _ (hup.succeeded launch hl).2

/-- What comes before the session is driven. -/
structure Loading (s : Settings) (session : String) (preparing feeding : List Event) : Prop where
  prepared : ∀ e ∈ preparing, Preparing e.1
  opened : feeding ≠ [] → Opened session s.database (s.loadTable session) preparing
  fed : ∀ e ∈ feeding, Uploading session e.1

theorem loading_of_load {outcome : Option (Outcome Error (Bool × Report))}
    (h : Trace (load client s schema rows) events outcome) :
    ∃ session preparing feeding, events = preparing ++ feeding ∧
      Loading s session preparing feeding ∧
      ∀ swap report, outcome = some (.done (swap, report)) → report.session = session ∧
        (swap = true → s.mode = .replace) ∧
        ∀ launch ∈ launches feeding, succeeded launch.2 ∈ feeding := by
  rcases of_load h with
    ⟨hq, hn⟩ | ⟨preparing, staging, writers, session, swap, rfl, hq, -, hmode, result, h₁, hr⟩
  · exact ⟨"", events, [], by simp, ⟨hq, by simp, by simp⟩, fun _ _ ho => absurd ho (hn _)⟩
  rcases of_uploadInto h₁ with
    ⟨hs, hsame⟩ | ⟨opening, feeding, rfl, hs, hopened, result', h₂, hr'⟩
  · refine ⟨session, preparing ++ staging, [], by simp,
      ⟨List.forall_mem_append.2 ⟨hq, hs⟩, by simp, by simp⟩, fun swap' report ho => ?_⟩
    rcases hr with ⟨report', rfl, rfl⟩ | hstop
    · obtain ⟨rfl, rfl⟩ : swap = swap' ∧ report' = report := by simpa using ho
      exact ⟨hsame report' rfl ▸ rfl, hmode, by simp⟩
    · exact absurd ho (hstop.ne_done _)
  · obtain ⟨hfed, hsucceeded⟩ := of_uploadRows h₂
    refine ⟨session, preparing ++ opening, feeding, by simp,
      ⟨List.forall_mem_append.2 ⟨hq, hs⟩, fun _ => ?_, hfed⟩, fun swap' report ho => ?_⟩
    · simpa using hopened.append preparing []
    · rcases hr with ⟨report', rfl, rfl⟩ | hstop
      · obtain ⟨rfl, rfl⟩ : swap = swap' ∧ report' = report := by simpa using ho
        rcases hr' with ⟨feed, summary, rfl, hreport⟩ | hstop
        · obtain rfl : report' = _ := by simpa using hreport
          exact ⟨rfl, hmode, hsucceeded _ rfl⟩
        · exact absurd rfl (hstop.ne_done _)
      · exact absurd ho (hstop.ne_done _)

/-- The stages of an import. -/
structure Staged (s : Settings) (session : String) (outcome : Option (Outcome Error Report))
    (preparing feeding driving : List Event) (call : List (Program.Event Api.Answer))
    (last : List Event) : Prop where
  loading : Loading s session preparing feeding
  /-- It only goes on when all uploads have succeeded. -/
  concluding : driving ++ call.map ofCall ++ last = [] ∨
    (∀ launch ∈ launches feeding, succeeded launch.2 ∈ feeding) ∧
      Concluded s session outcome driving call last

theorem staged_of_run {outcome : Option (Outcome Error Report)}
    (h : Trace (run client s schema rows) events outcome) :
    ∃ session preparing feeding driving call last,
      events = preparing ++ feeding ++ (driving ++ call.map ofCall ++ last) ∧
      Staged s session outcome preparing feeding driving call last := by
  have clock (a : Nat) : Preparing (⟨.clock, a⟩ : Event).1 := ⟨trivial, by simp⟩
  rcases Trace.of_query_bind h with ⟨rfl, rfl⟩ | ⟨started, events, rfl, h₁⟩
  · exact ⟨"", [], [], [], [], [], rfl, ⟨by simp, by simp, by simp⟩, Or.inl rfl⟩
  rcases Trace.of_bind h₁ with ⟨loading, ⟨swap, report⟩, concluding, rfl, h₂, h₃⟩ | ⟨stop, h₂, -⟩
  · obtain ⟨session, preparing, feeding, rfl, hl, ho⟩ := loading_of_load h₂
    obtain ⟨rfl, hmode, hsucceeded⟩ := ho swap report rfl
    have hl' : Loading s report.session (⟨.clock, started⟩ :: preparing) feeding := by
      refine ⟨List.forall_mem_cons.2 ⟨clock started, hl.prepared⟩, fun hf => ?_, hl.fed⟩
      simpa using (hl.opened hf).append [⟨.clock, started⟩] []
    rcases Trace.of_bind h₃ with ⟨concluding, report', rest, rfl, h₄, h₅⟩ | ⟨stop, h₄, hs⟩
    · obtain ⟨driving, call, last, rfl, hc⟩ := of_conclude h₄ hmode
      have hcommitted := hc.committed (Or.inr (Or.inr ⟨report', rfl⟩))
      refine ⟨report.session, _, feeding, driving, call, last ++ rest, by simp, hl',
        Or.inr ⟨hsucceeded, hc.driven, fun _ => hcommitted, hc.replacing, hc.swapped, ?_, ?_⟩⟩
      · refine List.forall_mem_append.2 ⟨hc.deleted, ?_⟩
        rcases Trace.of_query_bind h₅ with ⟨rfl, -⟩ | ⟨ended, rest, rfl, h₆⟩
        · simp
        · rw [(Trace.of_pure h₆).1]
          simp only [List.mem_singleton, forall_eq]
          exact ⟨trivial, by simp⟩
      · rcases Trace.of_query_bind h₅ with ⟨-, rfl⟩ | ⟨ended, rest, rfl, h₆⟩
        · exact fun _ => Or.inl rfl
        · exact fun _ => Or.inr ⟨_, (Trace.of_pure h₆).2⟩
    · obtain rfl : stop = outcome := by
        cases hs <;> rfl
      obtain ⟨driving, call, last, rfl, hc⟩ := of_conclude h₄ hmode
      exact ⟨report.session, _, feeding, driving, call, last, by simp, hl',
        Or.inr ⟨hsucceeded, hc⟩⟩
  · obtain ⟨session, preparing, feeding, rfl, hl, -⟩ := loading_of_load h₂
    refine ⟨session, ⟨.clock, started⟩ :: preparing, feeding, [], [], [], by simp,
      ⟨List.forall_mem_cons.2 ⟨clock started, hl.prepared⟩, fun hf => ?_, hl.fed⟩, Or.inl rfl⟩
    simpa using (hl.opened hf).append [⟨.clock, started⟩] []

end BulkLoad.Import
