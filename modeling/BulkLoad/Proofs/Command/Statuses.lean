import BulkLoad.Command.Ending
import BulkLoad.Command.Standard
import BulkLoad.Proofs.Command.Precedence
import BulkLoad.Proofs.Program.Twins
import BulkLoad.Proofs.Record.Sources

/-!
# The status of a command that fails

A command is refused by a check of its settings (`Rejects`), or its work fails. The status tells a
cancellation from all else. It tells a check of the command itself from all else as well : the
settings file, the columns, the destination and the priority of a session give 2
(`statuses_of_command`). The checks of the layers below, that of the settings of an import, that of
the settings of a client and that of the writers of the rows, do not : their faults reach the
command like those of the work, and the status is 1 (`fault_unmarked`).
-/

namespace BulkLoad

namespace Program

variable {Q : Type} {A : Q → Type} {ε α β : Type}

/-- A program that fails does so with an error that has a property. -/
def Blames (P : ε → Prop) (p : Program A ε α) : Prop :=
  ∀ events e, Trace p events (some (.failed e)) → P e

namespace Blames

variable {P : ε → Prop} {p : Program A ε α}

theorem bind {f : α → Program A ε β} (h : p.Blames P) (hf : ∀ a, (f a).Blames P) :
    (p >>= f).Blames P := by
  intro events e ht
  rcases ht.of_bind with ⟨first, a, rest, rfl, -, hrest⟩ | ⟨stop, hp, hs⟩
  · exact hf a rest e hrest
  · cases hs
    exact h events e hp

theorem pure (a : α) : (Pure.pure a : Program A ε α).Blames P := by
  intro events e ht
  cases ht.of_pure.2

theorem throw {e : ε} (h : P e) : (MonadExcept.throw e : Program A ε α).Blames P := by
  intro events e' ht
  cases ht.of_throw.2
  exact h

theorem query (q : Q) : (query q : Program A ε (A q)).Blames P := by
  intro events e ht
  rcases ht.of_query with ⟨-, ho⟩ | ⟨a, -, ho⟩ <;> cases ho

theorem mapError {ε' : Type} {f : ε' → ε} {p : Program A ε' α} (h : ∀ e, P (f e)) :
    (p.mapError f).Blames P := by
  intro events e ht
  obtain ⟨inner, -, ho⟩ := ht.of_mapError
  rcases inner with - | (a | e' | reason)
  all_goals cases ho
  exact h e'

end Blames

end Program

namespace Command

/-! ## Errors -/

/-- A cancellation, wherever it was noticed. -/
inductive Error.Cancelled : Error → Prop
  | importing : Cancelled (.importing .cancelled)
  | importingCall (path : String) : Cancelled (.importing (.api (.interrupted path)))
  | call (path : String) : Cancelled (.api (.interrupted path))

/-- An error of the work that a command does, or of a layer below. -/
inductive Error.Below : Error → Prop
  | importing (e : Import.Error) : Below (.importing e)
  | api (e : Api.Error) : Below (.api e)

namespace Error

variable {e : Error}

theorem isCancellation_api_iff {e : Api.Error} :
    e.isCancellation ↔ ∃ path, e = .interrupted path := by
  cases e <;> simp [Api.Error.isCancellation]

theorem isCancellation_importing_iff {e : Import.Error} :
    e.isCancellation ↔ e = .cancelled ∨ ∃ path, e = .api (.interrupted path) := by
  cases e with
  | api e => simp [Import.Error.isCancellation, isCancellation_api_iff]
  | _ => simp [Import.Error.isCancellation]

/-- An error of a layer below is a cancellation or has the status of all other failures. -/
theorem Below.exitStatus_eq (h : e.Below) :
    e.Cancelled ∧ e.exitStatus = 130 ∨ ¬e.Cancelled ∧ e.exitStatus = 1 := by
  cases h with
  | importing e =>
    rw [exitStatus]
    split_ifs with hc
    · obtain rfl | ⟨path, rfl⟩ := isCancellation_importing_iff.1 hc
      · exact Or.inl ⟨.importing, rfl⟩
      · exact Or.inl ⟨.importingCall path, rfl⟩
    · refine Or.inr ⟨?_, rfl⟩
      rintro (_ | path) <;> exact hc rfl
  | api e =>
    rw [exitStatus]
    split_ifs with hc
    · obtain ⟨path, rfl⟩ := isCancellation_api_iff.1 hc
      exact Or.inl ⟨.call path, rfl⟩
    · refine Or.inr ⟨?_, rfl⟩
      rintro ⟨path⟩
      exact hc rfl

theorem below_or (e : Error) : e.Below ∨ ¬e.Cancelled ∧ (e.exitStatus = 1 ∨ e.exitStatus = 2) := by
  cases e with
  | importing e => exact Or.inl (.importing e)
  | api e => exact Or.inl (.api e)
  | settings | settingsFile | schema => exact Or.inr ⟨nofun, Or.inr rfl⟩
  | unreadable => exact Or.inr ⟨nofun, Or.inl rfl⟩

theorem exitStatus_eq_cancelled_iff : e.exitStatus = 130 ↔ e.Cancelled := by
  rcases e.below_or with h | ⟨hc, hs | hs⟩
  · rcases h.exitStatus_eq with ⟨hc, hs⟩ | ⟨hc, hs⟩ <;> simp [hc, hs]
  · simp [hc, hs]
  · simp [hc, hs]

/-- A failure is a cancellation, or has the status 2, or else the status 1. -/
theorem exitStatus_eq_one_iff : e.exitStatus = 1 ↔ e.exitStatus ≠ 2 ∧ ¬e.Cancelled := by
  rcases e.below_or with h | ⟨hc, hs | hs⟩
  · rcases h.exitStatus_eq with ⟨hc, hs⟩ | ⟨hc, hs⟩ <;> simp [hc, hs]
  · simp [hc, hs]
  · simp [hs]

theorem Below.exitStatus_ne_two (h : e.Below) : e.exitStatus ≠ 2 := by
  rcases h.exitStatus_eq with ⟨-, hs⟩ | ⟨-, hs⟩ <;> rw [hs] <;> decide

end Error

/-! ## Endings -/

/-- How a command can end : it is refused, or it is carried out in surroundings of any kind. -/
inductive Invocation.Ends (library : Library) (invocation : Invocation)
    (lookup : String → Option String) (read : String → Except String (List UInt8)) :
    Ending → Prop
  | refused {e : Error} (h : invocation.job library lookup read = .error e) :
    Ends library invocation lookup read (.failed e)
  | carriedOut {job : Job} {events : List (Program.Event Answer)}
    {outcome : Outcome Error (List String)} (h : invocation.job library lookup read = .ok job)
    (ht : Program.Trace (job.run library) events (some outcome)) :
    Ends library invocation lookup read (.ofOutcome outcome)

/-- The settings that a command reads from a file, if there is one. -/
inductive Invocation.Loads (library : Library) (invocation : Invocation)
    (read : String → Except String (List UInt8)) : FileSettings → Prop
  | unnamed (h : invocation.settingsFile = none) : Loads library invocation read {}
  | named {path : String} {s : FileSettings} (h : invocation.settingsFile = some path)
    (hs : FileSettings.ofFile library path (read path) = .ok s) : Loads library invocation read s

/-- The columns of a file make a schema. -/
def Columned (s : FileSettings) : Prop :=
  s.columns ≠ [] ∧ (s.columns.map (·.name)).Nodup

/-- What is checked of the settings of a command. -/
inductive Check
  /-- The settings file is well formed. -/
  | settingsFile
  /-- There are columns, with distinct names. -/
  | columns
  /-- An import has a destination. -/
  | destination
  /-- An import can run with its settings. -/
  | importing
  /-- A session is completed with one of the priorities that there are. -/
  | priority
  /-- A client can be made from its settings. -/
  | client
  /-- The rows of an import can be written as records. -/
  | writers
deriving DecidableEq

/-- A check of the command itself rather than of a layer below. -/
def Check.isOwn : Check → Bool
  | .settingsFile | .columns | .destination | .priority => true
  | .importing | .client | .writers => false

/-- A check that is made, after all others before it have passed, and rejects the settings. -/
inductive Rejects (library : Library) (invocation : Invocation)
    (lookup : String → Option String) (read : String → Except String (List UInt8)) :
    Check → Prop
  | settingsFile {path text : String} {content : List UInt8}
    (hp : invocation.settingsFile = some path) (hr : read path = .ok content)
    (hd : Text.Utf8.decode? content = some text)
    (h : ∀ s, FileSettings.ofText library text ≠ .ok s) :
    Rejects library invocation lookup read .settingsFile
  | columns {s : FileSettings} {a : ImportArguments} (hs : invocation.Loads library read s)
    (ha : invocation.action = .load a) (h : ¬Columned s) :
    Rejects library invocation lookup read .columns
  | destination {s : FileSettings} {a : ImportArguments} (hs : invocation.Loads library read s)
    (ha : invocation.action = .load a) (hc : Columned s) (h : NoDestination s a) :
    Rejects library invocation lookup read .destination
  | importing {s : FileSettings} {a : ImportArguments} {base merged : Import.Settings}
    (hs : invocation.Loads library read s) (ha : invocation.action = .load a) (hc : Columned s)
    (hb : Base s a base) (hm : ImportMerge base a merged) (h : ¬Runnable merged) :
    Rejects library invocation lookup read .importing
  | priority {s : FileSettings} {name : String} {value : Int} (hs : invocation.Loads library read s)
    (ha : invocation.action = .complete name value) (h : ¬(-2 ≤ value ∧ value ≤ 2)) :
    Rejects library invocation lookup read .priority
  | client {s : FileSettings} {task : Task} (hs : invocation.Loads library read s)
    (ht : Task.ofAction s invocation.action = .ok task)
    (h : ∀ merged, ClientMerge library.toLibrary s.client lookup invocation.serverUrl merged →
      ¬merged.Valid) :
    Rejects library invocation lookup read .client
  | writers {job : Job} {settings : Import.Settings} {schema : Schema} {path : String}
    {json : Bool} (hj : invocation.job library lookup read = .ok job)
    (ht : job.task = .load settings schema path json)
    (h : ¬Record.Fitting schema settings.record) :
    Rejects library invocation lookup read .writers

/-! ## Settings that are checked -/

section Settings

variable {s : FileSettings} {a : ImportArguments} {e : Error}

theorem firstDuplicate_eq_none : ∀ {seen : List String} {columns : List Column},
    (columns.map (·.name)).Nodup → (∀ column ∈ columns, column.name ∉ seen) →
      Schema.firstDuplicate seen columns = none
  | _, [], _, _ => rfl
  | seen, column :: rest, hn, hseen => by
    rw [List.map_cons, List.nodup_cons] at hn
    rw [Schema.firstDuplicate, if_neg (by simpa using hseen column List.mem_cons_self)]
    refine firstDuplicate_eq_none hn.2 fun other hother => ?_
    rw [List.mem_cons, not_or]
    exact ⟨fun he => hn.1 (he ▸ List.mem_map.2 ⟨other, hother, rfl⟩),
      hseen other (List.mem_cons_of_mem _ hother)⟩

theorem schema_of_columned (h : Columned s) : s.schema = .ok ⟨s.columns⟩ := by
  unfold FileSettings.schema Schema.ofColumns
  rw [firstDuplicate_eq_none h.2 (by simp), if_neg (by simpa using h.1)]

theorem schema_of_not_columned (h : ¬Columned s) :
    ∃ e, s.schema = .error e ∧ e.exitStatus = 2 := by
  unfold FileSettings.schema
  split_ifs with hempty
  · exact ⟨_, rfl, rfl⟩
  · cases hd : Schema.firstDuplicate [] s.columns with
    | none => exact absurd ⟨by simpa using hempty, (nodup_of_firstDuplicate hd).1⟩ h
    | some name => exact ⟨_, by rw [Schema.ofColumns, hd], rfl⟩

theorem distinct_of_schema {schema : Schema} (h : s.schema = .ok schema) : schema.Distinct := by
  unfold FileSettings.schema at h
  split_ifs at h
  split at h <;> cases h
  next hcolumns => exact distinct_of_ofColumns hcolumns

theorem check_eq_error {settings : Api.Settings} {e : Api.Error}
    (h : settings.check = .error e) : ∃ fault, e = .settings fault := by
  unfold Api.Settings.check at h
  split at h <;> cases h
  exact ⟨_, rfl⟩

theorem mergedClient_eq_error {library : Api.Library} {lookup : String → Option String}
    {serverUrl : Option String} {e : Api.Error}
    (h : s.mergedClient library lookup serverUrl = .error e) :
    ∃ fault, e = .settings fault := by
  unfold FileSettings.mergedClient Api.Settings.atUrl at h
  split at h
  · cases h
  · split at h
    · cases h
      exact ⟨_, rfl⟩
    · split at h <;> cases h
      exact ⟨_, rfl⟩

/-- The settings of a client are refused with a fault that says why. -/
theorem clientSettings_eq_error {library : Api.Library} {lookup : String → Option String}
    {serverUrl : Option String} (h : s.clientSettings library lookup serverUrl = .error e) :
    ∃ fault, e = .api (.settings fault) := by
  unfold FileSettings.clientSettings at h
  split at h
  · cases h
  · next e' he =>
    cases h
    have hfault : ∃ fault, e' = .settings fault := by
      rcases bind_eq_error.1 he with he | ⟨settings, -, he⟩
      · exact mergedClient_eq_error he
      · rcases bind_eq_error.1 he with he | ⟨_, -, he⟩
        · exact check_eq_error he
        · cases he
    obtain ⟨fault, rfl⟩ := hfault
    exact ⟨fault, rfl⟩

theorem clientSettings_of_invalid {library : Api.Library} {lookup : String → Option String}
    {serverUrl : Option String}
    (h : ∀ merged, ClientMerge library s.client lookup serverUrl merged → ¬merged.Valid) :
    ∃ fault, s.clientSettings library lookup serverUrl = .error (.api (.settings fault)) := by
  cases hs : s.clientSettings library lookup serverUrl with
  | ok merged =>
    obtain ⟨hm, hcheck⟩ := clientSettings_eq_ok_iff.1 hs
    exact absurd (Api.Settings.check_eq_ok_iff.1 hcheck) (h merged hm)
  | error e =>
    obtain ⟨fault, rfl⟩ := clientSettings_eq_error hs
    exact ⟨fault, rfl⟩

theorem ofText_eq_error {library : Library} {text : String}
    (h : ∀ s, FileSettings.ofText library text ≠ .ok s) :
    FileSettings.ofText library text = .error (.settingsFile (library.tomlWords text)) := by
  unfold FileSettings.ofText at h ⊢
  split
  · next s hs =>
    rw [hs] at h
    exact absurd rfl (h s)
  · rfl

end Settings

/-! ## Commands that are refused -/

section Jobs

variable {library : Library} {invocation : Invocation} {lookup : String → Option String}
  {read : String → Except String (List UInt8)} {s : FileSettings} {e : Error} {check : Check}

theorem job_of_loads (h : invocation.Loads library read s) :
    invocation.job library lookup read =
      Job.ofInvocation library.toLibrary s lookup invocation := by
  unfold Invocation.job
  cases h with
  | unnamed h =>
    rw [h]
    rfl
  | named h hs =>
    rw [h]
    dsimp only
    rw [hs]
    rfl

theorem job_of_ofFile {path : String} (h : invocation.settingsFile = some path)
    (he : FileSettings.ofFile library path (read path) = .error e) :
    invocation.job library lookup read = .error e := by
  unfold Invocation.job
  rw [h]
  dsimp only
  rw [he]
  rfl

theorem job_of_task (h : invocation.Loads library read s)
    (ht : Task.ofAction s invocation.action = .error e) :
    invocation.job library lookup read = .error e := by
  rw [job_of_loads h, Job.ofInvocation, ht]
  rfl

/-- A check of the settings that rejects them is the end of a command, unless it is that of the
writers, which is left to the work. -/
theorem job_of_rejects (h : Rejects library invocation lookup read check) (hw : check ≠ .writers) :
    ∃ e, invocation.job library lookup read = .error e ∧
      e.exitStatus = if check.isOwn then 2 else 1 := by
  cases h with
  | @settingsFile path text content hp hr hd h =>
    refine ⟨.settingsFile (library.tomlWords text), job_of_ofFile hp ?_, rfl⟩
    rw [hr, FileSettings.ofFile, hd]
    exact ofText_eq_error h
  | columns hs ha h =>
    obtain ⟨e, he, hstatus⟩ := schema_of_not_columned h
    refine ⟨e, job_of_task hs ?_, hstatus⟩
    rw [ha, Task.ofAction, he]
    rfl
  | destination hs ha hc h =>
    refine ⟨.settings .noDestination, job_of_task hs ?_, rfl⟩
    rw [ha, Task.ofAction, schema_of_columned hc, importSettings_of_noDestination h]
    rfl
  | importing hs ha hc hb hm h =>
    obtain ⟨fault, hfault⟩ := importSettings_of_not_runnable hb hm h
    refine ⟨.importing (.settings fault), job_of_task hs ?_, rfl⟩
    rw [ha, Task.ofAction, schema_of_columned hc, hfault]
    rfl
  | @priority s name value hs ha h =>
    refine ⟨.settings (.priority value), job_of_task hs ?_, rfl⟩
    rw [ha, Task.ofAction, if_neg (mt isPriority_iff.1 h)]
  | @client s task hs ht h =>
    obtain ⟨fault, hfault⟩ := clientSettings_of_invalid h
    refine ⟨.api (.settings fault), ?_, rfl⟩
    rw [job_of_loads hs, Job.ofInvocation, ht]
    -- With a task, what is left of the job is the client.
    change (s.clientFor library.toLibrary lookup invocation.serverUrl >>= _) = _
    rw [FileSettings.clientFor, hfault]
    rfl
  | writers => exact absurd rfl hw

/-- A command has its settings, or what is read of them is no good. -/
theorem loads_or_ofFile (library : Library) (invocation : Invocation)
    (read : String → Except String (List UInt8)) :
    (∃ s, invocation.Loads library read s) ∨ ∃ path e, invocation.settingsFile = some path ∧
      FileSettings.ofFile library path (read path) = .error e := by
  cases hp : invocation.settingsFile with
  | none => exact Or.inl ⟨{}, .unnamed hp⟩
  | some path =>
    cases hs : FileSettings.ofFile library path (read path) with
    | ok s => exact Or.inl ⟨s, .named hp hs⟩
    | error e => exact Or.inr ⟨path, e, rfl, hs⟩

theorem rejects_of_ofFile {path : String} (hp : invocation.settingsFile = some path)
    (he : FileSettings.ofFile library path (read path) = .error e) (hstatus : e.exitStatus = 2) :
    Rejects library invocation lookup read .settingsFile := by
  cases hr : read path with
  | error detail =>
    rw [hr] at he
    cases he
    cases hstatus
  | ok content =>
    rw [hr, FileSettings.ofFile] at he
    cases hd : Text.Utf8.decode? content with
    | none =>
      rw [hd] at he
      cases he
      cases hstatus
    | some text =>
      refine .settingsFile hp hr hd fun s hs => ?_
      rw [hd] at he
      exact absurd (hs.symm.trans he) nofun

theorem rejects_of_ofAction (hl : invocation.Loads library read s)
    (he : Task.ofAction s invocation.action = .error e) (hstatus : e.exitStatus = 2) :
    ∃ check : Check, check.isOwn ∧ Rejects library invocation lookup read check := by
  cases ha : invocation.action with
  | load a =>
    rw [ha, Task.ofAction] at he
    by_cases hc : Columned s
    · rcases bind_eq_error.1 he with he | ⟨schema, -, he⟩
      · rw [schema_of_columned hc] at he
        cases he
      · rcases bind_eq_error.1 he with he | ⟨settings, -, he⟩
        · rcases base_or_noDestination s a with ⟨base, hb⟩ | hmissing
          · rw [importSettings_of_base hb] at he
            split at he <;> cases he
            exact absurd hstatus (Error.Below.importing _).exitStatus_ne_two
          · exact ⟨.destination, rfl, .destination hl ha hc hmissing⟩
        · cases he
    · exact ⟨.columns, rfl, .columns hl ha hc⟩
  | complete name value =>
    rw [ha, Task.ofAction] at he
    split at he
    · cases he
    · next hvalue => exact ⟨.priority, rfl, .priority hl ha (mt isPriority_iff.2 hvalue)⟩
  | _ =>
    rw [ha] at he
    cases he

theorem below_of_clientFor {library : Api.Library} {serverUrl : Option String}
    (h : s.clientFor library lookup serverUrl = .error e) : e.Below := by
  unfold FileSettings.clientFor at h
  rcases bind_eq_error.1 h with h | ⟨settings, -, h⟩
  · obtain ⟨fault, rfl⟩ := clientSettings_eq_error h
    exact .api _
  · obtain ⟨fault, -, rfl⟩ := error_of_mapError h
    exact .api _

/-- Only a check of the command itself refuses it with the status 2. -/
theorem rejects_of_job (h : invocation.job library lookup read = .error e)
    (hstatus : e.exitStatus = 2) :
    ∃ check : Check, check.isOwn ∧ Rejects library invocation lookup read check := by
  rcases loads_or_ofFile library invocation read with ⟨s, hl⟩ | ⟨path, e', hp, he⟩
  · rw [job_of_loads hl, Job.ofInvocation] at h
    rcases bind_eq_error.1 h with ht | ⟨task, -, h⟩
    · exact rejects_of_ofAction hl ht hstatus
    · rcases bind_eq_error.1 h with hc | ⟨client, -, h⟩
      · exact absurd hstatus (below_of_clientFor hc).exitStatus_ne_two
      · cases h
  · rw [job_of_ofFile hp he] at h
    cases h
    exact ⟨.settingsFile, rfl, rejects_of_ofFile hp he hstatus⟩

/-- The columns of an import that is carried out have distinct names. -/
theorem distinct_of_job {job : Job} {settings : Import.Settings} {schema : Schema} {path : String}
    {json : Bool} (hj : invocation.job library lookup read = .ok job)
    (ht : job.task = .load settings schema path json) : schema.Distinct := by
  rcases loads_or_ofFile library invocation read with ⟨s, hl⟩ | ⟨path, e, hp, he⟩
  swap
  · rw [job_of_ofFile hp he] at hj
    cases hj
  rw [job_of_loads hl] at hj
  obtain ⟨task, htask, hj⟩ := bind_eq_ok.1 hj
  obtain ⟨client, -, hj⟩ := bind_eq_ok.1 hj
  cases hj
  obtain rfl : task = .load settings schema path json := ht
  cases ha : invocation.action with
  | load a =>
    rw [ha, Task.ofAction] at htask
    obtain ⟨columns, hcolumns, htask⟩ := bind_eq_ok.1 htask
    obtain ⟨merged, -, htask⟩ := bind_eq_ok.1 htask
    cases htask
    exact distinct_of_schema hcolumns
  | complete name value =>
    rw [ha, Task.ofAction] at htask
    split at htask <;> cases htask
  | _ =>
    rw [ha] at htask
    cases htask

end Jobs

/-! ## Commands that are carried out -/

section Work

theorem importing_blames {α : Type} (work : Import.Work Import.Error α) :
    (importing work).Blames Error.Below :=
  .mapError .importing

theorem calling_blames {α : Type} (call : Api.Call α) : (calling call).Blames Error.Below :=
  .mapError .api

theorem openInput_blames (path : String) : (openInput path).Blames Error.Below := by
  refine (Program.Blames.query _).bind fun answer => ?_
  cases answer with
  | ok input => exact .pure input
  | error fault => exact .throw (.importing _)

/-- The work of a command fails with errors of the layers below. -/
theorem run_blames (library : Library) (job : Job) : (job.run library).Blames Error.Below := by
  unfold Job.run
  cases job.task with
  | load =>
    exact (openInput_blames _).bind fun _ => (importing_blames _).bind fun _ => .pure _
  | databases => exact (calling_blames _).bind fun _ => .pure _
  | _ => exact (importing_blames _).bind fun _ => .pure _

/-- An import whose writers are not resolved looks at the clock, and no more. -/
theorem run_of_resolve {settings : Import.Settings} {schema : Schema}
    {fault : Record.SettingsFault}
    (h : Record.WriterSet.resolve schema settings.record = .error fault) (client : Api.Client)
    (rows : List (Except RowFault Row)) : Import.run client settings schema rows =
      .ask .clock fun _ => .failed (.settings (.record fault)) := by
  have hload : Import.load client settings schema rows = .failed (.settings (.record fault)) := by
    unfold Import.load
    rw [h]
    rfl
  unfold Import.run
  rw [hload]
  rfl

theorem run_of_unresolved {job : Job} {settings : Import.Settings} {schema : Schema}
    {path : String} {json : Bool} {fault : Record.SettingsFault}
    (ht : job.task = .load settings schema path json)
    (h : Record.WriterSet.resolve schema settings.record = .error fault) :
    job.run library = .ask (.openInput path) fun
      | .ok _ => .ask (.importing .clock) fun _ => .failed (.importing (.settings (.record fault)))
      | .error missing => .failed (.importing (.part (.file missing))) := by
  unfold Job.run
  rw [ht]
  dsimp only
  simp only [run_of_resolve h]
  refine congrArg (Program.ask (Question.openInput path)) (funext fun answer => ?_)
  cases answer <;> rfl

/-- An import with rows that cannot be written fails, and its status is 1. -/
theorem status_of_unresolved {job : Job} {settings : Import.Settings} {schema : Schema}
    {path : String} {json : Bool} {fault : Record.SettingsFault}
    (ht : job.task = .load settings schema path json)
    (h : Record.WriterSet.resolve schema settings.record = .error fault)
    {events : List (Program.Event Answer)} {outcome : Outcome Error (List String)}
    (htrace : Program.Trace (job.run library) events (some outcome)) :
    ∃ e, outcome = .failed e ∧ e.exitStatus = 1 := by
  rw [run_of_unresolved ht h] at htrace
  obtain ⟨-, ho⟩ | ⟨answer, rest, -, hrest⟩ := htrace.of_ask
  · cases ho
  · cases answer with
    | ok input =>
      obtain ⟨-, ho⟩ | ⟨now, rest, -, hrest⟩ := hrest.of_ask
      · cases ho
      · cases hrest.of_failed.2
        exact ⟨_, rfl, rfl⟩
    | error missing =>
      cases hrest.of_failed.2
      exact ⟨_, rfl, rfl⟩

theorem exists_trace_of_unresolved {job : Job} {settings : Import.Settings} {schema : Schema}
    {path : String} {json : Bool} {fault : Record.SettingsFault}
    (ht : job.task = .load settings schema path json)
    (h : Record.WriterSet.resolve schema settings.record = .error fault) :
    ∃ events, Program.Trace (job.run library) events
      (some (.failed (.importing (.settings (.record fault))))) := by
  rw [run_of_unresolved ht h]
  exact ⟨[⟨.openInput path, .ok ⟨[], none⟩⟩, ⟨.importing .clock, (0 : Nat)⟩],
    .ask _ (.ask _ (.failed _))⟩

end Work

/-! ## The status -/

section Statuses

variable {library : Library} {invocation : Invocation} {lookup : String → Option String}
  {read : String → Except String (List UInt8)} {e : Error} {ending : Ending} {check : Check}

theorem Invocation.Ends.eq_of_refused (h : invocation.Ends library lookup read ending)
    (hj : invocation.job library lookup read = .error e) : ending = .failed e := by
  cases h with
  | refused h =>
    rw [hj] at h
    cases h
    rfl
  | carriedOut h =>
    rw [hj] at h
    cases h

/-- A command that fails is refused, or fails in its work. -/
theorem Invocation.Ends.refused_or_below (h : invocation.Ends library lookup read (.failed e)) :
    invocation.job library lookup read = .error e ∨ e.Below := by
  generalize hending : Ending.failed e = ending at h
  cases h with
  | refused h =>
    cases hending
    exact Or.inl h
  | @carriedOut job events outcome h ht =>
    cases outcome <;> cases hending
    exact Or.inr (run_blames library job _ _ ht)

/-- A command that a check rejects fails, however its surroundings answer it. -/
theorem ends_of_rejects (h : Rejects library invocation lookup read check) :
    (∃ e, invocation.Ends library lookup read (.failed e)) ∧
      ∀ ending, invocation.Ends library lookup read ending →
        ∃ e, ending = .failed e ∧ e.exitStatus = if check.isOwn then 2 else 1 := by
  by_cases hw : check = .writers
  -- The writers are resolved by the work, so this case is about traces and not about the job.
  · subst hw
    cases h with
    | @writers job settings schema path json hj ht h =>
      cases hr : Record.WriterSet.resolve schema settings.record with
      | ok set => exact absurd (Record.fitting_of_resolve (distinct_of_job hj ht) hr) h
      | error fault =>
        obtain ⟨events, htrace⟩ := exists_trace_of_unresolved ht hr
        refine ⟨⟨_, .carriedOut hj htrace⟩, fun ending hends => ?_⟩
        cases hends with
        | refused he =>
          rw [hj] at he
          cases he
        | carriedOut hj' htrace =>
          rw [hj] at hj'
          cases hj'
          obtain ⟨e, rfl, hstatus⟩ := status_of_unresolved ht hr htrace
          exact ⟨e, rfl, hstatus⟩
  · obtain ⟨e, he, hstatus⟩ := job_of_rejects h hw
    exact ⟨⟨e, .refused he⟩, fun ending hends => ⟨e, hends.eq_of_refused he, hstatus⟩⟩

theorem exitStatus_eq_two_iff (h : invocation.Ends library lookup read (.failed e)) :
    e.exitStatus = 2 ↔
      ∃ check : Check, check.isOwn ∧ Rejects library invocation lookup read check := by
  constructor
  · intro hstatus
    rcases h.refused_or_below with hj | hbelow
    · exact rejects_of_job hj hstatus
    · exact absurd hstatus hbelow.exitStatus_ne_two
  · rintro ⟨check, hown, hrejects⟩
    obtain ⟨e', he, hstatus⟩ := (ends_of_rejects hrejects).2 _ h
    cases he
    rw [hstatus, if_pos hown]

end Statuses

/-- What the status of a command that fails tells. -/
structure Statuses (library : Library) (invocation : Invocation)
    (lookup : String → Option String) (read : String → Except String (List UInt8)) : Prop where
  /-- A command that a check rejects fails, with 2 for a check of its own and 1 for one of the
  layers below. -/
  rejected : ∀ check, Rejects library invocation lookup read check →
    (∃ e, invocation.Ends library lookup read (.failed e)) ∧
      ∀ ending, invocation.Ends library lookup read ending →
        ∃ e, ending = .failed e ∧ e.exitStatus = if check.isOwn then 2 else 1
  /-- Nothing but a check of the command itself gives 2, -/
  settings : ∀ e, invocation.Ends library lookup read (.failed e) →
    (e.exitStatus = 2 ↔ ∃ check : Check, check.isOwn ∧ Rejects library invocation lookup read check)
  /-- nothing but a cancellation 130, -/
  cancelled : ∀ e, invocation.Ends library lookup read (.failed e) →
    (e.exitStatus = 130 ↔ e.Cancelled)
  /-- and all else gives 1. -/
  other : ∀ e, invocation.Ends library lookup read (.failed e) →
    (e.exitStatus = 1 ↔ ¬e.Cancelled ∧
      ¬∃ check : Check, check.isOwn ∧ Rejects library invocation lookup read check)

/-- The status of a command that fails, whatever its settings, its environment and its surroundings
are. -/
theorem statuses_of_command (library : Library) (invocation : Invocation)
    (lookup : String → Option String) (read : String → Except String (List UInt8)) :
    Statuses library invocation lookup read where
  rejected _ h := ends_of_rejects h
  settings _ h := exitStatus_eq_two_iff h
  cancelled _ _ := Error.exitStatus_eq_cancelled_iff
  other e h := by
    rw [Error.exitStatus_eq_one_iff, ne_eq, exitStatus_eq_two_iff h]
    exact and_comm

/-- The command line `databases`. -/
def listing : Invocation := ⟨false, none, none, .databases false⟩

/-- Settings without a key are rejected, but the command ends as if its work had failed. -/
theorem fault_unmarked :
    Rejects .standard listing (fun _ => none) (fun _ => .ok []) .client ∧
      listing.Ends .standard (fun _ => none) (fun _ => .ok [])
        (.failed (.api (.settings .missingKey))) ∧
      (Error.api (.settings .missingKey)).exitStatus = 1 := by
  refine ⟨.client (.unnamed rfl) rfl fun merged hm hvalid => ?_, .refused rfl, rfl⟩
  cases mergedClient_eq_ok_iff.2 hm
  cases Api.Settings.check_eq_ok_iff.2 hvalid

end Command

end BulkLoad
