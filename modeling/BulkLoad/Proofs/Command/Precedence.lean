import BulkLoad.Api.WebUrl
import BulkLoad.Command.FileSettings
import BulkLoad.Proofs.Record.Resolve
import BulkLoad.Proofs.Text.Blanks

/-!
# Where settings come from

A setting has a value in the file, or a default, and sources that override it; of these the first
one that gives a value prevails (`Prevails`). For the client these are the server URL and then the
variables of the environment that are not blank (`ClientMerge`), for the import the command line
(`ImportMerge`). Nothing else changes : a setting without sources is that of the file. What is put
together is used just if it is valid, and the settings of an import are refused just if they are
not valid or if there is no destination (`precedence_of_settings`). What a server URL says is up to
the library that reads it, which may be any.
-/

namespace BulkLoad

open Text (Blanks)

/-! ## Sources -/

/-- The value of a setting : that of the first source that gives one, and `base` if none does. -/
inductive Prevails {α : Type} (base : α) : List (α → Prop) → α → Prop
  | base : Prevails base [] base
  | given {source : α → Prop} {rest : List (α → Prop)} {value : α} (h : source value) :
    Prevails base (source :: rest) value
  | silent {source : α → Prop} {rest : List (α → Prop)} {value : α} (h : ∀ other, ¬source other)
    (hr : Prevails base rest value) : Prevails base (source :: rest) value

namespace Prevails

variable {α : Type} {base value other : α} {source : α → Prop} {sources : List (α → Prop)}

/-- Sources that give one value at most leave one value at most. -/
theorem unique (hs : ∀ source ∈ sources, ∀ v w, source v → source w → v = w)
    (h : Prevails base sources value) (h' : Prevails base sources other) : value = other := by
  induction h with
  | base =>
    cases h'
    rfl
  | given hv =>
    cases h' with
    | given hw => exact hs _ List.mem_cons_self _ _ hv hw
    | silent hnone => exact absurd hv (hnone _)
  | silent hnone _ ih =>
    cases h' with
    | given hw => exact absurd hw (hnone _)
    | silent _ hr => exact ih (fun s hmem => hs s (List.mem_cons_of_mem _ hmem)) hr

/-- A single source, which may give a value. -/
theorem one_iff :
    Prevails base [source] value ↔ source value ∨ (∀ other, ¬source other) ∧ value = base := by
  constructor
  · rintro (_ | h | ⟨hnone, ⟨⟩⟩)
    · exact Or.inl h
    · exact Or.inr ⟨hnone, rfl⟩
  · rintro (h | ⟨hnone, rfl⟩)
    · exact .given h
    · exact .silent hnone .base

theorem option_iff {option : Option α} :
    Prevails base [fun v => option = some v] value ↔ value = option.getD base := by
  rw [one_iff]
  cases option with
  | none => simp
  | some v => simp [eq_comm]

/-- A source that gives values of the type of an optional setting. -/
theorem or_iff {base option value : Option α} :
    Prevails base [fun v => option = v ∧ v.isSome] value ↔ value = option.or base := by
  rw [one_iff]
  cases option with
  | none =>
    have hnone (v : Option α) : ¬(none = v ∧ v.isSome) := by
      rintro ⟨rfl, ⟨⟩⟩
    simp [hnone]
  | some w =>
    have hgiven (v : Option α) : some w = v ∧ v.isSome ↔ v = some w := by
      constructor
      · exact fun h => h.1.symm
      · rintro rfl
        exact ⟨rfl, rfl⟩
    simp [hgiven]

/-- A source that can only switch a setting on. -/
theorem flag_iff {base flag value : Bool} :
    Prevails base [fun v => flag = v ∧ v = true] value ↔ value = (flag || base) := by
  rw [one_iff]
  cases flag <;> simp [eq_comm]

end Prevails

/-! ## The client -/

namespace Api

/-- Settings that a client can be made from. -/
structure Settings.Valid (s : Settings) : Prop where
  key : ¬Blanks s.key.toList
  endpoint : ¬Blanks s.endpoint.toList
  intervals : s.retryInitial ≤ s.retryMaximal

theorem isBlankText_iff {s : String} : Text.isBlankText s ↔ Blanks s.toList :=
  List.all_eq_true

theorem Settings.check_eq_ok_iff {s : Settings} : s.check = .ok () ↔ s.Valid := by
  have hvalid : s.fault? = none ↔ s.Valid := by
    unfold fault?
    split_ifs with hkey hendpoint hintervals
    · simpa using fun h : s.Valid => h.key (isBlankText_iff.1 hkey)
    · simpa using fun h : s.Valid => h.endpoint (isBlankText_iff.1 hendpoint)
    · simpa using fun h : s.Valid => absurd h.intervals (Nat.not_le_of_lt hintervals)
    · simpa using ⟨mt isBlankText_iff.2 hkey, mt isBlankText_iff.2 hendpoint, by omega⟩
  unfold check
  rw [← hvalid]
  cases s.fault? <;> simp

end Api

namespace Command

/-- The value of a variable of the environment that is not blank. -/
def Told (lookup : String → Option String) (name value : String) : Prop :=
  lookup name = some value ∧ ¬Blanks value.toList

theorem nonBlank_eq_some_iff {lookup : String → Option String} {name value : String} :
    Api.Settings.nonBlank lookup name = some value ↔ Told lookup name value := by
  rw [Api.Settings.nonBlank, Option.filter_eq_some_iff, Told, ← Api.isBlankText_iff]
  simp

/-- What a server URL says to the library, if one is given. -/
def Located (library : Api.Library) (serverUrl : Option String) (place : Api.Url) : Prop :=
  ∃ url, serverUrl = some url ∧ library.readUrl url = .ok place

/-- Settings of a client that are put together from those of the file, the environment and a server
URL. -/
structure ClientMerge (library : Api.Library) (file : Api.Settings)
    (lookup : String → Option String) (serverUrl : Option String) (merged : Api.Settings) :
    Prop where
  /-- A server URL names a host. -/
  reachable : ∀ url, serverUrl = some url →
    ∃ place host, library.readUrl url = .ok place ∧ place.host = some host
  key : Prevails file.key [Told lookup "TD_API_KEY"] merged.key
  endpoint : Prevails file.endpoint
    [fun host => ∃ place, Located library serverUrl place ∧ place.host = some host,
      Told lookup "TD_API_SERVER"] merged.endpoint
  port : Prevails file.port
    [fun port => ∃ place, Located library serverUrl place ∧ place.port = port] merged.port
  secure : Prevails file.secure
    [fun secure => ∃ place, Located library serverUrl place ∧
      (secure = true ↔ place.scheme = "https")] merged.secure
  /-- All else is as in the file. -/
  others : merged = { file with
    key := merged.key, endpoint := merged.endpoint, port := merged.port, secure := merged.secure }

section Client

variable {library : Api.Library} {file merged other : Api.Settings}
  {lookup : String → Option String} {serverUrl : Option String}

theorem Told.unique {name value value' : String} (h : Told lookup name value)
    (h' : Told lookup name value') : value = value' :=
  Option.some.inj (h.1.symm.trans h'.1)

theorem Located.unique {place place' : Api.Url} (h : Located library serverUrl place)
    (h' : Located library serverUrl place') : place = place' := by
  obtain ⟨url, hurl, hplace⟩ := h
  obtain ⟨url', hurl', hplace'⟩ := h'
  obtain rfl : url = url' := Option.some.inj (hurl.symm.trans hurl')
  exact Except.ok.inj (hplace.symm.trans hplace')

/-- There is one way to put the settings of a client together. -/
theorem ClientMerge.unique (h : ClientMerge library file lookup serverUrl merged)
    (h' : ClientMerge library file lookup serverUrl other) : merged = other := by
  have hkey : merged.key = other.key :=
    h.key.unique (by simpa using fun v w => Told.unique) h'.key
  have hendpoint : merged.endpoint = other.endpoint := by
    refine h.endpoint.unique ?_ h'.endpoint
    rintro source (_ | ⟨_, _ | ⟨_, ⟨⟩⟩⟩) v w hv hw
    · obtain ⟨place, hplace, hv⟩ := hv
      obtain ⟨place', hplace', hw⟩ := hw
      rw [hplace'.unique hplace, hv] at hw
      exact Option.some.inj hw
    · exact hv.unique hw
  have hport : merged.port = other.port := by
    refine h.port.unique ?_ h'.port
    rintro source (_ | ⟨_, ⟨⟩⟩) v w ⟨place, hplace, rfl⟩ ⟨place', hplace', rfl⟩
    rw [hplace.unique hplace']
  have hsecure : merged.secure = other.secure := by
    refine h.secure.unique ?_ h'.secure
    rintro source (_ | ⟨_, ⟨⟩⟩) v w ⟨place, hplace, hv⟩ ⟨place', hplace', hw⟩
    rw [← hplace.unique hplace', ← hv] at hw
    exact Bool.eq_iff_iff.2 hw.symm
  rw [h.others, h'.others, hkey, hendpoint, hport, hsecure]

theorem prevails_told (lookup : String → Option String) (name base : String) :
    Prevails base [Told lookup name] ((Api.Settings.nonBlank lookup name).getD base) := by
  have htold : (fun value => Api.Settings.nonBlank lookup name = some value) = Told lookup name :=
    funext fun _ => propext nonBlank_eq_some_iff
  rw [← htold]
  exact Prevails.option_iff.2 rfl

theorem clientMerge_of_mergedClient {s : FileSettings}
    (h : s.mergedClient library lookup serverUrl = .ok merged) :
    ClientMerge library s.client lookup serverUrl merged := by
  unfold FileSettings.mergedClient at h
  cases serverUrl with
  | none =>
    cases h
    have hnowhere (place : Api.Url) : ¬Located library none place := by simp [Located]
    refine ⟨by simp, prevails_told .., .silent ?_ (prevails_told ..), .silent ?_ .base,
      .silent ?_ .base, rfl⟩
    all_goals
      rintro v ⟨place, hplace, -⟩
      exact hnowhere place hplace
  | some url =>
    dsimp only at h
    unfold Api.Settings.atUrl at h
    split at h
    · cases h
    · next place hplace =>
      split at h
      · cases h
      · next host hhost =>
        cases h
        have hlocated : Located library (some url) place := ⟨url, rfl, hplace⟩
        refine ⟨?_, prevails_told .., .given ⟨place, hlocated, hhost⟩,
          .given ⟨place, hlocated, rfl⟩, .given ⟨place, hlocated, by simp⟩, rfl⟩
        rintro _ ⟨⟩
        exact ⟨place, host, hplace, hhost⟩

/-- The settings of a client are put together in this way whenever a server URL names a host. -/
theorem mergedClient_eq_ok_iff {s : FileSettings} :
    s.mergedClient library lookup serverUrl = .ok merged ↔
      ClientMerge library s.client lookup serverUrl merged := by
  refine ⟨clientMerge_of_mergedClient, fun h => ?_⟩
  obtain ⟨result, hresult⟩ : ∃ result, s.mergedClient library lookup serverUrl = .ok result := by
    unfold FileSettings.mergedClient
    cases serverUrl with
    | none => exact ⟨_, rfl⟩
    | some url =>
      obtain ⟨place, host, hplace, hhost⟩ := h.reachable url rfl
      simp only [Api.Settings.atUrl, hplace, hhost]
      exact ⟨_, rfl⟩
  rw [hresult, (clientMerge_of_mergedClient hresult).unique h]

theorem clientSettings_eq_ok_iff {s : FileSettings} :
    s.clientSettings library lookup serverUrl = .ok merged ↔
      ClientMerge library s.client lookup serverUrl merged ∧ merged.check = .ok () := by
  rw [← mergedClient_eq_ok_iff]
  unfold FileSettings.clientSettings
  cases s.mergedClient library lookup serverUrl with
  | error e => simp [bind, Except.bind]
  | ok result =>
    simp only [bind, Except.bind, pure, Except.pure, Except.ok.injEq]
    cases hcheck : result.check with
    | error e =>
      simp only [reduceCtorEq, false_iff, not_and]
      rintro rfl hok
      rw [hcheck] at hok
      cases hok
    | ok _ =>
      simp only [Except.ok.injEq, iff_self_and]
      rintro rfl
      exact hcheck

end Client

/-! ## The import -/

/-- Settings that an import can run with. -/
structure Runnable (s : Import.Settings) : Prop where
  database : ¬Blanks s.database.toList
  table : ¬Blanks s.table.toList
  session : ∀ name, s.session = some name → ¬Blanks name.toList
  priority : -2 ≤ s.priority ∧ s.priority ≤ 2
  partSize : 0 < s.partSize
  pollInterval : 0 < s.pollInterval

/-- What the settings of an import start from : those of the file, or else the defaults for the
database and the table of the command line. -/
inductive Base (s : FileSettings) (a : ImportArguments) : Import.Settings → Prop
  | file {base : Import.Settings} (h : s.importing = some base) : Base s a base
  | defaults {database table : String} (h : s.importing = none) (hd : a.database = some database)
    (ht : a.table = some table) : Base s a { database, table }

/-- There is neither a section for the import nor a database and a table on the command line. -/
def NoDestination (s : FileSettings) (a : ImportArguments) : Prop :=
  s.importing = none ∧ (a.database = none ∨ a.table = none)

/-- Settings of an import that are put together from `base` and the command line. -/
structure ImportMerge (base : Import.Settings) (a : ImportArguments)
    (merged : Import.Settings) : Prop where
  database : Prevails base.database [fun v => a.database = some v] merged.database
  table : Prevails base.table [fun v => a.table = some v] merged.table
  session : Prevails base.session [fun v => a.session = v ∧ v.isSome] merged.session
  mode : Prevails base.mode [fun v => a.mode = some v] merged.mode
  priority : Prevails base.priority [fun v => a.priority = some v] merged.priority
  uploads : Prevails base.uploads [fun v => a.parallel = some v] merged.uploads
  stopOnInvalid : Prevails base.stopOnInvalid [fun v => a.stopOnInvalid = v ∧ v = true]
    merged.stopOnInvalid
  /-- All else is as it was. -/
  others : merged = { base with
    database := merged.database, table := merged.table, session := merged.session
    mode := merged.mode, priority := merged.priority, uploads := merged.uploads
    stopOnInvalid := merged.stopOnInvalid }

section Import

variable {s : FileSettings} {a : ImportArguments} {base merged other : Import.Settings}

theorem isPriority_iff {value : Int} : Import.isPriority value ↔ -2 ≤ value ∧ value ≤ 2 := by
  simp [Import.isPriority]

theorem check_eq_ok_iff_runnable {s : Import.Settings} : s.check = .ok () ↔ Runnable s := by
  have hrunnable : s.fault? = none ↔ Runnable s := by
    unfold Import.Settings.fault?
    split_ifs with hdatabase htable hsession hpriority hsize hinterval
    · simpa using fun h : Runnable s => h.database (Api.isBlankText_iff.1 hdatabase)
    · simpa using fun h : Runnable s => h.table (Api.isBlankText_iff.1 htable)
    · obtain ⟨name, hname, hblank⟩ := (Option.any_eq_true ..).1 hsession
      simpa using fun h : Runnable s => h.session name hname (Api.isBlankText_iff.1 hblank)
    · have hnot : ¬Import.isPriority s.priority := by simpa using hpriority
      simpa using fun h : Runnable s => hnot (isPriority_iff.2 h.priority)
    · simpa using fun h : Runnable s => absurd hsize (Nat.ne_of_gt h.partSize)
    · simpa using fun h : Runnable s => absurd hinterval (Nat.ne_of_gt h.pollInterval)
    · have hrange : -2 ≤ s.priority ∧ s.priority ≤ 2 := isPriority_iff.1 (by simpa using hpriority)
      have hnames : ∀ name, s.session = some name → ¬Blanks name.toList := fun name hname hblank =>
        hsession ((Option.any_eq_true ..).2 ⟨name, hname, Api.isBlankText_iff.2 hblank⟩)
      simpa using ⟨mt Api.isBlankText_iff.2 hdatabase, mt Api.isBlankText_iff.2 htable, hnames,
        hrange, Nat.pos_of_ne_zero hsize, Nat.pos_of_ne_zero hinterval⟩
  unfold Import.Settings.check
  rw [← hrunnable]
  cases s.fault? <;> simp

/-- There is one way to put the settings of an import together. -/
theorem importMerge_iff : ImportMerge base a merged ↔ merged = FileSettings.override base a := by
  constructor
  · intro h
    rw [h.others, Prevails.option_iff.1 h.database, Prevails.option_iff.1 h.table,
      Prevails.or_iff.1 h.session, Prevails.option_iff.1 h.mode, Prevails.option_iff.1 h.priority,
      Prevails.option_iff.1 h.uploads, Prevails.flag_iff.1 h.stopOnInvalid]
    rfl
  · rintro rfl
    exact ⟨Prevails.option_iff.2 rfl, Prevails.option_iff.2 rfl, Prevails.or_iff.2 rfl,
      Prevails.option_iff.2 rfl, Prevails.option_iff.2 rfl, Prevails.option_iff.2 rfl,
      Prevails.flag_iff.2 rfl, rfl⟩

theorem base_or_noDestination (s : FileSettings) (a : ImportArguments) :
    (∃ base, Base s a base) ∨ NoDestination s a := by
  cases hs : s.importing with
  | some base => exact Or.inl ⟨base, .file hs⟩
  | none =>
    cases hd : a.database with
    | none => exact Or.inr ⟨hs, Or.inl hd⟩
    | some database =>
      cases ht : a.table with
      | none => exact Or.inr ⟨hs, Or.inr ht⟩
      | some table => exact Or.inl ⟨_, .defaults hs hd ht⟩

theorem importSettings_of_base (h : Base s a base) :
    s.importSettings a = match (FileSettings.override base a).check with
      | .ok () => .ok (FileSettings.override base a)
      | .error fault => .error (.importing (.settings fault)) := by
  unfold FileSettings.importSettings
  cases h with
  | file hs =>
    rw [hs]
    rfl
  | defaults hs hd ht =>
    rw [hs, hd, ht]
    rfl

theorem importSettings_of_noDestination (h : NoDestination s a) :
    s.importSettings a = .error (.settings .noDestination) := by
  obtain ⟨hs, hd | ht⟩ := h
  · unfold FileSettings.importSettings
    rw [hs, hd]
    rfl
  · unfold FileSettings.importSettings
    rw [hs, ht]
    cases a.database <;> rfl

theorem importSettings_of_runnable (hb : Base s a base) (hm : ImportMerge base a merged)
    (h : Runnable merged) : s.importSettings a = .ok merged := by
  rw [importMerge_iff] at hm
  subst hm
  rw [importSettings_of_base hb, check_eq_ok_iff_runnable.2 h]

theorem importSettings_of_not_runnable (hb : Base s a base) (hm : ImportMerge base a merged)
    (h : ¬Runnable merged) :
    ∃ fault, s.importSettings a = .error (.importing (.settings fault)) := by
  rw [importMerge_iff] at hm
  subst hm
  rw [importSettings_of_base hb]
  cases hc : (FileSettings.override base a).check with
  | ok u => exact absurd (check_eq_ok_iff_runnable.1 hc) h
  | error fault => exact ⟨fault, rfl⟩

end Import

/-! ## Precedence -/

/-- Where the settings of a command come from. -/
structure Precedence (library : Api.Library) (s : FileSettings) : Prop where
  /-- The client has what the file, the environment and the server URL make together, -/
  client : ∀ lookup serverUrl result, s.clientSettings library lookup serverUrl = .ok result ↔
    ClientMerge library s.client lookup serverUrl result ∧ result.Valid
  /-- and the import what the file, or the defaults, and the command line make together. -/
  importing : ∀ a result, s.importSettings a = .ok result ↔
    ∃ base, Base s a base ∧ ImportMerge base a result ∧ Runnable result
  /-- Settings of an import are refused for want of a destination, or for what they are. -/
  refused : ∀ a, (∃ e, s.importSettings a = .error e) ↔
    NoDestination s a ∨ ∃ base merged, Base s a base ∧ ImportMerge base a merged ∧ ¬Runnable merged
  /-- The settings that are used are those that are accepted. -/
  accepted : (∀ settings : Api.Settings, settings.check = .ok () ↔ settings.Valid) ∧
    ∀ settings : Import.Settings, settings.check = .ok () ↔ Runnable settings

/-- Settings come from the first source that gives them, and are refused only for what they are. -/
theorem precedence_of_settings (library : Api.Library) (s : FileSettings) :
    Precedence library s where
  client lookup serverUrl result := by
    rw [clientSettings_eq_ok_iff, Api.Settings.check_eq_ok_iff]
  importing a result := by
    constructor
    · intro h
      rcases base_or_noDestination s a with ⟨base, hbase⟩ | hmissing
      · have hmerge : ImportMerge base a (FileSettings.override base a) := importMerge_iff.2 rfl
        by_cases hrunnable : Runnable (FileSettings.override base a)
        · rw [importSettings_of_runnable hbase hmerge hrunnable] at h
          cases h
          exact ⟨base, hbase, hmerge, hrunnable⟩
        · obtain ⟨fault, hfault⟩ := importSettings_of_not_runnable hbase hmerge hrunnable
          rw [hfault] at h
          cases h
      · rw [importSettings_of_noDestination hmissing] at h
        cases h
    · rintro ⟨base, hbase, hmerge, hrunnable⟩
      exact importSettings_of_runnable hbase hmerge hrunnable
  refused a := by
    constructor
    · rintro ⟨e, h⟩
      rcases base_or_noDestination s a with ⟨base, hbase⟩ | hmissing
      · refine Or.inr ⟨base, _, hbase, importMerge_iff.2 rfl, fun hrunnable => ?_⟩
        rw [importSettings_of_runnable hbase (importMerge_iff.2 rfl) hrunnable] at h
        cases h
      · exact Or.inl hmissing
    · rintro (hmissing | ⟨base, merged, hbase, hmerge, hnot⟩)
      · exact ⟨_, importSettings_of_noDestination hmissing⟩
      · obtain ⟨fault, hfault⟩ := importSettings_of_not_runnable hbase hmerge hnot
        exact ⟨_, hfault⟩
  accepted := ⟨fun _ => Api.Settings.check_eq_ok_iff, fun _ => check_eq_ok_iff_runnable⟩

/-- A file with a key and a limit for retries. -/
def filed : FileSettings :=
  { client := { key := "filed", retryLimit := 3 } }

/-- An environment with a key and a host. -/
def exported (name : String) : Option String :=
  [("TD_API_KEY", "exported"), ("TD_API_SERVER", "other.example")].lookup name

/-- The environment gives the key, the server URL the host, the port and the scheme, and the file
the limit. -/
theorem merge_filed :
    filed.clientSettings Api.WebUrl.library exported (some "http://Example.com:8080/x") =
        .ok { key := "exported", endpoint := "example.com", port := some 8080, secure := false,
              retryLimit := 3 } ∧
      ClientMerge Api.WebUrl.library filed.client exported (some "http://Example.com:8080/x")
        { key := "exported", endpoint := "example.com", port := some 8080, secure := false,
          retryLimit := 3 } := by
  have hprecedence := precedence_of_settings Api.WebUrl.library filed
  exact ⟨rfl, ((hprecedence.client _ _ _).1 rfl).1⟩

end Command

end BulkLoad
