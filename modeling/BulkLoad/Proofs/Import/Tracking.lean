import BulkLoad.Proofs.Import.Accounts
import BulkLoad.Proofs.Import.Scene

/-!
# Keeping track of uploads

Whatever the order of events, an upload only does what its program asks, for the file that it was
started with, and its ticket is the number of uploads started before it (`Tracked`). So an import
that is told that an upload succeeded can rely on it that the service has accepted the part
(`exists_accepted`).
-/

namespace BulkLoad.Import

open Program (Trace Leads)

variable {client : Api.Client} {log : List Happening} {scene : Scene}

/-! ## One upload -/

namespace Upload

/-- The request that sends a part. -/
def sending (session : String) (file : Part.File) : Api.Request :=
  ⟨.put, .partUpload session file.name, .file file.path⟩

/-- A question of a call, as one of an upload. -/
def ofCall (e : Program.Event Api.Answer) : Program.Event Answer :=
  ⟨.api e.1, e.2⟩

variable {session : String} {file : Part.File} {events : List (Program.Event Answer)}

theorem of_send {outcome : Option (Outcome Empty (Except Api.Error Unit))}
    (h : Trace (send client session file) events outcome) :
    ∃ inner result, events = inner.map ofCall ∧
      Api.Exchange (sending session file) inner result ∧
      (outcome = none ∨ ∃ r, outcome = some (.done r)) ∧
      (outcome = some (.done (.ok ())) → ∃ body, result = some (.done body)) := by
  obtain ⟨embedded, he, rfl⟩ := Trace.of_attempt h
  obtain ⟨inner, rfl, hc⟩ := Trace.of_embed he
  obtain ⟨result, hx, hr⟩ := Api.Client.exchange_of_perform hc
  rw [List.map_id'] at hx
  refine ⟨inner, result, rfl, hx, ?_, fun ho => ?_⟩
  · rcases hr with ⟨body, -, rfl⟩ | hs
    · exact Or.inr ⟨_, rfl⟩
    · cases hs with
      | cut => exact Or.inl rfl
      | failed e => exact Or.inr ⟨_, rfl⟩
      | aborted reason => exact absurd rfl (hx.not_aborted reason)
  · rcases hr with ⟨body, rfl, -⟩ | hs
    · exact ⟨body, rfl⟩
    · cases hs <;> simp [Outcome.attempt] at ho

/-- An upload sends the file of its part, and then removes it; it is not over before. -/
theorem of_task {outcome : Option (Outcome Empty Ending)}
    (h : Trace (task client session file) events outcome) :
    ∃ inner result tail, events = inner.map ofCall ++ tail ∧
      Api.Exchange (sending session file) inner result ∧
      (tail = [] ∧ outcome = none ∨ tail = [⟨.part (.remove file.path), ()⟩] ∧
        ∃ ending, outcome = some (.done ending)) ∧
      (outcome = some (.done .uploaded) → ∃ body, result = some (.done body)) := by
  rcases Trace.of_bind h with ⟨first, r, rest, rfl, h₁, h₂⟩ | ⟨stop, h₁, hs⟩
  · obtain ⟨inner, result, rfl, hx, -, hr⟩ := of_send h₁
    rcases Trace.of_query_bind h₂ with ⟨rfl, rfl⟩ | ⟨_, last, rfl, h₃⟩
    · exact ⟨inner, result, [], rfl, hx, Or.inl ⟨rfl, rfl⟩, by simp⟩
    · obtain ⟨rfl, rfl⟩ := Trace.of_pure h₃
      refine ⟨inner, result, _, rfl, hx, Or.inr ⟨rfl, _, rfl⟩, fun ho => hr ?_⟩
      cases r with
      | ok => rfl
      | error e => simp [Ending.ofCall] at ho
  · obtain ⟨inner, result, rfl, hx, hn, -⟩ := of_send h₁
    exact ⟨inner, result, [], by simp, hx, Or.inl ⟨rfl, hs.eq_none hn⟩,
      fun ho => absurd ho (hs.ne_done _)⟩

/-- The service accepts a part. -/
def accepted : Program.Event Answer → Bool
  | ⟨.api (.send request), reply⟩ => (Api.Client.settle request reply).toOption.isSome
  | _ => false

theorem of_accepted {request : Api.Request} {reply : Api.Reply}
    (h : accepted ⟨.api (.send request), reply⟩ = true) :
    ∃ body, Api.Client.settle request reply = .ok body := by
  cases hs : Api.Client.settle request reply with
  | ok body => exact ⟨body, rfl⟩
  | error e => simp [accepted, hs, Except.toOption] at h

/-- An upload that succeeds was accepted once, with its last attempt. -/
theorem filter_accepted (h : Trace (task client session file) events (some (.done .uploaded))) :
    ∃ reply, events.filter accepted = [⟨.api (.send (sending session file)), reply⟩] := by
  obtain ⟨inner, result, tail, rfl, hx, htail, ho⟩ := of_task h
  obtain ⟨body, rfl⟩ := ho rfl
  obtain ⟨tries, reply, rfl, hs, hb⟩ := hx.of_done
  have htries : (tries.map ofCall).filter accepted = [] := by
    refine List.filter_eq_nil_iff.2 fun e he => ?_
    obtain ⟨⟨q, a⟩, hm, rfl⟩ := List.mem_map.1 he
    cases q with
    | wait span => simp [accepted, ofCall]
    | send request =>
      obtain rfl := hx.request_eq (List.mem_append_left _ hm)
      obtain ⟨e, he⟩ := hb _ _ hm
      simp [accepted, ofCall, he, Except.toOption]
  refine ⟨reply, ?_⟩
  rw [List.map_append, List.filter_append, List.filter_append, htries]
  rcases htail with ⟨rfl, -⟩ | ⟨rfl, -⟩ <;> simp [accepted, ofCall, hs, Except.toOption]

end Upload

/-! ## Logs -/

@[simp] theorem own_append (first rest : List Happening) :
    own (first ++ rest) = own first ++ own rest :=
  List.filterMap_append

@[simp] theorem beside_append (ticket : Nat) (first rest : List Happening) :
    beside ticket (first ++ rest) = beside ticket first ++ beside ticket rest :=
  List.filterMap_append

@[simp] theorem own_own (e : Event) : own [.own e] = [e] :=
  rfl

theorem own_cons_own (e : Event) (rest : List Happening) :
    own (.own e :: rest) = e :: own rest :=
  rfl

@[simp] theorem own_beside (ticket : Nat) (content : Option (List UInt8))
    (e : Program.Event Upload.Answer) : own [.beside ticket content e] = [] :=
  rfl

@[simp] theorem own_crashed (ticket : Nat) : own [.crashed ticket] = [] :=
  rfl

@[simp] theorem beside_own (ticket : Nat) (e : Event) : beside ticket [.own e] = [] :=
  rfl

@[simp] theorem beside_crashed (ticket t : Nat) : beside ticket [.crashed t] = [] :=
  rfl

@[simp] theorem beside_self (ticket : Nat) (content : Option (List UInt8))
    (e : Program.Event Upload.Answer) : beside ticket [.beside ticket content e] = [e] := by
  simp [beside]

theorem beside_of_ne {ticket t : Nat} (h : t ≠ ticket) (content : Option (List UInt8))
    (e : Program.Event Upload.Answer) : beside ticket [.beside t content e] = [] := by
  simp [beside, h]

theorem mem_own {log : List Happening} {e : Event} : e ∈ own log ↔ .own e ∈ log := by
  constructor
  · intro h
    obtain ⟨happening, hm, he⟩ := List.mem_filterMap.1 h
    cases happening <;> simp at he
    exact he ▸ hm
  · exact fun h => List.mem_filterMap.2 ⟨_, h, rfl⟩

theorem mem_beside {log : List Happening} {ticket : Nat} {e : Program.Event Upload.Answer} :
    e ∈ beside ticket log ↔ ∃ content, .beside ticket content e ∈ log := by
  constructor
  · intro h
    obtain ⟨happening, hm, he⟩ := List.mem_filterMap.1 h
    cases happening <;> simp at he
    obtain ⟨rfl, rfl⟩ := he
    exact ⟨_, hm⟩
  · rintro ⟨content, h⟩
    exact List.mem_filterMap.2 ⟨_, h, by simp⟩

/-! ## All uploads -/

/-- An upload of a scene after another one was started. -/
theorem upload_of_started {uploads : List Running} {started running : Running} {t : Nat}
    (h : (uploads ++ [started])[t]? = some running) :
    uploads[t]? = some running ∨ t = uploads.length ∧ running = started := by
  rcases Nat.lt_or_ge t uploads.length with ht | ht
  · rw [List.getElem?_append_left ht] at h
    exact Or.inl h
  · rw [List.getElem?_append_right ht] at h
    cases hz : t - uploads.length with
    | zero => exact Or.inr ⟨by omega, by simpa [hz] using h.symm⟩
    | succ => simp [hz] at h

theorem Scene.goOn_self {scene : Scene} {ticket : Nat} {running : Running} (file : Part.File)
    (rest : Program Upload.Answer Empty Upload.Ending)
    (h : scene.uploads[ticket]? = some running) :
    (scene.goOn ticket file rest).uploads[ticket]? = some ⟨file, rest⟩ := by
  have hlt := (List.getElem?_eq_some_iff.1 h).1
  simp [Scene.goOn, hlt]

/-- An upload of a scene after one of them went on. -/
theorem Scene.upload_of_goOn {ticket t : Nat} {file : Part.File}
    {rest : Program Upload.Answer Empty Upload.Ending} {running : Running}
    (h : (scene.goOn ticket file rest).uploads[t]? = some running) :
    (ticket = t ∧ running = ⟨file, rest⟩) ∨ ticket ≠ t ∧ scene.uploads[t]? = some running := by
  rw [Scene.goOn, List.getElem?_set] at h
  split at h
  next ht =>
    split at h
    · exact Or.inl ⟨ht, by simpa using h.symm⟩
    · simp at h
  next ht => exact Or.inr ⟨ht, h⟩

/-- What a log says of the uploads in a scene. -/
structure Tracked (client : Api.Client) (log : List Happening) (scene : Scene) : Prop where
  length : scene.uploads.length = (launches (own log)).length
  /-- What is left of an upload is left of its program after its questions, unless it crashed. Its
  ticket is its number. -/
  left : ∀ t running, scene.uploads[t]? = some running → ∃ session rest,
    (launches (own log))[t]? = some (session, ⟨t, running.file⟩) ∧
    Leads (Upload.task client session running.file) (beside t log) rest ∧
    (running.rest = rest ∨ running.rest = .done .crashed)
  /-- An upload asks nothing before it is started. -/
  silent : ∀ t, scene.uploads.length ≤ t → beside t log = []

namespace Tracked

theorem start (client : Api.Client) (files : Files) : Tracked client [] ⟨[], files⟩ where
  length := rfl
  left _ _ h := by simp at h
  silent _ _ := rfl

/-- A question of the import that starts no upload. -/
theorem asked (h : Tracked client log scene) {q : Question}
    (hq : ∀ session file, q ≠ .startUpload session file) (a : Answer q) (files : Files) :
    Tracked client (log ++ [.own ⟨q, a⟩]) { scene with files } where
  length := by simpa [launches_of_ne hq] using h.length
  left t running hr := by simpa [launches_of_ne hq] using h.left t running hr
  silent t ht := by simpa using h.silent t ht

theorem started (h : Tracked client log scene) (session : String) (file : Part.File) :
    Tracked client (log ++ [.own ⟨.startUpload session file, scene.uploads.length⟩])
      { scene with uploads := scene.uploads ++ [⟨file, Upload.task client session file⟩] } where
  length := by simpa using h.length
  left t running hr := by
    rcases upload_of_started hr with hr | ⟨rfl, rfl⟩
    · obtain ⟨session', rest, hl, hd⟩ := h.left t running hr
      refine ⟨session', rest, ?_, by simpa using hd⟩
      have ht := (List.getElem?_eq_some_iff.1 hr).1
      rw [own_append, launches_append, List.getElem?_append_left (h.length ▸ ht)]
      exact hl
    · refine ⟨session, _, ?_, ?_, Or.inl rfl⟩
      · simp [h.length]
      · simpa [h.silent _ (Nat.le_refl _)] using Leads.refl _
  silent t ht := by
    have hs := h.silent t (by simp at ht; omega)
    simpa using hs

/-- A question of an upload. -/
theorem wentOn (h : Tracked client log scene) {ticket : Nat} {file : Part.File}
    {q : Upload.Question} {next : Upload.Answer q → Program Upload.Answer Empty Upload.Ending}
    (hu : scene.uploads[ticket]? = some ⟨file, .ask q next⟩) (a : Upload.Answer q)
    (content : Option (List UInt8)) (files : Files) :
    Tracked client (log ++ [.beside ticket content ⟨q, a⟩])
      { scene.goOn ticket file (next a) with files } where
  length := by simpa [Scene.goOn] using h.length
  left t running hr := by
    rcases Scene.upload_of_goOn hr with ⟨rfl, rfl⟩ | ⟨ht, hr⟩
    · obtain ⟨session, rest, hl, hd, he⟩ := h.left ticket _ hu
      obtain rfl : .ask q next = rest := by simpa using he
      exact ⟨session, next a, by simpa using hl, by simpa using hd.snoc a, Or.inl rfl⟩
    · obtain ⟨session, rest, hl, hd⟩ := h.left t running hr
      exact ⟨session, rest, by simpa using hl, by simpa [beside_of_ne ht] using hd⟩
  silent t ht := by
    have hlt := (List.getElem?_eq_some_iff.1 hu).1
    have hs := h.silent t (by simpa [Scene.goOn] using ht)
    have hne : ticket ≠ t := by
      rintro rfl
      simp [Scene.goOn] at ht
      omega
    simpa [beside_of_ne hne] using hs

theorem crashed (h : Tracked client log scene) {ticket : Nat} {file : Part.File}
    {q : Upload.Question} {next : Upload.Answer q → Program Upload.Answer Empty Upload.Ending}
    (hu : scene.uploads[ticket]? = some ⟨file, .ask q next⟩) (files : Files) :
    Tracked client (log ++ [.crashed ticket])
      { scene.goOn ticket file (.done .crashed) with files } where
  length := by simpa [Scene.goOn] using h.length
  left t running hr := by
    rcases Scene.upload_of_goOn hr with ⟨rfl, rfl⟩ | ⟨-, hr⟩
    · obtain ⟨session, rest, hl, hd, -⟩ := h.left ticket _ hu
      exact ⟨session, rest, by simpa using hl, by simpa using hd, Or.inr rfl⟩
    · simpa using h.left t running hr
  silent t ht := by simpa using h.silent t (by simpa [Scene.goOn] using ht)

/-- The only work of an upload on files is to remove its own, and then it is over. -/
theorem worked (h : Tracked client log scene) {ticket : Nat} {file : Part.File}
    {q : Part.Question} {next : Part.Answer q → Program Upload.Answer Empty Upload.Ending}
    (hu : scene.uploads[ticket]? = some ⟨file, .ask (.part q) next⟩) (a : Part.Answer q) :
    q = .remove file.path ∧ ∃ ending, next a = .done ending := by
  obtain ⟨session, rest, -, hd, he⟩ := h.left ticket _ hu
  obtain rfl : .ask (.part q) next = rest := by simpa using he
  obtain ⟨outcome, ht⟩ := Program.exists_trace (next a)
  obtain ⟨inner, result, tail, hi, -, htail, -⟩ := Upload.of_task ((hd.snoc a).trace ht)
  have hm : (⟨.part q, a⟩ : Program.Event Upload.Answer) ∈ inner.map Upload.ofCall ++ tail := by
    rw [← hi]
    simp
  rcases List.mem_append.1 hm with hm | hm
  · obtain ⟨e, -, he⟩ := List.mem_map.1 hm
    simp [Upload.ofCall] at he
  · rcases htail with ⟨rfl, -⟩ | ⟨rfl, ending, rfl⟩
    · simp at hm
    · have hq : Upload.Question.part q = .part (.remove file.path) :=
        congrArg Sigma.fst (List.mem_singleton.1 hm)
      refine ⟨by simpa using hq, ending, ?_⟩
      cases hna : next a with
      | done ending' =>
        rw [hna] at ht
        cases ht
        rfl
      | failed | aborted | ask =>
        rw [hna] at ht
        cases ht

/-- An upload that has succeeded was accepted once. -/
theorem filter_accepted (h : Tracked client log scene) {ticket : Nat} {file : Part.File}
    (hu : scene.uploads[ticket]? = some ⟨file, .done .uploaded⟩) :
    ∃ session reply, (launches (own log))[ticket]? = some (session, ⟨ticket, file⟩) ∧
      (beside ticket log).filter Upload.accepted =
        [⟨.api (.send (Upload.sending session file)), reply⟩] := by
  obtain ⟨session, rest, hl, hd, he⟩ := h.left ticket _ hu
  obtain rfl : .done .uploaded = rest := by simpa using he
  have htask := hd.trace (.done _)
  rw [List.append_nil] at htask
  obtain ⟨reply, hf⟩ := Upload.filter_accepted htask
  exact ⟨session, reply, hl, hf⟩

/-- The ticket of an upload is its number. -/
theorem ticket_eq (h : Tracked client log scene) {t : Nat} {launch : String × Started}
    (hl : (launches (own log))[t]? = some launch) : launch.2.ticket = t := by
  have hlt : t < scene.uploads.length := h.length ▸ (List.getElem?_eq_some_iff.1 hl).1
  obtain ⟨session, rest, he, -⟩ := h.left t _ (List.getElem?_eq_getElem hlt)
  rw [hl] at he
  rw [Option.some.inj he]

theorem launch_at (h : Tracked client log scene) {launch : String × Started}
    (hl : launch ∈ launches (own log)) :
    (launches (own log))[launch.2.ticket]? = some launch := by
  obtain ⟨t, ht⟩ := List.getElem?_of_mem hl
  rw [h.ticket_eq ht]
  exact ht

/-- Whatever happens next is kept track of. -/
theorem move (h : Tracked client log scene) {happening : Happening} {scene' : Scene}
    (m : Move client scene happening scene') : Tracked client (log ++ [happening]) scene' := by
  cases m with
  | part => exact h.asked (by simp) _ _
  | started session file => exact h.started session file
  | awaited => exact h.asked (by simp) _ _
  | aside hq a =>
    refine h.asked ?_ a scene.files
    rintro session file rfl
    exact hq
  | called hu a => exact h.wentOn hu a _ scene.files
  | worked hu hs => exact h.wentOn hu _ none _
  | crashed hu => exact h.crashed hu _

theorem of_path {files : Files} (h : Path client ⟨[], files⟩ log scene) :
    Tracked client log scene := by
  induction h with
  | nil => exact start client files
  | snoc _ m ih => exact ih.move m

end Tracked

/-! ## Moments of a path -/

theorem Path.split {start : Scene} {first rest : List Happening}
    (h : Path client start (first ++ rest) scene) :
    ∃ middle, Path client start first middle ∧ Path client middle rest scene := by
  generalize hl : first ++ rest = log at h
  induction h generalizing rest with
  | nil =>
    obtain ⟨rfl, rfl⟩ := List.append_eq_nil_iff.1 hl
    exact ⟨start, .nil, .nil⟩
  | @snoc log scene scene' happening hp m ih =>
    rcases List.eq_nil_or_concat rest with rfl | ⟨rest, last, rfl⟩
    · rw [List.append_nil] at hl
      subst hl
      exact ⟨scene', .snoc hp m, .nil⟩
    · have hs : (first ++ rest) ++ [last] = log ++ [happening] := by simpa using hl
      obtain ⟨rfl, he⟩ := List.append_inj' hs rfl
      obtain rfl : last = happening := by simpa using he
      obtain ⟨middle, h₁, h₂⟩ := ih rfl
      rw [List.concat_eq_append]
      exact ⟨middle, h₁, .snoc h₂ m⟩

/-- What happens at some moment is a move of the scene that the moment finds. -/
theorem Path.move_at {start : Scene} {before after : List Happening} {happening : Happening}
    (h : Path client start (before ++ happening :: after) scene) :
    ∃ found next, Path client start before found ∧ Move client found happening next ∧
      Path client next after scene := by
  rw [← List.singleton_append, ← List.append_assoc] at h
  obtain ⟨next, h, hafter⟩ := h.split
  generalize hl : before ++ [happening] = log at h
  cases h with
  | nil => simp at hl
  | @snoc log found _ last hp m =>
    obtain ⟨rfl, he⟩ := List.append_inj' hl rfl
    obtain rfl : happening = last := by simpa using he
    exact ⟨found, next, hp, m, hafter⟩

variable {files : Files} {before after : List Happening}

/-- A request that an upload sends is for the part that the upload was started with, and brings
along what the file of the part holds at the moment. -/
theorem Path.of_sent {ticket : Nat} {content : Option (List UInt8)} {request : Api.Request}
    {reply : Api.Reply}
    (h : Path client ⟨[], files⟩
      (before ++ .beside ticket content ⟨.api (.send request), reply⟩ :: after) scene) :
    ∃ session file, request = Upload.sending session file ∧
      (⟨.startUpload session file, ticket⟩ : Event) ∈ own before ∧
      ∃ found rest, Path client ⟨[], files⟩ before found ∧
        found.uploads[ticket]? = some ⟨file, .ask (.api (.send request)) rest⟩ ∧
        content = found.files file.path := by
  obtain ⟨found, next, hp, m, -⟩ := h.move_at
  obtain ⟨hcontent, file, cont, hu, -⟩ := m.of_called
  have ht := Tracked.of_path hp
  obtain ⟨session, rest, hl, hd, he⟩ := ht.left ticket _ hu
  obtain rfl : .ask _ cont = rest := by simpa using he
  obtain ⟨outcome, htask⟩ := (hd.snoc reply).exists_trace
  obtain ⟨inner, result, tail, hi, hx, htail, -⟩ := Upload.of_task htask
  have hm : (⟨.api (.send request), reply⟩ : Program.Event Upload.Answer) ∈
      inner.map Upload.ofCall ++ tail := by
    rw [← hi]
    simp
  obtain rfl : request = Upload.sending session file := by
    rcases List.mem_append.1 hm with hm | hm
    · obtain ⟨⟨q, a⟩, hq, he⟩ := List.mem_map.1 hm
      obtain ⟨rfl, -⟩ : q = .send request ∧ _ := by simpa [Upload.ofCall] using he
      exact hx.request_eq hq
    · rcases htail with ⟨rfl, -⟩ | ⟨rfl, -⟩ <;> simp at hm
  exact ⟨session, file, rfl, mem_launches.1 (List.mem_of_getElem? hl), found, cont, hp, hu,
    hcontent⟩

/-- An upload that the import is told has succeeded was accepted by the service before. -/
theorem Path.exists_accepted {session : String} {upload : Started}
    (h : Path client ⟨[], files⟩ (before ++ .own (succeeded upload) :: after) scene)
    (hl : (session, upload) ∈ launches (own (before ++ .own (succeeded upload) :: after))) :
    ∃ content reply body,
      .beside upload.ticket content
        ⟨.api (.send (Upload.sending session upload.file)), reply⟩ ∈ before ∧
      Api.Client.settle (Upload.sending session upload.file) reply = .ok body := by
  obtain ⟨found, next, hp, m, -⟩ := h.move_at
  obtain ⟨ticket, file⟩ := upload
  obtain ⟨-, file', hu⟩ := m.of_awaited
  obtain ⟨session', reply, hl', hf⟩ := (Tracked.of_path hp).filter_accepted hu
  have hat := (Tracked.of_path h).launch_at hl
  have hlt := (List.getElem?_eq_some_iff.1 hl').1
  rw [own_append, launches_append, List.getElem?_append_left hlt, hl'] at hat
  obtain ⟨rfl, rfl⟩ : session' = session ∧ file' = file := by simpa using hat
  have hm : (⟨.api (.send (Upload.sending session' file')), reply⟩ :
      Program.Event Upload.Answer) ∈ (beside ticket before).filter Upload.accepted := by
    rw [hf]
    exact List.mem_singleton_self _
  obtain ⟨hm, ha⟩ := List.mem_filter.1 hm
  obtain ⟨content, hm⟩ := mem_beside.1 hm
  obtain ⟨body, hb⟩ := Upload.of_accepted ha
  exact ⟨content, reply, body, hm, hb⟩

theorem Scene.goOn_over {ticket t : Nat} {file file' : Part.File} {ending : Upload.Ending}
    {q : Upload.Question} {next : Upload.Answer q → Program Upload.Answer Empty Upload.Ending}
    (hu : scene.uploads[ticket]? = some ⟨file, .done ending⟩)
    (ht : scene.uploads[t]? = some ⟨file', .ask q next⟩)
    (rest : Program Upload.Answer Empty Upload.Ending) :
    (scene.goOn t file' rest).uploads[ticket]? = some ⟨file, .done ending⟩ := by
  have hne : t ≠ ticket := by
    rintro rfl
    simp [ht] at hu
  simpa [Scene.goOn, List.getElem?_set, hne] using hu

/-- An upload that is over stays as it is. -/
theorem Path.over {start : Scene} {ticket : Nat} {file : Part.File} {ending : Upload.Ending}
    (h : Path client start log scene)
    (hu : start.uploads[ticket]? = some ⟨file, .done ending⟩) :
    scene.uploads[ticket]? = some ⟨file, .done ending⟩ := by
  induction h with
  | nil => exact hu
  | snoc _ m ih =>
    cases m with
    | part | awaited | aside => exact ih
    | started =>
      rw [List.getElem?_append_left (List.getElem?_eq_some_iff.1 ih).1]
      exact ih
    | called ht => exact Scene.goOn_over ih ht _
    | worked ht => exact Scene.goOn_over ih ht _
    | crashed ht => exact Scene.goOn_over ih ht _

/-- An upload that the import is told has succeeded is accepted once in all. -/
theorem Path.filter_accepted {ticket : Nat} (h : Path client ⟨[], files⟩ log scene)
    (hm : (⟨.awaitUpload ticket, .uploaded⟩ : Event) ∈ own log) :
    ∃ session file reply, (launches (own log))[ticket]? = some (session, ⟨ticket, file⟩) ∧
      (beside ticket log).filter Upload.accepted =
        [⟨.api (.send (Upload.sending session file)), reply⟩] := by
  obtain ⟨before, after, rfl⟩ := List.append_of_mem (mem_own.1 hm)
  obtain ⟨found, next, hp, m, hafter⟩ := h.move_at
  obtain ⟨rfl, file, hu⟩ := m.of_awaited
  obtain ⟨session, reply, hl, hf⟩ := (Tracked.of_path h).filter_accepted (hafter.over hu)
  exact ⟨session, file, reply, hl, hf⟩

end BulkLoad.Import
