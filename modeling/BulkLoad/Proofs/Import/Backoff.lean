import BulkLoad.Proofs.Api.Retries
import BulkLoad.Proofs.Import.Composition
import BulkLoad.Proofs.Import.Stages
import BulkLoad.Proofs.Import.Tracking

/-!
# Attempts that are not repeated

After an attempt that failed, a call only sends its request again if the wait in between was not
cancelled. Otherwise it fails, with an error that nobody takes for success, so an import sends
nothing any more : neither this request nor another one (`quits_run`). An upload has nothing else to
send anyway.
-/

namespace BulkLoad

namespace Api

open Program (Trace Event)

/-- The error neither says that something is there already nor that it is not there. -/
structure Error.Hard (e : Error) : Prop where
  conflict : e.isConflict = false
  notFound : e.isNotFound = false

theorem Error.hard_of_isRetryable {e : Error} (h : e.isRetryable = true) : e.Hard := by
  cases e with
  | transport | server => exact ⟨rfl, rfl⟩
  | _ => cases h

/-- A wait is over that was not cancelled. -/
def Released (events : List (Event Answer)) : Prop :=
  ∃ span rest, events = ⟨.wait span, false⟩ :: rest

section Split

variable {request sent : Request} {answer reply : Reply} {events tried rest : List (Event Answer)}

/-- An attempt in a list of questions is the first of them, or one of the others. -/
theorem split_send (h : ⟨.send request, answer⟩ :: events = tried ++ ⟨.send sent, reply⟩ :: rest) :
    (request = sent ∧ answer = reply ∧ events = rest) ∨
      ∃ more, events = more ++ ⟨.send sent, reply⟩ :: rest := by
  cases tried with
  | nil => exact Or.inl (by simpa [and_assoc] using h)
  | cons e more => exact Or.inr ⟨more, (List.cons.inj h).2⟩

theorem split_wait {span : Span} {cancelled : Bool}
    (h : ⟨.wait span, cancelled⟩ :: events = tried ++ ⟨.send sent, reply⟩ :: rest) :
    ∃ more, events = more ++ ⟨.send sent, reply⟩ :: rest := by
  cases tried with
  | nil => simp at h
  | cons e more => exact ⟨more, (List.cons.inj h).2⟩

end Split

namespace Client

variable {policy : RetryPolicy} {request sent : Request} {reply : Reply} {e : Error}
  {rest : List (Event Answer)}

/-- An attempt that failed is the last, unless a wait was not cancelled, and then the call fails. -/
theorem halted_of_executeFrom (hs : settle sent reply = .error e) (hr : ¬ Released rest) :
    ∀ {left : Nat} {state : RetryState} {tried : List (Event Answer)}
      {outcome : Option (Outcome Error (List UInt8))},
      (∀ first, state.first = some first → first.isRetryable = true) →
        Trace (executeFrom policy request left state) (tried ++ ⟨.send sent, reply⟩ :: rest)
          outcome →
          attempts rest = [] ∧
            (outcome = none ∨ ∃ r, outcome = some (.failed r) ∧ (e.isRetryable = true → r.Hard))
  | left, state, tried, outcome, hfirst, h => by
    have hgiven (last : Error) (hl : last.isRetryable = true) :
        (state.first.getD last).isRetryable = true := by
      cases hf : state.first with
      | none => exact hl
      | some first => exact hfirst first hf
    generalize hall : tried ++ ⟨.send sent, reply⟩ :: rest = events at h
    cases attempt_of_executeFrom h with
    | unsent => simp at hall
    | answered hok =>
      obtain ⟨rfl, rfl, rfl⟩ | ⟨more, hm⟩ := split_send hall.symm
      · simp [hs] at hok
      · simp at hm
    | refused hf hn =>
      obtain ⟨rfl, rfl, rfl⟩ | ⟨more, hm⟩ := split_send hall.symm
      · obtain rfl : _ = e := Except.error.inj (hf.symm.trans hs)
        exact ⟨rfl, Or.inr ⟨_, rfl, fun he => by simp [he] at hn⟩⟩
      · simp at hm
    | givenUp hf hn hgive =>
      obtain ⟨rfl, rfl, rfl⟩ | ⟨more, hm⟩ := split_send hall.symm
      · refine ⟨rfl, Or.inr ⟨_, rfl, fun _ => Error.hard_of_isRetryable ?_⟩⟩
        rcases hgive with rfl | rfl
        · exact hn
        · exact hgiven _ hn
      · simp at hm
    | waiting hf hn =>
      obtain ⟨rfl, rfl, rfl⟩ | ⟨more, hm⟩ := split_send hall.symm
      · exact ⟨rfl, Or.inl rfl⟩
      · simp at hm
    | interrupted span hf hn =>
      obtain ⟨rfl, rfl, rfl⟩ | ⟨more, hm⟩ := split_send hall.symm
      · exact ⟨rfl, Or.inr ⟨_, rfl, fun _ => ⟨rfl, rfl⟩⟩⟩
      · obtain ⟨more, hm⟩ := split_wait hm
        simp at hm
    | again span hf hn hnext hrest =>
      -- The wait was not cancelled, so the attempt is one of those that come later.
      obtain ⟨rfl, rfl, rfl⟩ | ⟨more, hm⟩ := split_send hall.symm
      · exact absurd ⟨span, _, rfl⟩ hr
      · obtain ⟨more, rfl⟩ := split_wait hm
        refine halted_of_executeFrom hs hr (fun first hf' => ?_) hrest
        obtain rfl : _ = first := Option.some.inj (hnext.symm.trans hf')
        exact hgiven _ hn

theorem halted_of_execute {client : Client} {tried : List (Event Answer)}
    {outcome : Option (Outcome Error (List UInt8))}
    (h : Trace (client.execute request) (tried ++ ⟨.send sent, reply⟩ :: rest) outcome)
    (hs : settle sent reply = .error e) (hr : ¬ Released rest) :
    attempts rest = [] ∧
      (outcome = none ∨ ∃ r, outcome = some (.failed r) ∧ (e.isRetryable = true → r.Hard)) :=
  halted_of_executeFrom hs hr (fun _ hf => by cases hf) h

/-- After an attempt that failed for good, a call sends nothing any more and fails. -/
def Halts {α : Type} (call : Call α) : Prop :=
  ∀ tried sent reply e rest outcome, settle sent reply = .error e → e.isRetryable = true →
    ¬ Released rest → Trace call (tried ++ ⟨.send sent, reply⟩ :: rest) outcome →
      attempts rest = [] ∧ (outcome = none ∨ ∃ e, outcome = some (.failed e) ∧ e.Hard)

theorem halts_execute_bind {α : Type} {client : Client} {f : List UInt8 → Call α}
    (hf : ∀ body, ∃ o, (f body).ending? = some o) : Halts (client.execute request >>= f) := by
  intro tried sent reply e rest outcome hs he hr h
  rcases Trace.of_bind h with ⟨first, body, later, hall, h₁, h₂⟩ | ⟨stop, h₁, hstop⟩
  · obtain ⟨o, ho⟩ := hf body
    obtain ⟨rfl, -⟩ := h₂.of_ending ho
    rw [List.append_nil] at hall
    obtain ⟨-, hn | ⟨r, hf, -⟩⟩ := halted_of_execute (hall ▸ h₁) hs hr
    · cases hn
    · cases hf
  · obtain ⟨hsilent, rfl | ⟨r, rfl, hard⟩⟩ := halted_of_execute h₁ hs hr
    · cases hstop
      exact ⟨hsilent, Or.inl rfl⟩
    · cases hstop
      exact ⟨hsilent, Or.inr ⟨r, rfl, hard he⟩⟩

theorem halts_perform {client : Client} : Halts (client.perform request) :=
  halts_execute_bind fun _ => ⟨_, rfl⟩

theorem Single.halts {α : Type} {client : Client} {call : Call α} (h : client.Single call) :
    Halts call := by
  obtain ⟨request, f, -, hf, rfl⟩ := h
  exact halts_execute_bind hf

end Client

end Api

namespace Import

open Program (Trace Keeps)
open Api (Released attempts)
open Api.Client (settle Halts halts_perform)

variable {ε α β : Type} {client : Api.Client} {s : Settings} {request : Api.Request}

/-- The questions of the calls that a program makes. -/
def apis (events : List Event) : List (Program.Event Api.Answer) :=
  events.filterMap fun
    | ⟨.api q, a⟩ => some ⟨q, a⟩
    | _ => none

@[simp] theorem apis_append (first rest : List Event) :
    apis (first ++ rest) = apis first ++ apis rest :=
  List.filterMap_append

@[simp] theorem apis_map_ofCall (inner : List (Program.Event Api.Answer)) :
    apis (inner.map ofCall) = inner := by
  simp [apis, List.filterMap_map, Function.comp_def, ofCall]

theorem mem_apis {events : List Event} {q : Api.Question} {a : Api.Answer q} :
    ⟨q, a⟩ ∈ apis events ↔ (⟨.api q, a⟩ : Event) ∈ events := by
  constructor
  · intro h
    obtain ⟨⟨q', a'⟩, hm, he⟩ := List.mem_filterMap.1 h
    cases q' with
    | api call =>
      cases he
      exact hm
    | _ => cases he
  · exact fun h => List.mem_filterMap.2 ⟨_, h, rfl⟩

theorem apis_of_no_call {events : List Event} (h : ∀ e ∈ events, ∀ call, e.1 ≠ .api call) :
    apis events = [] := by
  refine List.filterMap_eq_nil_iff.2 fun ⟨q, a⟩ he => ?_
  cases q with
  | api call => exact absurd rfl (h _ he call)
  | _ => rfl

/-- After an attempt that failed for good, a program sends nothing any more. It does not have a
result then, or one of those with the property. -/
def Quits (R : α → Prop) (p : Work ε α) : Prop :=
  ∀ events outcome tried sent reply e rest, Trace p events outcome →
    apis events = tried ++ ⟨.send sent, reply⟩ :: rest → settle sent reply = .error e →
      e.isRetryable = true → ¬ Released rest →
        attempts rest = [] ∧ ∀ a, outcome = some (.done a) → R a

/-- A question that sends nothing. -/
def Sendless (q : Question) : Prop :=
  ∀ request, q ≠ .api (.send request)

theorem attempts_of_sendless {events : List Event} (h : ∀ e ∈ events, Sendless e.1) :
    attempts (apis events) = [] := by
  refine List.filterMap_eq_nil_iff.2 fun ⟨q, a⟩ hm => ?_
  cases q with
  | send request => exact absurd rfl (h _ (mem_apis.1 hm) request)
  | wait span => rfl

namespace Quits

variable {R : α → Prop} {S : β → Prop} {p : Work ε α}

/-- A program that makes no calls. -/
theorem of_keeps {T : α → Prop} (h : p.Keeps (fun q => ∀ call, q ≠ .api call) T) :
    Quits R p := by
  intro events outcome tried sent reply e rest ht hall
  rw [apis_of_no_call (h.of_trace ht).1] at hall
  simp at hall

theorem pure (a : α) : Quits R (Pure.pure a : Work ε α) :=
  of_keeps (T := fun _ => True) (Keeps.pure trivial)

theorem throw (e : ε) : Quits R (MonadExcept.throw e : Work ε α) :=
  of_keeps (T := fun _ => True) (Keeps.throw e)

/-- A program that goes on after a call that failed must not send anything then. -/
theorem bind {f : α → Work ε β} (h : Quits R p) (hf : ∀ a, Quits S (f a))
    (hr : ∀ a, R a → (f a).Keeps Sendless S) : Quits S (p >>= f) := by
  intro events outcome tried sent reply e rest ht hall hs he hn
  rcases Trace.of_bind ht with ⟨first, a, later, rfl, h₁, h₂⟩ | ⟨stop, h₁, hstop⟩
  · rw [apis_append] at hall
    rcases List.append_eq_append_iff.1 hall with ⟨more, rfl, hlater⟩ | ⟨more, hfirst, hrest⟩
    · exact hf a later outcome more sent reply e rest h₂ hlater hs he hn
    · rcases more with - | ⟨attempt, more⟩
      · exact hf a later outcome [] sent reply e rest h₂ hrest.symm hs he hn
      · obtain ⟨rfl, rfl⟩ : (⟨.send sent, reply⟩ : Program.Event Api.Answer) = attempt ∧
          rest = more ++ apis later := List.cons.inj hrest
        have hn' : ¬ Released more := by
          rintro ⟨span, later, rfl⟩
          exact hn ⟨span, _, rfl⟩
        obtain ⟨hsilent, ha⟩ := h first _ tried sent reply e more h₁ hfirst hs he hn'
        obtain ⟨hlater, hb⟩ := (hr a (ha a rfl)).of_trace h₂
        exact ⟨by simp [hsilent, attempts_of_sendless hlater], hb⟩
  · obtain ⟨hsilent, hdone⟩ := h events stop tried sent reply e rest h₁ hall hs he hn
    exact ⟨hsilent, fun b ho => absurd ho (hstop.ne_done b)⟩

theorem of_halts {call : Api.Call α} (h : Halts call) : Quits R (calling call) := by
  intro events outcome tried sent reply e rest ht hall hs he hn
  obtain ⟨inner, result, rfl, hc, rfl⟩ := of_calling ht
  rw [apis_map_ofCall] at hall
  obtain ⟨hsilent, rfl | ⟨e, rfl, -⟩⟩ := h tried sent reply e rest result hs he hn (hall ▸ hc)
  · exact ⟨hsilent, by simp⟩
  · exact ⟨hsilent, by simp [Outcome.mapError]⟩

/-- A call that fails has an error that is no success to anybody. -/
theorem attempting {call : Api.Call α} (h : Halts call) :
    Quits (fun r => ∃ e, r = .error e ∧ e.Hard)
      (attempting call : Work ε (Except Api.Error α)) := by
  intro events outcome tried sent reply e rest ht hall hs he hn
  obtain ⟨inner, result, rfl, hc, rfl⟩ := of_attempting ht
  rw [apis_map_ofCall] at hall
  obtain ⟨hsilent, rfl | ⟨e, rfl, hard⟩⟩ := h tried sent reply e rest result hs he hn (hall ▸ hc)
  · exact ⟨hsilent, by simp⟩
  · refine ⟨hsilent, fun r ho => ?_⟩
    obtain rfl : .error e = r := by simpa [Outcome.attempt] using ho
    exact ⟨e, rfl, hard⟩

/-- What is attempted may fail without consequences. -/
theorem attempt {ε' : Type} (h : Quits R p) :
    Quits (fun _ => True) (p.attempt : Work ε' (Except ε α)) := by
  intro events outcome tried sent reply e rest ht hall hs he hn
  obtain ⟨inner, hi, rfl⟩ := Trace.of_attempt ht
  exact ⟨(h events inner tried sent reply e rest hi hall hs he hn).1, fun _ _ => trivial⟩

theorem callingOrConflict {call : Api.Call α} {R : Option α → Prop} (h : Halts call) :
    Quits R (callingOrConflict call) := by
  refine bind (attempting h) (fun r => of_keeps (Keeps.ofExcept fun _ _ => trivial)) ?_
  rintro _ ⟨e, rfl, hard⟩
  rw [Api.ignoreConflict, hard.conflict]
  exact Keeps.throw _

theorem callingOrMissing {call : Api.Call α} {R : Option α → Prop} (h : Halts call) :
    Quits R (callingOrMissing call) := by
  refine bind (attempting h) (fun r => of_keeps (Keeps.ofExcept fun _ _ => trivial)) ?_
  rintro _ ⟨e, rfl, hard⟩
  rw [Api.ignoreNotFound, hard.notFound]
  exact Keeps.throw _

/-- A program after one that has no result once a call failed. -/
theorem andThen {f : α → Work ε β} (h : Quits (fun _ => False) p) (hf : ∀ a, Quits S (f a)) :
    Quits S (p >>= f) :=
  bind h hf fun _ ha => ha.elim

theorem of_composed {p : Work Error α} (h : Composed client p) :
    ∀ {R : α → Prop}, Quits R p := by
  induction h with
  | pure a => exact pure a
  | throw e => exact throw e
  | aborted reason => exact of_keeps (T := fun _ => True) trivial
  | @ask q hq =>
    refine of_keeps (Keeps.query fun call hc => ?_)
    subst hc
    exact hq
  | calling h => exact of_halts h.halts
  | callingOrMissing h => exact callingOrMissing h.halts
  | attempting h he _ ih =>
    refine bind (attempting h.halts) (fun r => ?_) ?_
    · cases r with
      | error e =>
        obtain ⟨e', hf⟩ := he e
        exact hf ▸ throw e'
      | ok a => exact ih a
    · rintro _ ⟨e, rfl, -⟩
      obtain ⟨e', hf⟩ := he e
      exact hf ▸ Keeps.throw e'
  | callingOrConflict _ ih => exact andThen (callingOrConflict halts_perform) fun _ => ih
  | bind _ _ ih ihf => exact andThen ih fun a => ihf a

end Quits

/-! ## Whole imports -/

theorem quits_uploadInto {d : SessionDriver} {loadTable : String} {writers : Record.WriterSet}
    {rows : List (Except RowFault Row)} {report : Report} {R : Report → Prop} :
    Quits R (uploadInto s d loadTable writers rows report) := by
  refine .andThen (.of_composed SessionDriver.composed_start) fun takes => ?_
  split
  · exact .andThen (.of_keeps (keeps_uploadRows.mono (fun _ hq => hq.1) fun _ ha => ha))
      fun _ => .pure _
  · exact .pure _

theorem quits_load {schema : Schema} {rows : List (Except RowFault Row)}
    {R : Bool × Report → Prop} : Quits R (load client s schema rows) :=
  .andThen (.of_keeps (Keeps.ofExcept fun _ _ => trivial)) fun _ =>
    .andThen (.of_composed (composed_chooseSession : Composed client _)) fun _ =>
      .andThen (.of_composed composed_swapWanted) fun _ =>
        .andThen (.of_composed composed_prepare) fun _ => .andThen quits_uploadInto fun _ => .pure _

/-- Only the deletion of the session may fail without consequences, and nothing is sent after it. -/
theorem quits_cleanUp {d : SessionDriver} {session : String} :
    Quits (fun _ => True) (cleanUp s d session) := by
  have deleted : Quits (fun _ => False) (d.delete session) :=
    .of_composed SessionDriver.composed_delete
  unfold cleanUp
  split
  · exact .bind deleted.attempt (fun _ => .pure _) fun _ _ => Keeps.pure trivial
  · exact .pure _

theorem quits_run {schema : Schema} {rows : List (Except RowFault Row)} :
    Quits (fun _ => True) (run client s schema rows) := by
  have concluded {swap : Bool} {report : Report} :
      Quits (fun _ => True) (conclude client s swap report) :=
    .andThen (.of_composed composed_commit) fun _ => .andThen (.of_composed composed_putInPlace)
      fun _ => .bind quits_cleanUp (fun _ => .pure _) fun _ _ => Keeps.pure trivial
  have clock : Quits (fun _ => False) (ask .clock : Work Error Nat) :=
    .of_composed (.ask trivial : Composed client (ask .clock))
  refine .andThen clock fun _ => .andThen quits_load fun _ =>
    .bind concluded (fun _ => .andThen clock fun _ => .pure _) fun _ _ => ?_
  exact Keeps.bind (Keeps.query (by simp [Sendless])) fun _ _ => Keeps.pure trivial

/-! ## Uploads beside an import -/

namespace Upload

variable {session : String} {file : Part.File} {events : List (Program.Event Answer)}

/-- The questions of the call that an upload makes. -/
def apis (events : List (Program.Event Answer)) : List (Program.Event Api.Answer) :=
  events.filterMap fun
    | ⟨.api q, a⟩ => some ⟨q, a⟩
    | _ => none

@[simp] theorem apis_append (first rest : List (Program.Event Answer)) :
    apis (first ++ rest) = apis first ++ apis rest :=
  List.filterMap_append

theorem call_of_send {outcome : Option (Outcome Empty (Except Api.Error Unit))}
    (h : Trace (send client session file) events outcome) :
    ∃ result, Trace (client.uploadPart session file.name file.path) (apis events) result := by
  obtain ⟨embedded, he, rfl⟩ := Trace.of_attempt h
  obtain ⟨inner, rfl, hc⟩ := Trace.of_embed he
  refine ⟨embedded, ?_⟩
  simpa [apis, List.filterMap_map, Function.comp_def] using hc

/-- An upload makes one call and nothing else. -/
theorem call_of_task {outcome : Option (Outcome Empty Ending)}
    (h : Trace (task client session file) events outcome) :
    ∃ result, Trace (client.uploadPart session file.name file.path) (apis events) result := by
  rcases Trace.of_bind h with ⟨first, r, rest, rfl, h₁, h₂⟩ | ⟨stop, h₁, -⟩
  · have hrest : apis rest = [] := by
      rcases Trace.of_query_bind h₂ with ⟨rfl, -⟩ | ⟨_, last, rfl, h₃⟩
      · rfl
      · rw [(Trace.of_pure h₃).1]
        rfl
    rw [apis_append, hrest, List.append_nil]
    exact call_of_send h₁
  · exact call_of_send h₁

end Upload

/-- Who makes calls during an import. -/
inductive Party
  | itself
  | upload (ticket : Nat)

/-- The questions of the calls that a party makes. -/
def callsOf : Party → List Happening → List (Program.Event Api.Answer)
  | .itself, log => apis (own log)
  | .upload ticket, log => Upload.apis (beside ticket log)

@[simp] theorem callsOf_append (party : Party) (first rest : List Happening) :
    callsOf party (first ++ rest) = callsOf party first ++ callsOf party rest := by
  cases party <;> simp [callsOf]

/-- What an upload has done is done by its program. -/
theorem Tracked.exists_task {log : List Happening} {scene : Scene}
    (h : Tracked client log scene) (ticket : Nat) : beside ticket log = [] ∨
      ∃ session file outcome,
        Trace (Upload.task client session file) (beside ticket log) outcome := by
  rcases Nat.lt_or_ge ticket scene.uploads.length with ht | ht
  · obtain ⟨session, rest, -, hl, -⟩ := h.left ticket _ (List.getElem?_eq_getElem ht)
    obtain ⟨outcome, htrace⟩ := hl.exists_trace
    exact Or.inr ⟨session, _, outcome, htrace⟩
  · exact Or.inl (h.silent ticket ht)

/-- Unless a wait was not cancelled after it, a failed attempt is the last request of its party : no
other request of an import is sent either. -/
theorem attempts_eq_nil_of_run {schema : Schema} {rows : List (Except RowFault Row)}
    {log : List Happening} {outcome : Option (Outcome Error Report)}
    (h : Run client (run client s schema rows) log outcome) {party : Party}
    {tried rest : List (Program.Event Api.Answer)} {sent : Api.Request} {reply : Api.Reply}
    {e : Api.Error} (hall : callsOf party log = tried ++ ⟨.send sent, reply⟩ :: rest)
    (hs : settle sent reply = .error e) (he : e.isRetryable = true) (hn : ¬ Released rest) :
    attempts rest = [] := by
  cases party with
  | itself => exact (quits_run _ _ tried sent reply e rest h.trace hall hs he hn).1
  | upload ticket =>
    obtain ⟨⟨files, scene, hp⟩, -⟩ := h
    change Upload.apis (beside ticket log) = _ at hall
    rcases (Tracked.of_path hp).exists_task ticket with hb | ⟨session, file, outcome, ht⟩
    · rw [hb] at hall
      simp [Upload.apis] at hall
    · obtain ⟨result, hc⟩ := Upload.call_of_task ht
      exact (halts_perform tried sent reply e rest result hs he hn (hall ▸ hc)).1

end Import

end BulkLoad
