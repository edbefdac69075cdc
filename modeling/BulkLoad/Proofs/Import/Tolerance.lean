import BulkLoad.Proofs.Import.Composition
import BulkLoad.Proofs.Import.Order
import BulkLoad.Proofs.Program.Twins

/-!
# Conflicts that make no difference

Six operations may be repeated : for an import it is the same whether the service carries them out
or answers that they were carried out before. An import is the twin of itself when such answers are
exchanged (`unmoved_run`), so all that it asks later is the same, and so is its result. What the
service answers when the session is deleted at the end makes no difference to the report either
(`determined_run`).
-/

namespace BulkLoad

namespace Api

/-- A success, or a conflict. -/
def Reply.Passes : Reply → Prop
  | .answered status _ => 200 ≤ status ∧ status ≤ 299 ∨ status = 409
  | _ => False

theorem Client.Single.keeps {α : Type} {client : Client} {call : Call α} (h : client.Single call) :
    call.Keeps (Sends fun request => request.endpoint.repeatable = false) fun _ => True := by
  obtain ⟨request, f, hr, hf, rfl⟩ := h
  refine Program.Keeps.bind (keeps_executeFrom hr _ _ _) fun body _ => ?_
  obtain ⟨o, ho⟩ := hf body
  cases hb : f body with
  | ask =>
    rw [hb] at ho
    cases ho
  | _ => trivial

end Api

namespace Import

open Program (Trace Keeps Twins Answered)

variable {α β : Type} {client : Api.Client} {s : Settings} {request : Api.Request}

/-! ## Answers that are alike -/

/-- An answer to a repeatable operation that counts as success. -/
def Passing : (q : Question) → Answer q → Prop
  | .api (.send request), reply => request.endpoint.repeatable ∧ Api.Reply.Passes reply
  | _, _ => False

/-- Answers are alike if they are the same, or both count as success. -/
def Alike (q : Question) (a a' : Answer q) : Prop :=
  a = a' ∨ Passing q a ∧ Passing q a'

/-- A call that is done, or refused because of a conflict. -/
def Accepted : Outcome Api.Error α → Prop
  | .done _ => True
  | .failed e => e.isConflict
  | .aborted _ => False

/-- The endings of a repeatable call that are taken for the same. -/
def Taken (o o' : Outcome Api.Error α) : Prop :=
  o = o' ∨ Accepted o ∧ Accepted o'

theorem settle_of_passes (request : Api.Request) {reply : Api.Reply} (h : reply.Passes) :
    (∃ body, Api.Client.settle request reply = .ok body) ∨
      ∃ e, Api.Client.settle request reply = .error e ∧ e.isConflict ∧ e.isRetryable = false := by
  cases reply with
  | answered status body =>
    rcases h with ⟨hl, hh⟩ | rfl
    · exact Or.inl ⟨body, by simp [Api.Client.settle, hl, hh]⟩
    · exact Or.inr ⟨_, rfl, rfl, rfl⟩
  | dropped | unreadable => exact h.elim

/-- Waits are answered alike if they are answered the same. -/
theorem eq_of_alike_wait {span : Api.Span} {a a' : Bool} (h : Alike (.api (.wait span)) a a') :
    a = a' :=
  h.elim id fun h => h.1.elim

/-- A reply that passes ends a call. -/
theorem ending_of_passes {policy : Api.RetryPolicy} {left : Nat} {state : Api.RetryState}
    {next : Api.Reply → Api.Call (List UInt8)}
    (hn : Api.Client.executeFrom policy request left state = .ask (.send request) next)
    {reply : Api.Reply} (h : reply.Passes) : ∃ o, Accepted o ∧ (next reply).ending? = some o := by
  obtain ⟨outcome, ht⟩ := Program.exists_trace (next reply)
  have hcall : Trace (Api.Client.executeFrom policy request left state)
      [⟨.send request, reply⟩] outcome := by
    rw [hn]
    constructor
    exact ht
  have hsettle := settle_of_passes request h
  cases Api.Client.attempt_of_executeFrom hcall with
  | @answered _ _ body hs => exact ⟨.done body, trivial, Program.ending_of_trace ht⟩
  | @refused _ _ e hs hr =>
    refine ⟨.failed e, ?_, Program.ending_of_trace ht⟩
    rcases hsettle with ⟨body, hb⟩ | ⟨e', he, hc, -⟩ <;> simp_all [Accepted]
  | givenUp hs hr | waiting hs hr =>
    rcases hsettle with ⟨body, hb⟩ | ⟨e', he, -, hf⟩ <;> simp_all

/-- A call goes on in the same way until a reply passes. -/
theorem twins_executeFrom (policy : Api.RetryPolicy) : ∀ (left : Nat) (state : Api.RetryState),
    Twins (fun q => Alike (.api q)) Taken (Api.Client.executeFrom policy request left state)
      (Api.Client.executeFrom policy request left state)
  | left, state => by
    have passing := @ending_of_passes request policy left state
    rw [Api.Client.executeFrom.eq_def] at passing ⊢
    refine .ask fun reply reply' ha => ?_
    rcases ha with rfl | ⟨⟨-, h⟩, -, h'⟩
    · split
      · exact .ended rfl rfl (Or.inl rfl)
      · split
        · split
          · exact .ended rfl rfl (Or.inl rfl)
          · cases left with
            | zero => exact .ended rfl rfl (Or.inl rfl)
            | succ left =>
              refine .ask fun cancelled cancelled' hc => ?_
              obtain rfl := eq_of_alike_wait hc
              split
              · exact .ended rfl rfl (Or.inl rfl)
              · exact twins_executeFrom policy left _
        · exact .ended rfl rfl (Or.inl rfl)
    · obtain ⟨o, ho, hp⟩ := passing rfl h
      obtain ⟨o', ho', hp'⟩ := passing rfl h'
      exact .ended hp hp' (Or.inr ⟨ho, ho'⟩)

/-- The endings of a call that are taken for the same after "it is there already" was taken for
success. -/
def Agree {ε : Type} (o o' : Outcome ε α) : Prop :=
  o = o' ∨ (∃ a, o = .done a) ∧ ∃ a, o' = .done a

theorem twins_perform :
    Twins (fun q => Alike (.api q)) Taken (client.perform request) (client.perform request) := by
  refine (twins_executeFrom client.policy _ _).bind fun o o' h => ?_
  have accepted {o : Outcome Api.Error (List UInt8)} (h : Accepted o) :
      ∃ o' : Outcome Api.Error Unit, Accepted o' ∧
        (Program.goOn (fun _ => pure ()) o : Api.Call Unit).ending? = some o' := by
    cases o with
    | done body => exact ⟨.done (), trivial, rfl⟩
    | failed e => exact ⟨.failed e, h, rfl⟩
    | aborted => exact h.elim
  rcases h with rfl | ⟨h, h'⟩
  · cases o <;> exact .ended rfl rfl (Or.inl rfl)
  · obtain ⟨r, hr, hp⟩ := accepted h
    obtain ⟨r', hr', hp'⟩ := accepted h'
    exact .ended hp hp' (Or.inr ⟨hr, hr'⟩)

/-- After a call for which a conflict counts as success, nothing but a failure matters. -/
theorem twins_callingOrConflict :
    Twins Alike Agree (callingOrConflict (client.perform request))
      (callingOrConflict (client.perform request)) := by
  have hembed : Twins Alike Taken
      ((client.perform request).embed Question.api fun _ a => a)
      ((client.perform request).embed Question.api fun _ a => a) :=
    Twins.embed twins_perform fun _ _ _ h => h
  refine Twins.bind (Twins.attempt hembed) ?_
  rintro _ _ ⟨o, o', h, rfl, rfl⟩
  have accepted {o : Outcome Api.Error Unit} (h : Accepted o) : ∃ r : Option Unit,
      (Program.goOn (fun r => Program.ofExcept ((Api.ignoreConflict r).mapError .api))
        (o.attempt : Outcome Error _) : Work Error (Option Unit)) = .done r := by
    cases o with
    | done a => exact ⟨some a, rfl⟩
    | failed e =>
      have he : e.isConflict = true := h
      exact ⟨none, by simp [Program.goOn, Outcome.attempt, Api.ignoreConflict, he]; rfl⟩
    | aborted => exact h.elim
  rcases h with rfl | ⟨h, h'⟩
  · cases o with
    | done a => exact .done (Or.inl rfl)
    | failed e =>
      cases he : e.isConflict with
      | true =>
        obtain ⟨r, hr⟩ := accepted (o := .failed e) he
        rw [hr]
        exact .done (Or.inl rfl)
      | false =>
        refine .ended (o := .failed (.api e)) ?_ ?_ (Or.inl rfl) <;>
          simp [Program.goOn, Outcome.attempt, Api.ignoreConflict, he] <;> rfl
    | aborted reason => exact .ended rfl rfl (Or.inl rfl)
  · obtain ⟨r, hr⟩ := accepted h
    obtain ⟨r', hr'⟩ := accepted h'
    rw [hr, hr']
    exact .done (Or.inr ⟨⟨r, rfl⟩, r', rfl⟩)

/-! ## Programs that are not moved -/

/-- Answers that are alike make no difference to a program. -/
def Unmoved {ε : Type} (p : Work ε α) : Prop :=
  Twins Alike Eq p p

/-- A question whose answers are alike only if they are the same. -/
def Definite (q : Question) : Prop :=
  ∀ a a', Alike q a a' → a = a'

theorem definite_of_not_repeatable {q : Question}
    (h : ∀ request, q = .api (.send request) → request.endpoint.repeatable = false) :
    Definite q := by
  rintro a a' (rfl | ⟨hp, -⟩)
  · rfl
  · unfold Passing at hp
    split at hp
    next => exact absurd (hp.1.symm.trans (h _ rfl)) (by simp)
    next => exact hp.elim

theorem definite_of_no_call {q : Question} (h : ∀ call, q ≠ .api call) : Definite q :=
  definite_of_not_repeatable fun _ hq => absurd hq (h _)

namespace Unmoved

variable {ε : Type} {p : Work ε α}

theorem of_keeps {R : α → Prop} (h : p.Keeps Definite R) : Unmoved p :=
  Twins.refl (fun _ => rfl) (h.mono (fun _ hq => hq) fun _ _ => trivial)

theorem of_makes {R : α → Prop}
    (h : p.Keeps (Makes fun request => request.endpoint.repeatable = false) R) : Unmoved p :=
  of_keeps (h.mono (fun _ hq => definite_of_not_repeatable hq.2) fun _ ha => ha)

theorem pure (a : α) : Unmoved (Pure.pure a : Work ε α) :=
  .ended rfl rfl rfl

theorem throw (e : ε) : Unmoved (MonadExcept.throw e : Work ε α) :=
  .ended rfl rfl rfl

/-- A question that makes no request. -/
theorem ask {q : Question} (hn : ∀ call, q ≠ .api call) :
    Unmoved (Import.ask q : Work ε (Answer q)) :=
  of_keeps (Keeps.query (definite_of_no_call hn))

theorem bind {f : α → Work ε β} (h : Unmoved p) (hf : ∀ a, Unmoved (f a)) :
    Unmoved (p >>= f) := by
  refine Twins.bind h ?_
  rintro o _ rfl
  cases o with
  | done a => exact hf a
  | failed e => exact throw e
  | aborted reason => exact .ended rfl rfl rfl

theorem attempt {ε' : Type} (h : Unmoved p) :
    Unmoved (p.attempt : Work ε' (Except ε α)) :=
  (Twins.attempt h).mono <| by
    rintro _ _ ⟨o, _, rfl, rfl, rfl⟩
    rfl

/-- A program that goes on in the same way whether a call found something there already or not. -/
theorem callingOrConflict_bind {p : Work Error β} (h : Unmoved p) :
    Unmoved (callingOrConflict (client.perform request) >>= fun _ => p) := by
  refine Twins.bind twins_callingOrConflict ?_
  rintro o o' (rfl | ⟨⟨a, rfl⟩, a', rfl⟩)
  · cases o with
    | done a => exact h
    | failed e => exact throw e
    | aborted reason => exact .ended rfl rfl rfl
  · exact h

theorem of_composed {p : Work Error α} (h : Composed client p) : Unmoved p := by
  induction h with
  | pure a => exact pure a
  | throw e => exact throw e
  | aborted reason => exact .ended rfl rfl rfl
  | @ask q hq =>
    refine ask fun call hc => ?_
    subst hc
    exact hq
  | calling h => exact of_makes (keeps_calling h.keeps)
  | callingOrMissing h => exact of_makes (keeps_callingOrMissing h.keeps)
  | attempting h he _ ih =>
    refine bind (of_makes (keeps_attempting h.keeps)) fun r => ?_
    cases r with
    | error e =>
      obtain ⟨e', hf⟩ := he e
      exact hf ▸ throw e'
    | ok a => exact ih a
  | callingOrConflict _ ih => exact callingOrConflict_bind ih
  | bind _ _ ih ihf => exact bind ih ihf

end Unmoved

/-! ## Imports are not moved -/

variable {session loadTable name : String} {d : SessionDriver} {priority : Int}

theorem unmoved_uploadInto {writers : Record.WriterSet} {rows : List (Except RowFault Row)}
    {report : Report} : Unmoved (uploadInto s d loadTable writers rows report) := by
  refine .bind (.of_composed SessionDriver.composed_start) fun takes => ?_
  split
  · exact .bind (.of_keeps (keeps_uploadRows.mono (fun _ hq => definite_of_no_call hq.1)
      fun _ ha => ha)) fun _ => .pure _
  · exact .pure _

theorem unmoved_load {schema : Schema} {rows : List (Except RowFault Row)} :
    Unmoved (load client s schema rows) :=
  .bind (.of_keeps (Keeps.ofExcept fun _ _ => trivial)) fun _ =>
    .bind (.of_composed (composed_chooseSession : Composed client _)) fun _ =>
      .bind (.of_composed composed_swapWanted) fun _ => .bind (.of_composed composed_prepare)
        fun _ => .bind unmoved_uploadInto fun _ => .pure _

theorem unmoved_cleanUp : Unmoved (cleanUp s d session) := by
  unfold cleanUp
  split
  · exact .bind (.attempt (.of_composed SessionDriver.composed_delete)) fun _ => .pure _
  · exact .pure _

theorem unmoved_run {schema : Schema} {rows : List (Except RowFault Row)} :
    Unmoved (run client s schema rows) :=
  have concluded {swap : Bool} {report : Report} : Unmoved (conclude client s swap report) :=
    .bind (.of_composed composed_commit) fun _ => .bind (.of_composed composed_putInPlace) fun _ =>
      .bind unmoved_cleanUp fun _ => .pure _
  .bind (.ask (by simp)) fun _ => .bind unmoved_load fun _ => .bind concluded fun _ =>
    .bind (.ask (by simp)) fun _ => .pure _

/-! ## The deletion of the session -/

/-- The reports that differ from one in the time only. -/
def Timed (report timed : Report) : Prop :=
  ∃ millis, timed = { report with elapsedMillis := millis }

/-- The question that deletes a session. -/
def Deletes (name : String) (q : Question) : Prop :=
  q = .api (.send (deleting name))

theorem not_deletes_of_preparing {q : Question} (h : Preparing q) : ¬ Deletes name q :=
  fun hq => (h.2 _ hq).2 trivial

theorem not_deletes_of_takes {q : Question}
    (h : Makes (SessionDriver.Takes session priority) q) : ¬ Deletes name q := by
  intro hq
  rcases h.2 _ hq with he | he | he | he <;> cases he

theorem keeps_load {schema : Schema} {rows : List (Except RowFault Row)} :
    (load client s schema rows).Keeps (fun q => ¬ Deletes name q) fun _ => True := by
  have prepared {α : Type} {R : α → Prop} {p : Work Error α} (h : p.Keeps Preparing R) :
      p.Keeps (fun q => ¬ Deletes name q) R :=
    h.mono (fun _ => not_deletes_of_preparing) fun _ ha => ha
  have uploaded {writers : Record.WriterSet} {loadTable : String} {report : Report} :
      (uploadInto s (SessionDriver.ofSettings client s) loadTable writers rows report).Keeps
        (fun q => ¬ Deletes name q) fun _ => True := by
    refine Keeps.bind (prepared keeps_start) fun takes _ => ?_
    split
    · exact Keeps.bind (keeps_uploadRows.mono (fun _ hu => hu.1 _) fun _ ha => ha)
        fun _ _ => Keeps.pure trivial
    · exact Keeps.pure trivial
  exact Keeps.bind (Keeps.ofExcept fun _ _ => trivial) fun _ _ =>
    Keeps.bind (prepared keeps_chooseSession) fun _ _ =>
      Keeps.bind (prepared keeps_swapWanted) fun _ _ =>
        Keeps.bind (prepared keeps_prepare) fun _ _ =>
          Keeps.bind uploaded fun _ _ => Keeps.pure trivial

/-- What comes of the deletion has no bearing on what is concluded. -/
theorem determined_conclude {swap : Bool} {report : Report} :
    (conclude client s swap report).Determined (Deletes name) Eq := by
  refine .keeps_bind (R := fun _ => True) ?_ fun report _ => .keeps_bind (R := fun _ => True) ?_
    fun _ _ => .of_ends (c := report) (.bind (P := fun _ => True) ?_ fun _ _ => .pure rfl)
  case refine_1 =>
    exact Keeps.bind (SessionDriver.keeps_complete.mono (fun _ => not_deletes_of_takes)
      fun _ ha => ha) fun _ _ => Keeps.pure trivial
  case refine_2 =>
    unfold putInPlace
    split
    · refine (keeps_calling (Api.Client.keeps_perform (P := (· = swapping ..)) rfl)).mono
        (fun q h hq => ?_) fun _ _ => trivial
      cases h.2 _ hq
    · exact Keeps.pure trivial
  case refine_3 =>
    intro events outcome ht
    exact (of_cleanUp ht).imp_right fun ho => ⟨(), ho, trivial⟩

/-- Once the session is deleted, the report is determined but for the time. -/
theorem determined_run (name : String) {schema : Schema} {rows : List (Except RowFault Row)} :
    (run client s schema rows).Determined (Deletes name) Timed := by
  refine .keeps_bind (Keeps.query (by simp [Deletes])) fun started _ =>
    .keeps_bind keeps_load fun loaded _ => .bind (P := Eq) ?_ (fun report => ?_)
      determined_conclude
  · rintro report _ rfl
    exact .bind (.query _) fun ended _ => .pure ⟨_, rfl⟩
  · exact .keeps_bind (R := fun _ => True) (Keeps.query (by simp [Deletes])) fun _ _ => trivial

/-! ## Whole imports -/

/-- What happens is the same, but for an answer that is alike. -/
inductive Exchanged : Happening → Happening → Prop
  | same (happening : Happening) : Exchanged happening happening
  | own {q : Question} {a a' : Answer q} (h : Alike q a a') :
    Exchanged (.own ⟨q, a⟩) (.own ⟨q, a'⟩)

theorem answered_of_exchanged {log log' : List Happening} (h : List.Forall₂ Exchanged log log') :
    List.Forall₂ (Answered Alike) (own log) (own log') := by
  induction h with
  | nil => exact .nil
  | @cons happening _ _ _ hx _ ih =>
    cases hx with
    | same =>
      cases happening with
      | own e => exact .cons (.mk (Or.inl rfl)) ih
      | beside | crashed => exact ih
    | own ha => exact .cons (.mk ha) ih

/-- A reply to the import does nothing in a scene. -/
theorem Move.exchanged {scene scene' : Scene} {happening happening' : Happening}
    (m : Move client scene happening scene') (h : Exchanged happening happening') :
    Move client scene happening' scene' := by
  cases h with
  | same => exact m
  | own ha =>
    rcases ha with rfl | ⟨hp, -⟩
    · exact m
    · unfold Passing at hp
      split at hp
      next =>
        cases m with
        | aside ha => exact .aside ha _
      next => exact hp.elim

theorem Path.exchanged {start scene : Scene} {log log' : List Happening}
    (h : Path client start log scene) (he : List.Forall₂ Exchanged log log') :
    Path client start log' scene := by
  induction h generalizing log' with
  | nil =>
    cases he
    exact .nil
  | @snoc log _ _ happening _ m ih =>
    have hfirst := List.forall₂_take_append log' log [happening] he.flip
    have hlast := List.forall₂_drop_append log' log [happening] he.flip
    rw [← List.take_append_drop log.length log']
    generalize List.take log.length log' = first at hfirst
    generalize List.drop log.length log' = last at hlast
    cases hlast with
    | cons hx hnil =>
      cases hnil
      exact .snoc (ih hfirst.flip) (m.exchanged hx)

/-- The import has not come to its end, or it has a report that differs from this one in the time
only. -/
def Reports (report : Report) (outcome : Option (Outcome Error Report)) : Prop :=
  outcome = none ∨ ∃ timed, outcome = some (.done timed) ∧ Timed report timed

/-- What does not change the course of an import. -/
structure Tolerant (client : Api.Client) (s : Settings) (schema : Schema)
    (rows : List (Except RowFault Row)) : Prop where
  /-- Surroundings that answer alike see the same questions and the same result. -/
  played : ∀ {σ σ' : Type} (answer : (q : Question) → σ → Answer q × σ)
    (answer' : (q : Question) → σ' → Answer q × σ') (Near : σ → σ' → Prop),
    (∀ q w w', Near w w' → Alike q (answer q w).1 (answer' q w').1 ∧
      Near (answer q w).2 (answer' q w').2) → ∀ w w', Near w w' →
        List.Forall₂ (Answered Alike)
            (Program.transcript answer (run client s schema rows) w).1
            (Program.transcript answer' (run client s schema rows) w').1 ∧
          (Program.transcript answer (run client s schema rows) w).2 =
            (Program.transcript answer' (run client s schema rows) w').2
  /-- Exchanging answers of a run gives a run with the same result. -/
  exchanged : ∀ {log log' : List Happening} {outcome : Option (Outcome Error Report)},
    Run client (run client s schema rows) log outcome → List.Forall₂ Exchanged log log' →
      Run client (run client s schema rows) log' outcome
  /-- Runs that are the same until the session is deleted report the same. -/
  deleted : ∀ {name : String} {reply reply' : Api.Reply} {before after after' : List Happening}
    {outcome outcome' : Option (Outcome Error Report)},
    Run client (run client s schema rows)
        (before ++ .own ⟨.api (.send (deleting name)), reply⟩ :: after) outcome →
      Run client (run client s schema rows)
          (before ++ .own ⟨.api (.send (deleting name)), reply'⟩ :: after') outcome' →
        ∃ report, Reports report outcome ∧ Reports report outcome'

/-- Conflicts that are tolerated cannot change the course of an import, and neither can what comes
of the deletion of its session. -/
theorem tolerant_run (client : Api.Client) (s : Settings) (schema : Schema)
    (rows : List (Except RowFault Row)) : Tolerant client s schema rows where
  played _ _ _ hn _ _ hs := Twins.played unmoved_run hn hs
  exchanged := by
    rintro log log' outcome ⟨⟨files, scene, hp⟩, ht⟩ he
    obtain ⟨outcome', ht', ho⟩ := Twins.trace unmoved_run ht (answered_of_exchanged he)
    refine ⟨⟨files, scene, hp.exchanged he⟩, ?_⟩
    cases ho with
    | some h => exact h ▸ ht'
    | none => exact ht'
  deleted := by
    intro name reply reply' before after after' outcome outcome' h h'
    have ht := h.trace
    have ht' := h'.trace
    rw [own_append, own_cons_own] at ht ht'
    refine Program.Determined.of_traces ?_ (determined_run name) ht ht'
    exact rfl

/-! ## Conflicts everywhere -/

/-- The service refuses what it carried out, wherever that makes no difference. -/
def conflicting : Happening → Happening
  | .own ⟨.api (.send request), reply⟩ =>
    match (reply : Api.Reply) with
    | .answered status body =>
      if request.endpoint.repeatable && 200 ≤ status && status ≤ 299 then
        .own ⟨.api (.send request), .answered 409 []⟩
      else .own ⟨.api (.send request), .answered status body⟩
    | reply => .own ⟨.api (.send request), reply⟩
  | happening => happening

theorem exchanged_conflicting (happening : Happening) :
    Exchanged happening (conflicting happening) := by
  unfold conflicting
  split
  next request reply =>
    split
    next status body =>
      split
      next h =>
        obtain ⟨⟨hr, hl⟩, hh⟩ : (request.endpoint.repeatable = true ∧ 200 ≤ status) ∧
          status ≤ 299 := by simpa using h
        exact .own (Or.inr ⟨⟨hr, Or.inl ⟨hl, hh⟩⟩, hr, Or.inr rfl⟩)
      next => exact .same _
    next => exact .same _
  next => exact .same _

/-- The requests of an import that are refused because of a conflict. -/
def conflicts (log : List Happening) : List Api.Endpoint :=
  log.filterMap fun
    | .own ⟨.api (.send request), reply⟩ =>
      match (reply : Api.Reply) with
      | .answered 409 _ => some request.endpoint
      | _ => none
    | _ => none

/-- A replacement that meets conflicts everywhere ends like the one that meets none. -/
theorem tolerant_replaced :
    conflicts (replaced.1.map conflicting) =
        [.databaseCreate "d", .tableCreate "d" "t_s", .sessionCreate "s" "d" "t_s",
          .sessionFreeze "s", .sessionPerform "s", .sessionCommit "s"] ∧
      Run SessionDriver.careful.client (run SessionDriver.careful.client replacement
        ⟨[⟨"time", .long⟩]⟩ [.ok [.long 1], .ok [.long 2]]) (replaced.1.map conflicting)
          replaced.2 := by
  refine ⟨by decide +kernel,
    (tolerant_run _ _ _ _).exchanged (run_of_play _ _ _ _) ?_⟩
  exact List.forall₂_map_right_iff.2 (List.forall₂_same.2 fun happening _ =>
    exchanged_conflicting happening)

end Import

end BulkLoad
