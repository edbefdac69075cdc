import BulkLoad.Import.Run
import BulkLoad.Proofs.Program.Twins

/-!
# What the stages of an import are made of

Before and after the rows are fed in, an import only makes calls and looks at the clock. Most calls
it makes for their answer (`Single`); those that may be repeated it makes for what they do, and then
a conflict counts as success. A program is `Composed` if it is put together from such calls. What is
true of the calls and closed under composition is true of all these stages, by one induction.
-/

namespace BulkLoad

namespace Api

/-- The operations for which "it is there already" counts as success. -/
def Endpoint.repeatable : Endpoint → Bool
  | .databaseCreate _ | .tableCreate .. | .sessionCreate .. | .sessionFreeze _
  | .sessionPerform _ | .sessionCommit _ => true
  | _ => false

variable {α : Type} {client : Client}

/-- The call makes one request, which may not be repeated, and then tells what the answer says. -/
def Client.Single (client : Client) (call : Call α) : Prop :=
  ∃ request, ∃ f : List UInt8 → Call α, request.endpoint.repeatable = false ∧
    (∀ body, ∃ o, (f body).ending? = some o) ∧ call = client.execute request >>= f

theorem Client.single_perform {request : Request} (h : request.endpoint.repeatable = false) :
    client.Single (client.perform request) :=
  ⟨request, _, h, fun _ => ⟨_, rfl⟩, rfl⟩

theorem Client.single_fetch {endpoint : Endpoint} {decoder : Json.Decoder α}
    (h : endpoint.repeatable = false) : client.Single (client.fetch endpoint decoder) := by
  refine ⟨⟨.get, endpoint, .empty⟩, _, h, fun body => ?_, rfl⟩
  split <;> exact ⟨_, rfl⟩

end Api

namespace Import

open Api.Client (single_perform single_fetch)

/-- A question that is about neither the service nor files, uploads or rows. -/
def Question.IsPlain : Question → Prop
  | .pause _ | .clock | .now | .randomId => True
  | _ => False

variable {α β : Type} {client : Api.Client} {s : Settings}

/-- A program that is put together from calls and plain questions. -/
inductive Composed (client : Api.Client) : {α : Type} → Work Error α → Prop
  | pure {α : Type} (a : α) : Composed client (Pure.pure a)
  | throw {α : Type} (e : Error) : Composed client (MonadExcept.throw e : Work Error α)
  | aborted {α : Type} (reason : Abort) : Composed client (.aborted reason : Work Error α)
  | ask {q : Question} (h : q.IsPlain) : Composed client (ask q)
  | calling {α : Type} {call : Api.Call α} (h : client.Single call) : Composed client (calling call)
  | callingOrMissing {α : Type} {call : Api.Call α} (h : client.Single call) :
    Composed client (callingOrMissing call)
  /-- A failure of the call is one of the program, but another one. -/
  | attempting {α β : Type} {call : Api.Call α} {f : Except Api.Error α → Work Error β}
    (h : client.Single call) (he : ∀ e, ∃ e', f (.error e) = MonadExcept.throw e')
    (hf : ∀ a, Composed client (f (.ok a))) : Composed client (attempting call >>= f)
  /-- What comes after the call is the same whether there was a conflict or not. -/
  | callingOrConflict {β : Type} {request : Api.Request} {p : Work Error β}
    (h : Composed client p) :
    Composed client (callingOrConflict (client.perform request) >>= fun _ => p)
  | bind {α β : Type} {p : Work Error α} {f : α → Work Error β} (h : Composed client p)
    (hf : ∀ a, Composed client (f a)) : Composed client (p >>= f)

theorem Composed.require {holds : Bool} {e : Error} :
    Composed client (Program.require holds e) := by
  cases holds with
  | true => exact .pure ()
  | false => exact .throw e

/-! ## Before the rows are fed in -/

section Before

variable {session loadTable name : String} {d : SessionDriver}

theorem composed_chooseSession : Composed client (chooseSession s) := by
  unfold chooseSession
  split
  · exact .pure _
  · exact .bind (.ask trivial) fun _ => .bind (.ask trivial) fun _ => .pure _

theorem composed_swapWanted : Composed client (swapWanted client s session loadTable) := by
  unfold swapWanted
  split
  · refine .bind (.callingOrMissing (single_fetch rfl)) fun existing => ?_
    split
    · exact .bind (.calling (single_fetch rfl)) fun _ => .pure _
    · exact .pure _
  · exact .pure _

theorem composed_prepareDestination :
    Composed client (prepareDestination client s loadTable) := by
  unfold prepareDestination
  split
  · exact .callingOrConflict (.callingOrConflict (.pure _))
  · refine .attempting (single_fetch rfl) (fun e => ?_) fun tables => ?_
    · simp only
      split <;> exact ⟨_, rfl⟩
    · simp only
      split
      · exact .callingOrConflict (.pure _)
      · split
        · exact .throw _
        · exact .pure _

theorem composed_prepare {swap : Bool} : Composed client (prepare client s loadTable swap) := by
  unfold prepare
  split
  · exact composed_prepareDestination
  · exact .pure _

end Before

namespace SessionDriver

variable {d : SessionDriver} {name : String} {priority : Int}

theorem composed_look : Composed d.client (d.look name) :=
  .calling (single_fetch rfl)

theorem composed_start {database table : String} :
    Composed d.client (d.start name database table) := by
  refine .callingOrConflict (.bind composed_look fun shown => .bind .require fun _ => ?_)
  split
  · exact .pure _
  · exact .throw _
  · exact .pure _

/-! ## From the driving of the session on -/

theorem composed_poll {current expecting : Api.Status} {started : Nat} : ∀ {patience : Nat},
    Composed d.client (d.poll name current expecting started patience)
  | 0 => .aborted _
  | patience + 1 => by
    refine .bind composed_look fun shown => ?_
    split
    · exact .pure _
    · exact .bind .require fun _ => .bind (.ask trivial) fun _ => .bind .require fun _ =>
        .bind (.ask trivial) fun _ => .bind .require fun _ => composed_poll

theorem composed_waitFor {current expecting : Api.Status} :
    Composed d.client (d.waitFor name current expecting) :=
  .bind (.ask trivial) fun _ => composed_poll

theorem composed_advance : ∀ {status : Api.Status},
    Composed d.client (d.advance name priority status)
  | .uploading => by
    refine .bind (.bind composed_look fun shown => ?_) fun _ => .callingOrConflict (.pure _)
    split
    · exact .pure _
    · exact .callingOrConflict (.pure _)
  | .performing => .bind composed_waitFor fun _ => .pure _
  | .ready =>
    .bind composed_look fun _ => .bind .require fun _ => .callingOrConflict (.pure _)
  | .committing => .bind composed_waitFor fun _ => .pure _
  | .committed => .pure _
  | .unknown => .throw _

theorem composed_advanceBy : ∀ {steps : Nat} {status : Api.Status},
    Composed d.client (d.advanceBy name priority steps status)
  | 0, _ => .pure _
  | _ + 1, _ => .bind (.bind composed_advance fun _ => .pure _) fun _ => composed_advanceBy

theorem composed_complete : Composed d.client (d.complete name priority) :=
  .bind composed_look fun _ => .bind composed_advanceBy fun _ => composed_look

theorem composed_delete : Composed d.client (d.delete name) :=
  .bind (.callingOrMissing (single_perform rfl)) fun _ => .pure _

end SessionDriver

theorem composed_commit {d : SessionDriver} {report : Report} :
    Composed d.client (commit s d report) :=
  .bind SessionDriver.composed_complete fun _ => .pure _

theorem composed_putInPlace {loadTable : String} {swap : Bool} :
    Composed client (putInPlace client s loadTable swap) := by
  unfold putInPlace
  split
  · exact .calling (single_perform rfl)
  · exact .pure _

end Import

end BulkLoad
