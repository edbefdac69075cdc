/-!
# Programs

A program talks to its surroundings: it asks a question and goes on with the answer until it is done
or fails. The questions and the answers that they can have are a parameter. `Program.run` plays a
program against surroundings with a state, `Program.interpret` against those of a monad; both
reach an end, since a program is a tree without infinite paths.
-/

namespace BulkLoad

/-- Why a program ends without a result. -/
inductive Abort
  /-- It has waited as often as it may. -/
  | patience
  /-- It was to write a timestamp by a pattern that has no written form. -/
  | unwritable
deriving DecidableEq, Repr

/-- A program that asks questions `q` and is given answers in `A q`. -/
inductive Program {Q : Type} (A : Q → Type) (ε α : Type)
  | done (a : α)
  | failed (e : ε)
  | aborted (reason : Abort)
  | ask (q : Q) (next : A q → Program A ε α)

/-- How a program ends. -/
inductive Outcome (ε α : Type)
  | done (a : α)
  | failed (e : ε)
  | aborted (reason : Abort)
deriving DecidableEq, Repr

namespace Program

variable {Q : Type} {A : Q → Type} {ε α β : Type}

/-- Goes on with the result of a program. -/
def bind : Program A ε α → (α → Program A ε β) → Program A ε β
  | done a, f => f a
  | failed e, _ => failed e
  | aborted reason, _ => aborted reason
  | ask q next, f => ask q fun answer => (next answer).bind f

instance : Monad (Program A ε) where
  pure := done
  bind := bind

/-- Goes on after a failure. -/
def orElse : Program A ε α → (ε → Program A ε α) → Program A ε α
  | done a, _ => done a
  | failed e, f => f e
  | aborted reason, _ => aborted reason
  | ask q next, f => ask q fun answer => (next answer).orElse f

instance : MonadExcept ε (Program A ε) where
  throw := failed
  tryCatch := orElse

/-- A program that does not fail, but tells whether the given one would. -/
def attempt {ε' : Type} : Program A ε α → Program A ε' (Except ε α)
  | done a => done (.ok a)
  | failed e => done (.error e)
  | aborted reason => aborted reason
  | ask q next => ask q fun answer => (next answer).attempt

/-- Takes the failure or the result of a computation. -/
def ofExcept : Except ε α → Program A ε α
  | .ok a => done a
  | .error e => failed e

/-- Fails unless a condition holds. -/
def require (holds : Bool) (e : ε) : Program A ε Unit :=
  if holds then done () else failed e

/-- Takes a failure for one of another kind. -/
def mapError {ε' : Type} (f : ε → ε') : Program A ε α → Program A ε' α
  | done a => done a
  | failed e => failed (f e)
  | aborted reason => aborted reason
  | ask q next => ask q fun answer => (next answer).mapError f

/-- Asks the questions of a program among more of them. -/
def embed {Q' : Type} {A' : Q' → Type} (f : Q → Q') (back : ∀ q, A' (f q) → A q) :
    Program A ε α → Program A' ε α
  | done a => done a
  | failed e => failed e
  | aborted reason => aborted reason
  | ask q next => ask (f q) fun answer => (next (back q answer)).embed f back

/-- Asks one question. -/
def query (q : Q) : Program A ε (A q) :=
  ask q done

/-- Plays a program against surroundings that have a state. -/
def run {σ : Type} (answer : (q : Q) → σ → A q × σ) : Program A ε α → σ → Outcome ε α × σ
  | done a, s => (.done a, s)
  | failed e, s => (.failed e, s)
  | aborted reason, s => (.aborted reason, s)
  | ask q next, s => run answer (next (answer q s).1) (answer q s).2

/-- Plays a program against surroundings of a monad. -/
def interpret {m : Type → Type} [Monad m] (answer : (q : Q) → m (A q)) :
    Program A ε α → m (Outcome ε α)
  | done a => return .done a
  | failed e => return .failed e
  | aborted reason => return .aborted reason
  | ask q next => do interpret answer (next (← answer q))

end Program

end BulkLoad
