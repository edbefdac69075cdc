import BulkLoad.MessagePack.Writer
import BulkLoad.Part.Name
import BulkLoad.Program

/-!
# Part files

A part is a compressed file of packed records, one after the other. It is built record by record and
closed when it is large enough; a part without a record leaves no file behind. Files are
removed as soon as they are of no more use, also when something fails.
-/

namespace BulkLoad.Part

/-- What went wrong with a file. -/
structure FileFault where
  path : String
  detail : String
deriving DecidableEq, Repr

/-- What can go wrong with a part. -/
inductive Fault
  /-- The file could not be made or closed. -/
  | file (fault : FileFault)
  /-- A record could not be added. -/
  | write (detail : String)
deriving DecidableEq, Repr

def Fault.message : Fault → String
  | .file fault => "I/O error on " ++ fault.path ++ ": " ++ fault.detail
  | .write detail => "Failed to write record to part file: " ++ detail

/-- What a part asks of the file system. -/
inductive Question
  /-- Makes an empty file for a part in a directory, or in the usual one. -/
  | create (directory : Option String) (name : String)
  /-- Adds bytes, which are compressed; the answer is the size of what reached the file so far. -/
  | append (path : String) (bytes : List UInt8)
  /-- Writes out what is left; the answer is the size of the file. -/
  | close (path : String)
  /-- Removes a file, which is assumed to succeed. -/
  | remove (path : String)
deriving DecidableEq

/-- The answers of the file system. -/
abbrev Answer : Question → Type
  | .create .. => Except FileFault String
  | .append .. => Except String Nat
  | .close _ => Except FileFault Nat
  | .remove _ => Unit

/-- A part that is open. -/
structure Builder where
  number : Nat
  name : String
  path : String
  records : Nat := 0
  /-- The size of what reached the file so far. -/
  size : Nat := 0
deriving DecidableEq, Repr

/-- A part that is closed; it has a record at least. -/
structure File where
  number : Nat
  name : String
  path : String
  records : Nat
  size : Nat
deriving DecidableEq, Repr

/-- A program that works on parts. -/
abbrev Work (α : Type) : Type := Program Answer Fault α

/-- Asks the file system. -/
def ask (q : Question) : Work (Answer q) :=
  Program.query q

/-- Removes a file. -/
def remove (path : String) : Work Unit :=
  ask (.remove path)

/-- Opens a part. -/
def create (directory : Option String) (stem : String) (number : Nat) : Work Builder := do
  match ← ask (.create directory (name stem number)) with
  | .ok path => return { number, name := name stem number, path }
  | .error fault => throw (.file fault)

namespace Builder

/-- Adds a record. The part is removed when that fails. -/
def add (part : Builder) (record : Packed) : Work Builder := do
  match ← ask (.append part.path record.encode) with
  | .ok size => return { part with records := part.records + 1, size }
  | .error detail =>
    remove part.path
    throw (.write detail)

/-- Closes the part. One without a record, or that cannot be closed, is removed. -/
def finish (part : Builder) : Work (Option File) := do
  match ← ask (.close part.path) with
  | .error fault =>
    remove part.path
    throw (.file fault)
  | .ok size =>
    if part.records = 0 then
      remove part.path
      return none
    else return some ⟨part.number, part.name, part.path, part.records, size⟩

end Builder

end BulkLoad.Part
