import BulkLoad.Double.Text
import BulkLoad.Import.Run
import BulkLoad.Json.Pretty
import BulkLoad.Text.ByteSize

/-!
# What commands print

The lines that tell the user what a command found or did. Counts that say nothing are left out:
those of bad records and of skipped rows when there are none, and what the service does not tell.
-/

namespace BulkLoad.Command

/-- A line about a count, which is left out at zero. -/
def unlessZero (label : String) : Nat → List String
  | 0 => []
  | count => [label ++ Decimal.text count]

/-- A line about a value, which is left out when there is none. -/
def whenKnown {α : Type} (label : String) (text : α → String) (value : Option α) : List String :=
  value.toList.map fun a => label ++ text a

def databaseLine (d : Api.Database) : String :=
  "  " ++ d.name ++ match d.count with
    | some count => " (" ++ Decimal.text count ++ " rows)"
    | none => ""

/-- The databases of an account. -/
def databaseLines : List Api.Database → List String
  | [] => ["No databases found."]
  | databases => "Databases:" :: databases.map databaseLine

/-- A session as the service describes it. -/
def sessionLines (s : Api.Session) : List String :=
  [s.name,
    "  Destination:    " ++ s.database ++ "." ++ s.table,
    "  Status:         " ++ s.status.name,
    "  Upload frozen:  " ++ if s.frozen then "true" else "false"]
  ++ whenKnown "  Job:            " id s.jobId
  ++ whenKnown "  Valid records:  " Decimal.text s.validRecords
  ++ whenKnown "  Error records:  " Decimal.text s.errorRecords

/-- A session that was taken to its last stage. -/
def committedLines (s : Api.Session) : List String :=
  ["Committed " ++ s.name, "  Valid records:  " ++ Decimal.text s.valid]
  ++ unlessZero "  Error records:  " s.errors

/-- A session that was deleted, if it was there. -/
def deletedLines (name : String) (wasThere : Bool) : List String :=
  if wasThere then ["Deleted session " ++ name] else ["Session " ++ name ++ " does not exist."]

/-- Milliseconds as seconds with one decimal place. -/
def secondsText (millis : Nat) : String :=
  ((Double.ofNat millis).div (Double.ofNat 1000)).fixedText 1 ++ "s"

/-- What was uploaded. -/
def uploadLines (r : Import.Report) : List String :=
  if r.uploaded then
    ("  Rows read:      " ++ Decimal.text r.rowsRead)
      :: unlessZero "  Rows skipped:   " r.rowsSkipped
      ++ ["  Parts:          " ++ Decimal.text r.parts
        ++ " (" ++ Text.ByteSize.text r.bytesUploaded ++ ")"]
  else ["  Upload:         skipped (session resumed)"]

/-- An import that went through. -/
def reportLines (r : Import.Report) : List String :=
  ["Imported into " ++ r.database ++ "." ++ r.table, "  Session:        " ++ r.session]
  ++ uploadLines r
  ++ ["  Valid records:  " ++ Decimal.text r.validRecords]
  ++ unlessZero "  Error records:  " r.errorRecords
  ++ whenKnown "  Job:            " id r.jobId
  ++ ["  Elapsed:        " ++ secondsText r.elapsedMillis]

example : secondsText 1250 = "1.2s" := by decide +kernel
example : databaseLines [⟨"logs", some 3, none⟩, ⟨"raw", none, none⟩]
    = ["Databases:", "  logs (3 rows)", "  raw"] := by decide +kernel

end BulkLoad.Command
