import BulkLoad.Logging.Settings

/-!
# Filter directives

A directive raises or lowers the level of some events: it names a target, a span in square brackets,
or both, and after an equals sign a level; or it is a level alone. Only whether a directive is well
formed matters here: the log is not set up when one is not (`Settings.directoryToMake`).
-/

namespace BulkLoad.Logging

/-- The words for levels in a directive; the digits count from silence on. -/
def levelWords : List String :=
  ["trace", "debug", "info", "warn", "error", "off", "0", "1", "2", "3", "4", "5"]

/-- A character of the name of a target. A character beyond ASCII is taken for a letter. -/
def isTargetChar (c : Char) : Bool :=
  c.isAlphanum || c = '_' || c = ':' || c = '-' || 128 ≤ c.toNat

/-- What follows a target or a span at the start of a text. -/
def afterPart? : List Char → Option (List Char)
  | '[' :: cs =>
    match cs.dropWhile (· ≠ ']') with
    | _ :: rest => some rest
    | [] => none
  | c :: cs => if isTargetChar c then some (cs.dropWhile isTargetChar) else none
  | [] => none

/-- Nothing, or an equals sign with a level or nothing after it. -/
def isLevelPart : List Char → Bool
  | [] => true
  | '=' :: level => level.isEmpty || levelWords.contains (String.ofList (level.map Char.toLower))
  | _ => false

/-- Whether a directive is well formed. -/
def isDirective (cs : List Char) : Bool :=
  match afterPart? cs with
  | none => false
  | some rest =>
    isLevelPart rest || match afterPart? rest with
      | some rest => isLevelPart rest
      | none => false

/-- The directives of a text. -/
def directivesOf (s : String) : List (List Char) :=
  ((s.splitOn ",").map fun directive => Text.trimChars directive.toList).filter (!·.isEmpty)

namespace Settings

/-- Whether all directives are well formed. -/
def isFilterSound (s : Settings) : Bool :=
  (s.directives.toList.flatMap directivesOf).all isDirective

/-- The directory that is made when the log is set up. -/
def directoryToMake (s : Settings) : Option String :=
  if s.output.reachesFile && s.isFilterSound then some s.directory else none

end Settings

example : isDirective "bulk::load[span]=Debug".toList = true := by decide +kernel
example : isDirective "warn".toList = true := by decide +kernel
example : isDirective "a=loud".toList = false := by decide +kernel

end BulkLoad.Logging
