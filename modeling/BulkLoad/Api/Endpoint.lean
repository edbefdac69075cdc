import BulkLoad.Text.Percent

/-!
# Endpoints

The operations of the service and their paths. A path is a fixed number of segments under `/v3`; the
names that an operation is about are segments of their own, percent-encoded. On its way to the
service a path is normalized: a segment `.` is dropped, a segment `..` takes the segment before it
along (`target`).
-/

namespace BulkLoad.Api

/-- An operation of the service, with the names that it is about. -/
inductive Endpoint
  | databaseList
  | databaseCreate (database : String)
  | tableList (database : String)
  | tableCreate (database table : String)
  | tableDelete (database table : String)
  | tableRename (database source destination : String)
  | sessionCreate (session database table : String)
  | sessionShow (session : String)
  | sessionFreeze (session : String)
  | sessionPerform (session : String)
  | sessionCommit (session : String)
  | sessionDelete (session : String)
  | partUpload (session part : String)
deriving DecidableEq, Repr

/-- One segment of a path. -/
inductive Segment
  /-- A word that belongs to the operation. -/
  | word (w : String)
  /-- A name that the operation is about. -/
  | name (n : String)
deriving DecidableEq, Repr

/-- A segment as it stands in a path. -/
def Segment.text : Segment → String
  | .word w => w
  | .name n => Text.Percent.encode n

namespace Endpoint

/-- The segments of an operation. -/
def segments : Endpoint → List Segment
  | databaseList => [.word "v3", .word "database", .word "list"]
  | databaseCreate database => [.word "v3", .word "database", .word "create", .name database]
  | tableList database => [.word "v3", .word "table", .word "list", .name database]
  | tableCreate database table =>
    [.word "v3", .word "table", .word "create", .name database, .name table, .word "log"]
  | tableDelete database table =>
    [.word "v3", .word "table", .word "delete", .name database, .name table]
  | tableRename database source destination =>
    [.word "v3", .word "table", .word "rename", .name database, .name source, .name destination]
  | sessionCreate session database table =>
    [.word "v3", .word "bulk_import", .word "create", .name session, .name database, .name table]
  | sessionShow session => [.word "v3", .word "bulk_import", .word "show", .name session]
  | sessionFreeze session => [.word "v3", .word "bulk_import", .word "freeze", .name session]
  | sessionPerform session => [.word "v3", .word "bulk_import", .word "perform", .name session]
  | sessionCommit session => [.word "v3", .word "bulk_import", .word "commit", .name session]
  | sessionDelete session => [.word "v3", .word "bulk_import", .word "delete", .name session]
  | partUpload session part =>
    [.word "v3", .word "bulk_import", .word "upload_part", .name session, .name part]

/-- The path of an operation. -/
def path (endpoint : Endpoint) : String :=
  String.join (endpoint.segments.map fun segment => "/" ++ segment.text)

/-- Segments without `.` and `..`, where `before` are those before them, the last one first. One
that stands last leaves an empty segment behind. -/
def resolve (before : List String) : List String → List String
  | [] => before.reverse
  | segment :: rest =>
    if segment = ".." then resolve (if rest.isEmpty then "" :: before.tail else before.tail) rest
    else if segment = "." then resolve (if rest.isEmpty then "" :: before else before) rest
    else resolve (segment :: before) rest

/-- The path that the service sees. -/
def target (endpoint : Endpoint) : String :=
  String.join ((resolve [] (endpoint.segments.map Segment.text)).map ("/" ++ ·))

example : path (.sessionShow "a b/c") = "/v3/bulk_import/show/a%20b%2Fc" := by decide +kernel
example : target (.tableList "..") = "/v3/table/" := by decide +kernel

end Endpoint

end BulkLoad.Api
