import BulkLoad.Json.Basic

/-!
# Tables of settings files

A table grows while the text is read. Keys with several names and the headers of sections make
the tables that they pass through; each table is defined by one of the two ways, and once.
`Table.put?` adds a value, `Table.openSection?` and `Table.openElement?` begin a section; all of
them refuse what would define something again.
-/

namespace BulkLoad.Toml

/-- How a table came about. -/
inductive Origin
  /-- A header of its own. -/
  | header
  /-- The header of a table inside it. -/
  | passage
  /-- A key with several names. -/
  | dotted
deriving DecidableEq

/-- What a name stands for in a table. -/
inductive Entry
  | value (json : Json)
  | table (origin : Origin) (entries : List (String × Entry))
  /-- The tables of an array, the last one first. -/
  | tables (elements : List (List (String × Entry)))

/-- The entries of a table. -/
abbrev Table : Type := List (String × Entry)

namespace Table

/-- Puts an entry instead of one of the same name, or after all others. -/
def set (name : String) (entry : Entry) : Table → Table
  | [] => [(name, entry)]
  | (other, old) :: rest =>
    if other = name then (name, entry) :: rest else (other, old) :: set name entry rest

/-- Changes the table at the end of a path, where `origin` is that of the table it starts from. On
its way it makes the tables that are missing. A key with several names passes through no table that
has a header; a header passes through any. -/
def change? (dotted : Bool) (change : Origin → Table → Option Table) :
    List String → Origin → Table → Option Table
  | [], origin, table => change origin table
  | name :: path, _, table =>
    match table.lookup name with
    | none => do
      let origin := if dotted then .dotted else .passage
      return table.set name (.table origin (← change? dotted change path origin []))
    | some (.value _) => none
    | some (.table origin entries) => do
      if dotted && origin = .header then none
      return table.set name (.table origin (← change? dotted change path origin entries))
    | some (.tables []) => none
    | some (.tables (last :: others)) => do
      return table.set name (.tables ((← change? dotted change path .header last) :: others))

/-- Adds a value under a key; `section` is the path of the section that the key stands in. -/
def put? (header path : List String) (name : String) (json : Json) (root : Table) :
    Option Table :=
  change? false (fun origin table =>
    change? true (fun inner table =>
      if !path.isEmpty && inner ≠ .dotted then none
      else if (table.lookup name).isSome then none
      else some (table.set name (.value json))) path origin table) header .header root

/-- Begins the section of a table. -/
def openSection? (path : List String) (name : String) (root : Table) : Option Table :=
  change? false (fun _ table =>
    match table.lookup name with
    | none => some (table.set name (.table .header []))
    | some (.table .passage entries) => some (table.set name (.table .header entries))
    | some _ => none) path .header root

/-- Begins the section of the next element of an array of tables. -/
def openElement? (path : List String) (name : String) (root : Table) : Option Table :=
  change? false (fun _ table =>
    match table.lookup name with
    | none => some (table.set name (.tables [[]]))
    | some (.tables elements) => some (table.set name (.tables ([] :: elements)))
    | some _ => none) path .header root

end Table

mutual

/-- The document of an entry. -/
def Entry.toJson : Entry → Json
  | .value json => json
  | .table _ entries => Json.ofFields (fieldsOf entries)
  | .tables elements => .array (documentsOf elements).reverse

/-- The fields of the object of a table. -/
def fieldsOf : List (String × Entry) → List (String × Json)
  | [] => []
  | (name, entry) :: rest => (name, entry.toJson) :: fieldsOf rest

/-- The objects of tables. -/
def documentsOf : List (List (String × Entry)) → List Json
  | [] => []
  | entries :: rest => Json.ofFields (fieldsOf entries) :: documentsOf rest

end

/-- The object of a table. -/
def Table.toJson (table : Table) : Json :=
  Json.ofFields (fieldsOf table)

end BulkLoad.Toml
