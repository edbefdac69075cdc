import BulkLoad.Api.Endpoint
import BulkLoad.Proofs.Text.Encodings

/-!
# Paths of requests

The words of a path tell its operation, and between them stand the names, each in a segment of its
own. A name written as a segment has no slash, so a path splits at its slashes into just these
pieces (`pieces_path`). From the pieces both are read back : the operation from the three words at
the front (`opening_injective`), the names by percent-decoding what comes after them
(`path_faithful`).
-/

namespace BulkLoad.Api

open Text

/-! ## Operations -/

/-- What an endpoint does, without the names that it is about. -/
inductive Operation
  | databaseList | databaseCreate
  | tableList | tableCreate | tableDelete | tableRename
  | sessionCreate | sessionShow | sessionFreeze | sessionPerform | sessionCommit | sessionDelete
  | partUpload
deriving DecidableEq, Repr

namespace Operation

/-- The words before the names. -/
def opening : Operation → List String
  | databaseList => ["v3", "database", "list"]
  | databaseCreate => ["v3", "database", "create"]
  | tableList => ["v3", "table", "list"]
  | tableCreate => ["v3", "table", "create"]
  | tableDelete => ["v3", "table", "delete"]
  | tableRename => ["v3", "table", "rename"]
  | sessionCreate => ["v3", "bulk_import", "create"]
  | sessionShow => ["v3", "bulk_import", "show"]
  | sessionFreeze => ["v3", "bulk_import", "freeze"]
  | sessionPerform => ["v3", "bulk_import", "perform"]
  | sessionCommit => ["v3", "bulk_import", "commit"]
  | sessionDelete => ["v3", "bulk_import", "delete"]
  | partUpload => ["v3", "bulk_import", "upload_part"]

/-- The number of names. -/
def arity : Operation → Nat
  | databaseList => 0
  | databaseCreate | tableList => 1
  | tableCreate | tableDelete => 2
  | tableRename | sessionCreate => 3
  | sessionShow | sessionFreeze | sessionPerform | sessionCommit | sessionDelete => 1
  | partUpload => 2

/-- The words after the names. -/
def closing : Operation → List String
  | tableCreate => ["log"]
  | _ => []

/-- The number of segments of a path, the empty one before the first slash included. -/
def size (operation : Operation) : Nat :=
  1 + operation.opening.length + operation.arity + operation.closing.length

/-- The endpoint of an operation on as many names as it takes. -/
def on? : Operation → List String → Option Endpoint
  | databaseList, [] => some .databaseList
  | databaseCreate, [database] => some (.databaseCreate database)
  | tableList, [database] => some (.tableList database)
  | tableCreate, [database, table] => some (.tableCreate database table)
  | tableDelete, [database, table] => some (.tableDelete database table)
  | tableRename, [database, source, destination] =>
    some (.tableRename database source destination)
  | sessionCreate, [session, database, table] => some (.sessionCreate session database table)
  | sessionShow, [session] => some (.sessionShow session)
  | sessionFreeze, [session] => some (.sessionFreeze session)
  | sessionPerform, [session] => some (.sessionPerform session)
  | sessionCommit, [session] => some (.sessionCommit session)
  | sessionDelete, [session] => some (.sessionDelete session)
  | partUpload, [session, part] => some (.partUpload session part)
  | _, _ => none

theorem length_opening (operation : Operation) : operation.opening.length = 3 := by
  cases operation <;> rfl

/-- The words at the front tell operations apart. -/
theorem opening_injective : Function.Injective opening := by
  intro a b h
  cases a <;> cases b <;> first | rfl | exact absurd h (by decide)

theorem slash_not_mem_words {operation : Operation} {w : String}
    (h : w ∈ operation.opening ++ operation.closing) : '/' ∉ w.toList := by
  revert w
  cases operation <;> decide

end Operation

namespace Endpoint

/-- The operation of an endpoint. -/
def operation : Endpoint → Operation
  | databaseList => .databaseList
  | databaseCreate .. => .databaseCreate
  | tableList .. => .tableList
  | tableCreate .. => .tableCreate
  | tableDelete .. => .tableDelete
  | tableRename .. => .tableRename
  | sessionCreate .. => .sessionCreate
  | sessionShow .. => .sessionShow
  | sessionFreeze .. => .sessionFreeze
  | sessionPerform .. => .sessionPerform
  | sessionCommit .. => .sessionCommit
  | sessionDelete .. => .sessionDelete
  | partUpload .. => .partUpload

/-- The names that an endpoint is about, in the order of its path. -/
def names : Endpoint → List String
  | databaseList => []
  | databaseCreate database | tableList database => [database]
  | tableCreate database table | tableDelete database table => [database, table]
  | tableRename database source destination => [database, source, destination]
  | sessionCreate session database table => [session, database, table]
  | sessionShow session | sessionFreeze session | sessionPerform session
  | sessionCommit session | sessionDelete session => [session]
  | partUpload session part => [session, part]

/-- An endpoint is its operation on its names. -/
theorem on?_names (e : Endpoint) : e.operation.on? e.names = some e := by
  cases e <;> rfl

theorem length_names (e : Endpoint) : e.names.length = e.operation.arity := by
  cases e <;> rfl

theorem eq_of_operation_names {e other : Endpoint} (ho : e.operation = other.operation)
    (hn : e.names = other.names) : e = other := by
  have h := on?_names e
  rw [ho, hn, on?_names other] at h
  exact (Option.some.inj h).symm

/-- The texts of the segments : words, names as they are written, words. -/
theorem map_text_segments (e : Endpoint) :
    e.segments.map Segment.text =
      e.operation.opening ++ e.names.map Percent.encode ++ e.operation.closing := by
  cases e <;> rfl

/-! ## Splitting at slashes -/

/-- What stands between the slashes of a path. -/
def pieces (path : String) : List String :=
  (path.split '/').toList.map (·.copy)

theorem join_slashes (texts : List String) :
    String.join (texts.map ("/" ++ ·)) = "/".intercalate ("" :: texts) := by
  induction texts with
  | nil => rfl
  | cons text rest ih =>
    rw [List.map_cons, String.join_cons, ih, String.intercalate_cons_cons]
    cases rest with
    | nil => simp
    | cons next rest => simp [String.intercalate_cons_cons, String.append_assoc]

/-- Texts without slashes are read back from the path that they are joined to. -/
theorem pieces_join {texts : List String} (h : ∀ text ∈ texts, '/' ∉ text.toList) :
    pieces (String.join (texts.map ("/" ++ ·))) = "" :: texts := by
  have hall : ∀ text ∈ "" :: texts, '/' ∉ text.toList :=
    List.forall_mem_cons.2 ⟨by simp, h⟩
  rw [join_slashes]
  exact (String.toList_split_intercalate hall).trans (if_neg (List.cons_ne_nil _ _))

theorem slash_not_mem_text {e : Endpoint} {text : String}
    (h : text ∈ e.segments.map Segment.text) : '/' ∉ text.toList := by
  rw [map_text_segments, List.append_assoc, List.mem_append, List.mem_append] at h
  rcases h with h | h | h
  · exact Operation.slash_not_mem_words (List.mem_append_left _ h)
  · obtain ⟨n, -, rfl⟩ := List.mem_map.1 h
    exact Percent.slash_not_mem_encode n
  · exact Operation.slash_not_mem_words (List.mem_append_right _ h)

/-- A path splits at its slashes into its segments. -/
theorem pieces_path (e : Endpoint) : pieces e.path = "" :: e.segments.map Segment.text := by
  rw [← pieces_join fun _ => slash_not_mem_text, List.map_map]
  rfl

theorem length_pieces_path (e : Endpoint) : (pieces e.path).length = e.operation.size := by
  rw [pieces_path, map_text_segments]
  simp only [List.length_cons, List.length_append, List.length_map, length_names, Operation.size]
  omega

/-- After the empty piece and the three words come the names. -/
theorem take_drop_pieces_path (e : Endpoint) :
    ((pieces e.path).drop 4).take e.operation.arity = e.names.map Percent.encode := by
  rw [pieces_path, map_text_segments, List.drop_succ_cons, List.append_assoc,
    ← Operation.length_opening e.operation, List.drop_left, ← length_names,
    ← List.length_map Percent.encode, List.take_left]

/-! ## Paths tell endpoints apart -/

/-- The operation and the names are read back from the path. -/
theorem operation_names_of_path_eq {e other : Endpoint} (h : e.path = other.path) :
    e.operation = other.operation ∧ e.names = other.names := by
  have hp := congrArg pieces h
  rw [pieces_path, pieces_path, List.cons.injEq, map_text_segments, map_text_segments,
    List.append_assoc, List.append_assoc] at hp
  -- The words at the front are as many for all operations, so the pieces are divided alike.
  have hlen : e.operation.opening.length = other.operation.opening.length := by
    rw [Operation.length_opening, Operation.length_opening]
  obtain ⟨ho, hrest⟩ := List.append_inj hp.2 hlen
  have hop := Operation.opening_injective ho
  rw [hop] at hrest
  have hnames := List.append_cancel_right hrest
  exact ⟨hop, (List.map_inj_right fun _ _ hn => Percent.encode_injective hn).1 hnames⟩

/-- Two paths are the same for the same operation on the same names only. A path splits at its
slashes into as many pieces as its operation has, and those after the words at the front are read
back as the names. -/
theorem path_faithful (e : Endpoint) :
    (∀ other : Endpoint, e.path = other.path ↔
      e.operation = other.operation ∧ e.names = other.names) ∧
    (pieces e.path).length = e.operation.size ∧
    (((pieces e.path).drop 4).take e.operation.arity).map Percent.decode = e.names.map some := by
  refine ⟨fun other => ⟨operation_names_of_path_eq, fun h => ?_⟩, length_pieces_path e, ?_⟩
  · rw [eq_of_operation_names h.1 h.2]
  · rw [take_drop_pieces_path, List.map_map]
    exact List.map_congr_left fun n _ => Percent.decode_encode n

example : pieces (path (.tableCreate "a b/c" "%")) =
    ["", "v3", "table", "create", "a%20b%2Fc", "%25", "log"] := by
  rw [pieces_path]
  decide +kernel

end Endpoint

end BulkLoad.Api
