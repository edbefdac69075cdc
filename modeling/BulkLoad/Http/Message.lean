import BulkLoad.Api.Client
import BulkLoad.Calendar.Render
import BulkLoad.Decimal.Integer
import BulkLoad.Json.Raw

/-!
# Messages of HTTP/1.1

The bytes of a request on a connection that is closed after the answer, and the answer as all bytes
up to the end of the connection. A body is framed in chunks, by its length, or by the end.
-/

namespace BulkLoad.Http

/-! ## Requests -/

/-- How a moment stands in the head of a message. -/
def datePattern : Calendar.Pattern :=
  (Calendar.Pattern.parse? "%a, %d %b %Y %H:%M:%S GMT").getD []

/-- The text of a moment in the head of a message. -/
def dateText (now : Calendar.Instant) : String :=
  ((datePattern.render? (now.inZone .utc)).map String.ofList).getD ""

/-- The lines about the body of a request. A request that only reads has none. -/
def bodyLines (request : Api.Request) (length : Nat) : List String :=
  match request.method with
  | .get => []
  | _ => ("content-length: " ++ Decimal.text length)
      :: request.body.contentType?.toList.map ("content-type: " ++ ·)

/-- The bytes of a request, where `content` is that of its file. -/
def requestBytes (host key : String) (now : Calendar.Instant) (request : Api.Request)
    (content : List UInt8) : List UInt8 :=
  let body := request.body.bytes content
  let head := [request.method.name ++ " " ++ request.endpoint.target ++ " HTTP/1.1",
      "host: " ++ host, "authorization: " ++ Api.authorization key, "date: " ++ dateText now,
      "user-agent: " ++ Api.userAgent, "accept: */*", "connection: close"]
    ++ bodyLines request body.length
  Text.Utf8.encode (String.join ((head ++ [""]).map (· ++ "\r\n"))) ++ body

/-! ## Answers -/

/-- The two bytes that end a line. -/
def lineEnd : List UInt8 := [13, 10]

/-- The bytes before the first end of a line, and those after it. -/
def splitLine : List UInt8 → Option (List UInt8 × List UInt8)
  | 13 :: 10 :: rest => some ([], rest)
  | byte :: rest => (splitLine rest).map fun split => (byte :: split.1, split.2)
  | [] => none

theorem length_lt_of_splitLine {bytes line rest : List UInt8}
    (h : splitLine bytes = some (line, rest)) : rest.length < bytes.length := by
  fun_induction splitLine bytes generalizing line rest with
  | case1 rest' =>
    simp only [Option.some.injEq, Prod.mk.injEq] at h
    simp only [← h.2, List.length_cons]
    omega
  | case2 byte rest' _ ih =>
    obtain ⟨split, hs, h⟩ := Option.map_eq_some_iff.1 h
    simp only [Prod.mk.injEq] at h
    have := ih hs
    simp only [← h.2, List.length_cons]
    omega
  | case3 => simp at h

/-- The lines of a head, without the empty one that ends it, and the bytes after it. -/
def splitHead (bytes : List UInt8) : Option (List String × List UInt8) :=
  match _h : splitLine bytes with
  | none => none
  | some ([], rest) => some ([], rest)
  | some (line, rest) =>
    (splitHead rest).map fun head => (Text.Utf8.decodeLossy line :: head.1, head.2)
termination_by bytes.length
decreasing_by exact length_lt_of_splitLine (by assumption)

/-- The value of a field of a head. Names of fields may be in any case. -/
def field? (name : String) (lines : List String) : Option String :=
  lines.findSome? fun line =>
    match line.toList.span (· ≠ ':') with
    | (found, ':' :: value) =>
      if String.ofList (found.map Char.toLower) = name then some (Text.trim (String.ofList value))
      else none
    | _ => none

/-- Reads hexadecimal digits up to another character. -/
def readHex (sofar : Nat) : List Char → Nat
  | [] => sofar
  | c :: rest =>
    match Text.Hex.value? c with
    | some digit => readHex (16 * sofar + digit) rest
    | none => sofar

/-- The content of a body that is framed in chunks. -/
def dechunk (bytes : List UInt8) : Option (List UInt8) :=
  match _h : splitLine bytes with
  | none => none
  | some (line, rest) =>
    let size := readHex 0 (Text.Utf8.decodeLossy line).toList
    if size = 0 then some []
    else if rest.length < size + 2 then none
    else (dechunk (rest.drop (size + 2))).map (rest.take size ++ ·)
termination_by bytes.length
decreasing_by
  have := length_lt_of_splitLine (by assumption)
  simp only [List.length_drop]
  omega

/-- The content of a body, by the lines of its head. -/
def bodyOf (lines : List String) (rest : List UInt8) : Option (List UInt8) :=
  if (field? "transfer-encoding" lines).any (·.toLower = "chunked") then dechunk rest
  else match field? "content-length" lines with
    | none => some rest
    | some length =>
      match Decimal.readInteger 0 0x8000000000000000 length.toList with
      | .ok n => if rest.length < n.toNat then none else some (rest.take n.toNat)
      | .error _ => none

/-- The status of an answer, by the first line of its head. -/
def statusOf (line : String) : Option Nat :=
  match line.splitOn " " with
  | version :: status :: _ =>
    if version.startsWith "HTTP/" then
      (Decimal.readInteger 0 999 status.toList).toOption.map Int.toNat
    else none
  | _ => none

/-- What is said of an answer that is broken. -/
def broken : String := "the answer is not well formed"

/-- What the bytes of an answer say; a broken one says that there was none. -/
def replyOf (bytes : List UInt8) : Api.Reply :=
  match splitHead bytes with
  | some (line :: lines, rest) =>
    match statusOf line with
    | none => .dropped broken
    | some status =>
      if status = 204 || status = 304 then .answered status []
      else match bodyOf lines rest with
        | some body => .answered status body
        | none => .dropped broken
  | _ => .dropped broken

end BulkLoad.Http
