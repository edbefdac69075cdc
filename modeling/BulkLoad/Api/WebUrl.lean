import BulkLoad.Api.Library
import BulkLoad.Text.Percent
import BulkLoad.Text.Punycode

/-!
# Reading URLs

The library that the program is built with (`WebUrl.library`), one of those that a client may be
given. What is proved of clients in general does not depend on it.

A URL says where a service is: its scheme, its host and its port. It is read as browsers read URLs:
blanks around it, tabs and line ends are dropped; after a scheme that implies a host any number of
slashes may stand; a host may be a name, which is brought to lower case and to ASCII, an IPv4
address in any of its notations, or an IPv6 address in brackets. Path, query and fragment do not
matter here. Of the letters beyond ASCII a name may have those of a few scripts
(`WebUrl.mapNameChar?`); a name with any other is refused.
-/

namespace BulkLoad.Api.WebUrl

/-- Why a text is no URL. -/
inductive Fault
  | emptyHost
  | invalidName
  | invalidCharacter
  | invalidPort
  | invalidIpv4
  | invalidIpv6
  | noScheme
deriving DecidableEq, Repr

def Fault.message : Fault → String
  | .emptyHost => "empty host"
  | .invalidName => "invalid international domain name"
  | .invalidCharacter => "invalid domain character"
  | .invalidPort => "invalid port number"
  | .invalidIpv4 => "invalid IPv4 address"
  | .invalidIpv6 => "invalid IPv6 address"
  | .noScheme => "relative URL without a base"

/-- How a scheme names its host. -/
inductive Kind
  | web
  | file
  | opaqueName
deriving DecidableEq

/-- The schemes that imply a host, and their ports. -/
def webPorts : List (String × Nat) :=
  [("http", 80), ("https", 443), ("ws", 80), ("wss", 443), ("ftp", 21)]

def Kind.ofScheme (scheme : String) : Kind :=
  if (webPorts.lookup scheme).isSome then .web else if scheme = "file" then .file else .opaqueName

/-- A character that separates the parts of a URL of a kind; the backslash is a slash to all but
opaque names. -/
def endsHost (kind : Kind) (c : Char) : Bool :=
  c = '/' || c = '?' || c = '#' || (c = '\\' && kind ≠ .opaqueName)

/-! ## IPv4 addresses -/

/-- The number that digits stand for in a base, if all are digits. -/
def numberIn? (base : Nat) (cs : List Char) : Option Nat :=
  cs.foldlM (fun sofar c => do
    let d ← Text.Hex.value? c
    if d < base then some (base * sofar + d) else none) 0

/-- One part of an IPv4 address: hexadecimal after `0x`, octal after `0`, else decimal. -/
def ipv4Number? : List Char → Option Nat
  | [] => none
  | '0' :: 'x' :: rest => numberIn? 16 rest
  | '0' :: 'X' :: rest => numberIn? 16 rest
  | '0' :: c :: rest => numberIn? 8 (c :: rest)
  | cs => numberIn? 10 cs

/-- Splits a text at each separator. -/
def partsAt (separator : Char) (cs : List Char) : List (List Char) :=
  cs.foldr (fun c parts => if c = separator then [] :: parts
    else match parts with
      | part :: rest => (c :: part) :: rest
      | [] => [[c]]) [[]]

/-- The parts without the empty one after a last dot. -/
def significantParts (cs : List Char) : List (List Char) :=
  let parts := partsAt '.' cs
  if parts.length > 1 && parts.getLast? = some [] then parts.dropLast else parts

/-- A name whose last part is a number is an IPv4 address, or wrong. -/
def endsInNumber (cs : List Char) : Bool :=
  match (significantParts cs).getLast? with
  | none | some [] => false
  | some part => part.all Decimal.isDigit || (ipv4Number? part).isSome

/-- The address in four decimal numbers. -/
def ipv4Text (address : Nat) : String :=
  ".".intercalate ([3, 2, 1, 0].map fun i => Decimal.text (address / Nat.pow 256 i % 256))

/-- The IPv4 address that a name stands for; the last part fills the bytes that are left. -/
def readIpv4 (cs : List Char) : Except Fault String :=
  match (significantParts cs).mapM ipv4Number? with
  | none => .error .invalidIpv4
  | some numbers =>
    let heads := numbers.dropLast
    let last := numbers.getLast?.getD 0
    if numbers.length > 4 || heads.any (255 < ·) || Nat.pow 256 (4 - heads.length) ≤ last then
      .error .invalidIpv4
    else
      let place (total : Nat) (head : Nat × Nat) : Nat := total + head.1 * Nat.pow 256 (3 - head.2)
      .ok (ipv4Text (heads.zipIdx.foldl place last))

/-! ## IPv6 addresses -/

/-- The decimal parts of an IPv4 address at the end of an IPv6 address. -/
def ipv4Tail? (cs : List Char) : Option (List Nat) := do
  let parts := partsAt '.' cs
  let numbers ← parts.mapM fun part =>
    if part.isEmpty || part.length > 3 || !part.all Decimal.isDigit
        || (part.length > 1 && part.head? = some '0') then none
    else if Decimal.value part < 256 then some (Decimal.value part) else none
  match numbers with
  | [a, b, c, d] => some [256 * a + b, 256 * c + d]
  | _ => none

/-- The sixteen-bit pieces between colons. -/
def ipv6Pieces? (last : Bool) : List (List Char) → Option (List Nat)
  | [] => some []
  | [part] =>
    if last && part.contains '.' then ipv4Tail? part
    else if part.isEmpty || part.length > 4 then none else (numberIn? 16 part).map ([·])
  | part :: rest => do
    if part.isEmpty || part.length > 4 then none
    else return (← numberIn? 16 part) :: (← ipv6Pieces? last rest)

/-- The text before the first double colon and the text after it. -/
def splitDoubleColon? : List Char → Option (List Char × List Char)
  | ':' :: ':' :: rest => some ([], rest)
  | c :: rest => (splitDoubleColon? rest).map fun (a, b) => (c :: a, b)
  | [] => none

/-- The eight pieces of an IPv6 address. -/
def ipv6Pieces8? (cs : List Char) : Option (List Nat) := do
  let pieces (last : Bool) (part : List Char) : Option (List Nat) :=
    if part.isEmpty then some [] else ipv6Pieces? last (partsAt ':' part)
  match splitDoubleColon? cs with
  | some (a, b) =>
    let a ← pieces false a
    let b ← pieces true b
    if a.length + b.length ≤ 7 then some (a ++ List.replicate (8 - a.length - b.length) 0 ++ b)
    else none
  | none =>
    let all ← pieces true cs
    if all.length = 8 then some all else none

/-- The start and the length of the first longest run of zeros, of two at least. -/
def longestZeros (pieces : List Nat) : Option (Nat × Nat) :=
  let runs := (List.range pieces.length).map fun i =>
    (i, ((pieces.drop i).takeWhile (· = 0)).length)
  (runs.foldl (fun best run => if best.2 < run.2 then run else best) (0, 1) |> fun run =>
    if 1 < run.2 then some run else none)

/-- A number in lower-case hexadecimal. -/
def hexText (n : Nat) : String :=
  String.ofList (Nat.toDigits 16 n)

/-- The shortest form of an IPv6 address, in brackets. -/
def ipv6Text (pieces : List Nat) : String :=
  let joined (ps : List Nat) : String := ":".intercalate (ps.map hexText)
  "[" ++ (match longestZeros pieces with
    | some (start, length) =>
      joined (pieces.take start) ++ "::" ++ joined (pieces.drop (start + length))
    | none => joined pieces) ++ "]"

/-! ## Names -/

/-- Ranges of capitals, with the distance to their small letters. -/
def capitals : List (Nat × Nat × Nat) :=
  [(0xC0, 0xD6, 32), (0xD8, 0xDE, 32), (0x391, 0x3A1, 32), (0x3A3, 0x3A9, 32), (0x400, 0x40F, 80),
    (0x410, 0x42F, 32)]

/-- Ranges in which each capital stands before its small letter. -/
def paired : List (Nat × Nat) :=
  [(0x100, 0x12F), (0x134, 0x137), (0x139, 0x13E), (0x141, 0x148), (0x14A, 0x177), (0x179, 0x17E)]

/-- Ranges of letters that stay what they are: small ones, and those of scripts without capitals. -/
def plain : List (Nat × Nat) :=
  [(0xDF, 0xF6), (0xF8, 0xFF), (0x3B1, 0x3C9), (0x430, 0x45F), (0x3041, 0x3096), (0x30A1, 0x30FA),
    (0x4E00, 0x9FFF), (0xAC00, 0xD7A3)]

/-- What a character of a name becomes, if it is known: capitals are lowered, wide forms narrowed,
other full stops become dots, invisible marks vanish. -/
def mapNameChar? (c : Char) : Option (List Char) :=
  let n := c.toNat
  let isIn (range : Nat × Nat) : Bool := range.1 ≤ n && n ≤ range.2
  if n < 0x80 then some [c.toLower]
  else if [0xAD, 0x200B, 0x2060, 0xFEFF].contains n then some []
  else if [0x3002, 0xFF0E, 0xFF61].contains n then some ['.']
  else if isIn (0xFF01, 0xFF5E) then some [(Char.ofNat (n - 0xFF01 + 0x21)).toLower]
  else if plain.any isIn then some [c]
  else match capitals.find? fun range => isIn (range.1, range.2.1) with
    | some (_, _, distance) => some [Char.ofNat (n + distance)]
    | none => (paired.find? isIn).map fun range => [Char.ofNat (n + 1 - (n - range.1) % 2)]

/-- ASCII characters that no name may have. -/
def isForbidden (c : Char) : Bool :=
  c.toNat ≤ 0x20 || c.toNat = 0x7F || "#/:<>?@[\\]^|%".toList.contains c

/-- The mark of a label that is written in ASCII but stands for another one. -/
def mark : List Char := "xn--".toList

/-- What follows the mark of a label is the written form of one that needs it. -/
def isWritten (cs : List Char) : Bool :=
  (Text.Punycode.decode cs).any fun label =>
    label.any (0x80 ≤ ·.toNat) && label.all (fun c => mapNameChar? c = some [c] && !isForbidden c)
      && Text.Punycode.encode label = cs

/-- A label in ASCII. -/
def asciiLabel? (label : List Char) : Option (List Char) :=
  let isAscii := label.all (·.toNat < 0x80)
  if mark.isPrefixOf label then
    if isAscii && isWritten (label.drop mark.length) then some label else none
  else some (if isAscii then label else mark ++ Text.Punycode.encode label)

/-- A name in ASCII and lower case. -/
def asciiName? (name : String) : Option (List Char) := do
  let cs := (← name.toList.mapM mapNameChar?).flatten
  if cs.any isForbidden then none
  else
    let labels ← (partsAt '.' cs).mapM asciiLabel?
    some (['.'].intercalate labels)

/-! ## Hosts -/

/-- A host in brackets. -/
def readBrackets (cs : List Char) : Except Fault String :=
  match cs.getLast? with
  | some ']' =>
    match ipv6Pieces8? (cs.drop 1).dropLast with
    | some pieces => .ok (ipv6Text pieces)
    | none => .error .invalidIpv6
  | _ => .error .invalidIpv6

/-- A host of a scheme that knows names and addresses. -/
def readHost (cs : List Char) : Except Fault String :=
  if cs.head? = some '[' then readBrackets cs
  else
    let decoded := (percentBytes cs)
    match (Text.Utf8.decode? decoded).bind asciiName? with
    | none => .error .invalidName
    | some [] => .error .emptyHost
    | some name => if endsInNumber name then readIpv4 name else .ok (String.ofList name)
where
  /-- The bytes of a text with its complete escapes undone. -/
  percentBytes : List Char → List UInt8
    | '%' :: a :: b :: rest =>
      match Text.Hex.value? a, Text.Hex.value? b with
      | some x, some y => UInt8.ofNat (16 * x + y) :: percentBytes rest
      | _, _ => String.utf8EncodeChar '%' ++ percentBytes (a :: b :: rest)
    | c :: rest => String.utf8EncodeChar c ++ percentBytes rest
    | [] => []

/-- A host of a scheme that does not look into it. -/
def readOpaqueHost (cs : List Char) : Except Fault String :=
  if cs.head? = some '[' then readBrackets cs
  else if cs.any fun c => c.toNat = 0 || "\t\n\r #/:<>?@[\\]^|".toList.contains c then
    .error .invalidCharacter
  else .ok (String.ofList (cs.flatMap fun c =>
    if c.toNat < 0x20 || 0x7F ≤ c.toNat then (String.utf8EncodeChar c).flatMap escape else [c]))
where
  escape (b : UInt8) : List Char :=
    ['%', Text.Percent.hexDigit (b.toNat / 16), Text.Percent.hexDigit (b.toNat % 16)]

/-- The text up to the end of the host: a colon ends it, except in brackets. -/
def hostText (kind : Kind) (bracketed : Bool) : List Char → List Char × List Char
  | [] => ([], [])
  | c :: rest =>
    if (c = ':' && !bracketed) || endsHost kind c then ([], c :: rest)
    else
      let bracketed := if c = '[' then true else if c = ']' then false else bracketed
      let (host, rest) := hostText kind bracketed rest
      (c :: host, rest)

/-- Reads a port after its colon. -/
def readPort : Option Nat → List Char → Except Fault (Option Nat)
  | sofar, c :: rest =>
    if Decimal.isDigit c then
      let port := 10 * sofar.getD 0 + Decimal.digitValue c
      if port < 65536 then readPort (some port) rest else .error .invalidPort
    else if c = '/' || c = '\\' || c = '?' || c = '#' then .ok sofar
    else .error .invalidPort
  | sofar, [] => .ok sofar

/-- The text after the last at sign before the path, and whether something stands before it. -/
def dropUser (kind : Kind) (cs : List Char) : Except Fault (Bool × List Char) :=
  let authority := cs.takeWhile fun c => !endsHost kind c
  if authority.contains '@' then
    let host := (authority.reverse.takeWhile (· ≠ '@')).reverse
    let user := authority.take (authority.length - host.length - 1)
    let rest := host ++ cs.drop authority.length
    if user.isEmpty then
      match rest with
      | c :: _ => if endsHost kind c then .error .emptyHost else .ok (false, rest)
      | [] => .ok (false, rest)
    else .ok (true, rest)
  else .ok (false, cs)

/-- Reads user, host and port. -/
def readAuthority (scheme : String) (cs : List Char) : Except Fault Url := do
  let kind := Kind.ofScheme scheme
  let (hasUser, cs) ← dropUser kind cs
  let (text, rest) := hostText kind false cs
  if kind = .web && text.isEmpty then throw .emptyHost
  let host ← if kind = .web then readHost text else readOpaqueHost text
  if host = "" && (rest.head? = some ':' || hasUser) then throw .emptyHost
  let port ← match rest with
    | ':' :: rest => readPort none rest
    | _ => pure none
  let implied := webPorts.lookup scheme
  return ⟨scheme, if host = "" then none else some host, port.filter (some · ≠ implied)⟩

/-- Reads what follows the scheme of a file. -/
def readFile : List Char → Except Fault Url
  | a :: b :: rest =>
    if (a = '/' || a = '\\') && (b = '/' || b = '\\') then do
      let text := rest.takeWhile fun c => !endsHost .file c
      let isDrive := match text with
        | [letter, mark] => letter.isAlpha && (mark = ':' || mark = '|')
        | _ => false
      if text.isEmpty || isDrive then return ⟨"file", none, none⟩
      let host ← readHost text
      return ⟨"file", if host = "localhost" then none else some host, none⟩
    else .ok ⟨"file", none, none⟩
  | _ => .ok ⟨"file", none, none⟩

/-- The scheme of a URL in lower case, and what follows its colon. -/
def scheme? : List Char → Option (String × List Char)
  | [] => none
  | c :: rest =>
    if c.isAlpha then
      let tail := rest.takeWhile fun c => c.isAlphanum || c = '+' || c = '-' || c = '.'
      match rest.drop tail.length with
      | ':' :: after => some (String.ofList ((c :: tail).map Char.toLower), after)
      | _ => none
    else none

/-- Drops control characters and spaces at both ends, and tabs and line ends everywhere. -/
def clean (s : String) : List Char :=
  let isControl (c : Char) : Bool := c.toNat ≤ 0x20
  (((s.toList.dropWhile isControl).reverse.dropWhile isControl).reverse).filter fun c =>
    !(c = '\t' || c = '\n' || c = '\r')

/-- Reads a URL. -/
def parse (s : String) : Except Fault Url :=
  match scheme? (clean s) with
  | none => .error .noScheme
  | some (scheme, rest) =>
    match Kind.ofScheme scheme with
    | .web => readAuthority scheme (rest.dropWhile fun c => c = '/' || c = '\\')
    | .file => readFile rest
    | .opaqueName =>
      match rest with
      | '/' :: '/' :: rest => readAuthority scheme rest
      | _ => .ok ⟨scheme, none, none⟩

/-! ## The library -/

/-- Whether a text is the address of a proxy; the scheme may be left out. -/
def isProxy (proxy : String) : Bool :=
  let hasHost (url : Url) : Bool := url.host.any (!·.isEmpty)
  let withScheme := (parse ("http://" ++ proxy)).toOption.any hasHost
  match parse proxy with
  | .ok url => hasHost url || withScheme
  | .error .noScheme => withScheme
  | .error _ => false

/-- The library that the program is built with. -/
def library : Library where
  readUrl s := (parse s).mapError Fault.message
  proxyFault? proxy := if isProxy proxy then none else some "not the address of a proxy"
  bodyFault _ _ := "not what was asked for"

example : (library.readUrl " HTTPS://ŁÓDŹ.example:8443/x").toOption =
    some ⟨"https", some "xn--d-uga0v4h.example", some 8443⟩ := by decide +kernel

end BulkLoad.Api.WebUrl
