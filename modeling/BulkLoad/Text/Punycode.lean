import BulkLoad.Decimal.Digits

/-!
# Punycode

A label of a domain name in letters, digits and hyphens only. The ASCII characters come first; the
others follow as numbers that tell, in rising order of their code points, where each is inserted.
The numbers are written in a base-36 notation whose thresholds adapt to their size.
-/

namespace BulkLoad.Text.Punycode

/-- How far the thresholds are moved after a number was written. -/
def adapt (delta points : Nat) (first : Bool) : Nat :=
  let delta := if first then delta / 700 else delta / 2
  let rec reduce : (fuel : Nat) → Nat → Nat → Nat
    | 0, delta, k => k + 36 * delta / (delta + 38)
    | fuel + 1, delta, k =>
      if 455 < delta then reduce fuel (delta / 35) (k + 36) else k + 36 * delta / (delta + 38)
  reduce 64 (delta + delta / points) 0

/-- The digit of a number below 36. -/
def digit (n : Nat) : Char :=
  if n < 26 then Char.ofNat ('a'.toNat + n) else Char.ofNat ('0'.toNat + (n - 26))

/-- The value of a digit. -/
def digitValue? (c : Char) : Option Nat :=
  if 'a' ≤ c && c ≤ 'z' then some (c.toNat - 'a'.toNat)
  else if 'A' ≤ c && c ≤ 'Z' then some (c.toNat - 'A'.toNat)
  else if Decimal.isDigit c then some (c.toNat - '0'.toNat + 26)
  else none

/-- The threshold of the digit at position `k / 36`. -/
def threshold (k bias : Nat) : Nat :=
  if k ≤ bias then 1 else if bias + 26 ≤ k then 26 else k - bias

/-- Writes one number. -/
def writeNumber : (fuel : Nat) → (q k bias : Nat) → List Char
  | 0, _, _, _ => []
  | fuel + 1, q, k, bias =>
    let t := threshold k bias
    if q < t then [digit q]
    else digit (t + (q - t) % (36 - t)) :: writeNumber fuel ((q - t) / (36 - t)) (k + 36) bias

/-- Writing a label: the code points up to `n` are written, `written` of them. -/
structure Progress where
  n : Nat
  delta : Nat
  bias : Nat
  written : Nat
  output : List Char

/-- Goes once through the label and writes the code point `p.n` wherever it stands. -/
def writeRound (ascii : Nat) : List Nat → Progress → Progress
  | [], p => p
  | c :: rest, p =>
    if c < p.n then writeRound ascii rest { p with delta := p.delta + 1 }
    else if c = p.n then
      writeRound ascii rest
        { p with
          delta := 0
          bias := adapt p.delta (p.written + 1) (p.written = ascii)
          written := p.written + 1
          output := p.output ++ writeNumber 64 p.delta 36 p.bias }
    else writeRound ascii rest p

/-- Writes the code points in rising order. -/
def writeRounds (ascii : Nat) (label : List Nat) : (fuel : Nat) → Progress → List Char
  | 0, p => p.output
  | fuel + 1, p =>
    match (label.filter (p.n ≤ ·)).min? with
    | none => p.output
    | some m =>
      let p := writeRound ascii label
        { p with n := m, delta := p.delta + (m - p.n) * (p.written + 1) }
      writeRounds ascii label fuel { p with n := p.n + 1, delta := p.delta + 1 }

/-- The label in ASCII, without the mark `xn--`. -/
def encode (label : List Char) : List Char :=
  let ascii := label.filter fun c => c.toNat < 0x80
  let head := if ascii.isEmpty then [] else ascii ++ ['-']
  head ++ writeRounds ascii.length (label.map Char.toNat) label.length
    ⟨0x80, 0, 72, ascii.length, []⟩

/-- Reads one number after `i`. -/
def readNumber : (k w bias i : Nat) → List Char → Option (Nat × List Char)
  | _, _, _, _, [] => none
  | k, w, bias, i, c :: rest => do
    let d ← digitValue? c
    let i := i + d * w
    let t := threshold k bias
    if d < t then some (i, rest) else readNumber (k + 36) (w * (36 - t)) bias i rest

/-- Reads the numbers and inserts their characters. -/
def readInsertions : (fuel : Nat) → (n i bias : Nat) → (label : List Char) → List Char →
    Option (List Char)
  | 0, _, _, _, label, _ => some label
  | _, _, _, _, label, [] => some label
  | fuel + 1, n, i, bias, label, cs => do
    let (next, rest) ← readNumber 36 1 bias i cs
    let points := label.length + 1
    let n := n + next / points
    if 0x10FFFF < n then none
    else
      readInsertions fuel n (next % points + 1) (adapt (next - i) points (i = 0))
        (label.insertIdx (next % points) (Char.ofNat n)) rest

/-- The label that was written without the mark `xn--`. -/
def decode (cs : List Char) : Option (List Char) :=
  let tail := (cs.reverse.takeWhile (· ≠ '-')).reverse
  let head := cs.take (cs.length - tail.length - 1)
  readInsertions cs.length 0x80 0 72 head tail

example : String.ofList (encode "bücher".toList) = "bcher-kva" := by decide +kernel
example : (decode "bcher-kva".toList).map String.ofList = some "bücher" := by decide +kernel

end BulkLoad.Text.Punycode
