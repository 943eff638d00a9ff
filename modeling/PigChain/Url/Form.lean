import PigChain.Text.Utf8

/-!
# Form encoding

Bytes that stand for themselves nowhere in a URL are written as `%` and two hexadecimal digits. The query of a
URL is a list of pairs; in their names and values a space is written `+`.
-/

namespace PigChain.Form

def hexDigit (n : Nat) : Char := Char.ofNat (if n < 10 then 48 + n else 55 + n)

def percent (b : UInt8) : List Char := ['%', hexDigit (b.toNat / 16), hexDigit (b.toNat % 16)]

def hexValue? (b : UInt8) : Option Nat :=
  let n := b.toNat
  if 48 ≤ n ∧ n < 58 then some (n - 48)
  else if 65 ≤ n ∧ n < 71 then some (n - 55)
  else if 97 ≤ n ∧ n < 103 then some (n - 87)
  else none

/-- Reads escapes; a `%` without two digits after it stands for itself. -/
def unescape : List UInt8 → List UInt8
  | [] => []
  | 0x25 :: a :: b :: rest =>
    match hexValue? a, hexValue? b with
    | some x, some y => UInt8.ofNat (x * 16 + y) :: unescape rest
    | _, _ => 0x25 :: unescape (a :: b :: rest)
  | b :: rest => b :: unescape rest

/-- Bytes that a name or value holds unchanged. -/
def isPlain (b : UInt8) : Bool :=
  let c := Char.ofNat b.toNat
  b < 128 && (c.isAlphanum || c == '*' || c == '-' || c == '.' || c == '_')

def encodeByte (b : UInt8) : List Char :=
  if isPlain b then [Char.ofNat b.toNat] else if b == 0x20 then ['+'] else percent b

/-- A name or value as it stands in a query. -/
def encode (s : String) : String := String.ofList ((Utf8.encode s.toList).flatMap encodeByte)

def decode (bytes : List UInt8) : String :=
  String.ofList (Utf8.decode (unescape (bytes.map fun b => if b == 0x2B then 0x20 else b)))

/-- A name and a value. -/
abbrev Pair := String × String

def encodePair (p : Pair) : String := encode p.1 ++ "=" ++ encode p.2

/-- The query of a list of pairs. -/
def write (pairs : List Pair) : String := "&".intercalate (pairs.map encodePair)

/-- The parts between separators. -/
def splitOn (separator : UInt8) : List UInt8 → List (List UInt8)
  | [] => [[]]
  | b :: bs =>
    if b == separator then [] :: splitOn separator bs
    else
      match splitOn separator bs with
      | part :: parts => (b :: part) :: parts
      | [] => [[b]]

/-- The name before the first `=` and the value after it. -/
def decodePair (bytes : List UInt8) : Pair :=
  (decode (bytes.takeWhile (· != 0x3D)), decode ((bytes.dropWhile (· != 0x3D)).drop 1))

/-- The pairs of a query. Empty parts are no pairs. -/
def read (query : String) : List Pair :=
  ((splitOn 0x26 (Utf8.encode query.toList)).filter fun part => !part.isEmpty).map decodePair

end PigChain.Form
