import PigChain.Json.Basic
import PigChain.Double.Read

/-!
# Reading JSON text

`parse?` reads one value and nothing but blanks around it. Arrays and objects may nest 127 deep. Integers of
64 bits are kept exact; every other number becomes a double, and one that is out of range makes the text
unreadable.
-/

namespace PigChain.Json

abbrev Reader (α : Type) := List Char → Option (α × List Char)

def isBlank (c : Char) : Bool := c == ' ' || c == '\n' || c == '\t' || c == '\x0d'

def skipBlanks (cs : List Char) : List Char := cs.dropWhile isBlank

/-- The text after a given word. -/
def dropWord : List Char → List Char → Option (List Char)
  | [], cs => some cs
  | _ :: _, [] => none
  | w :: ws, c :: cs => if w = c then dropWord ws cs else none

/-! ### Strings -/

def hexValue (c : Char) : Option Nat :=
  if c.isDigit then some (c.toNat - '0'.toNat)
  else if 'a' ≤ c ∧ c ≤ 'f' then some (c.toNat - 'a'.toNat + 10)
  else if 'A' ≤ c ∧ c ≤ 'F' then some (c.toNat - 'A'.toNat + 10)
  else none

/-- Four hexadecimal digits. -/
def hexUnit : Reader Nat
  | a :: b :: c :: d :: rest => do
    let a ← hexValue a
    let b ← hexValue b
    let c ← hexValue c
    let d ← hexValue d
    some (((a * 16 + b) * 16 + c) * 16 + d, rest)
  | _ => none

/-- The character of one or two code units after `\u`; a surrogate must stand in a pair. -/
def unicodeEscape : Reader Char := fun cs => do
  let (u, rest) ← hexUnit cs
  if 0xD800 ≤ u ∧ u < 0xDC00 then
    let rest ← dropWord ['\\', 'u'] rest
    let (v, rest) ← hexUnit rest
    if 0xDC00 ≤ v ∧ v < 0xE000 then
      some (Char.ofNat (0x10000 + (u - 0xD800) * 0x400 + (v - 0xDC00)), rest)
    else none
  else if 0xDC00 ≤ u ∧ u < 0xE000 then none
  else some (Char.ofNat u, rest)

/-- The character an escape stands for, after its backslash. -/
def escaped : Reader Char
  | '"' :: rest => some ('"', rest)
  | '\\' :: rest => some ('\\', rest)
  | '/' :: rest => some ('/', rest)
  | 'b' :: rest => some ('\x08', rest)
  | 'f' :: rest => some ('\x0c', rest)
  | 'n' :: rest => some ('\n', rest)
  | 'r' :: rest => some ('\x0d', rest)
  | 't' :: rest => some ('\t', rest)
  | 'u' :: rest => unicodeEscape rest
  | _ => none

/-- The rest of a string after its opening quote; `fuel` is the length of the text. -/
def stringTail : (fuel : Nat) → Reader (List Char)
  | 0, _ => none
  | _ + 1, [] => none
  | fuel + 1, c :: cs =>
    if c = '"' then some ([], cs)
    else if c = '\\' then do
      let (x, rest) ← escaped cs
      let (xs, rest) ← stringTail fuel rest
      some (x :: xs, rest)
    else if c.toNat < 32 then none
    else do
      let (xs, rest) ← stringTail fuel cs
      some (c :: xs, rest)

/-- A string after its opening quote. -/
def string? : Reader String := fun cs =>
  (stringTail (cs.length + 1) cs).map fun (xs, rest) => (String.ofList xs, rest)

/-! ### Numbers -/

/-- The digits that fit a significand of 64 bits, and how many are left over. -/
def significand : (n : Nat) → List Char → Nat × Nat
  | n, [] => (n, 0)
  | n, c :: cs =>
    let n' := 10 * n + (c.toNat - '0'.toNat)
    if n' < UInt64.size then significand n' cs else (n, cs.length + 1)

/-- An exponent after its mark. -/
def exponent? (cs : List Char) : Option (Int × List Char) :=
  let (negative, cs) := Double.splitSign cs
  let digits := cs.takeWhile Char.isDigit
  if digits.isEmpty then none
  else
    let n : Int := Double.digitsValue digits
    some (if negative then -n else n, cs.dropWhile Char.isDigit)

/-- A number without a fraction or an exponent, from its first digits and the count of those beyond them. It
is an integer as long as 64 bits hold it. -/
def integer (negative : Bool) (n extra : Nat) (rest : List Char) : Option (Json × List Char) :=
  if 0 < extra then (Double.ofSignificand negative n extra).map fun x => (.float x, rest)
  else if !negative then some (.int n, rest)
  else if n = 0 ∨ 9223372036854775808 < n then some (.float (Double.ofRatio true n 1), rest)
  else some (.int (-n), rest)

/-- A number after its sign. Digits past the 64th bit of the significand only scale it in the whole part and
are dropped in the fraction. -/
def number? (negative : Bool) (cs : List Char) : Option (Json × List Char) :=
  let whole := cs.takeWhile Char.isDigit
  let rest := cs.dropWhile Char.isDigit
  let (n, extra) := significand 0 whole
  if whole.isEmpty then none
  else if whole.head? = some '0' ∧ 1 < whole.length then none
  else
    match rest with
    | '.' :: rest =>
      let frac := rest.takeWhile Char.isDigit
      let rest := rest.dropWhile Char.isDigit
      if frac.isEmpty then none
      else
        let (m, dropped) := significand n frac
        let scale := (extra : Int) - (frac.length - dropped : Nat)
        match rest with
        | c :: rest' =>
          if c = 'e' ∨ c = 'E' then do
            let (e, rest) ← exponent? rest'
            let x ← Double.ofSignificand negative m (scale + e)
            some (.float x, rest)
          else (Double.ofSignificand negative m scale).map fun x => (.float x, rest)
        | [] => (Double.ofSignificand negative m scale).map fun x => (.float x, rest)
    | c :: rest' =>
      if c = 'e' ∨ c = 'E' then do
        let (e, rest) ← exponent? rest'
        let x ← Double.ofSignificand negative n ((extra : Int) + e)
        some (.float x, rest)
      else integer negative n extra rest
    | [] => integer negative n extra rest

/-! ### Values -/

/-- Items of a kind after an opening bracket, up to the closing one; `fuel` is the length of the text. -/
def sequence (item : Reader α) (close : Char) : (fuel : Nat) → Reader (List α)
  | 0, _ => none
  | fuel + 1, cs => do
    let (x, rest) ← item cs
    match skipBlanks rest with
    | c :: rest =>
      if c = close then some ([x], rest)
      else if c = ',' then do
        let (xs, rest) ← sequence item close fuel rest
        some (x :: xs, rest)
      else none
    | [] => none

/-- The items between brackets, possibly none, after the opening one. -/
def bracketed (item : Reader α) (close : Char) : Reader (List α) := fun cs =>
  match skipBlanks cs with
  | c :: rest => if c = close then some ([], rest) else sequence item close (cs.length + 1) cs
  | [] => none

/-- A field of an object: a quoted key, a colon and a value. -/
def pair (value : Reader Json) : Reader (String × Json) := fun cs =>
  match skipBlanks cs with
  | '"' :: rest => do
    let (key, rest) ← string? rest
    match skipBlanks rest with
    | ':' :: rest => do
      let (v, rest) ← value rest
      some ((key, v), rest)
    | _ => none
  | _ => none

/-- A value in which arrays and objects nest at most `depth` deep. -/
def value? : (depth : Nat) → Reader Json
  | depth, cs =>
    match skipBlanks cs with
    | [] => none
    | 'n' :: rest => (dropWord "ull".toList rest).map fun rest => (.null, rest)
    | 't' :: rest => (dropWord "rue".toList rest).map fun rest => (.bool true, rest)
    | 'f' :: rest => (dropWord "alse".toList rest).map fun rest => (.bool false, rest)
    | '"' :: rest => (string? rest).map fun (s, rest) => (.string s, rest)
    | '[' :: rest =>
      match depth with
      | 0 => none
      | depth + 1 => (bracketed (value? depth) ']' rest).map fun (xs, rest) => (.array xs, rest)
    | '\x7b' :: rest =>
      match depth with
      | 0 => none
      | depth + 1 => (bracketed (pair (value? depth)) '\x7d' rest).map fun (xs, rest) => (.object xs, rest)
    | '-' :: rest => number? true rest
    | c :: rest => number? false (c :: rest)

/-- How deep arrays and objects may nest in a text. -/
def maxDepth : Nat := 127

/-- The value a text holds. -/
def parse? (text : String) : Option Json := do
  let (j, rest) ← value? maxDepth text.toList
  if (skipBlanks rest).isEmpty then some j else none

end PigChain.Json
