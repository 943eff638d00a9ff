/-!
# Tables of characters

Large tables are written as lines of words, and words with hexadecimal code points. A word `a-b` is a range, `a` a range of one
character. What stands after a colon belongs to the range before it.
-/

namespace PigChain.Text.Table

def hexDigitValue (c : Char) : Nat := if c.isDigit then c.toNat - 48 else c.toNat - 87

/-- The number that hexadecimal digits write, the letters in lower case. -/
def hexValue (cs : List Char) : Nat := cs.foldl (fun n c => 16 * n + hexDigitValue c) 0

/-- Puts a character before the first of some parts, or starts a new part if it separates them. -/
def addTo (separator c : Char) (words : List (List Char)) : List (List Char) :=
  if c = separator then [] :: words
  else
    match words with
    | word :: rest => (c :: word) :: rest
    | [] => [[c]]

/-- The parts of a text between separators. -/
def parts (separator : Char) (text : List Char) : List (List Char) := text.foldr (addTo separator) [[]]

/-- A range of code points, both ends in it. -/
structure Range where
  first : Nat
  last : Nat

def Range.contains (r : Range) (n : Nat) : Bool := r.first ≤ n && n ≤ r.last

def Range.ofWord (word : List Char) : Range :=
  match parts '-' word with
  | [a, b] => ⟨hexValue a, hexValue b⟩
  | _ => ⟨hexValue word, hexValue word⟩

/-- The words of some lines. -/
def words (lines : List String) : List (List Char) := lines.flatMap fun line => parts ' ' line.toList

/-- The ranges that some lines list. -/
def ranges (lines : List String) : List Range := (words lines).map Range.ofWord

/-- Whether a character is in one of the ranges. -/
def within (rs : List Range) (c : Char) : Bool := rs.any fun r => r.contains c.toNat

/-- The words of some lines, cut at their colons. -/
def entries (lines : List String) : List (List Char × List Char) :=
  (words lines).map fun word =>
    match parts ':' word with
    | [key, value] => (key, value)
    | _ => (word, [])

end PigChain.Text.Table
