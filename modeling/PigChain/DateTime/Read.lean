import PigChain.DateTime.Basic
import PigChain.Double.Read
import PigChain.Text.Blank

/-!
# Reading date-times

Two grammars. The loose one takes numbers of up to their usual width with blanks in front of them; it is the
form that values are stored in. The strict one has fixed widths and a time zone, and gives the date-time in
universal time.
-/

namespace PigChain.DateTime

abbrev Reader (α : Type) := List Char → Option (α × List Char)

/-- Between `least` and `most` digits, as many as there are. -/
def number (least most : Nat) : Reader Int := fun cs =>
  let digits := (cs.take most).takeWhile Char.isDigit
  if digits.length < least then none
  else some (Double.digitsValue digits, cs.drop digits.length)

/-- A given character. -/
def mark (c : Char) : List Char → Option (List Char)
  | d :: rest => if d = c then some rest else none
  | [] => none

/-- A number after any blanks. -/
def looseNumber (most : Nat) : Reader Int := fun cs => number 1 most (Text.trimStart cs)

/-- Four digits of a year, or any number of them after a sign. -/
def looseYear : Reader Int := fun cs =>
  match Text.trimStart cs with
  | '-' :: rest => (number 1 rest.length rest).map fun (n, rest) => (-n, rest)
  | '+' :: rest => number 1 rest.length rest
  | cs => number 1 4 cs

/-- The digits after the point of the seconds, nine of them counted; zero if there is no point. -/
def fraction : Reader Int
  | '.' :: rest =>
    (number 1 9 rest).map fun (n, after) =>
      let count := ((rest.take 9).takeWhile Char.isDigit).length
      (n * Nat.pow 10 (9 - count), after.dropWhile Char.isDigit)
  | cs => some (0, cs)

/-- How date and time are divided, and where blanks may stand. -/
structure Form where
  divider : List Char → Option (List Char)
  /-- Blanks before the marks and at the end. -/
  blanks : Bool

def Form.skip (f : Form) (cs : List Char) : List Char := if f.blanks then Text.trimStart cs else cs

/-- Reads a date-time of a loose form. -/
def Form.read? (f : Form) (cs : List Char) : Option DateTime := do
  let (year, cs) ← looseYear cs
  let cs ← mark '-' (f.skip cs)
  let (month, cs) ← looseNumber 2 cs
  let cs ← mark '-' (f.skip cs)
  let (day, cs) ← looseNumber 2 cs
  let cs ← f.divider (f.skip cs)
  let (hour, cs) ← looseNumber 2 cs
  let cs ← mark ':' (f.skip cs)
  let (minute, cs) ← looseNumber 2 cs
  let cs ← mark ':' (f.skip cs)
  let (second, cs) ← looseNumber 2 cs
  let (nano, cs) ← fraction cs
  if (f.skip cs).isEmpty then ofFields? year month day hour minute second nano else none

/-- The stored form: the letter T, blanks anywhere between the parts. -/
def Form.stored : Form := ⟨mark 'T', true⟩

/-- The letter T and no blanks before marks. -/
def Form.lettered : Form := ⟨mark 'T', false⟩

/-- Blanks between date and time. -/
def Form.spaced : Form := ⟨fun cs => some (Text.trimStart cs), false⟩

/-- An offset from universal time in seconds: the letter Z, or a sign with hours and minutes. -/
def offset? : Reader Int
  | [] => none
  | c :: cs =>
    if c = 'Z' ∨ c = 'z' then some (0, cs)
    else if c = '+' ∨ c = '-' ∨ c = '\u2212' then do
      let (hours, cs) ← number 2 2 cs
      let cs ← mark ':' cs
      let (minutes, cs) ← number 2 2 cs
      if 23 < hours ∨ 59 < minutes then none
      else
        let seconds := hours * 3600 + minutes * 60
        some (if c = '+' then seconds else -seconds, cs)
    else none

/-- Reads a date-time with fixed widths and a time zone, as universal time. -/
def ofZonedText? (cs : List Char) : Option DateTime := do
  let (year, cs) ← number 4 4 cs
  let cs ← mark '-' cs
  let (month, cs) ← number 2 2 cs
  let cs ← mark '-' cs
  let (day, cs) ← number 2 2 cs
  let cs ← match cs with
    | c :: rest => if c = 'T' ∨ c = 't' ∨ c = ' ' then some rest else none
    | [] => none
  let (hour, cs) ← number 2 2 cs
  let cs ← mark ':' cs
  let (minute, cs) ← number 2 2 cs
  let cs ← mark ':' cs
  let (second, cs) ← number 2 2 cs
  let (nano, cs) ← fraction cs
  let (offset, cs) ← offset? cs
  if cs.isEmpty then
    (ofFields? year month day hour minute second nano).map fun t => t.minusSeconds offset
  else none

/-- Reads the stored form of a date-time. -/
def ofText? (s : String) : Option DateTime := Form.stored.read? s.toList

/-- Reads a date-time as data gives it: with a time zone, with the letter T, or with a blank between. -/
def ofData? (s : String) : Option DateTime :=
  let cs := Text.trimChars s.toList
  ofZonedText? cs <|> Form.lettered.read? cs <|> Form.spaced.read? cs

end PigChain.DateTime
