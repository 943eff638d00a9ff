/-!
# Network addresses

A host that ends in a number is an address of four bytes; a host between brackets is an address of eight
words. Both are read liberally and written in one way only.
-/

namespace PigChain.Address

def digitValue? (base : Nat) (c : Char) : Option Nat :=
  let n := c.toNat
  let d :=
    if c.isDigit then some (n - 48)
    else if 97 ≤ n ∧ n < 123 then some (n - 87)
    else if 65 ≤ n ∧ n < 91 then some (n - 55)
    else none
  d.filter (· < base)

def number? (base : Nat) (cs : List Char) : Option Nat :=
  cs.foldlM (fun n c => (digitValue? base c).map (n * base + ·)) 0

/-- Text cut at dots. -/
def splitDots : List Char → List (List Char)
  | [] => [[]]
  | c :: cs =>
    if c == '.' then [] :: splitDots cs
    else
      match splitDots cs with
      | part :: parts => (c :: part) :: parts
      | [] => [[c]]

/-! ### Four bytes -/

/-- A number in decimal, in octal after `0`, or in hexadecimal after `0x`. -/
def part? : List Char → Option Nat
  | [] => none
  | '0' :: 'x' :: cs | '0' :: 'X' :: cs => number? 16 cs
  | '0' :: c :: cs => number? 8 (c :: cs)
  | cs => number? 10 cs

/-- Whether a host has to be read as an address: its last part, before a final dot, is a number. -/
def endsInNumber (host : List Char) : Bool :=
  let last := match (splitDots host).reverse with
    | [] :: last :: _ => last
    | last :: _ => last
    | [] => []
  (!last.isEmpty && last.all Char.isDigit) || (part? last).isSome

/-- The last part counts for all bytes that are left. -/
def combine? : List Nat → Option Nat
  | [] => none
  | numbers =>
    let front := numbers.dropLast
    let last := numbers.getLastD 0
    if numbers.length > 4 || front.any (· > 255) || last ≥ Nat.pow 256 (4 - front.length) then none
    else some ((front.foldl (fun n x => n * 256 + x) 0) * Nat.pow 256 (4 - front.length) + last)

/-- An address of four bytes as one number. -/
def four? (host : List Char) : Option Nat := do
  let parts := splitDots host
  let parts := if parts.getLast? = some [] then parts.dropLast else parts
  combine? (← parts.mapM part?)

/-- The four bytes in decimal. -/
def fourText (n : Nat) : String :=
  ".".intercalate ([n / 0x1000000, n / 0x10000 % 256, n / 256 % 256, n % 256].map toString)

/-! ### Eight words -/

/-- A byte in decimal without leading zeros. -/
def byte? (cs : List Char) : Option Nat :=
  if cs.isEmpty || (cs.length > 1 && cs.head? == some '0') then none
  else (number? 10 cs).filter (· < 256)

/-- Two words written as four bytes. -/
def tail? (cs : List Char) : Option (List Nat) := do
  let [a, b, c, d] ← (splitDots cs).mapM byte? | none
  some [a * 256 + b, c * 256 + d]

/-- Reads words until the text ends. `gap` is where a double colon stood; it takes a place of its own. -/
def words? : (fuel : Nat) → List Char → (done : List Nat) → (gap : Option Nat) → Option (List Nat × Option Nat)
  | _, [], done, gap => some (done, gap)
  | 0, _, _, _ => none
  | fuel + 1, c :: cs, done, gap =>
    if done.length ≥ 8 then none
    else if c == ':' then
      if gap.isSome then none else words? fuel cs (done ++ [0]) (some (done.length + 1))
    else
      let digits := ((c :: cs).take 4).takeWhile fun c => (digitValue? 16 c).isSome
      let value := (number? 16 digits).getD 0
      match (c :: cs).drop digits.length with
      | [] => some (done ++ [value], gap)
      | ':' :: rest => if rest.isEmpty then none else words? fuel rest (done ++ [value]) gap
      | '.' :: _ =>
        if digits.isEmpty || done.length > 6 then none
        else (tail? (c :: cs)).map fun ws => (done ++ ws, gap)
      | _ => none

/-- Zeros in place of the gap make eight words. -/
def fill? (done : List Nat) : Option Nat → Option (List Nat)
  | some gap => some (done.take gap ++ List.replicate (8 - done.length) 0 ++ done.drop gap)
  | none => if done.length = 8 then some done else none

/-- An address of eight words. -/
def eight? (cs : List Char) : Option (List Nat) := do
  let (done, gap) ← match cs with
    | ':' :: ':' :: rest => words? rest.length rest [0] (some 1)
    | ':' :: _ | [] | [_] => none
    | cs => words? cs.length cs [] none
  fill? done gap

/-- How many zeros a list starts with. -/
def leadingZeros : List Nat → Nat
  | 0 :: ws => leadingZeros ws + 1
  | _ => 0

/-- Start and length of the first longest run of zeros; `i` counts the words before. -/
def longestZeros (i : Nat) : List Nat → Nat × Nat
  | [] => (i, 0)
  | w :: ws =>
    let here := leadingZeros (w :: ws)
    let (start, length) := longestZeros (i + 1) ws
    if here ≥ length then (i, here) else (start, length)

def hexText (n : Nat) : String := String.ofList (Nat.toDigits 16 n)

/-- The words in hexadecimal; the first longest run of two zeros or more is a double colon. -/
def eightText (words : List Nat) : String :=
  let (start, length) := longestZeros 0 words
  let colons (ws : List Nat) := ":".intercalate (ws.map hexText)
  if length < 2 then colons words
  else colons (words.take start) ++ "::" ++ colons (words.drop (start + length))

end PigChain.Address
