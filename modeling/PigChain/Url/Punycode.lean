/-!
# Punycode

A label with letters beyond ASCII is written in ASCII: its ASCII letters first, then the places and numbers of
the other letters, in rising order, as differences with variable length in base 36. How many digits are
expected for a difference adapts to the ones before.
-/

namespace PigChain.Punycode

def digit (d : Nat) : Char := Char.ofNat (if d < 26 then 97 + d else 22 + d)

def digitValue? (c : Char) : Option Nat :=
  let n := c.toNat
  if 97 ≤ n ∧ n < 123 then some (n - 97)
  else if 65 ≤ n ∧ n < 91 then some (n - 65)
  else if c.isDigit then some (n - 22)
  else none

/-- What a digit at place `k` may be worth without ending the number. -/
def threshold (bias k : Nat) : Nat := min 26 (max 1 (k - bias))

theorem threshold_pos (bias k : Nat) : 0 < threshold bias k := by
  unfold threshold
  omega

theorem threshold_le (bias k : Nat) : threshold bias k ≤ 26 := by
  unfold threshold
  omega

/-- Scales a difference down; `k` counts the digits. -/
def scale (delta k : Nat) : Nat :=
  if h : 455 < delta then scale (delta / 35) (k + 36) else k + 36 * delta / (delta + 38)
termination_by delta

/-- The bias after a difference, with `count` letters placed. -/
def adapt (delta count : Nat) (first : Bool) : Nat :=
  let delta := if first then delta / 700 else delta / 2
  scale (delta + delta / count) 0

/-! ### Writing -/

/-- A difference as digits. -/
def encodeDelta (bias k q : Nat) : List Char :=
  let t := threshold bias k
  if q < t then [digit q] else digit (t + (q - t) % (36 - t)) :: encodeDelta bias (k + 36) ((q - t) / (36 - t))
termination_by q
decreasing_by
  have := threshold_pos bias k
  have := threshold_le bias k
  exact Nat.lt_of_le_of_lt (Nat.div_le_self _ _) (by omega)

/-- The places of the letters of number `m`, of which each is put in after the letters of lower numbers: how
many letters of a number up to `m` stand before it. -/
def placesOf (m : Nat) : (before : Nat) → List Char → List Nat
  | _, [] => []
  | before, c :: cs =>
    if c.toNat = m then before :: placesOf m (before + 1) cs
    else placesOf m (if c.toNat < m then before + 1 else before) cs

/-- The letters beyond ASCII with their places, in the order in which they are put in. -/
def insertions (label : List Char) : List (Nat × Nat) :=
  let numbers := ((label.map Char.toNat).filter (128 ≤ ·)).mergeSort.eraseDups
  numbers.flatMap fun m => (placesOf m 0 label).map fun place => (m, place)

/-- Digits that put letters in their places; the last letter put in had number `n` and stood before place `i`,
and `count` letters are there. -/
def encodeInsertions : (n i bias count : Nat) → List (Nat × Nat) → List Char
  | _, _, _, _, [] => []
  | n, i, bias, count, (m, place) :: rest =>
    let delta := (m - n) * (count + 1) + place - i
    encodeDelta bias 36 delta ++ encodeInsertions m (place + 1) (adapt delta (count + 1) (i == 0)) (count + 1) rest

def encode (label : List Char) : List Char :=
  let basic := label.filter fun c => c.toNat < 128
  (if basic.isEmpty then [] else basic ++ ['-']) ++ encodeInsertions 128 0 72 basic.length (insertions label)

/-! ### Reading -/

/-- No digit weighs more. -/
def heaviest : Nat := 4294967295

/-- A difference and the digits after it. -/
def decodeDelta? (bias : Nat) : (k weight total : Nat) → List Char → Option (Nat × List Char)
  | _, _, _, [] => none
  | k, weight, total, c :: cs => do
    let d ← digitValue? c
    let total := total + d * weight
    let t := threshold bias k
    if d < t then some (total, cs)
    else if heaviest < weight * (36 - t) then none
    else decodeDelta? bias (k + 36) (weight * (36 - t)) total cs

/-- Puts letters in their places until the digits end. -/
def insertAll? : (fuel : Nat) → (n i bias : Nat) → List Char → List Char → Option (List Char)
  | _, _, _, _, done, [] => some done
  | 0, _, _, _, _, _ => none
  | fuel + 1, n, i, bias, done, cs => do
    let (delta, rest) ← decodeDelta? bias 36 1 0 cs
    let length := done.length + 1
    let i' := i + delta
    let n := n + i' / length
    let place := i' % length
    if n.isValidChar then
      insertAll? fuel n (place + 1) (adapt delta length (i == 0))
        (done.take place ++ [Char.ofNat n] ++ done.drop place) rest
    else none

def decode? (text : List Char) : Option (List Char) :=
  let tail := (text.reverse.takeWhile (· != '-')).reverse
  let basic := (text.take (text.length - tail.length)).dropLast
  insertAll? tail.length 128 0 72 basic tail

end PigChain.Punycode
