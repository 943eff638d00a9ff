import PigChain.Double.Basic

/-!
# Decimal text of doubles

The digits of a double are the fewest that read back as that double, and of those the nearest to it. They
are found on exact naturals: a double `m * 2 ^ e` owns the interval that reaches half way to its neighbours,
and a decimal grid is tried for every digit count until one of the value's two grid neighbours lies in the
interval. Two layouts share the digits: the one of JSON text and the one of script literals.
-/

namespace PigChain.Double

/-- The half-way points around a double, in units of `2 ^ (e - 2)`: the value, the ends, and whether the ends
read back as the value. -/
structure Interval where
  value : Nat
  low : Nat
  high : Nat
  closed : Bool

def interval (m : Nat) (e : Int) : Interval where
  value := 4 * m
  low := if m = Nat.pow 2 52 ∧ minExponent < e then 4 * m - 1 else 4 * m - 2
  high := 4 * m + 2
  closed := m % 2 = 0

/-- Whether `x / y` lies in the interval. -/
def Interval.holds (i : Interval) (x y : Nat) : Bool :=
  if i.closed then decide (i.low * y ≤ x ∧ x ≤ i.high * y)
  else decide (i.low * y < x ∧ x < i.high * y)

/-- Decimal digits with the position of the point: `0.d₁d₂… * 10 ^ point`. -/
structure Digits where
  digits : List Char
  point : Int

/-- The least `p` near the guess with `num / den < 10 ^ p`. -/
def pointOf (num den : Nat) : Int :=
  let below (p : Int) : Bool :=
    if 0 ≤ p then decide (num < den * Nat.pow 10 p.toNat) else decide (num * Nat.pow 10 (-p).toNat < den)
  let guess := ((bitLength num : Int) - bitLength den) * 30103 / 100000
  if below (guess - 1) then guess - 1
  else if below guess then guess
  else if below (guess + 1) then guess + 1
  else guess + 2

/-- Which of two equally near candidates is taken. -/
inductive Tie where
  | even
  | up

/-- The grid point with `n` digits that reads back, if the value's neighbours on that grid have one. -/
def onGrid (i : Interval) (unitNum unitDen : Nat) (tie : Tie) : Option Nat :=
  -- the value is `i.value * unitNum / unitDen` grid steps
  let q := i.value * unitNum / unitDen
  let r := i.value * unitNum % unitDen
  let low := i.holds (q * unitDen) unitNum
  let high := i.holds ((q + 1) * unitDen) unitNum
  if low && high then
    if 2 * r < unitDen then some q
    else if unitDen < 2 * r then some (q + 1)
    else match tie with
      | .even => some (if q % 2 = 0 then q else q + 1)
      | .up => some (q + 1)
  else if low then some q
  else if high then some (q + 1)
  else none

/-- Trying one digit more while the grid is too coarse. -/
def search (i : Interval) (e point : Int) (tie : Tie) : (more count : Nat) → Nat × Int
  | 0, count => (i.value, count)
  | more + 1, count =>
    -- one grid step is `10 ^ (point - count)`, and the interval is in units of `2 ^ (e - 2)`
    let shift := point - count
    let (a, b) := if 0 ≤ shift then (1, Nat.pow 10 shift.toNat) else (Nat.pow 10 (-shift).toNat, 1)
    let (a, b) := if 2 ≤ e then (a <<< (e - 2).toNat, b) else (a, b <<< (2 - e).toNat)
    match onGrid i a b tie with
    | some d => (d, shift)
    | none => search i e point tie more (count + 1)

/-- Digits of a natural number without the zeros at its end. -/
def significantDigits (n : Nat) : List Char :=
  ((Nat.toDigits 10 n).reverse.dropWhile (· == '0')).reverse

/-- The shortest digits of `m * 2 ^ e`, for `m` not zero. -/
def shortest (m : Nat) (e : Int) (tie : Tie) : Digits :=
  let (num, den) := ratio (.finite false m e)
  let (d, shift) := search (interval m e) e (pointOf num den) tie 20 1
  { digits := significantDigits d, point := (Nat.toDigits 10 d).length + shift }

/-- Positional notation; a whole number keeps `.0`. -/
def Digits.positional (d : Digits) : String :=
  let n := d.digits.length
  if d.point ≤ 0 then
    "0." ++ String.ofList (List.replicate (-d.point).toNat '0' ++ d.digits)
  else
    let p := d.point.toNat
    if p < n then String.ofList (d.digits.take p) ++ "." ++ String.ofList (d.digits.drop p)
    else String.ofList (d.digits ++ List.replicate (p - n) '0') ++ ".0"

/-- Scientific notation with one digit before the point; `plus` is written before an exponent that is not
negative. -/
def Digits.scientific (plus : String) (d : Digits) : String :=
  let mantissa := match d.digits with
    | [] => "0"
    | [c] => String.ofList [c]
    | c :: cs => String.ofList (c :: '.' :: cs)
  let e := d.point - 1
  mantissa ++ "e" ++ (if 0 ≤ e then plus else "") ++ toString e

/-- How a format lays the digits of a finite number out. -/
structure Layout where
  /-- The exponents of the first digit that are written positionally. -/
  least : Int
  greatest : Int
  plus : String
  tie : Tie

/-- JSON writes exponents from -5 to 15 positionally, and a sign in front of the others. -/
def Layout.json : Layout := ⟨-5, 15, "+", .even⟩

/-- Script literals are positional from `0.0001` up to, not including, `1e16`. -/
def Layout.literal : Layout := ⟨-4, 15, "", .up⟩

def Layout.write (l : Layout) (negative : Bool) (m : Nat) (e : Int) : String :=
  let sign := if negative then "-" else ""
  if m = 0 then sign ++ "0.0"
  else
    let d := shortest m e l.tie
    let x := d.point - 1
    sign ++ if l.least ≤ x ∧ x ≤ l.greatest then d.positional else d.scientific l.plus

/-- The text of a double in a script or a description. -/
def literal : Double → String
  | .finite s m e => Layout.literal.write s m e
  | .infinite s => if s then "-inf" else "inf"
  | .nan => "NaN"

end PigChain.Double
