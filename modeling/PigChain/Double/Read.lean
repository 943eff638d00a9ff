import PigChain.Double.Basic

/-!
# Reading doubles

Two readers. `ofDecimal` rounds a decimal correctly; text of a value is read with it. `ofSignificand` is the
reader of JSON numbers: a significand of at most 64 bits is rounded first and then scaled by a rounded power
of ten, so the result can differ from the nearest double in its last place.
-/

namespace PigChain.Double

/-- The double nearest to `± n * 10 ^ e`. Exponents far outside the range are settled without forming the
power. -/
def ofDecimal (negative : Bool) (n : Nat) (e : Int) : Double :=
  let size := ((Nat.toDigits 10 n).length : Int) + e
  if n = 0 ∨ size < -330 then zero negative
  else if 310 < size then .infinite negative
  else if 0 ≤ e then ofRatio negative (n * Nat.pow 10 e.toNat) 1
  else ofRatio negative n (Nat.pow 10 (-e).toNat)

/-- `± significand * 10 ^ e` in two roundings, `none` when it overflows. Below `10 ^ -308` the scale is
applied in two divisions. -/
def ofSignificand (negative : Bool) (significand : Nat) (e : Int) : Option Double :=
  let f := ofRatio false significand 1
  let signed (x : Double) : Double := if negative then x.negate else x
  if 0 ≤ e then
    if 308 < e then if significand = 0 then some (signed f) else none
    else
      let x := f.mul (powTen e.toNat)
      if x.isFinite then some (signed x) else none
  else if -308 ≤ e then some (signed (f.div (powTen (-e).toNat)))
  else if -616 ≤ e then some (signed ((f.div (powTen 308)).div (powTen (-e - 308).toNat)))
  else some (zero negative)

/-- Value of a digit string. -/
def digitsValue (cs : List Char) : Nat := cs.foldl (fun n c => 10 * n + (c.toNat - '0'.toNat)) 0

/-- A sign in front of a number: minus, plus or nothing. -/
def splitSign : List Char → Bool × List Char
  | '-' :: cs => (true, cs)
  | '+' :: cs => (false, cs)
  | cs => (false, cs)

/-- The exponent part of a decimal: nothing, or `e` with an optional sign and at least one digit. -/
def readExponent? : List Char → Option Int
  | [] => some 0
  | c :: cs =>
    if c == 'e' || c == 'E' then
      let (negative, ds) := splitSign cs
      if ds.isEmpty || !ds.all Char.isDigit then none
      else
        let n : Int := digitsValue ds
        some (if negative then -n else n)
    else none

/-- Reads a number as text gives it: a sign, digits with or without a point, an exponent; or one of the words
for the infinities and not-a-number in any case. -/
def ofText? (s : String) : Option Double :=
  let (negative, cs) := splitSign s.toList
  let word := cs.map Char.toLower
  if word = "nan".toList then some .nan
  else if word = "inf".toList ∨ word = "infinity".toList then some (.infinite negative)
  else
    let whole := cs.takeWhile Char.isDigit
    let rest := cs.dropWhile Char.isDigit
    let (frac, rest) := match rest with
      | '.' :: r => (r.takeWhile Char.isDigit, r.dropWhile Char.isDigit)
      | r => ([], r)
    if whole.isEmpty && frac.isEmpty then none
    else (readExponent? rest).map fun e =>
      ofDecimal negative (digitsValue (whole ++ frac)) (e - frac.length)

end PigChain.Double
