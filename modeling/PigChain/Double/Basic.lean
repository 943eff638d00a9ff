/-!
# Double-precision numbers

A number is kept as its exact value: a sign, a natural significand and a power of two. Rounding takes an
exact quotient to the nearest number of 53 significant bits, ties to the even significand, with gradual
underflow at `2 ^ -1074` and overflow to infinity past `2 ^ 1024`. No machine arithmetic is involved, so
every operation can be unfolded.
-/

namespace PigChain

/-- A double: the exact value `± significand * 2 ^ exponent`, an infinity, or not a number. -/
inductive Double where
  | finite (negative : Bool) (significand : Nat) (exponent : Int)
  | infinite (negative : Bool)
  | nan
  deriving DecidableEq, Repr, Inhabited

namespace Double

/-- The least exponent of a double; subnormal numbers and zero have it. -/
def minExponent : Int := -1074

/-- The largest exponent of a finite double. -/
def maxExponent : Int := 971

def zero (negative : Bool) : Double := .finite negative 0 minExponent

/-- Number of binary digits of `n`, none for zero. -/
def bitLength (n : Nat) : Nat := if n = 0 then 0 else Nat.log2 n + 1

/-- `num / den` rounded to the nearest integer, a half going to the even neighbour. -/
def divHalfEven (num den : Nat) : Nat :=
  let q := num / den
  let r := num % den
  if 2 * r < den then q
  else if den < 2 * r then q + 1
  else if q % 2 = 0 then q else q + 1

/-- `num / (den * 2 ^ e)` as a numerator and a denominator. -/
def scaled (num den : Nat) (e : Int) : Nat × Nat :=
  if 0 ≤ e then (num, den <<< e.toNat) else (num <<< (-e).toNat, den)

/-- The exponent at which `num / den` has 53 integer bits, or the least exponent if that is larger. -/
def exponentFor (num den : Nat) : Int :=
  let e := max minExponent ((bitLength num : Int) - bitLength den - 53)
  let (n, d) := scaled num den e
  if n / d < Nat.pow 2 53 then e else e + 1

/-- The double nearest to `± num / den`. -/
def ofRatio (negative : Bool) (num den : Nat) : Double :=
  if num = 0 then zero negative
  else
    let e := exponentFor num den
    let (n, d) := scaled num den e
    let m := divHalfEven n d
    let (m, e) := if m = Nat.pow 2 53 then (Nat.pow 2 52, e + 1) else (m, e)
    if maxExponent < e then .infinite negative else .finite negative m e

def ofInt (n : Int) : Double := ofRatio (decide (n < 0)) n.natAbs 1

/-- The double nearest to `10 ^ n`. -/
def powTen (n : Nat) : Double := ofRatio false (Nat.pow 10 n) 1

def isFinite : Double → Bool
  | .finite .. => true
  | _ => false

def isZero : Double → Bool
  | .finite _ m _ => m == 0
  | _ => false

def isNegative : Double → Bool
  | .finite s _ _ => s
  | .infinite s => s
  | .nan => false

def negate : Double → Double
  | .finite s m e => .finite (!s) m e
  | .infinite s => .infinite (!s)
  | .nan => .nan

/-- The magnitude of a finite double as a quotient; zero over one for the others. -/
def ratio : Double → Nat × Nat
  | .finite _ m e => if 0 ≤ e then (m <<< e.toNat, 1) else (m, 1 <<< (-e).toNat)
  | _ => (0, 1)

/-- Numeric equality: the two zeros are equal, and not-a-number differs from everything. -/
def sameNumber : Double → Double → Bool
  | .finite s m e, .finite s' m' e' =>
    let (a, b) := ratio (.finite s m e)
    let (c, d) := ratio (.finite s' m' e')
    a * d == c * b && (a == 0 || s == s')
  | .infinite s, .infinite s' => s == s'
  | _, _ => false

/-- Product of finite doubles, correctly rounded. -/
def mul (x y : Double) : Double :=
  let (a, b) := x.ratio
  let (c, d) := y.ratio
  ofRatio (x.isNegative != y.isNegative) (a * c) (b * d)

/-- Quotient of finite doubles, the divisor not zero, correctly rounded. -/
def div (x y : Double) : Double :=
  let (a, b) := x.ratio
  let (c, d) := y.ratio
  ofRatio (x.isNegative != y.isNegative) (a * d) (b * c)

/-- The integer a double is, if it is one. -/
def toInt? : Double → Option Int
  | .finite s m e =>
    let (a, b) := ratio (.finite s m e)
    if a % b = 0 then some (if s then -((a / b : Nat) : Int) else ((a / b : Nat) : Int)) else none
  | _ => none

end Double

end PigChain
