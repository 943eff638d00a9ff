import Mathlib.Algebra.Order.Field.Power
import Mathlib.Algebra.Order.Field.Rat
import Mathlib.Data.List.Induction
import Mathlib.Data.Nat.Digits.Defs
import PigChain.Proofs.Coercion

/-!
# Coercion to integers

A raw value becomes an integer exactly if it is one. A number is read as its exact value: an integer of 64 bits, with a
sign or without, stands for itself, and a finite double is a dyadic fraction. A text is read as an optional sign and
decimal digits, with blanks around them. In either case nothing is rounded and nothing is brought into the range: of the
unsigned integers beyond the range the nearest double is beyond the range as well.
-/

namespace PigChain

theorem inInt64_iff {n : ℤ} : inInt64 n = true ↔ -2 ^ 63 ≤ n ∧ n < 2 ^ 63 := by
  simp only [inInt64, Bool.and_eq_true, decide_eq_true_eq]
  omega

/-! ### Exact values -/

/-- The exact value of a number: of an integer of 64 bits, signed or unsigned, or of a finite double. -/
def Json.exactValue? : Json → Option ℚ
  | .int n => if -2 ^ 63 ≤ n ∧ n < 2 ^ 64 then some n else none
  | .float (.finite negative m e) => some ((if negative then -1 else 1) * (m * 2 ^ e))
  | _ => none

theorem whole_quotient_iff {a b : ℕ} (hb : 0 < b) {k : ℤ} :
    a % b = 0 ∧ ((a / b : ℕ) : ℤ) = k ↔ (k : ℚ) = a / b := by
  have hne : (b : ℚ) ≠ 0 := by exact_mod_cast hb.ne'
  rw [eq_div_iff hne]
  constructor
  · intro h
    obtain ⟨hmod, hk⟩ := h
    have hexact : a / b * b = a := Nat.div_mul_cancel (Nat.dvd_of_mod_eq_zero hmod)
    rw [← hk]
    exact_mod_cast hexact
  · intro h
    have hproduct : k * b = a := by exact_mod_cast h
    have hdvd : b ∣ a := Int.natCast_dvd_natCast.mp ⟨k, by rw [← hproduct, mul_comm]⟩
    have hquotient : (a : ℤ) / b = k := by
      rw [← hproduct, Int.mul_ediv_cancel k (by omega)]
    exact ⟨Nat.mod_eq_zero_of_dvd hdvd, by rw [Int.natCast_div, hquotient]⟩

namespace Double

theorem ratio_finite (negative : Bool) (m : ℕ) (e : ℤ) : 0 < (ratio (.finite negative m e)).2 ∧
    (m * 2 ^ e : ℚ) = (ratio (.finite negative m e)).1 / (ratio (.finite negative m e)).2 := by
  by_cases he : 0 ≤ e
  · obtain ⟨n, rfl⟩ := Int.eq_ofNat_of_zero_le he
    simp [ratio, Nat.shiftLeft_eq]
  · obtain ⟨n, hn⟩ := Int.eq_ofNat_of_zero_le (by omega : 0 ≤ -e)
    obtain rfl : e = -n := by omega
    rw [ratio, if_neg he]
    simp [Nat.shiftLeft_eq, div_eq_mul_inv]

/-- A double is an integer exactly if its value is. -/
theorem toInt?_finite {negative : Bool} {m : ℕ} {e k : ℤ} :
    toInt? (.finite negative m e) = some k ↔ (k : ℚ) = (if negative then -1 else 1) * (m * 2 ^ e) := by
  obtain ⟨hpos, hvalue⟩ := ratio_finite negative m e
  generalize hratio : ratio (.finite negative m e) = r at hpos hvalue
  have hdef : toInt? (.finite negative m e) =
      if r.1 % r.2 = 0 then some (if negative then -((r.1 / r.2 : ℕ) : ℤ) else ((r.1 / r.2 : ℕ) : ℤ)) else none := by
    rw [← hratio]
    rfl
  rw [hdef, hvalue, Option.ite_none_right_eq_some, Option.some.injEq]
  cases negative with
  | false =>
    rw [if_neg Bool.false_ne_true, if_neg Bool.false_ne_true, one_mul]
    exact whole_quotient_iff hpos
  | true =>
    have hsign : (k : ℚ) = -1 * (r.1 / r.2) ↔ ((-k : ℤ) : ℚ) = r.1 / r.2 := by
      rw [neg_one_mul, Int.cast_neg, neg_eq_iff_eq_neg]
    rw [if_pos rfl, if_pos rfl, hsign, ← whole_quotient_iff hpos, neg_eq_iff_eq_neg]

theorem le_divHalfEven (num den : ℕ) : num / den ≤ divHalfEven num den := by
  unfold divHalfEven
  simp only
  split
  · omega
  · split
    · omega
    · split <;> omega

theorem exponentFor_of_high_bit {n : ℕ} (hlow : 2 ^ 63 ≤ n) (hhigh : n < 2 ^ 64) : exponentFor n 1 = 11 := by
  have hlog : Nat.log2 n = 63 := by
    have hle : 63 ≤ Nat.log2 n := (Nat.le_log2 (by omega)).mpr hlow
    have hlt : Nat.log2 n < 64 := (Nat.log2_lt (by omega)).mpr hhigh
    omega
  have hbits : bitLength n = 64 := by
    rw [bitLength, if_neg (by omega), hlog]
  have hone : bitLength 1 = 1 := by decide
  have hguess : max minExponent ((64 : ℕ) - (1 : ℕ) - 53) = 10 := by decide
  have hshort : ¬n / 1024 < Nat.pow 2 53 := by
    have hpow : Nat.pow 2 53 = 9007199254740992 := rfl
    omega
  unfold exponentFor
  rw [hbits, hone, hguess]
  exact if_neg hshort

/-- An unsigned integer with the highest of 64 bits is rounded to a number with a bit as high. -/
theorem ofInt_of_high_bit {n : ℕ} (hlow : 2 ^ 63 ≤ n) (hhigh : n < 2 ^ 64) :
    ∃ m e : ℕ, ofInt n = .finite false m e ∧ 2 ^ 63 ≤ m * 2 ^ e := by
  have hdef : ofInt n = ofRatio false n 1 := by
    rw [ofInt, Int.natAbs_natCast]
    congr
  have hscaled : scaled n 1 11 = (n, 2048) := rfl
  have hpow : Nat.pow 2 53 = 9007199254740992 := rfl
  have hfloor := le_divHalfEven n 2048
  rw [hdef, ofRatio, if_neg (by omega), exponentFor_of_high_bit hlow hhigh]
  simp only [hscaled]
  -- Rounding up can carry into a 54th bit, which moves to the exponent.
  by_cases hcarry : divHalfEven n 2048 = Nat.pow 2 53
  · rw [if_pos hcarry]
    exact ⟨Nat.pow 2 52, 12, rfl, by decide⟩
  · rw [if_neg hcarry]
    exact ⟨divHalfEven n 2048, 11, rfl, by omega⟩

end Double

theorem wholeInt64?_eq_some {negative : Bool} {m : ℕ} {e k : ℤ} : wholeInt64? (.finite negative m e) = some k ↔
    (k : ℚ) = (if negative then -1 else 1) * (m * 2 ^ e) ∧ -2 ^ 63 ≤ k ∧ k < 2 ^ 63 := by
  rw [wholeInt64?, Option.filter_eq_some_iff, Double.toInt?_finite, inInt64_iff]

theorem wholeInt64?_of_unsigned {n : ℤ} (hlow : 2 ^ 63 ≤ n) (hhigh : n < 2 ^ 64) : wholeInt64? (.ofInt n) = none := by
  obtain ⟨n, rfl⟩ := Int.eq_ofNat_of_zero_le (by omega : 0 ≤ n)
  obtain ⟨m, e, hround, hlarge⟩ := Double.ofInt_of_high_bit (by exact_mod_cast hlow) (by exact_mod_cast hhigh)
  apply Option.eq_none_iff_forall_ne_some.mpr
  intro k hk
  rw [hround, wholeInt64?_eq_some, if_neg Bool.false_ne_true, one_mul, zpow_natCast] at hk
  obtain ⟨hvalue, -, hlt⟩ := hk
  have hk : k = m * 2 ^ e := by exact_mod_cast hvalue
  have hle : (2 ^ 63 : ℤ) ≤ m * 2 ^ e := by exact_mod_cast hlarge
  omega

theorem coerce_int64_eq_ok {target : String} {raw v : Json} (hraw : raw ≠ .null) :
    coerce target .int64 raw = .ok v ↔ coercePrimitive? .int64 raw = some v := by
  constructor
  · intro h
    cases coerced_of_coerce h with
    | null => exact absurd rfl hraw
    | primitive hvalue => exact hvalue
  · intro h
    exact coerce_of_primitive h target

/-- A number becomes an integer exactly if its value is an integer in the range, and then it becomes that integer. -/
theorem coercePrimitive?_number {raw v : Json} {q : ℚ} (h : raw.exactValue? = some q) :
    coercePrimitive? .int64 raw = some v ↔ ∃ k : ℤ, q = k ∧ -2 ^ 63 ≤ k ∧ k < 2 ^ 63 ∧ v = .int k := by
  cases raw with
  | int n =>
    rw [Json.exactValue?, Option.ite_none_right_eq_some, Option.some.injEq] at h
    obtain ⟨⟨hlow, hhigh⟩, rfl⟩ := h
    rw [coercePrimitive?]
    by_cases hn : inInt64 n = true
    · have hrange := inInt64_iff.mp hn
      rw [if_pos hn, Option.some.injEq]
      constructor
      · intro hv
        exact ⟨n, rfl, hrange.1, hrange.2, hv.symm⟩
      · intro hk
        obtain ⟨k, hvalue, -, -, hv⟩ := hk
        have hnk : n = k := by exact_mod_cast hvalue
        rw [hv, hnk]
    · have hbeyond : 2 ^ 63 ≤ n := by
        rw [inInt64_iff] at hn
        omega
      rw [if_neg hn, wholeInt64?_of_unsigned hbeyond hhigh]
      constructor
      · intro hv
        cases hv
      · intro hk
        obtain ⟨k, hvalue, -, hlt, -⟩ := hk
        have hnk : n = k := by exact_mod_cast hvalue
        omega
  | float x =>
    cases x with
    | finite negative m e =>
      rw [Json.exactValue?, Option.some.injEq] at h
      rw [coercePrimitive?, Option.map_eq_some_iff]
      constructor
      · intro hv
        obtain ⟨k, hk, rfl⟩ := hv
        obtain ⟨hvalue, hrange⟩ := wholeInt64?_eq_some.mp hk
        exact ⟨k, h.symm.trans hvalue.symm, hrange.1, hrange.2, rfl⟩
      · intro hk
        obtain ⟨k, hvalue, hlow, hhigh, rfl⟩ := hk
        exact ⟨k, wholeInt64?_eq_some.mpr ⟨hvalue.symm.trans h.symm, hlow, hhigh⟩, rfl⟩
    | infinite negative => cases h
    | nan => cases h
  | _ => cases h

/-! ### Decimal texts -/

/-- The number that decimal digits stand for, the last of them being the ones. -/
def decimalValue (digits : List Char) : ℕ := Nat.ofDigits 10 (digits.reverse.map fun c => c.toNat - '0'.toNat)

/-- The text is an optional sign and at least one decimal digit, and stands for `k`. -/
inductive DecimalText : List Char → ℤ → Prop where
  | unsigned {digits : List Char} (hne : digits ≠ []) (hdigits : ∀ c ∈ digits, c.isDigit = true) :
    DecimalText digits (decimalValue digits)
  | plus {digits : List Char} (hne : digits ≠ []) (hdigits : ∀ c ∈ digits, c.isDigit = true) :
    DecimalText ('+' :: digits) (decimalValue digits)
  | minus {digits : List Char} (hne : digits ≠ []) (hdigits : ∀ c ∈ digits, c.isDigit = true) :
    DecimalText ('-' :: digits) (-decimalValue digits)

theorem digitsValue_eq (digits : List Char) : Double.digitsValue digits = decimalValue digits := by
  induction digits using List.reverseRecOn with
  | nil => rfl
  | append_singleton digits c ih =>
    have hlast : Double.digitsValue (digits ++ [c]) = 10 * Double.digitsValue digits + (c.toNat - '0'.toNat) := by
      rw [Double.digitsValue, List.foldl_append]
      rfl
    rw [hlast, ih, decimalValue, decimalValue, List.reverse_concat, List.map_cons, Nat.ofDigits_cons]
    omega

theorem splitSign_cases (cs : List Char) : (∃ digits, cs = '-' :: digits ∧ Double.splitSign cs = (true, digits)) ∨
    (∃ digits, cs = '+' :: digits ∧ Double.splitSign cs = (false, digits)) ∨ Double.splitSign cs = (false, cs) := by
  unfold Double.splitSign
  split
  · exact .inl ⟨_, rfl, rfl⟩
  · exact .inr (.inl ⟨_, rfl, rfl⟩)
  · exact .inr (.inr rfl)

theorem splitSign_of_digits {digits : List Char} (h : ∀ c ∈ digits, c.isDigit = true) :
    Double.splitSign digits = (false, digits) := by
  rcases splitSign_cases digits with ⟨rest, rfl, -⟩ | ⟨rest, rfl, -⟩ | hsign
  · exact absurd (h '-' List.mem_cons_self) (by decide)
  · exact absurd (h '+' List.mem_cons_self) (by decide)
  · exact hsign

/-- What is asked of the text after the sign. -/
theorem int64OfText?_of_splitSign {cs digits : List Char} {negative : Bool} {k : ℤ}
    (h : Double.splitSign cs = (negative, digits)) : int64OfText? cs = some k ↔
      (digits ≠ [] ∧ ∀ c ∈ digits, c.isDigit = true) ∧
        (if negative then -(decimalValue digits : ℤ) else decimalValue digits) = k ∧ -2 ^ 63 ≤ k ∧ k < 2 ^ 63 := by
  have hguard : (digits.isEmpty || !digits.all Char.isDigit) = false ↔
      digits ≠ [] ∧ ∀ c ∈ digits, c.isDigit = true := by
    simp
  simp only [int64OfText?, h, digitsValue_eq, ← hguard, ← inInt64_iff]
  cases digits.isEmpty || !digits.all Char.isDigit with
  | true => simp
  | false => simp [Option.filter_eq_some_iff]

theorem int64OfText?_eq_some {cs : List Char} {k : ℤ} :
    int64OfText? cs = some k ↔ DecimalText cs k ∧ -2 ^ 63 ≤ k ∧ k < 2 ^ 63 := by
  constructor
  · intro h
    rcases splitSign_cases cs with ⟨digits, rfl, hsign⟩ | ⟨digits, rfl, hsign⟩ | hsign
    · obtain ⟨⟨hne, hdigits⟩, rfl, hrange⟩ := (int64OfText?_of_splitSign hsign).mp h
      exact ⟨.minus hne hdigits, hrange⟩
    · obtain ⟨⟨hne, hdigits⟩, rfl, hrange⟩ := (int64OfText?_of_splitSign hsign).mp h
      exact ⟨.plus hne hdigits, hrange⟩
    · obtain ⟨⟨hne, hdigits⟩, rfl, hrange⟩ := (int64OfText?_of_splitSign hsign).mp h
      exact ⟨.unsigned hne hdigits, hrange⟩
  · intro h
    obtain ⟨htext, hrange⟩ := h
    cases htext with
    | unsigned hne hdigits =>
      exact (int64OfText?_of_splitSign (splitSign_of_digits hdigits)).mpr ⟨⟨hne, hdigits⟩, rfl, hrange⟩
    | plus hne hdigits => exact (int64OfText?_of_splitSign rfl).mpr ⟨⟨hne, hdigits⟩, rfl, hrange⟩
    | minus hne hdigits => exact (int64OfText?_of_splitSign rfl).mpr ⟨⟨hne, hdigits⟩, rfl, hrange⟩

/-- A number becomes an integer exactly if its value is an integer of the range, and a text exactly if it spells one
between blanks. Either becomes that integer and no other. -/
theorem integer_coercion_is_exact (target : String) (v : Json) :
    (∀ raw q, Json.exactValue? raw = some q →
      (coerce target .int64 raw = .ok v ↔ ∃ k : ℤ, q = k ∧ -2 ^ 63 ≤ k ∧ k < 2 ^ 63 ∧ v = .int k)) ∧
    ∀ text, coerce target .int64 (.string text) = .ok v ↔
      ∃ k : ℤ, DecimalText (Text.trim text).toList k ∧ -2 ^ 63 ≤ k ∧ k < 2 ^ 63 ∧ v = .int k := by
  constructor
  · intro raw q h
    have hraw : raw ≠ .null := by
      intro hnull
      rw [hnull] at h
      cases h
    rw [coerce_int64_eq_ok hraw, coercePrimitive?_number h]
  · intro text
    rw [coerce_int64_eq_ok (by simp), coercePrimitive?, Option.map_eq_some_iff, Text.trim, String.toList_ofList]
    simp only [int64OfText?_eq_some, and_assoc, @eq_comm _ _ v]

/-- At the edges of the range: the least integer is one as a double and as a text, and the first beyond the range is none
as an unsigned integer. -/
theorem integer_coercion_is_exact_edges :
    Json.exactValue? (.float (.finite true (2 ^ 52) 11)) = some (-2 ^ 63) ∧
      coerce "Count" .int64 (.float (.finite true (2 ^ 52) 11)) = .ok (.int (-2 ^ 63)) ∧
    Json.exactValue? (.int (2 ^ 63)) = some (2 ^ 63) ∧
      (∀ v, coerce "Count" .int64 (.int (2 ^ 63)) ≠ .ok v) ∧
    coerce "Count" .int64 (.string " -0009223372036854775808\t") = .ok (.int (-2 ^ 63)) := by
  have hleast : Json.exactValue? (.float (.finite true (2 ^ 52) 11)) = some (-2 ^ 63) := by
    rw [Json.exactValue?]
    norm_num
  have hbeyond : Json.exactValue? (.int (2 ^ 63)) = some (2 ^ 63) := by
    rw [Json.exactValue?]
    norm_num
  refine ⟨hleast, ?_, hbeyond, ?_, ?_⟩
  · exact ((integer_coercion_is_exact "Count" _).1 _ _ hleast).mpr ⟨-2 ^ 63, by norm_num, by norm_num, by norm_num, rfl⟩
  · intro v hv
    obtain ⟨k, hvalue, -, hlt, -⟩ := ((integer_coercion_is_exact "Count" v).1 _ _ hbeyond).mp hv
    have hk : k = 2 ^ 63 := by exact_mod_cast hvalue.symm
    omega
  · refine ((integer_coercion_is_exact "Count" _).2 _).mpr ⟨-2 ^ 63, ?_, by norm_num, by norm_num, rfl⟩
    have htrim : (Text.trim " -0009223372036854775808\t").toList = '-' :: "0009223372036854775808".toList := by decide
    have hvalue : decimalValue "0009223372036854775808".toList = 2 ^ 63 := by decide
    have hdigits : "0009223372036854775808".toList.all Char.isDigit = true := by decide
    have htext := DecimalText.minus (by decide) (List.all_eq_true.mp hdigits)
    rw [hvalue] at htext
    rw [htrim]
    exact htext

end PigChain
