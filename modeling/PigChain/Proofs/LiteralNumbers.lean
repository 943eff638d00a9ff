import PigChain.Value
import Mathlib.Tactic.Ring

/-!
# Numbers as literals

Literals are compared as numbers. A canonical double is the only way to write its number, with one exception: there
are two zeros, and they are the same number. A set of canonical literals without both of them is told apart by the
comparison.
-/

namespace PigChain

/-- The one way to write a number with 53 bits: all of them are used, or the exponent is the least. -/
def Double.isCanonical : Double → Bool
  | .finite _ m e => minExponent ≤ e && m < 2 ^ 53 && (e = minExponent || 2 ^ 52 ≤ m)
  | _ => true

/-- The magnitude as a multiple of the least positive double. -/
theorem Double.ratio_scaled {negative : Bool} {m : Nat} {e : Int} (he : minExponent ≤ e) :
    (ratio (.finite negative m e)).1 * 2 ^ (-minExponent).toNat =
      m * 2 ^ (e - minExponent).toNat * (ratio (.finite negative m e)).2 := by
  simp only [ratio]
  by_cases h : 0 ≤ e
  · rw [if_pos h]
    have hexp : (e - minExponent).toNat = e.toNat + (-minExponent).toNat := by
      unfold minExponent
      omega
    rw [Nat.shiftLeft_eq, hexp, Nat.mul_one, Nat.mul_assoc, Nat.pow_add]
  · rw [if_neg h]
    have hexp : (e - minExponent).toNat + (-e).toNat = (-minExponent).toNat := by
      unfold minExponent at he ⊢
      omega
    rw [Nat.shiftLeft_eq, Nat.one_mul, Nat.mul_assoc, ← Nat.pow_add, hexp]

theorem Double.ratio_pos (x : Double) : 0 < x.ratio.2 := by
  unfold ratio
  split
  · split
    · exact Nat.one_pos
    · rw [Nat.shiftLeft_eq, Nat.one_mul]
      exact Nat.two_pow_pos _
  · exact Nat.one_pos

theorem eq_of_scaled_eq {m m' k k' : Nat} (hm : m < 2 ^ 53) (hk' : k' = 0 ∨ 2 ^ 52 ≤ m')
    (h : m * 2 ^ k = m' * 2 ^ k') : k' ≤ k := by
  by_contra hlt
  have hlarge : 2 ^ 52 ≤ m' := by
    rcases hk' with h0 | h0
    · omega
    · exact h0
  have hpow : 2 ^ 53 * 2 ^ k ≤ m' * 2 ^ k' := by
    calc 2 ^ 53 * 2 ^ k = 2 ^ 52 * 2 ^ (k + 1) := by rw [Nat.pow_succ 2 k, Nat.pow_succ 2 52]; ring
      _ ≤ m' * 2 ^ k' := Nat.mul_le_mul hlarge (Nat.pow_le_pow_right (by decide) (by omega))
  rw [← h] at hpow
  exact absurd (Nat.le_of_mul_le_mul_right hpow (Nat.two_pow_pos k)) (by omega)

/-- Canonical doubles that are the same number are equal, or they are the two zeros. -/
theorem Double.eq_of_sameNumber {x y : Double} (hx : x.isCanonical = true) (hy : y.isCanonical = true)
    (h : x.sameNumber y = true) : x = y ∨ ∃ negative, x = zero negative ∧ y = zero !negative := by
  cases x with
  | nan => cases h
  | infinite s =>
    cases y with
    | infinite s' => exact .inl (congrArg _ (beq_iff_eq.mp h))
    | _ => cases h
  | finite s m e =>
    cases y with
    | nan => cases h
    | infinite s' => cases h
    | finite s' m' e' =>
      simp only [isCanonical, Bool.and_eq_true, Bool.or_eq_true, decide_eq_true_eq] at hx hy
      obtain ⟨⟨he, hm⟩, hc⟩ := hx
      obtain ⟨⟨he', hm'⟩, hc'⟩ := hy
      simp only [sameNumber, Bool.and_eq_true, Bool.or_eq_true, beq_iff_eq] at h
      obtain ⟨hratio, hsign⟩ := h
      -- Both magnitudes are multiples of the least double, by significand and exponent above the least one.
      have hscaled : m * 2 ^ (e - minExponent).toNat = m' * 2 ^ (e' - minExponent).toNat := by
        have hb := ratio_pos (.finite s m e)
        have hd := ratio_pos (.finite s' m' e')
        refine Nat.eq_of_mul_eq_mul_right (Nat.mul_pos hb hd) ?_
        calc m * 2 ^ (e - minExponent).toNat * ((ratio (.finite s m e)).2 * (ratio (.finite s' m' e')).2)
            = (ratio (.finite s m e)).1 * (ratio (.finite s' m' e')).2 * 2 ^ (-minExponent).toNat := by
              rw [← Nat.mul_assoc, ← ratio_scaled he]; ring
          _ = (ratio (.finite s' m' e')).1 * 2 ^ (-minExponent).toNat * (ratio (.finite s m e)).2 := by rw [hratio]; ring
          _ = _ := by rw [ratio_scaled he']; ring
      have hk : (e - minExponent).toNat = 0 ∨ 2 ^ 52 ≤ m := hc.imp (fun h => by omega) id
      have hk' : (e' - minExponent).toNat = 0 ∨ 2 ^ 52 ≤ m' := hc'.imp (fun h => by omega) id
      have hexp : e = e' := by
        have h₁ := eq_of_scaled_eq hm hk' hscaled
        have h₂ := eq_of_scaled_eq hm' hk hscaled.symm
        omega
      subst hexp
      have hsig : m = m' := Nat.eq_of_mul_eq_mul_right (Nat.two_pow_pos _) hscaled
      subst hsig
      rcases hsign with hzero | hsign
      · have hm0 : m = 0 := by
          have hscale := @ratio_scaled s m e he
          rw [hzero, Nat.zero_mul] at hscale
          have hpos := Nat.mul_pos (Nat.two_pow_pos (e - minExponent).toNat) (ratio_pos (.finite s m e))
          rw [Nat.mul_assoc] at hscale
          exact (Nat.mul_eq_zero.mp hscale.symm).resolve_right (by omega)
        have hemin : e = minExponent := hc.resolve_right (by rw [hm0]; decide)
        subst hm0 hemin
        cases s <;> cases s' <;> simp [zero]
      · exact .inl (by rw [hsign])

/-- Literals that are the same number only if they are the same literal. -/
def Separated (L : Value → Prop) : Prop := ∀ v w, L v → L w → v.same w = true → v = w

/-- Literals of which each number is written in one way only: canonical, and with no more than one of the zeros. -/
theorem separated_of_oneZero {L : Value → Prop} (hL : ∀ x, L (.float x) → x.isCanonical = true)
    (hzero : ¬(L (.float (.zero false)) ∧ L (.float (.zero true)))) : Separated L := by
  intro v w hv hw h
  cases v with
  | float x =>
    cases w with
    | float y =>
      rcases Double.eq_of_sameNumber (hL x hv) (hL y hw) h with rfl | ⟨negative, rfl, rfl⟩
      · rfl
      · cases negative with
        | false => exact absurd ⟨hv, hw⟩ hzero
        | true => exact absurd ⟨hw, hv⟩ hzero
    | _ => simp [Value.same] at h
  | _ => simpa [Value.same] using h

end PigChain
