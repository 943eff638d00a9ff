import Mathlib.Data.List.Shortlex
import Mathlib.Data.String.Basic
import PigChain.Proofs.ReservedNames

/-!
# The order of names

The names of relations run through the words of capital letters, each once: the shorter words first, and the words of
one length as in a dictionary. The digits go from 1 to 26 and none is zero, so one is taken from the quotient before the
next letter is written.
-/

namespace PigChain

namespace Alias

/-! ### Writing a name -/

/-- What is left of a number when its last letter is written. -/
def carry (n : Nat) : Nat := n / 26 - 1

/-- A name is written from its last letter on, until what is left is a single letter. -/
theorem exists_carry_lt (n : Nat) :
    ∃ steps, carry^[steps] n < 26 ∧ (∀ k < steps, 26 ≤ carry^[k] n) ∧ (letters n).length = steps + 1 := by
  induction n using Nat.strongRecOn with
  | ind n ih =>
    by_cases hn : n < 26
    · refine ⟨0, hn, fun k hk => absurd hk (Nat.not_lt_zero k), ?_⟩
      rw [letters_of_lt hn, List.length_singleton]
    · have hsmaller : carry n < n := by
        unfold carry
        omega
      obtain ⟨steps, hlast, hbefore, hlength⟩ := ih (carry n) hsmaller
      refine ⟨steps + 1, hlast, ?_, ?_⟩
      · intro k hk
        cases k with
        | zero => exact Nat.le_of_not_lt hn
        | succ k => exact hbefore k (by omega)
      · rw [letters_of_le (by omega), List.length_append, List.length_singleton]
        exact congrArg (· + 1) hlength

/-! ### Words by length, then as in a dictionary -/

theorem letter_lt {m n : Nat} (h : m % 26 < n % 26) : letter m < letter n := by
  have hcode : (letter m).toNat < (letter n).toNat := by
    rw [toNat_letter, toNat_letter]
    omega
  exact hcode

theorem lex_append_of_length_eq {u v : List Char} (h : List.Lex (· < ·) u v) (hlength : u.length = v.length)
    (s t : List Char) : List.Lex (· < ·) (u ++ s) (v ++ t) := by
  induction h with
  | nil => cases hlength
  | rel hab => exact .rel hab
  | cons _ ih => exact .cons (ih (Nat.succ.inj hlength))

/-- The letters written last do not matter for words that differ before them. -/
theorem shortlex_concat {u v : List Char} (h : List.Shortlex (· < ·) u v) (a b : Char) :
    List.Shortlex (· < ·) (u ++ [a]) (v ++ [b]) := by
  rcases List.shortlex_def.mp h with hshorter | ⟨hlength, hlex⟩
  · apply List.Shortlex.of_length_lt
    simp only [List.length_append, List.length_singleton]
    omega
  · apply List.Shortlex.of_lex
    · simp only [List.length_append, List.length_singleton, hlength]
    · exact lex_append_of_length_eq hlex hlength [a] [b]

theorem shortlex_letters_of_lt {i j : Nat} (h : i < j) : List.Shortlex (· < ·) (letters i) (letters j) := by
  induction j using Nat.strongRecOn generalizing i with
  | ind j ih =>
    by_cases hj : j < 26
    · rw [letters_of_lt hj, letters_of_lt (by omega), List.shortlex_singleton_iff]
      exact letter_lt (by omega)
    · rw [letters_of_le (by omega : 26 ≤ j)]
      by_cases hi : i < 26
      · apply List.Shortlex.of_length_lt
        have hpos := List.length_pos_iff.mpr (letters_ne_nil (j / 26 - 1))
        simp only [letters_of_lt hi, List.length_append, List.length_singleton]
        omega
      · rw [letters_of_le (by omega)]
        -- The quotients are in order as well; where they are equal the last letters decide.
        by_cases hquotient : i / 26 = j / 26
        · rw [hquotient]
          apply List.Shortlex.append_left
          rw [List.shortlex_singleton_iff]
          exact letter_lt (by omega)
        · exact shortlex_concat (ih (j / 26 - 1) (by omega) (by omega)) _ _

theorem shortlex_letters_iff (i j : Nat) : List.Shortlex (· < ·) (letters i) (letters j) ↔ i < j := by
  constructor
  · intro h
    by_contra hle
    rcases Nat.lt_or_eq_of_le (Nat.le_of_not_lt hle) with hlt | heq
    · exact asymm h (shortlex_letters_of_lt hlt)
    · rw [heq] at h
      exact asymm h h
  · exact shortlex_letters_of_lt

theorem name_eq_iff (n : Nat) (word : String) : name n = word ↔ letters n = word.toList := by
  rw [← String.toList_inj, name, String.toList_ofList]

theorem range_name : Set.range name = {word | word ≠ "" ∧ ∀ c ∈ word.toList, IsCapital c} := by
  ext word
  simp only [Set.mem_range, Set.mem_ofPred_eq, name_eq_iff, ← String.toList_eq_nil_iff.not]
  constructor
  · rintro ⟨n, hn⟩
    rw [← hn]
    exact ⟨letters_ne_nil n, fun c hc => isCapital_of_mem_letters hc⟩
  · rintro ⟨hne, hcapitals⟩
    exact ⟨number word.toList, letters_number hne hcapitals⟩

end Alias

/-- The names of relations are the words of capital letters, each once. Writing a name ends: the carries fall below 26
after one step less than it has letters. Different numbers have different names, every word of capital letters that is
not empty is a name and nothing else is, and the earlier of two names is the shorter, or as long and the first in the
dictionary. -/
theorem names_enumerate_words :
    (∀ n, ∃ steps, Alias.carry^[steps] n < 26 ∧ (∀ k < steps, 26 ≤ Alias.carry^[k] n) ∧
        (Alias.name n).length = steps + 1) ∧
      Function.Injective Alias.name ∧
      Set.range Alias.name = {word | word ≠ "" ∧ ∀ c ∈ word.toList, Alias.IsCapital c} ∧
      ∀ i j, i < j ↔ (Alias.name i).length < (Alias.name j).length ∨
        (Alias.name i).length = (Alias.name j).length ∧ Alias.name i < Alias.name j := by
  have hlength : ∀ n, (Alias.name n).length = (Alias.letters n).length := fun n => String.length_ofList
  refine ⟨?_, Alias.name_injective, Alias.range_name, ?_⟩
  · intro n
    rw [hlength]
    exact Alias.exists_carry_lt n
  · intro i j
    have horder : Alias.name i < Alias.name j ↔ List.Lex (· < ·) (Alias.letters i) (Alias.letters j) := by
      rw [String.lt_iff_toList_lt, Alias.name, Alias.name, String.toList_ofList, String.toList_ofList]
      exact List.lt_iff_lex_lt _ _
    rw [hlength, hlength, horder, ← List.shortlex_def, Alias.shortlex_letters_iff]

end PigChain
