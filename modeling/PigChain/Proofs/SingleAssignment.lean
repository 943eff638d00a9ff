import PigChain.Proofs.DistinctColumns
import PigChain.Proofs.Emission

/-!
# Scripts in single assignment form

Every statement of a script defines a relation of its own, under a name that no other has, and mentions only relations
that are defined before it.
-/

namespace PigChain

/-! ### Names of relations -/

namespace Alias

theorem toNat_letter (n : Nat) : (letter n).toNat = 65 + n % 26 := by
  have hdigit : ∀ d : Fin 26, (Char.ofNat (65 + d.val)).toNat = 65 + d.val := by decide
  exact hdigit ⟨n % 26, Nat.mod_lt n (by omega)⟩

theorem letter_eq_iff {m n : Nat} : letter m = letter n ↔ m % 26 = n % 26 := by
  constructor
  · intro h
    have hcode := congrArg Char.toNat h
    rw [toNat_letter, toNat_letter] at hcode
    omega
  · intro h
    rw [letter, letter, h]

theorem letters_of_lt {n : Nat} (h : n < 26) : letters n = [letter n] := by
  rw [letters, if_pos h]

theorem letters_of_le {n : Nat} (h : 26 ≤ n) : letters n = letters (n / 26 - 1) ++ [letter n] := by
  rw [letters, if_neg (by omega)]

theorem letters_ne_nil (n : Nat) : letters n ≠ [] := by
  by_cases h : n < 26
  · simp [letters_of_lt h]
  · simp [letters_of_le (by omega : 26 ≤ n)]

theorem letters_injective : Function.Injective letters := by
  intro m
  induction m using Nat.strongRecOn with
  | ind m ih =>
    intro n h
    by_cases hm : m < 26
    · by_cases hn : n < 26
      · rw [letters_of_lt hm, letters_of_lt hn, List.singleton_inj, letter_eq_iff] at h
        omega
      · rw [letters_of_lt hm, letters_of_le (by omega)] at h
        have hlength := congrArg List.length h
        have hpos := List.length_pos_iff.mpr (letters_ne_nil (n / 26 - 1))
        simp only [List.length_append, List.length_singleton] at hlength
        omega
    · by_cases hn : n < 26
      · rw [letters_of_le (by omega), letters_of_lt hn] at h
        have hlength := congrArg List.length h
        have hpos := List.length_pos_iff.mpr (letters_ne_nil (m / 26 - 1))
        simp only [List.length_append, List.length_singleton] at hlength
        omega
      · rw [letters_of_le (by omega), letters_of_le (by omega : 26 ≤ n)] at h
        obtain ⟨hfront, hlast⟩ := List.append_inj' h rfl
        rw [List.singleton_inj, letter_eq_iff] at hlast
        have hquotient := ih (m / 26 - 1) (by omega) hfront
        omega

theorem name_injective : Function.Injective name := by
  intro m n h
  have hletters := congrArg String.toList h
  simp only [name, String.toList_ofList] at hletters
  exact letters_injective hletters

end Alias

/-! ### Lines of a script -/

namespace Script

theorem getElem?_definitions (n k : Nat) (ss : List Statement) :
    (definitions n ss)[k]? = ss[k]?.map fun st => Alias.name (n + k) ++ " = " ++ st.render := by
  induction ss generalizing n k with
  | nil => simp [definitions]
  | cons st ss ih =>
    cases k with
    | zero => simp [definitions]
    | succ k =>
      have hindex : n + 1 + k = n + (k + 1) := by omega
      simp only [definitions, List.getElem?_cons_succ, ih, hindex]

theorem length_definitions (n : Nat) (ss : List Statement) : (definitions n ss).length = ss.length := by
  induction ss generalizing n with
  | nil => rfl
  | cons st ss ih => simp [definitions, ih]

theorem line_of_statement {script : Script} {n : Nat} {st : Statement} (h : script.statements[n]? = some st)
    (terminal : Terminal) : (script.lines terminal)[n]? = some (Alias.name n ++ " = " ++ st.render) := by
  obtain ⟨hlt, -⟩ := List.getElem?_eq_some_iff.mp h
  have hlength : n < (definitions 0 script.statements).length := by
    rw [length_definitions]
    exact hlt
  rw [lines, List.getElem?_append_left hlength, getElem?_definitions, h, Nat.zero_add]
  rfl

theorem line_of_terminal (script : Script) (terminal : Terminal) :
    (script.lines terminal)[script.statements.length]? = some (terminal.render script.result) := by
  rw [lines, ← length_definitions 0 script.statements, List.getElem?_concat_length]

end Script

/-- The script of a stage is in single assignment form. Its `n`-th line, before the last, defines the `n`-th name, and
all names differ; every relation that a statement mentions (its input, a bag, a scalar) is defined by a statement before
it; each stage, also inside a scalar, starts from its own `LOAD` or from the relation left by the stage it reads, and
runs its clauses in their order, each over the relation of the one before; and the last line names the relation that
the outermost stage leaves. -/
theorem scripts_assign_once {s : Stage} {script : Script} (h : s.script = .ok script) (options : RenderOptions) :
    (∀ (n : Nat) st, script.statements[n]? = some st →
        (script.lines options.terminal)[n]? = some (Alias.name n ++ " = " ++ st.render)) ∧
      Function.Injective Alias.name ∧
      (∀ (n : Nat) st, script.statements[n]? = some st → ∀ r ∈ st.relations, r < n) ∧
      s.Leaves script.statements script.result ∧
      (script.lines options.terminal)[script.statements.length]? = some (options.terminal.render script.result) ∧
      (script.lines options.terminal).length = script.statements.length + 1 := by
  have hnames : ∀ x ∈ s.exprs, x.NamesIn fun _ => True := by
    intro x _ y _
    exact ⟨fun _ _ _ _ => trivial, fun _ _ _ _ _ _ => trivial⟩
  obtain ⟨hfit, hleaves⟩ := script_laid_out trivial hnames (fun _ _ _ _ => trivial) h
  refine ⟨fun n st hn => Script.line_of_statement hn options.terminal, Alias.name_injective,
    fun n st hn => (hfit n st hn).relations, hleaves, script.line_of_terminal options.terminal, ?_⟩
  rw [Script.lines, List.length_append, Script.length_definitions, List.length_singleton]

/-- The statements of the count come between those of the stage that reads it, which goes on from its own source. -/
theorem scripts_assign_once_countedPeople : ∃ b script, countedPeople.bound.outcome = .ok b ∧
    b.stage.script = .ok script ∧
      (∀ (n : Nat) st, script.statements[n]? = some st →
        (script.lines .dump)[n]? = some (Alias.name n ++ " = " ++ st.render)) ∧
      Function.Injective Alias.name ∧
      (∀ (n : Nat) st, script.statements[n]? = some st → ∀ r ∈ st.relations, r < n) ∧
      b.stage.Leaves script.statements script.result ∧
      (script.lines .dump)[script.statements.length]? = some (Terminal.dump.render script.result) ∧
      (script.lines .dump).length = script.statements.length + 1 := by
  have hok : (countedPeople.bound.outcome >>= fun b => b.stage.script).isOk = true := by decide +kernel
  obtain ⟨script, hscript⟩ := except_isOk hok
  obtain ⟨b, hb, hscript⟩ := except_do_eq_ok.mp hscript
  exact ⟨b, script, hb, hscript, scripts_assign_once hscript {}⟩

end PigChain
