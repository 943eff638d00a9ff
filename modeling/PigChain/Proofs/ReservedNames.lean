import Mathlib.Data.List.Induction
import PigChain.Proofs.SingleAssignment
import PigChain.Proofs.StatementCounts

/-!
# Names of relations and keywords

The names of relations run through all words of capital letters, the shorter first, so those that are words of the
language come up as well. The first is `AS`, the name of the 45th relation: a script defines no keyword exactly if its
graph takes at most 44 statements.
-/

namespace PigChain

namespace Alias

/-! ### Words and numbers -/

/-- A capital letter. -/
def IsCapital (c : Char) : Prop := 65 ≤ c.toNat ∧ c.toNat ≤ 90

instance (c : Char) : Decidable (IsCapital c) := inferInstanceAs (Decidable (_ ∧ _))

/-- A word of capital letters as a number in base 26 with the digits from 1 to 26. -/
def value (word : List Char) : Nat := word.foldl (fun n c => 26 * n + (c.toNat - 64)) 0

/-- Which relation a word names, counted from 0. -/
def number (word : List Char) : Nat := value word - 1

theorem value_concat (word : List Char) (c : Char) : value (word ++ [c]) = 26 * value word + (c.toNat - 64) := by
  rw [value, List.foldl_append]
  rfl

theorem value_pos {word : List Char} (hne : word ≠ []) (h : ∀ c ∈ word, IsCapital c) : 0 < value word := by
  obtain ⟨front, c, rfl⟩ := (List.eq_nil_or_concat word).resolve_left hne
  have hc := h c (by simp)
  rw [List.concat_eq_append, value_concat]
  unfold IsCapital at hc
  omega

theorem letter_of_isCapital {n : Nat} {c : Char} (hc : IsCapital c) (hn : n % 26 = c.toNat - 65) : letter n = c := by
  unfold IsCapital at hc
  have hcode : 65 + n % 26 = c.toNat := by omega
  rw [letter, hcode, Char.ofNat_toNat]

/-- The last letter is the remainder, and what is before it the quotient. -/
theorem letters_number {word : List Char} (hne : word ≠ []) (h : ∀ c ∈ word, IsCapital c) :
    letters (number word) = word := by
  induction word using List.reverseRecOn with
  | nil => exact absurd rfl hne
  | append_singleton front c ih =>
    have hc : IsCapital c := h c (by simp)
    have hcode : 65 ≤ c.toNat ∧ c.toNat ≤ 90 := hc
    rw [number, value_concat]
    by_cases hfront : front = []
    · rw [hfront, value, List.foldl_nil, letters_of_lt (by omega), letter_of_isCapital hc (by omega)]
      rfl
    · have hcapitals : ∀ d ∈ front, IsCapital d := fun d hd => h d (List.mem_append_left _ hd)
      have hpos := value_pos hfront hcapitals
      have hquotient : (26 * value front + (c.toNat - 64) - 1) / 26 - 1 = number front := by
        rw [number]
        omega
      rw [letters_of_le (by omega), hquotient, ih hfront hcapitals, letter_of_isCapital hc (by omega)]

theorem letters_eq_iff {word : List Char} (hne : word ≠ []) (h : ∀ c ∈ word, IsCapital c) (n : Nat) :
    letters n = word ↔ n = number word := by
  constructor
  · intro hn
    apply letters_injective
    rw [hn, letters_number hne h]
  · intro hn
    rw [hn, letters_number hne h]

theorem isCapital_of_mem_letters {n : Nat} {c : Char} (h : c ∈ letters n) : IsCapital c := by
  induction n using Nat.strongRecOn with
  | ind n ih =>
    have hletter : IsCapital (letter n) := by
      unfold IsCapital
      rw [toNat_letter]
      omega
    by_cases hn : n < 26
    · rw [letters_of_lt hn] at h
      rw [List.mem_singleton.mp h]
      exact hletter
    · rw [letters_of_le (by omega), List.mem_append] at h
      rcases h with h | h
      · exact ih (n / 26 - 1) (by omega) h
      · rw [List.mem_singleton.mp h]
        exact hletter

theorem toUpper_of_isCapital {c : Char} (h : IsCapital c) : c.toUpper = c := by
  unfold Char.toUpper
  rw [dif_neg]
  intro hlower
  have hlow : 97 ≤ c.toNat := hlower.1
  unfold IsCapital at h
  omega

/-- A name is in capital letters already. -/
theorem toUpper_name (n : Nat) : (name n).toUpper = name n := by
  apply String.toList_inj.mp
  have hsame : ∀ c ∈ letters n, c.toUpper = id c := fun c hc => toUpper_of_isCapital (isCapital_of_mem_letters hc)
  rw [name, String.toUpper, String.toList_map, String.toList_ofList, List.map_congr_left hsame, List.map_id]

end Alias

/-! ### Names that a script defines -/

namespace Script

/-- The name that a definition starts with. -/
def definedName (line : String) : String := String.ofList (line.toList.takeWhile (· != ' '))

/-- The names that the lines of a script define, in order. -/
def names (script : Script) : List String := (definitions 0 script.statements).map definedName

theorem definedName_definition (n : Nat) (body : String) : definedName (Alias.name n ++ " = " ++ body) = Alias.name n := by
  have hword : ∀ c ∈ Alias.letters n, (c != ' ') = true := by
    intro c hc
    have hcapital := Alias.isCapital_of_mem_letters hc
    rw [bne_iff_ne]
    rintro rfl
    exact absurd hcapital (by decide)
  have hline : (Alias.name n ++ " = " ++ body).toList = Alias.letters n ++ ' ' :: ("= ".toList ++ body.toList) := by
    simp [Alias.name]
  rw [definedName, hline, List.takeWhile_append_of_pos hword]
  simp [Alias.name]

theorem names_eq (script : Script) : script.names = (List.range script.statements.length).map Alias.name := by
  apply List.ext_getElem?
  intro n
  rw [names, List.getElem?_map, getElem?_definitions, List.getElem?_map, Option.map_map, Nat.zero_add]
  by_cases hn : n < script.statements.length
  · rw [List.getElem?_eq_getElem hn, List.getElem?_range hn]
    exact congrArg some (definedName_definition n _)
  · rw [List.getElem?_eq_none (by omega), List.getElem?_eq_none (by simpa using hn)]
    rfl

/-- The keywords that a script is written with. -/
def keywords : List String :=
  ["LOAD", "FILTER", "BY", "FOREACH", "GENERATE", "AS", "GROUP", "ALL", "ORDER", "ASC", "DESC", "LIMIT", "DUMP", "STORE",
    "INTO", "AND", "OR", "NOT", "IS", "NULL"]

/-- A keyword is a word of capital letters, none of which names a relation before `AS` does. -/
theorem keyword_spec {k : String} (h : k ∈ keywords) :
    k.toList ≠ [] ∧ (∀ c ∈ k.toList, Alias.IsCapital c) ∧ 44 ≤ Alias.number k.toList := by
  have hall : keywords.all (fun k => !k.toList.isEmpty && k.toList.all (fun c => decide (Alias.IsCapital c)) &&
    decide (44 ≤ Alias.number k.toList)) = true := by decide
  have hk := List.all_eq_true.mp hall k h
  simpa [and_assoc] using hk

theorem toUpper_name_eq_iff {k : String} (h : k ∈ keywords) (n : Nat) :
    (Alias.name n).toUpper = k ↔ n = Alias.number k.toList := by
  obtain ⟨hne, hcapitals, -⟩ := keyword_spec h
  rw [Alias.toUpper_name, ← Alias.letters_eq_iff hne hcapitals, ← String.toList_inj, Alias.name,
    String.toList_ofList]

end Script

/-- The names that a script defines are the first names, as many as its graph takes statements. A keyword, in any case of
letters, is among them exactly if its number is below that. So none is a keyword exactly if there are at most 44. -/
theorem aliases_avoid_keywords {s : Stage} {script : Script} (h : s.script = .ok script) :
    script.names = (List.range s.statementCount).map Alias.name ∧
      (∀ k ∈ Script.keywords, (∃ a ∈ script.names, a.toUpper = k) ↔ Alias.number k.toList < s.statementCount) ∧
      ((∀ a ∈ script.names, a.toUpper ∉ Script.keywords) ↔ s.statementCount ≤ 44) := by
  have hnames : script.names = (List.range s.statementCount).map Alias.name := by
    rw [Script.names_eq, length_of_script h]
  have hmeets : ∀ k ∈ Script.keywords,
      (∃ a ∈ script.names, a.toUpper = k) ↔ Alias.number k.toList < s.statementCount := by
    intro k hk
    simp only [hnames, List.mem_map, List.mem_range, exists_exists_and_eq_and, Script.toUpper_name_eq_iff hk]
    constructor
    · rintro ⟨n, hn, rfl⟩
      exact hn
    · intro hn
      exact ⟨_, hn, rfl⟩
  have has : "AS" ∈ Script.keywords := by decide
  refine ⟨hnames, hmeets, ?_, ?_⟩
  · intro hfree
    by_contra hmany
    obtain ⟨a, ha, heq⟩ := (hmeets "AS" has).mpr (show 44 < s.statementCount by omega)
    exact hfree a ha (heq ▸ has)
  · intro hfew a ha hkeyword
    have hlow := (Script.keyword_spec hkeyword).2.2
    have hnumber := (hmeets _ hkeyword).mp ⟨a, ha, rfl⟩
    omega

/-- The first of the people, over and over: a source and `n` limits. -/
def firstPeople : Nat → Stage
  | 0 => Stage.base "people" .int64
  | n + 1 => { Stage.after (firstPeople n) with limit := some 1 }

theorem statementCount_firstPeople (n : Nat) : (firstPeople n).statementCount = n + 1 := by
  induction n with
  | zero => rfl
  | succ n ih =>
    show Stage.statementCount ⟨.stage (firstPeople n), none, [], false, none, [], some 1, _, _⟩ = n + 1 + 1
    rw [Stage.statementCount, Source.statementCount, ih]
    rfl

/-- As many statements as there are names before the first keyword. -/
theorem aliases_avoid_keywords_firstPeople :
    ∃ script, (firstPeople 43).script = .ok script ∧ (firstPeople 43).statementCount = 44 ∧
      ∀ a ∈ script.names, a.toUpper ∉ Script.keywords := by
  have hok : (firstPeople 43).script.isOk = true := by decide +kernel
  obtain ⟨script, hscript⟩ := except_isOk hok
  obtain ⟨-, -, hfree⟩ := aliases_avoid_keywords hscript
  exact ⟨script, hscript, statementCount_firstPeople 43, hfree.mpr (statementCount_firstPeople 43).le⟩

/-- One statement more defines `AS`. -/
theorem alias_is_keyword :
    ∃ script, (firstPeople 44).script = .ok script ∧ "AS" ∈ script.names ∧ "AS".toUpper ∈ Script.keywords := by
  have hok : (firstPeople 44).script.isOk = true := by decide +kernel
  obtain ⟨script, hscript⟩ := except_isOk hok
  have hname : Alias.name 44 = "AS" := by
    rw [← Alias.toUpper_name, Script.toUpper_name_eq_iff (by decide)]
    rfl
  refine ⟨script, hscript, ?_, ?_⟩
  · rw [Script.names_eq, length_of_script hscript, statementCount_firstPeople, ← hname]
    exact List.mem_map_of_mem (by decide)
  · rw [← hname, Alias.toUpper_name, hname]
    decide

end PigChain
