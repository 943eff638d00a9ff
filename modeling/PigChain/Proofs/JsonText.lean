import PigChain.Json.Parse
import Mathlib.Data.Fintype.Basic
import Mathlib.Tactic.FinCases

/-!
# Reading JSON text back

The compact text of a value without floating-point numbers reads back as that value, as long as its integers have 64
bits and it nests no deeper than a text may. A value is read with any text after it that cannot go on with it: what
follows a number inside a value is a comma or a closing bracket. Nesting is what the reader recurses on, so the proof is
by induction on the depth, and inside a value along the lists of its items and fields.
-/

namespace PigChain.Json

/-! ### Values that the text keeps -/

mutual

/-- No floating-point number occurs, and every integer has 64 bits, with or without a sign. -/
def Exact : Json → Prop
  | .int n => -9223372036854775808 ≤ n ∧ n < 18446744073709551616
  | .float _ => False
  | .array items => ExactItems items
  | .object fields => ExactFields fields
  | _ => True

def ExactItems : List Json → Prop
  | [] => True
  | j :: js => j.Exact ∧ ExactItems js

def ExactFields : List (String × Json) → Prop
  | [] => True
  | (_, v) :: fields => v.Exact ∧ ExactFields fields

end

theorem exactItems_iff {items : List Json} : ExactItems items ↔ ∀ j ∈ items, j.Exact := by
  induction items with
  | nil => simp [ExactItems]
  | cons j js ih => simp [ExactItems, ih]

theorem exactFields_iff {fields : List (String × Json)} : ExactFields fields ↔ ∀ f ∈ fields, f.2.Exact := by
  induction fields with
  | nil => simp [ExactFields]
  | cons f fields ih =>
    obtain ⟨k, v⟩ := f
    simp [ExactFields, ih]

theorem depthItems_le_iff {items : List Json} {d : Nat} : depthItems items ≤ d ↔ ∀ j ∈ items, j.depth ≤ d := by
  induction items with
  | nil => simp [depthItems]
  | cons j js ih => simp [depthItems, ih]

theorem depthFields_le_iff {fields : List (String × Json)} {d : Nat} :
    depthFields fields ≤ d ↔ ∀ f ∈ fields, f.2.depth ≤ d := by
  induction fields with
  | nil => simp [depthFields]
  | cons f fields ih =>
    obtain ⟨k, v⟩ := f
    simp [depthFields, ih]

/-- A text that goes on with no number: it is at its end, at a comma or at a closing bracket. -/
def Follows (rest : List Char) : Prop := ∀ c ∈ rest.head?, c = ',' ∨ c = ']' ∨ c = '\x7d'

theorem follows_nil : Follows [] := fun _ h => nomatch h

theorem follows_cons {c : Char} {rest : List Char} (h : c = ',' ∨ c = ']' ∨ c = '\x7d') : Follows (c :: rest) := by
  intro d hd
  cases hd
  exact h

/-! ### Strings -/

theorem hexValue_hexDigit {n : Nat} (h : n < 16) : hexValue (hexDigit n) = some n := by
  have hall : ∀ k : Fin 16, hexValue (hexDigit k.val) = some k.val := by decide
  exact hall ⟨n, h⟩

theorem unicodeEscape_control {c : Char} (h : c.toNat < 32) (rest : List Char) :
    unicodeEscape ('0' :: '0' :: hexDigit (c.toNat / 16) :: hexDigit (c.toNat % 16) :: rest) = some (c, rest) := by
  have hunit : hexUnit ('0' :: '0' :: hexDigit (c.toNat / 16) :: hexDigit (c.toNat % 16) :: rest) =
      some (c.toNat, rest) := by
    have hzero : hexValue '0' = some 0 := by decide
    have hvalue : ((0 * 16 + 0) * 16 + c.toNat / 16) * 16 + c.toNat % 16 = c.toNat := by omega
    simp only [hexUnit, hzero, hexValue_hexDigit (show c.toNat / 16 < 16 by omega),
      hexValue_hexDigit (show c.toNat % 16 < 16 by omega), Option.bind_eq_bind, Option.bind_some, hvalue]
  simp only [unicodeEscape, hunit, Option.bind_eq_bind, Option.bind_some]
  rw [if_neg (by omega), if_neg (by omega), Char.ofNat_toNat]

theorem stringTail_backslash {c : Char} {cs rest : List Char} (h : escaped cs = some (c, rest)) (fuel : Nat) :
    stringTail (fuel + 1) ('\\' :: cs) = (stringTail fuel rest).map fun (xs, rest) => (c :: xs, rest) := by
  rw [stringTail, if_neg (by decide), if_pos rfl, h, Option.bind_eq_bind, Option.bind_some]
  dsimp only
  cases stringTail fuel rest <;> rfl

/-- One character is read back from its escape. -/
theorem stringTail_escape (c : Char) (fuel : Nat) (rest : List Char) :
    stringTail (fuel + 1) (escape c ++ rest) = (stringTail fuel rest).map fun (xs, rest) => (c :: xs, rest) := by
  unfold escape
  split_ifs with hquote hslash hb hf hn hr ht hcontrol
  · subst hquote; exact stringTail_backslash rfl fuel
  · subst hslash; exact stringTail_backslash rfl fuel
  · subst hb; exact stringTail_backslash rfl fuel
  · subst hf; exact stringTail_backslash rfl fuel
  · subst hn; exact stringTail_backslash rfl fuel
  · subst hr; exact stringTail_backslash rfl fuel
  · subst ht; exact stringTail_backslash rfl fuel
  · have hescaped : escaped ('u' :: '0' :: '0' :: hexDigit (c.toNat / 16) :: hexDigit (c.toNat % 16) :: rest) =
        some (c, rest) := unicodeEscape_control hcontrol rest
    exact stringTail_backslash hescaped fuel
  · rw [List.singleton_append, stringTail, if_neg hquote, if_neg hslash, if_neg hcontrol]
    cases stringTail fuel rest <;> rfl

theorem length_le_flatMap_escape (cs : List Char) : cs.length ≤ (cs.flatMap escape).length := by
  induction cs with
  | nil => simp
  | cons c cs ih =>
    have hpos : 0 < (escape c).length := by
      unfold escape
      repeat' split
      all_goals exact Nat.succ_pos _
    rw [List.flatMap_cons, List.length_append, List.length_cons]
    omega

theorem stringTail_escapes {cs : List Char} {fuel : Nat} (h : cs.length < fuel) (rest : List Char) :
    stringTail fuel (cs.flatMap escape ++ '"' :: rest) = some (cs, rest) := by
  induction cs generalizing fuel with
  | nil =>
    obtain ⟨fuel, rfl⟩ := Nat.exists_eq_add_one_of_ne_zero (Nat.ne_zero_of_lt h)
    rfl
  | cons c cs ih =>
    obtain ⟨fuel, rfl⟩ := Nat.exists_eq_add_one_of_ne_zero (Nat.ne_zero_of_lt h)
    rw [List.flatMap_cons, List.append_assoc, stringTail_escape, ih (by simpa using h)]
    rfl

theorem string?_quoted (s : String) (rest : List Char) :
    string? (s.toList.flatMap escape ++ '"' :: rest) = some (s, rest) := by
  have hfuel : s.toList.length < (s.toList.flatMap escape ++ '"' :: rest).length + 1 := by
    have hle := length_le_flatMap_escape s.toList
    rw [List.length_append]
    omega
  rw [string?, stringTail_escapes hfuel, Option.map_some]
  dsimp only
  rw [String.ofList_toList]

theorem quoted_append (s : String) (rest : List Char) :
    quoted s ++ rest = '"' :: (s.toList.flatMap escape ++ '"' :: rest) := by
  simp [quoted]

/-! ### Integers -/

theorem le_ofDigitChars (cs : List Char) (n : Nat) : n ≤ Nat.ofDigitChars 10 cs n := by
  induction cs generalizing n with
  | nil => exact Nat.le_refl n
  | cons c cs ih =>
    have hrest := ih (10 * n + (c.toNat - '0'.toNat))
    rw [Nat.ofDigitChars_cons]
    omega

theorem significand_eq {cs : List Char} {n : Nat} (h : Nat.ofDigitChars 10 cs n < UInt64.size) :
    significand n cs = (Nat.ofDigitChars 10 cs n, 0) := by
  induction cs generalizing n with
  | nil => rfl
  | cons c cs ih =>
    rw [Nat.ofDigitChars_cons] at h ⊢
    have hle := le_ofDigitChars cs (10 * n + (c.toNat - '0'.toNat))
    rw [significand, if_pos (by omega), ih h]

theorem head?_toDigits {n : Nat} (h : (Nat.toDigits 10 n).head? = some '0') : n = 0 := by
  induction n using Nat.strongRecOn with
  | ind n ih =>
    by_cases hn : n < 10
    · rw [Nat.toDigits_of_lt_base hn] at h
      have hdigit : ∀ d : Fin 10, d.val.digitChar = '0' → d.val = 0 := by decide
      exact hdigit ⟨n, hn⟩ (Option.some.inj h)
    · rw [Nat.toDigits_of_base_le (by omega) (by omega), List.head?_append_of_ne_nil _ Nat.toDigits_ne_nil] at h
      have hquotient := ih (n / 10) (by omega) h
      omega

theorem isDigit_toDigits (n : Nat) : ∀ c ∈ Nat.toDigits 10 n, c.isDigit = true :=
  fun _ hc => Nat.isDigit_of_mem_toDigits (by omega) (by omega) hc

/-- The digits of a number are the whole of it when nothing goes on after them. -/
theorem number?_toDigits {n : Nat} (hn : n < UInt64.size) (negative : Bool) {rest : List Char} (h : Follows rest) :
    number? negative (Nat.toDigits 10 n ++ rest) = integer negative n 0 rest := by
  have hvalue : Nat.ofDigitChars 10 (Nat.toDigits 10 n) 0 = n := Nat.ofDigitChars_ten_toDigits
  have hsignificand : significand 0 (Nat.toDigits 10 n) = (n, 0) := by
    rw [significand_eq (by rw [hvalue]; exact hn), hvalue]
  have hempty : (Nat.toDigits 10 n).isEmpty = false := by
    rw [List.isEmpty_eq_false_iff]
    exact Nat.toDigits_ne_nil
  have hzero : ¬((Nat.toDigits 10 n).head? = some '0' ∧ 1 < (Nat.toDigits 10 n).length) := by
    rintro ⟨hhead, hlength⟩
    rw [head?_toDigits hhead] at hlength
    exact absurd hlength (by decide)
  have hstop : rest.takeWhile Char.isDigit = [] ∧ rest.dropWhile Char.isDigit = rest := by
    cases rest with
    | nil => exact ⟨rfl, rfl⟩
    | cons c rest => rcases h c rfl with rfl | rfl | rfl <;> exact ⟨rfl, rfl⟩
  unfold number?
  rw [List.takeWhile_append_of_pos (isDigit_toDigits n), List.dropWhile_append_of_pos (isDigit_toDigits n), hstop.1,
    hstop.2, List.append_nil]
  dsimp only
  rw [hsignificand, hempty, if_neg (by decide), if_neg hzero]
  cases rest with
  | nil => rfl
  | cons c rest => rcases h c rfl with rfl | rfl | rfl <;> rfl

/-- A value that begins with a digit is a number. -/
theorem value?_of_digit {c : Char} (hc : c.isDigit = true) (d : Nat) (cs : List Char) :
    value? d (c :: cs) = number? false (c :: cs) := by
  have hrange : 48 ≤ c.toNat ∧ c.toNat ≤ 57 := by
    rw [Char.isDigit, Bool.and_eq_true, decide_eq_true_eq, decide_eq_true_eq] at hc
    exact ⟨hc.1, hc.2⟩
  have hdigits : ∀ k : Fin 10, value? d (Char.ofNat (48 + k.val) :: cs) =
      number? false (Char.ofNat (48 + k.val) :: cs) := by
    intro k
    fin_cases k <;> cases d <;> rfl
  have hchar : Char.ofNat (48 + (c.toNat - 48)) = c := by
    rw [Nat.add_sub_cancel' hrange.1, Char.ofNat_toNat]
  have hvalue := hdigits ⟨c.toNat - 48, by omega⟩
  rwa [hchar] at hvalue

theorem value?_toDigits {n : Nat} (hn : n < UInt64.size) (d : Nat) {rest : List Char} (h : Follows rest) :
    value? d (Nat.toDigits 10 n ++ rest) = some (.int n, rest) := by
  obtain ⟨c, cs, hcs⟩ := List.exists_cons_of_ne_nil (Nat.toDigits_ne_nil (n := n) (b := 10))
  have hdigit : c.isDigit = true := isDigit_toDigits n c (by rw [hcs]; exact List.mem_cons_self)
  have hnumber := number?_toDigits hn false h
  rw [hcs, List.cons_append] at hnumber ⊢
  rw [value?_of_digit hdigit, hnumber]
  rfl

theorem value?_int {n : Int} (hn : (Json.int n).Exact) (d : Nat) {rest : List Char} (h : Follows rest) :
    value? d ((Json.int n).chars rest) = some (.int n, rest) := by
  have hsize : UInt64.size = 18446744073709551616 := rfl
  obtain ⟨hlow, hhigh⟩ := hn
  rw [chars]
  cases n with
  | ofNat n =>
    rw [Int.ofNat_eq_natCast] at hhigh
    have htext : (toString (Int.ofNat n)).toList = Nat.toDigits 10 n := Nat.toList_repr
    rw [htext]
    exact value?_toDigits (by omega) d h
  | negSucc n =>
    rw [Int.negSucc_eq] at hlow
    have htext : (toString (Int.negSucc n)).toList = '-' :: Nat.toDigits 10 (n + 1) := by
      have hdigits : (toString (n + 1)).toList = Nat.toDigits 10 (n + 1) := Nat.toList_repr
      have hsign : toString (Int.negSucc n) = "-" ++ toString (n + 1) := rfl
      rw [hsign, String.toList_append, hdigits]
      rfl
    have hvalue : value? d ('-' :: (Nat.toDigits 10 (n + 1) ++ rest)) =
        number? true (Nat.toDigits 10 (n + 1) ++ rest) := by
      cases d <;> rfl
    rw [htext, List.cons_append, hvalue, number?_toDigits (by omega) true h, integer, if_neg (by omega),
      if_neg (by decide), if_neg (by omega)]
    rfl

/-! ### Lists of items -/

mutual

theorem length_le_chars : ∀ (j : Json) (rest : List Char), rest.length ≤ (j.chars rest).length
  | .null, rest => by
    rw [chars, List.length_append]
    omega
  | .bool _, rest => by simp [chars]
  | .int _, rest => by simp [chars]
  | .float _, rest => by simp [chars]
  | .string _, rest => by simp [chars]
  | .array [], rest => by simp [chars]; omega
  | .array (j :: js), rest => by
    have hitems := length_lt_itemChars js rest
    have hj := length_le_chars j (itemChars js rest)
    rw [chars, List.length_cons]
    omega
  | .object [], rest => by simp [chars]; omega
  | .object ((k, v) :: fields), rest => by
    have hfields := length_lt_fieldChars fields rest
    have hv := length_le_chars v (fieldChars fields rest)
    rw [chars, List.length_cons, List.length_append, List.length_cons]
    omega

theorem length_lt_itemChars : ∀ (js : List Json) (rest : List Char),
    js.length + rest.length < (itemChars js rest).length
  | [], rest => by simp [itemChars]
  | j :: js, rest => by
    have hitems := length_lt_itemChars js rest
    have hj := length_le_chars j (itemChars js rest)
    rw [itemChars, List.length_cons, List.length_cons]
    omega

theorem length_lt_fieldChars : ∀ (fields : List (String × Json)) (rest : List Char),
    fields.length + rest.length < (fieldChars fields rest).length
  | [], rest => by simp [fieldChars]
  | (k, v) :: fields, rest => by
    have hfields := length_lt_fieldChars fields rest
    have hv := length_le_chars v (fieldChars fields rest)
    rw [fieldChars, List.length_cons, List.length_cons, List.length_append, List.length_cons]
    omega

end

/-- Items written with commas between them, up to a closing bracket, are read one after another. `write` writes an item
and `tail` what follows the first. -/
theorem sequence_written {α : Type} {item : Reader α} {close : Char} {write : α → List Char → List Char}
    (tail : List α → List Char) {rest : List Char} (hclose : close = ']' ∨ close = '\x7d')
    (hnil : tail [] = close :: rest) (hcons : ∀ x xs, tail (x :: xs) = ',' :: write x (tail xs)) {x : α} {xs : List α}
    (hread : ∀ y ∈ x :: xs, ∀ after, Follows after → item (write y after) = some (y, after)) {fuel : Nat}
    (hfuel : xs.length < fuel) : sequence item close fuel (write x (tail xs)) = some (x :: xs, rest) := by
  have hskip : skipBlanks (close :: rest) = close :: rest := by
    rcases hclose with rfl | rfl <;> rfl
  have hcomma : ',' ≠ close := by
    rcases hclose with rfl | rfl <;> decide
  induction xs generalizing x fuel with
  | nil =>
    obtain ⟨fuel, rfl⟩ := Nat.exists_eq_add_one_of_ne_zero (Nat.ne_zero_of_lt hfuel)
    have hx := hread x List.mem_cons_self (tail []) (by rw [hnil]; exact follows_cons (.inr hclose))
    rw [sequence, hx, Option.bind_eq_bind, Option.bind_some, hnil]
    dsimp only
    rw [hskip]
    exact if_pos rfl
  | cons y ys ih =>
    obtain ⟨fuel, rfl⟩ := Nat.exists_eq_add_one_of_ne_zero (Nat.ne_zero_of_lt hfuel)
    have hx := hread x List.mem_cons_self (tail (y :: ys)) (by rw [hcons]; exact follows_cons (.inl rfl))
    have hrest := ih (fun z hz => hread z (List.mem_cons_of_mem x hz)) (Nat.lt_of_succ_lt_succ hfuel)
    have hblank : skipBlanks (',' :: write y (tail ys)) = ',' :: write y (tail ys) := rfl
    rw [sequence, hx, Option.bind_eq_bind, Option.bind_some, hcons]
    dsimp only
    rw [hblank]
    dsimp only
    rw [if_neg hcomma, if_pos rfl, hrest]
    rfl

/-! ### Values -/

/-- Characters that no value begins with. -/
def nonStarts : List Char := [' ', '\n', '\t', '\x0d', ']', '\x7d']

theorem head_chars {j : Json} (h : j.Exact) (rest : List Char) : ∃ c cs, j.chars rest = c :: cs ∧ c ∉ nonStarts := by
  cases j with
  | null => exact ⟨'n', _, rfl, by decide⟩
  | bool b =>
    cases b with
    | false => exact ⟨'f', _, rfl, by decide⟩
    | true => exact ⟨'t', _, rfl, by decide⟩
  | int n =>
    cases n with
    | ofNat n =>
      have htext : (toString (Int.ofNat n)).toList = Nat.toDigits 10 n := Nat.toList_repr
      obtain ⟨c, cs, hcs⟩ := List.exists_cons_of_ne_nil (Nat.toDigits_ne_nil (n := n) (b := 10))
      have hdigit : c.isDigit = true := isDigit_toDigits n c (by rw [hcs]; exact List.mem_cons_self)
      refine ⟨c, cs ++ rest, by rw [chars, htext, hcs, List.cons_append], fun hmem => ?_⟩
      have hnone : nonStarts.all (fun c => !c.isDigit) = true := rfl
      have hnot := List.all_eq_true.mp hnone c hmem
      rw [hdigit] at hnot
      cases hnot
    | negSucc n =>
      have hsign : toString (Int.negSucc n) = "-" ++ toString (n + 1) := rfl
      refine ⟨'-', (toString (n + 1)).toList ++ rest, ?_, by decide⟩
      rw [chars, hsign, String.toList_append, List.append_assoc]
      rfl
  | float x => exact h.elim
  | string s => exact ⟨'"', _, by rw [chars, quoted_append], by decide⟩
  | array items => cases items <;> exact ⟨'[', _, rfl, by decide⟩
  | object fields => cases fields <;> exact ⟨'\x7b', _, rfl, by decide⟩

/-- Items between brackets, of which there is at least one. -/
theorem bracketed_written {α : Type} {item : Reader α} {close : Char} {write : α → List Char → List Char}
    (tail : List α → List Char) {rest : List Char} (hclose : close = ']' ∨ close = '\x7d')
    (hnil : tail [] = close :: rest) (hcons : ∀ x xs, tail (x :: xs) = ',' :: write x (tail xs)) {x : α} {xs : List α}
    (hread : ∀ y ∈ x :: xs, ∀ after, Follows after → item (write y after) = some (y, after))
    (hlength : xs.length ≤ (write x (tail xs)).length)
    (hhead : ∃ c cs, write x (tail xs) = c :: cs ∧ c ∉ nonStarts) :
    bracketed item close (write x (tail xs)) = some (x :: xs, rest) := by
  have hsequence := sequence_written tail hclose hnil hcons hread (Nat.lt_succ_of_le hlength)
  obtain ⟨c, cs, hcs, hc⟩ := hhead
  have hblank : isBlank c = false := by
    by_contra hblank
    rw [Bool.not_eq_false, isBlank] at hblank
    simp only [Bool.or_eq_true, beq_iff_eq] at hblank
    rcases hblank with ((rfl | rfl) | rfl) | rfl <;> exact hc (by decide)
  have hne : c ≠ close := by
    rintro rfl
    rcases hclose with rfl | rfl <;> exact hc (by decide)
  have hskip : skipBlanks (c :: cs) = c :: cs := List.dropWhile_cons_of_neg (by rw [hblank]; decide)
  unfold bracketed
  rw [hcs] at hsequence ⊢
  rw [hskip]
  exact (if_neg hne).trans hsequence

theorem value?_quoted (d : Nat) (s : String) (rest : List Char) :
    value? d (quoted s ++ rest) = some (.string s, rest) := by
  have hvalue : ∀ cs, value? d ('"' :: cs) = (string? cs).map fun p => (.string p.1, p.2) := by
    intro cs
    cases d <;> rfl
  rw [quoted_append, hvalue, string?_quoted]
  rfl

theorem pair_written {value : Reader Json} {v : Json} {after rest : List Char} (h : value after = some (v, rest))
    (k : String) : pair value (quoted k ++ ':' :: after) = some ((k, v), rest) := by
  rw [quoted_append]
  -- The key is read first and what follows it comes to the colon, then the value.
  refine (congrArg (Option.bind · _) (string?_quoted k (':' :: after))).trans ?_
  exact congrArg (Option.bind · fun p => some ((k, p.1), p.2)) h

/-- A value is read back from its text, whatever follows it that cannot go on with it. -/
theorem value?_chars {d : Nat} {j : Json} (hexact : j.Exact) (hdepth : j.depth ≤ d) {rest : List Char}
    (hrest : Follows rest) : value? d (j.chars rest) = some (j, rest) := by
  -- Scalars are read alike at every depth; it is taken apart for arrays and objects only.
  induction d using Nat.strongRecOn generalizing j rest with
  | ind d ih =>
    cases j with
    | null => cases d <;> rfl
    | bool b => cases d <;> cases b <;> rfl
    | int n => exact value?_int hexact d hrest
    | float x => exact hexact.elim
    | string s => exact value?_quoted d s rest
    | array items =>
      rw [Exact, exactItems_iff] at hexact
      rw [depth] at hdepth
      obtain ⟨d, rfl⟩ : ∃ d', d = d' + 1 := ⟨d - 1, by omega⟩
      have hread : ∀ x ∈ items, ∀ after, Follows after → value? d (x.chars after) = some (x, after) :=
        fun x hx after hafter => ih d (by omega) (hexact x hx) (depthItems_le_iff.mp (by omega) x hx) hafter
      have hvalue : ∀ cs, value? (d + 1) ('[' :: cs) = (bracketed (value? d) ']' cs).map fun p =>
          (.array p.1, p.2) := fun cs => rfl
      cases items with
      | nil => rfl
      | cons x xs =>
        have hlength : xs.length ≤ (x.chars (itemChars xs rest)).length := by
          have hitems := length_lt_itemChars xs rest
          have hx := length_le_chars x (itemChars xs rest)
          omega
        have hhead := head_chars (hexact x List.mem_cons_self) (itemChars xs rest)
        rw [chars, hvalue,
          bracketed_written (fun xs => itemChars xs rest) (.inl rfl) rfl (fun _ _ => rfl) hread hlength hhead]
        rfl
    | object fields =>
      rw [Exact, exactFields_iff] at hexact
      rw [depth] at hdepth
      obtain ⟨d, rfl⟩ : ∃ d', d = d' + 1 := ⟨d - 1, by omega⟩
      have hread : ∀ f ∈ fields, ∀ after, Follows after →
          pair (value? d) (quoted f.1 ++ ':' :: f.2.chars after) = some (f, after) :=
        fun f hf after hafter =>
          pair_written (ih d (by omega) (hexact f hf) (depthFields_le_iff.mp (by omega) f hf) hafter) f.1
      have hvalue : ∀ cs, value? (d + 1) ('\x7b' :: cs) = (bracketed (pair (value? d)) '\x7d' cs).map fun p =>
          (.object p.1, p.2) := fun cs => rfl
      cases fields with
      | nil => rfl
      | cons f fields =>
        obtain ⟨k, v⟩ := f
        have hlength : fields.length ≤ (quoted k ++ ':' :: v.chars (fieldChars fields rest)).length := by
          have hfields := length_lt_fieldChars fields rest
          have hv := length_le_chars v (fieldChars fields rest)
          rw [List.length_append, List.length_cons]
          omega
        have hhead : ∃ c cs, quoted k ++ ':' :: v.chars (fieldChars fields rest) = c :: cs ∧ c ∉ nonStarts :=
          ⟨'"', _, quoted_append k _, by decide⟩
        rw [chars, hvalue,
          bracketed_written (fun fields => fieldChars fields rest) (.inr rfl) rfl (fun _ _ => rfl) hread hlength hhead]
        rfl

/-- The compact text of a value reads back as that value. -/
theorem parse?_write {j : Json} (hexact : j.Exact) (hdepth : j.depth ≤ maxDepth) : parse? j.write = some j := by
  rw [parse?, write, String.toList_ofList, value?_chars hexact hdepth follows_nil]
  rfl

end PigChain.Json
