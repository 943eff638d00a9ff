import Mathlib.Algebra.Order.Ring.Nat
import PigChain.Url.Address

/-!
# Addresses of eight words read back

Main statement: the text of eight words is read as these words. A run of zeros that the text leaves out stands
for one word of its own and for all words that are missing, so the reader puts the zeros back.
-/

namespace PigChain

theorem exists_of_mem_mapM {α β : Type} {f : α → Option β} {xs : List α} {ys : List β} (h : xs.mapM f = some ys)
    {y : β} (hy : y ∈ ys) : ∃ x ∈ xs, f x = some y := by
  induction xs generalizing ys with
  | nil =>
    cases h
    cases hy
  | cons x xs ih =>
    rw [List.mapM_cons] at h
    obtain ⟨z, hz, h⟩ := Option.bind_eq_some_iff.mp h
    obtain ⟨zs, hzs, h⟩ := Option.bind_eq_some_iff.mp h
    cases h
    rcases List.mem_cons.mp hy with rfl | hy
    · exact ⟨x, List.mem_cons_self, hz⟩
    · obtain ⟨w, hw, hfw⟩ := ih hzs hy
      exact ⟨w, List.mem_cons_of_mem x hw, hfw⟩

namespace Address

/-! ### Hexadecimal numbers -/

theorem digitValue?_digitChar {d : Nat} (h : d < 16) : digitValue? 16 d.digitChar = some d := by
  revert d
  decide

theorem mem_toDigits {n : Nat} {c : Char} (h : c ∈ Nat.toDigits 16 n) : ∃ d < 16, c = d.digitChar := by
  induction n using Nat.strongRecOn with
  | _ n ih =>
    by_cases hn : n < 16
    · rw [Nat.toDigits_of_lt_base hn, List.mem_singleton] at h
      exact ⟨n, hn, h⟩
    · rw [Nat.toDigits_of_base_le (by omega) (by omega), List.mem_append, List.mem_singleton] at h
      rcases h with h | h
      · exact ih (n / 16) (by omega) h
      · exact ⟨n % 16, by omega, h⟩

theorem number?_toDigits (n : Nat) : number? 16 (Nat.toDigits 16 n) = some n := by
  induction n using Nat.strongRecOn with
  | _ n ih =>
    by_cases hn : n < 16
    · rw [Nat.toDigits_of_lt_base hn]
      simp [number?, digitValue?_digitChar hn]
    · have hinit := ih (n / 16) (by omega)
      have hlast := digitValue?_digitChar (d := n % 16) (by omega)
      rw [number?] at hinit ⊢
      rw [Nat.toDigits_of_base_le (by omega) (by omega), List.foldlM_append, hinit]
      simp only [List.foldlM_cons, List.foldlM_nil, hlast, Option.map_some, Option.bind_eq_bind, Option.bind_some]
      exact congrArg some (Nat.div_add_mod' n 16)

theorem number?_lt {cs : List Char} {n : Nat} (h : number? 16 cs = some n) : n < 16 ^ cs.length := by
  have hfold (cs : List Char) (start n : Nat)
      (h : cs.foldlM (fun n c => (digitValue? 16 c).map (n * 16 + ·)) start = some n) :
      n < (start + 1) * 16 ^ cs.length := by
    induction cs generalizing start with
    | nil =>
      cases h
      simp
    | cons c cs ih =>
      rw [List.foldlM_cons] at h
      cases hd : digitValue? 16 c with
      | none => simp [hd] at h
      | some d =>
        have hlt : d < 16 := by
          simp only [digitValue?, Option.filter_eq_some_iff, decide_eq_true_eq] at hd
          exact hd.2
        have hrest := ih (start * 16 + d) (by simpa [hd] using h)
        calc n < (start * 16 + d + 1) * 16 ^ cs.length := hrest
          _ ≤ ((start + 1) * 16) * 16 ^ cs.length := Nat.mul_le_mul_right _ (by omega)
          _ = (start + 1) * 16 ^ (c :: cs).length := by rw [List.length_cons, Nat.pow_succ', Nat.mul_assoc]
  simpa using hfold cs 0 n h

/-! ### One word -/

section Word
variable {w fuel : Nat} {done : List Nat} {gap : Option Nat}

/-- The digits of a word are all that is read of it if a colon or nothing follows. -/
theorem takeWhile_word (hw : w < 65536) {rest : List Char} (hrest : ∀ c ∈ rest.head?, c = ':') :
    ((Nat.toDigits 16 w ++ rest).take 4).takeWhile (fun c => (digitValue? 16 c).isSome) = Nat.toDigits 16 w := by
  have hlength : (Nat.toDigits 16 w).length ≤ 4 := (Nat.length_toDigits_le_iff (by omega) (by omega)).mpr hw
  have hdigits : ∀ c ∈ Nat.toDigits 16 w, (digitValue? 16 c).isSome = true := fun c hc => by
    obtain ⟨d, hd, rfl⟩ := mem_toDigits hc
    simp [digitValue?_digitChar hd]
  have hstop (k : Nat) : (rest.take k).takeWhile (fun c => (digitValue? 16 c).isSome) = [] := by
    cases rest with
    | nil => simp
    | cons c rest =>
      obtain rfl := hrest c rfl
      have hcolon : digitValue? 16 ':' = none := by decide
      cases k <;> simp [hcolon]
  rw [List.take_append, List.take_of_length_le hlength, List.takeWhile_append_of_pos hdigits, hstop,
    List.append_nil]

theorem toDigits_cons (w : Nat) : ∃ c cs, Nat.toDigits 16 w = c :: cs ∧ c ≠ ':' := by
  obtain ⟨c, cs, h⟩ := List.exists_cons_of_ne_nil (Nat.toDigits_ne_nil (n := w) (b := 16))
  obtain ⟨d, hd, rfl⟩ := mem_toDigits (n := w) (h ▸ List.mem_cons_self)
  refine ⟨_, cs, h, ?_⟩
  clear h
  revert d
  decide

theorem words?_word (hw : w < 65536) (hdone : done.length < 8) {rest : List Char}
    (hrest : ∀ c ∈ rest.head?, c = ':') : words? (fuel + 1) (Nat.toDigits 16 w ++ rest) done gap =
      if rest.isEmpty then some (done ++ [w], gap)
      else if rest.tail.isEmpty then none else words? fuel rest.tail (done ++ [w]) gap := by
  obtain ⟨c, cs, hcs, hcolon⟩ := toDigits_cons w
  have hdigits := takeWhile_word hw hrest
  rw [hcs, List.cons_append] at hdigits ⊢
  rw [words?]
  simp only [hdigits, Nat.not_le.mpr hdone, hcolon, beq_iff_eq, if_false]
  rw [← hcs, number?_toDigits, hcs, ← List.cons_append, List.drop_left]
  cases rest with
  | nil => rfl
  | cons d rest =>
    obtain rfl := hrest d rfl
    rfl

theorem words?_last (hw : w < 65536) (hdone : done.length < 8) :
    words? (fuel + 1) (Nat.toDigits 16 w) done gap = some (done ++ [w], gap) := by
  have hword : words? (fuel + 1) (Nat.toDigits 16 w ++ []) done gap = _ := words?_word hw hdone (by simp)
  simpa using hword

theorem words?_colon (hw : w < 65536) (hdone : done.length < 8) {rest : List Char} (hrest : rest ≠ []) :
    words? (fuel + 1) (Nat.toDigits 16 w ++ ':' :: rest) done gap = words? fuel rest (done ++ [w]) gap := by
  rw [words?_word hw hdone (by simp)]
  simp [hrest]

/-- A second colon in a row. -/
theorem words?_gap (hdone : done.length < 8) (rest : List Char) :
    words? (fuel + 1) (':' :: rest) done none = words? fuel rest (done ++ [0]) (some (done.length + 1)) := by
  rw [words?]
  simp [Nat.not_le.mpr hdone]

end Word

/-! ### Words between colons -/

/-- Words in hexadecimal with colons between them. -/
def colonText (ws : List Nat) : List Char := [':'].intercalate (ws.map (Nat.toDigits 16))

theorem colonText_singleton (w : Nat) : colonText [w] = Nat.toDigits 16 w := by
  simp [colonText]

theorem colonText_cons_cons (w v : Nat) (ws : List Nat) :
    colonText (w :: v :: ws) = Nat.toDigits 16 w ++ ':' :: colonText (v :: ws) := by
  simp [colonText]

theorem colonText_ne_nil (w : Nat) (ws : List Nat) : colonText (w :: ws) ≠ [] := by
  cases ws with
  | nil => simp [colonText]
  | cons v ws => simp [colonText_cons_cons]

theorem colonText_append (w : Nat) (ws : List Nat) (tail : List Char) :
    ∃ d rest, colonText (w :: ws) ++ ':' :: tail = Nat.toDigits 16 w ++ d :: rest := by
  cases ws with
  | nil => exact ⟨':', tail, by rw [colonText_singleton]⟩
  | cons v ws => exact ⟨':', colonText (v :: ws) ++ ':' :: tail, by simp [colonText_cons_cons]⟩

theorem words?_colonText {ws : List Nat} (hws : ∀ w ∈ ws, w < 65536) (done : List Nat) {fuel : Nat}
    (hfuel : (colonText ws).length ≤ fuel) (hlength : done.length + ws.length ≤ 8) (gap : Option Nat) :
    words? fuel (colonText ws) done gap = some (done ++ ws, gap) := by
  induction ws generalizing fuel done with
  | nil => simp [colonText, words?]
  | cons w ws ih =>
    have hw := hws w List.mem_cons_self
    have hpos := List.length_pos_iff.mpr (colonText_ne_nil w ws)
    obtain ⟨fuel, rfl⟩ : ∃ k, fuel = k + 1 := ⟨fuel - 1, by omega⟩
    simp only [List.length_cons] at hlength
    cases ws with
    | nil => rw [colonText_singleton, words?_last hw (by omega)]
    | cons v ws =>
      rw [colonText_cons_cons, List.length_append, List.length_cons] at hfuel
      rw [colonText_cons_cons, words?_colon hw (by omega) (colonText_ne_nil v ws)]
      rw [ih (fun x hx => hws x (List.mem_cons_of_mem w hx)) _ (by omega) (by simp at hlength ⊢; omega)]
      simp

/-- A double colon stands for one word, and its place is kept. -/
theorem words?_doubleColon {w : Nat} {ws vs : List Nat} (hws : ∀ x ∈ w :: ws, x < 65536) (hvs : ∀ x ∈ vs, x < 65536)
    (done : List Nat) {fuel : Nat} (hfuel : (colonText (w :: ws) ++ ':' :: ':' :: colonText vs).length ≤ fuel)
    (hlength : done.length + (w :: ws).length + 1 + vs.length ≤ 8) :
    words? fuel (colonText (w :: ws) ++ ':' :: ':' :: colonText vs) done none =
      some (done ++ (w :: ws) ++ [0] ++ vs, some (done.length + (w :: ws).length + 1)) := by
  rw [List.length_append, List.length_cons, List.length_cons] at hfuel
  induction ws generalizing w fuel done with
  | nil =>
    have hw := hws w List.mem_cons_self
    simp only [List.length_cons, List.length_nil] at hlength
    obtain ⟨fuel, rfl⟩ : ∃ k, fuel = k + 2 := ⟨fuel - 2, by omega⟩
    rw [colonText_singleton, words?_colon hw (by omega) (by simp)]
    rw [words?_gap (by simp; omega), words?_colonText hvs _ (by omega) (by simp; omega)]
    simp
  | cons v ws ih =>
    have hw := hws w List.mem_cons_self
    simp only [List.length_cons] at hlength
    rw [colonText_cons_cons, List.length_append, List.length_cons] at hfuel
    obtain ⟨fuel, rfl⟩ : ∃ k, fuel = k + 1 := ⟨fuel - 1, by omega⟩
    rw [colonText_cons_cons, List.append_assoc, List.cons_append, words?_colon hw (by omega) (by simp)]
    rw [ih (fun x hx => hws x (List.mem_cons_of_mem w hx)) _ (by omega) (by simp; omega)]
    simp
    omega

/-! ### The run that is left out -/

theorem replicate_leadingZeros (ws : List Nat) :
    ws = List.replicate (leadingZeros ws) 0 ++ ws.drop (leadingZeros ws) := by
  induction ws with
  | nil => rfl
  | cons w ws ih =>
    cases w with
    | zero => simpa [leadingZeros, List.replicate_succ] using ih
    | succ w => simp [leadingZeros]

theorem longestZeros_cons (i w : Nat) (ws : List Nat) : longestZeros i (w :: ws) =
    if leadingZeros (w :: ws) ≥ (longestZeros (i + 1) ws).2 then (i, leadingZeros (w :: ws))
    else longestZeros (i + 1) ws := rfl

theorem longestZeros_spec (i : Nat) (ws : List Nat) :
    ∃ k, (longestZeros i ws).1 = i + k ∧
      ws = ws.take k ++ List.replicate (longestZeros i ws).2 0 ++ ws.drop (k + (longestZeros i ws).2) := by
  induction ws generalizing i with
  | nil => exact ⟨0, rfl, by simp [longestZeros]⟩
  | cons w ws ih =>
    rw [longestZeros_cons]
    by_cases hhere : leadingZeros (w :: ws) ≥ (longestZeros (i + 1) ws).2
    · rw [if_pos hhere]
      exact ⟨0, rfl, by simpa using replicate_leadingZeros (w :: ws)⟩
    · rw [if_neg hhere]
      obtain ⟨k, hstart, hws⟩ := ih (i + 1)
      refine ⟨k + 1, by omega, ?_⟩
      rw [Nat.add_right_comm, List.take_succ_cons, List.drop_succ_cons, List.cons_append, List.cons_append, ← hws]

/-! ### Eight words -/

theorem eightText_toList (words : List Nat) : (eightText words).toList =
    if (longestZeros 0 words).2 < 2 then colonText words
    else colonText (words.take (longestZeros 0 words).1) ++ ':' :: ':' ::
      colonText (words.drop ((longestZeros 0 words).1 + (longestZeros 0 words).2)) := by
  have hcolons (ws : List Nat) : (":".intercalate (ws.map hexText)).toList = colonText ws := by
    simp [String.toList_intercalate, colonText, hexText, Function.comp_def]
  have hcases : eightText words = if (longestZeros 0 words).2 < 2 then ":".intercalate (words.map hexText)
      else ":".intercalate ((words.take (longestZeros 0 words).1).map hexText) ++ "::" ++
        ":".intercalate ((words.drop ((longestZeros 0 words).1 + (longestZeros 0 words).2)).map hexText) := rfl
  rw [hcases, apply_ite String.toList]
  simp only [String.toList_append, hcolons, List.append_assoc]
  rfl

/-- Eight numbers of two bytes. -/
structure IsAddress (words : List Nat) : Prop where
  length_eq : words.length = 8
  lt : ∀ w ∈ words, w < 65536

theorem eight?_word (w : Nat) (d : Char) (rest : List Char) :
    eight? (Nat.toDigits 16 w ++ d :: rest) =
      (words? (Nat.toDigits 16 w ++ d :: rest).length (Nat.toDigits 16 w ++ d :: rest) [] none).bind
        fun r => fill? r.1 r.2 := by
  obtain ⟨c, cs, hcs, hcolon⟩ := toDigits_cons w
  rw [hcs]
  unfold eight?
  split
  · next h =>
    injection h with h
    exact absurd h hcolon
  · next h =>
    injection h with h
    exact absurd h hcolon
  · next h => simp at h
  · next h => simp at h
  · rfl

theorem eight?_colons (rest : List Char) :
    eight? (':' :: ':' :: rest) = (words? rest.length rest [0] (some 1)).bind fun r => fill? r.1 r.2 := rfl

/-- The words before and after a gap, with the zeros of the gap put back. -/
theorem fill?_gap {ws vs : List Nat} {count : Nat} (h : ws.length + count + vs.length = 8) (hcount : 0 < count) :
    fill? (ws ++ [0] ++ vs) (some (ws.length + 1)) = some (ws ++ List.replicate count 0 ++ vs) := by
  have hlength : (ws ++ [0]).length = ws.length + 1 := by simp
  obtain ⟨count, rfl⟩ : ∃ k, count = k + 1 := ⟨count - 1, by omega⟩
  have hmissing : 8 - (ws ++ [0] ++ vs).length = count := by
    simp only [List.length_append, List.length_singleton]
    omega
  rw [fill?, ← hlength, List.take_left, List.drop_left, hmissing, List.replicate_succ]
  simp

theorem eight?_eightText {words : List Nat} (h : IsAddress words) : eight? (eightText words).toList = some words := by
  obtain ⟨hlength, hlt⟩ := h
  rw [eightText_toList]
  by_cases hshort : (longestZeros 0 words).2 < 2
  · rw [if_pos hshort]
    obtain ⟨w, v, ws, rfl⟩ : ∃ w v ws, words = w :: v :: ws := by
      cases words with
      | nil => cases hlength
      | cons w words =>
        cases words with
        | nil => cases hlength
        | cons v ws => exact ⟨w, v, ws, rfl⟩
    have hread := words?_colonText hlt [] (Nat.le_refl _) (by simp at hlength ⊢; omega) none
    rw [colonText_cons_cons] at hread ⊢
    rw [eight?_word, hread]
    simp [fill?, hlength]
  · rw [if_neg hshort]
    obtain ⟨k, hstart, hwords⟩ := longestZeros_spec 0 words
    rw [Nat.zero_add] at hstart
    have htake : ∀ w ∈ words.take k, w < 65536 := fun w hw => hlt w (List.mem_of_mem_take hw)
    have hdrop : ∀ w ∈ words.drop (k + (longestZeros 0 words).2), w < 65536 :=
      fun w hw => hlt w (List.mem_of_mem_drop hw)
    rw [hstart]
    generalize words.take k = ws at *
    generalize words.drop (k + (longestZeros 0 words).2) = vs at *
    generalize (longestZeros 0 words).2 = count at *
    have hcount : ws.length + count + vs.length = 8 := by
      rw [← hlength, hwords, List.length_append, List.length_append, List.length_replicate]
    have hfill := fill?_gap hcount (by omega)
    rw [← hwords] at hfill
    cases ws with
    | nil =>
      have hread := words?_colonText hdrop [0] (Nat.le_refl _) (by simp at hcount ⊢; omega) (some 1)
      rw [show colonText [] = [] from rfl, List.nil_append, eight?_colons, hread]
      exact hfill
    | cons w ws =>
      obtain ⟨d, rest, htext⟩ := colonText_append w ws (':' :: colonText vs)
      have hread := words?_doubleColon htake hdrop [] (Nat.le_refl _) (by simp at hcount ⊢; omega)
      rw [htext] at hread ⊢
      rw [eight?_word, hread]
      simpa using hfill

/-! ### What is read is an address -/

/-- Words that may stand in an address. -/
def Fits (done : List Nat) : Prop := done.length ≤ 8 ∧ ∀ w ∈ done, w < 65536

theorem Fits.append {done words : List Nat} (h : Fits done) (hlength : done.length + words.length ≤ 8)
    (hwords : ∀ w ∈ words, w < 65536) : Fits (done ++ words) :=
  ⟨by simpa using hlength, fun w hw => (List.mem_append.mp hw).elim (h.2 w) (hwords w)⟩

theorem Fits.push {done : List Nat} {w : Nat} (h : Fits done) (hlength : ¬done.length ≥ 8) (hw : w < 65536) :
    Fits (done ++ [w]) :=
  h.append (by simp; omega) (by simpa using hw)

section Read
variable {cs : List Char} {words : List Nat}

theorem byte?_lt {n : Nat} (h : byte? cs = some n) : n < 256 := by
  unfold byte? at h
  split at h
  · cases h
  · simp only [Option.filter_eq_some_iff, decide_eq_true_eq] at h
    exact h.2

theorem tail?_spec (h : tail? cs = some words) : words.length = 2 ∧ ∀ w ∈ words, w < 65536 := by
  unfold tail? at h
  cases hparts : (splitDots cs).mapM byte? with
  | none => simp [hparts] at h
  | some bytes =>
    have hbytes : ∀ n ∈ bytes, n < 256 := fun n hn => by
      obtain ⟨part, -, hpart⟩ := exists_of_mem_mapM hparts hn
      exact byte?_lt hpart
    simp only [hparts, Option.bind_eq_bind, Option.bind_some] at h
    split at h
    · cases h
      simp only [List.mem_cons, List.not_mem_nil, or_false, forall_eq_or_imp, forall_eq] at hbytes
      refine ⟨rfl, ?_⟩
      simp only [List.mem_cons, List.not_mem_nil, or_false, forall_eq_or_imp, forall_eq]
      omega
    · cases h

/-- Four digits at most are read as one word. -/
theorem word_lt (cs : List Char) :
    (number? 16 ((cs.take 4).takeWhile fun c => (digitValue? 16 c).isSome)).getD 0 < 65536 := by
  generalize hdigits : (cs.take 4).takeWhile (fun c => (digitValue? 16 c).isSome) = digits
  have hlength : digits.length ≤ 4 := by
    have htake := (List.takeWhile_sublist (l := cs.take 4) fun c => (digitValue? 16 c).isSome).length_le
    rw [hdigits, List.length_take] at htake
    omega
  cases hn : number? 16 digits with
  | none => simp
  | some n =>
    have hlt := number?_lt hn
    have hpow : 16 ^ digits.length ≤ 16 ^ 4 := Nat.pow_le_pow_right (by omega) hlength
    simp only [Option.getD_some]
    omega

theorem fits_words? {fuel : Nat} {done : List Nat} {gap : Option Nat} {r : List Nat × Option Nat}
    (h : words? fuel cs done gap = some r) (hdone : Fits done) : Fits r.1 := by
  fun_induction words? fuel cs done gap with
  | case1 _ done gap =>
    cases h
    exact hdone
  | case5 fuel c cs done gap hroom _ _ ih => exact ih h (hdone.push hroom (by omega))
  | case6 fuel c cs done gap hroom _ digits value _ =>
    cases h
    exact hdone.push hroom (word_lt (c :: cs))
  | case8 fuel c cs done gap hroom _ digits value rest _ _ ih => exact ih h (hdone.push hroom (word_lt (c :: cs)))
  | case10 fuel c cs done gap hroom _ digits tail _ hsix =>
    obtain ⟨ws, hws, rfl⟩ := Option.map_eq_some_iff.mp h
    obtain ⟨hlength, hlt⟩ := tail?_spec hws
    simp only [Bool.or_eq_true, decide_eq_true_eq, not_or] at hsix
    exact hdone.append (by omega) hlt
  | _ => cases h

theorem isAddress_fill? {done : List Nat} (hdone : Fits done) {gap : Option Nat} (h : fill? done gap = some words) :
    IsAddress words := by
  obtain ⟨hlength, hlt⟩ := hdone
  cases gap with
  | none =>
    simp only [fill?] at h
    split at h
    · next height =>
      cases h
      exact ⟨height, hlt⟩
    · cases h
  | some gap =>
    simp only [fill?] at h
    cases h
    refine ⟨?_, fun w hw => ?_⟩
    · simp only [List.length_append, List.length_take, List.length_replicate, List.length_drop]
      omega
    · simp only [List.mem_append, List.mem_replicate] at hw
      rcases hw with (hw | ⟨-, rfl⟩) | hw
      · exact hlt w (List.mem_of_mem_take hw)
      · omega
      · exact hlt w (List.mem_of_mem_drop hw)

theorem isAddress_of_eight? (h : eight? cs = some words) : IsAddress words := by
  have hread {fuel : Nat} {rest : List Char} {done : List Nat} {gap : Option Nat} (hdone : Fits done)
      (h : ((words? fuel rest done gap).bind fun r => fill? r.1 r.2) = some words) : IsAddress words := by
    obtain ⟨r, hr, hfill⟩ := Option.bind_eq_some_iff.mp h
    exact isAddress_fill? (fits_words? hr hdone) hfill
  unfold eight? at h
  split at h
  · exact hread ⟨by simp, by simp⟩ h
  · cases h
  · cases h
  · cases h
  · exact hread ⟨by simp, by simp⟩ h

end Read

end Address

end PigChain
