import Mathlib.Data.List.TakeWhile
import PigChain.DateTime.Read
import PigChain.Proofs.Calendar

/-!
# Texts of date-times

Main statement: the text of a valid date-time is read, as data gives it, as that date-time. The text has no time zone,
so the strict grammar refuses it, and the loose one finds every field where it was written. Whatever is read, from any
of the grammars or from milliseconds, is valid: a leap second stands at the end of its minute, also in another time
zone.
-/

namespace PigChain.DateTime

/-- A date-time within the calendar; a leap second ends its minute. -/
structure IsValid (t : DateTime) : Prop where
  day : inRange t.day = true
  second : t.second < 86400
  nano : t.nano < 2000000000
  leap : 1000000000 ≤ t.nano → t.second % 60 = 59

/-! ### Digits -/

theorem digitsValue_eq (cs : List Char) : Double.digitsValue cs = Nat.ofDigitChars 10 cs 0 :=
  Nat.ofDigitChars_eq_foldl.symm

theorem toList_padded (width n : Nat) : (padded width n).toList =
    List.replicate (width - (Nat.toDigits 10 n).length) '0' ++ Nat.toDigits 10 n :=
  String.toList_ofList

theorem isDigit_padded {width n : Nat} {c : Char} (h : c ∈ (padded width n).toList) : c.isDigit = true := by
  rw [toList_padded, List.mem_append] at h
  rcases h with h | h
  · rw [(List.mem_replicate.mp h).2]
    rfl
  · exact Nat.isDigit_of_mem_toDigits (by omega) (by omega) h

theorem digitsValue_padded (width n : Nat) : Double.digitsValue (padded width n).toList = n := by
  rw [digitsValue_eq, toList_padded, Nat.ofDigitChars_append, Nat.ofDigitChars_replicate_zero, Nat.mul_zero,
    Nat.ofDigitChars_ten_toDigits]

theorem length_padded {width n : Nat} (h : (Nat.toDigits 10 n).length ≤ width) :
    (padded width n).toList.length = width := by
  rw [toList_padded, List.length_append, List.length_replicate]
  omega

theorem padded_ne_nil (width n : Nat) : (padded width n).toList ≠ [] := by
  rw [toList_padded]
  exact List.append_ne_nil_of_right_ne_nil _ Nat.toDigits_ne_nil

theorem length_toDigits_two {n : Nat} (h : n < 100) : (Nat.toDigits 10 n).length ≤ 2 :=
  (Nat.length_toDigits_le_iff (by omega) (by omega)).mpr (by omega)

theorem isBlank_digit {c : Char} (h : c.isDigit = true) : Text.isBlank c = false := by
  have hc : 48 ≤ c.toNat ∧ c.toNat ≤ 57 := Char.isDigit_iff_toNat.mp h
  simp [Text.isBlank]
  omega

theorem trimStart_padded (width n : Nat) (rest : List Char) :
    Text.trimStart ((padded width n).toList ++ rest) = (padded width n).toList ++ rest := by
  obtain ⟨c, cs, hcs⟩ := List.exists_cons_of_ne_nil (padded_ne_nil width n)
  have hblank : Text.isBlank c = false := isBlank_digit (isDigit_padded (hcs ▸ List.mem_cons_self))
  rw [hcs, List.cons_append, Text.trimStart, List.dropWhile_cons, if_neg (by simp [hblank])]

/-! ### Numbers -/

/-- Digits are read up to the first character that is none, or as many as are taken. -/
theorem number_digits {least most : Nat} {digits rest : List Char} (hdigits : ∀ c ∈ digits, c.isDigit = true)
    (hleast : least ≤ digits.length) (hmost : digits.length ≤ most)
    (hrest : digits.length = most ∨ ∀ c ∈ rest.head?, c.isDigit = false) :
    number least most (digits ++ rest) = some ((Double.digitsValue digits : Int), rest) := by
  have htake : ((digits ++ rest).take most).takeWhile Char.isDigit = digits := by
    rw [List.take_append, List.take_of_length_le hmost, List.takeWhile_append_of_pos hdigits]
    rcases hrest with hfull | hrest
    · simp [hfull]
    · have hstop : (rest.take (most - digits.length)).takeWhile Char.isDigit = [] := by
        cases rest with
        | nil => simp
        | cons c rest =>
          cases most - digits.length with
          | zero => rfl
          | succ k => simp [hrest c rfl]
      rw [hstop, List.append_nil]
  have hlen : ¬digits.length < least := by omega
  simp only [number, htake, hlen, if_false, List.drop_left]

theorem number_padded {least width n : Nat} {rest : List Char} (hn : (Nat.toDigits 10 n).length ≤ width)
    (hleast : least ≤ width) : number least width ((padded width n).toList ++ rest) = some ((n : Int), rest) := by
  have hlen := length_padded hn
  rw [number_digits (fun c hc => isDigit_padded hc) (by omega) (by omega) (.inl hlen), digitsValue_padded]

theorem looseNumber_padded {width n : Nat} {rest : List Char} (hn : (Nat.toDigits 10 n).length ≤ width)
    (hw : 1 ≤ width) : looseNumber width ((padded width n).toList ++ rest) = some ((n : Int), rest) := by
  rw [looseNumber, trimStart_padded, number_padded hn hw]

theorem number_nonneg {least most : Nat} {cs : List Char} {p : Int × List Char} (h : number least most cs = some p) :
    0 ≤ p.1 := by
  simp only [number] at h
  split at h
  · cases h
  · cases h
    exact Int.natCast_nonneg _

theorem ofDigitChars_lt {digits : List Char} (h : ∀ c ∈ digits, c.isDigit = true) (start : Nat) :
    Nat.ofDigitChars 10 digits start < Nat.pow 10 digits.length * (start + 1) := by
  induction digits generalizing start with
  | nil => simp
  | cons c digits ih =>
    have hc : 48 ≤ c.toNat ∧ c.toNat ≤ 57 := Char.isDigit_iff_toNat.mp (h c List.mem_cons_self)
    have hdigit : c.toNat - '0'.toNat ≤ 9 := by
      show c.toNat - 48 ≤ 9
      omega
    rw [Nat.ofDigitChars_cons]
    calc Nat.ofDigitChars 10 digits (10 * start + (c.toNat - '0'.toNat))
        < Nat.pow 10 digits.length * (10 * start + (c.toNat - '0'.toNat) + 1) :=
          ih (fun d hd => h d (List.mem_cons_of_mem c hd)) _
      _ ≤ Nat.pow 10 digits.length * (10 * (start + 1)) := Nat.mul_le_mul_left _ (by omega)
      _ = Nat.pow 10 (digits.length + 1) * (start + 1) := by
          rw [← Nat.mul_assoc]
          rfl

/-- As many digits as are read at most bound the number. -/
theorem number_lt {least most : Nat} {cs : List Char} {p : Int × List Char} (h : number least most cs = some p) :
    p.1 < Nat.pow 10 most := by
  simp only [number] at h
  split at h
  · cases h
  · cases h
    have hall := List.all_takeWhile (p := Char.isDigit) (l := cs.take most)
    have hlen : ((cs.take most).takeWhile Char.isDigit).length ≤ most :=
      Nat.le_trans (List.takeWhile_sublist _).length_le (List.length_take_le _ _)
    have hlt := ofDigitChars_lt (List.all_eq_true.mp hall) 0
    have hpow := Nat.pow_le_pow_right (n := 10) (by decide) hlen
    rw [← digitsValue_eq, Nat.zero_add, Nat.mul_one] at hlt
    exact Int.ofNat_lt.mpr (Nat.lt_of_lt_of_le hlt hpow)

/-! ### Fractions -/

/-- The fraction of a second with its point. -/
def fractionText (nano : Nat) : List Char :=
  if nano = 0 then []
  else if nano % 1000000 = 0 then '.' :: (padded 3 (nano / 1000000)).toList
  else if nano % 1000 = 0 then '.' :: (padded 6 (nano / 1000)).toList
  else '.' :: (padded 9 nano).toList

theorem fraction_point {width n : Nat} (hn : (Nat.toDigits 10 n).length ≤ width) (hw : 1 ≤ width ∧ width ≤ 9) :
    fraction ('.' :: (padded width n).toList) = some ((n * Nat.pow 10 (9 - width) : Int), []) := by
  have hlen := length_padded hn
  have hdigits : ∀ c ∈ (padded width n).toList, c.isDigit = true := fun c hc => isDigit_padded hc
  have hnumber : number 1 9 ((padded width n).toList) = some ((n : Int), []) := by
    rw [← List.append_nil (padded width n).toList, number_digits hdigits (by omega) (by omega) (.inr (by simp)),
      digitsValue_padded]
  have hcount : ((padded width n).toList.take 9).takeWhile Char.isDigit = (padded width n).toList := by
    rw [List.take_of_length_le (by omega)]
    exact List.takeWhile_eq_self_iff.mpr hdigits
  simp only [fraction, hnumber, hcount, hlen, Option.map_some, List.dropWhile_nil]

theorem fraction_text {nano : Nat} (h : nano < 1000000000) :
    fraction (fractionText nano) = some ((nano : Int), []) := by
  have hexact {width n : Nat} (scale : Nat) (hlen : (Nat.toDigits 10 n).length ≤ width) (hw : 1 ≤ width ∧ width ≤ 9)
      (hscale : Nat.pow 10 (9 - width) = scale) (hn : n * scale = nano) :
      fraction ('.' :: (padded width n).toList) = some ((nano : Int), []) := by
    rw [fraction_point hlen hw, hscale, ← hn, Int.natCast_mul]
  unfold fractionText
  split
  · next hzero =>
    rw [hzero]
    rfl
  · split
    · have hlen : (Nat.toDigits 10 (nano / 1000000)).length ≤ 3 :=
        (Nat.length_toDigits_le_iff (by omega) (by omega)).mpr (by omega)
      exact hexact 1000000 hlen (by omega) rfl (by omega)
    · split
      · have hlen : (Nat.toDigits 10 (nano / 1000)).length ≤ 6 :=
          (Nat.length_toDigits_le_iff (by omega) (by omega)).mpr (by omega)
        exact hexact 1000 hlen (by omega) rfl (by omega)
      · have hlen : (Nat.toDigits 10 nano).length ≤ 9 :=
          (Nat.length_toDigits_le_iff (by omega) (by omega)).mpr (by omega)
        exact hexact 1 hlen (by omega) rfl (by omega)

/-! ### Years -/

theorem looseYear_minus (rest : List Char) :
    looseYear ('-' :: rest) = (number 1 rest.length rest).map fun p => (-p.1, p.2) := by
  have htrim : Text.trimStart ('-' :: rest) = '-' :: rest := rfl
  rw [looseYear, htrim]
  rfl

theorem looseYear_plus (rest : List Char) : looseYear ('+' :: rest) = number 1 rest.length rest := by
  have htrim : Text.trimStart ('+' :: rest) = '+' :: rest := rfl
  rw [looseYear, htrim]
  rfl

theorem looseYear_padded (width n : Nat) (rest : List Char) :
    looseYear ((padded width n).toList ++ rest) = number 1 4 ((padded width n).toList ++ rest) := by
  obtain ⟨c, cs, hcs⟩ := List.exists_cons_of_ne_nil (padded_ne_nil width n)
  have hdigit : c.isDigit = true := isDigit_padded (hcs ▸ List.mem_cons_self)
  rw [looseYear, trimStart_padded, hcs]
  split
  · next heq =>
    cases heq
    cases hdigit
  · next heq =>
    cases heq
    cases hdigit
  · rfl

/-- After a sign all digits belong to the year, and the year ends at the mark. -/
theorem number_signed (n : Nat) (rest : List Char) :
    number 1 ((padded 4 n).toList ++ '-' :: rest).length ((padded 4 n).toList ++ '-' :: rest) =
      some ((n : Int), '-' :: rest) := by
  have hlen : 1 ≤ (padded 4 n).toList.length := List.length_pos_iff.mpr (padded_ne_nil 4 n)
  have hstop : ∀ c ∈ ('-' :: rest).head?, c.isDigit = false := by
    intro c hc
    cases hc
    rfl
  rw [number_digits (fun c hc => isDigit_padded hc) hlen (by simp) (.inr hstop), digitsValue_padded]

/-- A year is written with four digits, or with a sign and any number of them. -/
theorem yearText_cases (year : Int) :
    (0 ≤ year ∧ year ≤ 9999 ∧ (yearText year).toList = (padded 4 year.toNat).toList) ∨
      (year < 0 ∧ (yearText year).toList = '-' :: (padded 4 year.natAbs).toList) ∨
      (0 ≤ year ∧ (yearText year).toList = '+' :: (padded 4 year.natAbs).toList) := by
  unfold yearText
  split
  · next hyear => exact .inl ⟨hyear.1, hyear.2, rfl⟩
  · split
    · next hneg => exact .inr (.inl ⟨hneg, by simp⟩)
    · next hneg => exact .inr (.inr ⟨by omega, by simp⟩)

theorem length_toDigits_year {year : Int} (h : year ≤ 9999) : (Nat.toDigits 10 year.toNat).length ≤ 4 :=
  (Nat.length_toDigits_le_iff (by omega) (by omega)).mpr (by omega)

theorem looseYear_yearText (year : Int) (rest : List Char) :
    looseYear ((yearText year).toList ++ '-' :: rest) = some (year, '-' :: rest) := by
  rcases yearText_cases year with ⟨hlow, hhigh, htext⟩ | ⟨hneg, htext⟩ | ⟨hpos, htext⟩
  · rw [htext, looseYear_padded, number_padded (length_toDigits_year hhigh) (by omega), Int.toNat_of_nonneg hlow]
  · have hnat : -(year.natAbs : Int) = year := by omega
    rw [htext, List.cons_append, looseYear_minus, number_signed, Option.map_some, hnat]
  · have hnat : (year.natAbs : Int) = year := by omega
    rw [htext, List.cons_append, looseYear_plus, number_signed, hnat]

/-! ### Texts -/

/-- The text after the year. -/
def afterYear (month day hour minute second : Nat) (fraction : List Char) : List Char :=
  '-' :: ((padded 2 month).toList ++ '-' :: ((padded 2 day).toList ++ 'T' :: ((padded 2 hour).toList ++
    ':' :: ((padded 2 minute).toList ++ ':' :: ((padded 2 second).toList ++ fraction)))))

theorem toList_text {t : DateTime} {year month day : Int} (h : dateOfDay t.day = (year, month, day)) :
    t.text.toList = (yearText year).toList ++ afterYear month.toNat day.toNat (t.second / 3600) (t.second / 60 % 60)
      (t.second % 60 + if t.nano < 1000000000 then 0 else 1) (fractionText (t.nano % 1000000000)) := by
  unfold text secondsText afterYear fractionText
  rw [h]
  simp only [String.toList_append]
  repeat' split
  all_goals simp

theorem option_do_eq {α β : Type} {x : Option α} {f : α → Option β} {a : α} {y : Option β} (hx : x = some a)
    (hf : f a = y) : (x >>= f) = y := by
  rw [hx]
  exact hf

theorem mark_self (c : Char) (rest : List Char) : mark c (c :: rest) = some rest := if_pos rfl

section

variable {year : Int} {month day hour minute second nano : Nat}

theorem read?_lettered (hmonth : month < 100) (hday : day < 100) (hhour : hour < 100) (hminute : minute < 100)
    (hsecond : second < 100) (hnano : nano < 1000000000) :
    Form.lettered.read? ((yearText year).toList ++ afterYear month day hour minute second (fractionText nano)) =
      ofFields? year month day hour minute second nano := by
  have hnumber {n : Nat} {rest : List Char} (hn : n < 100) :
      looseNumber 2 ((padded 2 n).toList ++ rest) = some ((n : Int), rest) :=
    looseNumber_padded (length_toDigits_two hn) (by omega)
  unfold Form.read? afterYear
  refine option_do_eq (looseYear_yearText _ _) ?_
  refine option_do_eq (mark_self '-' _) ?_
  refine option_do_eq (hnumber hmonth) ?_
  refine option_do_eq (mark_self '-' _) ?_
  refine option_do_eq (hnumber hday) ?_
  refine option_do_eq (mark_self 'T' _) ?_
  refine option_do_eq (hnumber hhour) ?_
  refine option_do_eq (mark_self ':' _) ?_
  refine option_do_eq (hnumber hminute) ?_
  refine option_do_eq (mark_self ':' _) ?_
  refine option_do_eq (hnumber hsecond) ?_
  exact option_do_eq (fraction_text hnano) rfl

/-- The strict grammar asks for a time zone at the end, and for a year without a sign at the start. -/
theorem ofZonedText?_eq_none (hmonth : month < 100) (hday : day < 100) (hhour : hour < 100) (hminute : minute < 100)
    (hsecond : second < 100) (hnano : nano < 1000000000) :
    ofZonedText? ((yearText year).toList ++ afterYear month day hour minute second (fractionText nano)) = none := by
  have hnumber {n : Nat} {rest : List Char} (hn : n < 100) :
      number 2 2 ((padded 2 n).toList ++ rest) = some ((n : Int), rest) :=
    number_padded (length_toDigits_two hn) (by omega)
  have hsigned (c : Char) (hc : c.isDigit = false) (rest : List Char) : number 4 4 (c :: rest) = none := by
    simp [number, hc]
  rcases yearText_cases year with ⟨-, hhigh, htext⟩ | ⟨-, htext⟩ | ⟨-, htext⟩
  · rw [htext]
    unfold ofZonedText? afterYear
    refine option_do_eq (number_padded (length_toDigits_year hhigh) (Nat.le_refl 4)) ?_
    refine option_do_eq (mark_self '-' _) ?_
    refine option_do_eq (hnumber hmonth) ?_
    refine option_do_eq (mark_self '-' _) ?_
    refine option_do_eq (hnumber hday) ?_
    dsimp only
    rw [if_pos (.inl rfl)]
    refine option_do_eq rfl ?_
    refine option_do_eq (hnumber hhour) ?_
    refine option_do_eq (mark_self ':' _) ?_
    refine option_do_eq (hnumber hminute) ?_
    refine option_do_eq (mark_self ':' _) ?_
    refine option_do_eq (hnumber hsecond) ?_
    exact option_do_eq (fraction_text hnano) rfl
  · rw [htext, List.cons_append, ofZonedText?, hsigned '-' rfl]
    rfl
  · rw [htext, List.cons_append, ofZonedText?, hsigned '+' rfl]
    rfl

theorem not_isBlank_text : ∀ c ∈ (yearText year).toList ++
    afterYear month day hour minute second (fractionText nano), Text.isBlank c = false := by
  have hpadded (width n : Nat) : ∀ c ∈ (padded width n).toList, Text.isBlank c = false :=
    fun c hc => isBlank_digit (isDigit_padded hc)
  have hyear : ∀ c ∈ (yearText year).toList, Text.isBlank c = false := by
    rcases yearText_cases year with ⟨-, -, htext⟩ | ⟨-, htext⟩ | ⟨-, htext⟩ <;> rw [htext]
    · exact hpadded _ _
    · exact List.forall_mem_cons.mpr ⟨rfl, hpadded _ _⟩
    · exact List.forall_mem_cons.mpr ⟨rfl, hpadded _ _⟩
  have hfraction : ∀ c ∈ fractionText nano, Text.isBlank c = false := by
    unfold fractionText
    split
    · exact List.forall_mem_nil _
    · split
      · exact List.forall_mem_cons.mpr ⟨rfl, hpadded _ _⟩
      · split <;> exact List.forall_mem_cons.mpr ⟨rfl, hpadded _ _⟩
  simp only [afterYear, List.forall_mem_append, List.forall_mem_cons]
  exact ⟨hyear, rfl, hpadded _ _, rfl, hpadded _ _, rfl, hpadded _ _, rfl, hpadded _ _, rfl, hpadded _ _, hfraction⟩

end

theorem trimChars_of_not_isBlank {cs : List Char} (h : ∀ c ∈ cs, Text.isBlank c = false) : Text.trimChars cs = cs := by
  have hstart {ds : List Char} (hds : ∀ c ∈ ds, Text.isBlank c = false) : Text.trimStart ds = ds := by
    cases ds with
    | nil => rfl
    | cons c ds => rw [Text.trimStart, List.dropWhile_cons, if_neg (by simp [hds c List.mem_cons_self])]
  rw [Text.trimChars, hstart h, hstart fun c hc => h c (List.mem_reverse.mp hc), List.reverse_reverse]

/-- The date-time of a date and of the parts of a second of its day. -/
theorem ofFields?_eq {year month day : Int} {second nano leap : Nat} (hmonth : 1 ≤ month ∧ month ≤ 12)
    (hday : 1 ≤ day ∧ day ≤ monthLength year month) (hrange : inRange (dayOfDate year month day) = true)
    (hsecond : second < 86400) (hnano : nano < 1000000000) (hleap : leap = 0 ∨ leap = 1 ∧ second % 60 = 59) :
    ofFields? year month day (second / 3600 : Nat) (second / 60 % 60 : Nat) (second % 60 + leap : Nat) nano =
      some ⟨dayOfDate year month day, second, nano + leap * 1000000000⟩ := by
  have hhour : second / 3600 < 24 := by omega
  have hminute : second / 60 % 60 < 60 := by omega
  have hclock : second / 3600 * 3600 + second / 60 % 60 * 60 + second % 60 = second := by omega
  have hsixty : second % 60 + leap ≤ 60 := by omega
  generalize second / 3600 = h at hhour hclock ⊢
  generalize second / 60 % 60 = m at hminute hclock ⊢
  unfold ofFields?
  simp only
  rw [if_pos ⟨hmonth.1, hmonth.2, hday.1, hday.2, hrange, by omega, by omega, by omega, by omega, by omega, by omega,
    by omega, by omega⟩]
  rcases hleap with rfl | ⟨rfl, hlast⟩
  · have hseconds : ((h : Int) * 3600 + m * 60 + ((second % 60 + 0 : Nat) : Int)).toNat = second := by omega
    rw [if_neg (by omega), if_neg (by omega), hseconds]
    simp
  · have hseconds : ((h : Int) * 3600 + m * 60 + 59).toNat = second := by omega
    have hnanos : ((nano : Int) + 1000000000).toNat = nano + 1 * 1000000000 := by omega
    rw [if_pos (by omega), if_pos (by omega), hseconds, hnanos]

/-- The text of a date-time is read as that date-time. -/
theorem ofData?_text {t : DateTime} (h : t.IsValid) : ofData? t.text = some t := by
  obtain ⟨year, month, day, hdate, hmonth, hday, hsame⟩ := dateOfDay_spec t.day
  have hlength := monthLength_le year month
  have hday' : day.toNat < 100 := by omega
  have hleap : (if t.nano < 1000000000 then 0 else 1) = 0 ∨
      (if t.nano < 1000000000 then 0 else 1) = 1 ∧ t.second % 60 = 59 := by
    split
    · exact .inl rfl
    · exact .inr ⟨rfl, h.leap (by omega)⟩
  have hnano : t.nano = t.nano % 1000000000 + (if t.nano < 1000000000 then 0 else 1) * 1000000000 := by
    have := h.nano
    split <;> omega
  have hfields := ofFields?_eq hmonth hday (hsame ▸ h.day) h.second (Nat.mod_lt t.nano (by decide)) hleap
  rw [← hnano, hsame] at hfields
  have hclock : t.second % 60 + (if t.nano < 1000000000 then 0 else 1) < 100 := by omega
  have hsecond := h.second
  rw [ofData?, toList_text hdate, trimChars_of_not_isBlank not_isBlank_text,
    ofZonedText?_eq_none (by omega) hday' (by omega) (by omega) hclock (by omega),
    read?_lettered (by omega) hday' (by omega) (by omega) hclock (by omega), Int.toNat_of_nonneg (by omega),
    Int.toNat_of_nonneg (by omega), hfields]
  rfl

/-! ### What is read -/

theorem ofFields?_eq_some {year month day hour minute second nano : Int} {t : DateTime}
    (h : ofFields? year month day hour minute second nano = some t) :
    t.IsValid ∧ t.day = dayOfDate year month day ∧ (1 ≤ month ∧ month ≤ 12) ∧
      1 ≤ day ∧ day ≤ monthLength year month := by
  unfold ofFields? at h
  simp only at h
  split at h
  · next hfields =>
    obtain ⟨hmonth₁, hmonth₂, hday₁, hday₂, hrange, hfields⟩ := hfields
    cases h
    refine ⟨⟨hrange, ?_, ?_, ?_⟩, rfl, ⟨hmonth₁, hmonth₂⟩, hday₁, hday₂⟩
    · simp only
      split <;> omega
    · simp only
      split <;> omega
    · simp only
      intro hleap
      split at hleap
      · next hsixty =>
        rw [if_pos hsixty]
        omega
      · omega
  · cases h

theorem isValid_ofEpochMillis? {millis : Int} {t : DateTime} (h : ofEpochMillis? millis = some t) : t.IsValid := by
  unfold ofEpochMillis? at h
  simp only at h
  split at h
  · next hrange =>
    cases h
    refine ⟨hrange, ?_, ?_, fun hleap => ?_⟩
    · simp only
      omega
    · simp only
      omega
    · simp only at hleap
      omega
  · cases h

theorem isValid_read? {f : Form} {cs : List Char} {t : DateTime} (h : f.read? cs = some t) : t.IsValid := by
  unfold Form.read? at h
  obtain ⟨_, -, h⟩ := Option.bind_eq_some_iff.mp h
  obtain ⟨_, -, h⟩ := Option.bind_eq_some_iff.mp h
  obtain ⟨_, -, h⟩ := Option.bind_eq_some_iff.mp h
  obtain ⟨_, -, h⟩ := Option.bind_eq_some_iff.mp h
  obtain ⟨_, -, h⟩ := Option.bind_eq_some_iff.mp h
  obtain ⟨_, -, h⟩ := Option.bind_eq_some_iff.mp h
  obtain ⟨_, -, h⟩ := Option.bind_eq_some_iff.mp h
  obtain ⟨_, -, h⟩ := Option.bind_eq_some_iff.mp h
  obtain ⟨_, -, h⟩ := Option.bind_eq_some_iff.mp h
  obtain ⟨_, -, h⟩ := Option.bind_eq_some_iff.mp h
  obtain ⟨_, -, h⟩ := Option.bind_eq_some_iff.mp h
  obtain ⟨_, -, h⟩ := Option.bind_eq_some_iff.mp h
  dsimp only at h
  split at h
  · exact (ofFields?_eq_some h).1
  · cases h

theorem offset?_eq_some {cs rest : List Char} {seconds : Int} (h : offset? cs = some (seconds, rest)) :
    seconds % 60 = 0 ∧ -86400 < seconds ∧ seconds < 86400 := by
  cases cs with
  | nil => cases h
  | cons c cs =>
    simp only [offset?] at h
    split at h
    · cases h
      decide
    · split at h
      · simp only [Option.bind_eq_bind, Option.bind_eq_some_iff] at h
        obtain ⟨⟨hours, cs₁⟩, hhours, cs₂, -, ⟨minutes, cs₃⟩, hminutes, h⟩ := h
        have hh := number_nonneg hhours
        have hm := number_nonneg hminutes
        simp only at hh hm h
        split at h
        · cases h
        · simp only [Option.some.injEq, Prod.mk.injEq] at h
          obtain ⟨rfl, -⟩ := h
          split <;> omega
      · cases h

/-- A shift by whole minutes leaves a leap second at the end of its minute. -/
theorem IsValid.minusSeconds {t : DateTime} (h : t.IsValid) {seconds : Int} (hminutes : seconds % 60 = 0)
    (hseconds : -86400 < seconds ∧ seconds < 86400) (hday : -1000000 ≤ t.day ∧ t.day ≤ 4000000) :
    (t.minusSeconds seconds).IsValid := by
  have hsecond := h.second
  refine ⟨inRange_iff.mpr ?_, ?_, h.nano, fun hleap => ?_⟩
  · simp only [DateTime.minusSeconds]
    omega
  · simp only [DateTime.minusSeconds]
    omega
  · have hlast := h.leap hleap
    simp only [DateTime.minusSeconds]
    omega

theorem isValid_ofZonedText? {cs : List Char} {t : DateTime} (h : ofZonedText? cs = some t) : t.IsValid := by
  unfold ofZonedText? at h
  obtain ⟨⟨year, _⟩, hyear, h⟩ := Option.bind_eq_some_iff.mp h
  obtain ⟨_, -, h⟩ := Option.bind_eq_some_iff.mp h
  obtain ⟨⟨month, _⟩, -, h⟩ := Option.bind_eq_some_iff.mp h
  obtain ⟨_, -, h⟩ := Option.bind_eq_some_iff.mp h
  obtain ⟨⟨day, _⟩, -, h⟩ := Option.bind_eq_some_iff.mp h
  -- What divides date and time is looked at here; the rest of the text comes after it.
  dsimp only at h
  split at h
  · split at h
    · obtain ⟨_, -, h⟩ := Option.bind_eq_some_iff.mp h
      obtain ⟨⟨hour, _⟩, -, h⟩ := Option.bind_eq_some_iff.mp h
      obtain ⟨_, -, h⟩ := Option.bind_eq_some_iff.mp h
      obtain ⟨⟨minute, _⟩, -, h⟩ := Option.bind_eq_some_iff.mp h
      obtain ⟨_, -, h⟩ := Option.bind_eq_some_iff.mp h
      obtain ⟨⟨second, _⟩, -, h⟩ := Option.bind_eq_some_iff.mp h
      obtain ⟨⟨nano, _⟩, -, h⟩ := Option.bind_eq_some_iff.mp h
      obtain ⟨⟨offset, rest⟩, hoffset, h⟩ := Option.bind_eq_some_iff.mp h
      dsimp only at h
      split at h
      · obtain ⟨s, hs, rfl⟩ := Option.map_eq_some_iff.mp h
        obtain ⟨hvalid, hsame, hmonth, hday⟩ := ofFields?_eq_some hs
        obtain ⟨hminutes, hseconds⟩ := offset?_eq_some hoffset
        have hbounds := dayOfDate_bounds ⟨number_nonneg hyear, number_lt hyear⟩ hmonth
          ⟨hday.1, Int.le_trans hday.2 (monthLength_le _ _)⟩
        exact hvalid.minusSeconds hminutes hseconds (hsame ▸ hbounds)
      · cases h
    · cases h
  · cases h

theorem isValid_ofData? {s : String} {t : DateTime} (h : ofData? s = some t) : t.IsValid := by
  simp only [ofData?, Option.orElse_eq_orElse, Option.orElse_eq_or, Option.or_eq_some_iff] at h
  rcases h with h | ⟨-, h | ⟨-, h⟩⟩
  · exact isValid_ofZonedText? h
  · exact isValid_read? h
  · exact isValid_read? h

end PigChain.DateTime
