import PigChain.Url.Form

/-!
# Form encoding reads back

Main statement: the pairs of a query that was written from a list of pairs are these pairs. It goes through
bytes: characters from their UTF-8, bytes from their escapes, parts from the text between separators.
-/

namespace PigChain

namespace Utf8

/-! ### One character from its bytes -/

theorem toNat_lt (c : Char) : c.toNat < 0x110000 := by
  rcases c.valid with h | h
  · exact Nat.lt_trans h (by decide)
  · exact h.2

theorem toNat_ofNat {n : Nat} (h : n < 0xD800) : (Char.ofNat n).toNat = n := by
  rw [Char.ofNat, dif_pos (.inl h)]
  rfl

section First
variable {x a b d : UInt8} {c : Char} {rest : List UInt8}

theorem follows_iff : follows x a = true ↔
    if x.toNat = 0xE0 then 0xA0 ≤ a.toNat ∧ a.toNat < 0xC0
    else if x.toNat = 0xED then 0x80 ≤ a.toNat ∧ a.toNat < 0xA0
    else if x.toNat = 0xF0 then 0x90 ≤ a.toNat ∧ a.toNat < 0xC0
    else if x.toNat = 0xF4 then 0x80 ≤ a.toNat ∧ a.toNat < 0x90
    else 0xC2 ≤ x.toNat ∧ x.toNat < 0xF5 ∧ 0x80 ≤ a.toNat ∧ a.toNat < 0xC0 := by
  simp only [follows, isContinuation, beq_iff_eq, ← UInt8.toNat_inj, UInt8.le_iff_toNat_le,
    UInt8.lt_iff_toNat_lt]
  simp only [apply_ite (· = true), Bool.and_eq_true, decide_eq_true_eq, and_assoc]
  rfl

theorem isContinuation_iff : isContinuation a = true ↔ 0x80 ≤ a.toNat ∧ a.toNat < 0xC0 := by
  simp only [isContinuation, UInt8.le_iff_toNat_le, UInt8.lt_iff_toNat_lt, Bool.and_eq_true,
    decide_eq_true_eq]
  rfl

theorem codePoint_eq {lead : Nat} {more : List UInt8}
    (h : more.foldl (fun n b => n * 64 + b.toNat % 64) (x.toNat % Nat.pow 2 lead) = c.toNat) :
    codePoint lead x more = c := by
  rw [codePoint, h, Char.ofNat_toNat]

theorem first_one (hx : x.toNat = c.toNat) (hc : c.toNat < 128) : first x rest = (c, 0) := by
  have hone : x < 0x80 := UInt8.lt_iff_toNat_lt.mpr (hx ▸ hc)
  simp [first, hone, hx]

theorem first_two (hx : x.toNat = c.toNat / 64 + 192) (ha : a.toNat = c.toNat % 64 + 128)
    (hlow : 128 ≤ c.toNat) (hhigh : c.toNat < 2048) : first x (a :: rest) = (c, 1) := by
  have hpoint : codePoint 5 x [a] = c := by
    refine codePoint_eq ?_
    have hpow : Nat.pow 2 5 = 32 := rfl
    simp only [List.foldl_cons, List.foldl_nil, hx, ha, hpow]
    omega
  have hfollows : follows x a = true := by
    rw [follows_iff, hx, ha]
    grind
  have hmany : ¬x < 0x80 := UInt8.not_lt.mpr (UInt8.le_iff_toNat_le.mpr (show 128 ≤ x.toNat by omega))
  have htwo : x < 0xE0 := UInt8.lt_iff_toNat_lt.mpr (show x.toNat < 224 by omega)
  simp [first, hmany, hfollows, htwo, hpoint]

theorem first_three (hx : x.toNat = c.toNat / 4096 + 224) (ha : a.toNat = c.toNat / 64 % 64 + 128)
    (hb : b.toNat = c.toNat % 64 + 128) (hlow : 2048 ≤ c.toNat) (hhigh : c.toNat < 65536) :
    first x (a :: b :: rest) = (c, 2) := by
  have hpoint : codePoint 4 x [a, b] = c := by
    refine codePoint_eq ?_
    have hpow : Nat.pow 2 4 = 16 := rfl
    simp only [List.foldl_cons, List.foldl_nil, hx, ha, hb, hpow]
    omega
  -- Surrogates are no characters, so the second byte after 0xED stays low.
  have hvalid : c.toNat < 0xD800 ∨ 0xDFFF < c.toNat := c.valid.imp id And.left
  have hfollows : follows x a = true := by
    rw [follows_iff, hx, ha]
    grind
  have hlast : isContinuation b = true := isContinuation_iff.mpr (by omega)
  have hmany : ¬x < 0x80 := UInt8.not_lt.mpr (UInt8.le_iff_toNat_le.mpr (show 128 ≤ x.toNat by omega))
  have htwo : ¬x < 0xE0 := UInt8.not_lt.mpr (UInt8.le_iff_toNat_le.mpr (show 224 ≤ x.toNat by omega))
  have hthree : x < 0xF0 := UInt8.lt_iff_toNat_lt.mpr (show x.toNat < 240 by omega)
  simp [first, hmany, hfollows, htwo, hlast, hthree, hpoint]

theorem first_four (hx : x.toNat = c.toNat / 262144 + 240) (ha : a.toNat = c.toNat / 4096 % 64 + 128)
    (hb : b.toNat = c.toNat / 64 % 64 + 128) (hd : d.toNat = c.toNat % 64 + 128) (hlow : 65536 ≤ c.toNat) :
    first x (a :: b :: d :: rest) = (c, 3) := by
  have hhigh := toNat_lt c
  have hpoint : codePoint 3 x [a, b, d] = c := by
    refine codePoint_eq ?_
    have hpow : Nat.pow 2 3 = 8 := rfl
    simp only [List.foldl_cons, List.foldl_nil, hx, ha, hb, hd, hpow]
    omega
  have hfollows : follows x a = true := by
    rw [follows_iff, hx, ha]
    grind
  have hthird : isContinuation b = true := isContinuation_iff.mpr (by omega)
  have hlast : isContinuation d = true := isContinuation_iff.mpr (by omega)
  have hmany : ¬x < 0x80 := UInt8.not_lt.mpr (UInt8.le_iff_toNat_le.mpr (show 128 ≤ x.toNat by omega))
  have htwo : ¬x < 0xE0 := UInt8.not_lt.mpr (UInt8.le_iff_toNat_le.mpr (show 224 ≤ x.toNat by omega))
  have hthree : ¬x < 0xF0 := UInt8.not_lt.mpr (UInt8.le_iff_toNat_le.mpr (show 240 ≤ x.toNat by omega))
  simp [first, hmany, hfollows, htwo, hthird, hthree, hlast, hpoint]

end First

/-- The bytes of a character stand for it, whatever comes after them. -/
theorem first_encodeChar (c : Char) : ∃ x more, String.utf8EncodeChar c = x :: more ∧
    ∀ rest, first x (more ++ rest) = (c, more.length) := by
  have hbyte {n m : Nat} (h : n = m) (hm : m < 256) : (UInt8.ofNat n).toNat = m :=
    h ▸ UInt8.toNat_ofNat_of_lt' (h ▸ hm)
  have hv : c.val.toNat = c.toNat := rfl
  have hhigh : c.toNat < 0x110000 := toNat_lt c
  by_cases h1 : c.toNat ≤ 127
  · refine ⟨UInt8.ofNat c.toNat, [], by simp [String.utf8EncodeChar, hv, h1], fun rest => ?_⟩
    exact first_one (hbyte rfl (by omega)) (by omega)
  by_cases h2 : c.toNat ≤ 2047
  · have hbytes : String.utf8EncodeChar c =
        [UInt8.ofNat (c.toNat / 64 % 32 + 192), UInt8.ofNat (c.toNat % 64 + 128)] := by
      simp only [String.utf8EncodeChar, hv, h1, h2, if_true, if_false]
    refine ⟨_, _, hbytes, fun rest => ?_⟩
    exact first_two (hbyte (by omega) (by omega)) (hbyte rfl (by omega)) (by omega) (by omega)
  by_cases h3 : c.toNat ≤ 65535
  · have hbytes : String.utf8EncodeChar c = [UInt8.ofNat (c.toNat / 4096 % 16 + 224),
        UInt8.ofNat (c.toNat / 64 % 64 + 128), UInt8.ofNat (c.toNat % 64 + 128)] := by
      simp only [String.utf8EncodeChar, hv, h1, h2, h3, if_true, if_false]
    refine ⟨_, _, hbytes, fun rest => ?_⟩
    exact first_three (hbyte (by omega) (by omega)) (hbyte rfl (by omega)) (hbyte rfl (by omega)) (by omega)
      (by omega)
  · have hbytes : String.utf8EncodeChar c = [UInt8.ofNat (c.toNat / 262144 % 8 + 240),
        UInt8.ofNat (c.toNat / 4096 % 64 + 128), UInt8.ofNat (c.toNat / 64 % 64 + 128),
        UInt8.ofNat (c.toNat % 64 + 128)] := by
      simp only [String.utf8EncodeChar, hv, h1, h2, h3, if_false]
    refine ⟨_, _, hbytes, fun rest => ?_⟩
    exact first_four (hbyte (by omega) (by omega)) (hbyte rfl (by omega)) (hbyte rfl (by omega))
      (hbyte rfl (by omega)) (by omega)

theorem decodeFrom_append (more rest : List UInt8) : decodeFrom more.length (more ++ rest) = decodeFrom 0 rest := by
  induction more with
  | nil => rfl
  | cons b more ih => exact ih

theorem decode_encode (cs : List Char) : decode (encode cs) = cs := by
  induction cs with
  | nil => rfl
  | cons c cs ih =>
    obtain ⟨x, more, hbytes, hfirst⟩ := first_encodeChar c
    have hencode : encode (c :: cs) = x :: (more ++ encode cs) := by simp [encode, hbytes]
    rw [hencode, decode, decodeFrom, hfirst]
    exact congrArg (c :: ·) ((decodeFrom_append more (encode cs)).trans ih)

/-! ### Plain text -/

theorem encode_append (cs ds : List Char) : encode (cs ++ ds) = encode cs ++ encode ds := List.flatMap_append

/-- ASCII text is its own bytes. -/
theorem encode_ascii {cs : List Char} (h : ∀ c ∈ cs, c.toNat < 128) :
    encode cs = cs.map fun c => UInt8.ofNat c.toNat := by
  induction cs with
  | nil => rfl
  | cons c cs ih =>
    have hc : c.val.toNat ≤ 127 := Nat.le_of_lt_succ (h c List.mem_cons_self)
    have hhead : String.utf8EncodeChar c = [UInt8.ofNat c.toNat] := by
      simp only [String.utf8EncodeChar, hc, if_true]
      rfl
    have htail := ih fun d hd => h d (List.mem_cons_of_mem c hd)
    simp only [encode] at htail
    simp [encode, hhead, htail]

end Utf8

namespace Form

/-! ### Bytes from their escapes -/

theorem hexDigit_spec {n : Nat} (h : n < 16) : (hexDigit n).isAlphanum = true ∧
    hexValue? (UInt8.ofNat (hexDigit n).toNat) = some n ∧ UInt8.ofNat (hexDigit n).toNat ≠ 0x2B := by
  revert n
  decide

theorem isAlphanum_iff {c : Char} : c.isAlphanum = true ↔
    (65 ≤ c.toNat ∧ c.toNat ≤ 90 ∨ 97 ≤ c.toNat ∧ c.toNat ≤ 122) ∨ 48 ≤ c.toNat ∧ c.toNat ≤ 57 := by
  have hform : c.isAlphanum = (decide (65 ≤ c.val ∧ c.val ≤ 90) || (97 ≤ c.val && c.val ≤ 122) ||
      (48 ≤ c.val && c.val ≤ 57)) := rfl
  simp only [hform, Bool.or_eq_true, Bool.and_eq_true, decide_eq_true_eq, UInt32.le_iff_toNat_le]
  rfl

/-- Characters that a name or value is written with. -/
def isWritten (c : Char) : Bool := c.isAlphanum || ['%', '*', '+', '-', '.', '_'].contains c

theorem isWritten_iff {c : Char} : isWritten c = true ↔ c.isAlphanum = true ∨ c = '%' ∨ c = '*' ∨ c = '+' ∨
    c = '-' ∨ c = '.' ∨ c = '_' := by
  simp [isWritten]

theorem isWritten_spec {c : Char} (h : isWritten c = true) :
    32 < c.toNat ∧ c.toNat < 127 ∧ c ≠ '#' ∧ c ≠ '&' ∧ c ≠ '=' := by
  rcases isWritten_iff.mp h with h | rfl | rfl | rfl | rfl | rfl | rfl
  · have hc := isAlphanum_iff.mp h
    refine ⟨by omega, by omega, ?_, ?_, ?_⟩ <;> rintro rfl <;> contradiction
  all_goals decide

theorem isWritten_encodeByte {b : UInt8} {c : Char} (h : c ∈ encodeByte b) : isWritten c = true := by
  have hb : b.toNat < 256 := b.toNat_lt
  rw [isWritten_iff]
  unfold encodeByte at h
  split at h
  · next hplain =>
    simp only [isPlain, Bool.and_eq_true, Bool.or_eq_true, beq_iff_eq, ← List.mem_singleton.mp h] at hplain
    obtain ⟨-, (((hc | hc) | hc) | hc) | hc⟩ := hplain <;> simp [hc]
  · split at h
    · simp [List.mem_singleton.mp h]
    · simp only [percent, List.mem_cons, List.not_mem_nil, or_false] at h
      rcases h with rfl | rfl | rfl
      · simp
      · exact .inl (hexDigit_spec (by omega)).1
      · exact .inl (hexDigit_spec (by omega)).1

theorem unescape_cons {b : UInt8} (h : b ≠ 0x25) (rest : List UInt8) : unescape (b :: rest) = b :: unescape rest := by
  rw [unescape.eq_3]
  intro a c tail hb
  exact absurd hb h

/-- What a byte is written as, read after plus signs were taken as spaces. -/
theorem unescape_encodeByte (b : UInt8) (rest : List UInt8) :
    unescape (((encodeByte b).map fun c => UInt8.ofNat c.toNat).map (fun b => if b == 0x2B then 0x20 else b) ++ rest) =
      b :: unescape rest := by
  have hb : b.toNat < 256 := b.toNat_lt
  unfold encodeByte
  by_cases hplain : isPlain b = true
  · have hsmall : b < 128 := by
      simp only [isPlain, Bool.and_eq_true, decide_eq_true_eq] at hplain
      exact hplain.1
    have hchar : (Char.ofNat b.toNat).toNat = b.toNat := by
      have hn : b.toNat < 128 := UInt8.lt_iff_toNat_lt.mp hsmall
      exact Utf8.toNat_ofNat (by omega)
    have hpercent : b ≠ 0x25 := by
      rintro rfl
      contradiction
    have hplus : b ≠ 0x2B := by
      rintro rfl
      contradiction
    simp [hplain, hchar, hplus, unescape_cons hpercent]
  by_cases hspace : b = 0x20
  · subst hspace
    exact unescape_cons (by decide) rest
  · obtain ⟨-, hx, hxp⟩ := hexDigit_spec (n := b.toNat / 16) (by omega)
    obtain ⟨-, hy, hyp⟩ := hexDigit_spec (n := b.toNat % 16) (by omega)
    have hvalue : UInt8.ofNat (b.toNat / 16 * 16 + b.toNat % 16) = b := by
      rw [Nat.div_add_mod' b.toNat 16, UInt8.ofNat_toNat]
    simp [hplain, hspace, percent, hxp, hyp, unescape, hx, hy, hvalue]

/-! ### Names and values -/

theorem encode_toList (s : String) : (encode s).toList = (Utf8.encode s.toList).flatMap encodeByte := by
  simp [encode]

theorem isWritten_encode {s : String} {c : Char} (h : c ∈ (encode s).toList) : isWritten c = true := by
  rw [encode_toList] at h
  obtain ⟨b, -, hc⟩ := List.mem_flatMap.mp h
  exact isWritten_encodeByte hc

theorem bytes_encode (s : String) :
    Utf8.encode (encode s).toList = (encode s).toList.map fun c => UInt8.ofNat c.toNat :=
  Utf8.encode_ascii fun c hc => by
    have := isWritten_spec (isWritten_encode hc)
    omega

theorem unescape_bytes (bs : List UInt8) :
    unescape (((bs.flatMap encodeByte).map fun c => UInt8.ofNat c.toNat).map
      fun b => if b == 0x2B then 0x20 else b) = bs := by
  induction bs with
  | nil => rfl
  | cons b bs ih => rw [List.flatMap_cons, List.map_append, List.map_append, unescape_encodeByte, ih]

theorem decode_encode (s : String) : decode (Utf8.encode (encode s).toList) = s := by
  rw [decode, bytes_encode, encode_toList, unescape_bytes, Utf8.decode_encode, String.ofList_toList]

/-- A separator is no byte of a name or value. -/
theorem notMem_bytes_encode {s : String} {separator : Char} (hs : separator = '&' ∨ separator = '=') :
    UInt8.ofNat separator.toNat ∉ Utf8.encode (encode s).toList := by
  rw [bytes_encode]
  intro h
  obtain ⟨c, hc, heq⟩ := List.mem_map.mp h
  have hspec := isWritten_spec (isWritten_encode hc)
  have hnat : c.toNat = separator.toNat := by
    have := congrArg UInt8.toNat heq
    rw [UInt8.toNat_ofNat_of_lt' (show c.toNat < 256 by omega)] at this
    rcases hs with rfl | rfl <;> exact this
  have hchar : c = separator := Char.toNat_inj.mp hnat
  grind

/-! ### Parts between separators -/

theorem splitOn_of_notMem {separator : UInt8} {part : List UInt8} (h : separator ∉ part) :
    splitOn separator part = [part] := by
  induction part with
  | nil => rfl
  | cons b part ih =>
    rw [List.mem_cons, not_or] at h
    simp [splitOn, Ne.symm h.1, ih h.2]

theorem splitOn_append {separator : UInt8} {part : List UInt8} (h : separator ∉ part) (rest : List UInt8) :
    splitOn separator (part ++ separator :: rest) = part :: splitOn separator rest := by
  induction part with
  | nil => simp [splitOn]
  | cons b part ih =>
    rw [List.mem_cons, not_or] at h
    simp [splitOn, Ne.symm h.1, ih h.2]

/-! ### Pairs -/

theorem bytes_encodePair (p : Pair) : Utf8.encode (encodePair p).toList =
    Utf8.encode (encode p.1).toList ++ 0x3D :: Utf8.encode (encode p.2).toList := by
  have hsign : Utf8.encode ("=" : String).toList = [0x3D] := by decide
  simp only [encodePair, String.toList_append, Utf8.encode_append, hsign]
  simp

theorem decodePair_bytes (p : Pair) : decodePair (Utf8.encode (encodePair p).toList) = p := by
  have hname : (0x3D : UInt8) ∉ Utf8.encode (encode p.1).toList := notMem_bytes_encode (.inr rfl)
  have hall : ∀ b ∈ Utf8.encode (encode p.1).toList, (b != 0x3D) = true := fun b hb => by
    simpa using ne_of_mem_of_not_mem hb hname
  simp [decodePair, bytes_encodePair, List.takeWhile_append_of_pos hall, List.dropWhile_append_of_pos hall, decode_encode]

theorem notMem_bytes_encodePair (p : Pair) : (0x26 : UInt8) ∉ Utf8.encode (encodePair p).toList := by
  have hname : (0x26 : UInt8) ∉ Utf8.encode (encode p.1).toList := notMem_bytes_encode (.inl rfl)
  have hvalue : (0x26 : UInt8) ∉ Utf8.encode (encode p.2).toList := notMem_bytes_encode (.inl rfl)
  simp [bytes_encodePair, hname, hvalue]

theorem write_cons_cons (p q : Pair) (pairs : List Pair) :
    (write (p :: q :: pairs)).toList = (encodePair p).toList ++ '&' :: (write (q :: pairs)).toList := by
  simp [write, String.intercalate_cons_cons]

theorem splitOn_write (p : Pair) (pairs : List Pair) :
    splitOn 0x26 (Utf8.encode (write (p :: pairs)).toList) =
      (p :: pairs).map fun p => Utf8.encode (encodePair p).toList := by
  induction pairs generalizing p with
  | nil => simp [write, splitOn_of_notMem (notMem_bytes_encodePair p)]
  | cons q pairs ih =>
    have hsign : Utf8.encode ['&'] = [0x26] := by decide
    rw [write_cons_cons, List.append_cons, Utf8.encode_append, Utf8.encode_append, hsign, List.append_assoc]
    rw [List.singleton_append, splitOn_append (notMem_bytes_encodePair p), ih q]
    rfl

theorem read_write (pairs : List Pair) : read (write pairs) = pairs := by
  cases pairs with
  | nil => rfl
  | cons p pairs =>
    have hparts : ((p :: pairs).map fun p => Utf8.encode (encodePair p).toList).filter (fun part => !part.isEmpty) =
        (p :: pairs).map fun p => Utf8.encode (encodePair p).toList := by
      refine List.filter_eq_self.mpr fun part hpart => ?_
      obtain ⟨q, -, rfl⟩ := List.mem_map.mp hpart
      simp [bytes_encodePair]
    rw [read, splitOn_write, hparts, List.map_map]
    exact List.map_id'' decodePair_bytes (p :: pairs)

/-- A query is plain text without a hash sign. -/
theorem write_chars {pairs : List Pair} {c : Char} (h : c ∈ (write pairs).toList) :
    32 < c.toNat ∧ c.toNat < 127 ∧ c ≠ '#' := by
  have hpart {s : String} (hc : c ∈ (encode s).toList) : 32 < c.toNat ∧ c.toNat < 127 ∧ c ≠ '#' := by
    obtain ⟨hlow, hhigh, hhash, -⟩ := isWritten_spec (isWritten_encode hc)
    exact ⟨hlow, hhigh, hhash⟩
  have hpair {p : Pair} (hc : c ∈ (encodePair p).toList) : 32 < c.toNat ∧ c.toNat < 127 ∧ c ≠ '#' := by
    simp only [encodePair, String.toList_append, List.mem_append] at hc
    rcases hc with (hc | hc) | hc
    · exact hpart hc
    · obtain rfl : c = '=' := by simpa using hc
      decide
    · exact hpart hc
  induction pairs with
  | nil => simp [write] at h
  | cons p pairs ih =>
    cases pairs with
    | nil => exact hpair (by simpa [write] using h)
    | cons q pairs =>
      rw [write_cons_cons, List.mem_append, List.mem_cons] at h
      rcases h with h | rfl | h
      · exact hpair h
      · decide
      · exact ih h

end Form

end PigChain
