import PigChain.Mart.Url
import PigChain.Proofs.AddressText
import PigChain.Proofs.FormText

/-!
# Hosts read back

A host that was read, of whatever scheme, is plain text without the characters that divide a URL, or an address
between brackets. Main statement: such a host, also in lower case, is read as itself where hosts are taken as
they stand.
-/

namespace PigChain

theorem ascii_cases {P : Char → Prop} (h : ∀ n < 128, P (Char.ofNat n)) {c : Char} (hc : c.toNat < 128) : P c := by
  have := h c.toNat hc
  rwa [Char.ofNat_toNat] at this

theorem mem_intercalate {α : Type} {separator : List α} {parts : List (List α)} {a : α}
    (h : a ∈ separator.intercalate parts) : a ∈ separator ∨ ∃ part ∈ parts, a ∈ part := by
  induction parts with
  | nil => simp at h
  | cons part parts ih =>
    cases parts with
    | nil => exact .inr ⟨part, List.mem_cons_self, by simpa using h⟩
    | cons next parts =>
      rw [List.intercalate_cons_cons, List.mem_append, List.mem_append] at h
      rcases h with (h | h) | h
      · exact .inr ⟨part, List.mem_cons_self, h⟩
      · exact .inl h
      · exact (ih h).imp id fun ⟨p, hp, ha⟩ => ⟨p, List.mem_cons_of_mem part hp, ha⟩

namespace Url

/-- Characters of a host that is no address between brackets. -/
def isHostChar (c : Char) : Bool := 32 < c.toNat && c.toNat < 127 && !isForbidden c

theorem isHostChar_iff {c : Char} : isHostChar c = true ↔ 32 < c.toNat ∧ c.toNat < 127 ∧ isForbidden c = false := by
  simp [isHostChar, and_assoc]

theorem isHostChar_of_isAlphanum {c : Char} (h : c.isAlphanum = true) : isHostChar c = true := by
  have hc : c.toNat < 128 := by
    have := Form.isAlphanum_iff.mp h
    omega
  revert h
  exact ascii_cases (P := fun c => c.isAlphanum = true → isHostChar c = true) (by decide +kernel) hc

theorem isHostChar_toLower {c : Char} (h : isHostChar c = true) : isHostChar c.toLower = true := by
  have hc : c.toNat < 128 := by
    have := isHostChar_iff.mp h
    omega
  revert h
  exact ascii_cases (P := fun c => isHostChar c = true → isHostChar c.toLower = true) (by decide +kernel) hc

theorem isHostChar_of_not_isDenied {c : Char} (hc : Domain.isAscii c = true) (h : Domain.isDenied c = false) :
    isHostChar c = true := by
  revert h
  exact ascii_cases (P := fun c => Domain.isDenied c = false → isHostChar c = true) (by decide +kernel) (of_decide_eq_true hc)

end Url

/-! ### Domain names -/

namespace Punycode

theorem isAlphanum_digit {d : Nat} (h : d < 36) : (digit d).isAlphanum = true := by
  revert d
  decide

theorem isAlphanum_encodeDelta {bias k q : Nat} {c : Char} (h : c ∈ encodeDelta bias k q) : c.isAlphanum = true := by
  have hpos := threshold_pos bias k
  have hle := threshold_le bias k
  fun_induction encodeDelta bias k q with
  | case1 k q t hlt =>
    rw [List.mem_singleton.mp h]
    exact isAlphanum_digit (by omega)
  | case2 k q t hge ih =>
    rcases List.mem_cons.mp h with rfl | h
    · have := Nat.mod_lt (q - t) (show 0 < 36 - t by omega)
      exact isAlphanum_digit (by omega)
    · exact ih h (threshold_pos _ _) (threshold_le _ _)

theorem isAlphanum_encodeInsertions {n i bias count : Nat} {places : List (Nat × Nat)} {c : Char}
    (h : c ∈ encodeInsertions n i bias count places) : c.isAlphanum = true := by
  induction places generalizing n i bias count with
  | nil => cases h
  | cons place places ih =>
    rcases List.mem_append.mp h with h | h
    · exact isAlphanum_encodeDelta h
    · exact ih h

theorem mem_encode {label : List Char} {c : Char} (h : c ∈ encode label) :
    c.isAlphanum = true ∨ c = '-' ∨ c ∈ label ∧ Domain.isAscii c = true := by
  rcases List.mem_append.mp h with h | h
  · split at h
    · cases h
    · rcases List.mem_append.mp h with h | h
      · exact .inr (.inr (List.mem_filter.mp h))
      · exact .inr (.inl (List.mem_singleton.mp h))
  · exact .inl (isAlphanum_encodeInsertions h)

end Punycode

namespace Domain

theorem isHostChar_encodedLabel? {label text : List Char} (hok : labelOk label = true)
    (h : encodedLabel? label = some text) {c : Char} (hc : c ∈ text) : Url.isHostChar c = true := by
  have hdenied {c : Char} (hc : c ∈ label) : isDenied c = false := by
    simp only [labelOk, Bool.and_eq_true, Bool.not_eq_true', List.any_eq_false] at hok
    simpa using hok.1 c hc
  unfold encodedLabel? at h
  split at h
  · next hascii =>
    cases h
    exact Url.isHostChar_of_not_isDenied (List.all_eq_true.mp hascii c hc) (hdenied hc)
  · split at h
    · cases h
    · cases h
      rcases List.mem_append.mp hc with hc | hc
      · have hstart : encodedStart.all Url.isHostChar = true := by decide
        exact List.all_eq_true.mp hstart c hc
      · rcases Punycode.mem_encode hc with hc | rfl | ⟨hc, hascii⟩
        · exact Url.isHostChar_of_isAlphanum hc
        · decide
        · exact Url.isHostChar_of_not_isDenied hascii (hdenied hc)

/-- The labels of a name in ASCII were checked before they were written. -/
theorem toAscii?_eq_some {name text : List Char} (h : toAscii? name = some text) :
    ∃ decoded encoded : List (List Char), decoded.all labelOk = true ∧ decoded.mapM encodedLabel? = some encoded ∧
      text = ['.'].intercalate encoded := by
  simp only [toAscii?] at h
  obtain ⟨plain, -, h⟩ := Option.bind_eq_some_iff.mp h
  obtain ⟨decoded, -, h⟩ := Option.bind_eq_some_iff.mp h
  split at h
  · cases h
  · next hok =>
    split at h
    · cases h
    · obtain ⟨encoded, hencoded, h⟩ := Option.bind_eq_some_iff.mp h
      cases h
      exact ⟨decoded, encoded, by simpa using hok, hencoded, rfl⟩

theorem isHostChar_toAscii? {name text : List Char} (h : toAscii? name = some text) {c : Char} (hc : c ∈ text) :
    Url.isHostChar c = true := by
  obtain ⟨decoded, encoded, hok, hencoded, rfl⟩ := toAscii?_eq_some h
  rcases mem_intercalate hc with hc | ⟨part, hpart, hc⟩
  · rw [List.mem_singleton.mp hc]
    decide
  · obtain ⟨label, hlabel, hlabelText⟩ := exists_of_mem_mapM hencoded hpart
    exact isHostChar_encodedLabel? (List.all_eq_true.mp hok label hlabel) hlabelText hc

end Domain

/-! ### Addresses -/

theorem Address.isHostChar_fourText {n : Nat} {c : Char} (h : c ∈ (fourText n).toList) : Url.isHostChar c = true := by
  rw [fourText, String.toList_intercalate] at h
  rcases mem_intercalate h with h | ⟨part, hpart, hc⟩
  · have hdot : c = '.' := by simpa using h
    rw [hdot]
    decide
  · obtain ⟨byte, hbyte, rfl⟩ := List.mem_map.mp hpart
    obtain ⟨m, -, rfl⟩ := List.mem_map.mp hbyte
    rw [show (toString m).toList = Nat.toDigits 10 m from Nat.toList_repr] at hc
    have hdigit := Nat.isDigit_of_mem_toDigits (by omega) (by omega) hc
    exact Url.isHostChar_of_isAlphanum (by simp [Char.isAlphanum, hdigit])

/-- A character of the text of eight words. -/
def Address.isTextChar (c : Char) : Bool := "0123456789abcdef:".toList.contains c

theorem Address.isTextChar_spec {c : Char} (h : isTextChar c = true) :
    c.toLower = c ∧ 32 < c.toNat ∧ c.toNat < 127 ∧ ¬c ∈ ['/', '?', '#', '@', '[', ']'] := by
  have hall : ("0123456789abcdef:".toList.all fun c => decide (c.toLower = c ∧ 32 < c.toNat ∧ c.toNat < 127 ∧
      ¬c ∈ ['/', '?', '#', '@', '[', ']'])) = true := by
    decide
  exact of_decide_eq_true (List.all_eq_true.mp hall c (List.contains_iff_mem.mp h))

theorem Address.isTextChar_digitChar {d : Nat} (h : d < 16) : isTextChar d.digitChar = true := by
  revert d
  decide

theorem Address.isTextChar_colonText {ws : List Nat} {c : Char} (h : c ∈ colonText ws) : isTextChar c = true := by
  rcases mem_intercalate h with h | ⟨part, hpart, hc⟩
  · rw [List.mem_singleton.mp h]
    decide
  · obtain ⟨w, -, rfl⟩ := List.mem_map.mp hpart
    obtain ⟨d, hd, rfl⟩ := mem_toDigits hc
    exact isTextChar_digitChar hd

theorem Address.isTextChar_eightText {words : List Nat} {c : Char} (h : c ∈ (eightText words).toList) :
    isTextChar c = true := by
  rw [eightText_toList] at h
  split at h
  · exact isTextChar_colonText h
  · simp only [List.mem_append, List.mem_cons] at h
    rcases h with h | rfl | rfl | h
    · exact isTextChar_colonText h
    · decide
    · decide
    · exact isTextChar_colonText h

/-! ### Hosts -/

namespace Url

/-- A host as a URL that was read has it. -/
inductive IsHost : List Char → Prop where
  | name {cs : List Char} (h : ∀ c ∈ cs, isHostChar c = true) : IsHost cs
  | address {words : List Nat} (h : Address.IsAddress words) :
    IsHost ('[' :: ((Address.eightText words).toList ++ [']']))

theorem isHost_bracketed {cs : List Char} {host : String} (h : bracketed cs = .ok host) : IsHost host.toList := by
  unfold bracketed at h
  split at h
  · cases h
  · cases hwords : Address.eight? (cs.drop 1).dropLast with
    | none =>
      rw [hwords] at h
      cases h
    | some words =>
      rw [hwords] at h
      cases h
      have htext : ("[" ++ Address.eightText words ++ "]").toList =
          '[' :: ((Address.eightText words).toList ++ [']']) := by
        simp
      rw [htext]
      exact .address (Address.isAddress_of_eight? hwords)

theorem isHostChar_hostChar {c d : Char} (hc : isForbidden c = false) (h : d ∈ hostChar c) : isHostChar d = true := by
  unfold hostChar at h
  split at h
  · next hplain =>
    rw [List.mem_singleton.mp h]
    simp only [Bool.and_eq_true, decide_eq_true_eq] at hplain
    have hspace : c.toNat ≠ 32 := fun heq => by
      obtain rfl : c = ' ' := Char.toNat_inj.mp heq
      contradiction
    exact isHostChar_iff.mpr ⟨by omega, hplain.2, hc⟩
  · obtain ⟨b, -, hd⟩ := List.mem_flatMap.mp h
    have hb : b.toNat < 256 := b.toNat_lt
    simp only [Form.percent, List.mem_cons, List.not_mem_nil, or_false] at hd
    rcases hd with rfl | rfl | rfl
    · decide
    · exact isHostChar_of_isAlphanum (Form.hexDigit_spec (by omega)).1
    · exact isHostChar_of_isAlphanum (Form.hexDigit_spec (by omega)).1

theorem isHost_plainHost {cs : List Char} {host : String} (h : plainHost cs = .ok host) : IsHost host.toList := by
  unfold plainHost at h
  split at h
  · exact isHost_bracketed h
  · split at h
    · cases h
    · next hforbidden =>
      cases h
      rw [String.toList_ofList]
      refine .name fun d hd => ?_
      obtain ⟨c, hc, hd⟩ := List.mem_flatMap.mp hd
      have hfree : isForbidden c = false := by
        simpa using List.any_eq_false.mp (Bool.not_eq_true _ ▸ hforbidden) c hc
      exact isHostChar_hostChar hfree hd

theorem isHost_webHost {cs : List Char} {host : String} (h : webHost cs = .ok host) : IsHost host.toList := by
  unfold webHost at h
  split at h
  · exact isHost_bracketed h
  · cases hname : Domain.toAscii? (Utf8.decode (Form.unescape (Utf8.encode cs))) with
    | none => simp [hname] at h
    | some name =>
      have hchars : ∀ c ∈ name, isHostChar c = true := fun c hc => Domain.isHostChar_toAscii? hname hc
      cases name with
      | nil => simp [hname] at h
      | cons c name =>
        simp only [hname] at h
        split at h
        · cases hfour : Address.four? (c :: name) with
          | none => simp [hfour] at h
          | some n =>
            simp only [hfour] at h
            cases h
            exact .name fun d hd => Address.isHostChar_fourText hd
        · cases h
          rw [String.toList_ofList]
          exact .name hchars

/-! ### Reading a host again -/

theorem hostChar_of_isHostChar {c : Char} (h : isHostChar c = true) : hostChar c = [c] := by
  obtain ⟨hlow, hhigh, -⟩ := isHostChar_iff.mp h
  simp [hostChar, Nat.le_of_lt hlow, hhigh]

theorem flatMap_hostChar {cs : List Char} (h : ∀ c ∈ cs, isHostChar c = true) : cs.flatMap hostChar = cs := by
  induction cs with
  | nil => rfl
  | cons c cs ih =>
    rw [List.flatMap_cons, hostChar_of_isHostChar (h c List.mem_cons_self), ih fun d hd => h d (List.mem_cons_of_mem c hd)]
    rfl

theorem bracketed_eightText {words : List Nat} (h : Address.IsAddress words) :
    bracketed ('[' :: ((Address.eightText words).toList ++ [']'])) = .ok ("[" ++ Address.eightText words ++ "]") := by
  have hlast : ('[' :: ((Address.eightText words).toList ++ [']'])).getLast? = some ']' := by
    rw [← List.cons_append, List.getLast?_concat]
  unfold bracketed
  rw [if_neg fun hne => hne hlast, List.drop_one, List.tail_cons, List.dropLast_concat, Address.eight?_eightText h]

theorem plainHost_of_isHost {cs : List Char} (h : IsHost cs) : plainHost cs = .ok (String.ofList cs) := by
  cases h with
  | name h =>
    have hhead : cs.head? ≠ some '[' := fun heq => by
      have := h '[' (List.mem_of_head? heq)
      contradiction
    have hfree : cs.any isForbidden = false := List.any_eq_false.mpr fun c hc => by
      simp [(isHostChar_iff.mp (h c hc)).2.2]
    rw [plainHost, if_neg hhead, hfree, flatMap_hostChar h]
    rfl
  | address h =>
    rw [plainHost, List.head?_cons, if_pos rfl, bracketed_eightText h]
    refine congrArg _ (String.toList_inj.mp ?_)
    simp

theorem IsHost.lower {cs : List Char} (h : IsHost cs) : IsHost (cs.map Char.toLower) := by
  cases h with
  | name h =>
    refine .name fun d hd => ?_
    obtain ⟨c, hc, rfl⟩ := List.mem_map.mp hd
    exact isHostChar_toLower (h c hc)
  | @address words h =>
    have hlower : (Address.eightText words).toList.map Char.toLower = (Address.eightText words).toList := by
      have hsame : ∀ c ∈ (Address.eightText words).toList, c.toLower = c := fun c hc =>
        (Address.isTextChar_spec (Address.isTextChar_eightText hc)).1
      rw [List.map_congr_left hsame, List.map_id']
    simp only [List.map_cons, List.map_append, hlower]
    exact .address h

theorem IsHost.chars {cs : List Char} (h : IsHost cs) {c : Char} (hc : c ∈ cs) :
    32 < c.toNat ∧ c.toNat < 127 ∧ ¬c ∈ ['/', '?', '#', '@'] := by
  cases h with
  | name h =>
    obtain ⟨hlow, hhigh, hfree⟩ := isHostChar_iff.mp (h c hc)
    refine ⟨hlow, hhigh, fun hmem => ?_⟩
    have hall : ['/', '?', '#', '@'].all isForbidden = true := by decide
    simp [List.all_eq_true.mp hall c hmem] at hfree
  | address h =>
    rw [List.mem_cons, List.mem_append, List.mem_singleton] at hc
    rcases hc with rfl | hc | rfl
    · decide
    · obtain ⟨-, hlow, hhigh, hfree⟩ := Address.isTextChar_spec (Address.isTextChar_eightText hc)
      exact ⟨hlow, hhigh, fun hmem => hfree (List.mem_append_left ['[', ']'] hmem)⟩
    · decide

/-! ### Where a host ends -/

theorem splitHost_cons (inside : Bool) {c : Char} {cs : List Char} (h : ¬(c = ':' ∧ inside = false)) :
    splitHost inside (c :: cs) =
      (c :: (splitHost (if c == '[' then true else if c == ']' then false else inside) cs).1,
        (splitHost (if c == '[' then true else if c == ']' then false else inside) cs).2) := by
  rw [splitHost, if_neg (by simpa using h)]

theorem splitHost_name {cs : List Char} (h : ∀ c ∈ cs, c ≠ ':' ∧ c ≠ '[') (rest : List Char) :
    splitHost false (cs ++ ':' :: rest) = (cs, ':' :: rest) := by
  induction cs with
  | nil => rfl
  | cons c cs ih =>
    obtain ⟨hcolon, hopen⟩ := h c List.mem_cons_self
    rw [List.cons_append, splitHost_cons false (by simp [hcolon])]
    simp [hopen, ih fun d hd => h d (List.mem_cons_of_mem c hd)]

theorem splitHost_inside {cs : List Char} (h : ∀ c ∈ cs, c ≠ '[' ∧ c ≠ ']') (rest : List Char) :
    splitHost true (cs ++ ']' :: ':' :: rest) = (cs ++ [']'], ':' :: rest) := by
  induction cs with
  | nil => rfl
  | cons c cs ih =>
    obtain ⟨hopen, hclose⟩ := h c List.mem_cons_self
    rw [List.cons_append, splitHost_cons true (by simp)]
    simp [hopen, hclose, ih fun d hd => h d (List.mem_cons_of_mem c hd)]

theorem splitHost_address {cs : List Char} (h : ∀ c ∈ cs, c ≠ '[' ∧ c ≠ ']') (rest : List Char) :
    splitHost false ('[' :: (cs ++ [']']) ++ ':' :: rest) = ('[' :: (cs ++ [']']), ':' :: rest) := by
  rw [List.cons_append, List.append_assoc, splitHost_cons false (by decide)]
  simp [splitHost_inside h]

theorem splitHost_of_isHost {cs : List Char} (h : IsHost cs) (rest : List Char) :
    splitHost false (cs ++ ':' :: rest) = (cs, ':' :: rest) := by
  cases h with
  | name h =>
    refine splitHost_name (fun c hc => ⟨?_, ?_⟩) rest
    · rintro rfl
      exact absurd (h _ hc) (by decide)
    · rintro rfl
      exact absurd (h _ hc) (by decide)
  | address h =>
    refine splitHost_address (fun c hc => ?_) rest
    obtain ⟨-, -, -, hfree⟩ := Address.isTextChar_spec (Address.isTextChar_eightText hc)
    simp only [List.mem_cons, List.not_mem_nil, or_false, not_or] at hfree
    exact ⟨hfree.2.2.2.2.1, hfree.2.2.2.2.2⟩

end Url

end PigChain
