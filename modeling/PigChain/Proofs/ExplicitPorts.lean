import Mathlib.Data.List.TakeDrop
import PigChain.Proofs.CanonicalUrl

/-!
# Ports that an address gives

Main statement: an address that is written with a port has that port, unless it is the own port of a web scheme; then
the port counts as not given, and the address gets the default one. The text is taken apart from the outside in: blanks
around it, the scheme, the authority, the place and its port.
-/

namespace PigChain

variable {scheme host digits rest : List Char}

/-! ### Texts without what stands around them -/

/-- A text that ends in a character that stays keeps it, and loses only an end of what follows. -/
theorem dropWhile_around {p : Char → Bool} {text : List Char} (rest : List Char) (hne : text ≠ [])
    (hhead : ∀ c ∈ text.head?, p c = false) (hlast : ∀ c ∈ text.getLast?, p c = false) :
    ∃ rest', rest' <+: rest ∧ (((text ++ rest).dropWhile p).reverse.dropWhile p).reverse = text ++ rest' := by
  have hstart {cs : List Char} (hcs : ∀ c ∈ cs.head?, p c = false) : cs.dropWhile p = cs := by
    cases cs with
    | nil => rfl
    | cons c cs => rw [List.dropWhile_cons, if_neg (by simp [hcs c rfl])]
  have htext : (text ++ rest).dropWhile p = text ++ rest := by
    refine hstart fun c hc => hhead c ?_
    rwa [List.head?_append_of_ne_nil _ hne] at hc
  refine ⟨(rest.reverse.dropWhile p).reverse, ?_, ?_⟩
  · rw [← List.reverse_suffix, List.reverse_reverse]
    exact List.dropWhile_suffix p
  · rw [htext, List.reverse_append, List.dropWhile_append]
    split
    · next hempty =>
      rw [hstart fun c hc => hlast c (by rwa [List.head?_reverse] at hc), List.isEmpty_iff.mp hempty]
      simp
    · simp

namespace Url

/-- Characters that a URL keeps wherever they stand in it. -/
def isKept (c : Char) : Bool := c != '\t' && c != '\n' && c != '\x0d'

/-- What may follow an authority in any scheme. -/
def FollowsAuthority (rest : List Char) : Prop := ∀ c ∈ rest.head?, c = '/' ∨ c = '?' ∨ c = '#'

theorem FollowsAuthority.of_prefix {rest' : List Char} (h : FollowsAuthority rest) (hp : rest' <+: rest) :
    FollowsAuthority rest' := by
  obtain ⟨tail, rfl⟩ := hp
  intro c hc
  refine h c ?_
  cases rest' with
  | nil => cases hc
  | cons d rest' => exact hc

theorem FollowsAuthority.filter (h : FollowsAuthority rest) : FollowsAuthority (rest.filter isKept) := by
  cases rest with
  | nil => exact h
  | cons c rest =>
    have hc := h c rfl
    have hkept : isKept c = true := by
      rcases hc with rfl | rfl | rfl <;> decide
    rw [List.filter_cons_of_pos hkept]
    intro d hd
    cases hd
    exact hc

/-- The text of a host: a name, or an address between brackets. Neither has a character that ends it or stands before
it. -/
inductive IsHostText : List Char → Prop where
  | name {cs : List Char} (h : ∀ c ∈ cs, c ∉ ['/', '?', '#', '\\', '@', ':', '[']) : IsHostText cs
  | address {cs : List Char} (h : ∀ c ∈ cs, c ∉ ['/', '?', '#', '\\', '@', '[', ']']) :
    IsHostText ('[' :: (cs ++ [']']))

namespace IsHostText

theorem chars (h : IsHostText host) {c : Char} (hc : c ∈ host) : c ∉ ['/', '?', '#', '\\', '@'] := by
  cases h with
  | name h => exact fun hmem => h c hc (List.mem_append_left [':', '['] hmem)
  | address h =>
    rw [List.mem_cons, List.mem_append, List.mem_singleton] at hc
    rcases hc with rfl | hc | rfl
    · decide
    · exact fun hmem => h c hc (List.mem_append_left ['[', ']'] hmem)
    · decide

/-- The slashes before a place end where it starts. -/
theorem not_slash (h : IsHostText host) (rest : List Char) :
    ∀ c ∈ (host ++ ':' :: digits ++ rest).head?, isSlash c = false := by
  intro c hc
  rw [List.append_assoc] at hc
  cases host with
  | nil =>
    cases hc
    rfl
  | cons d host =>
    cases hc
    have hfree := h.chars List.mem_cons_self
    simp only [List.mem_cons, List.not_mem_nil, or_false, not_or] at hfree
    simp [isSlash, hfree]

theorem filter (h : IsHostText host) : IsHostText (host.filter isKept) := by
  cases h with
  | name h => exact .name fun c hc => h c (List.mem_of_mem_filter hc)
  | @address cs h =>
    have hbrackets : ('[' :: (cs ++ [']'])).filter isKept = '[' :: (cs.filter isKept ++ [']']) := by
      rw [List.filter_cons_of_pos (by decide), List.filter_append]
      rfl
    rw [hbrackets]
    exact .address fun c hc => h c (List.mem_of_mem_filter hc)

theorem splitHost (h : IsHostText host) (rest : List Char) :
    Url.splitHost false (host ++ ':' :: rest) = (host, ':' :: rest) := by
  cases h with
  | name h =>
    refine splitHost_name (fun c hc => ⟨?_, ?_⟩) rest
    · rintro rfl
      exact h _ hc (by decide)
    · rintro rfl
      exact h _ hc (by decide)
  | address h =>
    refine splitHost_address (fun c hc => ⟨?_, ?_⟩) rest
    · rintro rfl
      exact h _ hc (by decide)
    · rintro rfl
      exact h _ hc (by decide)

end IsHostText

/-! ### Schemes -/

theorem isAlpha_of_toLower {c : Char} (h : c.toLower.isAlpha = true) : c.isAlpha = true := by
  by_cases hupper : c.val ≥ 'A'.val ∧ c.val ≤ 'Z'.val
  · have hc : c.isUpper = true := decide_eq_true hupper
    exact Bool.or_eq_true_iff.mpr (.inl hc)
  · have hc : c.toLower = c := dif_neg hupper
    rwa [hc] at h

/-- Every letter of a scheme of marts is a letter, in whatever case it is written. -/
theorem isAlpha_scheme (h : String.ofList (scheme.map Char.toLower) ∈ MartUrl.schemes) :
    scheme ≠ [] ∧ ∀ c ∈ scheme, c.isAlpha = true := by
  have hletters : (MartUrl.schemes.all fun s => !s.toList.isEmpty && s.toList.all Char.isAlpha) = true := by decide
  have hscheme := List.all_eq_true.mp hletters _ h
  simp only [String.toList_ofList, Bool.and_eq_true, Bool.not_eq_true', List.isEmpty_eq_false_iff, List.all_eq_true,
    List.mem_map, forall_exists_index, and_imp, forall_apply_eq_imp_iff₂] at hscheme
  exact ⟨by simpa using hscheme.1, fun c hc => isAlpha_of_toLower (hscheme.2 c hc)⟩

theorem splitScheme_of_isAlpha (hne : scheme ≠ []) (h : ∀ c ∈ scheme, c.isAlpha = true) (rest : List Char) :
    splitScheme? (scheme ++ ':' :: rest) = some (String.ofList (scheme.map Char.toLower), rest) := by
  have hchars : ∀ c ∈ scheme, isSchemeChar c = true := fun c hc => by
    simp [isSchemeChar, Char.isAlphanum, h c hc]
  have hspan : (scheme ++ ':' :: rest).span isSchemeChar = (scheme, ':' :: rest) := by
    rw [List.span_eq_takeWhile_dropWhile, List.takeWhile_append_of_pos hchars, List.dropWhile_append_of_pos hchars]
    have hcolon : isSchemeChar ':' = false := by decide
    simp [hcolon]
  unfold splitScheme?
  rw [hspan]
  cases scheme with
  | nil => exact absurd rfl hne
  | cons c scheme =>
    simp only
    rw [if_pos (h c List.mem_cons_self)]

/-! ### Places -/

theorem readPort_of_isDigit (hne : digits ≠ []) (h : ∀ c ∈ digits, c.isDigit = true) :
    readPort digits =
      if Nat.ofDigitChars 10 digits 0 > 65535 then .error .port else .ok (some (Nat.ofDigitChars 10 digits 0)) := by
  have hall : digits.takeWhile Char.isDigit = digits := List.takeWhile_eq_self_iff.mpr h
  have hfold : digits.foldl (fun n c => n * 10 + (c.toNat - 48)) 0 = Nat.ofDigitChars 10 digits 0 := by
    rw [Nat.ofDigitChars_eq_foldl]
    congr 1
    funext n c
    rw [Nat.mul_comm]
    rfl
  simp [readPort, hall, hfold, hne]

/-- A host with a port is followed by nothing of the authority, and no user stands before it. -/
theorem withAuthority_port {name : String} {u : Url} (hhost : IsHostText host) (hne : digits ≠ [])
    (hdigits : ∀ c ∈ digits, c.isDigit = true) (hrest : FollowsAuthority rest)
    (h : withAuthority name (host ++ ':' :: digits ++ rest) = .ok u) :
    u.scheme = name ∧ Nat.ofDigitChars 10 digits 0 ≤ 65535 ∧
      u.port = if webPorts.lookup name = some (Nat.ofDigitChars 10 digits 0) then none
        else some (Nat.ofDigitChars 10 digits 0) := by
  have hchars : ∀ c ∈ host ++ ':' :: digits, c ∉ ['/', '?', '#', '\\', '@'] := by
    intro c hc
    rw [List.mem_append, List.mem_cons] at hc
    rcases hc with hc | rfl | hc
    · exact hhost.chars hc
    · decide
    · intro hmem
      have hnone : (['/', '?', '#', '\\', '@'].all fun c => !c.isDigit) = true := by decide
      have := List.all_eq_true.mp hnone c hmem
      rw [hdigits c hc] at this
      cases this
  have hauthority : authorityText name (host ++ ':' :: digits ++ rest) = host ++ ':' :: digits := by
    have hplace : ∀ c ∈ host ++ ':' :: digits, (!endsAuthority (webPorts.lookup name).isSome c) = true := by
      intro c hc
      have hfree := hchars c hc
      simp only [List.mem_cons, List.not_mem_nil, or_false, not_or] at hfree
      simp [endsAuthority, hfree]
    have hstop : rest.takeWhile (fun c => !endsAuthority (webPorts.lookup name).isSome c) = [] := by
      cases rest with
      | nil => rfl
      | cons c rest =>
        rw [List.takeWhile_cons, if_neg]
        rcases hrest c rfl with rfl | rfl | rfl <;> simp [endsAuthority]
    rw [authorityText, List.takeWhile_append_of_pos hplace, hstop, List.append_nil]
  have huser : splitUser (host ++ ':' :: digits) = (none, host ++ ':' :: digits) :=
    splitUser_of_notMem fun hmem => hchars '@' hmem (by decide)
  obtain ⟨-, name', port, -, -, hport, -, rfl⟩ := withAuthority_eq_ok.mp h
  rw [hauthority, huser, hhost.splitHost] at hport
  have hread : readPort digits = .ok port := hport
  rw [readPort_of_isDigit hne hdigits] at hread
  split at hread
  · cases hread
  · next hle =>
    cases hread
    exact ⟨rfl, by omega, by simp only [eq_comm]⟩

/-- The two slashes after the scheme of a mart lead to the authority. -/
theorem parse_scheme {text : String} (hs : String.ofList (scheme.map Char.toLower) ∈ MartUrl.schemes)
    (hplace : ∀ c ∈ rest.head?, isSlash c = false) (ht : cleaned text.toList = scheme ++ ':' :: '/' :: '/' :: rest) :
    parse text = withAuthority (String.ofList (scheme.map Char.toLower)) rest := by
  obtain ⟨hne, halpha⟩ := isAlpha_scheme hs
  have hslashes : ('/' :: '/' :: rest).dropWhile isSlash = rest := by
    cases rest with
    | nil => rfl
    | cons c rest =>
      have hslash : isSlash '/' = true := by decide
      simp [hslash, hplace c rfl]
  rw [parse, ht, splitScheme_of_isAlpha hne halpha]
  generalize String.ofList (scheme.map Char.toLower) = name at hs ⊢
  simp only
  have hfile : name ≠ "file" := by
    rintro rfl
    exact absurd hs (by decide)
  rw [if_neg hfile]
  split
  · rw [hslashes]
  · rfl

end Url

/-! ### Addresses -/

theorem Url.isVisible_of_isAlphanum {c : Char} (h : c.isAlphanum = true) : isVisible c = true := by
  obtain ⟨hlow, hhigh, -⟩ := isHostChar_iff.mp (isHostChar_of_isAlphanum h)
  exact isVisible_iff.mpr ⟨hlow, hhigh⟩

theorem Url.filter_isKept_of_visible {cs : List Char} (h : ∀ c ∈ cs, isVisible c = true) : cs.filter isKept = cs := by
  refine List.filter_eq_self.mpr fun c hc => ?_
  have hc := isVisible_iff.mp (h c hc)
  simp only [isKept, Bool.and_eq_true, bne_iff_ne]
  refine ⟨⟨?_, ?_⟩, ?_⟩ <;> rintro rfl <;> simp at hc

/-- The text of an address up to its port. -/
def MartUrl.placeText (scheme host digits : List Char) : List Char :=
  scheme ++ ':' :: '/' :: '/' :: (host ++ ':' :: digits)

/-- Nothing before a path is cut off, and tabs and line ends are taken out of the host only. -/
theorem MartUrl.cleaned_placeText (host rest : List Char) (hs : scheme ≠ [])
    (halpha : ∀ c ∈ scheme, c.isAlpha = true) (hd : digits ≠ []) (hdigits : ∀ c ∈ digits, c.isDigit = true) :
    ∃ rest', rest' <+: rest ∧ Url.cleaned (Text.trim (String.ofList (placeText scheme host digits ++ rest))).toList =
      scheme ++ ':' :: '/' :: '/' :: (host.filter Url.isKept ++ ':' :: digits ++ rest'.filter Url.isKept) := by
  have hscheme : ∀ c ∈ scheme, Url.isVisible c = true := fun c hc =>
    Url.isVisible_of_isAlphanum (by simp [Char.isAlphanum, halpha c hc])
  have hport : ∀ c ∈ digits, Url.isVisible c = true := fun c hc =>
    Url.isVisible_of_isAlphanum (by simp [Char.isAlphanum, hdigits c hc])
  have hne : placeText scheme host digits ≠ [] := by simp [placeText]
  have hhead : ∀ c ∈ (placeText scheme host digits).head?, Url.isVisible c = true := by
    intro c hc
    rw [placeText, List.head?_append_of_ne_nil _ hs] at hc
    exact hscheme c (List.mem_of_mem_head? hc)
  have hlast : ∀ c ∈ (placeText scheme host digits).getLast?, Url.isVisible c = true := by
    intro c hc
    have hend : placeText scheme host digits = (scheme ++ ':' :: '/' :: '/' :: (host ++ [':'])) ++ digits := by
      simp [placeText]
    rw [hend, List.getLast?_append_of_ne_nil _ hd] at hc
    exact hport c (List.mem_of_mem_getLast? hc)
  obtain ⟨rest₁, hrest₁, htrim⟩ := dropWhile_around rest hne
    (fun c hc => Text.isBlank_of_visible (hhead c hc)) fun c hc => Text.isBlank_of_visible (hlast c hc)
  have houter {c : Char} (hc : Url.isVisible c = true) : decide (c.toNat ≤ 32) = false := by
    have := Url.isVisible_iff.mp hc
    exact decide_eq_false (by omega)
  obtain ⟨rest₂, hrest₂, hclean⟩ := dropWhile_around rest₁ hne
    (fun c hc => houter (hhead c hc)) fun c hc => houter (hlast c hc)
  refine ⟨rest₂, hrest₂.trans hrest₁, ?_⟩
  have htext : (Text.trim (String.ofList (placeText scheme host digits ++ rest))).toList =
      placeText scheme host digits ++ rest₁ := by
    rw [Text.trim, String.toList_ofList, String.toList_ofList]
    exact htrim
  have hkept : Url.cleaned (placeText scheme host digits ++ rest₁) =
      (placeText scheme host digits ++ rest₂).filter Url.isKept := by
    rw [← hclean]
    rfl
  rw [htext, hkept, placeText]
  simp [Url.filter_isKept_of_visible hscheme, Url.filter_isKept_of_visible hport,
    show Url.isKept ':' = true from rfl, show Url.isKept '/' = true from rfl]

/-- An address that is written with a port in decimal has that port, which has two bytes. Only if it is the own port of
its scheme, 80 of `http` and 443 of `https`, the address has the default port instead. -/
theorem explicit_port_is_kept {scheme host digits rest : String} {u : MartUrl}
    (hs : MartUrl.lower scheme ∈ MartUrl.schemes) (hh : Url.IsHostText host.toList) (hd : digits ≠ "")
    (hdigits : ∀ c ∈ digits.toList, c.isDigit = true) (hr : Url.FollowsAuthority rest.toList)
    (h : MartUrl.parse (scheme ++ "://" ++ host ++ ":" ++ digits ++ rest) = .ok u) :
    Nat.ofDigitChars 10 digits.toList 0 ≤ 65535 ∧
      u.port = if Url.webPorts.lookup (MartUrl.lower scheme) = some (Nat.ofDigitChars 10 digits.toList 0)
        then MartUrl.defaultPort else Nat.ofDigitChars 10 digits.toList 0 := by
  obtain ⟨hne, halpha⟩ := Url.isAlpha_scheme hs
  have hd' : digits.toList ≠ [] := by simpa using hd
  obtain ⟨rest', hprefix, hclean⟩ := MartUrl.cleaned_placeText host.toList rest.toList hne halpha hd' hdigits
  have htext : scheme ++ "://" ++ host ++ ":" ++ digits ++ rest =
      String.ofList (MartUrl.placeText scheme.toList host.toList digits.toList ++ rest.toList) := by
    refine String.toList_inj.mp ?_
    simp [MartUrl.placeText]
  rw [htext] at h
  obtain ⟨v, name, hv, -, -, rfl⟩ := MartUrl.parse_eq_ok.mp h
  rw [Url.parse_scheme hs (hh.filter.not_slash _) hclean] at hv
  obtain ⟨-, hle, hport⟩ := Url.withAuthority_port hh.filter hd' hdigits (hr.of_prefix hprefix).filter hv
  refine ⟨hle, ?_⟩
  show v.port.getD MartUrl.defaultPort = _
  rw [hport]
  unfold MartUrl.lower
  split <;> rfl

theorem explicit_port_is_kept_upperCase :
    MartUrl.parse ("HTTPS" ++ "://" ++ "[::1]" ++ ":" ++ "080" ++ "/marts?edgemart=people") =
        .ok ⟨"[::1]", 80, [("edgemart", "people")]⟩ ∧
      Nat.ofDigitChars 10 "080".toList 0 ≤ 65535 ∧
      80 = if Url.webPorts.lookup (MartUrl.lower "HTTPS") = some (Nat.ofDigitChars 10 "080".toList 0)
        then MartUrl.defaultPort else Nat.ofDigitChars 10 "080".toList 0 :=
  have hparse : MartUrl.parse ("HTTPS" ++ "://" ++ "[::1]" ++ ":" ++ "080" ++ "/marts?edgemart=people") =
      .ok ⟨"[::1]", 80, [("edgemart", "people")]⟩ := by decide +kernel
  have hrest : Url.FollowsAuthority "/marts?edgemart=people".toList := fun c hc => by
    cases hc
    exact .inl rfl
  have haddress : ("::1".toList.all fun c => decide (c ∉ ['/', '?', '#', '\\', '@', '[', ']'])) = true := rfl
  have hhost : Url.IsHostText "[::1]".toList :=
    @Url.IsHostText.address "::1".toList fun c hc => of_decide_eq_true (List.all_eq_true.mp haddress c hc)
  have hdigits : "080".toList.all Char.isDigit = true := rfl
  ⟨hparse, explicit_port_is_kept (by decide) hhost (by decide) (List.all_eq_true.mp hdigits) hrest hparse⟩

/-- The own port of a web scheme is lost. -/
theorem own_port_is_lost :
    (MartUrl.parse "http://edge.local:80?edgemart=people").map MartUrl.port = .ok 8000 ∧
      (MartUrl.parse "https://edge.local:443?edgemart=people").map MartUrl.port = .ok 8000 := by
  decide +kernel

end PigChain
