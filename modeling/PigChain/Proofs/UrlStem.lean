import PigChain.Proofs.ExplicitPorts

/-!
# What stands before the query

Scheme, host and port of a URL with a host are read from the text before the first question mark or hash sign, its query
from the rest: texts that are the same up to there lead to the same place.
-/

namespace PigChain

theorem takeWhile_append_of_stop {p : Char → Bool} {ys : List Char} (xs : List Char)
    (h : ∀ c ∈ ys.head?, p c = false) : (xs ++ ys).takeWhile p = xs.takeWhile p := by
  have hstop : ys.takeWhile p = [] := by
    cases ys with
    | nil => rfl
    | cons c ys => rw [List.takeWhile_cons, h c rfl, if_neg Bool.false_ne_true]
  rw [List.takeWhile_append]
  split
  · next hall => rw [hstop, List.append_nil, (List.takeWhile_prefix p).eq_of_length hall]
  · rfl

theorem dropWhile_append_of_stop {p : Char → Bool} {ys : List Char} (xs : List Char)
    (h : ∀ c ∈ ys.head?, p c = false) : (xs ++ ys).dropWhile p = xs.dropWhile p ++ ys := by
  have hstop : ys.dropWhile p = ys := by
    cases ys with
    | nil => rfl
    | cons c ys => rw [List.dropWhile_cons, h c rfl, if_neg Bool.false_ne_true]
  rw [List.dropWhile_append]
  split
  · next hempty => rw [hstop, List.isEmpty_iff.mp hempty, List.nil_append]
  · rfl

namespace Url

/-- Characters that start neither the query nor the fragment. -/
def inStem (c : Char) : Bool := c != '?' && c != '#'

/-- The text before the query and the fragment. -/
def stem (cs : List Char) : List Char := cs.takeWhile inStem

/-- Nothing, or a query or a fragment. -/
def FollowsStem (rest : List Char) : Prop := ∀ c ∈ rest.head?, inStem c = false

variable {scheme : String} {text text' : String} {front rest rest' place cs : List Char} {u : Url}

theorem inStem_eq_false {c : Char} : inStem c = false ↔ c = '?' ∨ c = '#' := by
  simp [inStem, Decidable.or_iff_not_imp_left]

theorem inStem_of_notMem (hquestion : '?' ∉ cs) (hhash : '#' ∉ cs) : ∀ c ∈ cs, inStem c = true := by
  intro c hc
  rw [inStem, Bool.and_eq_true, bne_iff_ne, bne_iff_ne]
  exact ⟨ne_of_mem_of_not_mem hc hquestion, ne_of_mem_of_not_mem hc hhash⟩

theorem followsStem_dropWhile (cs : List Char) : FollowsStem (cs.dropWhile inStem) := by
  intro c hc
  have hhead := List.head?_dropWhile_not inStem cs
  rw [Option.mem_def.mp hc] at hhead
  simpa using hhead

theorem stem_append_cons {c : Char} (hc : inStem c = false) (front rest : List Char) :
    stem (front ++ c :: rest) = stem front := by
  refine takeWhile_append_of_stop front ?_
  rintro d ⟨⟩
  exact hc

theorem splitQuery_append (h : ∀ c ∈ front, inStem c = true) (rest : List Char) :
    splitQuery (front ++ rest) = splitQuery rest := by
  have hfront : ∀ c ∈ front, (c != '?' && c != '#') = true := h
  rw [splitQuery, splitQuery, List.dropWhile_append_of_pos hfront]

/-- A query starts at the first question mark, and goes to the end of a text without a hash sign. -/
theorem splitQuery_of_question (h : ∀ c ∈ front, inStem c = true) (hhash : '#' ∉ rest) :
    splitQuery (front ++ '?' :: rest) = some (String.ofList rest) := by
  have hquery := @splitQuery_question (String.ofList rest) (by rwa [String.toList_ofList])
  rw [String.toList_ofList] at hquery
  rw [splitQuery_append h, hquery]

theorem splitQuery_of_stem (h : ∀ c ∈ cs, inStem c = true) : splitQuery cs = none := by
  rw [← List.append_nil cs, splitQuery_append h]
  rfl

/-- A query ends at a hash sign. -/
theorem splitQuery_hash (cs rest : List Char) : splitQuery (cs ++ '#' :: rest) = splitQuery cs := by
  have hstop : ∀ c ∈ ('#' :: rest).head?, (c != '?' && c != '#') = false := by
    rintro c ⟨⟩
    rfl
  have hquery : ∀ c ∈ ('#' :: rest).head?, (c != '#') = false := by
    rintro c ⟨⟩
    rfl
  rw [splitQuery, splitQuery, dropWhile_append_of_stop cs hstop]
  cases cs.dropWhile fun c => c != '?' && c != '#' with
  | nil => rfl
  | cons c query =>
    by_cases hc : c = '?'
    · subst hc
      simp only [List.cons_append, takeWhile_append_of_stop query hquery]
    · simp [hc]

/-! ### Authorities -/

theorem inStem_authorityText {c : Char} (h : c ∈ authorityText scheme cs) : inStem c = true := by
  have hc := List.mem_takeWhile_imp h
  cases hstem : inStem c with
  | true => rfl
  | false => rcases inStem_eq_false.mp hstem with rfl | rfl <;> simp [endsAuthority] at hc

theorem splitQuery_drop_authorityText (scheme : String) (cs : List Char) :
    splitQuery (cs.drop (authorityText scheme cs).length) = splitQuery cs := by
  have hcs : authorityText scheme cs ++ cs.drop (authorityText scheme cs).length = cs :=
    List.prefix_iff_eq_append.mp (List.takeWhile_prefix _)
  rw [← splitQuery_append fun c hc => inStem_authorityText hc, hcs]

theorem authorityText_append (scheme : String) (place : List Char) (h : FollowsStem rest) :
    authorityText scheme (place ++ rest) = authorityText scheme place := by
  refine takeWhile_append_of_stop place fun c hc => ?_
  rcases inStem_eq_false.mp (h c hc) with rfl | rfl <;> simp [endsAuthority]

theorem withAuthority_query (h : withAuthority scheme cs = .ok u) : u.query = splitQuery cs := by
  obtain ⟨-, host, port, -, -, -, -, rfl⟩ := withAuthority_eq_ok.mp h
  exact splitQuery_drop_authorityText scheme cs

/-- An authority with a host is read alike before every query and fragment. -/
theorem withAuthority_append (hrest : FollowsStem rest) (hrest' : FollowsStem rest')
    (h : withAuthority scheme (place ++ rest) = .ok u) (hhost : u.host ≠ none) :
    withAuthority scheme (place ++ rest') = .ok { u with query := splitQuery (place ++ rest') } := by
  obtain ⟨-, host, port, hread, hcolon, hport, huser, rfl⟩ := withAuthority_eq_ok.mp h
  rw [authorityText_append scheme place hrest] at hread hcolon hport huser
  have hne : host.isEmpty = false := by
    cases hempty : host.isEmpty with
    | false => rfl
    | true => simp [hempty] at hhost
  have hplace : (splitUser (authorityText scheme place)).2.isEmpty = false := by
    cases htext : (splitUser (authorityText scheme place)).2 with
    | cons c cs => rfl
    | nil =>
      rw [htext] at hread
      have hread : readHost scheme [] = .ok host := hread
      unfold readHost at hread
      split at hread
      · cases hread
      · cases hread
        cases hne
  have hquery := splitQuery_drop_authorityText scheme (place ++ rest')
  rw [authorityText_append scheme place hrest'] at hquery
  rw [withAuthority_eq_ok]
  simp only [authorityText_append scheme place hrest', hquery]
  exact ⟨by simp [hplace], host, port, hread, hcolon, hport, huser, rfl⟩

/-! ### Schemes -/

theorem splitScheme?_append (cs : List Char) (h : FollowsStem rest) :
    splitScheme? (cs ++ rest) = (splitScheme? cs).map fun p => (p.1, p.2 ++ rest) := by
  have hstop : ∀ c ∈ rest.head?, isSchemeChar c = false := by
    intro c hc
    rcases inStem_eq_false.mp (h c hc) with rfl | rfl <;> decide
  unfold splitScheme?
  rw [List.span_eq_takeWhile_dropWhile, List.span_eq_takeWhile_dropWhile, takeWhile_append_of_stop cs hstop,
    dropWhile_append_of_stop cs hstop]
  cases cs.takeWhile isSchemeChar with
  | nil => rfl
  | cons c name =>
    cases cs.dropWhile isSchemeChar with
    | nil =>
      cases rest with
      | nil => rfl
      | cons d rest =>
        rcases inStem_eq_false.mp (h d rfl) with rfl | rfl <;> rfl
    | cons d after =>
      by_cases hd : d = ':'
      · subst hd
        cases hc : c.isAlpha <;> simp [hc]
      · simp [hd]

/-- The text after a scheme and what of it starts with the authority: any slashes may stand before that of a web scheme,
two of them before any other. -/
def LeadsTo (scheme : String) (rest place : List Char) : Prop :=
  if (webPorts.lookup scheme).isSome then place = rest.dropWhile isSlash else rest = '/' :: '/' :: place

theorem LeadsTo.splitQuery_eq (h : LeadsTo scheme rest place) : splitQuery rest = splitQuery place := by
  unfold LeadsTo at h
  split at h
  · have hslashes : ∀ c ∈ rest.takeWhile isSlash, inStem c = true := by
      intro c hc
      have hslash := List.mem_takeWhile_imp hc
      simp only [isSlash, Bool.or_eq_true, beq_iff_eq] at hslash
      rcases hslash with rfl | rfl <;> decide
    rw [h, ← splitQuery_append hslashes (rest.dropWhile isSlash), List.takeWhile_append_dropWhile]
  · have hslashes : ∀ c ∈ ['/', '/'], inStem c = true := by
      intro c hc
      rw [List.eq_of_mem_replicate (show c ∈ List.replicate 2 '/' from hc)]
      rfl
    rw [h]
    exact splitQuery_append hslashes place

/-- An authority starts before the query and the fragment. -/
theorem LeadsTo.append (hrest : FollowsStem rest) (h : LeadsTo scheme (front ++ rest) cs) :
    ∃ place, cs = place ++ rest ∧ ∀ rest', FollowsStem rest' → LeadsTo scheme (front ++ rest') (place ++ rest') := by
  unfold LeadsTo at h ⊢
  by_cases hweb : (webPorts.lookup scheme).isSome
  · have hslashes {after : List Char} (hafter : FollowsStem after) :
        (front ++ after).dropWhile isSlash = front.dropWhile isSlash ++ after := by
      refine dropWhile_append_of_stop front fun c hc => ?_
      rcases inStem_eq_false.mp (hafter c hc) with rfl | rfl <;> decide
    rw [if_pos hweb, hslashes hrest] at h
    refine ⟨front.dropWhile isSlash, h, fun rest' hrest' => ?_⟩
    rw [if_pos hweb, hslashes hrest']
  · rw [if_neg hweb] at h
    have hslash {after : List Char} (hrest : FollowsStem rest) (heq : rest = '/' :: after) : False := by
      subst heq
      exact absurd (hrest '/' rfl) (by decide)
    rcases front with _ | ⟨c, _ | ⟨d, place⟩⟩
    · exact (hslash hrest h).elim
    · exact (hslash hrest (List.tail_eq_of_cons_eq h)).elim
    · cases h
      refine ⟨place, rfl, fun rest' _ => ?_⟩
      rw [if_neg hweb]
      rfl

theorem parse_of_leadsTo (hs : splitScheme? (cleaned text.toList) = some (scheme, rest)) (hfile : scheme ≠ "file")
    (h : LeadsTo scheme rest place) : parse text = withAuthority scheme place := by
  unfold LeadsTo at h
  rw [parse, hs]
  simp only
  rw [if_neg hfile]
  split at h
  · next hweb => rw [if_pos hweb, h]
  · next hweb =>
    rw [if_neg hweb, h]
    rfl

theorem exists_leadsTo (h : parse text = .ok u) (hhost : u.host ≠ none) (hfile : u.scheme ≠ "file") :
    ∃ scheme rest place, splitScheme? (cleaned text.toList) = some (scheme, rest) ∧ scheme ≠ "file" ∧
      LeadsTo scheme rest place ∧ withAuthority scheme place = .ok u := by
  unfold parse at h
  split at h
  · cases h
  · next scheme rest hs =>
    split at h
    · exact absurd (file_scheme h) hfile
    · next hscheme =>
      unfold LeadsTo
      split at h
      · next hweb => exact ⟨scheme, rest, _, hs, hscheme, by rw [if_pos hweb], h⟩
      · next hweb =>
        split at h
        · exact ⟨scheme, _, _, hs, hscheme, by rw [if_neg hweb], h⟩
        · cases h
          exact absurd rfl hhost

theorem splitScheme?_eq_some (h : splitScheme? cs = some (scheme, rest)) :
    ∃ c front, c.isAlpha = true ∧ cs = c :: front ++ rest ∧ ∀ d ∈ c :: front, inStem d = true := by
  have hcs := List.takeWhile_append_dropWhile (p := isSchemeChar) (l := cs)
  have hchars : ∀ d ∈ cs.takeWhile isSchemeChar, isSchemeChar d = true := fun d hd => List.mem_takeWhile_imp hd
  unfold splitScheme? at h
  rw [List.span_eq_takeWhile_dropWhile] at h
  split at h
  · next c name after heq =>
    rw [Prod.mk.injEq] at heq
    rw [heq.1] at hcs hchars
    rw [heq.2] at hcs
    split at h
    · next halpha =>
      cases h
      refine ⟨c, name ++ [':'], halpha, by simp [← hcs], fun d hd => ?_⟩
      rw [← List.cons_append, List.mem_append, List.mem_singleton] at hd
      rcases hd with hd | rfl
      · cases hstem : inStem d with
        | true => rfl
        | false =>
          have hd := hchars d hd
          rcases inStem_eq_false.mp hstem with rfl | rfl <;> exact absurd hd (by decide)
      · rfl
    · cases h
  · cases h

/-! ### URLs -/

theorem parse_query (h : parse text = .ok u) (hhost : u.host ≠ none) (hfile : u.scheme ≠ "file") :
    u.query = splitQuery (cleaned text.toList) := by
  obtain ⟨scheme, rest, place, hs, -, hplace, hu⟩ := exists_leadsTo h hhost hfile
  obtain ⟨c, front, -, hcs, hfront⟩ := splitScheme?_eq_some hs
  rw [withAuthority_query hu, hcs, splitQuery_append hfront, hplace.splitQuery_eq]

/-- Texts that are the same before their queries lead to the same place. -/
theorem parse_of_stem (h : parse text = .ok u) (hhost : u.host ≠ none) (hfile : u.scheme ≠ "file")
    (hstem : stem (cleaned text'.toList) = stem (cleaned text.toList)) :
    parse text' = .ok { u with query := splitQuery (cleaned text'.toList) } := by
  obtain ⟨scheme, rest, cs, hs, hscheme, hplace, hu⟩ := exists_leadsTo h hhost hfile
  have hafter := followsStem_dropWhile (cleaned text.toList)
  have hafter' := followsStem_dropWhile (cleaned text'.toList)
  have hcs : stem (cleaned text.toList) ++ (cleaned text.toList).dropWhile inStem = cleaned text.toList :=
    List.takeWhile_append_dropWhile
  have hcs' : stem (cleaned text.toList) ++ (cleaned text'.toList).dropWhile inStem = cleaned text'.toList := by
    rw [← hstem]
    exact List.takeWhile_append_dropWhile
  generalize (cleaned text.toList).dropWhile inStem = after at hcs hafter
  generalize (cleaned text'.toList).dropWhile inStem = after' at hcs' hafter'
  -- The scheme ends in the stem, and so does what leads to the authority.
  rw [← hcs, splitScheme?_append _ hafter] at hs
  obtain ⟨split, hsplit, hpair⟩ := Option.map_eq_some_iff.mp hs
  cases hpair
  obtain ⟨place, rfl, hleads⟩ := hplace.append hafter
  have hs' : splitScheme? (cleaned text'.toList) = some (split.1, split.2 ++ after') := by
    rw [← hcs', splitScheme?_append _ hafter', hsplit]
    rfl
  have hu' := withAuthority_append hafter hafter' hu hhost
  have hparse' := (parse_of_leadsTo hs' hscheme (hleads after' hafter')).trans hu'
  rw [hparse', ← parse_query hparse' hhost hfile]

end Url

end PigChain
