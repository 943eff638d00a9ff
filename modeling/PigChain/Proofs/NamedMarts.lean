import PigChain.Mart.Basic
import PigChain.Proofs.EqualSpellings
import PigChain.Proofs.UrlStem
import PigChain.Settings

/-!
# Addresses with a mart named

Main statement: naming a mart behind the text of an address keeps its host and port, and the mart that is read is the
address's own or else the one that was named. This takes that the pair ends up in the query: a text in which the key
occurs anywhere gets no pair, and a pair behind a hash sign belongs to the fragment. It also takes that the text does
not end in blanks, which are cut off at the end of a text but not before more of it.
-/

namespace PigChain

/-! ### Texts with more behind them -/

/-- Without what stands around it, a text keeps everything around a character that stays. -/
theorem strip_around {p : Char → Bool} {c : Char} (hc : p c = false) (front rest : List Char) :
    (((front ++ c :: rest).dropWhile p).reverse.dropWhile p).reverse =
      front.dropWhile p ++ c :: (rest.reverse.dropWhile p).reverse := by
  have hstop (cs : List Char) : ∀ d ∈ (c :: cs).head?, p d = false := by
    rintro d ⟨⟩
    exact hc
  have hback : (front.dropWhile p ++ c :: rest).reverse = rest.reverse ++ c :: (front.dropWhile p).reverse := by simp
  rw [dropWhile_append_of_stop front (hstop rest), hback, dropWhile_append_of_stop rest.reverse (hstop _)]
  simp

namespace Url

/-- Characters that are cut off at either end of the text of an address. -/
def isMargin (c : Char) : Bool := Text.isBlank c || decide (c.toNat ≤ 32)

theorem isMargin_of_visible {c : Char} (h : isVisible c = true) : isMargin c = false := by
  have hc := isVisible_iff.mp h
  simp [isMargin, Text.isBlank_of_visible h, Nat.not_le.mpr hc.1]

theorem inStem_of_isMargin {c : Char} (h : isMargin c = true) : inStem c = true := by
  cases hc : inStem c with
  | true => rfl
  | false => rcases inStem_eq_false.mp hc with rfl | rfl <;> exact absurd h (by decide)

end Url

namespace MartUrl

/-- The text of an address without what is cut off or taken out before it is read. -/
def cleanText (cs : List Char) : List Char := Url.cleaned (Text.trimChars cs)

def dropStart (cs : List Char) : List Char :=
  (cs.dropWhile Text.isBlank).dropWhile fun c => decide (c.toNat ≤ 32)

def dropEnd (cs : List Char) : List Char := (dropStart cs.reverse).reverse

variable {front rest more cs : List Char} {c : Char}

theorem cleanText_around (hc : Url.isVisible c = true) (front rest : List Char) :
    cleanText (front ++ c :: rest) =
      (dropStart front).filter Url.isKept ++ c :: (dropEnd rest).filter Url.isKept := by
  have houter : decide (c.toNat ≤ 32) = false := by
    have := Url.isVisible_iff.mp hc
    exact decide_eq_false (by omega)
  have htrim : Text.trimChars (front ++ c :: rest) = _ := strip_around (Text.isBlank_of_visible hc) front rest
  have hkept : Url.isKept c = true := by
    have hself : [c].filter Url.isKept = [c] := Url.filter_isKept_of_visible (by simpa using hc)
    simpa using hself
  have hclean (cs : List Char) : Url.cleaned cs = ((((cs.dropWhile fun c => decide (c.toNat ≤ 32)).reverse.dropWhile
      fun c => decide (c.toNat ≤ 32)).reverse).filter Url.isKept) := rfl
  rw [cleanText, htrim, hclean, strip_around houter, List.filter_append, List.filter_cons_of_pos hkept, dropStart,
    dropEnd, dropStart, List.reverse_reverse]

theorem exists_dropStart (cs : List Char) : ∃ cut, cs = cut ++ dropStart cs ∧ ∀ c ∈ cut, Url.isMargin c = true := by
  refine ⟨cs.takeWhile Text.isBlank ++ (cs.dropWhile Text.isBlank).takeWhile fun c => decide (c.toNat ≤ 32), ?_, ?_⟩
  · rw [dropStart, List.append_assoc, List.takeWhile_append_dropWhile, List.takeWhile_append_dropWhile]
  · intro c hc
    rw [Url.isMargin, Bool.or_eq_true]
    rcases List.mem_append.mp hc with hc | hc
    · exact .inl (List.mem_takeWhile_imp hc)
    · have hlow := List.mem_takeWhile_imp hc
      exact .inr hlow

theorem exists_dropEnd (cs : List Char) : ∃ cut, cs = dropEnd cs ++ cut ∧ ∀ c ∈ cut, Url.isMargin c = true := by
  obtain ⟨cut, hcs, hcut⟩ := exists_dropStart cs.reverse
  refine ⟨cut.reverse, ?_, fun c hc => hcut c (List.mem_reverse.mp hc)⟩
  rw [dropEnd, ← List.reverse_append, ← hcs, List.reverse_reverse]

theorem dropEnd_of_visible (h : ∀ c ∈ cs.getLast?, Url.isVisible c = true) : dropEnd cs = cs := by
  obtain ⟨cut, hcs, hcut⟩ := exists_dropEnd cs
  -- The last character would be cut off first.
  have hnil : cut = [] := by
    rcases List.eq_nil_or_concat cut with hnil | ⟨init, c, rfl⟩
    · exact hnil
    · have hlast : cs.getLast? = some c := by
        rw [hcs, List.concat_eq_append, ← List.append_assoc, List.getLast?_concat]
      have hc := Url.isMargin_of_visible (h c hlast)
      rw [hcut c (by simp)] at hc
      cases hc
  rw [hnil, List.append_nil] at hcs
  exact hcs.symm

/-- Whether nothing that is cut off at the end of a text would stay before more text: tabs and line ends would not. -/
def endsClean (base : String) : Bool := (base.toList.filter Url.isKept).getLast?.all fun c => !Url.isMargin c

theorem mem_cleanText (hc : Url.isVisible c = true) (h : c ∈ cs) : c ∈ cleanText cs := by
  obtain ⟨front, rest, rfl⟩ := List.append_of_mem h
  rw [cleanText_around hc]
  exact List.mem_append_right _ List.mem_cons_self

theorem mem_of_mem_cleanText (h : c ∈ cleanText cs) : c ∈ cs := by
  have hinner := List.mem_of_mem_filter h
  have houter := (List.dropWhile_subset _)
    (List.mem_reverse.mp ((List.dropWhile_subset _) (List.mem_reverse.mp hinner)))
  exact (List.dropWhile_subset _) (List.mem_reverse.mp ((List.dropWhile_subset _) (List.mem_reverse.mp houter)))

/-- More text brings back what was cut off at the end. -/
theorem cleanText_append {base : String} (hc : Url.isVisible c = true) (hmem : c ∈ base.toList) (hne : more ≠ [])
    (hmore : ∀ d ∈ more, Url.isVisible d = true) :
    ∃ cut, cleanText (base.toList ++ more) = cleanText base.toList ++ cut ++ more ∧
      (∀ d ∈ cut, Url.isMargin d = true) ∧ (endsClean base = true → cut = []) := by
  obtain ⟨front, rest, hbase⟩ := List.append_of_mem hmem
  obtain ⟨cut, hrest, hcut⟩ := exists_dropEnd rest
  have hend : dropEnd (rest ++ more) = rest ++ more := by
    refine dropEnd_of_visible fun d hd => hmore d ?_
    rw [List.getLast?_append_of_ne_nil _ hne] at hd
    exact List.mem_of_mem_getLast? hd
  have hkept : rest.filter Url.isKept = (dropEnd rest).filter Url.isKept ++ cut.filter Url.isKept := by
    rw [← List.filter_append, ← hrest]
  refine ⟨cut.filter Url.isKept, ?_, fun d hd => hcut d (List.mem_of_mem_filter hd), fun hclean => ?_⟩
  · rw [hbase, List.append_assoc, List.cons_append, cleanText_around hc, cleanText_around hc, hend,
      List.filter_append, hkept, Url.filter_isKept_of_visible hmore]
    simp
  · by_contra hnil
    rw [endsClean, hbase, List.append_cons, List.filter_append, hkept, ← List.append_assoc,
      List.getLast?_append_of_ne_nil _ hnil, List.getLast?_eq_getLast_of_ne_nil hnil, Option.all_some] at hclean
    have hlast := hcut _ (List.mem_of_mem_filter (List.getLast_mem hnil))
    rw [hlast] at hclean
    cases hclean

end MartUrl

/-! ### Queries with more behind them -/

namespace Form

theorem splitOn_ne_nil (separator : UInt8) (bytes : List UInt8) : splitOn separator bytes ≠ [] := by
  cases bytes with
  | nil => simp [splitOn]
  | cons b bytes =>
    rw [splitOn]
    split
    · simp
    · split <;> simp

theorem splitOn_append_cons (separator : UInt8) (first second : List UInt8) :
    splitOn separator (first ++ separator :: second) = splitOn separator first ++ splitOn separator second := by
  induction first with
  | nil => simp [splitOn]
  | cons b first ih =>
    rw [List.cons_append, splitOn, splitOn, ih]
    split
    · rfl
    · cases hfirst : splitOn separator first with
      | nil => exact absurd hfirst (splitOn_ne_nil separator first)
      | cons part parts => rfl

theorem read_append (first second : List Char) :
    read (String.ofList (first ++ '&' :: second)) = read (String.ofList first) ++ read (String.ofList second) := by
  have hsign : Utf8.encode ['&'] = [0x26] := by decide
  have hbytes : Utf8.encode (first ++ '&' :: second) = Utf8.encode first ++ 0x26 :: Utf8.encode second := by
    rw [List.append_cons, Utf8.encode_append, Utf8.encode_append, hsign, List.append_assoc, List.singleton_append]
  rw [read, read, read, String.toList_ofList, String.toList_ofList, String.toList_ofList, hbytes, splitOn_append_cons,
    List.filter_append, List.map_append]

end Form

namespace MartUrl

/-- The pairs in the query of a text. -/
def queryPairs (cs : List Char) : List Form.Pair := ((Url.splitQuery cs).map Form.read).getD []

/-- Whether a mart that is named behind a text ends up in the query: the text has neither the key nor a fragment. -/
def takesPair (base : String) : Bool := !occurs martKey.toList (lower base).toList && !base.toList.contains '#'

variable {base name text text' : String} {u : MartUrl} {c : Char} {cs : List Char}

theorem toList_withMart (name : String) (h : occurs martKey.toList (lower base).toList = false) :
    (withMart base name).toList =
      base.toList ++ (if '?' ∈ base.toList then '&' else '?') :: (Form.write [(martKey, name)]).toList := by
  rw [withMart, h, if_neg Bool.false_ne_true, String.toList_append, String.toList_append, List.append_assoc]
  by_cases hquery : '?' ∈ base.toList
  · simp [hquery]
  · simp [hquery]

theorem isVisible_pair {mark : Char} (hmark : mark = '&' ∨ mark = '?') :
    ∀ c ∈ mark :: (Form.write [(martKey, name)]).toList, Url.isVisible c = true := by
  intro c hc
  rcases List.mem_cons.mp hc with rfl | hc
  · rcases hmark with rfl | rfl <;> decide
  · obtain ⟨hlow, hhigh, -⟩ := Form.write_chars hc
    exact Url.isVisible_iff.mpr ⟨hlow, hhigh⟩

theorem read_pair (name : String) :
    Form.read (String.ofList (Form.write [(martKey, name)]).toList) = [(martKey, name)] := by
  rw [String.ofList_toList, Form.read_write]

/-- What stands behind a text with a query belongs to its query. -/
theorem exists_query (hquestion : '?' ∈ cs) (hhash : '#' ∉ cs) :
    ∃ query, queryPairs cs = Form.read (String.ofList query) ∧ ∀ more, '#' ∉ more →
      queryPairs (cs ++ more) = Form.read (String.ofList (query ++ more)) ∧ Url.stem (cs ++ more) = Url.stem cs := by
  obtain ⟨front, query, rfl, hfirst⟩ := List.eq_append_cons_of_mem hquestion
  have hfront := Url.inStem_of_notMem hfirst fun hmem => hhash (List.mem_append_left _ hmem)
  have hquery : '#' ∉ query := fun hmem => hhash (List.mem_append_right _ (List.mem_cons_of_mem _ hmem))
  have hpairs {rest : List Char} (hrest : '#' ∉ rest) :
      queryPairs (front ++ '?' :: rest) = Form.read (String.ofList rest) := by
    rw [queryPairs, Url.splitQuery_of_question hfront hrest, Option.map_some, Option.getD_some]
  refine ⟨query, hpairs hquery, fun more hmore => ?_⟩
  rw [List.append_assoc, List.cons_append, hpairs (by simp [hquery, hmore]), Url.stem_append_cons rfl,
    Url.stem_append_cons rfl]
  exact ⟨rfl, rfl⟩

/-- What stands behind a question mark is the query of a text that had none. -/
theorem queryPairs_of_stem {query : List Char} (h : ∀ c ∈ cs, Url.inStem c = true) (hhash : '#' ∉ query) :
    queryPairs cs = [] ∧ queryPairs (cs ++ '?' :: query) = Form.read (String.ofList query) := by
  rw [queryPairs, queryPairs, Url.splitQuery_of_stem h, Url.splitQuery_of_question h hhash]
  exact ⟨rfl, rfl⟩

/-- The pair is the last one of the query. If nothing was cut off, the pairs before it are those of the text, and all
that stands before the query is the same. -/
theorem exists_queryPairs (name : String) (h : takesPair base = true) (hc : Url.isVisible c = true)
    (hmem : c ∈ base.toList) :
    ∃ before, queryPairs (cleanText (withMart base name).toList) = before ++ [(martKey, name)] ∧
      (endsClean base = true → before = queryPairs (cleanText base.toList) ∧
        Url.stem (cleanText (withMart base name).toList) = Url.stem (cleanText base.toList)) := by
  simp only [takesPair, Bool.and_eq_true, Bool.not_eq_true', List.contains_eq_mem, decide_eq_false_iff_not] at h
  obtain ⟨hkey, hhash⟩ := h
  have hhashPair : '#' ∉ (Form.write [(martKey, name)]).toList := fun hmem => (Form.write_chars hmem).2.2 rfl
  have hhashText : '#' ∉ cleanText base.toList := fun hmem => hhash (mem_of_mem_cleanText hmem)
  rw [toList_withMart name hkey]
  by_cases hquestion : '?' ∈ base.toList
  · rw [if_pos hquestion]
    obtain ⟨cut, htext, hcut, hclean⟩ :=
      cleanText_append hc hmem (List.cons_ne_nil _ _) (@isVisible_pair name '&' (.inl rfl))
    obtain ⟨query, hquery, hmore⟩ := exists_query (mem_cleanText (by decide) hquestion) hhashText
    have hhashCut : '#' ∉ cut := fun hmem => absurd (hcut _ hmem) (by decide)
    have hhashMore : '#' ∉ cut ++ '&' :: (Form.write [(martKey, name)]).toList := by simp [hhashCut, hhashPair]
    obtain ⟨hpairs, hstem⟩ := hmore _ hhashMore
    rw [← List.append_assoc, ← htext] at hpairs hstem
    refine ⟨Form.read (String.ofList (query ++ cut)), ?_, fun hend => ⟨?_, hstem⟩⟩
    · rw [hpairs, ← List.append_assoc, Form.read_append, read_pair]
    · rw [hclean hend, List.append_nil, hquery]
  · rw [if_neg hquestion]
    obtain ⟨cut, htext, hcut, hclean⟩ :=
      cleanText_append hc hmem (List.cons_ne_nil _ _) (@isVisible_pair name '?' (.inr rfl))
    have hfront := Url.inStem_of_notMem (fun hmem => hquestion (mem_of_mem_cleanText hmem)) hhashText
    have hall : ∀ c ∈ cleanText base.toList ++ cut, Url.inStem c = true := by
      intro c hc
      rcases List.mem_append.mp hc with hc | hc
      · exact hfront c hc
      · exact Url.inStem_of_isMargin (hcut c hc)
    refine ⟨[], ?_, fun hend => ⟨(queryPairs_of_stem hfront hhashPair).1.symm, ?_⟩⟩
    · rw [htext, (queryPairs_of_stem hall hhashPair).2, read_pair, List.nil_append]
    · rw [htext, hclean hend, List.append_nil, Url.stem_append_cons rfl]

/-- Behind a hash sign nothing is read. -/
theorem queryPairs_append_of_hash (h : '#' ∈ cs) (more : List Char) :
    queryPairs (cleanText (cs ++ more)) = queryPairs (cleanText cs) ∧
      Url.stem (cleanText (cs ++ more)) = Url.stem (cleanText cs) := by
  obtain ⟨front, rest, rfl⟩ := List.append_of_mem h
  have hhash : Url.isVisible '#' = true := by decide
  rw [List.append_assoc, List.cons_append, cleanText_around hhash, cleanText_around hhash, queryPairs, queryPairs,
    Url.splitQuery_hash, Url.splitQuery_hash, Url.stem_append_cons rfl, Url.stem_append_cons rfl]
  exact ⟨rfl, rfl⟩

/-! ### The mart of an address -/

theorem mart_eq (u : MartUrl) :
    u.mart = ((Form.named martKey u.pairs).find? fun p => p.2 != "").map Prod.snd := by
  rw [Form.named, List.find?_filter]
  unfold mart
  congr 2
  funext p
  rw [Bool.decide_and, Bool.decide_eq_true, Bool.decide_eq_true]

/-- A mart that is named last counts if none was named before. -/
theorem mart_append {pairs : List Form.Pair} (hname : name ≠ "")
    (hu : u.pairs = normalise (pairs ++ [(martKey, name)])) :
    u.mart = some ((((Form.named martKey (lowered pairs)).find? fun p => p.2 != "").map Prod.snd).getD name) := by
  have hkey : lower martKey = martKey := by decide
  have hlast : Form.named martKey (lowered (pairs ++ [(martKey, name)])) =
      Form.named martKey (lowered pairs) ++ [(martKey, name)] := by
    simp [Form.named, lowered, hkey]
  have hvalue : (name != "") = true := bne_iff_ne.mpr hname
  rw [mart_eq, hu, named_normalise, hlast, List.find?_append]
  cases (Form.named martKey (lowered pairs)).find? fun p => p.2 != "" with
  | none => simp [hvalue]
  | some p => rfl

theorem mart_normalise {pairs : List Form.Pair} (hu : u.pairs = normalise pairs) :
    u.mart = ((Form.named martKey (lowered pairs)).find? fun p => p.2 != "").map Prod.snd := by
  rw [mart_eq, hu, named_normalise]

/-! ### Reading a text -/

theorem cleaned_trim (text : String) : Url.cleaned (Text.trim text).toList = cleanText text.toList := by
  rw [Text.trim, String.toList_ofList]
  rfl

/-- A scheme of marts is none of files. -/
theorem ne_file_of_mem_schemes {scheme : String} (h : scheme ∈ schemes) : scheme ≠ "file" := by
  rintro rfl
  exact absurd h (by decide)

theorem pairs_of_parse (h : parse text = .ok u) : u.pairs = normalise (queryPairs (cleanText text.toList)) := by
  obtain ⟨v, host, hv, hscheme, hhost, rfl⟩ := parse_eq_ok.mp h
  have hquery := Url.parse_query hv (by simp [hhost]) (ne_file_of_mem_schemes hscheme)
  rw [cleaned_trim] at hquery
  rw [Url.pairs, hquery, queryPairs]

/-- Texts that are the same before their queries address the same server. -/
theorem parse_of_stem (h : parse text = .ok u)
    (hstem : Url.stem (cleanText text'.toList) = Url.stem (cleanText text.toList)) :
    parse text' = .ok ⟨u.host, u.port, normalise (queryPairs (cleanText text'.toList))⟩ := by
  obtain ⟨v, host, hv, hscheme, hhost, rfl⟩ := parse_eq_ok.mp h
  rw [← cleaned_trim, ← cleaned_trim] at hstem
  have hv' := Url.parse_of_stem hv (by simp [hhost]) (ne_file_of_mem_schemes hscheme) hstem
  refine parse_eq_ok.mpr ⟨_, host, hv', hscheme, hhost, ?_⟩
  simp only [queryPairs, ← cleaned_trim, Url.pairs]

/-- A text that is read as an address has a letter, the first of its scheme. -/
theorem exists_visible (h : parse text = .ok u) : ∃ c ∈ text.toList, Url.isVisible c = true := by
  obtain ⟨v, host, hv, hscheme, hhost, -⟩ := parse_eq_ok.mp h
  obtain ⟨scheme, rest, place, hs, -⟩ := Url.exists_leadsTo hv (by simp [hhost]) (ne_file_of_mem_schemes hscheme)
  obtain ⟨c, front, halpha, htext, -⟩ := Url.splitScheme?_eq_some hs
  have hmem : c ∈ cleanText text.toList := by
    rw [← cleaned_trim, htext]
    exact List.mem_cons_self
  exact ⟨c, mem_of_mem_cleanText hmem, Url.isVisible_of_isAlphanum (by simp [Char.isAlphanum, halpha])⟩

theorem parse_withMart_of_not_takesPair (name : String) (h : parse base = .ok u) (hpair : takesPair base = false) :
    parse (withMart base name) = .ok u := by
  by_cases hkey : occurs martKey.toList (lower base).toList = true
  · have hbase : withMart base name = base := if_pos hkey
    rw [hbase, h]
  · have hkey := Bool.eq_false_of_not_eq_true hkey
    have hhash : '#' ∈ base.toList := by simpa [takesPair, hkey] using hpair
    obtain ⟨hpairs, hstem⟩ := queryPairs_append_of_hash hhash
      ((if '?' ∈ base.toList then '&' else '?') :: (Form.write [(martKey, name)]).toList)
    rw [← toList_withMart name hkey] at hpairs hstem
    rw [parse_of_stem h hstem, hpairs, ← pairs_of_parse h]

theorem parse_withMart_of_takesPair (h : parse base = .ok u) (hname : name ≠ "") (hpair : takesPair base = true)
    (hend : endsClean base = true) : ∃ v, parse (withMart base name) = .ok v ∧ v.host = u.host ∧ v.port = u.port ∧
      v.mart = some (u.mart.getD name) := by
  obtain ⟨c, hmem, hc⟩ := exists_visible h
  obtain ⟨before, hpairs, hclean⟩ := exists_queryPairs name hpair hc hmem
  obtain ⟨hbefore, hstem⟩ := hclean hend
  refine ⟨_, parse_of_stem h hstem, rfl, rfl, ?_⟩
  rw [mart_normalise (pairs_of_parse h)]
  refine mart_append hname ?_
  rw [hpairs, hbefore]

/-- A mart that ends up in the query is read, whatever else the text is read as. -/
theorem mart_withMart_ne_none {v : MartUrl} (h : parse base = .ok u) (hname : name ≠ "") (hpair : takesPair base = true)
    (hv : parse (withMart base name) = .ok v) : v.mart ≠ none := by
  obtain ⟨c, hmem, hc⟩ := exists_visible h
  obtain ⟨before, hpairs, -⟩ := exists_queryPairs name hpair hc hmem
  have hpairs' := pairs_of_parse hv
  rw [hpairs] at hpairs'
  rw [mart_append hname hpairs']
  exact Option.some_ne_none _

theorem parse_ne_missingMart {url : String} : parse text ≠ .error (.missingMart url) := by
  unfold parse
  split
  · simp
  · split
    · simp
    · split <;> simp

end MartUrl

theorem EdgeMart.connect_eq_missingMart {text : String} :
    (∃ url, connect text = .error (.missingMart url)) ↔ ∃ v, MartUrl.parse text = .ok v ∧ v.mart = none := by
  constructor
  · rintro ⟨url, h⟩
    rcases except_do_eq_error.mp h with hparse | ⟨v, hv, hmart⟩
    · exact absurd hparse MartUrl.parse_ne_missingMart
    · refine ⟨v, hv, ?_⟩
      unfold ofUrl at hmart
      split at hmart
      · assumption
      · unfold endpointOf at hmart
        split at hmart <;> cases hmart
  · rintro ⟨v, hv, hmart⟩
    refine ⟨v.canonical, ?_⟩
    rw [connect, hv]
    show ofUrl v = _
    rw [ofUrl, hmart]

/-- Naming a mart behind the text of an address: host and port stay, and the mart is the address's own or else the one
that is named, unless the text has the key or a fragment; then the mart stays as it is. So a mart is missing exactly if
the address names none and its text has the key or a fragment. -/
theorem named_mart_is_read_from_query {base name : String} {u : MartUrl} (hbase : MartUrl.parse base = .ok u)
    (hname : name ≠ "") :
    ((MartUrl.takesPair base = true → MartUrl.endsClean base = true) →
      ∃ v, MartUrl.parse (MartUrl.withMart base name) = .ok v ∧ (ServerSettings.mk base (some name)).martUrl = .ok v ∧
        v.host = u.host ∧ v.port = u.port ∧
        v.mart = if MartUrl.takesPair base then some (u.mart.getD name) else u.mart) ∧
    ((∃ url, EdgeMart.forRecord base name = .error (.missingMart url)) ↔
      u.mart = none ∧ MartUrl.takesPair base = false) := by
  cases hpair : MartUrl.takesPair base with
  | true =>
    constructor
    · intro hend
      obtain ⟨v, hv, hhost, hport, hmart⟩ := MartUrl.parse_withMart_of_takesPair hbase hname hpair (hend rfl)
      exact ⟨v, hv, hv, hhost, hport, hmart⟩
    · rw [EdgeMart.forRecord, EdgeMart.connect_eq_missingMart]
      constructor
      · rintro ⟨v, hv, hmart⟩
        exact absurd hmart (MartUrl.mart_withMart_ne_none hbase hname hpair hv)
      · rintro ⟨-, ⟨⟩⟩
  | false =>
    have hsame := MartUrl.parse_withMart_of_not_takesPair name hbase hpair
    constructor
    · intro _
      exact ⟨u, hsame, hsame, rfl, rfl, rfl⟩
    · rw [EdgeMart.forRecord, EdgeMart.connect_eq_missingMart, hsame]
      simp

/-- An address with the key in escapes, but no mart, and a line end behind it. -/
theorem named_mart_is_read_from_query_escaped :
    MartUrl.parse "EDGESPRING://Edge.local:9000/?edge%6Dart=\n" = .ok ⟨"edge.local", 9000, [("edgemart", "")]⟩ ∧
      (∃ v, MartUrl.parse (MartUrl.withMart "EDGESPRING://Edge.local:9000/?edge%6Dart=\n" "people") = .ok v ∧
        v.host = "edge.local" ∧ v.port = 9000 ∧ v.mart = some "people") ∧
      ¬∃ url,
        EdgeMart.forRecord "EDGESPRING://Edge.local:9000/?edge%6Dart=\n" "people" = .error (.missingMart url) := by
  have hparse : MartUrl.parse "EDGESPRING://Edge.local:9000/?edge%6Dart=\n" =
      .ok ⟨"edge.local", 9000, [("edgemart", "")]⟩ := by
    decide +kernel
  have hpair : MartUrl.takesPair "EDGESPRING://Edge.local:9000/?edge%6Dart=\n" = true := by decide +kernel
  have hend : MartUrl.endsClean "EDGESPRING://Edge.local:9000/?edge%6Dart=\n" = true := by decide +kernel
  obtain ⟨hread, hmissing⟩ := named_mart_is_read_from_query hparse (show "people" ≠ "" by decide)
  obtain ⟨v, hv, -, hhost, hport, hmart⟩ := hread fun _ => hend
  rw [hpair] at hmart hmissing
  exact ⟨hparse, ⟨v, hv, hhost, hport, hmart⟩, fun h => absurd (hmissing.mp h).2 (by decide)⟩

/-- The key in the host, a fragment, or the key with no mart hide the mart that is named, and a blank at the end becomes
part of the host. -/
theorem named_mart_is_lost :
    (∀ base ∈ ["edgespring://edgemart.local", "edgespring://edge.local#top", "edgespring://edge.local?edgemart="],
      (MartUrl.parse base).map MartUrl.mart = .ok none ∧
        (MartUrl.parse (MartUrl.withMart base "people")).map MartUrl.mart = .ok none) ∧
      (MartUrl.parse "edgespring://edge.local ").map MartUrl.host = .ok "edge.local" ∧
      MartUrl.parse (MartUrl.withMart "edgespring://edge.local " "people") = .error (.parse .domainCharacter) := by
  decide +kernel

end PigChain
