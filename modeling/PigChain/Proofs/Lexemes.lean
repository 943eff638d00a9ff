import PigChain.Script.Term
import PigChain.Proofs.Phrases

/-!
# Lexemes of a script

How the text of an expression is cut into tokens. A run of letters, digits and underscores is one lexeme: a numeral, a
keyword in any case, or a name. A quoted literal is one lexeme, and so is an operator of one or two characters. Two
dashes, or a slash and a star, would begin a comment, so no expression holds them.
-/

namespace PigChain

def isWordChar (c : Char) : Bool := c.isAlphanum || c == '_'

/-- The types that a cast may name. -/
def typeNames : List (String × DataType) :=
  [("long", .int64), ("double", .float64), ("chararray", .string), ("boolean", .bool), ("datetime", .dateTime)]

/-- The words that are not names, in lower case. -/
def keywords : List (String × Token) :=
  [("null", .null), ("true", .bool true), ("false", .bool false), ("and", .operator .and), ("or", .operator .or),
    ("not", .not), ("is", .is)] ++ typeNames.map fun p => (p.1, .type p.2)

def keyword? (word : List Char) : Option Token := keywords.lookup (String.ofList (word.map Char.toLower))

/-- A letter, then letters, digits and underscores, but no keyword. -/
def isIdentifier (name : String) : Bool :=
  name.toList.all isWordChar && name.toList.head?.any Char.isAlpha && (keyword? name.toList).isNone

/-- The token of a run of letters, digits and underscores. -/
def Token.ofWord? (word : List Char) : Option Token :=
  if word.all Char.isDigit then some (.number (Nat.ofDigitChars 10 word 0))
  else if word.head?.any Char.isAlpha then some ((keyword? word).getD (.name (String.ofList word)))
  else none

/-- The text of a literal up to its closing quote, and what follows it. -/
def unquote : List Char → Option (List Char × List Char)
  | '\'' :: cs => some ([], cs)
  | '\\' :: '\\' :: cs => (unquote cs).map fun r => ('\\' :: r.1, r.2)
  | '\\' :: '\'' :: cs => (unquote cs).map fun r => ('\'' :: r.1, r.2)
  | '\\' :: 'n' :: cs => (unquote cs).map fun r => ('\n' :: r.1, r.2)
  | '\\' :: _ => none
  | c :: cs => (unquote cs).map fun r => (c :: r.1, r.2)
  | [] => none

/-- The token of the longest symbol that begins with a character. -/
def Token.ofSymbol? : Char → List Char → Option (Token × List Char)
  | '(', cs => some (.opening, cs)
  | ')', cs => some (.closing, cs)
  | ',', cs => some (.comma, cs)
  | '?', cs => some (.question, cs)
  | ':', cs => some (.colon, cs)
  | '+', cs => some (.operator .add, cs)
  | '*', cs => some (.operator .multiply, cs)
  | '%', cs => some (.operator .modulo, cs)
  | '-', cs => if cs.head? = some '-' then none else some (.operator .subtract, cs)
  | '/', cs => if cs.head? = some '*' then none else some (.operator .divide, cs)
  | '=', '=' :: cs => some (.operator .equal, cs)
  | '!', '=' :: cs => some (.operator .notEqual, cs)
  | '<', '=' :: cs => some (.operator .lessThanOrEqual, cs)
  | '<', cs => some (.operator .lessThan, cs)
  | '>', '=' :: cs => some (.operator .greaterThanOrEqual, cs)
  | '>', cs => some (.operator .greaterThan, cs)
  | _, _ => none

/-- The first token of a text that does not begin with a blank, and what follows it. -/
def Token.first? (c : Char) (cs : List Char) : Option (Token × List Char) :=
  if isWordChar c then (Token.ofWord? (c :: cs.takeWhile isWordChar)).map fun t => (t, cs.dropWhile isWordChar)
  else if c = '\'' then (unquote cs).map fun r => (.text (String.ofList r.1), r.2)
  else Token.ofSymbol? c cs

theorem length_unquote {cs : List Char} {r : List Char × List Char} (h : unquote cs = some r) :
    r.2.length < cs.length := by
  fun_induction unquote cs generalizing r with
  | case1 cs =>
    cases h
    simp
  | case2 cs ih | case3 cs ih | case4 cs ih =>
    obtain ⟨r', hr', rfl⟩ := Option.map_eq_some_iff.mp h
    have hlength := ih hr'
    simp only [List.length_cons]
    omega
  | case5 => cases h
  | case6 c cs _ _ _ _ _ ih =>
    obtain ⟨r', hr', rfl⟩ := Option.map_eq_some_iff.mp h
    have hlength := ih hr'
    simp only [List.length_cons]
    omega
  | case7 => cases h

theorem Token.length_ofSymbol {c : Char} {cs : List Char} {r : Token × List Char} (h : Token.ofSymbol? c cs = some r) :
    r.2.length ≤ cs.length := by
  unfold Token.ofSymbol? at h
  split at h <;> grind

theorem Token.length_first {c : Char} {cs : List Char} {r : Token × List Char} (h : Token.first? c cs = some r) :
    r.2.length ≤ cs.length := by
  unfold Token.first? at h
  split at h
  · obtain ⟨t, -, rfl⟩ := Option.map_eq_some_iff.mp h
    exact (List.dropWhile_sublist _).length_le
  · split at h
    · obtain ⟨r', hr', rfl⟩ := Option.map_eq_some_iff.mp h
      exact Nat.le_of_lt (length_unquote hr')
    · exact Token.length_ofSymbol h

/-- The tokens of a text. -/
def scan (cs : List Char) : Option (List Token) :=
  match cs with
  | [] => some []
  | c :: cs =>
    if c.isWhitespace then scan cs
    else
      match h : Token.first? c cs with
      | some r =>
        have := Token.length_first h
        (scan r.2).map (r.1 :: ·)
      | none => none
termination_by cs.length

variable {a b : String} {ts us : List Token} {t : Token} {c : Char} {cs rest word : List Char}

theorem scan_cons (hc : c.isWhitespace = false) (h : Token.first? c cs = some (t, rest)) :
    scan (c :: cs) = (scan rest).map (t :: ·) := by
  rw [scan, if_neg (by rw [hc]; exact Bool.false_ne_true)]
  split
  · next r hr =>
    cases hr.symm.trans h
    rfl
  · next hnone => cases hnone.symm.trans h

theorem scan_blank : scan (' ' :: cs) = scan cs := by
  rw [scan, if_pos (by decide)]

theorem not_blank_of_isWordChar (h : isWordChar c = true) : c.isWhitespace = false := by
  rw [Bool.eq_false_iff]
  intro hblank
  simp only [Char.isWhitespace, Bool.or_eq_true, decide_eq_true_eq] at hblank
  rcases hblank with ((rfl | rfl) | rfl) | rfl <;> cases h

theorem not_isDigit_of_isAlpha (h : c.isAlpha = true) : c.isDigit = false := by
  change (decide (65 ≤ c.val ∧ c.val ≤ 90) || (97 ≤ c.val && c.val ≤ 122)) = true at h
  change (48 ≤ c.val && c.val ≤ 57) = false
  simp only [Bool.or_eq_true, Bool.and_eq_true, decide_eq_true_eq, UInt32.le_iff_toNat_le] at h
  simp only [Bool.and_eq_false_iff, decide_eq_false_iff_not, UInt32.le_iff_toNat_le]
  change 65 ≤ c.toNat ∧ c.toNat ≤ 90 ∨ 97 ≤ c.toNat ∧ c.toNat ≤ 122 at h
  change ¬48 ≤ c.toNat ∨ ¬c.toNat ≤ 57
  omega

/-- No word goes on here. -/
def WordEnds (rest : List Char) : Prop := ∀ c ∈ rest.head?, isWordChar c = false

theorem scan_word (hne : word ≠ []) (hword : ∀ c ∈ word, isWordChar c = true) (ht : Token.ofWord? word = some t)
    (hrest : WordEnds rest) : scan (word ++ rest) = (scan rest).map (t :: ·) := by
  cases word with
  | nil => exact absurd rfl hne
  | cons c word =>
    obtain ⟨hc, hword⟩ := List.forall_mem_cons.mp hword
    have htake : rest.takeWhile isWordChar = [] ∧ rest.dropWhile isWordChar = rest := by
      cases rest with
      | nil => exact ⟨rfl, rfl⟩
      | cons d rest => simp [hrest d rfl]
    rw [List.cons_append]
    apply scan_cons (not_blank_of_isWordChar hc)
    rw [Token.first?, if_pos hc, List.takeWhile_append_of_pos hword, List.dropWhile_append_of_pos hword, htake.1, htake.2,
      List.append_nil, ht]
    rfl

theorem unquote_quoteChars (s : List Char) : unquote (quoteChars s ++ '\'' :: rest) = some (s, rest) := by
  induction s using quoteChars.induct with
  | case1 => rfl
  | case2 s ih => simp [quoteChars, unquote, ih]
  | case3 s ih => simp [quoteChars, unquote, ih]
  | case4 s ih => simp [quoteChars, unquote, ih]
  | case5 c s hslash hquote hfeed ih =>
    rw [quoteChars, List.cons_append, unquote, ih]
    all_goals simp_all

theorem scan_quote (s : String) : scan ((quote s).toList ++ rest) = (scan rest).map (.text s :: ·) := by
  have htext : (quote s).toList ++ rest = '\'' :: (quoteChars s.toList ++ '\'' :: rest) := by
    simp [quote, String.toList_append]
  rw [htext]
  apply scan_cons rfl
  rw [Token.first?, if_neg (by decide), if_pos rfl, unquote_quoteChars]
  simp

/-! ### Texts that can be put together -/

/-- The tokens of a text before which and after which no word goes on. -/
def Lexed (text : String) (ts : List Token) : Prop :=
  ∀ rest, WordEnds rest → scan (text.toList ++ rest) = (scan rest).map (ts ++ ·)

/-- The tokens of a text after which anything may follow. -/
def Sealed (text : String) (ts : List Token) : Prop :=
  ∀ rest, scan (text.toList ++ rest) = (scan rest).map (ts ++ ·)

/-- The text does not go on with a word. -/
def Breaks (text : String) : Prop := ∃ c cs, text.toList = c :: cs ∧ isWordChar c = false

theorem Sealed.lexed (h : Sealed a ts) : Lexed a ts := fun rest _ => h rest

theorem scan_append (ha : scan (a.toList ++ (b.toList ++ rest)) = (scan (b.toList ++ rest)).map (ts ++ ·))
    (hb : scan (b.toList ++ rest) = (scan rest).map (us ++ ·)) :
    scan ((a ++ b).toList ++ rest) = (scan rest).map (ts ++ us ++ ·) := by
  rw [String.toList_append, List.append_assoc, ha, hb, Option.map_map]
  congr 1
  funext vs
  exact (List.append_assoc ts us vs).symm

theorem Breaks.wordEnds (h : Breaks a) : WordEnds (a.toList ++ rest) := by
  obtain ⟨c, cs, htext, hc⟩ := h
  rw [htext]
  intro d hd
  cases hd
  exact hc

theorem Sealed.append (ha : Sealed a ts) (hb : Sealed b us) : Sealed (a ++ b) (ts ++ us) :=
  fun rest => scan_append (ha _) (hb rest)

theorem Sealed.append_lexed (ha : Sealed a ts) (hb : Lexed b us) : Lexed (a ++ b) (ts ++ us) :=
  fun rest hrest => scan_append (ha _) (hb rest hrest)

theorem Lexed.append_sealed (ha : Lexed a ts) (hb : Sealed b us) (hbreaks : Breaks b) : Sealed (a ++ b) (ts ++ us) :=
  fun rest => scan_append (ha _ hbreaks.wordEnds) (hb rest)

theorem Lexed.append (ha : Lexed a ts) (hb : Lexed b us) (hbreaks : Breaks b) : Lexed (a ++ b) (ts ++ us) :=
  fun rest hrest => scan_append (ha _ hbreaks.wordEnds) (hb rest hrest)

/-! ### Words and symbols -/

theorem lexed_word (hne : a.toList ≠ []) (hword : a.toList.all isWordChar = true)
    (ht : Token.ofWord? a.toList = some t) : Lexed a [t] :=
  fun _ hrest => scan_word hne (List.all_eq_true.mp hword) ht hrest

theorem exists_letter_of_isIdentifier (h : isIdentifier a = true) : ∃ c cs, a.toList = c :: cs ∧ c.isAlpha = true := by
  simp only [isIdentifier, Bool.and_eq_true] at h
  cases hcs : a.toList with
  | nil =>
    rw [hcs] at h
    cases h.1.2
  | cons c cs =>
    rw [hcs] at h
    exact ⟨c, cs, rfl, h.1.2⟩

theorem lexed_name (h : isIdentifier a = true) : Lexed a [.name a] := by
  obtain ⟨c, cs, hcs, hc⟩ := exists_letter_of_isIdentifier h
  simp only [isIdentifier, Bool.and_eq_true, Option.isNone_iff_eq_none] at h
  obtain ⟨⟨hword, halpha⟩, hkeyword⟩ := h
  have hdigits : a.toList.all Char.isDigit = false := by
    rw [hcs, List.all_cons, not_isDigit_of_isAlpha hc]
    rfl
  apply lexed_word (by simp [hcs]) hword
  rw [Token.ofWord?, hdigits, halpha, hkeyword]
  simp

theorem lexed_number (n : Nat) : Lexed (toString n) [.number n] := by
  have hdigit : ∀ c ∈ Nat.toDigits 10 n, c.isDigit = true :=
    fun c hc => Nat.isDigit_of_mem_toDigits (by omega) (by omega) hc
  have htext : (toString n).toList = Nat.toDigits 10 n := Nat.toList_repr
  have hall : (Nat.toDigits 10 n).all Char.isDigit = true := List.all_eq_true.mpr hdigit
  apply lexed_word
  · rw [htext]
    exact Nat.toDigits_ne_nil
  · rw [htext, List.all_eq_true]
    intro c hc
    simp [isWordChar, Char.isAlphanum, hdigit c hc]
  · rw [htext, Token.ofWord?, if_pos hall, Nat.ofDigitChars_ten_toDigits]

theorem sealed_opening : Sealed "(" [.opening] := fun _ => scan_cons rfl rfl

theorem sealed_closing : Sealed ")" [.closing] := fun _ => scan_cons rfl rfl

theorem sealed_comma : Sealed ", " [.comma] := by
  intro rest
  show scan (',' :: ' ' :: rest) = _
  rw [scan_cons (t := .comma) rfl rfl, scan_blank]
  rfl

theorem sealed_question : Sealed " ? " [.question] := by
  intro rest
  show scan (' ' :: '?' :: ' ' :: rest) = _
  rw [scan_blank, scan_cons (t := .question) rfl rfl, scan_blank]
  rfl

theorem sealed_colon : Sealed " : " [.colon] := by
  intro rest
  show scan (' ' :: ':' :: ' ' :: rest) = _
  rw [scan_blank, scan_cons (t := .colon) rfl rfl, scan_blank]
  rfl

theorem sealed_blank : Sealed " " [] := by
  intro rest
  show scan (' ' :: rest) = _
  rw [scan_blank]
  simp

theorem Lexed.blank (h : Lexed a ts) : Sealed (a ++ " ") ts := by
  simpa using h.append_sealed sealed_blank ⟨' ', [], rfl, rfl⟩

theorem lexed_is : Lexed "IS" [.is] := lexed_word (by decide) rfl rfl

theorem lexed_not : Lexed "NOT" [.not] := lexed_word (by decide) rfl rfl

theorem lexed_null : Lexed "NULL" [.null] := lexed_word (by decide) rfl rfl

theorem sealed_not : Sealed "NOT " [.not] := lexed_not.blank

theorem scan_operator {op : BinaryOp} {o : Operator} (ho : op.operator? = some o) :
    scan (o.symbol.toList ++ ' ' :: rest) = (scan (' ' :: rest)).map (.operator op :: ·) := by
  cases op <;> cases ho <;> exact scan_cons rfl rfl

theorem sealed_operator {op : BinaryOp} {o : Operator} (ho : op.operator? = some o) :
    Sealed (" " ++ o.symbol ++ " ") [.operator op] := by
  intro rest
  have htext : (" " ++ o.symbol ++ " ").toList ++ rest = ' ' :: (o.symbol.toList ++ ' ' :: rest) := by
    simp [String.toList_append]
  rw [htext, scan_blank, scan_operator ho, scan_blank]
  rfl

theorem lexed_isNull : Lexed " IS NULL" [.is, .null] :=
  sealed_blank.append_lexed (lexed_is.blank.append_lexed lexed_null)

theorem lexed_isNotNull : Lexed " IS NOT NULL" [.is, .not, .null] :=
  sealed_blank.append_lexed (lexed_is.blank.append_lexed (lexed_not.blank.append_lexed lexed_null))

theorem sealed_cast {name : String} {type : DataType} (h : (name, type) ∈ typeNames) :
    Sealed ("(" ++ name ++ ")") [.opening, .type type, .closing] := by
  have hname : Lexed name [.type type] := by
    simp only [typeNames, List.mem_cons, Prod.mk.injEq, List.not_mem_nil, or_false] at h
    rcases h with ⟨rfl, rfl⟩ | ⟨rfl, rfl⟩ | ⟨rfl, rfl⟩ | ⟨rfl, rfl⟩ | ⟨rfl, rfl⟩ <;>
      exact lexed_word (by decide) rfl rfl
  exact (sealed_opening.append_lexed hname).append_sealed sealed_closing ⟨')', [], rfl, rfl⟩

/-! ### Signs -/

/-- The text begins with neither a sign nor a digit. -/
def Unsigned (text : String) : Prop :=
  ∃ c cs, text.toList = c :: cs ∧ c ≠ '-' ∧ c.isDigit = false ∧ c.isWhitespace = false

theorem Unsigned.append (h : Unsigned a) (b : String) : Unsigned (a ++ b) := by
  obtain ⟨c, cs, htext, hc⟩ := h
  exact ⟨c, cs ++ b.toList, by rw [String.toList_append, htext]; rfl, hc⟩

/-- A sign is a token of its own unless it is followed by another one. -/
theorem Lexed.signed (h : Lexed a ts) (hc : ∃ c cs, a.toList = c :: cs ∧ c ≠ '-') :
    Lexed ("-" ++ a) (.operator .subtract :: ts) := by
  intro rest hrest
  obtain ⟨c, cs, htext, hc⟩ := hc
  have hsign : Token.first? '-' (a.toList ++ rest) = some (.operator .subtract, a.toList ++ rest) := by
    rw [htext]
    show (if some c = some '-' then none else _) = _
    rw [if_neg (by simpa using hc)]
  rw [String.toList_append, List.append_assoc]
  refine (scan_cons (c := '-') rfl hsign).trans ?_
  rw [h rest hrest, Option.map_map]
  rfl

theorem isNumber_keyword (h : keyword? word = some t) : t.isNumber = false := by
  obtain ⟨before, after, heq, -⟩ := List.lookup_eq_some_iff.mp h
  have hmem : t ∈ keywords.map Prod.snd := by
    rw [heq]
    simp
  have hall : ∀ t ∈ keywords.map Prod.snd, t.isNumber = false := by decide
  exact hall t hmem

theorem isNumber_ofSymbol (h : Token.ofSymbol? c cs = some (t, rest)) : t.isNumber = false := by
  unfold Token.ofSymbol? at h
  split at h <;> grind [Token.isNumber]

/-- Only a digit begins a number. -/
theorem isNumber_first (h : Token.first? c cs = some (t, rest)) (hc : c.isDigit = false) : t.isNumber = false := by
  unfold Token.first? at h
  split at h
  · obtain ⟨u, hu, heq⟩ := Option.map_eq_some_iff.mp h
    cases heq
    rw [Token.ofWord?, List.all_cons, hc, Bool.false_and, if_neg Bool.false_ne_true] at hu
    split at hu
    · cases hu
      cases hword : keyword? (c :: cs.takeWhile isWordChar) with
      | some u => exact isNumber_keyword hword
      | none => rfl
    · cases hu
  · split at h
    · obtain ⟨r, -, heq⟩ := Option.map_eq_some_iff.mp h
      cases heq
      rfl
    · exact isNumber_ofSymbol h

theorem Lexed.unsigned (h : Lexed a ts) (ha : Unsigned a) : ∀ t ∈ ts.head?, t.isNumber = false := by
  obtain ⟨c, cs, htext, -, hdigit, hblank⟩ := ha
  have hscan : scan (c :: cs) = some ts := by
    have hrest := h [] (by intro d hd; cases hd)
    rw [htext, List.append_nil, scan] at hrest
    rw [hrest]
    simp
  rw [scan, if_neg (by rw [hblank]; exact Bool.false_ne_true)] at hscan
  intro t ht
  split at hscan
  · next r hfirst =>
    obtain ⟨us, -, rfl⟩ := Option.map_eq_some_iff.mp hscan
    cases ht
    exact isNumber_first hfirst hdigit
  · cases hscan

end PigChain
