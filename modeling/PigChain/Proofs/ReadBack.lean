import PigChain.Script.Lower
import PigChain.Proofs.Lexemes

/-!
# Terms read back

The text of a term puts parentheses around some operands only: operators, null tests and negated conditions have them,
signs, casts, choices and calls do not. That is enough for the text to have one reading, and that reading is the
expression the term was made of, without its types.
-/

namespace PigChain

variable {a b c : String} {l : Nat} {x y z : Phrase} {u v w : Term}

/-- A text whose tokens are read at a level as a phrase. -/
def Legible (l : Nat) (text : String) (x : Phrase) : Prop := ∃ ts, Lexed text ts ∧ Parses l ts x

theorem Legible.mono {k : Nat} (h : Legible l a x) (hkl : k ≤ l) : Legible k a x := by
  obtain ⟨ts, hts, hx⟩ := h
  exact ⟨ts, hts, hx.mono hkl⟩

/-! ### One step of the grammar, in text -/

theorem legible_word {t : Token} (h : Lexed a [t]) (hx : t.atom? = some x) : Legible 8 a x := ⟨[t], h, .atom hx⟩

theorem legible_group (hx : Legible 1 a x) : Legible 8 ("(" ++ a ++ ")") x := by
  obtain ⟨ts, hts, hx⟩ := hx
  exact ⟨_, ((sealed_opening.append_lexed hts).append_sealed sealed_closing ⟨')', [], rfl, rfl⟩).lexed, .group hx⟩

theorem legible_not (hx : Legible 3 a x) : Legible 3 ("NOT " ++ a) (.not x) := by
  obtain ⟨ts, hts, hx⟩ := hx
  exact ⟨_, sealed_not.append_lexed hts, .not hx⟩

theorem legible_negate (hx : Legible 7 a x) (ha : Unsigned a) : Legible 7 ("-" ++ a) (.negate x) := by
  obtain ⟨ts, hts, hx⟩ := hx
  have hnumber := hts.unsigned ha
  obtain ⟨d, cs, htext, hd, -⟩ := ha
  exact ⟨_, hts.signed ⟨d, cs, htext, hd⟩, .negate hx hnumber⟩

theorem digits_head (n : Nat) : ∃ d cs, (toString n).toList = d :: cs ∧ d ≠ '-' := by
  have htext : (toString n).toList = Nat.toDigits 10 n := Nat.toList_repr
  obtain ⟨d, cs, hcs⟩ := List.exists_cons_of_ne_nil (Nat.toDigits_ne_nil (n := n) (b := 10))
  refine ⟨d, cs, htext.trans hcs, ?_⟩
  have hdigit : d.isDigit = true := Nat.isDigit_of_mem_toDigits (by omega) (by omega) (hcs ▸ List.mem_cons_self)
  rintro rfl
  cases hdigit

theorem legible_int (n : Int) : Legible 7 (toString n) (.int n) := by
  cases n with
  | ofNat n => exact (legible_word (lexed_number n) rfl).mono (by omega)
  | negSucc n =>
    have htext : toString (Int.negSucc n) = "-" ++ toString (n + 1) := rfl
    rw [htext]
    exact ⟨_, (lexed_number (n + 1)).signed (digits_head (n + 1)), .negative (n + 1)⟩

theorem legible_cast {name : String} {type : DataType} (hname : (name, type) ∈ typeNames) (hx : Legible 7 a x) :
    Legible 7 ("(" ++ name ++ ")" ++ a) (.cast type x) := by
  obtain ⟨ts, hts, hx⟩ := hx
  exact ⟨_, (sealed_cast hname).append_lexed hts, .cast hx⟩

theorem legible_isNull (hx : Legible 4 a x) : Legible 4 (a ++ " IS NULL") (.isNull x) := by
  obtain ⟨ts, hts, hx⟩ := hx
  exact ⟨_, hts.append lexed_isNull ⟨' ', _, rfl, rfl⟩, .isNull hx⟩

theorem legible_isNotNull (hx : Legible 4 a x) : Legible 4 (a ++ " IS NOT NULL") (.not (.isNull x)) := by
  obtain ⟨ts, hts, hx⟩ := hx
  exact ⟨_, hts.append lexed_isNotNull ⟨' ', _, rfl, rfl⟩, .isNotNull hx⟩

theorem legible_join {t : Token} {j : Nat × (Phrase → Phrase → Phrase)} (ht : t.joins? = some j) (hb : Sealed b [t])
    (hbreaks : Breaks b) (hx : Legible j.1 a x) (hy : Legible (j.1 + 1) c y) : Legible j.1 (a ++ b ++ c) (j.2 x y) := by
  obtain ⟨ts, hts, hx⟩ := hx
  obtain ⟨us, hus, hy⟩ := hy
  refine ⟨ts ++ [t] ++ us, (hts.append_sealed hb hbreaks).append_lexed hus, ?_⟩
  rw [List.append_assoc]
  exact .join ht hx hy

theorem legible_pair (hx : Legible 0 a x) (hy : Legible 1 b y) : Legible 0 (a ++ ", " ++ b) (.pair x y) :=
  legible_join rfl sealed_comma ⟨',', [' '], rfl, rfl⟩ hx hy

theorem legible_call {function : String} (hf : isIdentifier function = true) (hx : Legible 0 a x) :
    Legible 8 (function ++ "(" ++ a ++ ")") (.call function x) := by
  obtain ⟨ts, hts, hx⟩ := hx
  have hopen := (lexed_name hf).append_sealed sealed_opening ⟨'(', [], rfl, rfl⟩
  exact ⟨_, ((hopen.append_lexed hts).append_sealed sealed_closing ⟨')', [], rfl, rfl⟩).lexed, .call hx⟩

theorem legible_choose (hx : Legible 1 a x) (hy : Legible 1 b y) (hz : Legible 1 c z) :
    Legible 8 ("(" ++ a ++ " ? " ++ b ++ " : " ++ c ++ ")") (.choose x y z) := by
  obtain ⟨ts, hts, hx⟩ := hx
  obtain ⟨us, hus, hy⟩ := hy
  obtain ⟨vs, hvs, hz⟩ := hz
  have htest := (sealed_opening.append_lexed hts).append_sealed sealed_question ⟨' ', _, rfl, rfl⟩
  have hfirst := (htest.append_lexed hus).append_sealed sealed_colon ⟨' ', _, rfl, rfl⟩
  have hsecond := (hfirst.append_lexed hvs).append_sealed sealed_closing ⟨')', [], rfl, rfl⟩
  refine ⟨_, hsecond.lexed, ?_⟩
  simpa using Parses.choose hx hy hz

/-! ### Terms and the phrases they spell -/

/-- A sign, or a number that may have one. -/
def Term.isSigned : Term → Bool
  | .int _ | .negate _ => true
  | _ => false

/-- The phrase that a term stands for. -/
inductive Term.Spells : Term → Phrase → Prop where
  | null : Spells .null .null
  | bool (b : Bool) : Spells (.bool b) (.bool b)
  | int (n : Int) : Spells (.int n) (.int n)
  | text (s : String) : Spells (.text s) (.text s)
  | field {name : String} (h : isIdentifier name = true) : Spells (.field name) (.field name)
  | not {u : Term} {x : Phrase} (hu : Spells u x) : Spells (.not u) (.not x)
  | negate {u : Term} {x : Phrase} (hu : Spells u x) (hs : u.isSigned = false) : Spells (.negate u) (.negate x)
  | cast {c : Cast} {type : DataType} {u : Term} {x : Phrase} (hc : (c.name, type) ∈ typeNames) (hu : Spells u x) :
    Spells (.cast c u) (.cast type x)
  | isNull {u : Term} {x : Phrase} (hu : Spells u x) : Spells (.isNull u) (.isNull x)
  | isNotNull {u : Term} {x : Phrase} (hu : Spells u x) : Spells (.isNotNull u) (.not (.isNull x))
  | operation {op : BinaryOp} {o : Operator} {u v : Term} {x y : Phrase} (ho : op.operator? = some o)
    (hu : Spells u x) (hv : Spells v y) : Spells (.operation o u v) (.operation op x y)
  | choose {u v w : Term} {x y z : Phrase} (hu : Spells u x) (hv : Spells v y) (hw : Spells w z) :
    Spells (.choose u v w) (.choose x y z)
  | orElse {u v : Term} {x y : Phrase} (hu : Spells u x) (hv : Spells v y) :
    Spells (.orElse u v) (.choose (.isNull x) y x)
  | call1 (f : Builtin) {u : Term} {x : Phrase} (hu : Spells u x) : Spells (.call1 f u) (.call f.name x)
  | call2 (f : Builtin) {u v : Term} {x y : Phrase} (hu : Spells u x) (hv : Spells v y) :
    Spells (.call2 f u v) (.call f.name (.pair x y))
  | contains {u v : Term} {x y : Phrase} (hu : Spells u x) (hv : Spells v y) :
    Spells (.contains u v)
      (.operation .greaterThanOrEqual (.call "INDEXOF" (.pair (.pair x y) (.int 0))) (.int 0))

/-- How the text of a term is read: as a whole, and as an operand. -/
structure Term.ReadAs (u : Term) (x : Phrase) : Prop where
  whole : Legible 1 u.render x
  operand : Legible 7 (u.operand u.render) x
  unsigned : u.isSigned = false → Unsigned (u.operand u.render)

theorem unsigned_group (text : String) : Unsigned ("(" ++ text) :=
  Unsigned.append ⟨'(', [], rfl, by decide, rfl, rfl⟩ text

theorem Term.readAs_compound (hu : u.isCompound = true) (h : Legible 1 u.render x) : u.ReadAs x := by
  have hoperand : u.operand u.render = "(" ++ u.render ++ ")" := if_pos hu
  refine ⟨h, ?_, fun _ => ?_⟩
  · rw [hoperand]
    exact (legible_group h).mono (by omega)
  · rw [hoperand, String.append_assoc]
    exact unsigned_group _

theorem Term.readAs_tight (hu : u.isCompound = false) (h : Legible 7 u.render x)
    (hs : u.isSigned = false → Unsigned u.render) : u.ReadAs x := by
  have hoperand : u.operand u.render = u.render := if_neg (by rw [hu]; exact Bool.false_ne_true)
  refine ⟨h.mono (by omega), ?_, fun hsigned => ?_⟩
  · rw [hoperand]
    exact h
  · rw [hoperand]
    exact hs hsigned

theorem Term.readAs_word {t : Token} (hu : u.isCompound = false) (ht : Lexed u.render [t]) (hx : t.atom? = some x)
    (hs : Unsigned u.render) : u.ReadAs x :=
  Term.readAs_tight hu ((legible_word ht hx).mono (by omega)) fun _ => hs

theorem isIdentifier_builtin (f : Builtin) : isIdentifier f.name = true := by
  cases f <;> decide

theorem unsigned_identifier (h : isIdentifier a = true) : Unsigned a := by
  obtain ⟨d, cs, hcs, hd⟩ := exists_letter_of_isIdentifier h
  refine ⟨d, cs, hcs, ?_, not_isDigit_of_isAlpha hd, not_blank_of_isWordChar ?_⟩
  · rintro rfl
    cases hd
  · simp [isWordChar, Char.isAlphanum, hd]

theorem lexed_quote (s : String) : Lexed (quote s) [.text s] := fun _ _ => scan_quote s

theorem unsigned_quote (s : String) : Unsigned (quote s) := by
  unfold quote
  rw [String.append_assoc]
  exact Unsigned.append ⟨'\'', [], rfl, by decide, rfl, rfl⟩ _

theorem legible_operation {op : BinaryOp} {o : Operator} (ho : op.operator? = some o) (hx : Legible 7 a x)
    (hy : Legible 7 b y) : Legible 1 (a ++ (" " ++ o.symbol ++ " ") ++ b) (.operation op x y) := by
  have hbreaks : Breaks (" " ++ o.symbol ++ " ") := by
    refine ⟨' ', o.symbol.toList ++ [' '], ?_, rfl⟩
    simp [String.toList_append]
  cases hl : op.level? with
  | none => cases op <;> cases ho <;> cases hl
  | some l =>
    have ht : (Token.operator op).joins? = some (l, .operation op) := by simp [Token.joins?, hl]
    have hlevel := Token.joins?_level ht
    have hpos : 1 ≤ l := by cases op <;> cases hl <;> decide
    exact (legible_join ht (sealed_operator ho) hbreaks (hx.mono (by omega)) (hy.mono (by omega))).mono hpos

theorem readAs_of_spells (h : u.Spells x) : u.ReadAs x := by
  induction h with
  | null =>
    exact Term.readAs_word (t := .null) rfl (lexed_word (by decide) rfl rfl) rfl ⟨'n', _, rfl, by decide, rfl, rfl⟩
  | bool b =>
    apply Term.readAs_word (t := .bool b) rfl _ rfl
    · cases b with
      | true => exact ⟨'t', _, rfl, by decide, rfl, rfl⟩
      | false => exact ⟨'f', _, rfl, by decide, rfl, rfl⟩
    · cases b with
      | true => exact lexed_word (by decide) rfl rfl
      | false => exact lexed_word (by decide) rfl rfl
  | int n => exact Term.readAs_tight rfl (legible_int n) fun hs => by cases hs
  | text s => exact Term.readAs_word rfl (lexed_quote s) rfl (unsigned_quote s)
  | field h => exact Term.readAs_word rfl (lexed_name h) rfl (unsigned_identifier h)
  | not hu ih => exact Term.readAs_compound rfl ((legible_not (ih.operand.mono (by omega))).mono (by omega))
  | negate hu hs ih => exact Term.readAs_tight rfl (legible_negate ih.operand (ih.unsigned hs)) fun hs => by cases hs
  | cast hc hu ih =>
    refine Term.readAs_tight rfl (legible_cast hc ih.operand) fun _ => ?_
    unfold Term.render
    rw [String.append_assoc, String.append_assoc]
    exact unsigned_group _
  | isNull hu ih => exact Term.readAs_compound rfl ((legible_isNull (ih.operand.mono (by omega))).mono (by omega))
  | isNotNull hu ih => exact Term.readAs_compound rfl ((legible_isNotNull (ih.operand.mono (by omega))).mono (by omega))
  | operation ho hu hv ihu ihv =>
    refine Term.readAs_compound rfl ?_
    have hread := legible_operation ho ihu.operand ihv.operand
    simpa only [Term.render, String.append_assoc] using hread
  | choose hu hv hw ihu ihv ihw =>
    refine Term.readAs_tight rfl ((legible_choose (ihu.operand.mono (by omega)) (ihv.operand.mono (by omega))
      (ihw.operand.mono (by omega))).mono (by omega)) fun _ => ?_
    simp only [Term.render, String.append_assoc]
    exact unsigned_group _
  | orElse hu hv ihu ihv =>
    -- The test has no parentheses of its own, since a choice takes any phrase for its test.
    have htest := (legible_isNull (ihu.operand.mono (by omega))).mono (k := 1) (by omega)
    have hread := legible_choose htest (ihv.operand.mono (by omega)) (ihu.operand.mono (by omega))
    have htext : " IS NULL ? " = " IS NULL" ++ " ? " := rfl
    refine Term.readAs_tight rfl ?_ fun _ => ?_
    · simpa only [Term.render, htext, String.append_assoc] using hread.mono (k := 7) (by omega)
    · simp only [Term.render, String.append_assoc]
      exact unsigned_group _
  | call1 f hu ih =>
    have hread := legible_call (isIdentifier_builtin f) (ih.whole.mono (Nat.zero_le 1))
    refine Term.readAs_tight rfl (hread.mono (by omega)) fun _ => ?_
    simp only [Term.render, String.append_assoc]
    exact (unsigned_identifier (isIdentifier_builtin f)).append _
  | call2 f hu hv ihu ihv =>
    have hread := legible_call (isIdentifier_builtin f) (legible_pair (ihu.whole.mono (Nat.zero_le 1)) ihv.whole)
    refine Term.readAs_tight rfl ?_ fun _ => ?_
    · simpa only [Term.render, String.append_assoc] using hread.mono (k := 7) (by omega)
    · simp only [Term.render, String.append_assoc]
      exact (unsigned_identifier (isIdentifier_builtin f)).append _
  | contains hu hv ihu ihv =>
    have hzero : Legible 7 "0" (.int 0) := legible_int 0
    have hargs := legible_pair (legible_pair (ihu.whole.mono (Nat.zero_le 1)) ihv.whole) (hzero.mono (k := 1) (by omega))
    have hcall := legible_call (by decide : isIdentifier "INDEXOF" = true) hargs
    have hop : BinaryOp.operator? .greaterThanOrEqual = some .greaterThanOrEqual := rfl
    have hread := legible_group (legible_operation hop (hcall.mono (by omega)) hzero)
    have hbefore : "(INDEXOF(" = "(" ++ ("INDEXOF" ++ "(") := rfl
    have hafter : ", 0) >= 0)" = ", " ++ ("0" ++ (")" ++ (" " ++ (">=" ++ (" " ++ ("0" ++ ")")))))) := rfl
    refine Term.readAs_tight rfl ?_ fun _ => ?_
    · simpa only [Term.render, Operator.symbol, hbefore, hafter, String.append_assoc] using hread.mono (k := 7) (by omega)
    · simp only [Term.render, hbefore, String.append_assoc]
      exact unsigned_group _

/-! ### Expressions without their types -/

/-- The methods of a text and the functions that compute them. -/
def textFunctions : List (String × String) :=
  [("ToUpper", "UPPER"), ("ToLower", "LOWER"), ("Trim", "TRIM"), ("Length", "SIZE")]

/-- The tests of a text against another and the functions that compute them. -/
def textTests : List (String × String) := [("StartsWith", "STARTSWITH"), ("EndsWith", "ENDSWITH")]

def Expr.isSigned : Expr → Bool
  | .constant (.int _) _ | .unary .negate _ _ => true
  | _ => false

/-- The expressions of a row that a script can write, and what is left of them without types. A default for a missing
value is the choice that it stands for, a sum of texts is their concatenation, and a method is a function. -/
inductive Expr.Erased : Expr → Phrase → Prop where
  | null {t : DataType} : Erased (.constant .null t) .null
  | bool {b : Bool} {t : DataType} : Erased (.constant (.bool b) t) (.bool b)
  | int {n : Int64} {t : DataType} : Erased (.constant (.int n) t) (.int n.toInt)
  | text {s : String} {t : DataType} : Erased (.constant (.string s) t) (.text s)
  | column {name : String} {t : DataType} (h : isIdentifier name = true) : Erased (.column name .row t) (.field name)
  | not {e : Expr} {x : Phrase} {t : DataType} (he : Erased e x) : Erased (.unary .not e t) (.not x)
  | negate {e : Expr} {x : Phrase} {t : DataType} (he : Erased e x) (hs : e.isSigned = false) :
    Erased (.unary .negate e t) (.negate x)
  | convert {e : Expr} {x : Phrase} {t : DataType} (he : Erased e x) (ht : t ∈ typeNames.map Prod.snd) :
    Erased (.unary .convert e t) (.cast t x)
  | operation {op : BinaryOp} {e f : Expr} {x y : Phrase} {t : DataType} (he : Erased e x) (hf : Erased f y)
    (hop : op ≠ .coalesce) (ht : op = .add → t ≠ .string) : Erased (.binary op e f t) (.operation op x y)
  | concat {e f : Expr} {x y : Phrase} (he : Erased e x) (hf : Erased f y) :
    Erased (.binary .add e f .string) (.call "CONCAT" (.pair x y))
  | coalesce {e f : Expr} {x y : Phrase} {t : DataType} (he : Erased e x) (hf : Erased f y) :
    Erased (.binary .coalesce e f t) (.choose (.isNull x) y x)
  | conditional {e f g : Expr} {x y z : Phrase} {t : DataType} (he : Erased e x) (hf : Erased f y) (hg : Erased g z) :
    Erased (.conditional e f g t) (.choose x y z)
  | isNull {e : Expr} {x : Phrase} (he : Erased e x) : Erased (.isNull e) (.isNull x)
  | method {e : Expr} {x : Phrase} {name function : String} {t : DataType} (he : Erased e x)
    (hm : (name, function) ∈ textFunctions) : Erased (.call (some e) name [] t) (.call function x)
  | test {e f : Expr} {x y : Phrase} {name function : String} {t : DataType} (he : Erased e x) (hf : Erased f y)
    (hm : (name, function) ∈ textTests) : Erased (.call (some e) name [f] t) (.call function (.pair x y))
  | contains {e f : Expr} {x y : Phrase} {t : DataType} (he : Erased e x) (hf : Erased f y) :
    Erased (.call (some e) "Contains" [f] t)
      (.operation .greaterThanOrEqual (.call "INDEXOF" (.pair (.pair x y) (.int 0))) (.int 0))

theorem Term.Spells.negation (h : u.Spells x) : u.negation.Spells (.not x) := by
  have hnot : (Term.not u).Spells (.not x) := .not h
  cases h with
  | isNull hu => exact .isNotNull hu
  | _ => exact hnot

theorem cast?_of_mem {t : DataType} (ht : t ∈ typeNames.map Prod.snd) :
    ∃ c, t.cast? = some c ∧ (c.name, t) ∈ typeNames := by
  simp only [typeNames, List.map_cons, List.map_nil, List.mem_cons, List.not_mem_nil, or_false] at ht
  rcases ht with rfl | rfl | rfl | rfl | rfl
  · exact ⟨.long, rfl, by decide⟩
  · exact ⟨.double, rfl, by decide⟩
  · exact ⟨.chararray, rfl, by decide⟩
  · exact ⟨.boolean, rfl, by decide⟩
  · exact ⟨.datetime, rfl, by decide⟩

theorem operator?_of_ne {op : BinaryOp} (h : op ≠ .coalesce) : ∃ o, op.operator? = some o := by
  cases op with
  | coalesce => exact absurd rfl h
  | _ => exact ⟨_, rfl⟩

theorem ofMethod?_of_mem {name function : String} (h : (name, function) ∈ textFunctions) :
    ∃ f, Builtin.ofMethod? name = some f ∧ f.name = function := by
  simp only [textFunctions, List.mem_cons, Prod.mk.injEq, List.not_mem_nil, or_false] at h
  rcases h with ⟨rfl, rfl⟩ | ⟨rfl, rfl⟩ | ⟨rfl, rfl⟩ | ⟨rfl, rfl⟩
  · exact ⟨.upper, rfl, rfl⟩
  · exact ⟨.lower, rfl, rfl⟩
  · exact ⟨.trim, rfl, rfl⟩
  · exact ⟨.size, rfl, rfl⟩

theorem callTerm_of_mem {name function : String} (h : (name, function) ∈ textTests) (u v : Term) :
    ∃ f, callTerm name (some u) [v] = .ok (.call2 f u v) ∧ f.name = function := by
  simp only [textTests, List.mem_cons, Prod.mk.injEq, List.not_mem_nil, or_false] at h
  rcases h with ⟨rfl, rfl⟩ | ⟨rfl, rfl⟩
  · exact ⟨.startsWith, rfl, rfl⟩
  · exact ⟨.endsWith, rfl, rfl⟩

theorem lower_of_erased {e : Expr} (h : e.Erased x) (bag : Option Nat) :
    ∃ u, e.lower bag = pure u ∧ u.Spells x ∧ u.isSigned = e.isSigned := by
  -- Whether a sign comes first is kept track of, since a sign in front of another would not be read back.
  induction h with
  | null => exact ⟨.null, rfl, .null, rfl⟩
  | @bool b t => exact ⟨.bool b, rfl, .bool b, rfl⟩
  | @int n t => exact ⟨.int n.toInt, rfl, .int _, rfl⟩
  | @text s t => exact ⟨.text s, rfl, .text s, rfl⟩
  | @column name t h => exact ⟨.field name, rfl, .field h, rfl⟩
  | not he ih =>
    obtain ⟨u, hu, hspells, -⟩ := ih
    refine ⟨u.negation, ?_, hspells.negation, ?_⟩
    · rw [Expr.lower, hu, pure_bind]
    · cases u <;> rfl
  | negate he hs ih =>
    obtain ⟨u, hu, hspells, hsigned⟩ := ih
    refine ⟨.negate u, ?_, .negate hspells (hsigned.trans hs), rfl⟩
    rw [Expr.lower, hu, pure_bind]
  | convert he ht ih =>
    obtain ⟨u, hu, hspells, -⟩ := ih
    obtain ⟨c, hc, hname⟩ := cast?_of_mem ht
    refine ⟨.cast c u, ?_, .cast hname hspells, rfl⟩
    simp only [Expr.lower, hc, hu, pure_bind]
  | @operation op e f x y t he hf hop ht ihe ihf =>
    obtain ⟨u, hu, hspellsu, -⟩ := ihe
    obtain ⟨v, hv, hspellsv, -⟩ := ihf
    obtain ⟨o, ho⟩ := operator?_of_ne hop
    have hterm : binaryTerm op t u v = .operation o u v := by
      rw [binaryTerm, if_neg (by simpa using ht), ho]
    refine ⟨.operation o u v, ?_, .operation ho hspellsu hspellsv, rfl⟩
    rw [Expr.lower, hu, hv, pure_bind, pure_bind, hterm]
  | concat he hf ihe ihf =>
    obtain ⟨u, hu, hspellsu, -⟩ := ihe
    obtain ⟨v, hv, hspellsv, -⟩ := ihf
    refine ⟨.call2 .concat u v, ?_, .call2 .concat hspellsu hspellsv, rfl⟩
    rw [Expr.lower, hu, hv, pure_bind, pure_bind]
    rfl
  | coalesce he hf ihe ihf =>
    obtain ⟨u, hu, hspellsu, -⟩ := ihe
    obtain ⟨v, hv, hspellsv, -⟩ := ihf
    refine ⟨.orElse u v, ?_, .orElse hspellsu hspellsv, rfl⟩
    rw [Expr.lower, hu, hv, pure_bind, pure_bind]
    rfl
  | conditional he hf hg ihe ihf ihg =>
    obtain ⟨u, hu, hspellsu, -⟩ := ihe
    obtain ⟨v, hv, hspellsv, -⟩ := ihf
    obtain ⟨w, hw, hspellsw, -⟩ := ihg
    refine ⟨.choose u v w, ?_, .choose hspellsu hspellsv hspellsw, rfl⟩
    rw [Expr.lower, hu, hv, hw, pure_bind, pure_bind, pure_bind]
  | isNull he ih =>
    obtain ⟨u, hu, hspells, -⟩ := ih
    refine ⟨.isNull u, ?_, .isNull hspells, rfl⟩
    rw [Expr.lower, hu, pure_bind]
  | method he hm ih =>
    obtain ⟨u, hu, hspells, -⟩ := ih
    obtain ⟨f, hf, rfl⟩ := ofMethod?_of_mem hm
    refine ⟨.call1 f u, ?_, .call1 f hspells, rfl⟩
    simp only [Expr.lower, Expr.lowerList, hu, pure_bind, callTerm, hf]
    rfl
  | test he hf hm ihe ihf =>
    obtain ⟨u, hu, hspellsu, -⟩ := ihe
    obtain ⟨v, hv, hspellsv, -⟩ := ihf
    obtain ⟨f, hcall, rfl⟩ := callTerm_of_mem hm u v
    refine ⟨.call2 f u v, ?_, .call2 f hspellsu hspellsv, rfl⟩
    simp only [Expr.lower, Expr.lowerList, hu, hv, pure_bind, hcall]
    rfl
  | contains he hf ihe ihf =>
    obtain ⟨u, hu, hspellsu, -⟩ := ihe
    obtain ⟨v, hv, hspellsv, -⟩ := ihf
    refine ⟨.contains u v, ?_, .contains hspellsu hspellsv, rfl⟩
    simp only [Expr.lower, Expr.lowerList, hu, hv, pure_bind]
    rfl

/-- What a text is read as. -/
def HasReading (text : String) (x : Phrase) : Prop := ∃ ts, scan text.toList = some ts ∧ Parses 1 ts x

theorem hasReading_iff (h : Legible 1 a x) : HasReading a y ↔ y = x := by
  obtain ⟨ts, hts, hx⟩ := h
  have hscan : scan a.toList = some ts := by
    have hrest := hts [] (by intro d hd; cases hd)
    rw [List.append_nil, scan] at hrest
    rw [hrest]
    simp
  constructor
  · rintro ⟨us, hus, hy⟩
    cases hscan.symm.trans hus
    exact parses_unique hy hx
  · rintro rfl
    exact ⟨ts, hscan, hx⟩

/-- The text of an expression has exactly one reading, which is the expression without its types. -/
theorem rendered_reads_back {e : Expr} (h : e.Erased x) (bag : Option Nat) :
    ∃ u, e.lower bag = pure u ∧ ∀ y, HasReading u.render y ↔ y = x := by
  obtain ⟨u, hu, hspells, -⟩ := lower_of_erased h bag
  exact ⟨u, hu, fun _ => hasReading_iff (readAs_of_spells hspells).whole⟩

/-- A sign before a difference, a negative number and a sum of texts with a default, under a comparison. -/
def lateNames : Expr :=
  .binary .and (.unary .not (.isNull (.column "Name" .row .string)) .bool)
    (.binary .greaterThan
      (.unary .negate (.binary .subtract (.column "Age" .row .int64) (.constant (.int (-5)) .int64) .int64) .int64)
      (.call (some (.binary .add
        (.binary .coalesce (.column "Nick" .row .string) (.constant (.string "it's -- ") .string) .string)
        (.column "Name" .row .string) .string)) "Length" [] .int64)
      .bool)
    .bool

def lateNamesPhrase : Phrase :=
  .operation .and (.not (.isNull (.field "Name")))
    (.operation .greaterThan (.negate (.operation .subtract (.field "Age") (.int (-5))))
      (.call "SIZE" (.call "CONCAT"
        (.pair (.choose (.isNull (.field "Nick")) (.text "it's -- ") (.field "Nick")) (.field "Name")))))

theorem erased_lateNames : lateNames.Erased lateNamesPhrase := by
  have hname : (Expr.column "Name" .row .string).Erased (.field "Name") := .column (by decide)
  have hsign : (Expr.unary .negate (.binary .subtract (.column "Age" .row .int64) (.constant (.int (-5)) .int64) .int64)
      .int64).Erased (.negate (.operation .subtract (.field "Age") (.int (-5)))) :=
    .negate (.operation (.column (by decide)) .int (by decide) (by decide)) rfl
  refine .operation (.not (.isNull hname)) (.operation hsign (.method (.concat (.coalesce ?_ .text) hname) ?_) ?_ ?_) ?_ ?_
  · exact .column (by decide)
  all_goals decide

theorem rendered_reads_back_lateNames :
    lateNames.Erased lateNamesPhrase ∧
      ∀ y, HasReading ("(Name IS NOT NULL) AND (-(Age - -5) > " ++
        "SIZE(CONCAT((Nick IS NULL ? 'it\\'s -- ' : Nick), Name)))") y ↔ y = lateNamesPhrase := by
  obtain ⟨u, hu, hread⟩ := rendered_reads_back erased_lateNames none
  have hlower : ((lateNames.lower none).run []).map (fun r => r.1.render) =
      .ok ("(Name IS NOT NULL) AND (-(Age - -5) > " ++
        "SIZE(CONCAT((Nick IS NULL ? 'it\\'s -- ' : Nick), Name)))") := rfl
  rw [hu] at hlower
  rw [← Except.ok.inj hlower]
  exact ⟨erased_lateNames, hread⟩

end PigChain
