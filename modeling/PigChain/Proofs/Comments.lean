import PigChain.Proofs.StatementTexts
import PigChain.Proofs.TermOrigins

/-!
# Scripts without comments

Outside literals, two dashes start a comment that takes the rest of the line with it, and so do a slash and a star. A
slash is written as an operator, with blanks around it. A dash is an operator, a sign in front of an operand or the sign
of a number, and an operand that is itself a sign with an operand is not put between parentheses. So a script holds a
comment only if a sign is written in front of a text that begins with a dash. A watch over the text, which remembers
whether the last character outside literals was a dash or a slash, finds every comment.
-/

namespace PigChain

variable {s : Stage} {e x y : Expr} {u v : Term}

/-- A comment starts at the position `i` of a text, outside literals. -/
def CommentAt (m : Scan) (cs : List Char) (i : Nat) : Prop :=
  m.after (cs.take i) = .outside ∧ (['-', '-'] <+: cs.drop i ∨ ['/', '*'] <+: cs.drop i)

instance (m : Scan) (cs : List Char) (i : Nat) : Decidable (CommentAt m cs i) :=
  inferInstanceAs (Decidable (_ ∧ _))

/-- Where a scan for comments stands: as any scan, and outside literals with what may be half of their first mark. -/
inductive Watch where
  | outside | dash | slash | inside | escaped
  deriving DecidableEq, Repr

namespace Watch

def scan : Watch → Scan
  | .outside | .dash | .slash => .outside
  | .inside => .inside
  | .escaped => .escaped

/-- After a character outside literals. -/
def ofChar (c : Char) : Watch :=
  if c = '\'' then .inside else if c = '-' then .dash else if c = '/' then .slash else .outside

/-- After the next character, unless it completes the mark of a comment. -/
def next : Watch → Char → Option Watch
  | .outside, c => some (ofChar c)
  | .dash, c => if c = '-' then none else some (ofChar c)
  | .slash, c => if c = '*' then none else some (ofChar c)
  | .inside, c => some (if c = '\\' then .escaped else if c = '\'' then .outside else .inside)
  | .escaped, _ => some .inside

def run (w : Watch) : List Char → Option Watch
  | [] => some w
  | c :: cs => (w.next c).bind fun w' => w'.run cs

theorem run_append (w : Watch) (as bs : List Char) : w.run (as ++ bs) = (w.run as).bind fun w' => w'.run bs := by
  induction as generalizing w with
  | nil => rfl
  | cons c as ih =>
    rw [List.cons_append, run, run]
    cases w.next c with
    | none => rfl
    | some w' => exact ih w'

theorem scan_ofChar (c : Char) : (ofChar c).scan = Scan.outside.next c := by
  rw [ofChar, Scan.next]
  by_cases hquote : c = '\''
  · simp [hquote, scan]
  · by_cases hdash : c = '-'
    · simp [hdash, scan]
    · by_cases hslash : c = '/'
      · simp [hslash, scan]
      · simp [hquote, hdash, hslash, scan]

theorem scan_next {w w' : Watch} {c : Char} (h : w.next c = some w') : w'.scan = w.scan.next c := by
  cases w with
  | outside =>
    cases h
    exact scan_ofChar c
  | dash =>
    simp only [next, Option.ite_none_left_eq_some, Option.some.injEq] at h
    rw [← h.2]
    exact scan_ofChar c
  | slash =>
    simp only [next, Option.ite_none_left_eq_some, Option.some.injEq] at h
    rw [← h.2]
    exact scan_ofChar c
  | inside =>
    cases h
    by_cases hslash : c = '\\'
    · simp [hslash, scan, Scan.next]
    · by_cases hquote : c = '\''
      · simp [hquote, scan, Scan.next]
      · simp [hslash, hquote, scan, Scan.next]
  | escaped =>
    cases h
    rfl

theorem eq_of_next_dash {w : Watch} {c : Char} (h : w.next c = some .dash) : c = '-' := by
  cases w <;> grind [next, ofChar]

theorem eq_of_next_slash {w : Watch} {c : Char} (h : w.next c = some .slash) : c = '/' := by
  cases w <;> grind [next, ofChar]

/-- The second half of the mark of a comment stops a watch, whatever came before. -/
theorem run_mark {w : Watch} {cs : List Char} (hw : w.scan = .outside)
    (h : ['-', '-'] <+: cs ∨ ['/', '*'] <+: cs) : w.run cs = none := by
  rcases h with ⟨rest, rfl⟩ | ⟨rest, rfl⟩
  · cases w with
    | outside => rfl
    | dash => rfl
    | slash => rfl
    | inside => cases hw
    | escaped => cases hw
  · cases w with
    | outside => rfl
    | dash => rfl
    | slash => rfl
    | inside => cases hw
    | escaped => cases hw

theorem not_commentAt {w w' : Watch} {cs : List Char} (h : w.run cs = some w') (i : Nat) : ¬CommentAt w.scan cs i := by
  rintro ⟨hm, hmark⟩
  induction i generalizing w cs with
  | zero =>
    have hnone : w.run cs = none := run_mark hm hmark
    rw [hnone] at h
    cases h
  | succ i ih =>
    cases cs with
    | nil => rcases hmark with hmark | hmark <;> cases hmark.length_le
    | cons c cs =>
      rw [run] at h
      obtain ⟨between, hc, h⟩ := Option.bind_eq_some_iff.mp h
      refine ih h ?_ hmark
      rw [scan_next hc]
      exact hm

end Watch

/-! ### Texts that a watch goes through -/

namespace Watch

def clear : List Watch := [.outside]

def dashed : List Watch := [.outside, .dash]

/-- All that is outside literals. -/
def edges : List Watch := [.outside, .dash, .slash]

theorem mem_edges {w : Watch} (h : w.scan = .outside) : w ∈ edges := by
  cases w with
  | inside => cases h
  | escaped => cases h
  | _ => decide

end Watch

open Watch (clear dashed edges)

/-- From any of `before`, a watch goes through the text and comes out in `after`. -/
def Passes (before after : List Watch) (text : String) : Prop :=
  ∀ w ∈ before, ∃ w' ∈ after, w.run text.toList = some w'

instance (before after : List Watch) (text : String) : Decidable (Passes before after text) :=
  inferInstanceAs (Decidable (∀ w ∈ before, ∃ w' ∈ after, w.run text.toList = some w'))

namespace Passes

variable {before between after : List Watch} {a b text : String}

theorem append (ha : Passes before between a) (hb : Passes between after b) : Passes before after (a ++ b) := by
  intro w hw
  obtain ⟨w₁, hw₁, hrun₁⟩ := ha w hw
  obtain ⟨w₂, hw₂, hrun₂⟩ := hb w₁ hw₁
  refine ⟨w₂, hw₂, ?_⟩
  rw [String.toList_append, Watch.run_append, hrun₁]
  exact hrun₂

theorem mono {before' after' : List Watch} (hbefore : before' ⊆ before) (hafter : after ⊆ after')
    (h : Passes before after text) : Passes before' after' text := by
  intro w hw
  obtain ⟨w', hw', hrun⟩ := h w (hbefore hw)
  exact ⟨w', hafter hw', hrun⟩

/-- After a dash, a text that does not begin with another one is gone through as from nowhere. -/
theorem of_head (h : Passes clear edges text) (hhead : text.toList.head? ≠ some '-') :
    Passes dashed edges text := by
  intro w hw
  have hclear := h .outside (by decide)
  rcases List.mem_cons.mp hw with rfl | hw
  · exact hclear
  · rw [List.mem_singleton.mp hw]
    cases hcs : text.toList with
    | nil => exact ⟨.dash, by decide, rfl⟩
    | cons c cs =>
      rw [hcs] at hclear hhead
      have hc : ¬c = '-' := fun h => hhead (congrArg some h)
      rw [Watch.run, Watch.next, if_neg hc]
      exact hclear

end Passes

/-- A character that is part of no mark. -/
def Ordinary (c : Char) : Prop := c ≠ '\'' ∧ c ≠ '-' ∧ c ≠ '/' ∧ c ≠ '*'

theorem Ordinary.next {c : Char} (h : Ordinary c) {w : Watch} (hw : w ∈ Watch.edges) : w.next c = some .outside := by
  obtain ⟨hquote, hdash, hslash, hstar⟩ := h
  have hc : Watch.ofChar c = .outside := by
    rw [Watch.ofChar, if_neg hquote, if_neg hdash, if_neg hslash]
  simp only [Watch.edges, List.mem_cons, List.not_mem_nil, or_false] at hw
  rcases hw with rfl | rfl | rfl
  · rw [Watch.next, hc]
  · rw [Watch.next, if_neg hdash, hc]
  · rw [Watch.next, if_neg hstar, hc]

theorem passes_ordinary {text : String} (h : ∀ c ∈ text.toList, Ordinary c) : Passes clear clear text := by
  intro w hw
  rw [List.mem_singleton.mp hw]
  refine ⟨.outside, by decide, ?_⟩
  generalize text.toList = cs at h
  induction cs with
  | nil => rfl
  | cons c cs ih =>
    rw [Watch.run, (h c List.mem_cons_self).next (by decide)]
    exact ih fun d hd => h d (List.mem_cons_of_mem c hd)

theorem passes_ordinary_of_ne {text : String} (h : ∀ c ∈ text.toList, Ordinary c) (hne : text.toList ≠ []) :
    Passes edges clear text := by
  intro w hw
  have hclear := passes_ordinary h .outside (by decide)
  cases hcs : text.toList with
  | nil => exact absurd hcs hne
  | cons c cs =>
    rw [hcs] at h hclear
    have hc := h c List.mem_cons_self
    rw [Watch.run, hc.next (by decide)] at hclear
    rw [Watch.run, hc.next hw]
    exact hclear

/-- A text without the marks of a comment in it. -/
def Markless (text : String) : Prop := ¬['-', '-'] <:+: text.toList ∧ ¬['/', '*'] <:+: text.toList

instance (text : String) : Decidable (Markless text) :=
  inferInstanceAs (Decidable (_ ∧ _))

/-- A text in which every literal that is begun ends. -/
def Paired (text : String) : Prop := Scan.outside.after text.toList = .outside

instance (text : String) : Decidable (Paired text) :=
  inferInstanceAs (Decidable (_ = _))

theorem run_of_markless {w : Watch} {cs : List Char} (hdash : ¬['-', '-'] <:+: cs) (hstar : ¬['/', '*'] <:+: cs)
    (hw : w = .dash → cs.head? ≠ some '-') (hw' : w = .slash → cs.head? ≠ some '*') :
    ∃ w', w.run cs = some w' ∧ w'.scan = w.scan.after cs := by
  induction cs generalizing w with
  | nil => exact ⟨w, rfl, rfl⟩
  | cons c cs ih =>
    obtain ⟨w₁, hnext⟩ : ∃ w₁, w.next c = some w₁ := by
      cases w with
      | dash => exact ⟨_, if_neg fun h => hw rfl (congrArg some h)⟩
      | slash => exact ⟨_, if_neg fun h => hw' rfl (congrArg some h)⟩
      | outside => exact ⟨_, rfl⟩
      | inside => exact ⟨_, rfl⟩
      | escaped => exact ⟨_, rfl⟩
    have hfirst : ∀ {d : Char}, cs.head? = some d → [c, d] <:+: c :: cs := by
      intro d hd
      cases cs with
      | nil => cases hd
      | cons d' cs =>
        cases hd
        exact ⟨[], cs, rfl⟩
    have hdash' : w₁ = .dash → cs.head? ≠ some '-' := by
      rintro rfl hd
      rw [Watch.eq_of_next_dash hnext] at hdash hfirst
      exact hdash (hfirst hd)
    have hstar' : w₁ = .slash → cs.head? ≠ some '*' := by
      rintro rfl hd
      rw [Watch.eq_of_next_slash hnext] at hstar hfirst
      exact hstar (hfirst hd)
    have hrest : cs <:+: c :: cs := (List.suffix_cons c cs).isInfix
    obtain ⟨w₂, hrun, hscan⟩ := ih (fun h => hdash (h.trans hrest)) (fun h => hstar (h.trans hrest)) hdash' hstar'
    refine ⟨w₂, ?_, ?_⟩
    · rw [Watch.run, hnext]
      exact hrun
    · rw [hscan, Watch.scan_next hnext]
      rfl

theorem passes_of_markless {text : String} (h : Markless text) (hpaired : Paired text) : Passes clear edges text := by
  intro w hw
  rw [List.mem_singleton.mp hw]
  obtain ⟨w', hrun, hscan⟩ := run_of_markless (w := .outside) h.1 h.2 (fun h => by cases h) (fun h => by cases h)
  exact ⟨w', Watch.mem_edges (hscan.trans hpaired), hrun⟩

/-! ### Literals and numbers -/

theorem run_quoteChars (cs : List Char) : Watch.inside.run (quoteChars cs) = some .inside := by
  fun_induction quoteChars cs with
  | case1 => rfl
  | case2 cs ih => exact ih
  | case3 cs ih => exact ih
  | case4 cs ih => exact ih
  | case5 c cs hslash hquote _ ih =>
    rw [Watch.run, Watch.next, if_neg hslash, if_neg hquote]
    exact ih

theorem passes_quote (text : String) : Passes edges clear (quote text) := by
  have hbody : Passes [.inside] [.inside] (String.ofList (quoteChars text.toList)) := by
    intro w hw
    rw [List.mem_singleton.mp hw, String.toList_ofList]
    exact ⟨.inside, List.mem_singleton_self _, run_quoteChars text.toList⟩
  exact ((show Passes edges [.inside] "'" by decide).append hbody).append (by decide)

theorem ordinary_of_digit {c : Char} (h : c.isDigit = true ∨ c = '.') : Ordinary c := by
  unfold Ordinary
  refine ⟨?_, ?_, ?_, ?_⟩ <;> (rintro rfl; revert h; decide)

theorem passes_nat (n : Nat) : Passes edges clear (toString n) := by
  rw [Nat.toString_eq_ofList_toDigits]
  apply passes_ordinary_of_ne
  · intro c hc
    rw [String.toList_ofList] at hc
    exact ordinary_of_digit (.inl (Nat.isDigit_of_mem_toDigits (by omega) (by omega) hc))
  · rw [String.toList_ofList]
    exact Nat.toDigits_ne_nil

theorem passes_int (n : Int) : Passes clear clear (toString n) := by
  cases n with
  | ofNat n => exact (passes_nat n).mono (by decide) (by decide)
  | negSucc n => exact (show Passes clear edges "-" by decide).append (passes_nat (n + 1))

theorem passes_alias (n : Nat) : Passes edges clear (Alias.name n) := by
  unfold Alias.name
  apply passes_ordinary_of_ne
  · intro c hc
    rw [String.toList_ofList] at hc
    have hle := Alias.le_toNat_of_mem_letters hc
    unfold Ordinary
    refine ⟨?_, ?_, ?_, ?_⟩ <;> (rintro rfl; revert hle; decide)
  · rw [String.toList_ofList]
    exact Alias.letters_ne_nil n

namespace Double

theorem Digits.mem_positional {d : Digits} (h : ∀ c ∈ d.digits, c.isDigit = true) {c : Char}
    (hc : c ∈ d.positional.toList) : c.isDigit = true ∨ c = '.' := by
  have hzero : ∀ n, ∀ c ∈ List.replicate n '0', c.isDigit = true := by
    intro n c hc
    rw [List.eq_of_mem_replicate hc]
    decide
  unfold Digits.positional at hc
  dsimp only at hc
  split at hc
  · simp only [String.toList_append, String.toList_ofList, List.mem_append] at hc
    rcases hc with hc | hc | hc
    · change c ∈ ['0', '.'] at hc
      simp only [List.mem_cons, List.not_mem_nil, or_false] at hc
      rcases hc with rfl | rfl
      · exact .inl rfl
      · exact .inr rfl
    · exact .inl (hzero _ c hc)
    · exact .inl (h c hc)
  · split at hc
    · simp only [String.toList_append, String.toList_ofList, List.mem_append] at hc
      rcases hc with (hc | hc) | hc
      · exact .inl (h c (List.mem_of_mem_take hc))
      · exact .inr (List.mem_singleton.mp hc)
      · exact .inl (h c (List.mem_of_mem_drop hc))
    · simp only [String.toList_append, String.toList_ofList, List.mem_append] at hc
      rcases hc with (hc | hc) | hc
      · exact .inl (h c hc)
      · exact .inl (hzero _ c hc)
      · change c ∈ ['.', '0'] at hc
        simp only [List.mem_cons, List.not_mem_nil, or_false] at hc
        rcases hc with rfl | rfl
        · exact .inr rfl
        · exact .inl rfl

theorem Digits.passes_positional {d : Digits} (h : ∀ c ∈ d.digits, c.isDigit = true) :
    Passes edges clear d.positional := by
  apply passes_ordinary_of_ne
  · intro c hc
    exact ordinary_of_digit (d.mem_positional h hc)
  · unfold Digits.positional
    dsimp only
    split
    · simp
    · split <;> simp

theorem Digits.passes_scientific {d : Digits} (h : ∀ c ∈ d.digits, c.isDigit = true) :
    Passes edges clear (d.scientific "") := by
  unfold Digits.scientific
  refine ((Passes.append ?_ (show Passes clear clear "e" by decide)).append ?_).append (passes_int _)
  · split
    · decide
    · next c hd =>
      rw [hd] at h
      apply passes_ordinary_of_ne
      · intro x hx
        rw [String.toList_ofList] at hx
        exact ordinary_of_digit (.inl (h x hx))
      · simp
    · next c cs _ hd =>
      rw [hd] at h
      apply passes_ordinary_of_ne
      · intro x hx
        rw [String.toList_ofList] at hx
        apply ordinary_of_digit
        rcases List.mem_cons.mp hx with rfl | hx
        · exact .inl (h x List.mem_cons_self)
        · rcases List.mem_cons.mp hx with rfl | hx
          · exact .inr rfl
          · exact .inl (h x (List.mem_cons_of_mem c hx))
      · simp
  · split <;> decide

/-- Whether the text of a number begins with a sign. -/
def isSigned : Double → Bool
  | .finite negative _ _ => negative
  | .infinite negative => negative
  | .nan => false

theorem passes_literal (x : Double) : Passes (if x.isSigned then clear else edges) clear x.literal := by
  cases x with
  | finite negative m e =>
    have hdigits : ∀ c ∈ (shortest m e Layout.literal.tie).digits, c.isDigit = true :=
      fun c hc => isDigit_of_mem_significantDigits hc
    have hsign : Passes (if negative then clear else edges) edges (if negative then "-" else "") := by
      cases negative <;> decide
    show Passes (if negative then clear else edges) clear (Layout.literal.write negative m e)
    unfold Layout.write
    by_cases hm : m = 0
    · simp only [if_pos hm]
      exact hsign.append (show Passes edges clear "0.0" by decide)
    · simp only [if_neg hm]
      apply hsign.append
      split
      · exact Digits.passes_positional hdigits
      · exact Digits.passes_scientific hdigits
  | infinite negative =>
    cases negative <;> decide
  | nan => decide

end Double

/-! ### Terms -/

/-- Whether the text of an expression as an operand begins with a dash. -/
def Expr.startsWithDash : Expr → Bool
  | .constant (.int n) _ => n.toInt < 0
  | .constant (.float x) _ => x.isSigned
  | .unary .negate _ _ => true
  | .column name .row _ => name.toList.head? = some '-'
  | _ => false

/-- Where an operand may be written. -/
def Expr.entry (e : Expr) : List Watch := if e.startsWithDash then clear else dashed

/-- The text of a term for an expression, alone and as an operand. -/
structure Spelled (e : Expr) (u : Term) : Prop where
  render : Passes clear edges u.render
  operand : Passes e.entry edges (u.operand u.render)

namespace Spelled

theorem of_compound (hu : u.isCompound = true) (h : Passes clear edges u.render) : Spelled e u := by
  refine ⟨h, ?_⟩
  have hparens : Passes edges edges (u.operand u.render) := by
    rw [Term.operand, if_pos hu]
    exact ((show Passes edges clear "(" by decide).append h).append (by decide)
  unfold Expr.entry
  split
  · exact hparens.mono (by decide) (by decide)
  · exact hparens.mono (by decide) (by decide)

theorem of_entry (hu : u.isCompound = false) (h : Passes e.entry edges u.render) : Spelled e u := by
  have hclear : clear ⊆ e.entry := by
    unfold Expr.entry
    split <;> decide
  refine ⟨h.mono hclear (by decide), ?_⟩
  rw [Term.operand, if_neg (by rw [hu]; decide)]
  exact h

theorem of_edges (hu : u.isCompound = false) (h : Passes edges edges u.render) : Spelled e u := by
  refine .of_entry hu ?_
  unfold Expr.entry
  split
  · exact h.mono (by decide) (by decide)
  · exact h.mono (by decide) (by decide)

theorem inner (h : Spelled e u) : Passes clear edges (u.operand u.render) := by
  refine h.operand.mono ?_ (by decide)
  unfold Expr.entry
  split <;> decide

end Spelled

theorem spelled_constant {value : Value} {type : DataType} (h : value.term = .ok u) :
    Spelled (.constant value type) u := by
  cases value with
  | null =>
    cases h
    exact .of_edges rfl (by decide)
  | bool b =>
    cases h
    exact .of_edges rfl (by cases b <;> decide)
  | int n =>
    cases h
    refine .of_entry rfl ?_
    rw [Term.render]
    by_cases hn : n.toInt < 0
    · rw [Expr.entry, if_pos (by simpa [Expr.startsWithDash] using hn)]
      exact (passes_int _).mono (by decide) (by decide)
    · rw [Expr.entry, if_neg (by simpa [Expr.startsWithDash] using hn)]
      obtain ⟨k, hk⟩ := Int.eq_ofNat_of_zero_le (Int.not_lt.mp hn)
      rw [hk]
      exact (passes_nat k).mono (by decide) (by decide)
  | float x =>
    cases h
    refine .of_entry rfl ?_
    have hx := x.passes_literal
    rw [Term.render, Expr.entry]
    show Passes (if x.isSigned then clear else dashed) edges x.literal
    split
    · next hsigned =>
      rw [if_pos hsigned] at hx
      exact hx.mono (by decide) (by decide)
    · next hsigned =>
      rw [if_neg hsigned] at hx
      exact hx.mono (by decide) (by decide)
  | string text =>
    cases h
    exact .of_edges rfl ((passes_quote text).mono (by decide) (by decide))
  | dateTime d =>
    cases h
    refine .of_edges rfl ?_
    exact ((show Passes edges edges "ToDate(" by decide).append (passes_quote d.millisText)).append (by decide)
  | source name => cases h

theorem passes_dotted (r : Nat) {name : String} (h : Passes clear edges name) :
    Passes edges edges (Alias.name r ++ "." ++ name) :=
  ((passes_alias r).append (show Passes clear clear "." by decide)).append h

theorem spelled_column {bag : Option Nat} {name : String} {scope : Scope} {type : DataType}
    (hname : Passes clear edges name) (h : columnTerm bag name scope = .ok u) :
    Spelled (.column name scope type) u := by
  cases scope with
  | row =>
    cases h
    refine .of_entry rfl ?_
    rw [Term.render, Expr.entry]
    by_cases hhead : name.toList.head? = some '-'
    · rw [if_pos (by simpa [Expr.startsWithDash] using hhead)]
      exact hname
    · rw [if_neg (by simpa [Expr.startsWithDash] using hhead)]
      exact hname.of_head hhead
  | group =>
    cases bag with
    | none => cases h
    | some r =>
      cases h
      refine .of_edges rfl ?_
      rw [Term.render]
      split
      · exact (passes_alias r).mono (by decide) (by decide)
      · exact passes_dotted r hname

theorem Builtin.passes_name (f : Builtin) : Passes edges clear f.name := by
  cases f <;> decide

theorem spelled_call1 (f : Builtin) (hu : Passes clear edges u.render) : Spelled e (.call1 f u) :=
  .of_edges rfl (((f.passes_name.append (show Passes clear clear "(" by decide)).append hu).append (by decide))

theorem spelled_call2 (f : Builtin) (hu : Passes clear edges u.render) (hv : Passes clear edges v.render) :
    Spelled e (.call2 f u v) := by
  have hfirst : Passes edges edges (f.name ++ "(" ++ u.render) :=
    (f.passes_name.append (show Passes clear clear "(" by decide)).append hu
  exact .of_edges rfl (((hfirst.append (show Passes edges clear ", " by decide)).append hv).append (by decide))

/-- A null test that is gone through from outside to outside ends the literals of its operand before the test. -/
theorem passes_tested {text : String} (h : Passes clear edges (text ++ " IS NULL")) : Passes clear edges text := by
  intro w hw
  obtain ⟨w₂, hw₂, hrun⟩ := h w hw
  rw [String.toList_append, Watch.run_append] at hrun
  obtain ⟨w₁, hrun₁, hrun₂⟩ := Option.bind_eq_some_iff.mp hrun
  refine ⟨w₁, ?_, hrun₁⟩
  cases w₁ with
  | inside =>
    have hinside : Watch.inside.run " IS NULL".toList = some .inside := by decide
    rw [hinside] at hrun₂
    cases hrun₂
    revert hw₂
    decide
  | escaped =>
    have hinside : Watch.escaped.run " IS NULL".toList = some .inside := by decide
    rw [hinside] at hrun₂
    cases hrun₂
    revert hw₂
    decide
  | _ => decide

theorem spelled_negation (hx : Spelled x u) : Spelled e u.negation := by
  cases u with
  | isNull v =>
    exact .of_compound rfl ((passes_tested hx.render).append (show Passes edges edges " IS NOT NULL" by decide))
  | _ => exact .of_compound rfl ((show Passes clear clear "NOT " by decide).append hx.inner)

theorem Operator.passes_symbol (op : Operator) : Passes clear edges op.symbol := by
  cases op <;> decide

theorem spelled_binary (op : BinaryOp) (type : DataType) (hx : Spelled x u) (hy : Spelled y v) :
    Spelled e (binaryTerm op type u v) := by
  unfold binaryTerm
  split
  · exact spelled_call2 .concat hx.render hy.render
  · split
    · next o _ =>
      have hleft : Passes clear clear (u.operand u.render ++ " ") := hx.inner.append (by decide)
      have hop : Passes clear clear (u.operand u.render ++ " " ++ o.symbol ++ " ") :=
        (hleft.append o.passes_symbol).append (by decide)
      exact .of_compound rfl (hop.append hy.inner)
    · have htest : Passes edges clear ("(" ++ u.operand u.render ++ " IS NULL ? ") :=
        ((show Passes edges clear "(" by decide).append hx.inner).append (by decide)
      have hmiss : Passes edges clear ("(" ++ u.operand u.render ++ " IS NULL ? " ++ v.operand v.render ++ " : ") :=
        (htest.append hy.inner).append (by decide)
      exact .of_edges rfl ((hmiss.append hx.inner).append (by decide))

theorem spelled_call {method : String} {object : Option Term} {args : List Term} {call : Term}
    (hterms : ∀ t ∈ args ++ object.toList, Passes clear edges t.render) (h : callTerm method object args = .ok call) :
    Spelled e call := by
  unfold callTerm at h
  split at h
  · split at h
    · cases h
      exact spelled_call1 _ (hterms _ (by simp))
    · cases h
  · split at h
    · cases h
      exact spelled_call1 _ (hterms _ (by simp))
    · cases h
  · next object x =>
    have hobject : Passes clear edges object.render := hterms object (by simp)
    have hx : Passes clear edges x.render := hterms x (by simp)
    split at h
    · cases h
      exact spelled_call2 _ hobject hx
    · cases h
      exact spelled_call2 _ hobject hx
    · cases h
      have hfirst : Passes edges clear ("(INDEXOF(" ++ object.render ++ ", ") :=
        ((show Passes edges clear "(INDEXOF(" by decide).append hobject).append (by decide)
      exact .of_edges rfl ((hfirst.append hx).append (by decide))
    · cases h
  · cases h

/-- No sign in an expression is written in front of a dash. -/
def Expr.SignsApart (e : Expr) : Prop :=
  e.Throughout fun y => ∀ x type, y = .unary .negate x type → x.startsWithDash = false

theorem Cast.passes_name (type : Cast) : Passes clear clear type.name := by
  cases type <;> decide

theorem passes_scalarColumn {type : DataType} (h : (Expr.scalar s type).NamesIn (Passes clear edges)) :
    Passes clear edges s.scalarColumn := by
  have hnames := (h _ .self).2 s rfl s .self
  unfold Stage.scalarColumn
  split
  · decide
  · next c cs hcols => exact hnames c.name (by simp [Column.names, hcols])

/-- The induction is on how the expression is written; a sign is the only node that asks more of its operand than to be
spelled. -/
theorem spelled_of_writtenAs (h : e.WrittenAs u) (hnames : e.NamesIn (Passes clear edges)) (hsigns : e.SignsApart) :
    Spelled e u := by
  induction h with
  | constant h => exact spelled_constant h
  | @column bag name scope type u h => exact spelled_column ((hnames _ .self).1 name scope type rfl) h
  | not hx ih => exact spelled_negation (ih (hnames.child List.mem_cons_self) (hsigns.child List.mem_cons_self))
  | @negate x type u hx ih =>
    have hoperand := (ih (hnames.child List.mem_cons_self) (hsigns.child List.mem_cons_self)).operand
    rw [Expr.entry, if_neg (by rw [hsigns _ .self x type rfl]; decide)] at hoperand
    exact .of_entry rfl ((show Passes clear dashed "-" by decide).append hoperand)
  | @convert x type cast u h hx ih =>
    have hoperand := ih (hnames.child List.mem_cons_self) (hsigns.child List.mem_cons_self)
    have hcast : Passes edges clear ("(" ++ cast.name ++ ")") :=
      ((show Passes edges clear "(" by decide).append cast.passes_name).append (by decide)
    exact .of_edges rfl (hcast.append hoperand.inner)
  | @binary op x y type u v hx hy ihx ihy =>
    have hleft : x ∈ (Expr.binary op x y type).children := by simp [Expr.children]
    have hright : y ∈ (Expr.binary op x y type).children := by simp [Expr.children]
    exact spelled_binary op type (ihx (hnames.child hleft) (hsigns.child hleft))
      (ihy (hnames.child hright) (hsigns.child hright))
  | @conditional x y z type u v w hx hy hz ihx ihy ihz =>
    have hspelled : ∀ {c : Expr} {t : Term}, c ∈ (Expr.conditional x y z type).children →
        (c.NamesIn (Passes clear edges) → c.SignsApart → Spelled c t) → Passes clear edges (t.operand t.render) :=
      fun hc h => (h (hnames.child hc) (hsigns.child hc)).inner
    have htest : Passes edges clear ("(" ++ u.operand u.render ++ " ? ") :=
      ((show Passes edges clear "(" by decide).append (hspelled (by simp [Expr.children]) ihx)).append (by decide)
    have hthen : Passes edges clear ("(" ++ u.operand u.render ++ " ? " ++ v.operand v.render ++ " : ") :=
      (htest.append (hspelled (by simp [Expr.children]) ihy)).append (by decide)
    exact .of_edges rfl ((hthen.append (hspelled (by simp [Expr.children]) ihz)).append (by decide))
  | isNull hx ih =>
    have hoperand := ih (hnames.child List.mem_cons_self) (hsigns.child List.mem_cons_self)
    exact .of_compound rfl (hoperand.inner.append (show Passes edges edges " IS NULL" by decide))
  | @function method x type u w hx h ih =>
    have hx := ih (hnames.child List.mem_cons_self) (hsigns.child List.mem_cons_self)
    exact spelled_call (by simpa using hx.render) h
  | @method method x type u w hx h ih =>
    have hx := ih (hnames.child List.mem_cons_self) (hsigns.child List.mem_cons_self)
    exact spelled_call (by simpa using hx.render) h
  | @methodWith method x y type u v w hx hy h ihx ihy =>
    have hobject := ihx (hnames.child List.mem_cons_self) (hsigns.child List.mem_cons_self)
    have hmem : y ∈ (Expr.call (some x) method [y] type).children := by simp [Expr.children]
    have harg := ihy (hnames.child hmem) (hsigns.child hmem)
    exact spelled_call (by simpa using ⟨harg.render, hobject.render⟩) h
  | @scalar s type relation => exact .of_edges rfl (passes_dotted relation (passes_scalarColumn hnames))

/-! ### Statements -/

theorem passes_intercalate {separator : String} {texts : List String} (hs : Passes edges clear separator)
    (h : ∀ t ∈ texts, Passes clear edges t) : Passes clear edges (separator.intercalate texts) := by
  induction texts with
  | nil =>
    rw [String.intercalate_nil]
    decide
  | cons t texts ih =>
    have ht : Passes clear edges t := h t List.mem_cons_self
    cases texts with
    | nil =>
      rw [String.intercalate_singleton]
      exact ht
    | cons v texts =>
      rw [String.intercalate_cons_cons]
      exact (ht.append hs).append (ih fun w hw => h w (List.mem_cons_of_mem t hw))

namespace Statement

theorem passes_keyList {texts : List String} (h : ∀ k ∈ texts, Passes clear edges k) :
    Passes clear edges (keyList texts) := by
  have hcommas : Passes clear edges (commas texts) := passes_intercalate (by decide) h
  unfold keyList
  split
  · next k => exact h k List.mem_cons_self
  · exact ((show Passes clear clear "(" by decide).append hcommas).append (by decide)

theorem passes_render {st : Statement} (hterms : ∀ u ∈ st.terms, Passes clear edges u.render)
    (haliases : ∀ a ∈ st.aliases, Passes clear edges a) : Passes clear edges st.render := by
  have hinput : ∀ {start rest : String} (r : Nat), Passes clear clear start → Passes clear clear rest →
      Passes clear clear (start ++ Alias.name r ++ rest) :=
    fun r hs hr => (hs.append ((passes_alias r).mono (by decide) (by decide))).append hr
  cases st with
  | load name => exact (show Passes clear edges "LOAD " by decide).append ((passes_quote name).mono (by decide) (by decide))
  | filter r p => exact (hinput r (by decide) (by decide)).append (hterms p List.mem_cons_self)
  | generate r items =>
    refine (hinput r (by decide) (by decide)).append (passes_intercalate (by decide) ?_)
    intro text htext
    obtain ⟨item, hitem, rfl⟩ := List.mem_map.mp htext
    have hshown := hterms item.term (List.mem_map_of_mem hitem)
    unfold Item.render
    split
    · exact hshown
    · next a ha =>
      have hname : Passes clear edges a := haliases a (List.mem_filterMap.mpr ⟨item, hitem, ha⟩)
      exact (hshown.append (show Passes edges clear " AS " by decide)).append hname
  | groupAll r => exact (hinput r (by decide) (by decide)).mono (by decide) (by decide)
  | groupBy r keys =>
    refine (hinput r (by decide) (by decide)).append (passes_keyList ?_)
    intro text htext
    obtain ⟨k, hk, rfl⟩ := List.mem_map.mp htext
    exact hterms k hk
  | order r keys =>
    refine (hinput r (by decide) (by decide)).append (passes_intercalate (by decide) ?_)
    intro text htext
    obtain ⟨⟨k, d⟩, hk, rfl⟩ := List.mem_map.mp htext
    have hkey : Passes clear clear (k.render ++ " ") := (hterms k (List.mem_map_of_mem hk)).append (by decide)
    exact hkey.append (by cases d <;> decide)
  | limit r count =>
    exact (hinput r (by decide) (by decide)).append ((passes_nat _).mono (by decide) (by decide))

end Statement

theorem Terminal.passes_render (terminal : Terminal) (result : Nat) : Passes edges edges (terminal.render result) := by
  cases terminal with
  | dump => exact (show Passes edges edges "DUMP " by decide).append ((passes_alias result).mono (by decide) (by decide))
  | store path =>
    have hresult : Passes edges clear ("STORE " ++ Alias.name result) :=
      (show Passes edges edges "STORE " by decide).append (passes_alias result)
    have hinto : Passes edges edges ("STORE " ++ Alias.name result ++ " INTO ") := hresult.append (by decide)
    exact hinto.append ((passes_quote path).mono (by decide) (by decide))

theorem Script.passes_lines {script : Script} (h : ∀ st ∈ script.statements, Passes clear edges st.render)
    (terminal : Terminal) : ∀ line ∈ script.lines terminal, Passes edges edges line := by
  have hdefinitions : ∀ {n : Nat} {ss : List Statement}, (∀ st ∈ ss, Passes clear edges st.render) →
      ∀ line ∈ definitions n ss, Passes edges edges line := by
    intro n ss hss
    induction ss generalizing n with
    | nil => exact List.forall_mem_nil _
    | cons st ss ih =>
      refine List.forall_mem_cons.mpr ⟨?_, ih fun v hv => hss v (List.mem_cons_of_mem st hv)⟩
      have hname : Passes edges clear (Alias.name n ++ " = ") := (passes_alias n).append (by decide)
      exact hname.append (hss st List.mem_cons_self)
  intro line hline
  rcases List.mem_append.mp hline with hline | hline
  · exact hdefinitions h line hline
  · rw [List.mem_singleton.mp hline]
    exact terminal.passes_render script.result

/-- A line may begin anywhere outside literals, and the semicolon after it leaves nothing pending, so the separator need
only pass on its own. -/
theorem passes_joined {separator : String} {lines : List String} (hs : Passes clear edges separator)
    (h : ∀ line ∈ lines, Passes edges edges line) :
    Passes edges edges (separator.intercalate (lines.map (· ++ ";"))) := by
  induction lines with
  | nil =>
    rw [List.map_nil, String.intercalate_nil]
    decide
  | cons line lines ih =>
    have hended : Passes edges clear (line ++ ";") := (h line List.mem_cons_self).append (by decide)
    cases lines with
    | nil => exact hended.mono (by decide) (by decide)
    | cons next lines =>
      rw [List.map_cons, List.map_cons, String.intercalate_cons_cons]
      exact (hended.append hs).append (ih fun l hl => h l (List.mem_cons_of_mem line hl))

/-! ### Scripts -/

/-- A script holds no comment outside literals, whatever the names of sources, the texts and the path that it quotes, if
no sign in the graph stands in front of an operand that begins with a dash. Column names and the separator hold no mark
of a comment, and their quotes are paired. -/
theorem scripts_hold_no_comment {script : Script} (h : s.script = .ok script)
    (hcolumns : ∀ name, s.ColumnName name → Markless name ∧ Paired name) (options : RenderOptions)
    (hseparator : Markless options.separator ∧ Paired options.separator)
    (hsigns : ∀ x type, s.Contains (.unary .negate x type) → x.startsWithDash = false) (i : Nat) :
    ¬CommentAt .outside (script.render options).toList i := by
  have hnames : ∀ name, s.ColumnName name → Passes clear edges name :=
    fun name hname => passes_of_markless (hcolumns name hname).1 (hcolumns name hname).2
  obtain ⟨hexprs, hwithin⟩ := columnNames_iff.mp hnames
  obtain ⟨hfit, -⟩ := script_laid_out (by decide) hexprs hwithin h
  have hterm : ∀ st ∈ script.statements, ∀ u ∈ st.terms, Passes clear edges u.render := by
    intro st hst u hu
    obtain ⟨x, ⟨root, hroot, hocc⟩, hwritten⟩ := terms_of_script h st hst u hu
    have hnamesIn : x.NamesIn (Passes clear edges) := fun y hy => hexprs root hroot y (hy.trans hocc)
    have hapart : x.SignsApart := by
      rintro y hy z type rfl
      exact hsigns z type ⟨root, hroot, hy.trans hocc⟩
    exact (spelled_of_writtenAs hwritten hnamesIn hapart).render
  have hlines : ∀ line ∈ script.lines options.terminal, Passes edges edges line := by
    refine Script.passes_lines (fun st hst => ?_) options.terminal
    obtain ⟨n, hn⟩ := List.getElem?_of_mem hst
    exact Statement.passes_render (hterm st hst) (hfit n st hn).aliases
  have htext := passes_joined (passes_of_markless hseparator.1 hseparator.2) hlines
  obtain ⟨w, -, hrun⟩ := htext .outside (by decide)
  exact Watch.not_commentAt hrun i

/-- A stage whose texts and names of sources are full of the marks of comments, with a sign in front of a
subtraction. -/
def dashedPeople : Stage :=
  { Stage.base "people--/*" .unknown with
    filter := some (.binary .equal
      (.unary .negate (.binary .subtract (.column "Age" .row .int64) (.constant (.int (-5)) .int64) .int64) .int64)
      (.constant (.string "-- no '/* comment") .string) .bool) }

/-- A node without the marks of a comment in its names, and no sign in front of a dash. -/
def Expr.Unmarked (y : Expr) : Prop :=
  ((∀ name scope type, y = .column name scope type → Markless name ∧ Paired name) ∧
    y.Holds fun t => ∀ name ∈ Column.names t.columns, Markless name ∧ Paired name) ∧
  ∀ x type, y = .unary .negate x type → x.startsWithDash = false

theorem scripts_hold_no_comment_dashedPeople :
    (∀ name, dashedPeople.ColumnName name → Markless name ∧ Paired name) ∧
      (∀ x type, dashedPeople.Contains (.unary .negate x type) → x.startsWithDash = false) ∧
      ∃ script, dashedPeople.script = .ok script ∧
        ∀ i, ¬CommentAt .outside (script.render ⟨.store "out--", "\n"⟩).toList i := by
  have hconstant : ∀ value type, (Expr.constant value type).Throughout Expr.Unmarked := by
    intro value type
    refine Expr.throughout_iff.mpr ⟨⟨⟨?_, Expr.holds_of_plain rfl⟩, ?_⟩, List.forall_mem_nil _⟩
    · intro _ _ _ h
      cases h
    · intro _ _ h
      cases h
  have hbinary : ∀ {op : BinaryOp} {x y : Expr} {type : DataType}, x.Throughout Expr.Unmarked → y.Throughout Expr.Unmarked →
      (Expr.binary op x y type).Throughout Expr.Unmarked := by
    intro op x y type hx hy
    refine Expr.throughout_iff.mpr ⟨⟨⟨?_, Expr.holds_of_plain rfl⟩, ?_⟩, ?_⟩
    · intro _ _ _ h
      cases h
    · intro _ _ h
      cases h
    · exact List.forall_mem_cons.mpr ⟨hx, List.forall_mem_singleton.mpr hy⟩
  have hage : (Expr.column "Age" .row .int64).Throughout Expr.Unmarked := by
    refine Expr.throughout_iff.mpr ⟨⟨⟨?_, Expr.holds_of_plain rfl⟩, ?_⟩, List.forall_mem_nil _⟩
    · intro _ _ _ h
      cases h
      decide
    · intro _ _ h
      cases h
  have hsign : (Expr.unary .negate (.binary .subtract (.column "Age" .row .int64) (.constant (.int (-5)) .int64) .int64)
      .int64).Throughout Expr.Unmarked := by
    refine Expr.throughout_iff.mpr ⟨⟨⟨?_, Expr.holds_of_plain rfl⟩, ?_⟩, ?_⟩
    · intro _ _ _ h
      cases h
    · intro _ _ h
      cases h
      rfl
    · exact List.forall_mem_singleton.mpr (hbinary hage (hconstant _ _))
  have hunmarked : ∀ x ∈ dashedPeople.exprs, x.Throughout Expr.Unmarked :=
    List.forall_mem_singleton.mpr (hbinary hsign (hconstant _ _))
  have hcolumns : ∀ name, dashedPeople.ColumnName name → Markless name ∧ Paired name := by
    refine columnNames_iff.mpr ⟨fun x hx y hy => (hunmarked x hx y hy).1, fun t ht => ?_⟩
    cases ht with
    | self => exact List.forall_mem_nil _
    | inner hs _ => cases hs
  have hsigns : ∀ x type, dashedPeople.Contains (.unary .negate x type) → x.startsWithDash = false := by
    rintro x type ⟨root, hroot, hocc⟩
    exact (hunmarked root hroot _ hocc).2 x type rfl
  obtain ⟨script, hscript⟩ := except_isOk (show dashedPeople.script.isOk = true by decide +kernel)
  exact ⟨hcolumns, hsigns, script, hscript, scripts_hold_no_comment hscript hcolumns _ (by decide) hsigns⟩

/-- The age of people, with two signs in front of it. -/
def twiceNegated : Stage :=
  { Stage.base "people" .unknown with
    filter := some (.binary .greaterThan
      (.unary .negate (.unary .negate (.column "Age" .row .int64) .int64) .int64)
      (.constant (.int 0) .int64) .bool) }

/-- A name with one quote in it, compared with a text. -/
def oddQuote : Stage :=
  { Stage.base "people" .unknown with
    filter := some (.binary .equal (.column "it's" .row .string) (.constant (.string "--") .string) .bool) }

/-- Two signs in a row are a comment, and so is what a text holds once a name has opened a literal. -/
theorem signs_in_a_row_start_a_comment :
    (∃ script i, twiceNegated.script = .ok script ∧ Markless "Age" ∧ Paired "Age" ∧
      CommentAt .outside (script.render {}).toList i) ∧
    ∃ script i, oddQuote.script = .ok script ∧ Markless "it's" ∧ ¬Paired "it's" ∧
      CommentAt .outside (script.render {}).toList i := by
  refine ⟨⟨⟨_, _⟩, 35, rfl, by decide, by decide, ?_⟩, ⟨_, _⟩, 44, rfl, by decide, by decide, ?_⟩
  · decide +kernel
  · decide +kernel

end PigChain
