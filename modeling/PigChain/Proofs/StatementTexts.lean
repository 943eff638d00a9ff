import PigChain.Proofs.Scanning
import PigChain.Proofs.SingleAssignment

/-!
# Statements keep apart

Whatever the names of sources, the texts and the path that a script quotes, every statement is a closed text: each place
that writes a term keeps its quotes in pairs, and a semicolon is written only inside a literal. Column names are written
as they are, so of these it has to be asked.
-/

namespace PigChain

variable {s t : Stage} {e x : Expr} {N : String → Prop}

/-! ### Numbers and names -/

theorem plain_ofList {cs : List Char} (h : ∀ c ∈ cs, c.isDigit = true ∨ c = '.') : Plain (String.ofList cs) := by
  have hquote : ¬('\''.isDigit = true ∨ '\'' = '.') := by decide
  have hsemi : ¬(';'.isDigit = true ∨ ';' = '.') := by decide
  unfold Plain
  rw [String.toList_ofList]
  exact ⟨fun hmem => hquote (h _ hmem), fun hmem => hsemi (h _ hmem)⟩

theorem plain_nat (n : Nat) : Plain (toString n) := by
  rw [Nat.toString_eq_ofList_toDigits]
  exact plain_ofList fun c hc => .inl (Nat.isDigit_of_mem_toDigits (by omega) (by omega) hc)

theorem plain_int (n : Int) : Plain (toString n) := by
  cases n with
  | ofNat n => exact plain_nat n
  | negSucc n => exact Plain.append (by decide) (plain_nat (n + 1))

theorem Alias.le_toNat_of_mem_letters {n : Nat} {c : Char} (h : c ∈ Alias.letters n) : 65 ≤ c.toNat := by
  fun_induction Alias.letters n with
  | case1 n _ =>
    rw [List.mem_singleton.mp h, Alias.toNat_letter]
    omega
  | case2 n _ ih =>
    rcases List.mem_append.mp h with h | h
    · exact ih h
    · rw [List.mem_singleton.mp h, Alias.toNat_letter]
      omega

theorem plain_alias (n : Nat) : Plain (Alias.name n) := by
  unfold Plain Alias.name
  rw [String.toList_ofList]
  exact ⟨fun hmem => absurd (Alias.le_toNat_of_mem_letters hmem) (by decide),
    fun hmem => absurd (Alias.le_toNat_of_mem_letters hmem) (by decide)⟩

namespace Double

theorem isDigit_of_mem_significantDigits {n : Nat} {c : Char} (h : c ∈ significantDigits n) : c.isDigit = true := by
  have hmem : c ∈ Nat.toDigits 10 n := by
    have hsub := List.dropWhile_sublist (l := (Nat.toDigits 10 n).reverse) (· == '0')
    exact List.mem_reverse.mp (hsub.subset (List.mem_reverse.mp h))
  exact Nat.isDigit_of_mem_toDigits (by omega) (by omega) hmem

theorem Digits.plain_positional {d : Digits} (h : ∀ c ∈ d.digits, c.isDigit = true) : Plain d.positional := by
  have hzero : ∀ n, ∀ c ∈ List.replicate n '0', c.isDigit = true := by
    intro n c hc
    rw [List.eq_of_mem_replicate hc]
    decide
  unfold Digits.positional
  dsimp only
  split
  · refine .append (by decide) (plain_ofList fun c hc => .inl ?_)
    rcases List.mem_append.mp hc with hc | hc
    · exact hzero _ c hc
    · exact h c hc
  · split
    · refine .append (.append (plain_ofList fun c hc => .inl (h c (List.mem_of_mem_take hc))) (by decide)) ?_
      exact plain_ofList fun c hc => .inl (h c (List.mem_of_mem_drop hc))
    · refine .append (plain_ofList fun c hc => .inl ?_) (by decide)
      rcases List.mem_append.mp hc with hc | hc
      · exact h c hc
      · exact hzero _ c hc

theorem Digits.plain_scientific {d : Digits} {plus : String} (hplus : Plain plus)
    (h : ∀ c ∈ d.digits, c.isDigit = true) : Plain (d.scientific plus) := by
  unfold Digits.scientific
  refine .append (.append (.append ?_ (by decide)) ?_) (plain_int _)
  · split
    · decide
    · next c hd =>
      rw [hd] at h
      exact plain_ofList fun x hx => .inl (h x hx)
    · next c cs _ hd =>
      rw [hd] at h
      refine plain_ofList fun x hx => ?_
      rcases List.mem_cons.mp hx with rfl | hx
      · exact .inl (h x List.mem_cons_self)
      · rcases List.mem_cons.mp hx with rfl | hx
        · exact .inr rfl
        · exact .inl (h x (List.mem_cons_of_mem c hx))
  · split
    · exact hplus
    · decide

theorem plain_literal (x : Double) : Plain x.literal := by
  cases x with
  | finite negative m e =>
    have hdigits : ∀ c ∈ (shortest m e Layout.literal.tie).digits, c.isDigit = true :=
      fun c hc => isDigit_of_mem_significantDigits hc
    have hsign : Plain (if negative then "-" else "") := by split <;> decide
    rw [literal, Layout.write]
    split
    · exact hsign.append (by decide)
    · refine hsign.append ?_
      split
      · exact Digits.plain_positional hdigits
      · exact Digits.plain_scientific (by decide) hdigits
  | infinite negative =>
    rw [literal]
    split <;> decide
  | nan => decide

end Double

/-! ### Terms -/

theorem Builtin.plain_name (f : Builtin) : Plain f.name := by
  cases f <;> decide

theorem Operator.plain_symbol (op : Operator) : Plain op.symbol := by
  cases op <;> decide

theorem Cast.plain_name (type : Cast) : Plain type.name := by
  cases type <;> decide

theorem Direction.plain_keyword (d : Direction) : Plain d.keyword := by
  cases d <;> decide

namespace Term

theorem closed_operand {x : Term} {text : String} (h : Closed text) : Closed (x.operand text) := by
  unfold Term.operand
  split
  · exact (Closed.append (by decide) h).append (by decide)
  · exact h

/-- The text of a term is closed if the column names in it are plain. -/
theorem closed_render {x : Term} (h : ∀ q ∈ x.references, Plain q.column) : Closed x.render := by
  have hleft : ∀ {a b : List Reference}, (∀ q ∈ a ++ b, Plain q.column) → ∀ q ∈ a, Plain q.column :=
    fun h q hq => h q (List.mem_append_left _ hq)
  have hright : ∀ {a b : List Reference}, (∀ q ∈ a ++ b, Plain q.column) → ∀ q ∈ b, Plain q.column :=
    fun h q hq => h q (List.mem_append_right _ hq)
  have hdotted : ∀ (r : Nat) {column : String}, Plain column → Closed (Alias.name r ++ "." ++ column) :=
    fun r _ hc => (((plain_alias r).append (by decide)).append hc).closed
  induction x with
  | null => decide
  | bool b => cases b <;> decide
  | int n => exact (plain_int n).closed
  | float x => exact x.plain_literal.closed
  | text s => exact closed_quote s
  | date d => exact (Closed.append (by decide) (closed_quote _)).append (by decide)
  | field name => exact (h ⟨none, name⟩ List.mem_cons_self).closed
  | bag r column =>
    have hcolumn : Plain column := h ⟨some r, column⟩ List.mem_cons_self
    rw [Term.render]
    split
    · exact (plain_alias r).closed
    · exact hdotted r hcolumn
  | single r column =>
    have hcolumn : Plain column := h ⟨some r, column⟩ List.mem_cons_self
    exact hdotted r hcolumn
  | not x ih => exact Closed.append (by decide) (closed_operand (ih h))
  | negate x ih => exact Closed.append (by decide) (closed_operand (ih h))
  | cast type x ih =>
    have htype : Closed ("(" ++ type.name ++ ")") :=
      (Closed.append (by decide) type.plain_name.closed).append (by decide)
    exact htype.append (closed_operand (ih h))
  | isNull x ih => exact (closed_operand (ih h)).append (by decide)
  | isNotNull x ih => exact (closed_operand (ih h)).append (by decide)
  | operation op x y ihx ihy =>
    have hx := closed_operand (x := x) (ihx (hleft h))
    have hy := closed_operand (x := y) (ihy (hright h))
    exact (((hx.append (by decide)).append op.plain_symbol.closed).append (by decide)).append hy
  | choose c x y ihc ihx ihy =>
    have hc := closed_operand (x := c) (ihc (hleft h))
    have hx := closed_operand (x := x) (ihx (hleft (hright h)))
    have hy := closed_operand (x := y) (ihy (hright (hright h)))
    have htest : Closed ("(" ++ c.operand c.render ++ " ? ") := (Closed.append (by decide) hc).append (by decide)
    exact (((htest.append hx).append (by decide)).append hy).append (by decide)
  | orElse x y ihx ihy =>
    have hx := closed_operand (x := x) (ihx (hleft h))
    have hy := closed_operand (x := y) (ihy (hright h))
    have htest : Closed ("(" ++ x.operand x.render ++ " IS NULL ? ") :=
      (Closed.append (by decide) hx).append (by decide)
    exact (((htest.append hy).append (by decide)).append hx).append (by decide)
  | call1 f x ih =>
    exact ((f.plain_name.closed.append (by decide)).append (ih h)).append (by decide)
  | call2 f x y ihx ihy =>
    have hx : Closed (f.name ++ "(" ++ x.render) := (f.plain_name.closed.append (by decide)).append (ihx (hleft h))
    exact ((hx.append (by decide)).append (ihy (hright h))).append (by decide)
  | contains x y ihx ihy =>
    have hx : Closed ("(INDEXOF(" ++ x.render) := Closed.append (by decide) (ihx (hleft h))
    exact ((hx.append (by decide)).append (ihy (hright h))).append (by decide)

end Term

/-! ### Statements -/

namespace Statement

theorem closed_keyList {texts : List String} (h : ∀ k ∈ texts, Closed k) : Closed (keyList texts) := by
  have hcommas : Closed (commas texts) := closed_intercalate (by decide) h
  unfold keyList
  split
  · next k => exact h k List.mem_cons_self
  · exact (Closed.append (by decide) hcommas).append (by decide)

theorem closed_render {st : Statement} {n : Nat} (h : st.Fits Plain n) : Closed st.render := by
  have hterm : ∀ x ∈ st.terms, Closed x.render := by
    intro x hx
    exact Term.closed_render fun q hq => h.columns q (List.mem_flatMap.mpr ⟨x, hx, hq⟩)
  have hinput : ∀ {before after : String} (r : Nat), Closed before → Closed after →
      Closed (before ++ Alias.name r ++ after) :=
    fun r hb ha => (hb.append (plain_alias r).closed).append ha
  cases st with
  | load name => exact Closed.append (by decide) (closed_quote name)
  | filter r p => exact (hinput r (by decide) (by decide)).append (hterm p List.mem_cons_self)
  | generate r items =>
    refine (hinput r (by decide) (by decide)).append (closed_intercalate (by decide) ?_)
    intro text htext
    obtain ⟨item, hitem, rfl⟩ := List.mem_map.mp htext
    have hshown := hterm item.term (List.mem_map_of_mem hitem)
    unfold Item.render
    split
    · exact hshown
    · next a ha =>
      have hname : Plain a := h.aliases a (List.mem_filterMap.mpr ⟨item, hitem, ha⟩)
      exact (hshown.append (by decide)).append hname.closed
  | groupAll r => exact hinput r (by decide) (by decide)
  | groupBy r keys =>
    refine (hinput r (by decide) (by decide)).append (closed_keyList ?_)
    intro text htext
    obtain ⟨k, hk, rfl⟩ := List.mem_map.mp htext
    exact hterm k hk
  | order r keys =>
    refine (hinput r (by decide) (by decide)).append (closed_intercalate (by decide) ?_)
    intro text htext
    obtain ⟨⟨k, d⟩, hk, rfl⟩ := List.mem_map.mp htext
    exact ((hterm k (List.mem_map_of_mem hk)).append (by decide)).append d.plain_keyword.closed
  | limit r count => exact (hinput r (by decide) (by decide)).append (plain_nat _).closed

end Statement

theorem Terminal.closed_render (terminal : Terminal) (result : Nat) : Closed (terminal.render result) := by
  cases terminal with
  | dump => exact Closed.append (by decide) (plain_alias result).closed
  | store path =>
    have hresult : Closed ("STORE " ++ Alias.name result) := Closed.append (by decide) (plain_alias result).closed
    exact (hresult.append (by decide)).append (closed_quote path)

theorem Script.closed_lines {script : Script} (h : Statement.AllFit Plain script.statements) (terminal : Terminal) :
    ∀ line ∈ script.lines terminal, Closed line := by
  have hdefinitions : ∀ {n : Nat} {ss : List Statement}, (∀ st ∈ ss, Closed st.render) →
      ∀ line ∈ definitions n ss, Closed line := by
    intro n ss hss
    induction ss generalizing n with
    | nil =>
      intro line hline
      cases hline
    | cons st ss ih =>
      intro line hline
      rcases List.mem_cons.mp hline with rfl | hline
      · exact ((plain_alias n).closed.append (by decide)).append (hss st List.mem_cons_self)
      · exact ih (fun u hu => hss u (List.mem_cons_of_mem st hu)) line hline
  intro line hline
  rcases List.mem_append.mp hline with hline | hline
  · refine hdefinitions (fun st hst => ?_) line hline
    obtain ⟨n, hn⟩ := List.getElem?_of_mem hst
    exact Statement.closed_render (h n st hn)
  · rw [List.mem_singleton.mp hline]
    exact terminal.closed_render script.result

/-! ### The text of a script -/

/-- Lines with the separator before each but the first. -/
def spaced (separator : String) : List String → List String
  | [] => []
  | line :: lines => line :: lines.map (separator ++ ·)

theorem length_spaced (separator : String) (lines : List String) : (spaced separator lines).length = lines.length := by
  cases lines <;> simp [spaced]

theorem take_spaced (separator : String) (lines : List String) (k : Nat) :
    (spaced separator lines).take k = spaced separator (lines.take k) := by
  cases lines with
  | nil => simp [spaced]
  | cons line lines =>
    cases k with
    | zero => rfl
    | succ k => simp [spaced]

theorem closed_spaced {separator : String} {lines : List String} (hs : Closed separator) (h : ∀ l ∈ lines, Closed l) :
    ∀ text ∈ spaced separator lines, Closed text := by
  cases lines with
  | nil => exact h
  | cons line lines =>
    intro text htext
    rcases List.mem_cons.mp htext with rfl | htext
    · exact h text List.mem_cons_self
    · obtain ⟨l, hl, rfl⟩ := List.mem_map.mp htext
      exact hs.append (h l (List.mem_cons_of_mem line hl))

theorem toList_joined (separator : String) (lines : List String) :
    (separator.intercalate (lines.map (· ++ ";"))).toList = ended (spaced separator lines) := by
  induction lines with
  | nil => rfl
  | cons line lines ih =>
    cases lines with
    | nil => simp [spaced, ended]
    | cons next lines =>
      rw [List.map_cons] at ih
      rw [List.map_cons, List.map_cons, String.intercalate_cons_cons, String.toList_append, ih]
      simp [spaced, ended]

/-- The statements of a text: what stands between the semicolons outside literals, without the separator in front of
each but the first. -/
def statementsIn (separator text : String) : List String :=
  match (pieces .outside text.toList).dropLast with
  | [] => []
  | first :: rest => String.ofList first :: rest.map fun piece => String.ofList (piece.drop separator.length)

theorem statementsIn_of_pieces {separator text : String} {lines : List String}
    (h : pieces .outside text.toList = (spaced separator lines).map String.toList ++ [[]]) :
    statementsIn separator text = lines := by
  unfold statementsIn
  rw [h, List.dropLast_concat]
  cases lines with
  | nil => rfl
  | cons line lines =>
    have hdrop : ∀ l : String, String.ofList ((separator ++ l).toList.drop separator.length) = l := by
      intro l
      rw [String.toList_append, ← String.length_toList, List.drop_left, String.ofList_toList]
    simp only [spaced, List.map_cons, List.map_map, String.ofList_toList]
    exact congrArg _ (List.map_id'' hdrop lines)

/-! ### Column names -/

/-- A name of a column in the graph of a stage: an expression reads it, or a stage has a column of that name. -/
inductive Stage.ColumnName (s : Stage) (name : String) : Prop where
  | read {scope : Scope} {type : DataType} (h : s.Contains (.column name scope type)) : Stage.ColumnName s name
  | declared {t : Stage} (ht : t.InGraph s) (h : name ∈ Column.names t.columns) : Stage.ColumnName s name

theorem columnNames_iff : (∀ name, s.ColumnName name → N name) ↔
    (∀ x ∈ s.exprs, x.NamesIn N) ∧ ∀ t : Stage, t.Within s → ∀ name ∈ Column.names t.columns, N name := by
  constructor
  · intro h
    refine ⟨fun x hx y hy => ⟨?_, fun u hu t ht name hname => ?_⟩, fun t ht name hname => ?_⟩
    · rintro name scope type rfl
      exact h name (.read ⟨x, hx, hy⟩)
    · exact h name (.declared (.held ⟨x, hx, hy⟩ hu ht.inGraph) hname)
    · exact h name (.declared ht.inGraph hname)
  · rintro ⟨hexprs, hwithin⟩ name hname
    cases hname with
    | read h =>
      obtain ⟨x, hx, hy⟩ := h
      exact (hexprs x hx _ hy).1 name _ _ rfl
    | declared ht h =>
      have hall : ∀ name ∈ Column.names _, N name :=
        inGraph_of_exprs hwithin (fun x hx y hy => (hexprs x hx y hy).2) ht
      exact hall name h

/-- No data changes the statements of a script. A scan of its text ends outside literals, the semicolons that it meets
outside literals are those at the ends of the lines, and what stands between them are the lines, each but the first
after the separator; so the lines can be read off the text again. Names of sources, texts and the path to store at may
be any; column names and the separator are without quotes and semicolons. -/
theorem statements_stay_apart {script : Script} (h : s.script = .ok script)
    (hcolumns : ∀ name, s.ColumnName name → Plain name) (options : RenderOptions)
    (hseparator : Plain options.separator) :
    Scan.outside.after (script.render options).toList = .outside ∧
      (∀ i, Stops .outside (script.render options).toList i ↔ ∃ k < (script.lines options.terminal).length,
        i + 1 = (options.separator.intercalate
          (((script.lines options.terminal).take (k + 1)).map (· ++ ";"))).length) ∧
      pieces .outside (script.render options).toList =
        (spaced options.separator (script.lines options.terminal)).map String.toList ++ [[]] ∧
      statementsIn options.separator (script.render options) = script.lines options.terminal := by
  obtain ⟨hexprs, hwithin⟩ := columnNames_iff.mp hcolumns
  obtain ⟨hfit, -⟩ := script_laid_out (by decide) hexprs hwithin h
  have hclosed : ∀ text ∈ spaced options.separator (script.lines options.terminal), Closed text :=
    closed_spaced hseparator.closed (Script.closed_lines hfit options.terminal)
  have htext : (script.render options).toList = ended (spaced options.separator (script.lines options.terminal)) :=
    toList_joined options.separator (script.lines options.terminal)
  have hpieces := pieces_ended hclosed
  rw [← htext] at hpieces
  refine ⟨?_, fun i => ?_, hpieces, statementsIn_of_pieces hpieces⟩
  · rw [htext]
    exact after_ended hclosed
  · rw [htext, stops_ended hclosed, length_spaced]
    simp only [take_spaced, ← toList_joined, String.length_toList]

/-- A stage whose names of sources and texts are full of quotes, backslashes and semicolons. -/
def quotedPeople : Stage :=
  { Stage.base "pe'ople; DUMP A\\" .unknown with
    filter := some (.binary .equal (.column "Name" .row .string) (.constant (.string "O'Brien\\';\n") .string) .bool)
    columns := [⟨"Name", .column "Name" .row .string⟩,
      ⟨"Top", .scalar { Stage.base "';'" .unknown with columns := [⟨"Age", .column "Age" .row .int64⟩] } .int64⟩]
    projected := true }

def quotedStore : RenderOptions := ⟨.store "out'; DUMP A;\\", "\n"⟩

theorem plain_columns_quotedPeople : ∀ name, quotedPeople.ColumnName name → Plain name := by
  have hwithin : ∀ {t u : Stage} {source : String}, u.source = .base source → t.Within u → t = u := by
    intro t u source hu ht
    cases ht with
    | self => rfl
    | inner hs _ =>
      rw [hu] at hs
      cases hs
  have hcolumn : ∀ {name : String} {type : DataType}, Plain name → (Expr.column name .row type).NamesIn Plain := by
    intro name type hname y hy
    rw [occurs_of_leaf rfl hy]
    refine ⟨fun _ _ _ h => ?_, fun _ h => nomatch h⟩
    cases h
    exact hname
  have hfilter : ∀ x ∈ quotedPeople.filter, x.NamesIn Plain := by
    rintro x ⟨⟩
    refine Expr.throughout_iff.mpr ⟨⟨(fun _ _ _ h => nomatch h), fun _ h => nomatch h⟩, ?_⟩
    refine List.forall_mem_cons.mpr ⟨hcolumn (by decide), List.forall_mem_singleton.mpr ?_⟩
    exact Expr.throughout_iff.mpr ⟨⟨(fun _ _ _ h => nomatch h), fun _ h => nomatch h⟩, List.forall_mem_nil _⟩
  have hscalar : ∀ c ∈ quotedPeople.columns.tail, c.expr.NamesIn Plain := by
    refine List.forall_mem_singleton.mpr (Expr.throughout_iff.mpr ⟨⟨(fun _ _ _ h => nomatch h), ?_⟩, ?_⟩)
    · rintro u ⟨⟩ t ht
      rw [hwithin rfl ht]
      decide
    · exact List.forall_mem_singleton.mpr (hcolumn (by decide))
  refine columnNames_iff.mpr ⟨?_, fun t ht => ?_⟩
  · refine List.forall_mem_cons.mpr ⟨hfilter _ rfl, List.forall_mem_cons.mpr ⟨hcolumn (by decide), ?_⟩⟩
    exact List.forall_mem_singleton.mpr (hscalar _ List.mem_cons_self)
  · rw [hwithin rfl ht]
    decide

theorem statements_stay_apart_quotedPeople :
    (∀ name, quotedPeople.ColumnName name → Plain name) ∧ Plain quotedStore.separator ∧
      ∃ script, quotedPeople.script = .ok script ∧
        Scan.outside.after (script.render quotedStore).toList = .outside ∧
        (∀ i, Stops .outside (script.render quotedStore).toList i ↔ ∃ k < (script.lines quotedStore.terminal).length,
          i + 1 = ("\n".intercalate (((script.lines quotedStore.terminal).take (k + 1)).map (· ++ ";"))).length) ∧
        pieces .outside (script.render quotedStore).toList =
          (spaced "\n" (script.lines quotedStore.terminal)).map String.toList ++ [[]] ∧
        statementsIn "\n" (script.render quotedStore) = script.lines quotedStore.terminal := by
  obtain ⟨script, hscript⟩ := except_isOk (show quotedPeople.script.isOk = true by decide +kernel)
  have hplain : Plain quotedStore.separator := by decide
  exact ⟨plain_columns_quotedPeople, hplain, script, hscript,
    statements_stay_apart hscript plain_columns_quotedPeople quotedStore hplain⟩

end PigChain
