import PigChain.Pass.Columns
import PigChain.Proofs.ChildWalk
import PigChain.Proofs.LiteralPasses
import PigChain.Proofs.QuietWalk

/-!
# The column names of an expression

The names that an expression reads are noted wherever a column stands, the stages inside it not left out. A column
that has no definition is the only reason for which putting definitions in for columns can fail with an unknown column,
and its name is one of those noted. No pass over an expression puts in a column that did not stand there or in a
definition.
-/

namespace PigChain

variable {e e' : Expr}

/-- The expression `x` stands in an expression, at any depth. -/
inductive Expr.Occurs (x : Expr) : Expr → Prop where
  | self : Expr.Occurs x x
  | child {e c : Expr} (hc : c ∈ e.children) (h : Expr.Occurs x c) : Expr.Occurs x e

/-! ### Names that are noted -/

/-- A computation that fails at nothing, and after which the names of `names` are noted besides those known before. -/
def Notes (u : Keeping (List String) PUnit) (names : String → Prop) : Prop :=
  ∀ known, ∃ noted, u.run.run known = (.ok ⟨⟩, noted) ∧ ∀ name, name ∈ noted ↔ name ∈ known ∨ names name

theorem Notes.bind {u v : Keeping (List String) PUnit} {us vs : String → Prop} (hu : Notes u us) (hv : Notes v vs) :
    Notes (u >>= fun _ => v) fun name => us name ∨ vs name := by
  intro known
  obtain ⟨noted, hurun, hunote⟩ := hu known
  obtain ⟨noted', hvrun, hvnote⟩ := hv noted
  refine ⟨noted', ?_, fun name => ?_⟩
  · rw [keeping_run_bind hurun, hvrun]
  · rw [hvnote, hunote, or_assoc]

theorem notes_forM {f : Expr → Keeping (List String) PUnit} {names : Expr → String → Prop} {xs : List Expr}
    (h : ∀ x ∈ xs, Notes (f x) (names x)) : Notes (xs.forM f) fun name => ∃ x ∈ xs, names x name := by
  induction xs with
  | nil => exact fun known => ⟨known, rfl, by simp⟩
  | cons x xs ih =>
    have hboth := (h x List.mem_cons_self).bind (ih fun y hy => h y (List.mem_cons_of_mem x hy))
    intro known
    obtain ⟨noted, hrun, hnote⟩ := hboth known
    exact ⟨noted, hrun, fun name => by rw [hnote]; simp⟩

/-- Notes a name, once. -/
def noteName (name : String) : Keeping (List String) PUnit := do
  let names ← get
  unless names.contains name do set (names ++ [name])

theorem noteName_run (name : String) (known : List String) :
    (noteName name).run.run known = (.ok ⟨⟩, if name ∈ known then known else known ++ [name]) := by
  show (if known.contains name = true then (pure ⟨⟩ : Keeping (List String) PUnit)
    else set (known ++ [name])).run.run known = _
  by_cases hname : name ∈ known
  · rw [if_pos (List.contains_iff_mem.mpr hname), if_pos hname]
    rfl
  · rw [if_neg fun h => hname (List.contains_iff_mem.mp h), if_neg hname]
    rfl

theorem notes_noteName (name : String) : Notes (noteName name) fun n => n = name := by
  intro known
  refine ⟨_, noteName_run name known, fun n => ?_⟩
  split
  · next hmem => exact ⟨.inl, fun h => h.elim id fun h => h ▸ hmem⟩
  · rw [List.mem_append, List.mem_singleton]

theorem collectColumns_visit_field (name : String) (type : DataType) :
    collectColumns.visit (.column name .row type) = (noteName name >>= fun _ => pure none) := by
  rw [Editor.visit, noteName]
  simp only [collectColumns, bind_assoc]
  congr 1; funext names
  cases names.contains name <;> rfl

theorem collectColumns_visit_node (h : ∀ name type, e ≠ .column name .row type) :
    collectColumns.visit e = collectColumns.walk e := by
  rw [Editor.visit_eq]
  cases e with
  | column name scope type =>
    cases scope with
    | row => exact absurd rfl (h name type)
    | group => rfl
  | _ => rfl

/-- Every column that stands in an expression is noted, nothing else is, and the visit replaces nothing. -/
theorem collectColumns_visit (e : Expr) : ∃ u : Keeping (List String) PUnit,
    collectColumns.visit e = (u >>= fun _ => pure none) ∧
      Notes u fun name => ∃ type, Expr.Occurs (.column name .row type) e := by
  induction e using Expr.childInduction with
  | h e ih =>
    by_cases hcol : ∃ name type, e = .column name .row type
    · obtain ⟨name, type, rfl⟩ := hcol
      refine ⟨noteName name, collectColumns_visit_field name type, fun known => ?_⟩
      obtain ⟨noted, hrun, hnote⟩ := notes_noteName name known
      refine ⟨noted, hrun, fun n => (hnote n).trans (or_congr_right ⟨fun h => ⟨type, h ▸ .self⟩, ?_⟩)⟩
      rintro ⟨t, h⟩
      cases h with
      | self => rfl
      | child hc _ => cases hc
    · choose! f hf using ih
      refine ⟨e.children.forM f, ?_, fun known => ?_⟩
      · rw [collectColumns_visit_node fun name type he => hcol ⟨name, type, he⟩]
        exact Editor.walk_leaves (fun _ _ => rfl) fun c hc => (hf c hc).1
      · obtain ⟨noted, hrun, hnote⟩ := notes_forM (fun c hc => (hf c hc).2) known
        refine ⟨noted, hrun, fun n => (hnote n).trans (or_congr_right ⟨?_, ?_⟩)⟩
        · rintro ⟨c, hc, t, h⟩
          exact ⟨t, .child hc h⟩
        · rintro ⟨t, h⟩
          cases h with
          | self => exact absurd ⟨n, t, rfl⟩ hcol
          | child hc h => exact ⟨_, hc, t, h⟩

theorem mem_rowColumns_iff {name : String} :
    name ∈ e.rowColumns ↔ ∃ type, Expr.Occurs (.column name .row type) e := by
  obtain ⟨u, hu, hnotes⟩ := collectColumns_visit e
  obtain ⟨noted, hrun, hnote⟩ := hnotes []
  rw [Expr.rowColumns, hu, keeping_run_bind hrun]
  exact (hnote name).trans (or_iff_right List.not_mem_nil)

theorem mem_rowColumns {name : String} {type : DataType} (h : Expr.Occurs (.column name .row type) e) :
    name ∈ e.rowColumns := mem_rowColumns_iff.mpr ⟨type, h⟩

/-! ### Columns without a definition -/

section

variable {columns : List Column}

theorem composed_eq_rewalk (hk : e.kind ≠ .column) :
    e.composed columns = (substituteColumns columns).rewalk e := by
  apply Editor.run_of_walk
  intro w
  cases e with
  | column => exact absurd rfl hk
  | _ => rfl

theorem composed_field (name : String) (t : DataType) :
    (Expr.column name .row t).composed columns =
      match Column.find? columns name with
      | some c => .ok c.expr
      | none => .error (.argument (.unknownColumn name)) := by
  rw [Expr.composed, Editor.run, Editor.visit_eq]
  simp only [substituteColumns]
  cases Column.find? columns name <;> rfl

theorem composed_field_eq_ok {name : String} {t : DataType}
    (h : (Expr.column name .row t).composed columns = .ok e') :
    ∃ c, Column.find? columns name = some c ∧ e' = c.expr := by
  rw [composed_field] at h
  cases hc : Column.find? columns name with
  | none =>
    rw [hc] at h
    cases h
  | some c =>
    rw [hc] at h
    exact ⟨c, rfl, (Except.ok.inj h).symm⟩

/-- Putting in definitions fails with an unknown column only where a column stands that has none. -/
theorem occurs_of_composed_eq_error {columns : List Column} {name : String}
    (h : e.composed columns = .error (.argument (.unknownColumn name))) :
    ∃ type, Expr.Occurs (.column name .row type) e ∧ Column.find? columns name = none := by
  induction e using Expr.childInduction with
  | h e ih =>
    have hchild : ∀ c ∈ e.children, c.composed columns = .error (.argument (.unknownColumn name)) →
        ∃ type, Expr.Occurs (.column name .row type) e ∧ Column.find? columns name = none := by
      intro c hc hcomposed
      obtain ⟨type, hoccurs, hfind⟩ := ih c hc hcomposed
      exact ⟨type, .child hc hoccurs, hfind⟩
    cases e with
    | column n scope type =>
      cases scope with
      | row =>
        rw [composed_field] at h
        cases hfind : Column.find? columns n with
        | some c => rw [hfind] at h; cases h
        | none =>
          rw [hfind] at h
          cases h
          exact ⟨type, .self, hfind⟩
      | group => cases h
    | scalar t type =>
      rw [composed_eq_rewalk Kind.noConfusion] at h
      rcases rewalk_scalar_eq_error (fun _ _ => rfl) h with h | ⟨-, ⟨⟩⟩
      obtain ⟨c, hc, h⟩ := runStage_eq_error (fun _ _ => rfl) h
      exact hchild c hc h
    | _ =>
      rw [composed_eq_rewalk Kind.noConfusion] at h
      obtain ⟨c, hc, h⟩ := rewalk_eq_error (fun _ _ => rfl) Kind.noConfusion h
      exact hchild c hc h

/-- The same column over the input of the stage that declares `columns`. -/
def Column.Composes (columns : List Column) (c d : Column) : Prop :=
  d.name = c.name ∧ c.expr.composed columns = .ok d.expr

theorem composeColumns_eq_mapM (outer : List Column) :
    composeColumns columns outer = outer.mapM fun c => (do
      let x ← c.expr.composed columns
      pure ⟨c.name, x⟩) := by
  induction outer with
  | nil => rfl
  | cons c outer ih =>
    rw [composeColumns, List.mapM_cons, ih, bind_assoc]
    rfl

theorem composeColumns_eq_ok {outer composed : List Column} (h : composeColumns columns outer = .ok composed) :
    List.Forall₂ (Column.Composes columns) outer composed := by
  rw [composeColumns_eq_mapM, mapM_eq_ok] at h
  refine h.imp fun c d hd => ?_
  obtain ⟨x, hx, hd⟩ := except_do_eq_ok.mp hd
  cases hd
  exact ⟨rfl, hx⟩

theorem composeColumns_eq_error {outer : List Column} {err : Error} (h : composeColumns columns outer = .error err) :
    ∃ c ∈ outer, c.expr.composed columns = .error err := by
  rw [composeColumns_eq_mapM] at h
  obtain ⟨c, hc, h⟩ := mapM_eq_error h
  rcases except_do_eq_error.mp h with h | ⟨x, -, ⟨⟩⟩
  exact ⟨c, hc, h⟩

end

/-! ### The columns of an edited expression -/

theorem occurs_withChildren {x : Expr} {cs : List Expr} (hx : x.kind ≠ e.kind) (hl : cs.length = e.children.length)
    (h : Expr.Occurs x (e.withChildren cs)) : ∃ c ∈ cs, Expr.Occurs x c := by
  generalize hy : e.withChildren cs = y at h
  cases h with
  | self => exact absurd (hy ▸ e.kind_withChildren cs) hx
  | child hc ho =>
    rw [← hy, Expr.children_withChildren hl] at hc
    exact ⟨_, hc, ho⟩

/-- Below a node that is walked, what stands in the result stands in the result of a child. -/
theorem occurs_of_rewalk {r : Editor (Except Error)} {x : Expr} (hr : r.WalksStages) (hx : x.kind ≠ e.kind)
    (h : r.rewalk e = .ok e') (ho : Expr.Occurs x e') :
    ∃ c ∈ e.children, ∃ c', r.run c = .ok c' ∧ Expr.Occurs x c' := by
  obtain ⟨cs, hcs, rfl⟩ := rewalk_eq_withChildren hr h
  obtain ⟨c', hc', ho⟩ := occurs_withChildren hx hcs.length_eq.symm ho
  obtain ⟨c, hmem, hrun⟩ := exists_of_forall₂_right hcs hc'
  exact ⟨c, hmem, c', hrun, ho⟩

theorem occurs_of_leaf {x : Expr} (hc : e.children = []) (h : Expr.Occurs x e) : x = e := by
  cases h with
  | self => rfl
  | child hmem _ =>
    rw [hc] at hmem
    cases hmem

/-- A null test reads no column that the comparison does not read. -/
theorem occurs_of_nullTest {name : String} {sc : Scope} {t : DataType} (h : Expr.Occurs (.column name sc t)
    ((nullTest? e).getD e)) : Expr.Occurs (.column name sc t) e := by
  cases ht : nullTest? e with
  | none =>
    rw [ht] at h
    exact h
  | some x =>
    rw [ht] at h
    change Expr.Occurs (.column name sc t) x at h
    obtain ⟨op, l, r, type, y, rfl, hy, hx⟩ := nullTest_eq_some ht
    have hnull : Expr.Occurs (.column name sc t) (.isNull y) →
        Expr.Occurs (.column name sc t) (.binary op l r type) := by
      intro ho
      cases ho with
      | child hc ho =>
        rw [List.mem_singleton.mp hc] at ho
        exact .child (nullCompared_mem_children hy) ho
    rcases hx with rfl | rfl
    · exact hnull h
    · cases h with
      | child hc h =>
        rw [List.mem_singleton.mp hc] at h
        exact hnull h

theorem occurs_of_nullComparisons {name : String} {sc : Scope} {t : DataType} (h : nullComparisons.run e = .ok e')
    (ho : Expr.Occurs (.column name sc t) e') : Expr.Occurs (.column name sc t) e := by
  induction e using Expr.childInduction generalizing e' with
  | h e ih =>
    rw [nullComparisons_run_eq] at h
    obtain ⟨walked, hwalked, rfl⟩ := except_map_eq_ok.mp h
    have hin := occurs_of_nullTest ho
    by_cases hk : Expr.kind (.column name sc t) = e.kind
    · cases e with
      | column n sc' t' =>
        rw [Editor.rewalk_column] at hwalked
        cases hwalked
        exact hin
      | _ => cases hk
    · obtain ⟨c, hc, c', hrun, hocc⟩ := occurs_of_rewalk (fun _ _ => rfl) hk hwalked hin
      exact .child hc (ih c hc hrun hocc)

/-- A column of a composed expression stands in the definition of a column of the row. -/
theorem occurs_of_composed {columns : List Column} {name : String} {t : DataType} (h : e.composed columns = .ok e')
    (ho : Expr.Occurs (.column name .row t) e') :
    ∃ read type c, Expr.Occurs (.column read .row type) e ∧ Column.find? columns read = some c ∧
      Expr.Occurs (.column name .row t) c.expr := by
  induction e using Expr.childInduction generalizing e' with
  | h e ih =>
    by_cases hk : e.kind = .column
    · cases e with
      | column n sc t' =>
        cases sc with
        | row =>
          obtain ⟨c, hc, rfl⟩ := composed_field_eq_ok h
          exact ⟨n, t', c, .self, hc, ho⟩
        | group =>
          cases h
          cases occurs_of_leaf rfl ho
      | _ => cases hk
    · rw [composed_eq_rewalk hk] at h
      obtain ⟨c, hc, c', hrun, hocc⟩ := occurs_of_rewalk (fun _ _ => rfl) (fun h => hk h.symm) h ho
      obtain ⟨read, type, d, hread, hfind, hdef⟩ := ih c hc hrun hocc
      exact ⟨read, type, d, .child hc hread, hfind, hdef⟩

end PigChain
