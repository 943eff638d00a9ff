import PigChain.Proofs.ColumnNames
import PigChain.Proofs.LiteralPasses
import PigChain.Proofs.Meaning
import PigChain.Proofs.RowBinding

/-!
# Substitution of columns

A flat body is bound to a plain expression: columns of the row, aggregates over the bag of a group, literals and
operators over these. Replacing the columns of a plain expression by their definitions and reading the result over
an input row is reading the expression over the row that the definitions make of it, as long as the expression
does not look at a bag, which that row no longer has.
-/

namespace PigChain

/-! ### Plain expressions -/

/-- An expression without stages; aggregates over a bag occur only if `grouped`. -/
inductive PlainExpr (L : Value → Prop) (grouped : Bool) : Expr → Prop where
  | constant {v : Value} {t : DataType} (hv : L v) (ht : t.groupFree = true) :
    PlainExpr L grouped (.constant v t)
  | column {name : String} {t : DataType} (ht : t.groupFree = true) :
    PlainExpr L grouped (.column name .row t)
  | aggregate {function name : String} {t type : DataType} (hg : grouped = true)
    (ht : type.groupFree = true) : PlainExpr L grouped (.call none function [.column name .group t] type)
  | unary {op : UnaryOp} {x : Expr} {t : DataType} (hx : PlainExpr L grouped x)
    (ht : t.groupFree = true) : PlainExpr L grouped (.unary op x t)
  | binary {op : BinaryOp} {x y : Expr} {t : DataType} (hx : PlainExpr L grouped x)
    (hy : PlainExpr L grouped y) (ht : t.groupFree = true) : PlainExpr L grouped (.binary op x y t)
  | conditional {c x y : Expr} {t : DataType} (hc : PlainExpr L grouped c) (hx : PlainExpr L grouped x)
    (hy : PlainExpr L grouped y) (ht : t.groupFree = true) : PlainExpr L grouped (.conditional c x y t)
  | isNull {x : Expr} (hx : PlainExpr L grouped x) : PlainExpr L grouped (.isNull x)
  | method {name : String} {x : Expr} {args : List Expr} {t : DataType} (hx : PlainExpr L grouped x)
    (hargs : ∀ a ∈ args, PlainExpr L grouped a) (ht : t.groupFree = true) :
    PlainExpr L grouped (.call (some x) name args t)

variable {L : Value → Prop} {g : Bool} {e e' : Expr}

theorem PlainExpr.type_groupFree (h : PlainExpr L g e) : e.type.groupFree = true := by
  cases h <;> first | assumption | rfl

theorem PlainExpr.grouped (h : PlainExpr L g e) : PlainExpr L true e := by
  induction h with
  | constant hv ht => exact .constant hv ht
  | column ht => exact .column ht
  | aggregate _ ht => exact .aggregate rfl ht
  | unary _ ht ih => exact .unary ih ht
  | binary _ _ ht ihx ihy => exact .binary ihx ihy ht
  | conditional _ _ _ ht ihc ihx ihy => exact .conditional ihc ihx ihy ht
  | isNull _ ih => exact .isNull ih
  | method _ _ ht ihx ihargs => exact .method ihx ihargs ht

/-! ### Substitution -/

theorem runCall_eq_ok {r : Editor (Except Error)} {x : Expr} {name : String} {args : List Expr} {t : DataType}
    (h : r.rewalk (.call (some x) name args t) = .ok e') :
    ∃ x' args', r.run x = .ok x' ∧ List.Forall₂ (fun a a' => r.run a = .ok a') args args' ∧
      e' = .call (some x') name args' t := by
  simp only [Editor.rewalk_call, Editor.runOption_some, except_do_eq_ok] at h
  obtain ⟨o, ⟨x', hx, ho⟩, args', hargs, h⟩ := h
  cases ho
  cases h
  rw [Editor.runList_eq_mapM] at hargs
  exact ⟨x', args', hx, mapM_eq_ok.mp hargs, rfl⟩

theorem forall_mem_of_forall₂ {α β : Type} {R : α → β → Prop} {P : β → Prop} {xs : List α} {ys : List β}
    (h : List.Forall₂ R xs ys) (hP : ∀ x y, x ∈ xs → R x y → P y) : ∀ y ∈ ys, P y := by
  induction h with
  | nil => intro y hy; cases hy
  | cons hxy _ ih =>
    intro y hy
    rcases List.mem_cons.mp hy with rfl | hy
    · exact hP _ _ List.mem_cons_self hxy
    · exact ih (fun x y hx => hP x y (List.mem_cons_of_mem _ hx)) y hy

/-! ### Null tests -/

theorem PlainExpr.nullCompared {l r x : Expr} (hl : PlainExpr L g l) (hr : PlainExpr L g r)
    (h : nullCompared? l r = some x) : PlainExpr L g x := by
  rcases nullCompared_mem h with rfl | rfl
  · exact hl
  · exact hr

theorem PlainExpr.nullTest (h : PlainExpr L g e) : PlainExpr L g ((nullTest? e).getD e) := by
  cases ht : nullTest? e with
  | none => exact h
  | some x =>
    obtain ⟨op, l, r, t, y, rfl, hy, hx⟩ := nullTest_eq_some ht
    cases h with
    | binary hl hr _ =>
      have hnull : PlainExpr L g (.isNull y) := .isNull (hl.nullCompared hr hy)
      rcases hx with rfl | rfl
      · exact hnull
      · exact .unary hnull rfl

theorem PlainExpr.nullComparisons (h : PlainExpr L g e) (he : nullComparisons.run e = .ok e') :
    PlainExpr L g e' := by
  induction h generalizing e' with
  | constant hv ht =>
    rw [nullComparisons_run_eq, Editor.rewalk_constant] at he
    cases he
    exact .constant hv ht
  | column ht =>
    rw [nullComparisons_run_eq, Editor.rewalk_column] at he
    cases he
    exact .column ht
  | aggregate hg ht =>
    rw [nullComparisons_run_eq] at he
    cases he
    exact .aggregate hg ht
  | unary _ ht ih =>
    rw [nullComparisons_run_eq, Editor.rewalk_unary, except_map_eq_ok] at he
    simp only [except_do_eq_ok] at he
    obtain ⟨_, ⟨x', hx, h⟩, rfl⟩ := he
    cases h
    exact (PlainExpr.unary (ih hx) ht).nullTest
  | binary _ _ ht ihx ihy =>
    rw [nullComparisons_run_eq, Editor.rewalk_binary, except_map_eq_ok] at he
    simp only [except_do_eq_ok] at he
    obtain ⟨_, ⟨x', hx, y', hy, h⟩, rfl⟩ := he
    cases h
    exact (PlainExpr.binary (ihx hx) (ihy hy) ht).nullTest
  | conditional _ _ _ ht ihc ihx ihy =>
    rw [nullComparisons_run_eq, Editor.rewalk_conditional, except_map_eq_ok] at he
    simp only [except_do_eq_ok] at he
    obtain ⟨_, ⟨c', hc, x', hx, y', hy, h⟩, rfl⟩ := he
    cases h
    exact (PlainExpr.conditional (ihc hc) (ihx hx) (ihy hy) ht).nullTest
  | isNull _ ih =>
    rw [nullComparisons_run_eq, Editor.rewalk_isNull, except_map_eq_ok] at he
    simp only [except_do_eq_ok] at he
    obtain ⟨_, ⟨x', hx, h⟩, rfl⟩ := he
    cases h
    exact (PlainExpr.isNull (ih hx)).nullTest
  | method _ _ ht ihx ihargs =>
    rw [nullComparisons_run_eq, except_map_eq_ok] at he
    obtain ⟨_, hcall, rfl⟩ := he
    obtain ⟨x', args', hx, hargs, rfl⟩ := runCall_eq_ok hcall
    refine (PlainExpr.method (ihx hx) ?_ ht).nullTest
    exact forall_mem_of_forall₂ hargs fun a a' ha hrun => ihargs a ha hrun

/-! ### Composition -/

section

variable {columns : List Column}

theorem Column.get_image {E : Engine} {db : Content} {name : String} {c : Column} (r : Row)
    (h : Column.find? columns name = some c) : (Column.image E db columns r).get name = c.expr.eval E db r := by
  have hlookup : (Column.evalList E db columns r).lookup name = some (c.expr.eval E db r) := by
    induction columns with
    | nil => cases h
    | cons d columns ih =>
      obtain ⟨n, x⟩ := d
      rw [Column.evalList, List.lookup_cons]
      unfold Column.find? at h
      rw [List.find?_cons] at h
      cases hn : n == name with
      | true =>
        rw [hn] at h
        cases h
        rw [BEq.comm.trans hn]
      | false =>
        rw [hn] at h
        rw [BEq.comm.trans hn]
        exact ih h
  unfold Row.get Column.image
  rw [hlookup]
  rfl

theorem PlainExpr.composed (h : PlainExpr L false e) (hcols : ∀ c ∈ columns, PlainExpr L g c.expr)
    (he : e.composed columns = .ok e') : PlainExpr L g e' := by
  induction h generalizing e' with
  | constant hv ht =>
    cases he
    exact .constant hv ht
  | column ht =>
    obtain ⟨c, hc, rfl⟩ := composed_field_eq_ok he
    exact hcols c (Column.find?_eq_some hc).1
  | aggregate hg => cases hg
  | unary _ ht ih =>
    rw [composed_eq_rewalk Kind.noConfusion, Editor.rewalk_unary, except_do_eq_ok] at he
    obtain ⟨x', hx, h⟩ := he
    cases h
    exact .unary (ih hx) ht
  | binary _ _ ht ihx ihy =>
    rw [composed_eq_rewalk Kind.noConfusion, Editor.rewalk_binary] at he
    simp only [except_do_eq_ok] at he
    obtain ⟨x', hx, y', hy, h⟩ := he
    cases h
    exact .binary (ihx hx) (ihy hy) ht
  | conditional _ _ _ ht ihc ihx ihy =>
    rw [composed_eq_rewalk Kind.noConfusion, Editor.rewalk_conditional] at he
    simp only [except_do_eq_ok] at he
    obtain ⟨c', hc, x', hx, y', hy, h⟩ := he
    cases h
    exact .conditional (ihc hc) (ihx hx) (ihy hy) ht
  | isNull _ ih =>
    rw [composed_eq_rewalk Kind.noConfusion, Editor.rewalk_isNull, except_do_eq_ok] at he
    obtain ⟨x', hx, h⟩ := he
    cases h
    exact .isNull (ih hx)
  | method _ _ ht ihx ihargs =>
    rw [composed_eq_rewalk Kind.noConfusion] at he
    obtain ⟨x', args', hx, hargs, rfl⟩ := runCall_eq_ok he
    exact .method (ihx hx) (forall_mem_of_forall₂ hargs fun a a' ha hrun => ihargs a ha hrun) ht

theorem evalList_of_forall₂ {E : Engine} {db : Content} {R : Expr → Expr → Prop} {xs ys : List Expr} {r r' : Row}
    (h : List.Forall₂ R xs ys) (hR : ∀ x y, x ∈ xs → R x y → y.eval E db r = x.eval E db r') :
    Expr.evalList E db ys r = Expr.evalList E db xs r' := by
  induction h with
  | nil => rw [Expr.evalList, Expr.evalList]
  | cons hxy _ ih =>
    rw [Expr.evalList, Expr.evalList, hR _ _ List.mem_cons_self hxy,
      ih fun x y hx => hR x y (List.mem_cons_of_mem _ hx)]

/-- Composition over an input row is reading over the row that the columns make of it. -/
theorem PlainExpr.eval_composed {E : Engine} {db : Content} {r : Row} (h : PlainExpr L false e)
    (he : e.composed columns = .ok e') :
    e'.eval E db r = e.eval E db (Column.image E db columns r) := by
  induction h generalizing e' with
  | constant hv ht =>
    rw [composed_eq_rewalk Kind.noConfusion, Editor.rewalk_constant] at he
    cases he
    rw [Expr.eval, Expr.eval]
  | column ht =>
    obtain ⟨c, hc, rfl⟩ := composed_field_eq_ok he
    rw [Expr.eval, Column.get_image r hc]
  | aggregate hg => cases hg
  | unary _ ht ih =>
    rw [composed_eq_rewalk Kind.noConfusion, Editor.rewalk_unary, except_do_eq_ok] at he
    obtain ⟨x', hx, h⟩ := he
    cases h
    rw [Expr.eval, Expr.eval, ih hx]
  | binary _ _ ht ihx ihy =>
    rw [composed_eq_rewalk Kind.noConfusion, Editor.rewalk_binary] at he
    simp only [except_do_eq_ok] at he
    obtain ⟨x', hx, y', hy, h⟩ := he
    cases h
    rw [Expr.eval, Expr.eval, ihx hx, ihy hy]
  | conditional _ _ _ ht ihc ihx ihy =>
    rw [composed_eq_rewalk Kind.noConfusion, Editor.rewalk_conditional] at he
    simp only [except_do_eq_ok] at he
    obtain ⟨c', hc, x', hx, y', hy, h⟩ := he
    cases h
    rw [Expr.eval, Expr.eval, ihc hc, ihx hx, ihy hy]
  | isNull _ ih =>
    rw [composed_eq_rewalk Kind.noConfusion, Editor.rewalk_isNull, except_do_eq_ok] at he
    obtain ⟨x', hx, h⟩ := he
    cases h
    rw [Expr.eval, Expr.eval, ih hx]
  | method _ _ ht ihx ihargs =>
    rw [composed_eq_rewalk Kind.noConfusion] at he
    obtain ⟨x', args', hx, hargs, rfl⟩ := runCall_eq_ok he
    rw [Expr.eval, Expr.eval, ihx hx, evalList_of_forall₂ hargs fun a a' ha hrun => ihargs a ha hrun]

/-- Projecting twice is projecting once by the composed columns. -/
theorem image_composeColumns {E : Engine} {db : Content} {outer composed : List Column} {r : Row}
    (h : ∀ c ∈ outer, PlainExpr L false c.expr) (hc : composeColumns columns outer = .ok composed) :
    Column.image E db composed r = Column.image E db outer (Column.image E db columns r) := by
  have hfields : Column.evalList E db composed r =
      Column.evalList E db outer (Column.image E db columns r) := by
    have hforall := composeColumns_eq_ok hc
    clear hc
    induction hforall with
    | nil => rw [Column.evalList, Column.evalList]
    | @cons c d outer composed hcd _ ih =>
      obtain ⟨name, x⟩ := c
      obtain ⟨name', x'⟩ := d
      obtain ⟨rfl, hx⟩ := hcd
      have hplain : PlainExpr L false x := h _ List.mem_cons_self
      rw [Column.evalList, Column.evalList, hplain.eval_composed hx, ih fun d hd => h d (List.mem_cons_of_mem _ hd)]
  rw [Column.image, hfields]
  rfl

end

end PigChain
