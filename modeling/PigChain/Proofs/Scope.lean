import PigChain.Proofs.ColumnNames
import PigChain.Proofs.Combinators
import PigChain.Proofs.LiteralPasses
import PigChain.Proofs.RowResult
import PigChain.Proofs.Substitution

/-!
# The scope of nested chains

A chain inside a lambda is bound on its own, and the stage that it is bound to becomes a scalar of the bound body. Its
columns are columns of its own rows. Two passes walk into it all the same: null comparisons are made null tests there
too, and when the body goes into a projected stage the definitions of that stage are put in for columns of the same
names. A stage that has no null comparison left, and of which every column is a column that the projected stage passes
on under its name, comes through unchanged.
-/

namespace PigChain

variable {nested : Expr → BindM Stage} {s s' : Stage} {row : String} {e e' : Expr}

/-! ### What stands in an expression -/

/-- `e.Has x`: the expression `x` stands in `e`, outside the stages of `e`. -/
inductive Expr.Has (x : Expr) : Expr → Prop where
  | self : Expr.Has x x
  | child {e c : Expr} (he : e.holdsStage = false) (hc : c ∈ e.children) (h : Expr.Has x c) : Expr.Has x e

/-- The expression `x` stands in a clause of a stage, or in one of the stages it reads, at any depth. -/
def Stage.Contains (s : Stage) (x : Expr) : Prop := ∃ c ∈ s.exprs, Expr.Occurs x c

theorem Expr.has_of_leaf {x : Expr} (hc : e.children = []) (h : Expr.Has x e) : x = e := by
  cases h with
  | self => rfl
  | child _ hmem _ =>
    rw [hc] at hmem
    cases hmem

theorem Expr.has_stage_iff {x : Expr} (he : e.holdsStage = false) (hx : x.holdsStage = true) :
    Expr.Has x e ↔ ∃ c ∈ e.children, Expr.Has x c := by
  constructor
  · intro h
    cases h with
    | self => rw [he] at hx; cases hx
    | child _ hmem h => exact ⟨_, hmem, h⟩
  · rintro ⟨c, hmem, h⟩
    exact .child he hmem h

/-! ### Passes over scalars -/

/-- How a pass treats a node that holds no stage: it makes of the walked node one with the same stages in it, or it
puts something else, of which the stages are `own`, in the place of a leaf. -/
def NodeWise (r : Editor (Except Error)) (own : Expr → Prop) : Prop :=
  ∀ e e', e.holdsStage = false → r.run e = .ok e' →
    (∃ x, r.rewalk e = .ok x ∧ ∀ y, y.holdsStage = true → (Expr.Has y e' ↔ Expr.Has y x)) ∨
      (e.children = [] ∧ ∀ y, y.holdsStage = true → Expr.Has y e' → own y)

/-- What a pass leaves of the scalars of an expression. -/
structure PassedOn (r : Editor (Except Error)) (own : Expr → Prop) (e e' : Expr) : Prop where
  /-- Every stage comes from a scalar that was there, or is one the pass put in. -/
  only : ∀ y, y.holdsStage = true → Expr.Has y e' →
    own y ∨ ∃ t t' type, Expr.Has (.scalar t type) e ∧ r.runStage t = .ok t' ∧ y = .scalar t' type
  kept : ∀ t type, Expr.Has (.scalar t type) e → ∃ t', r.runStage t = .ok t' ∧ Expr.Has (.scalar t' type) e'

theorem passedOn_run {r : Editor (Except Error)} {own : Expr → Prop} (hr : r.WalksStages) (hnode : NodeWise r own)
    (hscalar : ∀ t type e', r.run (.scalar t type) = .ok e' → ∃ t', r.runStage t = .ok t' ∧ e' = .scalar t' type)
    {e e' : Expr} (hst : ∀ y, y.holdsStage = true → Expr.Has y e → ∃ t type, y = .scalar t type)
    (h : r.run e = .ok e') : PassedOn r own e e' := by
  induction e using Expr.childInduction generalizing e' with
  | h e ih =>
    cases he : e.holdsStage with
    | true =>
      obtain ⟨t, type, rfl⟩ := hst e he .self
      obtain ⟨t', ht', rfl⟩ := hscalar t type e' h
      refine ⟨fun y hy hhas => .inr ⟨t, t', type, .self, ht', ?_⟩, fun t₁ type₁ hhas => ?_⟩
      · cases hhas with
        | self => rfl
        | child hno _ _ => cases hno
      · cases hhas with
        | self => exact ⟨t', ht', .self⟩
        | child hno _ _ => cases hno
    | false =>
      rcases hnode e e' he h with ⟨x, hx, hsame⟩ | ⟨hleaf, hown⟩
      · obtain ⟨cs, hcs, rfl, hchildren⟩ := rewalk_eq_ok hr (Expr.kind_ne_scalar he) hx
        have hx : (e.withChildren cs).holdsStage = false := by rw [Expr.holdsStage_withChildren, he]
        have hchild : ∀ c ∈ e.children, ∀ y, y.holdsStage = true → Expr.Has y c → ∃ t type, y = .scalar t type :=
          fun c hc y hy hhas => hst y hy (.child he hc hhas)
        refine ⟨fun y hy hhas => ?_, fun t type hhas => ?_⟩
        · obtain ⟨c', hc', hhas⟩ := (Expr.has_stage_iff hx hy).mp ((hsame y hy).mp hhas)
          rw [hchildren] at hc'
          obtain ⟨c, hc, hrun⟩ := exists_of_forall₂_right hcs hc'
          rcases (ih c hc (hchild c hc) hrun).only y hy hhas with hown | ⟨t, t', type, ht, hrest⟩
          · exact .inl hown
          · exact .inr ⟨t, t', type, .child he hc ht, hrest⟩
        · obtain ⟨c, hc, hhas⟩ := (Expr.has_stage_iff he rfl).mp hhas
          obtain ⟨c', hc', hrun⟩ := exists_of_forall₂_left hcs hc
          obtain ⟨t', ht', hhas'⟩ := (ih c hc (hchild c hc) hrun).kept t type hhas
          refine ⟨t', ht', (hsame _ rfl).mpr ((Expr.has_stage_iff hx rfl).mpr ⟨c', ?_, hhas'⟩)⟩
          rw [hchildren]
          exact hc'
      · refine ⟨fun y hy hhas => .inl (hown y hy hhas), fun t type hhas => ?_⟩
        rw [← Expr.has_of_leaf hleaf hhas] at he
        cases he

theorem has_of_isNullLiteral {x y : Expr} (hx : x.isNullLiteral = true) (hy : y.holdsStage = true) :
    ¬Expr.Has y x := by
  unfold Expr.isNullLiteral at hx
  split at hx
  · intro h
    rw [Expr.has_of_leaf rfl h] at hy
    cases hy
  · cases hx

theorem has_nullCompared {l r x y : Expr} {op : BinaryOp} {t : DataType} (h : nullCompared? l r = some x)
    (hy : y.holdsStage = true) : Expr.Has y x ↔ Expr.Has y (.binary op l r t) := by
  have hparts : Expr.Has y (.binary op l r t) ↔ Expr.Has y l ∨ Expr.Has y r := by
    rw [Expr.has_stage_iff rfl hy]
    simp [Expr.children]
  rw [hparts]
  unfold nullCompared? at h
  split at h
  · next _ hr =>
    cases h
    exact ⟨.inl, fun h => h.resolve_right (has_of_isNullLiteral hr hy)⟩
  · next hl _ =>
    cases h
    exact ⟨.inr, fun h => h.resolve_left (has_of_isNullLiteral hl hy)⟩
  · cases h

/-- A null test has the stages of the comparison that it stands for. -/
theorem has_nullTest {x y : Expr} (hy : y.holdsStage = true) :
    Expr.Has y ((nullTest? x).getD x) ↔ Expr.Has y x := by
  have hnull : ∀ z, Expr.Has y (.isNull z) ↔ Expr.Has y z := by
    intro z
    rw [Expr.has_stage_iff rfl hy]
    simp [Expr.children]
  have hnot : ∀ z, Expr.Has y (.isNotNull z) ↔ Expr.Has y z := by
    intro z
    rw [Expr.isNotNull, Expr.apply, Expr.has_stage_iff rfl hy, ← hnull z]
    simp [Expr.children]
  cases hx : nullTest? x with
  | none => exact Iff.rfl
  | some z =>
    obtain ⟨op, l, r, t, w, rfl, hw, rfl | rfl⟩ := nullTest_eq_some hx
    · exact (hnull w).trans (has_nullCompared hw hy)
    · exact (hnot w).trans (has_nullCompared hw hy)

theorem passedOn_nullComparisons (hst : ∀ y, y.holdsStage = true → Expr.Has y e → ∃ t type, y = .scalar t type)
    (h : nullComparisons.run e = .ok e') : PassedOn nullComparisons (fun _ => False) e e' := by
  refine passedOn_run (fun _ _ => rfl) ?_ ?_ hst h
  · intro e e' _ he
    rw [nullComparisons_run_eq] at he
    obtain ⟨x, hx, rfl⟩ := except_map_eq_ok.mp he
    exact .inl ⟨x, hx, fun y hy => has_nullTest hy⟩
  · intro t type e' he
    rw [nullComparisons_run_eq] at he
    obtain ⟨x, hx, rfl⟩ := except_map_eq_ok.mp he
    obtain ⟨t', ht', rfl⟩ := rewalk_scalar_eq_ok hx
    exact ⟨t', ht', rfl⟩

theorem passedOn_composed {columns : List Column}
    (hst : ∀ y, y.holdsStage = true → Expr.Has y e → ∃ t type, y = .scalar t type)
    (h : e.composed columns = .ok e') :
    PassedOn (substituteColumns columns) (fun y => ∃ c ∈ columns, Expr.Has y c.expr) e e' := by
  refine passedOn_run (fun _ _ => rfl) ?_ ?_ hst h
  · intro e e' _ he
    by_cases hk : e.kind = .column
    · cases e with
      | column n sc t =>
        refine .inr ⟨rfl, fun y hy hhas => ?_⟩
        cases sc with
        | row =>
          obtain ⟨c, hc, rfl⟩ := composed_field_eq_ok he
          exact ⟨c, (Column.find?_eq_some hc).1, hhas⟩
        | group =>
          cases he
          rw [Expr.has_of_leaf rfl hhas] at hy
          cases hy
      | _ => cases hk
    · have hwalk : (substituteColumns columns).run e = (substituteColumns columns).rewalk e := composed_eq_rewalk hk
      exact .inl ⟨e', hwalk ▸ he, fun _ _ => Iff.rfl⟩
  · intro t type e' he
    have hwalk : (substituteColumns columns).run (.scalar t type) = (substituteColumns columns).rewalk (.scalar t type) :=
      composed_eq_rewalk Kind.noConfusion
    rw [hwalk] at he
    exact rewalk_scalar_eq_ok he

/-! ### Stages that come through unchanged -/

/-- A stage in which null tests find nothing to do. -/
structure Settled (t : Stage) : Prop where
  width : ∀ inner type, t.Contains (.scalar inner type) → inner.width = 1
  nulls : ∀ x, t.Contains x → nullTest? x = none

/-- A settled stage whose columns are columns that `columns` pass on under their names. -/
structure Undisturbed (columns : List Column) (t : Stage) : Prop extends Settled t where
  columns : ∀ name type, t.Contains (.column name .row type) →
    ∃ c, Column.find? columns name = some c ∧ c.expr = .column name .row type

theorem run_eq_self {r : Editor (Except Error)} (hr : r.WalksStages)
    (hw : ∀ inner type, Expr.Occurs (.scalar inner type) e → inner.width = 1)
    (hnode : ∀ x, Expr.Occurs x e → r.rewalk x = .ok x → r.run x = .ok x) : r.run e = .ok e := by
  induction e using Expr.childInduction with
  | h e ih =>
    have hchildren : ∀ c ∈ e.children, r.run c = .ok c := fun c hc =>
      ih c hc (fun inner type h => hw inner type (.child hc h)) fun x hx => hnode x (.child hc hx)
    refine hnode e .self ?_
    by_cases hk : e.kind = .scalar
    · cases e with
      | scalar t type => exact rewalk_scalar_eq_self (hw t type .self) (runStage_eq_self hr hchildren)
      | _ => cases hk
    · exact rewalk_eq_self hr hk hchildren

theorem Settled.nullComparisons {t : Stage} (h : Settled t) :
    nullComparisons.runStage t = .ok t := by
  refine runStage_eq_self (fun _ _ => rfl) fun c hc => ?_
  refine run_eq_self (fun _ _ => rfl) (fun inner type hx => h.width inner type ⟨c, hc, hx⟩) fun x hx hwalk => ?_
  rw [nullComparisons_run_eq, hwalk]
  show Except.ok ((nullTest? x).getD x) = .ok x
  rw [h.nulls x ⟨c, hc, hx⟩]
  rfl

/-- Definitions that are the columns themselves change nothing. -/
theorem composed_eq_self {columns : List Column}
    (hw : ∀ inner type, Expr.Occurs (.scalar inner type) e → inner.width = 1)
    (hc : ∀ name type, Expr.Occurs (.column name .row type) e →
      ∃ c, Column.find? columns name = some c ∧ c.expr = .column name .row type) : e.composed columns = .ok e := by
  refine run_eq_self (fun _ _ => rfl) hw fun x hx hwalk => ?_
  show x.composed columns = .ok x
  by_cases hk : x.kind = .column
  · cases x with
    | column n sc ty =>
      cases sc with
      | row =>
        obtain ⟨d, hd, hexpr⟩ := hc n ty hx
        rw [composed_field, hd]
        exact congrArg Except.ok hexpr
      | group => rfl
    | _ => cases hk
  · rw [composed_eq_rewalk hk]
    exact hwalk

theorem Undisturbed.composed {columns : List Column} {t : Stage} (h : Undisturbed columns t) :
    (substituteColumns columns).runStage t = .ok t :=
  runStage_eq_self (fun _ _ => rfl) fun c hc => composed_eq_self (fun inner type hx => h.width inner type ⟨c, hc, hx⟩)
    fun name type hx => h.columns name type ⟨c, hc, hx⟩

/-! ### Chains of a body -/

/-- The chains of a body are values in it, and no stage is written there outright. -/
def ChainsAsValues (row : String) (x : Expr) : Prop :=
  ∀ y, Expr.Reaches row y x → y.holdsStage = false ∧ (y.isChain row = true → y.type.isQuery = false)

/-- The stages of an expression are those that the chains of a body are bound to, up to `image`, or are `own`. -/
structure Carries (nested : Expr → BindM Stage) (row : String) (own : Expr → Prop) (image : Stage → Stage → Prop)
    (x e : Expr) : Prop where
  only : ∀ y, y.holdsStage = true → Expr.Has y e → own y ∨ ∃ q t t', Expr.Reaches row q x ∧ q.isChain row = true ∧
    (nested q).outcome = .ok t ∧ image t t' ∧ y = .scalar t' q.type
  kept : ∀ q, Expr.Reaches row q x → q.isChain row = true → ∃ t t', (nested q).outcome = .ok t ∧ image t t' ∧
    Expr.Has (.scalar t' q.type) e

variable {x : Expr} {own : Expr → Prop} {image : Stage → Stage → Prop}

theorem Expr.isChain_eq_false (h : e.isWalked row = true) : e.isChain row = false := by
  cases e with
  | call object method args type =>
    simp only [Expr.isWalked, Bool.and_eq_true, Bool.not_eq_true'] at h
    rw [Expr.isChain, h.2, Bool.and_false]
  | _ => rfl

theorem Expr.isWalked_eq_false (h : e.isChain row = true) : e.isWalked row = false := by
  cases hw : e.isWalked row with
  | false => rfl
  | true => rw [Expr.isChain_eq_false hw] at h; cases h

theorem Expr.reaches_eq_self {q : Expr} (hw : x.isWalked row = false) (h : Expr.Reaches row q x) : q = x := by
  cases h with
  | self => rfl
  | child hwalked _ _ => rw [hw] at hwalked; cases hwalked

theorem carries_of_reference (hc : x.isChain row = false) (hw : x.isWalked row = false)
    (hno : ∀ y, y.holdsStage = true → ¬Expr.Has y e) : Carries nested row own image x e := by
  refine ⟨fun y hy hhas => absurd hhas (hno y hy), fun q hq hchain => ?_⟩
  rw [Expr.reaches_eq_self hw hq, hc] at hchain
  cases hchain

theorem carries_of_chain {t : Stage} (hc : x.isChain row = true) (ht : (nested x).outcome = .ok t) :
    Carries nested row own Eq x (.scalar t x.type) := by
  refine ⟨fun y hy hhas => .inr ⟨x, t, t, .self, hc, ht, rfl, ?_⟩, fun q hq _ => ?_⟩
  · cases hhas with
    | self => rfl
    | child hno _ _ => cases hno
  · rw [Expr.reaches_eq_self (Expr.isWalked_eq_false hc) hq]
    exact ⟨t, t, ht, rfl, .self⟩

theorem carries_of_walk {cs : List Expr} (hw : x.isWalked row = true) (hx : x.holdsStage = false)
    (hcs : List.Forall₂ (Carries nested row own image) x.children cs) (hlen : (x.withChildren cs).children = cs)
    (he : ∀ y, y.holdsStage = true → (Expr.Has y e ↔ Expr.Has y (x.withChildren cs))) :
    Carries nested row own image x e := by
  have hnode : (x.withChildren cs).holdsStage = false := by rw [Expr.holdsStage_withChildren, hx]
  have hhas : ∀ y, y.holdsStage = true → (Expr.Has y e ↔ ∃ c ∈ cs, Expr.Has y c) := by
    intro y hy
    rw [he y hy, Expr.has_stage_iff hnode hy, hlen]
  constructor
  · intro y hy h
    obtain ⟨c', hc', h⟩ := (hhas y hy).mp h
    obtain ⟨c, hc, hcarry⟩ := exists_of_forall₂_right hcs hc'
    rcases hcarry.only y hy h with hown | ⟨q, t, t', hq, hrest⟩
    · exact .inl hown
    · exact .inr ⟨q, t, t', .child hw hc hq, hrest⟩
  · intro q hq hchain
    cases hq with
    | self => rw [Expr.isChain_eq_false hw] at hchain; cases hchain
    | child _ hc hq =>
      obtain ⟨c', hc', hcarry⟩ := exists_of_forall₂_left hcs hc
      obtain ⟨t, t', ht, himage, h⟩ := hcarry.kept q hq hchain
      exact ⟨t, t', ht, himage, (hhas _ rfl).mpr ⟨c', hc', h⟩⟩

theorem not_has_column {y : Expr} {name : String} {scope : Scope} {type : DataType} (hy : y.holdsStage = true) :
    ¬Expr.Has y (.column name scope type) := by
  intro h
  rw [Expr.has_of_leaf rfl h] at hy
  cases hy

/-- A bound body has the stages of its chains, each as it was bound. -/
theorem carries_rowBinder (hx : ChainsAsValues row x) (h : Yields ((rowBinder nested s row).run x) e) :
    Carries nested row (fun _ => False) Eq x e := by
  induction x using Expr.childInduction generalizing e with
  | h x ih =>
    have hwalked : ∀ {z}, x.isWalked row = true → Yields ((rowBinder nested s row).rewalk x) z →
        (∀ y, y.holdsStage = true → (Expr.Has y e ↔ Expr.Has y z)) → Carries nested row (fun _ => False) Eq x e := by
      intro z hw hz hsame
      have hstage := (hx x .self).1
      obtain ⟨cs, hcs, rfl, hlen⟩ := yields_rewalk (Expr.kind_ne_scalar hstage) hz
      refine carries_of_walk hw hstage ?_ hlen hsame
      refine List.forall₂_of_length_eq_of_get hcs.length_eq fun i hi hi' => ?_
      exact ih _ (List.get_mem _ _) (fun y hy => hx y (.child hw (List.get_mem _ _) hy)) (hcs.get hi hi')
    cases rowStep_of_run h with
    | row hcol =>
      obtain ⟨name, type, rfl⟩ := rowColumn_isColumn hcol
      exact carries_of_reference rfl (by simp [Expr.isWalked]) fun y hy => not_has_column hy
    | field hrow hcol =>
      obtain ⟨name, type, rfl⟩ := fieldColumn_isColumn hcol
      exact carries_of_reference rfl (by rw [Expr.isWalked, hrow]; rfl) fun y hy => not_has_column hy
    | aggregate hrow hcall =>
      obtain ⟨function, _, _, name, type, -, -, rfl⟩ := groupAggregate_eq_ok hcall
      refine carries_of_reference (by rw [Expr.isChain, hrow]; rfl) (by rw [Expr.isWalked, hrow]; rfl) fun y hy hhas => ?_
      obtain ⟨c, hc, hhas⟩ := (Expr.has_stage_iff rfl hy).mp hhas
      rw [List.mem_singleton.mp hc] at hhas
      exact not_has_column hy hhas
    | chain hchain hstage =>
      rw [nestedChain, Traced.outcome_bind_eq_ok, (hx x .self).2 hchain] at hstage
      obtain ⟨t, ht, hscalar⟩ := hstage
      simp only [Bool.false_eq_true, if_false, Traced.outcome_silent, Expr.scalarOf] at hscalar
      split at hscalar
      · cases hscalar
        exact carries_of_chain hchain ht
      · cases hscalar
    | walk hw hz => exact hwalked hw hz fun _ _ => Iff.rfl
    | dotted hw hz hdotted =>
      refine hwalked hw hz fun y hy => ?_
      unfold recordField? at hdotted
      split at hdotted
      · cases hdotted
        refine ⟨fun h => absurd h (not_has_column hy), fun h => ?_⟩
        obtain ⟨c, hc, h⟩ := (Expr.has_stage_iff rfl hy).mp h
        rw [List.mem_singleton.mp hc] at h
        exact absurd h (not_has_column hy)
      · cases hdotted

theorem Carries.mono {own' : Expr → Prop} {image' : Stage → Stage → Prop} (h : Carries nested row own image x e)
    (hown : ∀ y, own y → own' y) (himage : ∀ t t', image t t' → image' t t') : Carries nested row own' image' x e := by
  constructor
  · intro y hy hhas
    rcases h.only y hy hhas with hy | ⟨q, t, t', hq, hchain, ht, himg, rfl⟩
    · exact .inl (hown y hy)
    · exact .inr ⟨q, t, t', hq, hchain, ht, himage t t' himg, rfl⟩
  · intro q hq hchain
    obtain ⟨t, t', ht, himg, hhas⟩ := h.kept q hq hchain
    exact ⟨t, t', ht, himage t t' himg, hhas⟩

/-- What a pass leaves of the stages that chains are bound to. -/
theorem Carries.pass {r : Editor (Except Error)} (h : Carries nested row (fun _ => False) image x e)
    (hp : PassedOn r own e e') :
    Carries nested row own (fun t t'' => ∃ t', image t t' ∧ r.runStage t' = .ok t'') x e' := by
  constructor
  · intro y hy hhas
    rcases hp.only y hy hhas with hy | ⟨t', t'', type, hscalar, hrun, rfl⟩
    · exact .inl hy
    · rcases h.only _ rfl hscalar with ⟨⟨⟩⟩ | ⟨q, t, t₁, hq, hchain, ht, himg, heq⟩
      cases heq
      exact .inr ⟨q, t, t'', hq, hchain, ht, ⟨t', himg, hrun⟩, rfl⟩
  · intro q hq hchain
    obtain ⟨t, t', ht, himg, hhas⟩ := h.kept q hq hchain
    obtain ⟨t'', hrun, hhas'⟩ := hp.kept t' q.type hhas
    exact ⟨t, t'', ht, ⟨t', himg, hrun⟩, hhas'⟩

theorem Carries.scalars (h : Carries nested row (fun _ => False) image x e) :
    ∀ y, y.holdsStage = true → Expr.Has y e → ∃ t type, y = .scalar t type := by
  intro y hy hhas
  rcases h.only y hy hhas with ⟨⟨⟩⟩ | ⟨q, t, t', -, -, -, -, rfl⟩
  exact ⟨t', q.type, rfl⟩

/-! ### Bound bodies -/

/-- The chains of a body, with the lambdas it invokes put in, are values in it. -/
def NestsValues (row : String) (x : Expr) : Prop := ∀ x', x.inlined = .ok x' → ChainsAsValues row x'

/-- The chains of a body `x` that are bound to stages that fit stand in `e`, each as the stage it is bound to. -/
def KeepsScope (nested : Expr → BindM Stage) (row : String) (own : Expr → Prop) (fits : Stage → Prop) (x e : Expr) :
    Prop :=
  ∃ x', x.inlined = .ok x' ∧ Carries nested row own (fun t t' => fits t → t' = t) x' e

theorem KeepsScope.has {fits : Stage → Prop} {q : Expr} {t : Stage} (h : KeepsScope nested row own fits x e)
    (hx : x.inlined = .ok x) (hq : Expr.Reaches row q x) (hchain : q.isChain row = true)
    (ht : (nested q).outcome = .ok t) (hfits : fits t) : Expr.Has (.scalar t q.type) e := by
  obtain ⟨x', hx', hcarries⟩ := h
  rw [hx] at hx'
  cases hx'
  obtain ⟨t₁, t', ht₁, himage, hhas⟩ := hcarries.kept q hq hchain
  rw [ht] at ht₁
  cases ht₁
  rwa [himage hfits] at hhas

theorem bindBody_keepsScope {bound : BoundBody} (hx : NestsValues row x)
    (h : (bindBody nested s row x).outcome = .ok bound) :
    KeepsScope nested row (fun _ => False) Settled x bound.expr := by
  obtain ⟨x', e, hinlined, hrow, hnull⟩ := bindBody_eq_ok h
  have hcarries := carries_rowBinder (hx x' hinlined) ⟨[], bound.noted, hrow⟩
  refine ⟨x', hinlined, (hcarries.pass (passedOn_nullComparisons hcarries.scalars hnull)).mono (fun _ h => h) ?_⟩
  rintro t t' ⟨_, rfl, hrun⟩ ht
  rw [ht.nullComparisons] at hrun
  exact (Except.ok.inj hrun).symm

/-- The definitions of a stage leave alone what no column of them disturbs. -/
theorem KeepsScope.composed {columns : List Column} (h : KeepsScope nested row (fun _ => False) Settled x e)
    (he : e.composed columns = .ok e') :
    KeepsScope nested row (fun y => ∃ c ∈ columns, Expr.Has y c.expr) (Undisturbed columns) x e' := by
  obtain ⟨x', hinlined, hcarries⟩ := h
  refine ⟨x', hinlined, (hcarries.pass (passedOn_composed hcarries.scalars he)).mono (fun _ h => h) ?_⟩
  rintro t t'' ⟨t', hsettled, hrun⟩ ht
  rw [hsettled ht.toSettled, ht.composed] at hrun
  exact (Except.ok.inj hrun).symm

/-- If no chain is disturbed, a column that is not declared stands outside the stages. -/
theorem has_of_composed_eq_error {columns : List Column} {name : String}
    (hst : ∀ y, y.holdsStage = true → Expr.Has y e → ∃ t type, y = .scalar t type ∧ Undisturbed columns t)
    (h : e.composed columns = .error (.argument (.unknownColumn name))) :
    ∃ type, Expr.Has (.column name .row type) e := by
  induction e using Expr.childInduction with
  | h e ih =>
    cases he : e.holdsStage with
    | true =>
      obtain ⟨t, type, rfl, ht⟩ := hst e he .self
      rw [composed_eq_rewalk Kind.noConfusion] at h
      rcases rewalk_scalar_eq_error (fun _ _ => rfl) h with h | ⟨-, ⟨⟩⟩
      rw [ht.composed] at h
      cases h
    | false =>
      by_cases hk : e.kind = .column
      · obtain ⟨type, hoccurs, -⟩ := occurs_of_composed_eq_error h
        cases e with
        | column n scope t =>
          cases hoccurs with
          | self => exact ⟨_, .self⟩
          | child hc _ => cases hc
        | _ => cases hk
      · rw [composed_eq_rewalk hk] at h
        obtain ⟨c, hc, h⟩ := rewalk_eq_error (fun _ _ => rfl) (Expr.kind_ne_scalar he) h
        obtain ⟨type, hhas⟩ := ih c hc (fun y hy hhas => hst y hy (.child he hc hhas)) h
        exact ⟨type, .child he hc hhas⟩

end PigChain
