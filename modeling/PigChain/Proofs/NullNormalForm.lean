import PigChain.Proofs.Inlining
import PigChain.Proofs.Rebuilding

/-!
# The normal form of null comparisons

A comparison for equality with null is a null test in another spelling. The pass that brings it to one spelling goes
from the leaves to the root once. Once is enough: a null test is no null literal, so what stands above it compares with
null exactly if it did before, and a null test holds no comparison that its operand did not hold.
-/

namespace PigChain

variable {e : Expr}

/-! ### Comparisons with null -/

/-- A comparison for equality of which exactly one operand is the null literal. -/
def Expr.IsNullComparison (e : Expr) : Prop :=
  ∃ op l r t, e = .binary op l r t ∧ (op = .equal ∨ op = .notEqual) ∧ l.isNullLiteral ≠ r.isNullLiteral

theorem nullCompared?_eq_none_iff {l r : Expr} : nullCompared? l r = none ↔ l.isNullLiteral = r.isNullLiteral := by
  unfold nullCompared?
  cases l.isNullLiteral <;> cases r.isNullLiteral <;> simp

theorem nullTest?_eq_none_iff : nullTest? e = none ↔ ¬ e.IsNullComparison := by
  constructor
  · rintro h ⟨op, l, r, t, rfl, rfl | rfl, hne⟩
    · exact hne (nullCompared?_eq_none_iff.mp (Option.map_eq_none_iff.mp h))
    · exact hne (nullCompared?_eq_none_iff.mp (Option.map_eq_none_iff.mp h))
  · intro h
    unfold nullTest?
    split
    · next l r t =>
      rw [Option.map_eq_none_iff, nullCompared?_eq_none_iff]
      exact not_not.mp fun hne => h ⟨.equal, l, r, t, rfl, .inl rfl, hne⟩
    · next l r t =>
      rw [Option.map_eq_none_iff, nullCompared?_eq_none_iff]
      exact not_not.mp fun hne => h ⟨.notEqual, l, r, t, rfl, .inr rfl, hne⟩
    · rfl

/-- No comparison with null stands anywhere in a tree. -/
def Expr.IsNullTested (e : Expr) : Prop := e.Throughout fun x => ¬ x.IsNullComparison

theorem Expr.isNullTested_of_kind (hk : e.kind ≠ .binary) (h : ∀ c ∈ e.children, c.IsNullTested) : e.IsNullTested :=
  Expr.throughout_iff.mpr ⟨fun ⟨_, _, _, _, he, _⟩ => hk (he ▸ rfl), h⟩

/-! ### One node -/

/-- A node may itself compare with null; once it is a null test, no comparison with null stands in it that did not stand
below it. -/
theorem isNullTested_nullTest (h : ∀ c ∈ e.children, c.IsNullTested) : ((nullTest? e).getD e).IsNullTested := by
  cases ht : nullTest? e with
  | none => exact Expr.throughout_iff.mpr ⟨nullTest?_eq_none_iff.mp ht, h⟩
  | some test =>
    obtain ⟨op, l, r, t, y, rfl, hy, hx⟩ := nullTest_eq_some ht
    -- The null test is no comparison, and its operand stood below the comparison.
    have hnull : (Expr.isNull y).IsNullTested := by
      refine Expr.isNullTested_of_kind Kind.noConfusion fun c hc => ?_
      rw [List.mem_singleton.mp hc]
      exact h y (nullCompared_mem_children hy)
    rcases hx with rfl | rfl
    · exact hnull
    · refine Expr.isNullTested_of_kind Kind.noConfusion fun c hc => ?_
      rw [List.mem_singleton.mp hc]
      exact hnull

/-! ### Whole trees -/

/-- A tree with every comparison with null made a null test, from the leaves to the root. -/
def Expr.nullTested (e : Expr) : Expr :=
  let walked := e.withChildren (e.children.attach.map fun c => c.1.nullTested)
  (nullTest? walked).getD walked
termination_by sizeOf e
decreasing_by exact Expr.sizeOf_lt_of_mem_children c.2

theorem Expr.nullTested_eq (e : Expr) :
    e.nullTested = (nullTest? (e.withChildren (e.children.map Expr.nullTested))).getD
      (e.withChildren (e.children.map Expr.nullTested)) := by
  rw [Expr.nullTested, List.attach_map_val]

theorem isNullTested_nullTested (e : Expr) : e.nullTested.IsNullTested := by
  induction e using Expr.childInduction with
  | h e ih =>
    rw [Expr.nullTested_eq]
    refine isNullTested_nullTest fun c' hc' => ?_
    rw [Expr.children_withChildren (List.length_map _)] at hc'
    obtain ⟨c, hc, rfl⟩ := List.mem_map.mp hc'
    exact ih c hc

theorem run_nullComparisons (hw : e.NarrowScalars) : nullComparisons.run e = .ok e.nullTested := by
  induction e using Expr.childInduction with
  | h e ih =>
    have hchildren : e.children.mapM nullComparisons.run = .ok (e.children.map Expr.nullTested) := by
      refine mapM_eq_ok.mpr (List.forall₂_map_right_iff.mpr (List.forall₂_same.mpr fun c hc => ?_))
      exact ih c hc (hw.child hc)
    rw [nullComparisons_run_eq, Editor.rewalk_eq_mapM_of_narrow (fun _ _ => rfl) hw, hchildren, Expr.nullTested_eq]
    rfl

/-- A tree without comparisons with null is left alone. -/
theorem visit_nullComparisons_of_isNullTested (h : e.IsNullTested) : nullComparisons.visit e = .ok none := by
  induction e using Expr.childInduction with
  | h e ih =>
    obtain ⟨he, hchildren⟩ := Expr.throughout_iff.mp h
    have hwalk : nullComparisons.walk e = .ok none :=
      Editor.walk_eq_none (fun _ _ => rfl) fun c hc => ih c hc (hchildren c hc)
    rw [Editor.visit_eq, hwalk]
    show Except.ok (nullTest? e <|> none) = .ok none
    rw [nullTest?_eq_none_iff.mpr he]
    rfl

/-- The pass succeeds on every tree whose scalars are all one field wide. No comparison with null stands in its
result, which a second visit leaves alone. The first visit leaves a tree alone exactly if no such comparison stands in
it. -/
theorem null_comparisons_normalise (hw : e.NarrowScalars) :
    ∃ answer, nullComparisons.visit e = .ok answer ∧ answer.getD e = e.nullTested ∧
      (∀ x, Expr.Occurs x (answer.getD e) → ¬ x.IsNullComparison) ∧
      nullComparisons.visit (answer.getD e) = .ok none ∧
      (answer = none ↔ ∀ x, Expr.Occurs x e → ¬ x.IsNullComparison) := by
  obtain ⟨answer, hvisit, hrun⟩ := except_do_eq_ok.mp (run_nullComparisons hw)
  have hresult : answer.getD e = e.nullTested := Except.ok.inj hrun
  have hnormal : (answer.getD e).IsNullTested := hresult ▸ isNullTested_nullTested e
  refine ⟨answer, hvisit, hresult, hnormal, visit_nullComparisons_of_isNullTested hnormal, fun hnone => ?_, fun h => ?_⟩
  · rw [hnone] at hnormal
    exact hnormal
  · rw [visit_nullComparisons_of_isNullTested h] at hvisit
    exact (Except.ok.inj hvisit).symm

/-- The number of people that pass a condition. -/
def peopleThat (condition : Expr) : Expr :=
  .scalar { Stage.base "people" .int64 with filter := some condition } .int64

/-- Whether there is no mail address, compared with null in its turn. -/
theorem null_comparisons_normalise_peopleThat :
    let mail : Expr := .field "Email" .string
    let tree := peopleThat (.combine .notEqual (.combine .equal (.null .string) mail) (.null .bool))
    tree.NarrowScalars ∧ nullComparisons.visit tree = .ok (some (peopleThat (.isNotNull (.isNull mail)))) ∧
      (∀ x, Expr.Occurs x (peopleThat (.isNotNull (.isNull mail))) → ¬ x.IsNullComparison) ∧
      nullComparisons.visit (peopleThat (.isNotNull (.isNull mail))) = .ok none ∧
      ¬ ∀ x, Expr.Occurs x tree → ¬ x.IsNullComparison := by
  intro mail tree
  have hw : tree.NarrowScalars := by
    simp [tree, mail, peopleThat, Expr.combine, Expr.null, Expr.field, Expr.narrowScalars_node,
      Expr.narrowScalars_scalar, Expr.children, Stage.exprs, Source.exprs, Stage.base, Grouping.exprs, Stage.width]
  obtain ⟨answer, hvisit, -, hnormal, hagain, halone⟩ := null_comparisons_normalise hw
  obtain rfl : some (peopleThat (.isNotNull (.isNull mail))) = answer := Except.ok.inj hvisit
  exact ⟨hw, hvisit, hnormal, hagain, fun h => Option.some_ne_none _ (halone.mpr h)⟩

end PigChain
