import PigChain.Proofs.Children
import PigChain.Proofs.ListEdits
import PigChain.Proofs.Walk

/-!
# Walks that replace nothing

A visit may be run for its effects alone: for a check that can fail, or for names to be noted. If the visit of every
child is of that kind, so is the walk of the node, and its effects are those of the children, one after another.
-/

namespace PigChain.Editor

variable {m : Type → Type} [Monad m] [MonadExceptOf Error m] {r : Editor m} {f : Expr → m PUnit}

/-- The visit of `x` does no more than `f x`. -/
def Leaves (r : Editor m) (f : Expr → m PUnit) (x : Expr) : Prop := r.visit x = (f x >>= fun _ => pure none)

variable [LawfulMonad m]

theorem visitOption_leaves {o : Option Expr} (h : ∀ x ∈ o.toList, r.Leaves f x) :
    r.visitOption o = (o.toList.forM f >>= fun _ => pure none) := by
  cases o with
  | none => simp [visitOption]
  | some x =>
    rw [visitOption, h x (by simp)]
    simp

theorem visitList_leaves {xs : List Expr} (h : ∀ x ∈ xs, r.Leaves f x) :
    r.visitList xs = (xs.forM f >>= fun _ => pure none) := by
  have hitems : ∀ x ∈ xs, r.visit x = ([x].forM f >>= fun _ => pure none) := by
    intro x hx
    rw [h x hx]
    simp
  rw [visitList_eq, editList_leaves (fun x => [x]) hitems, List.flatMap_singleton']

theorem visitItems_leaves {is : List ElementInit} (h : ∀ x ∈ is.flatMap ElementInit.args, r.Leaves f x) :
    r.visitItems is = ((is.flatMap ElementInit.args).forM f >>= fun _ => pure none) := by
  rw [visitItems_eq]
  apply editList_leaves
  rintro ⟨n, as⟩ hi
  rw [visitItem, visitList_leaves fun x hx => h x (List.mem_flatMap.mpr ⟨_, hi, hx⟩)]
  simp

mutual

theorem visitBinding_leaves : ∀ {b : Binding}, (∀ x ∈ b.exprs, r.Leaves f x) →
    r.visitBinding b = (b.exprs.forM f >>= fun _ => pure none)
  | .assign n x, h => by
    rw [visitBinding, Binding.exprs, h x (by simp [Binding.exprs])]
    simp
  | .nested n bs, h => by
    rw [Binding.exprs] at h ⊢
    rw [visitBinding, visitBindings_leaves h]
    simp
  | .list n is, h => by
    rw [Binding.exprs] at h ⊢
    rw [visitBinding, visitItems_leaves h]
    simp

theorem visitBindings_leaves : ∀ {bs : List Binding}, (∀ x ∈ Binding.exprsList bs, r.Leaves f x) →
    r.visitBindings bs = ((Binding.exprsList bs).forM f >>= fun _ => pure none)
  | [], _ => by simp [visitBindings, Binding.exprsList]
  | b :: bs, h => by
    rw [Binding.exprsList] at h ⊢
    rw [visitBindings, visitBinding_leaves fun x hx => h x (List.mem_append_left _ hx),
      visitBindings_leaves fun x hx => h x (List.mem_append_right _ hx)]
    simp [replaceCons, List.forM_append]

end

theorem visitColumns_leaves {columns : List Column} (h : ∀ x ∈ columns.map Column.expr, r.Leaves f x) :
    r.visitColumns columns = ((columns.map Column.expr).forM f >>= fun _ => pure none) := by
  rw [visitColumns_eq, List.map_eq_flatMap]
  apply editList_leaves
  rintro ⟨n, x⟩ hc
  rw [visitColumn, h x (List.mem_map.mpr ⟨_, hc, rfl⟩)]
  simp

theorem visitOrderings_leaves {orderBy : List Ordering} (h : ∀ x ∈ orderBy.map Ordering.expr, r.Leaves f x) :
    r.visitOrderings orderBy = ((orderBy.map Ordering.expr).forM f >>= fun _ => pure none) := by
  rw [visitOrderings_eq, List.map_eq_flatMap]
  apply editList_leaves
  rintro ⟨x, d⟩ ho
  rw [visitOrdering, h x (List.mem_map.mpr ⟨_, ho, rfl⟩)]
  simp

theorem visitGrouping_leaves {g : Option Grouping} (h : ∀ x ∈ Grouping.exprs g, r.Leaves f x) :
    r.visitGrouping g = ((Grouping.exprs g).forM f >>= fun _ => pure none) := by
  rcases g with _ | _ | keys
  · simp [visitGrouping, Grouping.exprs]
  · simp [visitGrouping, Grouping.exprs]
  · rw [Grouping.exprs] at h ⊢
    rw [visitGrouping, visitList_leaves h]
    simp

mutual

theorem visitStage_leaves (hr : r.WalksStages) : ∀ {s : Stage}, (∀ x ∈ s.exprs, r.Leaves f x) →
    r.visitStage s = (s.exprs.forM f >>= fun _ => pure none)
  | ⟨source, filter, columns, projected, grouping, orderBy, limit, element, projector⟩, h => by
    rw [Stage.exprs] at h ⊢
    simp only [List.mem_append] at h
    rw [visitStage, hr, visitSource_leaves hr fun x hx => h x (by simp [hx]),
      visitOption_leaves fun x hx => h x (by simp [hx]), visitColumns_leaves fun x hx => h x (by simp [hx]),
      visitGrouping_leaves fun x hx => h x (by simp [hx]), visitOrderings_leaves fun x hx => h x (by simp [hx])]
    simp [Stage.replace, List.forM_append]

theorem visitSource_leaves (hr : r.WalksStages) : ∀ {s : Source}, (∀ x ∈ s.exprs, r.Leaves f x) →
    r.visitSource s = (s.exprs.forM f >>= fun _ => pure none)
  | .base n, _ => by simp [visitSource, Source.exprs]
  | .stage s, h => by
    rw [Source.exprs] at h ⊢
    rw [visitSource, visitStage_leaves hr h]
    simp

end

/-- One case a kind of node: the parts are visited in the order of the children. -/
theorem walk_leaves_of_stageless {e : Expr} (hs : e.holdsStage = false) (h : ∀ x ∈ e.children, r.Leaves f x) :
    r.walk e = (e.children.forM f >>= fun _ => pure none) := by
  cases e with
  | constant v t => simp [walk, Expr.children]
  | parameter n t => simp [walk, Expr.children]
  | column n sc t => simp [walk, Expr.children]
  | member o n t =>
    rw [Expr.children] at h ⊢
    rw [walk, visitOption_leaves h]
    simp
  | unary op x t =>
    rw [walk, h x (by simp [Expr.children])]
    simp [Expr.children]
  | binary op x y t =>
    rw [walk, h x (by simp [Expr.children]), h y (by simp [Expr.children])]
    simp [Expr.children, replace2]
  | conditional c x y t =>
    rw [walk, h c (by simp [Expr.children]), h x (by simp [Expr.children]), h y (by simp [Expr.children])]
    simp [Expr.children, replace3]
  | call o n as t =>
    rw [Expr.children] at h ⊢
    rw [walk, visitOption_leaves fun x hx => h x (List.mem_append_left _ hx),
      visitList_leaves fun x hx => h x (List.mem_append_right _ hx)]
    simp [replace2, List.forM_append]
  | construct t as ns =>
    rw [Expr.children] at h ⊢
    rw [walk, visitList_leaves h]
    simp
  | arrayInit t xs =>
    rw [Expr.children] at h ⊢
    rw [walk, visitList_leaves h]
    simp
  | listInit t as ns is =>
    rw [Expr.children] at h ⊢
    rw [walk, visitList_leaves fun x hx => h x (List.mem_append_left _ hx),
      visitItems_leaves fun x hx => h x (List.mem_append_right _ hx)]
    simp [replace2, List.forM_append]
  | lambda ps b =>
    rw [walk, h b (by simp [Expr.children])]
    simp [Expr.children]
  | invocation g as t =>
    rw [walk, h g (by simp [Expr.children]), visitList_leaves fun x hx => h x (by simp [Expr.children, hx])]
    simp [Expr.children, replace2]
  | recordInit t as ns bs =>
    rw [Expr.children] at h ⊢
    rw [walk, visitList_leaves fun x hx => h x (List.mem_append_left _ hx),
      visitBindings_leaves fun x hx => h x (List.mem_append_right _ hx)]
    simp [replace2, List.forM_append]
  | isNull x =>
    rw [walk, h x (by simp [Expr.children])]
    simp [Expr.children]
  | subquery s t => cases hs
  | scalar s t => cases hs
  | select s => cases hs

theorem walk_leaves (hr : r.WalksStages) {e : Expr} (h : ∀ x ∈ e.children, r.Leaves f x) :
    r.walk e = (e.children.forM f >>= fun _ => pure none) := by
  cases e with
  | subquery s t =>
    rw [Expr.children] at h ⊢
    rw [walk, visitStage_leaves hr h]
    simp
  | scalar s t =>
    rw [Expr.children] at h ⊢
    rw [walk, visitStage_leaves hr h]
    simp [replaceScalar]
  | select s =>
    rw [Expr.children] at h ⊢
    rw [walk, visitStage_leaves hr h]
    simp
  | _ => exact walk_leaves_of_stageless rfl h

/-- A walk whose children are left alone leaves the node alone. -/
theorem walk_eq_none (hr : r.WalksStages) {e : Expr} (h : ∀ x ∈ e.children, r.visit x = pure none) :
    r.walk e = pure none := by
  have hnothing : ∀ xs : List Expr, xs.forM (fun _ => (pure ⟨⟩ : m PUnit)) = pure ⟨⟩ := by
    intro xs
    induction xs with
    | nil => rfl
    | cons x xs ih =>
      show (pure PUnit.unit >>= fun _ => xs.forM fun _ => (pure ⟨⟩ : m PUnit)) = pure ⟨⟩
      rw [pure_bind, ih]
  have hleaves : ∀ x ∈ e.children, r.Leaves (fun _ => pure ⟨⟩) x := fun x hx => by
    rw [Leaves, h x hx, pure_bind]
  rw [walk_leaves hr hleaves, hnothing, pure_bind]

end PigChain.Editor
