import PigChain.Proofs.ChildWalk
import PigChain.Proofs.RowTypes

/-!
# What the row binder makes of a node

The row binder goes through a body from the outside in. A reference to the row becomes a column or an aggregate, a
chain becomes the stage it is bound to, and any other node is walked: its children are bound in its place. Every
result is one of these, and no proof about bound bodies looks into the binder further than that.
-/

namespace PigChain

variable {nested : Expr → BindM Stage} {s : Stage} {row : String} {e e' : Expr}

/-! ### Computations that end -/

/-- A computation of the row binder can end with `a`. -/
def Yields {α : Type} (x : RowM α) (a : α) : Prop := ∃ n n', (x.run n).outcome = .ok (a, n')

section

variable {α β : Type}

theorem yields_bind {x : RowM α} {f : α → RowM β} {b : β} (h : Yields (x >>= f) b) :
    ∃ a, Yields x a ∧ Yields (f a) b := by
  obtain ⟨n, n', h⟩ := h
  rw [StateT.run_bind, Traced.outcome_bind_eq_ok] at h
  obtain ⟨⟨a, n₁⟩, hx, hf⟩ := h
  exact ⟨a, ⟨n, n₁, hx⟩, n₁, n', hf⟩

theorem yields_pure {a b : α} (h : Yields (pure a : RowM α) b) : b = a := by
  obtain ⟨n, n', h⟩ := h
  cases h
  rfl

theorem yields_map {x : RowM α} {f : α → β} {b : β} (h : Yields (f <$> x) b) : ∃ a, Yields x a ∧ b = f a := by
  rw [map_eq_pure_bind] at h
  obtain ⟨a, hx, hf⟩ := yields_bind h
  exact ⟨a, hx, yields_pure hf⟩

theorem yields_lift {x : BindM α} {a : α} (h : Yields (liftM x : RowM α) a) : x.outcome = .ok a := by
  obtain ⟨n, n', h⟩ := h
  have hrun : ((liftM x : RowM α).run n) = x >>= fun a => pure (a, n) := rfl
  rw [hrun, Traced.outcome_bind_eq_ok] at h
  obtain ⟨b, hb, h⟩ := h
  cases h
  exact hb

theorem yields_mapM {f : α → RowM β} {xs : List α} {ys : List β} (h : Yields (xs.mapM f) ys) :
    List.Forall₂ (fun x y => Yields (f x) y) xs ys := by
  induction xs generalizing ys with
  | nil =>
    rw [List.mapM_nil] at h
    rw [yields_pure h]
    exact .nil
  | cons x xs ih =>
    rw [List.mapM_cons] at h
    obtain ⟨y, hy, h⟩ := yields_bind h
    obtain ⟨zs, hzs, h⟩ := yields_bind h
    rw [yields_pure h]
    exact .cons hy (ih hzs)

end

/-! ### Columns of the row -/

theorem rowColumn_isColumn (h : rowColumn s = .ok e) : ∃ name type, e = .column name .row type := by
  rcases rowColumn_eq_ok h with ⟨-, c, -, -, rfl⟩ | ⟨-, rfl⟩
  · exact ⟨_, _, rfl⟩
  · exact ⟨_, _, rfl⟩

theorem fieldColumn_isColumn {name : String} {declared : DataType} (h : fieldColumn s name declared = .ok e) :
    ∃ name type, e = .column name .row type := by
  rcases fieldColumn_eq_ok h with ⟨_, _, -, rfl⟩ | ⟨-, _, -, rfl⟩ | ⟨-, _, _, -, -, rfl⟩ | ⟨-, -, -, rfl⟩
  · exact ⟨_, _, rfl⟩
  · exact ⟨_, _, rfl⟩
  · exact ⟨_, _, rfl⟩
  · exact ⟨_, _, rfl⟩

theorem yields_resolveField {name : String} {declared : DataType} (h : Yields (resolveField s name declared) e) :
    fieldColumn s name declared = .ok e := by
  unfold resolveField at h
  obtain ⟨x, hx, h⟩ := yields_bind h
  have hfield : fieldColumn s name declared = .ok x := yields_lift hx
  split at h
  · obtain ⟨_, _, h⟩ := yields_bind h
    rw [yields_pure h]
    exact hfield
  · rw [yields_pure h]
    exact hfield

/-! ### Chains inside a body -/

/-- A call that the row binder takes for a chain of its own. -/
def Expr.isChain (row : String) : Expr → Bool
  | .call object _ args _ => !isRow row object && extendsChain object args
  | _ => false

/-- A node whose children the row binder visits. -/
def Expr.isWalked (row : String) : Expr → Bool
  | .parameter name _ => name != row
  | .member object _ _ => !isRow row object
  | .call object _ args _ => !isRow row object && !extendsChain object args
  | _ => true

/-- The row binder comes to `x` when it is given an expression. -/
inductive Expr.Reaches (row : String) (x : Expr) : Expr → Prop where
  | self : Expr.Reaches row x x
  | child {e c : Expr} (he : e.isWalked row = true) (hc : c ∈ e.children) (h : Expr.Reaches row x c) :
    Expr.Reaches row x e

/-- What the row binder makes of a node. -/
inductive RowStep (nested : Expr → BindM Stage) (s : Stage) (row : String) : Expr → Expr → Prop where
  | row {type : DataType} {e' : Expr} (h : rowColumn s = .ok e') : RowStep nested s row (.parameter row type) e'
  | field {object : Option Expr} {name : String} {type : DataType} {e' : Expr} (hrow : isRow row object = true)
    (h : fieldColumn s name type = .ok e') : RowStep nested s row (.member object name type) e'
  | aggregate {object : Option Expr} {method : String} {args : List Expr} {type : DataType} {e' : Expr}
    (hrow : isRow row object = true) (h : groupAggregate s method args type = .ok e') :
    RowStep nested s row (.call object method args type) e'
  | chain {e e' : Expr} (he : e.isChain row = true) (h : (nestedChain nested e e.type).outcome = .ok e') :
    RowStep nested s row e e'
  | walk {e e' : Expr} (he : e.isWalked row = true) (h : Yields ((rowBinder nested s row).rewalk e) e') :
    RowStep nested s row e e'
  | dotted {e x e' : Expr} (he : e.isWalked row = true) (h : Yields ((rowBinder nested s row).rewalk e) x)
    (hx : recordField? x = some e') : RowStep nested s row e e'

theorem yields_run_member {object : Option Expr} {name : String} {type : DataType} (hrow : isRow row object = false)
    (h : Yields ((rowBinder nested s row).run (.member object name type)) e') :
    ∃ x, Yields ((rowBinder nested s row).rewalk (.member object name type)) x ∧ e' = (recordField? x).getD x := by
  rw [Editor.run, Editor.visit_eq] at h
  obtain ⟨y, hy, h⟩ := yields_bind h
  simp only [rowBinder, hrow, Bool.false_eq_true, if_false] at hy
  obtain ⟨x, hx, hy⟩ := yields_bind hy
  rw [yields_pure h, yields_pure hy]
  refine ⟨x.getD (.member object name type), ?_, ?_⟩
  · obtain ⟨n, n', hx⟩ := hx
    refine ⟨n, n', ?_⟩
    rw [Editor.rewalk, StateT.run_bind, Traced.outcome_bind_eq_ok]
    exact ⟨(x, n'), hx, rfl⟩
  · cases recordField? (x.getD (.member object name type)) <;> rfl

/-- One case a kind of node: only parameters, members and calls are not always walked. -/
theorem rowStep_of_run (h : Yields ((rowBinder nested s row).run e) e') : RowStep nested s row e e' := by
  cases e with
  | parameter name type =>
    by_cases hname : name = row
    · subst hname
      rw [Editor.run_of_replace (x := (rowColumn s |> Traced.silent |> liftM)) _ fun w => by
        simp only [rowBinder, if_pos]] at h
      exact .row (yields_lift h)
    · have hrun : (rowBinder nested s row).run (.parameter name type) =
          (rowBinder nested s row).rewalk (.parameter name type) := by
        rw [Editor.run, Editor.visit_eq, Editor.rewalk, Editor.walk]
        simp only [rowBinder, if_neg hname]
      rw [hrun] at h
      exact .walk (by simpa [Expr.isWalked] using hname) h
  | member object name type =>
    cases hrow : isRow row object with
    | true =>
      rw [Editor.run_of_replace (x := resolveField s name type) _ fun w => by
        simp only [rowBinder, hrow, if_true]] at h
      exact .field hrow (yields_resolveField h)
    | false =>
      have hwalked : (Expr.member object name type).isWalked row = true := by rw [Expr.isWalked, hrow]; rfl
      obtain ⟨x, hx, rfl⟩ := yields_run_member hrow h
      cases hdotted : recordField? x with
      | none => exact .walk hwalked hx
      | some y => exact .dotted hwalked hx hdotted
  | call object method args type =>
    cases hrow : isRow row object with
    | true =>
      rw [Editor.run_of_replace (x := (groupAggregate s method args type |> Traced.silent |> liftM)) _ fun w => by
        simp only [rowBinder, hrow, if_true]] at h
      exact .aggregate hrow (yields_lift h)
    | false =>
      cases hchain : extendsChain object args with
      | true =>
        rw [Editor.run_of_replace (x := (nestedChain nested (.call object method args type) type |> liftM))
          _ fun w => by simp only [rowBinder, hrow, hchain, if_true, Bool.false_eq_true, if_false]] at h
        exact .chain (by rw [Expr.isChain, hrow, hchain]; rfl) (yields_lift h)
      | false =>
        rw [Editor.run_of_walk _ fun w => by
          simp only [rowBinder, hrow, hchain, Bool.false_eq_true, if_false]] at h
        exact .walk (by rw [Expr.isWalked, hrow, hchain]; rfl) h
  | _ =>
    rw [Editor.run_of_walk _ fun w => rfl] at h
    exact .walk rfl h

/-- A node that is walked has had each of its children bound. -/
theorem yields_rewalk (hk : e.kind ≠ .scalar) (h : Yields ((rowBinder nested s row).rewalk e) e') :
    ∃ cs, List.Forall₂ (fun c c' => Yields ((rowBinder nested s row).run c) c') e.children cs ∧
      e' = e.withChildren cs ∧ e'.children = cs := by
  rw [Editor.rewalk_eq_mapM (fun _ _ => rfl) hk] at h
  obtain ⟨cs, hcs, rfl⟩ := yields_map h
  have hforall := yields_mapM hcs
  exact ⟨cs, hforall, rfl, Expr.children_withChildren hforall.length_eq.symm⟩

/-- Where a walk ends, the binder has ended on every child, also on those of a scalar. -/
theorem yields_child {c : Expr} (hc : c ∈ e.children) (h : Yields ((rowBinder nested s row).rewalk e) e') :
    ∃ c', Yields ((rowBinder nested s row).run c) c' := by
  by_cases hk : e.kind = .scalar
  · cases e with
    | scalar t type =>
      rw [Editor.rewalk, Editor.walk] at h
      obtain ⟨x, hx, -⟩ := yields_bind h
      obtain ⟨t', ⟨n, n', ht'⟩, -⟩ := yields_bind hx
      have hrun : Yields ((rowBinder nested s row).runStage t) (t'.getD t) := by
        refine ⟨n, n', ?_⟩
        rw [Editor.runStage, StateT.run_bind, Traced.outcome_bind_eq_ok]
        exact ⟨(t', n'), ht', rfl⟩
      rw [Editor.runStage_eq_mapM (fun _ _ => rfl)] at hrun
      obtain ⟨cs, hcs, -⟩ := yields_map hrun
      obtain ⟨c', -, hc'⟩ := exists_of_forall₂_left (yields_mapM hcs) hc
      exact ⟨c', hc'⟩
    | _ => cases hk
  · obtain ⟨cs, hcs, -⟩ := yields_rewalk hk h
    obtain ⟨c', -, hc'⟩ := exists_of_forall₂_left hcs hc
    exact ⟨c', hc'⟩

theorem Expr.isWalked_of_isChain (h : e.isChain row = true) : e.isWalked row = false := by
  unfold Expr.isChain at h
  split at h
  · next object method args type =>
    rw [Bool.and_eq_true] at h
    rw [Expr.isWalked, h.2, Bool.not_true, Bool.and_false]
  · cases h

/-- A body that is bound has had every expression bound that the binder comes to. -/
theorem yields_of_reaches {x : Expr} (hx : Expr.Reaches row x e) (h : Yields ((rowBinder nested s row).run e) e') :
    ∃ x', Yields ((rowBinder nested s row).run x) x' := by
  induction hx generalizing e' with
  | self => exact ⟨e', h⟩
  | child he hc _ ih =>
    cases rowStep_of_run h with
    | row _ => simp [Expr.isWalked] at he
    | field hrow _ => simp [Expr.isWalked, hrow] at he
    | aggregate hrow _ => simp [Expr.isWalked, hrow] at he
    | chain hchain _ =>
      rw [Expr.isWalked_of_isChain hchain] at he
      cases he
    | walk _ hwalk =>
      obtain ⟨c', hc'⟩ := yields_child hc hwalk
      exact ih hc'
    | dotted _ hwalk _ =>
      obtain ⟨c', hc'⟩ := yields_child hc hwalk
      exact ih hc'

end PigChain
