import PigChain.Script.Lower
import PigChain.Proofs.ColumnNames
import Mathlib.Control.Basic

/-!
# The statements of a stage, clause by clause

A stage is lowered clause by clause: each clause takes the relation left by the one before it, adds at most one
statement and leaves a relation. Columns end the scope of a bag, a grouping begins one. Only a scalar inside an
expression adds statements of its own, so clauses without one make a script in which every statement reads the one
before it.
-/

namespace PigChain

namespace Stage

/-- The relation that columns make, if there are any to make. -/
def lowerColumns (r : Relation) (projected : Bool) (columns : List Column) : Lower Relation :=
  if projected then do
    let items ← Column.lowerList r.bag columns
    let number ← .emit (.generate r.number items)
    pure ⟨number, none⟩
  else pure r

def lowerOrder (r : Relation) (orderBy : List Ordering) : Lower Relation := do
  let keys ← Ordering.lowerList r.bag orderBy
  if keys.isEmpty then pure r
  else do
    let number ← .emit (.order r.number keys)
    pure { r with number := number }

def lowerLimit (r : Relation) : Option UInt64 → Lower Relation
  | none => pure r
  | some count => do
    let number ← .emit (.limit r.number count)
    pure { r with number := number }

theorem lower_eq (s : Stage) : s.lower = (do
    let r ← s.source.lower
    let r ← lowerFilter r s.filter
    let r ← lowerColumns r s.projected s.columns
    let r ← lowerGrouping r s.grouping
    let r ← lowerOrder r s.orderBy
    lowerLimit r s.limit) := by
  obtain ⟨source, filter, columns, projected, grouping, orderBy, limit, element, projector⟩ := s
  have horder : ∀ r : Relation, (do
      let keys ← Ordering.lowerList r.bag orderBy
      if keys.isEmpty then lowerLimit r limit
      else do
        let number ← .emit (.order r.number keys)
        lowerLimit { r with number := number } limit) = (lowerOrder r orderBy >>= fun r => lowerLimit r limit) := by
    intro r
    rw [lowerOrder, bind_assoc]
    congr 1; funext keys
    cases keys.isEmpty with
    | true => simp only [if_true, pure_bind]
    | false => simp only [Bool.false_eq_true, if_false, bind_assoc, pure_bind]
  rw [lower]
  simp only [← horder]
  congr 1; funext r; congr 1; funext r₁
  cases limit <;> cases projected <;>
    simp only [lowerColumns, lowerLimit, if_true, Bool.false_eq_true, if_false, bind_assoc, pure_bind]

end Stage

/-! ### Expressions that add no statement -/

/-- A computation that adds no statement: its result does not depend on those before it. -/
def Lower.Quiet {α : Type} (x : Lower α) : Prop := ∃ result : Except Error α, x = liftM result

namespace Lower.Quiet

variable {α β : Type}

theorem lift (result : Except Error α) : Quiet (liftM result : Lower α) := ⟨result, rfl⟩

theorem pure (a : α) : Quiet (Pure.pure a : Lower α) := ⟨.ok a, rfl⟩

theorem throw (err : Error) : Quiet (MonadExcept.throw err : Lower α) := ⟨.error err, rfl⟩

theorem bind {x : Lower α} {f : α → Lower β} (hx : Quiet x) (hf : ∀ a, Quiet (f a)) : Quiet (x >>= f) := by
  obtain ⟨result, rfl⟩ := hx
  cases result with
  | error err => exact throw err
  | ok a => exact hf a

end Lower.Quiet

theorem lowerList_quiet {bag : Option Nat} {xs : List Expr} (h : ∀ x ∈ xs, (x.lower bag).Quiet) :
    (Expr.lowerList bag xs).Quiet := by
  induction xs with
  | nil =>
    rw [Expr.lowerList]
    exact .pure []
  | cons x xs ih =>
    rw [Expr.lowerList]
    exact (h x List.mem_cons_self).bind fun _ => (ih fun y hy => h y (List.mem_cons_of_mem x hy)).bind fun _ => .pure _

theorem lower_quiet {bag : Option Nat} {e : Expr} (h : ∀ t type, ¬Expr.Occurs (.scalar t type) e) :
    (e.lower bag).Quiet := by
  induction e using Expr.childInduction with
  | h e ih =>
    have hchild : ∀ c ∈ e.children, (c.lower bag).Quiet := fun c hc =>
      ih c hc fun t type ho => h t type (.child hc ho)
    cases e with
    | constant v t =>
      rw [Expr.lower]
      exact .lift _
    | column name sc t =>
      rw [Expr.lower]
      exact .lift _
    | unary op x t =>
      have hx : (x.lower bag).Quiet := hchild x List.mem_cons_self
      cases op with
      | not =>
        rw [Expr.lower]
        exact hx.bind fun _ => .pure _
      | negate =>
        rw [Expr.lower]
        exact hx.bind fun _ => .pure _
      | convert =>
        rw [Expr.lower]
        cases t.cast? with
        | none => exact .throw _
        | some c => exact hx.bind fun _ => .pure _
    | binary op x y t =>
      rw [Expr.lower]
      exact (hchild x (by simp [Expr.children])).bind fun _ =>
        (hchild y (by simp [Expr.children])).bind fun _ => .pure _
    | conditional c x y t =>
      rw [Expr.lower]
      exact (hchild c (by simp [Expr.children])).bind fun _ => (hchild x (by simp [Expr.children])).bind fun _ =>
        (hchild y (by simp [Expr.children])).bind fun _ => .pure _
    | isNull x =>
      rw [Expr.lower]
      exact (hchild x List.mem_cons_self).bind fun _ => .pure _
    | call object method args t =>
      rw [Expr.lower]
      refine (lowerList_quiet fun x hx => hchild x ?_).bind fun _ => ?_
      · exact List.mem_append_right _ hx
      · cases object with
        | none => exact .lift _
        | some x => exact (hchild x (by simp [Expr.children])).bind fun _ => .lift _
    -- The statements of its stage would come first.
    | scalar t type => exact absurd .self (h t type)
    | _ =>
      simp only [Expr.lower]
      exact .throw _

/-- The term of an expression, by itself. -/
def Expr.term (bag : Option Nat) (e : Expr) : Except Error Term := (e.lower bag).run' []

theorem lower_eq_term {bag : Option Nat} {e : Expr} (h : (e.lower bag).Quiet) : e.lower bag = liftM (e.term bag) := by
  obtain ⟨result, h⟩ := h
  rw [Expr.term, h]
  cases result <;> rfl

/-! ### Scripts in which every statement reads the one before it -/

/-- A script that loads a source and then runs clauses, each on the relation before it. -/
def Script.pipeline (source : String) (clauses : List (Nat → Statement)) : Script where
  statements := .load source :: clauses.mapIdx fun n clause => clause n
  result := clauses.length

/-- Where the lowering of a script without a bag in scope stands at its end. -/
def Script.reached (p : Script) : Relation × List Statement := (⟨p.result, none⟩, p.statements)

/-- A step of lowering that adds clauses to a pipeline. -/
def Adds (source : String) (step : Relation → Lower Relation) (added : Except Error (List (Nat → Statement))) : Prop :=
  ∀ clauses, (step ⟨clauses.length, none⟩).run (Script.pipeline source clauses).statements =
    added.map fun new => (Script.pipeline source (clauses ++ new)).reached

variable {source : String}

theorem Adds.bind {step next : Relation → Lower Relation} {added more : Except Error (List (Nat → Statement))}
    (hstep : Adds source step added) (hnext : Adds source next more) :
    Adds source (fun r => step r >>= next) (do return (← added) ++ (← more)) := by
  intro clauses
  rw [StateT.run_bind, hstep clauses]
  cases added with
  | error err => rfl
  | ok new =>
    refine (hnext (clauses ++ new)).trans ?_
    cases more with
    | error err => rfl
    | ok new' =>
      show Except.ok (Script.pipeline source (clauses ++ new ++ new')).reached =
        Except.ok (Script.pipeline source (clauses ++ (new ++ new'))).reached
      rw [List.append_assoc]

theorem adds_nothing : Adds source pure (.ok []) := by
  intro clauses
  show _ = Except.ok (Script.pipeline source (clauses ++ [])).reached
  rw [List.append_nil]
  rfl

theorem adds_clause (clause : Nat → Statement) :
    Adds source (fun r => do pure { r with number := ← .emit (clause r.number) }) (.ok [clause]) := by
  intro clauses
  have hnumber : (Script.pipeline source clauses).statements.length = (clauses ++ [clause]).length := by
    simp [Script.pipeline]
  have hstatements : (Script.pipeline source clauses).statements ++ [clause clauses.length] =
      (Script.pipeline source (clauses ++ [clause])).statements := by
    simp [Script.pipeline, List.mapIdx_append]
  show Except.ok (Relation.mk (Script.pipeline source clauses).statements.length none,
    (Script.pipeline source clauses).statements ++ [clause clauses.length]) = _
  rw [hnumber, hstatements]
  rfl

theorem adds_filter {x : Expr} (h : (x.lower none).Quiet) :
    Adds source (Stage.lowerFilter · (some x)) ((x.term none).map fun p => [fun r => .filter r p]) := by
  intro clauses
  simp only [Stage.lowerFilter, lower_eq_term h]
  cases x.term none with
  | error err => rfl
  | ok p => exact adds_clause (fun r => .filter r p) clauses

theorem adds_limit (count : UInt64) : Adds source (Stage.lowerLimit · (some count)) (.ok [fun r => .limit r count]) :=
  adds_clause fun r => .limit r count

end PigChain
