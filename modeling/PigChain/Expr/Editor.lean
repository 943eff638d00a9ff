import PigChain.Expr.Build

/-!
# Editing trees

A visit answers `none` for a part it left alone and `some` for the part that replaces it, so that "nothing was
replaced" is told apart from "replaced by an equal part". An editor has one hook for expressions and one for
stages. A hook is given the part and the walk of its children, which it may run, run and look at, or not run
at all; the walk visits the children in a fixed order and makes a new node only if one of them was replaced.

The order is: the object before the arguments, constructor arguments before items and bindings, the target
before its arguments; in a stage the inner stage, the filter, the columns, the keys and the orderings.
-/

namespace PigChain

/-! ### Replacements -/

/-- The head and tail of a list: `none` if neither was replaced. -/
def replaceCons (x : α) (x' : Option α) (xs : List α) (xs' : Option (List α)) : Option (List α) :=
  match x', xs' with
  | none, none => none
  | _, _ => some (x'.getD x :: xs'.getD xs)

/-- A list edited as far as some item: the items passed, and the copy of them with the replacements. There is no copy
before the first replacement. -/
structure Draft (α : Type u) where
  passed : Array α := #[]
  copy : Option (Array α) := none

/-- Passes one more item. -/
def Draft.pass (d : Draft α) (x : α) (x' : Option α) : Draft α where
  passed := d.passed.push x
  copy :=
    match d.copy, x' with
    | some copy, some new => some (copy.push new)
    | some copy, none => some (copy.push x)
    | none, some new => some (d.passed.push new)
    | none, none => none

/-- Edits a list from left to right with a function that answers only for the items it replaces. The
answer is `none` if no item was replaced. -/
def editList [Monad m] (f : α → m (Option α)) (items : List α) : m (Option (List α)) := do
  let edited ← items.foldlM (fun d x => do
    let x' ← f x
    pure (d.pass x x')) ({} : Draft α)
  pure (edited.copy.map Array.toList)

/-- A node of two parts. -/
def replace2 (a : α) (a' : Option α) (b : β) (b' : Option β) (make : α → β → γ) : Option γ :=
  match a', b' with
  | none, none => none
  | _, _ => some (make (a'.getD a) (b'.getD b))

/-- A node of three parts. -/
def replace3 (a : α) (a' : Option α) (b : β) (b' : Option β) (c : γ) (c' : Option γ)
    (make : α → β → γ → δ) : Option δ :=
  match a', b', c' with
  | none, none, none => none
  | _, _, _ => some (make (a'.getD a) (b'.getD b) (c'.getD c))

/-- A stage with some of its clauses replaced. A clause that is there is never taken away. -/
def Stage.replace (s : Stage) (source : Option Source) (filter : Option Expr) (columns : Option (List Column))
    (grouping : Option Grouping) (orderBy : Option (List Ordering)) : Option Stage :=
  match source, filter, columns, grouping, orderBy with
  | none, none, none, none, none => none
  | _, _, _, _, _ => some { s with
      source := source.getD s.source
      filter := filter <|> s.filter
      columns := columns.getD s.columns
      grouping := grouping <|> s.grouping
      orderBy := orderBy.getD s.orderBy }

/-- A scalar over a replaced stage, which must still be one column wide. -/
def replaceScalar [Monad m] [MonadExceptOf Error m] (s' : Option Stage) (t : DataType) : m (Option Expr) :=
  match s' with
  | none => pure none
  | some s => if s.width = 1 then pure (some (.scalar s t)) else throw (.scalarWidth s.width)

/-! ### Editors -/

/-- What to do at every expression and every stage, given the walk of its children. -/
structure Editor (m : Type → Type) where
  expr : Expr → m (Option Expr) → m (Option Expr) := fun _ walk => walk
  stage : Stage → m (Option Stage) → m (Option Stage) := fun _ walk => walk

namespace Editor

variable {m : Type → Type} [Monad m] [MonadExceptOf Error m]

mutual

/-- Visits an expression. -/
def visit (r : Editor m) : Expr → m (Option Expr)
  | .constant v t => r.expr (.constant v t) (pure none)
  | .parameter n t => r.expr (.parameter n t) (pure none)
  | .member o n t => r.expr (.member o n t) do
    let o' ← r.visitOption o
    pure (o'.map fun x => .member (some x) n t)
  | .unary op x t => r.expr (.unary op x t) do
    let x' ← r.visit x
    pure (x'.map fun x => .unary op x t)
  | .binary op x y t => r.expr (.binary op x y t) do
    let x' ← r.visit x
    let y' ← r.visit y
    pure (replace2 x x' y y' fun x y => .binary op x y t)
  | .conditional c x y t => r.expr (.conditional c x y t) do
    let c' ← r.visit c
    let x' ← r.visit x
    let y' ← r.visit y
    pure (replace3 c c' x x' y y' fun c x y => .conditional c x y t)
  | .call o n as t => r.expr (.call o n as t) do
    let o' ← r.visitOption o
    let as' ← r.visitList as
    pure (replace2 o (o'.map some) as as' fun o as => .call o n as t)
  | .construct t as ns => r.expr (.construct t as ns) do
    let as' ← r.visitList as
    pure (as'.map fun as => .construct t as ns)
  | .arrayInit t xs => r.expr (.arrayInit t xs) do
    let xs' ← r.visitList xs
    pure (xs'.map fun xs => .arrayInit t xs)
  | .listInit t as ns is => r.expr (.listInit t as ns is) do
    let as' ← r.visitList as
    let is' ← r.visitItems is
    pure (replace2 as as' is is' fun as is => .listInit t as ns is)
  | .lambda ps b => r.expr (.lambda ps b) do
    let b' ← r.visit b
    pure (b'.map fun b => .lambda ps b)
  | .invocation f as t => r.expr (.invocation f as t) do
    let f' ← r.visit f
    let as' ← r.visitList as
    pure (replace2 f f' as as' fun f as => .invocation f as t)
  | .recordInit t as ns bs => r.expr (.recordInit t as ns bs) do
    let as' ← r.visitList as
    let bs' ← r.visitBindings bs
    pure (replace2 as as' bs bs' fun as bs => .recordInit t as ns bs)
  | .isNull x => r.expr (.isNull x) do
    let x' ← r.visit x
    pure (x'.map .isNull)
  | .subquery s t => r.expr (.subquery s t) do
    let s' ← r.visitStage s
    pure (s'.map fun s => .subquery s t)
  | .scalar s t => r.expr (.scalar s t) do
    let s' ← r.visitStage s
    replaceScalar s' t
  | .select s => r.expr (.select s) do
    let s' ← r.visitStage s
    pure (s'.map .select)
  | .column n sc t => r.expr (.column n sc t) (pure none)

/-- Visits an expression that may be absent; an absent one is left alone. -/
def visitOption (r : Editor m) : Option Expr → m (Option Expr)
  | none => pure none
  | some x => r.visit x

def visitList (r : Editor m) : List Expr → m (Option (List Expr))
  | [] => pure none
  | x :: xs => do
    let x' ← r.visit x
    let xs' ← r.visitList xs
    pure (replaceCons x x' xs xs')

def visitItem (r : Editor m) : ElementInit → m (Option ElementInit)
  | ⟨n, as⟩ => do
    let as' ← r.visitList as
    pure (as'.map fun as => ⟨n, as⟩)

def visitItems (r : Editor m) : List ElementInit → m (Option (List ElementInit))
  | [] => pure none
  | i :: is => do
    let i' ← r.visitItem i
    let is' ← r.visitItems is
    pure (replaceCons i i' is is')

def visitBinding (r : Editor m) : Binding → m (Option Binding)
  | .assign n x => do
    let x' ← r.visit x
    pure (x'.map fun x => .assign n x)
  | .nested n bs => do
    let bs' ← r.visitBindings bs
    pure (bs'.map fun bs => .nested n bs)
  | .list n is => do
    let is' ← r.visitItems is
    pure (is'.map fun is => .list n is)

def visitBindings (r : Editor m) : List Binding → m (Option (List Binding))
  | [] => pure none
  | b :: bs => do
    let b' ← r.visitBinding b
    let bs' ← r.visitBindings bs
    pure (replaceCons b b' bs bs')

/-- Visits a stage. -/
def visitStage (r : Editor m) : Stage → m (Option Stage)
  | ⟨source, filter, columns, projected, grouping, orderBy, limit, element, projector⟩ =>
    let s : Stage := ⟨source, filter, columns, projected, grouping, orderBy, limit, element, projector⟩
    r.stage s do
      let source' ← r.visitSource source
      let filter' ← r.visitOption filter
      let columns' ← r.visitColumns columns
      let grouping' ← r.visitGrouping grouping
      let orderBy' ← r.visitOrderings orderBy
      pure (s.replace source' filter' columns' grouping' orderBy')

def visitSource (r : Editor m) : Source → m (Option Source)
  | .base _ => pure none
  | .stage s => do
    let s' ← r.visitStage s
    pure (s'.map .stage)

def visitColumn (r : Editor m) : Column → m (Option Column)
  | ⟨n, x⟩ => do
    let x' ← r.visit x
    pure (x'.map fun x => ⟨n, x⟩)

def visitColumns (r : Editor m) : List Column → m (Option (List Column))
  | [] => pure none
  | c :: cs => do
    let c' ← r.visitColumn c
    let cs' ← r.visitColumns cs
    pure (replaceCons c c' cs cs')

def visitGrouping (r : Editor m) : Option Grouping → m (Option Grouping)
  | none => pure none
  | some .all => pure none
  | some (.keys ks) => do
    let ks' ← r.visitList ks
    pure (ks'.map .keys)

def visitOrdering (r : Editor m) : Ordering → m (Option Ordering)
  | ⟨x, d⟩ => do
    let x' ← r.visit x
    pure (x'.map fun x => ⟨x, d⟩)

def visitOrderings (r : Editor m) : List Ordering → m (Option (List Ordering))
  | [] => pure none
  | o :: os => do
    let o' ← r.visitOrdering o
    let os' ← r.visitOrderings os
    pure (replaceCons o o' os os')

end

/-- Visits an expression and gives the result, replaced or not. -/
def run (r : Editor m) (e : Expr) : m Expr := do
  let e' ← r.visit e
  pure (e'.getD e)

end Editor

/-- A computation that can fail and keeps its state when it does. -/
abbrev Keeping (σ : Type) := ExceptT Error (StateM σ)

end PigChain
