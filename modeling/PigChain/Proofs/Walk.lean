import PigChain.Expr.Editor
import Mathlib.Control.Basic

/-!
# The walk of an editor

A visit answers only for the parts it replaced. Read with the parts it left alone filled in, the walk of a node
is the plain structural map: the children are edited in order, and the node is made of the results. The lemmas
state this node by node, for any lawful monad, so that a pass is reasoned about by its hook and the tree alone.
-/

namespace PigChain

/-! ### Replacements -/

theorem replaceCons_getD {α : Type} (x : α) (x' : Option α) (xs : List α) (xs' : Option (List α)) :
    (replaceCons x x' xs xs').getD (x :: xs) = x'.getD x :: xs'.getD xs := by
  cases x' <;> cases xs' <;> rfl

theorem replace2_getD {α β γ : Type} (a : α) (a' : Option α) (b : β) (b' : Option β) (make : α → β → γ) :
    (replace2 a a' b b' make).getD (make a b) = make (a'.getD a) (b'.getD b) := by
  cases a' <;> cases b' <;> rfl

theorem replace3_getD {α β γ δ : Type} (a : α) (a' : Option α) (b : β) (b' : Option β) (c : γ) (c' : Option γ)
    (make : α → β → γ → δ) :
    (replace3 a a' b b' c c' make).getD (make a b c) = make (a'.getD a) (b'.getD b) (c'.getD c) := by
  cases a' <;> cases b' <;> cases c' <;> rfl

theorem Stage.replace_getD (s : Stage) (source : Option Source) (filter : Option Expr)
    (columns : Option (List Column)) (grouping : Option Grouping) (orderBy : Option (List Ordering)) :
    (s.replace source filter columns grouping orderBy).getD s =
      { s with
        source := source.getD s.source
        filter := filter <|> s.filter
        columns := columns.getD s.columns
        grouping := grouping <|> s.grouping
        orderBy := orderBy.getD s.orderBy } := by
  obtain ⟨_, _, _, _, _, _, _, _, _⟩ := s
  cases source <;> cases filter <;> cases columns <;> cases grouping <;> cases orderBy <;> rfl

namespace Editor

variable {m : Type → Type} [Monad m] [MonadExceptOf Error m] (r : Editor m)

/-! ### The walk of the children -/

/-- What the hook of an expression is given to run. -/
def walk : Expr → m (Option Expr)
  | .constant .. => pure none
  | .parameter .. => pure none
  | .member o n t => do
    let o' ← r.visitOption o
    pure (o'.map fun x => .member (some x) n t)
  | .unary op x t => do
    let x' ← r.visit x
    pure (x'.map fun x => .unary op x t)
  | .binary op x y t => do
    let x' ← r.visit x
    let y' ← r.visit y
    pure (replace2 x x' y y' fun x y => .binary op x y t)
  | .conditional c x y t => do
    let c' ← r.visit c
    let x' ← r.visit x
    let y' ← r.visit y
    pure (replace3 c c' x x' y y' fun c x y => .conditional c x y t)
  | .call o n as t => do
    let o' ← r.visitOption o
    let as' ← r.visitList as
    pure (replace2 o (o'.map some) as as' fun o as => .call o n as t)
  | .construct t as ns => do
    let as' ← r.visitList as
    pure (as'.map fun as => .construct t as ns)
  | .arrayInit t xs => do
    let xs' ← r.visitList xs
    pure (xs'.map fun xs => .arrayInit t xs)
  | .listInit t as ns is => do
    let as' ← r.visitList as
    let is' ← r.visitItems is
    pure (replace2 as as' is is' fun as is => .listInit t as ns is)
  | .lambda ps b => do
    let b' ← r.visit b
    pure (b'.map fun b => .lambda ps b)
  | .invocation f as t => do
    let f' ← r.visit f
    let as' ← r.visitList as
    pure (replace2 f f' as as' fun f as => .invocation f as t)
  | .recordInit t as ns bs => do
    let as' ← r.visitList as
    let bs' ← r.visitBindings bs
    pure (replace2 as as' bs bs' fun as bs => .recordInit t as ns bs)
  | .isNull x => do
    let x' ← r.visit x
    pure (x'.map .isNull)
  | .subquery s t => do
    let s' ← r.visitStage s
    pure (s'.map fun s => .subquery s t)
  | .scalar s t => do
    let s' ← r.visitStage s
    replaceScalar s' t
  | .select s => do
    let s' ← r.visitStage s
    pure (s'.map .select)
  | .column .. => pure none

theorem visit_eq (e : Expr) : r.visit e = r.expr e (r.walk e) := by
  cases e <;> rw [visit] <;> rfl

/-- The walk with the parts it left alone filled in. -/
def rewalk (e : Expr) : m Expr := do
  let e' ← r.walk e
  pure (e'.getD e)

def runOption (o : Option Expr) : m (Option Expr) := do
  let o' ← r.visitOption o
  pure (o' <|> o)

def runList (xs : List Expr) : m (List Expr) := do
  let xs' ← r.visitList xs
  pure (xs'.getD xs)

def runItems (is : List ElementInit) : m (List ElementInit) := do
  let is' ← r.visitItems is
  pure (is'.getD is)

def runBindings (bs : List Binding) : m (List Binding) := do
  let bs' ← r.visitBindings bs
  pure (bs'.getD bs)

def runStage (s : Stage) : m Stage := do
  let s' ← r.visitStage s
  pure (s'.getD s)

/-- An editor that does nothing of its own at a stage. -/
def WalksStages : Prop := ∀ s w, r.stage s w = w

/-- The hook of an expression may do no more than walk. -/
theorem run_of_walk {e : Expr} (h : ∀ w, r.expr e w = w) : r.run e = r.rewalk e := by
  rw [run, rewalk, visit_eq, h]

/-! ### Nodes -/

variable [LawfulMonad m]

/-- The hook of an expression may replace it without a walk. -/
theorem run_of_replace {e : Expr} {x : m Expr} (h : ∀ w, r.expr e w = some <$> x) : r.run e = x := by
  rw [run, visit_eq, h]
  simp

@[simp] theorem rewalk_constant (v : Value) (t : DataType) :
    r.rewalk (.constant v t) = pure (.constant v t) := by
  simp [rewalk, walk]

@[simp] theorem rewalk_parameter (n : String) (t : DataType) :
    r.rewalk (.parameter n t) = pure (.parameter n t) := by
  simp [rewalk, walk]

@[simp] theorem rewalk_column (n : String) (sc : Scope) (t : DataType) :
    r.rewalk (.column n sc t) = pure (.column n sc t) := by
  simp [rewalk, walk]

@[simp] theorem rewalk_member (o : Option Expr) (n : String) (t : DataType) :
    r.rewalk (.member o n t) = (do
      let o ← r.runOption o
      pure (.member o n t)) := by
  simp only [rewalk, walk, runOption, bind_assoc, pure_bind]
  congr 1; funext o'
  cases o' <;> rfl

@[simp] theorem rewalk_unary (op : UnaryOp) (x : Expr) (t : DataType) :
    r.rewalk (.unary op x t) = (do
      let x ← r.run x
      pure (.unary op x t)) := by
  simp only [rewalk, walk, run, bind_assoc, pure_bind]
  congr 1; funext x'
  cases x' <;> rfl

@[simp] theorem rewalk_binary (op : BinaryOp) (x y : Expr) (t : DataType) :
    r.rewalk (.binary op x y t) = (do
      let x ← r.run x
      let y ← r.run y
      pure (.binary op x y t)) := by
  simp only [rewalk, walk, run, bind_assoc, pure_bind]
  congr 1; funext x'; congr 1; funext y'
  rw [replace2_getD x x' y y' fun x y => Expr.binary op x y t]

@[simp] theorem rewalk_conditional (c x y : Expr) (t : DataType) :
    r.rewalk (.conditional c x y t) = (do
      let c ← r.run c
      let x ← r.run x
      let y ← r.run y
      pure (.conditional c x y t)) := by
  simp only [rewalk, walk, run, bind_assoc, pure_bind]
  congr 1; funext c'; congr 1; funext x'; congr 1; funext y'
  rw [replace3_getD c c' x x' y y' fun c x y => Expr.conditional c x y t]

@[simp] theorem rewalk_call (o : Option Expr) (n : String) (as : List Expr) (t : DataType) :
    r.rewalk (.call o n as t) = (do
      let o ← r.runOption o
      let as ← r.runList as
      pure (.call o n as t)) := by
  simp only [rewalk, walk, runOption, runList, bind_assoc, pure_bind]
  congr 1; funext o'; congr 1; funext as'
  rw [replace2_getD o (o'.map some) as as' fun o as => Expr.call o n as t]
  cases o' <;> rfl

@[simp] theorem rewalk_construct (t : DataType) (as : List Expr) (ns : List String) :
    r.rewalk (.construct t as ns) = (do
      let as ← r.runList as
      pure (.construct t as ns)) := by
  simp only [rewalk, walk, runList, bind_assoc, pure_bind]
  congr 1; funext as'
  cases as' <;> rfl

@[simp] theorem rewalk_arrayInit (t : DataType) (xs : List Expr) :
    r.rewalk (.arrayInit t xs) = (do
      let xs ← r.runList xs
      pure (.arrayInit t xs)) := by
  simp only [rewalk, walk, runList, bind_assoc, pure_bind]
  congr 1; funext xs'
  cases xs' <;> rfl

@[simp] theorem rewalk_listInit (t : DataType) (as : List Expr) (ns : List String) (is : List ElementInit) :
    r.rewalk (.listInit t as ns is) = (do
      let as ← r.runList as
      let is ← r.runItems is
      pure (.listInit t as ns is)) := by
  simp only [rewalk, walk, runList, runItems, bind_assoc, pure_bind]
  congr 1; funext as'; congr 1; funext is'
  rw [replace2_getD as as' is is' fun as is => Expr.listInit t as ns is]

@[simp] theorem rewalk_lambda (ps : List Parameter) (b : Expr) :
    r.rewalk (.lambda ps b) = (do
      let b ← r.run b
      pure (.lambda ps b)) := by
  simp only [rewalk, walk, run, bind_assoc, pure_bind]
  congr 1; funext b'
  cases b' <;> rfl

@[simp] theorem rewalk_invocation (f : Expr) (as : List Expr) (t : DataType) :
    r.rewalk (.invocation f as t) = (do
      let f ← r.run f
      let as ← r.runList as
      pure (.invocation f as t)) := by
  simp only [rewalk, walk, run, runList, bind_assoc, pure_bind]
  congr 1; funext f'; congr 1; funext as'
  rw [replace2_getD f f' as as' fun f as => Expr.invocation f as t]

@[simp] theorem rewalk_recordInit (t : DataType) (as : List Expr) (ns : List String) (bs : List Binding) :
    r.rewalk (.recordInit t as ns bs) = (do
      let as ← r.runList as
      let bs ← r.runBindings bs
      pure (.recordInit t as ns bs)) := by
  simp only [rewalk, walk, runList, runBindings, bind_assoc, pure_bind]
  congr 1; funext as'; congr 1; funext bs'
  rw [replace2_getD as as' bs bs' fun as bs => Expr.recordInit t as ns bs]

@[simp] theorem rewalk_isNull (x : Expr) :
    r.rewalk (.isNull x) = (do
      let x ← r.run x
      pure (.isNull x)) := by
  simp only [rewalk, walk, run, bind_assoc, pure_bind]
  congr 1; funext x'
  cases x' <;> rfl

@[simp] theorem rewalk_subquery (s : Stage) (t : DataType) :
    r.rewalk (.subquery s t) = (do
      let s ← r.runStage s
      pure (.subquery s t)) := by
  simp only [rewalk, walk, runStage, bind_assoc, pure_bind]
  congr 1; funext s'
  cases s' <;> rfl

@[simp] theorem rewalk_select (s : Stage) :
    r.rewalk (.select s) = (do
      let s ← r.runStage s
      pure (.select s)) := by
  simp only [rewalk, walk, runStage, bind_assoc, pure_bind]
  congr 1; funext s'
  cases s' <;> rfl

/-! ### Lists and options -/

@[simp] theorem runOption_none : r.runOption none = pure none := by
  simp [runOption, visitOption]

@[simp] theorem runOption_some (x : Expr) :
    r.runOption (some x) = (do
      let x ← r.run x
      pure (some x)) := by
  simp only [runOption, visitOption, run, bind_assoc, pure_bind]
  congr 1; funext x'
  cases x' <;> rfl

@[simp] theorem runList_nil : r.runList [] = pure [] := by
  simp [runList, visitList]

@[simp] theorem runList_cons (x : Expr) (xs : List Expr) :
    r.runList (x :: xs) = (do
      let x ← r.run x
      let xs ← r.runList xs
      pure (x :: xs)) := by
  simp only [runList, visitList, run, bind_assoc, pure_bind]
  congr 1; funext x'; congr 1; funext xs'
  rw [replaceCons_getD]

end Editor

end PigChain
