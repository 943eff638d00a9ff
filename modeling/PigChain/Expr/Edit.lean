import PigChain.Expr.Editor
import PigChain.Expr.Build

/-!
# Common editors

Edits of a tree that look at one kind of node: constants, members, or the stages of subqueries, and a walk that
records what it meets.
-/

namespace PigChain.Editor

/-- Replaces constants; `none` leaves a constant alone. -/
def mapConstants (f : Value → DataType → Option Expr) : Editor (Except Error) where
  expr e walk :=
    match e with
    | .constant v t => pure (f v t)
    | _ => walk

/-- Renames a member wherever it is read, and counts how often. -/
def renameMember (old new : String) : Editor (Keeping Nat) where
  expr e walk :=
    match e with
    | .member .. => do
      let e' ← walk
      match e'.getD e with
      | .member o name t =>
        if name = old then
          modify (· + 1)
          return some (.member o new t)
        else return e'
      | _ => return e'
    | _ => walk

/-- Edits every stage after the expressions and stages in it; `none` leaves a stage alone. -/
def editStages {m : Type → Type} [Monad m] (f : Stage → m (Option Stage)) : Editor m where
  stage s walk := do
    let s' ← walk
    match ← f (s'.getD s) with
    | some edited => pure (some edited)
    | none => pure s'

def mapStages (f : Stage → Option Stage) : Editor (Except Error) := editStages fun s => pure (f s)

/-- What a recording walk meets. -/
inductive Visited where
  | expr (kind : Kind)
  | stage
  deriving DecidableEq

/-- Records every node and stage before its children, and fails at a refused kind. -/
def recording (refused : Kind → Bool) : Editor (Keeping (List Visited)) where
  expr e walk := do
    modify (· ++ [.expr e.kind])
    if refused e.kind then throw (.unsupportedNode e.kind) else walk
  stage _ walk := do
    modify (· ++ [.stage])
    walk

end PigChain.Editor
