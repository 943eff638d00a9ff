import PigChain.Expr.Editor

/-!
# Parameters

Substitution of expressions for parameters, and the inlining of invoked lambdas built on it. The bindings in
force are a state: a lambda takes the bindings of its own parameters out before its body is visited and puts
them back after it, whether the visit succeeded or not. Binders are never renamed.
-/

namespace PigChain

/-- The expressions bound to names; a name without one is free. -/
abbrev Bindings := String → Option Expr

namespace Bindings

def empty : Bindings := fun _ => none

def insert (b : Bindings) (name : String) (e : Expr) : Bindings :=
  fun n => if n = name then some e else b n

def erase (b : Bindings) (name : String) : Bindings := fun n => if n = name then none else b n

/-- Puts all pairs in, a later one over an earlier one of the same name. -/
def extend (b : Bindings) : List (String × Expr) → Bindings
  | [] => b
  | (name, e) :: rest => (b.insert name e).extend rest

def ofList (pairs : List (String × Expr)) : Bindings := empty.extend pairs

/-- Takes the bindings of parameters out: what was taken, and what is left. -/
def shadow (b : Bindings) : List Parameter → List (String × Expr) × Bindings
  | [] => ([], b)
  | p :: ps =>
    match b p.name with
    | none => b.shadow ps
    | some e =>
      let (taken, left) := (b.erase p.name).shadow ps
      ((p.name, e) :: taken, left)

end Bindings

/-- Runs a walk under the bindings that are left inside a lambda, and then puts the others back. -/
def shadowing (ps : List Parameter) (walk : Keeping Bindings α) : Keeping Bindings α :=
  ExceptT.mk do
    let (taken, left) := (← get).shadow ps
    set left
    let outcome ← walk.run
    modify fun b => b.extend taken
    pure outcome

/-- Replaces the parameters that are bound. -/
def substituteParameters : Editor (Keeping Bindings) where
  expr e walk :=
    match e with
    | .parameter name _ => do pure ((← get) name)
    | .lambda ps _ => shadowing ps walk
    | _ => walk

/-- An expression with the bound parameters replaced, and the bindings in force afterwards. -/
def Expr.substitute (b : Bindings) (e : Expr) : Except Error (Option Expr) × Bindings :=
  (substituteParameters.visit e).run.run b

/-- How deep invocations may be nested in the results of inlining. -/
def inlineLimit : Nat := 100000

/-- Replaces the invocations of lambdas, arguments and targets first: the body with the arguments put in is
visited again, by `again`, since an argument may come to stand in target position. -/
def inlineWith (again : Expr → Except Error Expr) : Editor (Except Error) where
  expr e walk := do
    let e' ← walk
    match e'.getD e with
    | .invocation (.lambda ps body) args _ =>
      if ps.length ≠ args.length then throw (.argument (.lambdaArity ps.length args.length))
      let body' ← (body.substitute (.ofList ((ps.map Parameter.name).zip args))).1
      let result ← again (body'.getD body)
      pure (some result)
    | _ => pure e'

/-- Inlining in which results are visited again at most `fuel` deep. -/
def inlineInvocations : (fuel : Nat) → Editor (Except Error)
  | 0 => inlineWith fun _ => throw (.argument .endlessInvocation)
  | fuel + 1 => inlineWith (inlineInvocations fuel).run

/-- Inlines every invocation of a lambda, `none` if there is none. -/
def Expr.inlined? (e : Expr) : Except Error (Option Expr) := (inlineInvocations inlineLimit).visit e

/-- The expression with every invocation of a lambda inlined. -/
def Expr.inlined (e : Expr) : Except Error Expr := (inlineInvocations inlineLimit).run e

end PigChain
