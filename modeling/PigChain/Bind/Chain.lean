import PigChain.Bind.Clause

/-!
# Binding a chain

A chain is bound from its root outward: the innermost node names a source, and every combinator around it is
applied to the stage bound so far. A chain inside a lambda is bound on its own, without sight of the rows
around it.
-/

namespace PigChain

/-- How many rows a stage yields. -/
inductive Cardinality where
  | many
  /-- At most one row. -/
  | single
  deriving DecidableEq, Repr

/-- A bound chain. -/
structure Bound where
  stage : Stage
  cardinality : Cardinality

/-- The argument that a combinator cannot do without. -/
def required (method : String) : Option Expr → Except Error Expr
  | some a => .ok a
  | none => .error (.argument (.missingArgument method))

/-- The number of rows to take: a constant that is not negative. -/
def takeCount : Expr → Except Error UInt64
  | .constant (.int n) _ =>
    if n.toInt < 0 then .error (.argument (.negativeTake n.toInt)) else .ok (UInt64.ofNat n.toInt.toNat)
  | e => .error (.argument (.takeKind e.kind))

/-- Orderings by the names of their combinators: the direction, and whether the key comes after others. -/
def orderings : List (String × Direction × Bool) :=
  [("OrderBy", .ascending, false), ("OrderByDescending", .descending, false), ("ThenBy", .ascending, true),
   ("ThenByDescending", .descending, true)]

/-- Applies a combinator to a bound chain. `arg` is what follows the chain in the call, `type` the type the
call declares. -/
def applyCombinator (nested : Expr → BindM Stage) (b : Bound) (method : String) (arg : Option Expr)
    (type : DataType) : BindM Bound :=
  match method with
  | "Where" => do
    let predicate ← .silent (required method arg)
    pure { b with stage := ← bindFilter nested b.stage predicate }
  | "Select" => do
    let selector ← .silent (required method arg)
    pure { b with stage := ← bindSelect nested b.stage selector (type.element?.getD .unknown) }
  | "GroupBy" => do
    let declared := match type.element? with
      | some (.grouping key _) => key
      | _ => .unknown
    let selector ← .silent (required method arg)
    pure { b with stage := ← bindGroup nested b.stage selector declared }
  | "Take" => do
    let count ← .silent (required method arg >>= takeCount)
    pure { b with stage := b.stage.take count }
  | "First" => do
    let s ← match arg with
      | some predicate => bindFilter nested b.stage predicate
      | none => pure b.stage
    pure ⟨s.take 1, .single⟩
  | _ =>
    match orderings.lookup method, aggregateFunction? method with
    | some (direction, after), _ => do
      let key ← .silent (required method arg)
      pure { b with stage := ← bindOrder nested b.stage key direction after }
    | none, some function => do
      pure ⟨← bindAggregate nested b.stage method function arg type, .single⟩
    | none, none => throw (.unsupported (.method method))

/-- Binds a chain; `nested` binds the chains inside its lambdas. -/
def bindWith (nested : Expr → BindM Stage) : Expr → BindM Bound
  | .constant (.source name) type =>
    match type.element? with
    | some element => pure ⟨.base name element, .many⟩
    | none => throw (.argument (.sourceType name type))
  | .select s => pure ⟨s, .many⟩
  | .call none method (inner :: args) type => do
    let b ← bindWith nested inner
    applyCombinator nested b method args.head? type
  | .constant _ type => throw (.argument (.chainRoot type))
  | e => throw (.unsupportedNode e.kind)

/-- How deep chains may be nested in lambdas. -/
def nestingLimit : Nat := 100000

/-- Binds a chain in which chains are nested at most `fuel` deep. -/
def bindNested : (fuel : Nat) → Expr → BindM Bound
  | 0 => fun _ => throw (.argument .endlessNesting)
  | fuel + 1 => bindWith fun e => do pure (← bindNested fuel e).stage

/-- The stage that a chain is bound to. -/
def Expr.bound (chain : Expr) : BindM Bound := bindNested nestingLimit chain

end PigChain
