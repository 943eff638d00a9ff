import PigChain.Expr.Editor

/-!
# Literals in comparisons

A comparison with null is a null test, and a literal must have a type that goes with the operand it meets.
-/

namespace PigChain

def Expr.isNullLiteral : Expr → Bool
  | .constant .null _ => true
  | _ => false

/-- The operand compared with null, if exactly one operand is the null literal. -/
def nullCompared? (left right : Expr) : Option Expr :=
  match left.isNullLiteral, right.isNullLiteral with
  | false, true => some left
  | true, false => some right
  | _, _ => none

/-- The null test that a comparison with null stands for. -/
def nullTest? : Expr → Option Expr
  | .binary .equal l r _ => (nullCompared? l r).map .isNull
  | .binary .notEqual l r _ => (nullCompared? l r).map Expr.isNotNull
  | _ => none

/-- Turns comparisons with null into null tests, the operands first. -/
def nullComparisons : Editor (Except Error) where
  expr e walk := do
    let e' ← walk
    pure (nullTest? (e'.getD e) <|> e')

/-- What a message calls the operand that a literal meets. -/
def Expr.operandName : Expr → String
  | .column name _ _ => name
  | e => e.kind.name

/-- Refuses a literal whose type does not go with the operand beside it. -/
def checkLiteral (typed literal : Expr) : Except Error Unit :=
  match literal, typed with
  | .constant .null _, _ => .ok ()
  | .constant _ _, .constant _ _ => .ok ()
  | .constant _ t, typed =>
    if typed.type.accepts t then .ok () else .error (.mismatch typed.operandName typed.type t)
  | _, _ => .ok ()

/-- Checks the literals of every operation that is not logical, an operation before its operands. -/
def literalTypes : Editor (Except Error) where
  expr e walk :=
    match e with
    | .binary op l r _ => do
      unless op.isLogical do
        checkLiteral l r
        checkLiteral r l
      walk
    | _ => walk

end PigChain
