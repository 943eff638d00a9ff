import PigChain.Expr.Editor

/-!
# Columns of an expression

Which fields of the current relation an expression reads, and the replacement of those fields by their
definitions. Both walk into subqueries as well; columns of a bag are left alone.
-/

namespace PigChain

/-- Notes the name of every row column, once each, in the order of the first visit. -/
def collectColumns : Editor (Keeping (List String)) where
  expr e walk :=
    match e with
    | .column name .row _ => do
      let names ← get
      unless names.contains name do set (names ++ [name])
      pure none
    | _ => walk

/-- The names of the row columns of an expression. -/
def Expr.rowColumns (e : Expr) : List String := ((collectColumns.visit e).run.run []).2

/-- Replaces every row column by the column declared under its name. -/
def substituteColumns (columns : List Column) : Editor (Except Error) where
  expr e walk :=
    match e with
    | .column name .row _ =>
      match Column.find? columns name with
      | some c => pure (some c.expr)
      | none => throw (.argument (.unknownColumn name))
    | _ => walk

/-- The expression over the input of a stage whose columns are declared. -/
def Expr.composed (columns : List Column) (e : Expr) : Except Error Expr := (substituteColumns columns).run e

end PigChain
