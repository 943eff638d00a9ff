import PigChain.Value
import PigChain.Projector

/-!
# Expression trees

An expression describes a combinator chain over a data source, the lambdas in it, and the relational stages
the chain is bound to. Expressions and stages refer to each other: a stage holds the expressions of its
clauses, and an expression may hold a stage as a subquery. Trees are plain values; a part that occurs twice
is equal to itself and nothing more.
-/

namespace PigChain

/-- A parameter of a lambda. -/
structure Parameter where
  name : String
  type : DataType
  deriving DecidableEq

mutual

/-- An expression. -/
inductive Expr where
  | constant (value : Value) (type : DataType)
  | parameter (name : String) (type : DataType)
  /-- A member of an object, or a static member if there is no object. -/
  | member (object : Option Expr) (name : String) (type : DataType)
  | unary (op : UnaryOp) (operand : Expr) (type : DataType)
  | binary (op : BinaryOp) (left right : Expr) (type : DataType)
  | conditional (test ifTrue ifFalse : Expr) (type : DataType)
  /-- A method call. A combinator is a call without an object whose first argument is the chain it extends. -/
  | call (object : Option Expr) (method : String) (args : List Expr) (type : DataType)
  /-- A record; `names` names the arguments unless it is empty. -/
  | construct (type : DataType) (args : List Expr) (names : List String)
  | arrayInit (element : DataType) (items : List Expr)
  /-- A collection: a construction and the items added to it. -/
  | listInit (type : DataType) (args : List Expr) (names : List String) (items : List ElementInit)
  | lambda (params : List Parameter) (body : Expr)
  | invocation (target : Expr) (args : List Expr) (type : DataType)
  /-- A construction and the members set on it. -/
  | recordInit (type : DataType) (args : List Expr) (names : List String) (bindings : List Binding)
  | isNull (operand : Expr)
  /-- A stage used as a relation. -/
  | subquery (stage : Stage) (type : DataType)
  /-- A stage used as a single value. -/
  | scalar (stage : Stage) (type : DataType)
  | select (stage : Stage)
  /-- A column of the relation an expression is read over. -/
  | column (name : String) (scope : Scope) (type : DataType)

/-- An item added to a collection by a method. -/
structure ElementInit where
  method : String
  args : List Expr

/-- How a member of a record is set. -/
inductive Binding where
  | assign (name : String) (expr : Expr)
  | nested (name : String) (bindings : List Binding)
  | list (name : String) (items : List ElementInit)

/-- One stage of a script: the clauses run in the order of the fields.

A stage that is not projected passes its input rows through, and `columns` holds the input fields referred to
so far. A projected stage outputs exactly `columns`. -/
structure Stage where
  source : Source
  filter : Option Expr
  columns : List Column
  projected : Bool
  grouping : Option Grouping
  orderBy : List Ordering
  limit : Option UInt64
  /-- Type of one output row. -/
  element : DataType
  projector : Projector

/-- Where a stage reads its rows. -/
inductive Source where
  | base (name : String)
  | stage (inner : Stage)

/-- A named output column. -/
structure Column where
  name : String
  expr : Expr

inductive Grouping where
  /-- All rows in one group. -/
  | all
  | keys (keys : List Expr)

structure Ordering where
  expr : Expr
  direction : Direction

end

instance : Inhabited Expr := ⟨.constant .null .unknown⟩

namespace Expr

def kind : Expr → Kind
  | .constant .. => .constant
  | .parameter .. => .parameter
  | .member .. => .member
  | .unary .. => .unary
  | .binary .. => .binary
  | .conditional .. => .conditional
  | .call .. => .call
  | .construct .. => .construct
  | .arrayInit .. => .arrayInit
  | .listInit .. => .listInit
  | .lambda .. => .lambda
  | .invocation .. => .invocation
  | .recordInit .. => .recordInit
  | .isNull .. => .isNull
  | .subquery .. => .subquery
  | .scalar .. => .scalar
  | .select .. => .select
  | .column .. => .column

/-- The type of an expression's value; a lambda has the type of its body. -/
def type : Expr → DataType
  | .constant _ t => t
  | .parameter _ t => t
  | .member _ _ t => t
  | .unary _ _ t => t
  | .binary _ _ _ t => t
  | .conditional _ _ _ t => t
  | .call _ _ _ t => t
  | .construct t _ _ => t
  | .arrayInit t _ => .array t
  | .listInit t _ _ _ => t
  | .lambda _ body => body.type
  | .invocation _ _ t => t
  | .recordInit t _ _ _ => t
  | .isNull _ => .bool
  | .subquery _ t => t
  | .scalar _ t => t
  | .select s => .query s.element
  | .column _ _ t => t

end Expr

def Binding.name : Binding → String
  | .assign name _ => name
  | .nested name _ => name
  | .list name _ => name

namespace Column

/-- The first column of a name. -/
def find? (columns : List Column) (name : String) : Option Column :=
  columns.find? fun c => c.name == name

/-- The names of columns, in order. -/
def names (columns : List Column) : List String := columns.map Column.name

end Column

namespace Stage

/-- A stage that passes the rows of a named source through. -/
def base (name : String) (element : DataType) : Stage where
  source := .base name
  filter := none
  columns := []
  projected := false
  grouping := none
  orderBy := []
  limit := none
  element := element
  projector := .ofElement element

/-- A stage that passes the rows of another stage through. -/
def after (inner : Stage) : Stage where
  source := .stage inner
  filter := none
  columns := []
  projected := false
  grouping := none
  orderBy := []
  limit := none
  element := inner.element
  projector := inner.projector

def column? (s : Stage) (name : String) : Option Column := Column.find? s.columns name

def inner? (s : Stage) : Option Stage :=
  match s.source with
  | .base _ => none
  | .stage inner => some inner

/-- How many fields an output row has, as far as the columns or the row type tell. -/
def width (s : Stage) : Nat :=
  if s.projected then s.columns.length
  else
    match s.element with
    | .record _ fields => fields.length
    | .grouping _ _ => 2
    | _ => 1

/-- The name by which the only field of a scalar is read. -/
def scalarColumn (s : Stage) : String :=
  match s.columns with
  | [] => "value"
  | c :: _ => c.name

end Stage

mutual

/-- How many stages a script runs one after another. -/
def Stage.count : Stage → Nat
  | ⟨source, _, _, _, _, _, _, _, _⟩ => source.count + 1

def Source.count : Source → Nat
  | .base _ => 0
  | .stage inner => inner.count

end

/-! ### Sameness

Two trees are the same when they agree in every part, with numbers compared as numbers. -/

mutual

def Expr.same : Expr → Expr → Bool
  | .constant v t, .constant v' t' => v.same v' && t == t'
  | .parameter n t, .parameter n' t' => n == n' && t == t'
  | .member o n t, .member o' n' t' => Expr.sameOption o o' && n == n' && t == t'
  | .unary op x t, .unary op' x' t' => op == op' && x.same x' && t == t'
  | .binary op l r t, .binary op' l' r' t' => op == op' && l.same l' && r.same r' && t == t'
  | .conditional c x y t, .conditional c' x' y' t' => c.same c' && x.same x' && y.same y' && t == t'
  | .call o m as t, .call o' m' as' t' => Expr.sameOption o o' && m == m' && Expr.sameList as as' && t == t'
  | .construct t as ns, .construct t' as' ns' => t == t' && Expr.sameList as as' && ns == ns'
  | .arrayInit t xs, .arrayInit t' xs' => t == t' && Expr.sameList xs xs'
  | .listInit t as ns is, .listInit t' as' ns' is' =>
    t == t' && Expr.sameList as as' && ns == ns' && Expr.sameItems is is'
  | .lambda ps b, .lambda ps' b' => ps == ps' && b.same b'
  | .invocation f as t, .invocation f' as' t' => f.same f' && Expr.sameList as as' && t == t'
  | .recordInit t as ns bs, .recordInit t' as' ns' bs' =>
    t == t' && Expr.sameList as as' && ns == ns' && Expr.sameBindings bs bs'
  | .isNull x, .isNull x' => x.same x'
  | .subquery s t, .subquery s' t' => s.same s' && t == t'
  | .scalar s t, .scalar s' t' => s.same s' && t == t'
  | .select s, .select s' => s.same s'
  | .column n sc t, .column n' sc' t' => n == n' && sc == sc' && t == t'
  | _, _ => false

def Expr.sameOption : Option Expr → Option Expr → Bool
  | none, none => true
  | some x, some x' => x.same x'
  | _, _ => false

def Expr.sameList : List Expr → List Expr → Bool
  | [], [] => true
  | x :: xs, x' :: xs' => x.same x' && Expr.sameList xs xs'
  | _, _ => false

def Expr.sameItems : List ElementInit → List ElementInit → Bool
  | [], [] => true
  | ⟨m, as⟩ :: is, ⟨m', as'⟩ :: is' => m == m' && Expr.sameList as as' && Expr.sameItems is is'
  | _, _ => false

def Binding.same : Binding → Binding → Bool
  | .assign n x, .assign n' x' => n == n' && x.same x'
  | .nested n bs, .nested n' bs' => n == n' && Expr.sameBindings bs bs'
  | .list n is, .list n' is' => n == n' && Expr.sameItems is is'
  | _, _ => false

def Expr.sameBindings : List Binding → List Binding → Bool
  | [], [] => true
  | b :: bs, b' :: bs' => b.same b' && Expr.sameBindings bs bs'
  | _, _ => false

def Stage.same : Stage → Stage → Bool
  | ⟨so, f, cs, p, g, os, l, e, pr⟩, ⟨so', f', cs', p', g', os', l', e', pr'⟩ =>
    so.same so' && Expr.sameOption f f' && Expr.sameColumns cs cs' && p == p' && Expr.sameGrouping g g' &&
      Expr.sameOrderings os os' && l == l' && e == e' && pr == pr'

def Source.same : Source → Source → Bool
  | .base n, .base n' => n == n'
  | .stage s, .stage s' => s.same s'
  | _, _ => false

def Expr.sameColumns : List Column → List Column → Bool
  | [], [] => true
  | ⟨n, x⟩ :: cs, ⟨n', x'⟩ :: cs' => n == n' && x.same x' && Expr.sameColumns cs cs'
  | _, _ => false

def Expr.sameGrouping : Option Grouping → Option Grouping → Bool
  | none, none => true
  | some .all, some .all => true
  | some (.keys ks), some (.keys ks') => Expr.sameList ks ks'
  | _, _ => false

def Expr.sameOrderings : List Ordering → List Ordering → Bool
  | [], [] => true
  | ⟨x, d⟩ :: os, ⟨x', d'⟩ :: os' => x.same x' && d == d' && Expr.sameOrderings os os'
  | _, _ => false

end

end PigChain
