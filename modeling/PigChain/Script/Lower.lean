import PigChain.Expr.Basic
import PigChain.Script.Basic

/-!
# From stages to scripts

Every clause of a stage becomes one statement, in the order in which the clauses run. The stage it reads from
and the scalar subqueries in its expressions come first, so a statement only refers to relations before it.
-/

namespace PigChain

/-- A computation that adds statements to a script. -/
abbrev Lower := StateT (List Statement) (Except Error)

/-- A relation of a script. -/
structure Relation where
  number : Nat
  /-- The relation whose rows are the bag of every row, if the rows are groups. -/
  bag : Option Nat

/-- Adds a statement and answers the number of the relation it defines. -/
def Lower.emit (s : Statement) : Lower Nat :=
  fun statements => .ok (statements.length, statements ++ [s])

/-- A constant, unless it names a source. -/
def Value.term : Value → Except Error Term
  | .null => .ok .null
  | .bool b => .ok (.bool b)
  | .int n => .ok (.int n.toInt)
  | .float x => .ok (.float x)
  | .string s => .ok (.text s)
  | .dateTime d => .ok (.date d)
  | .source _ => .error (.unsupportedNode .constant)

/-- A column of the row, or of the bag that the row holds. -/
def columnTerm (bag : Option Nat) (name : String) : Scope → Except Error Term
  | .row => .ok (.field name)
  | .group =>
    match bag with
    | some relation => .ok (.bag relation name)
    | none => .error (.argument (.bagOutsideGroup name))

/-- A call: a function of a bag if there is no object, else a method of a text. -/
def callTerm (method : String) : Option Term → List Term → Except Error Term
  | none, [x] =>
    match Builtin.aggregate? method with
    | some f => .ok (.call1 f x)
    | none => .error (.unsupported (.method method))
  | some object, [] =>
    match Builtin.ofMethod? method with
    | some f => .ok (.call1 f object)
    | none => .error (.unsupported (.method method))
  | some object, [x] =>
    match method with
    | "StartsWith" => .ok (.call2 .startsWith object x)
    | "EndsWith" => .ok (.call2 .endsWith object x)
    | "Contains" => .ok (.contains object x)
    | _ => .error (.unsupported (.method method))
  | _, _ => .error (.unsupported (.method method))

/-- A binary operation; `+` of texts is a function. -/
def binaryTerm (op : BinaryOp) (type : DataType) (x y : Term) : Term :=
  if op = .add && type = .string then .call2 .concat x y
  else
    match op.operator? with
    | some o => .operation o x y
    | none => .orElse x y

/-- The negation of a term; a null test is negated in place. -/
def Term.negation : Term → Term
  | .isNull x => .isNotNull x
  | x => .not x

/-- The name under which a column is generated: none if it is the input field of that name. -/
def Column.alias? (name : String) : Expr → Option String
  | .column n .row _ => if n = name then none else some name
  | _ => some name

mutual

/-- The term for an expression over rows that hold a bag or not. -/
def Expr.lower (bag : Option Nat) : Expr → Lower Term
  | .constant v _ => liftM v.term
  | .column name scope _ => liftM (columnTerm bag name scope)
  | .unary .not x _ => do return (← x.lower bag).negation
  | .unary .negate x _ => do return .negate (← x.lower bag)
  | .unary .convert x t => do
    match t.cast? with
    | some c => return .cast c (← x.lower bag)
    | none => throw (.unsupported (.conversion t))
  | .binary op x y t => do return binaryTerm op t (← x.lower bag) (← y.lower bag)
  | .conditional c x y _ => do return .choose (← c.lower bag) (← x.lower bag) (← y.lower bag)
  | .isNull x => do return .isNull (← x.lower bag)
  | .call object method args _ => do
    let args ← Expr.lowerList bag args
    match object with
    | none => liftM (callTerm method none args)
    | some x => do liftM (callTerm method (some (← x.lower bag)) args)
  | .scalar s _ => do return .single (← s.lower).number s.scalarColumn
  | e => throw (.unsupportedNode e.kind)

def Expr.lowerList (bag : Option Nat) : List Expr → Lower (List Term)
  | [] => pure []
  | x :: xs => do return (← x.lower bag) :: (← Expr.lowerList bag xs)

def Column.lowerList (bag : Option Nat) : List Column → Lower (List Item)
  | [] => pure []
  | ⟨name, x⟩ :: cs => do return ⟨← x.lower bag, Column.alias? name x⟩ :: (← Column.lowerList bag cs)

def Ordering.lowerList (bag : Option Nat) : List Ordering → Lower (List (Term × Direction))
  | [] => pure []
  | ⟨x, d⟩ :: os => do return (← x.lower bag, d) :: (← Ordering.lowerList bag os)

/-- Adds the statements of a stage and answers the relation they leave. -/
def Stage.lower : Stage → Lower Relation
  | ⟨source, filter, columns, projected, grouping, orderBy, limit, _, _⟩ => do
    let r ← source.lower
    let r ← Stage.lowerFilter r filter
    let r ← if projected then do
        let items ← Column.lowerList r.bag columns
        pure ⟨← .emit (.generate r.number items), none⟩
      else pure r
    let r ← Stage.lowerGrouping r grouping
    let keys ← Ordering.lowerList r.bag orderBy
    let r ← if keys.isEmpty then pure r else do pure { r with number := ← .emit (.order r.number keys) }
    match limit with
    | none => pure r
    | some count => do pure { r with number := ← .emit (.limit r.number count) }

def Source.lower : Source → Lower Relation
  | .base name => do pure ⟨← .emit (.load name), none⟩
  | .stage inner => inner.lower

def Stage.lowerFilter (r : Relation) : Option Expr → Lower Relation
  | none => pure r
  | some x => do
    let predicate ← x.lower r.bag
    pure { r with number := ← .emit (.filter r.number predicate) }

def Stage.lowerGrouping (r : Relation) : Option Grouping → Lower Relation
  | none => pure r
  | some .all => do pure ⟨← .emit (.groupAll r.number), some r.number⟩
  | some (.keys keys) => do
    let keys ← Expr.lowerList r.bag keys
    pure ⟨← .emit (.groupBy r.number keys), some r.number⟩

end

/-- The script of a stage. -/
def Stage.script (s : Stage) : Except Error Script :=
  match s.lower.run [] with
  | .ok (r, statements) => .ok ⟨statements, r.number⟩
  | .error e => .error e

end PigChain
