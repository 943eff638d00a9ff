import PigChain.Trace
import PigChain.Pass.Parameters
import PigChain.Pass.Columns
import PigChain.Pass.Literals

/-!
# Binding a row

The body of a lambda is bound against the rows that a stage outputs: references to the row become columns,
aggregates over a grouped row become functions of its bag, and a chain inside the body becomes a subquery.
Fields of a stage that is not projected are noted the first time they are referred to.
-/

namespace PigChain

/-- A computation of the binder. -/
abbrev BindM := Traced Error

namespace Stage

/-- A projected stage whose rows are single bare values. -/
def isValue (s : Stage) : Bool :=
  s.projected && s.grouping.isNone && s.columns.length == 1 && s.element.fields?.isNone

/-- A stage that passes bare primitive values through. -/
def isPrimitive (s : Stage) : Bool := !s.projected && s.grouping.isNone && s.element.isPrimitive

/-- A stage whose fields are those of the rows it reads: neither columns nor groups. -/
def passesRows (s : Stage) : Bool := !s.projected && !s.element.isGrouping

end Stage

/-- The reference to the only field of a relation of primitive values. -/
def positional : String := "$0"

/-- The aggregate combinators and the functions that compute them. -/
def aggregates : List (String × String) :=
  [("Count", "COUNT"), ("Sum", "SUM"), ("Average", "AVG"), ("Min", "MIN"), ("Max", "MAX")]

def aggregateFunction? (method : String) : Option String := aggregates.lookup method

/-- The type of an aggregate's value: counts and averages have their own, the others the declared one or that
of the column. -/
def aggregateType (method : String) (declared column : DataType) : DataType :=
  if method = "Count" then .int64
  else if method = "Average" then .float64
  else if declared = .unknown then column
  else declared

/-- The parameter and the body of a lambda with one parameter. -/
def lambdaParts : Expr → Except Error (Parameter × Expr)
  | .lambda [p] body => .ok (p, body)
  | .lambda ps _ => .error (.argument (.parameterCount ps.length))
  | e => .error (.argument (.notLambda e.kind))

/-- Binding a row: the fields noted so far are the state. -/
abbrev RowM := StateT (List Column) BindM

def Expr.isParameter (name : String) : Expr → Bool
  | .parameter n _ => n == name
  | _ => false

/-- Whether the object of a member or call is the row. -/
def isRow (row : String) : Option Expr → Bool
  | some x => x.isParameter row
  | none => false

/-- A field of the row as a column of the stage's output. A field of a row that passes through must be a field
of the row type, of a type that goes with the reference. -/
def fieldColumn (s : Stage) (name : String) (declared : DataType) : Except Error Expr :=
  match s.element with
  | .grouping key _ =>
    if name = "Key" then .ok (.field "group" key) else .error (.argument (.unknownGroupMember name))
  | element =>
    if s.projected then
      match s.column? name with
      | some c => .ok (.field name c.expr.type)
      | none => .error (.argument (.unknownColumn name))
    else
      match element with
      | .record record fields =>
        match Field.find? fields name with
        | some f =>
          if f.type.accepts declared then .ok (.field name f.type) else .error (.mismatch name f.type declared)
        | none => .error (.argument (.unknownField name record))
      | _ => .ok (.field name declared)

/-- Notes a field of a row that passes through; one that was noted before must have the same type. -/
def noteField (s : Stage) (name : String) (type : DataType) : RowM Unit := do
  let noted ← get
  match s.column? name <|> Column.find? noted name with
  | some c => unless c.expr.type = type do throw (.mismatch name c.expr.type type)
  | none => set (noted ++ [⟨name, .field name type⟩])

/-- A field of the row, noted if the rows pass through. -/
def resolveField (s : Stage) (name : String) (declared : DataType) : RowM Expr := do
  let e ← (Traced.silent (fieldColumn s name declared) : BindM Expr)
  if s.passesRows then noteField s name e.type
  pure e

/-- The row itself as a value: the only column of a value stage, or the only field of a primitive row. -/
def rowColumn (s : Stage) : Except Error Expr :=
  if s.isValue then
    match s.columns with
    | c :: _ => .ok (.field c.name c.expr.type)
    | [] => .error .noColumn
  else if s.isPrimitive then .ok (.field positional s.element)
  else .error (.argument (.rowAsValue s.element))

/-- The column of the bag that an aggregate's selector reads, which must be a plain field of the rows. -/
def selectedBagField (element : DataType) (selector : Expr) : Except Error Expr := do
  let (p, body) ← lambdaParts selector
  match body with
  | .member (some owner) name _ =>
    if owner.isParameter p.name then
      match (element.fields?.bind fun fields => Field.find? fields name) with
      | some f => .ok (.bagField name f.type)
      | none => .error (.argument (.unknownColumn name))
    else .error (.unsupported .computedAggregate)
  | _ => .error (.unsupported .computedAggregate)

/-- An aggregate over the rows of a group. -/
def groupAggregate (s : Stage) (method : String) (args : List Expr) (declared : DataType) : Except Error Expr :=
  match aggregateFunction? method, s.element with
  | none, _ => .error (.unsupported (.method method))
  | some function, .grouping _ element => do
    let bag ← match args with
      | selector :: _ => selectedBagField element selector
      | [] =>
        if method = "Count" then .ok (.bagField "" .unknown) else .error (.argument (.missingSelector method))
    .ok (.function function [bag] (aggregateType method declared bag.type))
  | some _, _ => .error (.unsupported (.method method))

/-- A chain inside a body: a subquery if it yields a relation, else a single value. -/
def nestedChain (nested : Expr → BindM Stage) (chain : Expr) (type : DataType) : BindM Expr := do
  let s ← nested chain
  if type.isQuery then pure (.subquery s type) else .silent (Expr.scalarOf s type)

/-- A member of a record column is the column of the dotted name. -/
def recordField? : Expr → Option Expr
  | .member (some (.column owner .row (.record _ fields))) name type =>
    some (.field (owner ++ "." ++ name) (((Field.find? fields name).map Field.type).getD type))
  | _ => none

/-- Whether a call extends a chain: it has no object, and its first argument is a relation. -/
def extendsChain (object : Option Expr) (args : List Expr) : Bool :=
  match object, args with
  | none, a :: _ => a.type.isQuery
  | _, _ => false

/-- Binds references to the row `row` of a stage; `nested` binds the chains inside the body. -/
def rowBinder (nested : Expr → BindM Stage) (s : Stage) (row : String) : Editor RowM where
  expr e walk :=
    match e with
    | .parameter name _ => if name = row then some <$> (rowColumn s |> Traced.silent |> liftM) else pure none
    | .member object name type =>
      if isRow row object then some <$> resolveField s name type
      else do
        let e' ← walk
        pure (recordField? (e'.getD e) <|> e')
    | .call object method args type =>
      if isRow row object then some <$> (groupAggregate s method args type |> Traced.silent |> liftM)
      else if extendsChain object args then some <$> (nestedChain nested e type |> liftM)
      else walk
    | _ => walk

/-- A bound body with the fields it referred to for the first time. -/
structure BoundBody where
  expr : Expr
  noted : List Column

/-- Binds the body of a lambda: invocations are inlined, then the row is bound, then comparisons with null are
made null tests and literals are checked. -/
def bindBody (nested : Expr → BindM Stage) (s : Stage) (row : String) (body : Expr) : BindM BoundBody := do
  let body ← .silent body.inlined
  let (expr, noted) ← ((rowBinder nested s row).run body).run []
  let expr ← .silent (nullComparisons.run expr)
  let expr ← .silent (literalTypes.run expr)
  pure ⟨expr, noted⟩

end PigChain
