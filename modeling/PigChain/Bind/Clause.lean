import PigChain.Bind.Row

/-!
# Clauses of a stage

Each combinator of a chain adds a clause to the current stage or starts a new stage over it. The clauses of a
stage run in a fixed order: filter, columns, grouping, ordering, limit. A clause is merged only if running it
at its place in that order gives the rows it would give at the end; otherwise the stage is wrapped.
-/

namespace PigChain

/-- What the binder notes of its decisions. -/
def noteBinding (message : String) (fields : List (String × EventValue) := []) : BindM Unit :=
  .note ⟨.trace, "oinq_pig::binder", message, fields⟩

namespace Stage

/-- A new stage over a stage. If the inner rows are projected and not grouped, every column is declared again,
so that the new stage has a projection of its own. -/
def wrapped (inner : Stage) : Stage :=
  if inner.projected && inner.grouping.isNone then
    { Stage.after inner with
      projected := true
      columns := inner.columns.map fun c => ⟨c.name, .field c.name c.expr.type⟩ }
  else .after inner

/-- The stage itself, or a new stage over it if it is closed to the clause that is to be added. -/
def wrappedIf (s : Stage) (closed : Bool) (reason : String) : BindM Stage :=
  if closed then do
    noteBinding reason
    pure s.wrapped
  else pure s

/-- Columns for fields referred to for the first time. -/
def noteColumns (s : Stage) : List Column → Stage
  | [] => s
  | c :: cs =>
    if (s.column? c.name).isNone then ({ s with columns := s.columns ++ [c] } : Stage).noteColumns cs
    else s.noteColumns cs

/-- A predicate beside those already there. -/
def addFilter (s : Stage) (predicate : Expr) : Stage :=
  { s with filter := some (match s.filter with
      | some existing => .combine .and existing predicate
      | none => predicate) }

/-- At most `count` rows. -/
def take (s : Stage) (count : UInt64) : Stage :=
  { s with limit := some (match s.limit with
      | some current => min current count
      | none => count) }

/-- Whether every ordering key is still output, unchanged, by columns over the input of the stage. -/
def orderingSurvives (s : Stage) (columns : List Column) : Bool :=
  s.orderBy.all fun o =>
    match o.expr with
    | .column name _ _ =>
      match (if s.projected then (s.column? name).map Column.expr else some o.expr) with
      | some definition => columns.any fun c => c.name == name && c.expr.same definition
      | none => false
    | _ => false

end Stage

def Expr.isRowColumn : Expr → Bool
  | .column _ .row _ => true
  | _ => false

/-! ### Filter -/

/-- Whether a column is a plain field of the input. -/
def Stage.isPlain (s : Stage) (name : String) : Bool :=
  match s.column? name with
  | some c => c.expr.isRowColumn
  | none => false

/-- Adds a bound predicate. The filter runs before the columns, so a projected stage takes it only if every
column it reads is a plain field of the input. -/
def Stage.mergeFilter (s : Stage) (bound : BoundBody) : BindM Stage :=
  if !s.projected then do
    noteBinding "filter merges into pass-through stage"
    pure ((s.noteColumns bound.noted).addFilter bound.expr)
  else if bound.expr.rowColumns.all s.isPlain then do
    noteBinding "filter merges through projection"
    let composed ← .silent (bound.expr.composed s.columns)
    pure (s.addFilter composed)
  else do
    noteBinding "filter on derived columns wraps"
      [("columns", .shown (Text.describeAll bound.expr.rowColumns))]
    pure { s.wrapped with filter := some bound.expr }

/-- Keeps the rows on which a predicate holds. -/
def bindFilter (nested : Expr → BindM Stage) (s : Stage) (predicate : Expr) : BindM Stage := do
  let s ← s.wrappedIf (s.limit.isSome || s.grouping.isSome) "filter wraps a limited or grouped stage"
  let (p, body) ← .silent (lambdaParts predicate)
  let bound ← bindBody nested s p.name body
  s.mergeFilter bound

/-! ### Projection -/

/-- The part of a dotted name after the last dot. -/
def lastPart (name : String) : String :=
  String.ofList ((name.toList.reverse.takeWhile (· != '.')).reverse)

/-- Named expressions of a record body, `none` for any other body. -/
def namedParts? : Expr → Except Error (Option (List (String × Expr)))
  | .recordInit _ _ _ bindings => some <$> bindings.mapM fun
    | .assign name x => .ok (name, x)
    | b => .error (.unsupported (.nestedBinding b.name))
  | .construct type args names =>
    let names := if names.isEmpty then ((type.fields?.getD []).map Field.name) else names
    if names.length ≠ args.length then .error (.argument (.memberNames args.length names.length))
    else .ok (some (names.zip args))
  | _ => .ok none

/-- Binds named expressions one after another; a name may be used once. -/
def bindColumns (nested : Expr → BindM Stage) (s : Stage) (row : String) :
    List (String × Expr) → List Column → BindM (List Column)
  | [], done => pure done
  | (name, x) :: rest, done => do
    if done.any fun c => c.name == name then throw (.argument (.duplicateAlias name))
    let bound ← bindBody nested s row x
    bindColumns nested s row rest (done ++ [⟨name, bound.expr⟩])

/-- Binds a projection body into named columns. A body that is not a record is one column, named after the
field it reads, or `value`. -/
def bindProjection (nested : Expr → BindM Stage) (s : Stage) (row : String) (body : Expr) :
    BindM (List Column) := do
  match ← .silent (namedParts? body) with
  | some parts => bindColumns nested s row parts []
  | none =>
    let bound ← bindBody nested s row body
    let name := match bound.expr with
      | .column name .row _ => lastPart name
      | _ => "value"
    pure [⟨name, bound.expr⟩]

/-- The output columns of a record type: each has the declared type of its field if the record has one. -/
def recordOutput (fields : List Field) : List Column → Except Error (List OutputColumn)
  | [] => .ok []
  | c :: cs => do
    let type ← match Field.find? fields c.name with
      | some f => if f.type.accepts c.expr.type then .ok f.type else .error (.mismatch c.name f.type c.expr.type)
      | none => .ok c.expr.type
    let rest ← recordOutput fields cs
    .ok (⟨c.name, type⟩ :: rest)

/-- Row type and projector of a projection with a declared row type. -/
def projectionShape (columns : List Column) (declared : DataType) : Except Error (DataType × Projector) :=
  match declared, columns with
  | .record name fields, columns => do
    let output ← recordOutput fields columns
    .ok (.record name fields, .record output)
  | declared, [c] =>
    let found := c.expr.type
    if declared = .unknown then .ok (found, .value c.name found)
    else if declared.accepts found then .ok (declared, .value c.name declared)
    else .error (.mismatch c.name declared found)
  | _, columns =>
    .ok (.record "Projection" (columns.map fun c => ⟨c.name, c.expr.type, false⟩),
      .record (columns.map fun c => ⟨c.name, c.expr.type⟩))

/-- Columns over the input of a projected stage. -/
def composeColumns (inner : List Column) : List Column → Except Error (List Column)
  | [] => .ok []
  | c :: cs => do
    let x ← c.expr.composed inner
    let rest ← composeColumns inner cs
    .ok (⟨c.name, x⟩ :: rest)

/-- Columns of the output as columns over the input. -/
def Stage.inputColumns (s : Stage) (columns : List Column) : Except Error (List Column) :=
  if s.projected then composeColumns s.columns columns else .ok columns

/-- Gives a stage its output columns. Ordering and limit run after the columns, so the columns go into the
stage, as columns over its input, only if every ordering key survives them. -/
def Stage.mergeColumns (s : Stage) (columns composed : List Column) : BindM Stage :=
  if s.orderingSurvives composed then do
    noteBinding "projection merges into stage"
    pure { s with columns := composed }
  else do
    noteBinding "projection drops an ordering key, wrapping"
    pure { s.wrapped with columns := columns }

/-- Maps every row through a selector. The row itself as the selector changes nothing, unless the rows are
bare values. -/
def bindSelect (nested : Expr → BindM Stage) (s : Stage) (selector : Expr) (declared : DataType) :
    BindM Stage := do
  let (p, body) ← .silent (lambdaParts selector)
  if body.isParameter p.name && !s.isValue then return s
  let s ← s.wrappedIf s.grouping.isSome "projection wraps grouped stage"
  let columns ← bindProjection nested s p.name body
  let (element, projector) ← .silent (projectionShape columns declared)
  let composed ← .silent (s.inputColumns columns)
  let s ← s.mergeColumns columns composed
  pure { s with projected := true, element := element, projector := projector }

/-! ### Ordering and grouping -/

/-- Orders the rows by a field, first or after the keys already there. A limit is taken before the new order,
so a limited stage is wrapped and the keys already there are kept. -/
def bindOrder (nested : Expr → BindM Stage) (s : Stage) (key : Expr) (direction : Direction) (after : Bool) :
    BindM Stage := do
  if after && s.orderBy.isEmpty then throw (.argument .unorderedThenBy)
  let kept := if after then s.orderBy else []
  let s ← s.wrappedIf s.limit.isSome "ordering wraps a limited stage"
  let (p, body) ← .silent (lambdaParts key)
  let bound ← bindBody nested s p.name body
  unless bound.expr.isRowColumn do throw (.unsupported .computedOrder)
  let s := if s.projected then s else s.noteColumns bound.noted
  pure { s with orderBy := kept ++ [⟨bound.expr, direction⟩] }

/-- The type of a group's key: the declared one, that of the only key, or a record of the keys. -/
def keyType (declared : DataType) (keys : List Column) : DataType :=
  if declared ≠ .unknown then declared
  else
    match keys with
    | [k] => k.expr.type
    | keys => .record "Key" (keys.map fun k => ⟨k.name, k.expr.type, false⟩)

/-- Whether a stage must be wrapped before it is grouped. -/
def Stage.closedToGrouping (s : Stage) : Bool :=
  s.grouping.isSome || s.limit.isSome || !s.orderBy.isEmpty

/-- Groups the rows by the columns of a selector. -/
def bindGroup (nested : Expr → BindM Stage) (s : Stage) (selector : Expr) (declared : DataType) :
    BindM Stage := do
  let s ← s.wrappedIf s.closedToGrouping "grouping wraps stage"
  let (p, body) ← .silent (lambdaParts selector)
  let keys ← bindProjection nested s p.name body
  let element := DataType.grouping (keyType declared keys) s.element
  pure { s with
    grouping := some (.keys (keys.map Column.expr))
    projector := .ofElement element
    element := element }

/-! ### Aggregates -/

/-- The only column that an aggregate can read of a stage. -/
def aggregatedField (s : Stage) (method : String) : Except Error Expr :=
  if s.projected && s.grouping.isNone then
    match s.columns with
    | [c] => .ok (.bagField c.name c.expr.type)
    | columns => .error (.argument (.columnCount method columns.length))
  else if s.isPrimitive then .ok (.bagField positional s.element)
  else .error (.argument (.rowSelector method s.element))

/-- The stage to aggregate over and the column of its bag: a count filters first, the others project the
selected column. -/
def aggregateInput (nested : Expr → BindM Stage) (s : Stage) (method : String) (selector : Option Expr) :
    BindM (Stage × Expr) := do
  if method = "Count" then
    match selector with
    | some predicate => return (← bindFilter nested s predicate, .bagField "" .unknown)
    | none => return (s, .bagField "" .unknown)
  else
    let s ← match selector with
      | some selector => bindSelect nested s selector .unknown
      | none => pure s
    return (s, ← .silent (aggregatedField s method))

/-- One row with an aggregate over all rows of a stage. -/
def bindAggregate (nested : Expr → BindM Stage) (s : Stage) (method function : String)
    (selector : Option Expr) (declared : DataType) : BindM Stage := do
  let (s, bag) ← aggregateInput nested s method selector
  let result := aggregateType method declared bag.type
  let s ← s.wrappedIf s.closedToGrouping "aggregate wraps stage"
  let grouped : Stage := { s with grouping := some .all }
  pure { grouped.wrapped with
    projected := true
    columns := [⟨"value", .function function [bag] result⟩]
    projector := .value "value" result
    element := result }

end PigChain
