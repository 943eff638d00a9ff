import PigChain.Expr.ToJson
import PigChain.Json.Parse

/-!
# Reading trees from JSON

The reader takes what `toJson` writes and some more. A structure may be a list of its fields in order; a name
without parts may be an object whose only key is the name and whose value is null; keys that are not known
are passed over, while a known key may occur only once. Inside a node the reader is lenient: a kind may be
given by its position in the list of kinds, and an empty object stands for null.

Every reader takes fuel, the nesting depth of the value it reads.
-/

namespace PigChain

namespace Json

/-- The fields of a structure by their names: from an object, each at most once, or from a list in order. -/
def fields? (names : List String) : Json → Option (List (Option Json))
  | .object given =>
    if names.all fun name => (given.filter fun (k, _) => k == name).length ≤ 1
    then some (names.map fun name => field? name given)
    else none
  | .array items => if items.length = names.length then some (items.map some) else none
  | _ => none

/-- A name with or without content: a string, or an object with one key. -/
def variant? : Json → Option (String × Option Json)
  | .string name => some (name, none)
  | .object [(name, content)] => some (name, some content)
  | _ => none

/-- Whether the content of a variant is that of a name without parts. -/
def isUnit (lenient : Bool) : Option Json → Bool
  | none => true
  | some .null => true
  | some (.object []) => lenient
  | _ => false

/-- A name out of a list of names without parts. -/
def name? (lenient : Bool) (j : Json) : Option String := do
  let (name, content) ← variant? j
  if isUnit lenient content then some name else none

/-- The tag of a tagged object and what is left, or the first item of a list and the others. -/
def untag? (key : String) : Json → Option (Json × Json)
  | .object given =>
    match given.filter fun (k, _) => k == key with
    | [(_, tag)] => some (tag, .object (given.filter fun (k, _) => k != key))
    | _ => none
  | .array (tag :: rest) => some (tag, .array rest)
  | _ => none

/-- The name a tag gives, among the names it may have. -/
def tagName? (lenient : Bool) (names : List String) : Json → Option String
  | .string name => some name
  | .int n => if lenient ∧ 0 ≤ n then names[n.toNat]? else none
  | _ => none

def list? (read : Json → Option α) : Json → Option (List α)
  | .array items => items.mapM read
  | _ => none

/-- A value that may be missing or null. -/
def optional? (read : Json → Option α) : Option Json → Option (Option α)
  | none => some none
  | some .null => some none
  | some j => (read j).map some

def text? : Json → Option String
  | .string s => some s
  | _ => none

def bool? : Json → Option Bool
  | .bool b => some b
  | _ => none

def int64? : Json → Option Int64
  | .int n => if inInt64 n then some (Int64.ofInt n) else none
  | _ => none

def uint64? : Json → Option UInt64
  | .int n => if 0 ≤ n ∧ n < UInt64.size then some (UInt64.ofNat n.toNat) else none
  | _ => none

def double? : Json → Option Double
  | .int n => some (.ofInt n)
  | .float x => some x
  | _ => none

end Json

/-- Finds the tag of a name. -/
def ofName? (tags : List α) (name : α → String) (s : String) : Option α := tags.find? fun t => name t == s

/-- Reads one of a list of names without parts. -/
def nameOf? (lenient : Bool) (tags : List α) (name : α → String) (j : Json) : Option α :=
  (j.name? lenient).bind (ofName? tags name)

/-! ### Types, values and projectors -/

/-- Reads a field, its type read by `type`. -/
def Field.read (type : Json → Option DataType) (j : Json) : Option Field := do
  match ← j.fields? ["name", "data_type", "nullable"] with
  | [some name, some t, some nullable] => some ⟨← name.text?, ← type t, ← nullable.bool?⟩
  | _ => none

def DataType.read (lenient : Bool) : (fuel : Nat) → Json → Option DataType
  | 0, _ => none
  | fuel + 1, j => do
    let (name, content) ← j.variant?
    match name, content with
    | "Record", some c =>
      match ← c.fields? ["name", "fields"] with
      | [some name, some fields] =>
        some (.record (← name.text?) (← fields.list? (Field.read (DataType.read lenient fuel))))
      | _ => none
    | "Array", some c => (DataType.read lenient fuel c).map .array
    | "Query", some c => (DataType.read lenient fuel c).map .query
    | "Grouping", some c =>
      match ← c.fields? ["key", "element"] with
      | [some k, some t] => some (.grouping (← DataType.read lenient fuel k) (← DataType.read lenient fuel t))
      | _ => none
    | name, content =>
      if Json.isUnit lenient content then
        match name with
        | "Bool" => some .bool
        | "Int64" => some .int64
        | "Float64" => some .float64
        | "String" => some .string
        | "DateTime" => some .dateTime
        | "Unknown" => some .unknown
        | _ => none
      else none

/-- Reads a type; the fuel is the depth of the value. -/
def DataType.ofJson? (lenient : Bool) (j : Json) : Option DataType := DataType.read lenient (j.depth + 1) j

def Value.ofJson? (lenient : Bool) (j : Json) : Option Value := do
  let (name, content) ← j.variant?
  match name, content with
  | "Bool", some c => c.bool?.map .bool
  | "Int", some c => c.int64?.map .int
  | "Float", some c => c.double?.map .float
  | "String", some c => c.text?.map .string
  | "DateTime", some c => (c.text?.bind DateTime.ofText?).map .dateTime
  | "Source", some c => c.text?.map .source
  | "Null", content => if Json.isUnit lenient content then some .null else none
  | _, _ => none

def Parameter.ofJson? (lenient : Bool) (j : Json) : Option Parameter := do
  match ← j.fields? ["name", "data_type"] with
  | [some name, some t] => some ⟨← name.text?, ← DataType.ofJson? lenient t⟩
  | _ => none

def OutputColumn.ofJson? (lenient : Bool) (j : Json) : Option OutputColumn := do
  match ← j.fields? ["name", "data_type"] with
  | [some name, some t] => some ⟨← name.text?, ← DataType.ofJson? lenient t⟩
  | _ => none

def Projector.ofJson? (lenient : Bool) (j : Json) : Option Projector := do
  match ← j.fields? ["columns", "shape"] with
  | [some columns, some shape] =>
    some ⟨← columns.list? (OutputColumn.ofJson? lenient), ← nameOf? lenient Shape.all Shape.name shape⟩
  | _ => none

/-! ### Nodes -/

/-- The type, arguments and names of a construction; names may be missing. -/
def readConstruct (expr : Json → Option Expr) (j : Json) : Option (DataType × List Expr × List String) := do
  let parts ← match j with
    | .array [t, args] => some [some t, some args, none]
    | j => j.fields? ["data_type", "args", "members"]
  match parts with
  | [some t, some args, names] =>
    let names ← match names with
      | none => some []
      | some names => names.list? Json.text?
    some (← DataType.ofJson? true t, ← args.list? expr, names)
  | _ => none

def ElementInit.read (expr : Json → Option Expr) (j : Json) : Option ElementInit := do
  match ← j.fields? ["method", "args"] with
  | [some method, some args] => some ⟨← method.text?, ← args.list? expr⟩
  | _ => none

def Binding.kinds : List String := ["Assignment", "Member", "List"]

def Binding.read (expr : Json → Option Expr) : (fuel : Nat) → Json → Option Binding
  | 0, _ => none
  | fuel + 1, j => do
    let (tag, content) ← j.untag? "binding"
    match ← tag.tagName? true Binding.kinds with
    | "Assignment" =>
      match ← content.fields? ["member", "expr"] with
      | [some name, some x] => some (.assign (← name.text?) (← expr x))
      | _ => none
    | "Member" =>
      match ← content.fields? ["member", "bindings"] with
      | [some name, some bs] => some (.nested (← name.text?) (← bs.list? (Binding.read expr fuel)))
      | _ => none
    | "List" =>
      match ← content.fields? ["member", "initializers"] with
      | [some name, some is] => some (.list (← name.text?) (← is.list? (ElementInit.read expr)))
      | _ => none
    | _ => none

/-- Reads the parts of a node of a kind. -/
def Expr.readParts (expr : Json → Option Expr) (stage : Json → Option Stage) (kind : Kind) (j : Json) :
    Option Expr := do
  let type := DataType.ofJson? true
  match kind with
  | .constant =>
    match ← j.fields? ["value", "data_type"] with
    | [some v, some t] => some (.constant (← Value.ofJson? true v) (← type t))
    | _ => none
  | .parameter =>
    match ← j.fields? ["name", "data_type"] with
    | [some n, some t] => some (.parameter (← n.text?) (← type t))
    | _ => none
  | .member =>
    match ← j.fields? ["expr", "member", "data_type"] with
    | [o, some n, some t] => some (.member (← Json.optional? expr o) (← n.text?) (← type t))
    | _ => none
  | .unary =>
    match ← j.fields? ["op", "operand", "data_type"] with
    | [some op, some x, some t] =>
      some (.unary (← nameOf? true UnaryOp.all UnaryOp.name op) (← expr x) (← type t))
    | _ => none
  | .binary =>
    match ← j.fields? ["op", "left", "right", "data_type"] with
    | [some op, some l, some r, some t] =>
      some (.binary (← nameOf? true BinaryOp.all BinaryOp.name op) (← expr l) (← expr r) (← type t))
    | _ => none
  | .conditional =>
    match ← j.fields? ["test", "if_true", "if_false", "data_type"] with
    | [some c, some x, some y, some t] => some (.conditional (← expr c) (← expr x) (← expr y) (← type t))
    | _ => none
  | .call =>
    match ← j.fields? ["object", "method", "args", "data_type"] with
    | [o, some m, some as, some t] =>
      some (.call (← Json.optional? expr o) (← m.text?) (← as.list? expr) (← type t))
    | _ => none
  | .construct =>
    let (t, as, ns) ← readConstruct expr j
    some (.construct t as ns)
  | .arrayInit =>
    match ← j.fields? ["element_type", "elements"] with
    | [some t, some xs] => some (.arrayInit (← type t) (← xs.list? expr))
    | _ => none
  | .listInit =>
    match ← j.fields? ["construct", "initializers"] with
    | [some c, some is] =>
      let (t, as, ns) ← readConstruct expr c
      some (.listInit t as ns (← is.list? (ElementInit.read expr)))
    | _ => none
  | .lambda =>
    match ← j.fields? ["params", "body"] with
    | [some ps, some b] => some (.lambda (← ps.list? (Parameter.ofJson? true)) (← expr b))
    | _ => none
  | .invocation =>
    match ← j.fields? ["target", "args", "data_type"] with
    | [some f, some as, some t] => some (.invocation (← expr f) (← as.list? expr) (← type t))
    | _ => none
  | .recordInit =>
    match ← j.fields? ["construct", "bindings"] with
    | [some c, some bs] =>
      let (t, as, ns) ← readConstruct expr c
      some (.recordInit t as ns (← bs.list? fun b => Binding.read expr (b.depth + 1) b))
    | _ => none
  | .isNull =>
    match ← j.fields? ["expr"] with
    | [some x] => some (.isNull (← expr x))
    | _ => none
  | .subquery =>
    match ← j.fields? ["select", "data_type"] with
    | [some s, some t] => some (.subquery (← stage s) (← type t))
    | _ => none
  | .scalar =>
    match ← j.fields? ["select", "data_type"] with
    | [some s, some t] => some (.scalar (← stage s) (← type t))
    | _ => none
  | .select => (stage j).map .select
  | .column =>
    match ← j.fields? ["name", "scope", "data_type"] with
    | [some n, some sc, some t] =>
      some (.column (← n.text?) (← nameOf? true Scope.all Scope.name sc) (← type t))
    | _ => none

def Source.kinds : List String := ["Base", "Select"]

def Source.read (stage : Json → Option Stage) (lenient : Bool) (j : Json) : Option Source := do
  let (tag, content) ← j.untag? "type"
  match ← tag.tagName? lenient Source.kinds with
  | "Base" =>
    match ← content.fields? ["name"] with
    | [some n] => n.text?.map .base
    | _ => none
  | "Select" =>
    match ← content.fields? ["select"] with
    | [some s] => (stage s).map .stage
    | _ => none
  | _ => none

def Column.read (expr : Json → Option Expr) (j : Json) : Option Column := do
  match ← j.fields? ["name", "expr"] with
  | [some n, some x] => some ⟨← n.text?, ← expr x⟩
  | _ => none

def Grouping.read (expr : Json → Option Expr) (lenient : Bool) (j : Json) : Option Grouping := do
  let (name, content) ← j.variant?
  match name, content with
  | "Keys", some ks => (ks.list? expr).map .keys
  | "All", content => if Json.isUnit lenient content then some .all else none
  | _, _ => none

def Ordering.read (expr : Json → Option Expr) (lenient : Bool) (j : Json) : Option Ordering := do
  match ← j.fields? ["expr", "direction"] with
  | [some x, some d] => some ⟨← expr x, ← nameOf? lenient Direction.all Direction.name d⟩
  | _ => none

/-- Reads the fields of a stage. The parts of a nested stage are always read leniently. -/
def Stage.readParts (expr : Json → Option Expr) (nested : Json → Option Stage) (lenient : Bool) (j : Json) :
    Option Stage := do
  match ← j.fields? ["source", "filter", "columns", "projected", "grouping", "order_by", "limit", "element",
      "projector"] with
  | [some source, filter, some columns, some projected, grouping, some orderBy, limit, some element,
      some projector] =>
    some {
      source := ← Source.read nested lenient source
      filter := ← Json.optional? expr filter
      columns := ← columns.list? (Column.read expr)
      projected := ← projected.bool?
      grouping := ← Json.optional? (Grouping.read expr lenient) grouping
      orderBy := ← orderBy.list? (Ordering.read expr lenient)
      limit := ← Json.optional? Json.uint64? limit
      element := ← DataType.ofJson? lenient element
      projector := ← Projector.ofJson? lenient projector }
  | _ => none

mutual

def Expr.read : (fuel : Nat) → (lenient : Bool) → Json → Option Expr
  | 0, _, _ => none
  | fuel + 1, lenient, j => do
    let (tag, content) ← j.untag? "kind"
    let kind ← (← tag.tagName? lenient (Kind.all.map Kind.name)) |> ofName? Kind.all Kind.name
    Expr.readParts (Expr.read fuel true) (Stage.read fuel true) kind content

def Stage.read : (fuel : Nat) → (lenient : Bool) → Json → Option Stage
  | 0, _, _ => none
  | fuel + 1, lenient, j => Stage.readParts (Expr.read fuel lenient) (Stage.read fuel true) lenient j

end

/-- The tree that a JSON value describes. -/
def Expr.ofJson? (j : Json) : Option Expr := Expr.read (2 * j.depth + 2) false j

def Stage.ofJson? (j : Json) : Option Stage := Stage.read (2 * j.depth + 2) false j

/-- The tree that a JSON text describes. -/
def Expr.parse? (text : String) : Option Expr := (Json.parse? text).bind Expr.ofJson?

end PigChain
