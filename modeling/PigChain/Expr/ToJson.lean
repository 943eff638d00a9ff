import PigChain.Expr.Basic
import PigChain.Digest

/-!
# The JSON form of trees

Every node is an object with its kind first and its parts in order. Types, values and groupings without parts
are written as their names, the others as an object with the name as its only key. The fingerprint of a tree
is the digest of its JSON text.
-/

namespace PigChain

/-- An object with one key. -/
def Json.tagged (name : String) (content : Json) : Json := .object [(name, content)]

mutual

def DataType.toJson : DataType → Json
  | .bool => .string "Bool"
  | .int64 => .string "Int64"
  | .float64 => .string "Float64"
  | .string => .string "String"
  | .dateTime => .string "DateTime"
  | .record name fields =>
    .tagged "Record" (.object [("name", .string name), ("fields", .array (DataType.fieldsToJson fields))])
  | .array t => .tagged "Array" t.toJson
  | .query t => .tagged "Query" t.toJson
  | .grouping k t => .tagged "Grouping" (.object [("key", k.toJson), ("element", t.toJson)])
  | .unknown => .string "Unknown"

def Field.toJson : Field → Json
  | ⟨name, type, nullable⟩ =>
    .object [("name", .string name), ("data_type", type.toJson), ("nullable", .bool nullable)]

def DataType.fieldsToJson : List Field → List Json
  | [] => []
  | f :: fs => f.toJson :: DataType.fieldsToJson fs

end

def Value.toJson : Value → Json
  | .null => .string "Null"
  | .bool b => .tagged "Bool" (.bool b)
  | .int n => .tagged "Int" (.int n.toInt)
  | .float x => .tagged "Float" (.ofDouble x)
  | .string s => .tagged "String" (.string s)
  | .dateTime t => .tagged "DateTime" (.string t.text)
  | .source s => .tagged "Source" (.string s)

def Parameter.toJson (p : Parameter) : Json :=
  .object [("name", .string p.name), ("data_type", p.type.toJson)]

def OutputColumn.toJson (c : OutputColumn) : Json :=
  .object [("name", .string c.name), ("data_type", c.type.toJson)]

def Projector.toJson (p : Projector) : Json :=
  .object [("columns", .array (p.columns.map OutputColumn.toJson)), ("shape", .string p.shape.name)]

/-- The parts of a construction; names are left out when there are none. -/
def constructFields (type : DataType) (args : List Json) (names : List String) : List (String × Json) :=
  [("data_type", type.toJson), ("args", .array args)] ++
    if names.isEmpty then [] else [("members", .array (names.map Json.string))]

def limitToJson : Option UInt64 → Json
  | none => .null
  | some n => .int n.toNat

/-- A node: its kind and then its parts. -/
def Json.node (kind : Kind) (parts : List (String × Json)) : Json :=
  .object (("kind", .string kind.name) :: parts)

mutual

/-- The parts of a node, without its kind. -/
def Expr.parts : Expr → List (String × Json)
  | .constant v t => [("value", v.toJson), ("data_type", t.toJson)]
  | .parameter n t => [("name", .string n), ("data_type", t.toJson)]
  | .member o n t => [("expr", Expr.optionToJson o), ("member", .string n), ("data_type", t.toJson)]
  | .unary op x t =>
    [("op", .string op.name), ("operand", .node x.kind x.parts), ("data_type", t.toJson)]
  | .binary op l r t =>
    [("op", .string op.name), ("left", .node l.kind l.parts), ("right", .node r.kind r.parts),
     ("data_type", t.toJson)]
  | .conditional c x y t =>
    [("test", .node c.kind c.parts), ("if_true", .node x.kind x.parts), ("if_false", .node y.kind y.parts),
     ("data_type", t.toJson)]
  | .call o m as t =>
    [("object", Expr.optionToJson o), ("method", .string m), ("args", .array (Expr.listToJson as)),
     ("data_type", t.toJson)]
  | .construct t as ns => constructFields t (Expr.listToJson as) ns
  | .arrayInit t xs => [("element_type", t.toJson), ("elements", .array (Expr.listToJson xs))]
  | .listInit t as ns is =>
    [("construct", .object (constructFields t (Expr.listToJson as) ns)),
     ("initializers", .array (Expr.itemsToJson is))]
  | .lambda ps b => [("params", .array (ps.map Parameter.toJson)), ("body", .node b.kind b.parts)]
  | .invocation f as t =>
    [("target", .node f.kind f.parts), ("args", .array (Expr.listToJson as)), ("data_type", t.toJson)]
  | .recordInit t as ns bs =>
    [("construct", .object (constructFields t (Expr.listToJson as) ns)),
     ("bindings", .array (Expr.bindingsToJson bs))]
  | .isNull x => [("expr", .node x.kind x.parts)]
  | .subquery s t => [("select", .object s.parts), ("data_type", t.toJson)]
  | .scalar s t => [("select", .object s.parts), ("data_type", t.toJson)]
  | .select s => s.parts
  | .column n sc t => [("name", .string n), ("scope", .string sc.name), ("data_type", t.toJson)]

def Expr.optionToJson : Option Expr → Json
  | none => .null
  | some x => .node x.kind x.parts

def Expr.listToJson : List Expr → List Json
  | [] => []
  | x :: xs => .node x.kind x.parts :: Expr.listToJson xs

def Expr.itemsToJson : List ElementInit → List Json
  | [] => []
  | ⟨m, as⟩ :: is =>
    .object [("method", .string m), ("args", .array (Expr.listToJson as))] :: Expr.itemsToJson is

def Binding.toJson : Binding → Json
  | .assign n x => .object [("binding", .string "Assignment"), ("member", .string n), ("expr", .node x.kind x.parts)]
  | .nested n bs =>
    .object [("binding", .string "Member"), ("member", .string n), ("bindings", .array (Expr.bindingsToJson bs))]
  | .list n is =>
    .object [("binding", .string "List"), ("member", .string n), ("initializers", .array (Expr.itemsToJson is))]

def Expr.bindingsToJson : List Binding → List Json
  | [] => []
  | b :: bs => b.toJson :: Expr.bindingsToJson bs

/-- The fields of a stage. -/
def Stage.parts : Stage → List (String × Json)
  | ⟨source, filter, columns, projected, grouping, orderBy, limit, element, projector⟩ =>
    [("source", source.toJson), ("filter", Expr.optionToJson filter),
     ("columns", .array (Expr.columnsToJson columns)), ("projected", .bool projected),
     ("grouping", Expr.groupingToJson grouping), ("order_by", .array (Expr.orderingsToJson orderBy)),
     ("limit", limitToJson limit), ("element", element.toJson), ("projector", projector.toJson)]

def Source.toJson : Source → Json
  | .base name => .object [("type", .string "Base"), ("name", .string name)]
  | .stage inner => .object [("type", .string "Select"), ("select", .object inner.parts)]

def Column.toJson : Column → Json
  | ⟨name, x⟩ => .object [("name", .string name), ("expr", .node x.kind x.parts)]

def Expr.columnsToJson : List Column → List Json
  | [] => []
  | c :: cs => c.toJson :: Expr.columnsToJson cs

def Expr.groupingToJson : Option Grouping → Json
  | none => .null
  | some .all => .string "All"
  | some (.keys ks) => .tagged "Keys" (.array (Expr.listToJson ks))

def Expr.orderingsToJson : List Ordering → List Json
  | [] => []
  | ⟨x, d⟩ :: os =>
    .object [("expr", .node x.kind x.parts), ("direction", .string d.name)] :: Expr.orderingsToJson os

end

def Expr.toJson (e : Expr) : Json := .node e.kind e.parts

def Stage.toJson (s : Stage) : Json := .object s.parts

/-- The JSON text of a tree. -/
def Expr.jsonText (e : Expr) : String := e.toJson.write

/-- A name for a tree that depends on all of its parts. -/
def Expr.fingerprint (e : Expr) : String := Digest.ofText e.jsonText

end PigChain
