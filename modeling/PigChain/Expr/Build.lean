import PigChain.Expr.Basic

/-!
# Building expressions

Each builder makes one node and finds its type from the types of the parts.
-/

namespace PigChain

/-- The type of a binary operation. Comparisons and logic are boolean; a floating-point operand makes
arithmetic floating-point, and an operand of unknown type takes the type of a numeric one. -/
def BinaryOp.resultType (op : BinaryOp) (left right : DataType) : DataType :=
  if op.isComparison || op.isLogical then .bool
  else if op = .coalesce then (if left = .unknown then right else left)
  else if left = .float64 ∧ right.isNumeric then .float64
  else if right = .float64 ∧ left.isNumeric then .float64
  else if left = .int64 ∧ right = .int64 then .int64
  else if left = .string ∧ right = .string ∧ op = .add then .string
  else if left.isNumeric ∧ right = .unknown then left
  else if left = .unknown ∧ right.isNumeric then right
  else .unknown

namespace Expr

/-- A literal with its own type. -/
def lit (v : Value) : Expr := .constant v v.type

/-- The null of a type. -/
def null (t : DataType) : Expr := .constant .null t

/-- The root of a chain: the rows of a named source. -/
def source (name : String) (element : DataType) : Expr := .constant (.source name) (.query element)

/-- A member of an object. -/
def get (object : Expr) (name : String) : Expr := .member (some object) name (object.type.member name)

/-- A field of the current relation. -/
def field (name : String) (t : DataType) : Expr := .column name .row t

/-- A field of the bag of a grouped row. -/
def bagField (name : String) (t : DataType) : Expr := .column name .group t

def apply (op : UnaryOp) (operand : Expr) : Expr :=
  .unary op operand (if op = .not then .bool else operand.type)

def convert (operand : Expr) (t : DataType) : Expr := .unary .convert operand t

def combine (op : BinaryOp) (left right : Expr) : Expr :=
  .binary op left right (op.resultType left.type right.type)

/-- The type of a conditional is that of its first branch, unless that is unknown. -/
def choose (test ifTrue ifFalse : Expr) : Expr :=
  .conditional test ifTrue ifFalse (if ifTrue.type = .unknown then ifFalse.type else ifTrue.type)

/-- A function or combinator call. -/
def function (name : String) (args : List Expr) (t : DataType) : Expr := .call none name args t

/-- A record of named arguments. -/
def recordOf (t : DataType) (members : List (String × Expr)) : Expr :=
  .construct t (members.map Prod.snd) (members.map Prod.fst)

/-- An empty record with members set on it. -/
def recordWith (t : DataType) (members : List (String × Expr)) : Expr :=
  .recordInit t [] [] (members.map fun (name, e) => .assign name e)

def function1 (name : String) (t : DataType) (body : Expr) : Expr := .lambda [⟨name, t⟩] body

def invoke (target : Expr) (args : List Expr) : Expr := .invocation target args target.type

/-- The null test in its negated form. -/
def isNotNull (e : Expr) : Expr := apply .not (.isNull e)

/-- A stage as a single value: its width must be one. -/
def scalarOf (s : Stage) (t : DataType) : Except Error Expr :=
  if s.width = 1 then .ok (.scalar s t) else .error (.scalarWidth s.width)

end Expr

end PigChain
