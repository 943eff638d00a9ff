/-!
# Kinds of nodes and operators

The tags of an expression tree with their names. The names appear in the JSON form of a tree and in messages.
-/

namespace PigChain

/-- What sort of node an expression is. -/
inductive Kind where
  | constant
  | parameter
  | member
  | unary
  | binary
  | conditional
  | call
  | construct
  | arrayInit
  | listInit
  | lambda
  | invocation
  | recordInit
  | isNull
  | subquery
  | scalar
  | select
  | column
  deriving DecidableEq, Repr

def Kind.name : Kind → String
  | .constant => "Constant"
  | .parameter => "Parameter"
  | .member => "Member"
  | .unary => "Unary"
  | .binary => "Binary"
  | .conditional => "Conditional"
  | .call => "Call"
  | .construct => "Construct"
  | .arrayInit => "ArrayInit"
  | .listInit => "ListInit"
  | .lambda => "Lambda"
  | .invocation => "Invocation"
  | .recordInit => "RecordInit"
  | .isNull => "IsNull"
  | .subquery => "Subquery"
  | .scalar => "Scalar"
  | .select => "Select"
  | .column => "Column"

def Kind.all : List Kind :=
  [.constant, .parameter, .member, .unary, .binary, .conditional, .call, .construct, .arrayInit, .listInit,
   .lambda, .invocation, .recordInit, .isNull, .subquery, .scalar, .select, .column]

inductive UnaryOp where
  | not
  | negate
  | convert
  deriving DecidableEq, Repr

def UnaryOp.name : UnaryOp → String
  | .not => "Not"
  | .negate => "Negate"
  | .convert => "Convert"

def UnaryOp.all : List UnaryOp := [.not, .negate, .convert]

inductive BinaryOp where
  | add
  | subtract
  | multiply
  | divide
  | modulo
  | equal
  | notEqual
  | lessThan
  | lessThanOrEqual
  | greaterThan
  | greaterThanOrEqual
  | and
  | or
  /-- The left operand unless it is null. -/
  | coalesce
  deriving DecidableEq, Repr

namespace BinaryOp

def name : BinaryOp → String
  | .add => "Add"
  | .subtract => "Subtract"
  | .multiply => "Multiply"
  | .divide => "Divide"
  | .modulo => "Modulo"
  | .equal => "Equal"
  | .notEqual => "NotEqual"
  | .lessThan => "LessThan"
  | .lessThanOrEqual => "LessThanOrEqual"
  | .greaterThan => "GreaterThan"
  | .greaterThanOrEqual => "GreaterThanOrEqual"
  | .and => "And"
  | .or => "Or"
  | .coalesce => "Coalesce"

def all : List BinaryOp :=
  [.add, .subtract, .multiply, .divide, .modulo, .equal, .notEqual, .lessThan, .lessThanOrEqual,
   .greaterThan, .greaterThanOrEqual, .and, .or, .coalesce]

def isComparison : BinaryOp → Bool
  | .equal => true
  | .notEqual => true
  | .lessThan => true
  | .lessThanOrEqual => true
  | .greaterThan => true
  | .greaterThanOrEqual => true
  | _ => false

def isLogical : BinaryOp → Bool
  | .and => true
  | .or => true
  | _ => false

end BinaryOp

/-- Where a column is looked up. -/
inductive Scope where
  /-- A field of the current relation. -/
  | row
  /-- A field of the bag that a grouped row carries; the empty name is the bag itself. -/
  | group
  deriving DecidableEq, Repr

def Scope.name : Scope → String
  | .row => "Row"
  | .group => "Group"

def Scope.all : List Scope := [.row, .group]

inductive Direction where
  | ascending
  | descending
  deriving DecidableEq, Repr

def Direction.name : Direction → String
  | .ascending => "Ascending"
  | .descending => "Descending"

def Direction.all : List Direction := [.ascending, .descending]

/-- How the fields of a projected row are put together. -/
inductive Shape where
  /-- One named field for each column. -/
  | record
  /-- The only column by itself. -/
  | value
  deriving DecidableEq, Repr

def Shape.name : Shape → String
  | .record => "Record"
  | .value => "Value"

def Shape.all : List Shape := [.record, .value]

end PigChain
