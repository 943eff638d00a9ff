import PigChain.Expr.Kind
import PigChain.DataType

/-!
# Errors

What can be wrong with an expression, a chain or the data, as causes; `message` holds the wording of all of
them.
-/

namespace PigChain

/-- An argument that cannot be used. -/
inductive Fault where
  | unknownColumn (name : String)
  | unknownField (name record : String)
  | unknownGroupMember (name : String)
  | sourceType (source : String) (found : DataType)
  | chainRoot (found : DataType)
  | missingArgument (method : String)
  | notLambda (found : Kind)
  | parameterCount (found : Nat)
  | lambdaArity (parameters arguments : Nat)
  | memberNames (arguments names : Nat)
  | duplicateAlias (name : String)
  | unorderedThenBy
  | negativeTake (count : Int)
  | takeKind (found : Kind)
  | missingSelector (method : String)
  | columnCount (method : String) (found : Nat)
  | rowSelector (method : String) (row : DataType)
  | rowAsValue (row : DataType)
  | bagOutsideGroup (name : String)
  /-- Invocations are nested past every bound. -/
  | endlessInvocation
  /-- Chains are nested past every bound. -/
  | endlessNesting
  deriving DecidableEq

def Fault.message : Fault → String
  | .unknownColumn name => s!"unknown column '{name}'"
  | .unknownField name record => s!"unknown column '{name}' on {record}"
  | .unknownGroupMember name => s!"unknown group member '{name}'"
  | .sourceType source found => s!"source '{source}' is not a query, found {found.text}"
  | .chainRoot found => s!"chain root must be a source, found {found.text}"
  | .missingArgument method => s!"{method} requires an argument"
  | .notLambda found => s!"expected a lambda, found {found.name}"
  | .parameterCount found => s!"expected a single-parameter lambda, found {found} parameters"
  | .lambdaArity parameters arguments => s!"lambda takes {parameters} arguments, invoked with {arguments}"
  | .memberNames arguments names => s!"constructor has {arguments} arguments but {names} member names"
  | .duplicateAlias name => s!"duplicate column alias '{name}'"
  | .unorderedThenBy => "ThenBy requires a preceding OrderBy"
  | .negativeTake count => s!"Take count must not be negative, found {count}"
  | .takeKind found => s!"Take expects an integer constant, found {found.name}"
  | .missingSelector method => s!"{method} requires a selector"
  | .columnCount method found => s!"{method} needs a single column, found {found}"
  | .rowSelector method row => s!"{method} over {row.text} rows needs a selector of one column"
  | .rowAsValue row => s!"row of type {row.text} cannot be used as a value"
  | .bagOutsideGroup name => s!"group column '{name}' used outside a grouped relation"
  | .endlessInvocation => "invocations are nested too deep"
  | .endlessNesting => "chains are nested too deep"

/-- What a script cannot do. -/
inductive Unsupported where
  | method (name : String)
  | computedOrder
  | computedAggregate
  | nestedBinding (name : String)
  | conversion (type : DataType)
  deriving DecidableEq

def Unsupported.message : Unsupported → String
  | .method name => name
  | .computedOrder => "order by computed expression"
  | .computedAggregate => "aggregate over computed expression"
  | .nestedBinding name => s!"nested member binding '{name}'"
  | .conversion type => s!"convert to {type.text}"

/-- Why an expression, a chain or a row was refused. -/
inductive Error where
  /-- A node of this kind has no place here. -/
  | unsupportedNode (kind : Kind)
  /-- A scalar subquery yields more or fewer columns than one. -/
  | scalarWidth (columns : Nat)
  | typeMismatch (target expected found : String)
  | argument (fault : Fault)
  | unsupported (what : Unsupported)
  /-- A projector of a bare value has no column to take it from. -/
  | noColumn
  deriving DecidableEq

def Error.message : Error → String
  | .unsupportedNode kind => s!"Unsupported node kind: {kind.name}"
  | .scalarWidth columns => s!"Scalar subquery must produce exactly one column, found {columns}"
  | .typeMismatch target expected found => s!"Type mismatch for {target}: expected {expected}, found {found}"
  | .argument fault => s!"Invalid argument: {fault.message}"
  | .unsupported what => s!"Unsupported operation: {what.message}"
  | .noColumn => "a bare value needs a column"

/-- A value of one type where another is declared. -/
def Error.mismatch (target : String) (expected found : DataType) : Error :=
  .typeMismatch target expected.text found.text

end PigChain
