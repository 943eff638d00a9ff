import PigChain.DataType
import PigChain.DateTime.Basic
import PigChain.Double.Digits
import PigChain.Text.Quoted

/-!
# Literal values

What a constant of an expression holds. The name of a data source is a literal too: it is the root of every
chain.
-/

namespace PigChain

/-- A literal. -/
inductive Value where
  | null
  | bool (value : Bool)
  | int (value : Int64)
  | float (value : Double)
  | string (value : String)
  | dateTime (value : DateTime)
  /-- A data source by name. -/
  | source (name : String)
  deriving DecidableEq, Inhabited

namespace Value

/-- The type a literal has on its own. -/
def type : Value → DataType
  | .null => .unknown
  | .bool _ => .bool
  | .int _ => .int64
  | .float _ => .float64
  | .string _ => .string
  | .dateTime _ => .dateTime
  | .source _ => .unknown

def isNull : Value → Bool
  | .null => true
  | _ => false

/-- Whether two literals are the same value. Numbers are compared as numbers. -/
def same : Value → Value → Bool
  | .float x, .float y => x.sameNumber y
  | v, w => v = w

/-- A literal with its kind. -/
def describe : Value → String
  | .null => "Null"
  | .bool b => "Bool(" ++ (if b then "true" else "false") ++ ")"
  | .int n => "Int(" ++ toString n.toInt ++ ")"
  | .float x => "Float(" ++ x.literal ++ ")"
  | .string s => "String(" ++ Text.describe s ++ ")"
  | .dateTime t => "DateTime(" ++ t.text ++ ")"
  | .source s => "Source(" ++ Text.describe s ++ ")"

end Value

end PigChain
