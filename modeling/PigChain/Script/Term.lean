import PigChain.Script.Alias
import PigChain.Double.Digits
import PigChain.DateTime.Basic
import PigChain.Expr.Kind
import PigChain.DataType

/-!
# Terms of a script

A term is an expression that a script can compute. It refers to another relation by its number. The text of
a term puts an operand between parentheses if it is itself an operator, so precedence never matters.
-/

namespace PigChain

/-- Text between single quotes; a quote, a backslash and a line feed are escaped. -/
def quoteChars : List Char → List Char
  | [] => []
  | '\\' :: cs => '\\' :: '\\' :: quoteChars cs
  | '\'' :: cs => '\\' :: '\'' :: quoteChars cs
  | '\n' :: cs => '\\' :: 'n' :: quoteChars cs
  | c :: cs => c :: quoteChars cs

def quote (s : String) : String := "'" ++ String.ofList (quoteChars s.toList) ++ "'"

/-- Functions that a script calls by name. -/
inductive Builtin where
  | count | sum | avg | min | max
  | concat | startsWith | endsWith | upper | lower | trim | size
  deriving DecidableEq, Repr

namespace Builtin

def name : Builtin → String
  | .count => "COUNT"
  | .sum => "SUM"
  | .avg => "AVG"
  | .min => "MIN"
  | .max => "MAX"
  | .concat => "CONCAT"
  | .startsWith => "STARTSWITH"
  | .endsWith => "ENDSWITH"
  | .upper => "UPPER"
  | .lower => "LOWER"
  | .trim => "TRIM"
  | .size => "SIZE"

/-- The functions of a bag. -/
def aggregates : List Builtin := [.count, .sum, .avg, .min, .max]

def aggregate? (name : String) : Option Builtin := aggregates.find? fun f => f.name == name

/-- Methods of a text without arguments. -/
def ofMethod? : String → Option Builtin
  | "ToUpper" => some .upper
  | "ToLower" => some .lower
  | "Trim" => some .trim
  | "Length" => some .size
  | _ => none

end Builtin

/-- Operators written between their operands. -/
inductive Operator where
  | add | subtract | multiply | divide | modulo
  | equal | notEqual | lessThan | lessThanOrEqual | greaterThan | greaterThanOrEqual
  | and | or
  deriving DecidableEq, Repr

def Operator.symbol : Operator → String
  | .add => "+"
  | .subtract => "-"
  | .multiply => "*"
  | .divide => "/"
  | .modulo => "%"
  | .equal => "=="
  | .notEqual => "!="
  | .lessThan => "<"
  | .lessThanOrEqual => "<="
  | .greaterThan => ">"
  | .greaterThanOrEqual => ">="
  | .and => "AND"
  | .or => "OR"

/-- The operator for a binary operation; the default of a missing value is written out instead. -/
def BinaryOp.operator? : BinaryOp → Option Operator
  | .add => some .add
  | .subtract => some .subtract
  | .multiply => some .multiply
  | .divide => some .divide
  | .modulo => some .modulo
  | .equal => some .equal
  | .notEqual => some .notEqual
  | .lessThan => some .lessThan
  | .lessThanOrEqual => some .lessThanOrEqual
  | .greaterThan => some .greaterThan
  | .greaterThanOrEqual => some .greaterThanOrEqual
  | .and => some .and
  | .or => some .or
  | .coalesce => none

/-- Types a value can be converted to. -/
inductive Cast where
  | long | double | chararray | boolean | datetime
  deriving DecidableEq, Repr

def Cast.name : Cast → String
  | .long => "long"
  | .double => "double"
  | .chararray => "chararray"
  | .boolean => "boolean"
  | .datetime => "datetime"

def DataType.cast? : DataType → Option Cast
  | .int64 => some .long
  | .float64 => some .double
  | .string => some .chararray
  | .bool => some .boolean
  | .dateTime => some .datetime
  | _ => none

/-- An expression of a script. -/
inductive Term where
  | null
  | bool (b : Bool)
  | int (n : Int)
  | float (x : Double)
  | text (s : String)
  | date (d : DateTime)
  /-- A field of the row. -/
  | field (name : String)
  /-- The bag of the rows of a group, named by the relation that was grouped, or a column of it. -/
  | bag (relation : Nat) (column : String)
  /-- The only value of a column of another relation. -/
  | single (relation : Nat) (column : String)
  | not (x : Term)
  | negate (x : Term)
  | cast (type : Cast) (x : Term)
  | isNull (x : Term)
  | isNotNull (x : Term)
  | operation (op : Operator) (x y : Term)
  | choose (test ifTrue ifFalse : Term)
  /-- `x`, or `y` if `x` is missing. -/
  | orElse (x y : Term)
  | call1 (f : Builtin) (x : Term)
  | call2 (f : Builtin) (x y : Term)
  /-- Whether a text occurs in another. -/
  | contains (x y : Term)

namespace Term

/-- Whether a term is put between parentheses as an operand. -/
def isCompound : Term → Bool
  | .operation .. | .isNull _ | .isNotNull _ | .not _ => true
  | _ => false

/-- The text of a term as an operand. -/
def operand (x : Term) (text : String) : String := if x.isCompound then "(" ++ text ++ ")" else text

/-- The text of a term. -/
def render : Term → String
  | .null => "null"
  | .bool b => if b then "true" else "false"
  | .int n => toString n
  | .float x => x.literal
  | .text s => quote s
  | .date d => "ToDate(" ++ quote d.millisText ++ ")"
  | .field name => name
  | .bag r column => if column = "" then Alias.name r else Alias.name r ++ "." ++ column
  | .single r column => Alias.name r ++ "." ++ column
  | .not x => "NOT " ++ x.operand x.render
  | .negate x => "-" ++ x.operand x.render
  | .cast type x => "(" ++ type.name ++ ")" ++ x.operand x.render
  | .isNull x => x.operand x.render ++ " IS NULL"
  | .isNotNull x => x.operand x.render ++ " IS NOT NULL"
  | .operation op x y => x.operand x.render ++ " " ++ op.symbol ++ " " ++ y.operand y.render
  | .choose t x y =>
    "(" ++ t.operand t.render ++ " ? " ++ x.operand x.render ++ " : " ++ y.operand y.render ++ ")"
  | .orElse x y =>
    let shown := x.operand x.render
    "(" ++ shown ++ " IS NULL ? " ++ y.operand y.render ++ " : " ++ shown ++ ")"
  | .call1 f x => f.name ++ "(" ++ x.render ++ ")"
  | .call2 f x y => f.name ++ "(" ++ x.render ++ ", " ++ y.render ++ ")"
  | .contains x y => "(INDEXOF(" ++ x.render ++ ", " ++ y.render ++ ", 0) >= 0)"

end Term

end PigChain
