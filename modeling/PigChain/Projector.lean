import PigChain.Error
import PigChain.Json.Basic
import PigChain.Double.Read
import PigChain.DateTime.Read

/-!
# Projectors

A raw row is a list of JSON values, one for each column of the script's output. A projector gives every value
the type its column declares and puts the values together. `coerce` is lenient where the executor is: numbers
and booleans may come as text, integers as whole floating-point numbers, date-times as text or milliseconds,
records as tuples or by name. Null is null of every type.
-/

namespace PigChain

/-- A column of the output rows. -/
structure OutputColumn where
  name : String
  type : DataType
  deriving DecidableEq

/-- How output rows are read. -/
structure Projector where
  columns : List OutputColumn
  shape : Shape
  deriving DecidableEq

namespace Projector

/-- A row of named fields. -/
def record (columns : List OutputColumn) : Projector := ⟨columns, .record⟩

/-- A row of one bare value. -/
def value (name : String) (type : DataType) : Projector := ⟨[⟨name, type⟩], .value⟩

/-- The projector of rows that pass through unchanged. -/
def ofElement : DataType → Projector
  | .record _ fields => record (fields.map fun f => ⟨f.name, f.type⟩)
  | .grouping key element => record [⟨"Key", key⟩, ⟨"Elements", .array element⟩]
  | t => value "value" t

def width (p : Projector) : Nat := p.columns.length

end Projector

/-! ### Coercion -/

/-- The range of a 64-bit integer. -/
def inInt64 (n : Int) : Bool := -9223372036854775808 ≤ n && n ≤ 9223372036854775807

/-- A whole number in the range of 64-bit integers. -/
def wholeInt64? (x : Double) : Option Int := x.toInt?.filter inInt64

/-- An optional sign and decimal digits, in the range of 64-bit integers. -/
def int64OfText? (cs : List Char) : Option Int :=
  let (negative, digits) := Double.splitSign cs
  if digits.isEmpty || !digits.all Char.isDigit then none
  else
    let n : Int := Double.digitsValue digits
    (some (if negative then -n else n)).filter inInt64

def boolOfText? (cs : List Char) : Option Bool :=
  if cs = "true".toList then some true else if cs = "false".toList then some false else none

/-- The mismatch of a raw value with the type declared for it. -/
def rawMismatch (target : String) (type : DataType) (raw : Json) : Error :=
  .typeMismatch target type.text raw.describe

/-- A raw value as a value of a primitive type, `none` if it is not one. -/
def coercePrimitive? : DataType → Json → Option Json
  | .bool, .bool b => some (.bool b)
  | .bool, .string s => (boolOfText? (Text.trimChars s.toList)).map .bool
  | .int64, .int n => if inInt64 n then some (.int n) else (wholeInt64? (.ofInt n)).map .int
  | .int64, .float x => (wholeInt64? x).map .int
  | .int64, .string s => (int64OfText? (Text.trimChars s.toList)).map .int
  | .float64, .int n => some (Json.ofDouble (.ofInt n))
  | .float64, .float x => some (Json.ofDouble x)
  | .float64, .string s => (Double.ofText? (Text.trim s)).map Json.ofDouble
  | .string, .string s => some (.string s)
  | .dateTime, .string s => (DateTime.ofData? s).map fun t => .string t.text
  | .dateTime, .int n => ((some n).filter inInt64).bind fun n => (DateTime.ofEpochMillis? n).map fun t => .string t.text
  | _, _ => none

mutual

/-- A raw value as a value of a type; `target` is what an error names. -/
def coerce (target : String) : DataType → Json → Except Error Json
  | _, .null => .ok .null
  | .unknown, raw => .ok raw
  | .record name fields, .array items =>
    if items.length = fields.length then (coerceTuple fields items []).map .object
    else .error (rawMismatch target (.record name fields) (.array items))
  | .record _ fields, .object given => (coerceNamed fields given []).map .object
  | .array t, .array items => (items.mapM (coerce target t)).map .array
  | t, raw =>
    match coercePrimitive? t raw with
    | some v => .ok v
    | none => .error (rawMismatch target t raw)

/-- A record given as a tuple, one item for each field in order. -/
def coerceTuple : List Field → List Json → List (String × Json) → Except Error (List (String × Json))
  | [], _, done => .ok done
  | _ :: _, [], done => .ok done
  | ⟨name, t, _⟩ :: fields, j :: js, done => do
    let v ← coerce name t j
    coerceTuple fields js (Json.insertField name v done)

/-- A record given by name; a field that is not given is null. -/
def coerceNamed : List Field → List (String × Json) → List (String × Json) → Except Error (List (String × Json))
  | [], _, done => .ok done
  | ⟨name, t, _⟩ :: fields, given, done => do
    let v ← coerce name t ((Json.field? name given).getD .null)
    coerceNamed fields given (Json.insertField name v done)

end

namespace Projector

/-- The fields of a record row in order, each coerced to its column. -/
def projectFields : List OutputColumn → List Json → List (String × Json) → Except Error (List (String × Json))
  | c :: cs, raw :: row, done => do
    let v ← coerce c.name c.type raw
    projectFields cs row (Json.insertField c.name v done)
  | _, _, done => .ok done

/-- One raw row as a value. The row has exactly one field for each column. -/
def project (p : Projector) (row : List Json) : Except Error Json :=
  if row.length ≠ p.columns.length then
    .error (.typeMismatch "row" s!"{p.columns.length} fields" s!"{row.length} fields")
  else
    match p.shape with
    | .record => (projectFields p.columns row []).map .object
    | .value =>
      match p.columns, row with
      | c :: _, raw :: _ => coerce c.name c.type raw
      | _, _ => .error .noColumn

end Projector

end PigChain
