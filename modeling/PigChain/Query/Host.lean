import PigChain.DataType
import PigChain.Json.Basic
import PigChain.DateTime.Read

/-!
# Host values

A projected row is decoded as a value of a host type. Decoding is strict: a value has to be of the kind the
type asks for. The decoded value is again written as JSON, in the form that values of the type have: a
floating-point number has a fraction, a date-time its normal form, a record its fields in declared order.
-/

namespace PigChain

mutual

/-- Types that rows can be decoded as. -/
inductive HostType where
  /-- Any value, taken as it is; `type` is what it is declared as. -/
  | any (type : DataType)
  | bool
  | int32
  | int64
  | float
  | text
  | dateTime
  /-- A value or null. -/
  | optional (t : HostType)
  | record (name : String) (fields : List HostField)
  /-- A group of rows under a key. -/
  | group (key element : HostType)

structure HostField where
  name : String
  type : HostType

end

namespace HostType

def isOptional : HostType → Bool
  | .optional _ => true
  | _ => false

mutual

/-- The type that values of a host type have in expressions. -/
def type : HostType → DataType
  | .any t => t
  | .bool => .bool
  | .int32 => .int64
  | .int64 => .int64
  | .float => .float64
  | .text => .string
  | .dateTime => .dateTime
  | .optional t => t.type
  | .record name fields => .record name (fieldTypes fields)
  | .group key element => .grouping key.type element.type

def fieldTypes : List HostField → List Field
  | [] => []
  | ⟨name, t⟩ :: fields => ⟨name, t.type, t.isOptional⟩ :: fieldTypes fields

end

/-- An integer in a range that holds `2 ^ bits` numbers, half of them negative. -/
def signed? (bits : Nat) (n : Int) : Option Json :=
  if -(Nat.pow 2 (bits - 1) : Int) ≤ n ∧ n < Nat.pow 2 (bits - 1) then some (.int n) else none

mutual

/-- Decodes a value. -/
def decode? : HostType → Json → Option Json
  | .any _, j => some j
  | .bool, .bool b => some (.bool b)
  | .int32, .int n => signed? 32 n
  | .int64, .int n => signed? 64 n
  | .float, .int n => some (.float (.ofInt n))
  | .float, .float x => some (.float x)
  | .text, .string s => some (.string s)
  | .dateTime, .string s => (DateTime.ofText? s).map fun t => .string t.text
  | .optional _, .null => some .null
  | .optional t, j => t.decode? j
  | .record _ fields, .object given => (decodeNamed? fields given).map .object
  | .record _ fields, .array items => (decodeTuple? fields items).map .object
  | .group key element, .object given => do
    let k ← key.decode? (← Json.field? "Key" given)
    let .array items ← Json.field? "Elements" given | none
    let es ← items.mapM element.decode?
    some (.object [("Key", k), ("Elements", .array es)])
  | .group key element, .array [k, .array items] => do
    let k ← key.decode? k
    let es ← items.mapM element.decode?
    some (.object [("Key", k), ("Elements", .array es)])
  | _, _ => none

/-- A record given by name. An optional field may be left out, and fields that are not declared are ignored. -/
def decodeNamed? : List HostField → List (String × Json) → Option (List (String × Json))
  | [], _ => some []
  | ⟨name, t⟩ :: fields, given => do
    let v ← match Json.field? name given with
      | some j => t.decode? j
      | none => if t.isOptional then some .null else none
    let vs ← decodeNamed? fields given
    some ((name, v) :: vs)

/-- A record given as a tuple, one item for each field in order. -/
def decodeTuple? : List HostField → List Json → Option (List (String × Json))
  | [], [] => some []
  | ⟨name, t⟩ :: fields, j :: js => do
    let v ← t.decode? j
    let vs ← decodeTuple? fields js
    some ((name, v) :: vs)
  | _, _ => none

end

end HostType

end PigChain
