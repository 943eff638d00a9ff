/-!
# Data types

The type every expression carries. Records are named and list their fields in order; a query is a sequence of
rows, and a grouping is a row of a grouped relation: a key with the rows that share it.
-/

namespace PigChain

mutual

/-- Type of a value, a row or a relation. -/
inductive DataType where
  | bool
  | int64
  | float64
  | string
  | dateTime
  | record (name : String) (fields : List Field)
  | array (element : DataType)
  /-- A sequence of rows of the element type. -/
  | query (element : DataType)
  /-- A row of a grouped relation. -/
  | grouping (key element : DataType)
  | unknown

/-- A field of a record. -/
structure Field where
  name : String
  type : DataType
  nullable : Bool := false

end

instance : Inhabited DataType := ⟨.unknown⟩

namespace DataType

/-! ### Equality -/

mutual

def beq : DataType → DataType → Bool
  | .bool, .bool => true
  | .int64, .int64 => true
  | .float64, .float64 => true
  | .string, .string => true
  | .dateTime, .dateTime => true
  | .record n fs, .record n' fs' => n == n' && beqFields fs fs'
  | .array t, .array t' => beq t t'
  | .query t, .query t' => beq t t'
  | .grouping k t, .grouping k' t' => beq k k' && beq t t'
  | .unknown, .unknown => true
  | _, _ => false

def beqField : Field → Field → Bool
  | ⟨n, t, b⟩, ⟨n', t', b'⟩ => n == n' && beq t t' && b == b'

def beqFields : List Field → List Field → Bool
  | [], [] => true
  | f :: fs, f' :: fs' => beqField f f' && beqFields fs fs'
  | _, _ => false

end

mutual

theorem beq_iff : ∀ a b : DataType, beq a b = true ↔ a = b
  | .bool, b => by cases b <;> simp [beq]
  | .int64, b => by cases b <;> simp [beq]
  | .float64, b => by cases b <;> simp [beq]
  | .string, b => by cases b <;> simp [beq]
  | .dateTime, b => by cases b <;> simp [beq]
  | .record n fs, b => by
    cases b with
    | record n' fs' => simp [beq, beqFields_iff fs fs']
    | _ => simp [beq]
  | .array t, b => by
    cases b with
    | array t' => simp [beq, beq_iff t t']
    | _ => simp [beq]
  | .query t, b => by
    cases b with
    | query t' => simp [beq, beq_iff t t']
    | _ => simp [beq]
  | .grouping k t, b => by
    cases b with
    | grouping k' t' => simp [beq, beq_iff k k', beq_iff t t']
    | _ => simp [beq]
  | .unknown, b => by cases b <;> simp [beq]

theorem beqField_iff : ∀ f g : Field, beqField f g = true ↔ f = g
  | ⟨n, t, b⟩, ⟨n', t', b'⟩ => by simp [beqField, beq_iff t t', and_assoc]

theorem beqFields_iff : ∀ fs gs : List Field, beqFields fs gs = true ↔ fs = gs
  | [], gs => by cases gs <;> simp [beqFields]
  | f :: fs, gs => by
    cases gs with
    | nil => simp [beqFields]
    | cons g gs => simp [beqFields, beqField_iff f g, beqFields_iff fs gs]

end

instance : DecidableEq DataType := fun a b => decidable_of_iff (beq a b = true) (beq_iff a b)

instance : DecidableEq Field := fun f g => decidable_of_iff (beqField f g = true) (beqField_iff f g)

/-! ### Classification -/

def isNumeric : DataType → Bool
  | .int64 => true
  | .float64 => true
  | _ => false

def isQuery : DataType → Bool
  | .query _ => true
  | _ => false

def isGrouping : DataType → Bool
  | .grouping _ _ => true
  | _ => false

/-- The types whose values are not made of parts. -/
def isPrimitive : DataType → Bool
  | .bool => true
  | .int64 => true
  | .float64 => true
  | .string => true
  | .dateTime => true
  | _ => false

/-- The row type of a query. -/
def element? : DataType → Option DataType
  | .query t => some t
  | _ => none

/-- The fields of a record. -/
def fields? : DataType → Option (List Field)
  | .record _ fs => some fs
  | _ => none

/-- The name of a record. -/
def recordName? : DataType → Option String
  | .record n _ => some n
  | _ => none

end DataType

/-- The first field of a name. -/
def Field.find? (fields : List Field) (name : String) : Option Field :=
  fields.find? fun f => f.name == name

namespace DataType

/-- Whether a value of `found` may stand where `declared` is wanted: the unknown type goes with every type, and
the two numeric types with each other. -/
def accepts (declared found : DataType) : Bool :=
  declared = .unknown || found = .unknown || (declared.isNumeric && found.isNumeric) || declared = found

/-- The type of the member `name` of a value: a field of a record or the key of a grouping. -/
def member (owner : DataType) (name : String) : DataType :=
  match owner with
  | .record _ fields => ((Field.find? fields name).map Field.type).getD .unknown
  | .grouping key _ => if name = "Key" then key else .unknown
  | _ => .unknown

/-- The text of a type in messages; a record is written as its name. -/
def text : DataType → String
  | .bool => "bool"
  | .int64 => "int64"
  | .float64 => "float64"
  | .string => "string"
  | .dateTime => "datetime"
  | .record name _ => name
  | .array t => "array<" ++ t.text ++ ">"
  | .query t => "query<" ++ t.text ++ ">"
  | .grouping k t => "grouping<" ++ k.text ++ ", " ++ t.text ++ ">"
  | .unknown => "unknown"

end DataType

end PigChain
