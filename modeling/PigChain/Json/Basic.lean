import PigChain.Double.Digits

/-!
# JSON values and their text

A JSON value keeps the fields of an object in the order they were given, repeated keys included; `sorted` is
the form in which keys are unique and in ascending order. `write` is the compact text: no blanks, the
shortest digits of a number, and an escape only where JSON asks for one.
-/

namespace PigChain

/-- A JSON value. Integers and floating-point numbers are told apart, as their texts are. -/
inductive Json where
  | null
  | bool (value : Bool)
  | int (value : Int)
  | float (value : Double)
  | string (value : String)
  | array (items : List Json)
  | object (fields : List (String × Json))
  deriving Inhabited, Repr

namespace Json

/-- The word for what a value is, as messages use it. -/
def describe : Json → String
  | .null => "null"
  | .bool _ => "bool"
  | .int _ => "number"
  | .float _ => "number"
  | .string _ => "string"
  | .array _ => "array"
  | .object _ => "object"

def isNull : Json → Bool
  | .null => true
  | _ => false

/-- A number, if it is finite; the text of a value has no other numbers. -/
def ofDouble (x : Double) : Json := if x.isFinite then .float x else .null

/-- Puts a field in its place among fields in ascending order of keys, over one of the same key. -/
def insertField (key : String) (value : Json) : List (String × Json) → List (String × Json)
  | [] => [(key, value)]
  | (k, v) :: rest =>
    if key < k then (key, value) :: (k, v) :: rest
    else if key = k then (key, value) :: rest
    else (k, v) :: insertField key value rest

/-- The first field of that key. -/
def field? (key : String) : List (String × Json) → Option Json
  | [] => none
  | (k, v) :: rest => if k = key then some v else field? key rest

def get? (j : Json) (key : String) : Option Json :=
  match j with
  | .object fields => field? key fields
  | _ => none

mutual

/-- The value with the keys of every object unique and ascending; of a repeated key the last value stays. -/
def sorted : Json → Json
  | .array items => .array (sortedItems items)
  | .object fields => .object (sortedFields fields [])
  | j => j

def sortedItems : List Json → List Json
  | [] => []
  | j :: js => sorted j :: sortedItems js

def sortedFields : List (String × Json) → List (String × Json) → List (String × Json)
  | [], done => done
  | (k, v) :: rest, done => sortedFields rest (insertField k (sorted v) done)

end

mutual

/-- How deep arrays and objects are nested in a value. -/
def depth : Json → Nat
  | .array items => depthItems items + 1
  | .object fields => depthFields fields + 1
  | _ => 0

def depthItems : List Json → Nat
  | [] => 0
  | j :: js => max (depth j) (depthItems js)

def depthFields : List (String × Json) → Nat
  | [] => 0
  | (_, v) :: rest => max (depth v) (depthFields rest)

end

/-! ### Text -/

def hexDigit (n : Nat) : Char :=
  if n < 10 then Char.ofNat ('0'.toNat + n) else Char.ofNat ('a'.toNat + (n - 10))

/-- A character inside a JSON string. -/
def escape (c : Char) : List Char :=
  if c = '"' then ['\\', '"']
  else if c = '\\' then ['\\', '\\']
  else if c = '\x08' then ['\\', 'b']
  else if c = '\x0c' then ['\\', 'f']
  else if c = '\n' then ['\\', 'n']
  else if c = '\x0d' then ['\\', 'r']
  else if c = '\t' then ['\\', 't']
  else if c.toNat < 32 then ['\\', 'u', '0', '0', hexDigit (c.toNat / 16), hexDigit (c.toNat % 16)]
  else [c]

def quoted (s : String) : List Char := '"' :: (s.toList.flatMap escape ++ ['"'])

def doubleText : Double → String
  | .finite s m e => Double.Layout.json.write s m e
  | _ => "null"

mutual

/-- The text of a value, with `rest` after it. -/
def chars : Json → (rest : List Char) → List Char
  | .null, rest => "null".toList ++ rest
  | .bool b, rest => (if b then "true" else "false").toList ++ rest
  | .int n, rest => (toString n).toList ++ rest
  | .float x, rest => (doubleText x).toList ++ rest
  | .string s, rest => quoted s ++ rest
  | .array [], rest => '[' :: ']' :: rest
  | .array (j :: js), rest => '[' :: chars j (itemChars js rest)
  | .object [], rest => '\x7b' :: '\x7d' :: rest
  | .object ((k, v) :: fields), rest => '\x7b' :: (quoted k ++ ':' :: chars v (fieldChars fields rest))

/-- What follows the first item of an array. -/
def itemChars : List Json → (rest : List Char) → List Char
  | [], rest => ']' :: rest
  | j :: js, rest => ',' :: chars j (itemChars js rest)

/-- What follows the first field of an object. -/
def fieldChars : List (String × Json) → (rest : List Char) → List Char
  | [], rest => '\x7d' :: rest
  | (k, v) :: fields, rest => ',' :: (quoted k ++ ':' :: chars v (fieldChars fields rest))

end

/-- The compact text of a value. -/
def write (j : Json) : String := String.ofList (j.chars [])

end Json

end PigChain
