import PigChain.Text.Unseen

/-!
# Quoted text in descriptions

Descriptions of values put text between double quotes and write out every character that would not be seen:
the usual backslash escapes, and the code point in braces for the rest.
-/

namespace PigChain.Text

/-- Lower-case hexadecimal digits of a number. -/
def hexDigits (n : Nat) : List Char := Nat.toDigits 16 n

def describeChar (c : Char) : List Char :=
  if c = '"' then ['\\', '"']
  else if c = '\\' then ['\\', '\\']
  else if c = '\n' then ['\\', 'n']
  else if c = '\x0d' then ['\\', 'r']
  else if c = '\t' then ['\\', 't']
  else if c.toNat = 0 then ['\\', '0']
  else if isSeen c then [c]
  else ['\\', 'u', '\x7b'] ++ hexDigits c.toNat ++ ['\x7d']

/-- Text between quotes, every character visible. -/
def describe (s : String) : String := String.ofList ('"' :: (s.toList.flatMap describeChar ++ ['"']))

/-- A list of texts between brackets. -/
def describeAll (texts : List String) : String :=
  "[" ++ ", ".intercalate (texts.map describe) ++ "]"

end PigChain.Text
