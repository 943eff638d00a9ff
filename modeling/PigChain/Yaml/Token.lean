import PigChain.Yaml.Scalar

/-!
# Tokens of a YAML text

Indentation is made explicit: where a line is indented deeper than the collection around it a block starts, and
where it is indented less blocks end. A mapping key is only known for one at the colon after it, so a place
where a key may have started is remembered until the line ends.
-/

namespace PigChain.Yaml

inductive Token where
  | directive (name : String) (args : List String)
  | documentStart
  | documentEnd
  | sequenceStart
  | mappingStart
  | blockEnd
  | flowSequenceStart
  | flowSequenceEnd
  | flowMappingStart
  | flowMappingEnd
  | blockEntry
  | flowEntry
  | key
  | value
  | alias (name : String)
  | anchor (name : String)
  | tag (text : String)
  | scalar (text : String) (plain : Bool)
  deriving DecidableEq, Repr

/-- A place where a key may have started. -/
structure PossibleKey where
  /-- How many tokens stand before it. -/
  number : Nat
  index : Nat
  line : Nat
  column : Nat
  /-- Whether nothing but a key can stand there. -/
  required : Bool

structure Scanner where
  cursor : Cursor
  tokens : List Token := []
  /-- How many flow collections are open. -/
  flow : Nat := 0
  /-- Column of the innermost block, −1 outside of all. -/
  indent : Int := -1
  indents : List Int := []
  keyAllowed : Bool := true
  /-- For every open flow collection and the text around them, innermost first. -/
  keys : List (Option PossibleKey) := [none]
  finished : Bool := false

namespace Scanner

def emit (s : Scanner) (t : Token) : Scanner := { s with tokens := s.tokens ++ [t] }

/-- Passes over `n` characters that are a token. -/
def take (s : Scanner) (n : Nat) (t : Token) : Scanner := { s.emit t with cursor := s.cursor.skipMany n }

def inFlow (s : Scanner) : Bool := s.flow > 0

/-- Forgets the key that may have started at this level; one that had to follow is an error. -/
def dropKey (s : Scanner) : Option Scanner :=
  match s.keys with
  | some k :: keys => if k.required then none else some { s with keys := none :: keys }
  | _ => some s

/-- Remembers that a key may start here. -/
def saveKey (s : Scanner) : Option Scanner :=
  if s.keyAllowed then do
    let s ← s.dropKey
    let required := !s.inFlow && s.indent == s.cursor.column
    let k : PossibleKey := ⟨s.tokens.length, s.cursor.index, s.cursor.line, s.cursor.column, required⟩
    some { s with keys := some k :: s.keys.drop 1 }
  else some s

/-- A key ends with its line, and is not longer than 1024 characters. -/
def isStale (s : Scanner) (k : PossibleKey) : Bool :=
  k.line < s.cursor.line || k.index + 1024 < s.cursor.index

/-- Forgets keys that can no longer be any. -/
def dropStale (s : Scanner) : Option Scanner := do
  let keys ← s.keys.mapM fun k =>
    match k with
    | some k => if s.isStale k then (if k.required then none else some none) else some (some k)
    | none => some none
  some { s with keys := keys }

/-- Opens a block at a column, unless one is open there, with its token at place `number`. -/
def openBlock (s : Scanner) (column number : Nat) (t : Token) : Scanner :=
  if s.inFlow || s.indent ≥ column then s
  else
    { s with
      indents := s.indent :: s.indents
      indent := column
      tokens := s.tokens.take number ++ [t] ++ s.tokens.drop number }

/-- Leaves the indents deeper than a column, from the innermost, with a token for each block that ends. -/
def leaveIndents (column : Int) : List Int → Int → List Token → List Int × Int × List Token
  | [], indent, ts => ([], indent, ts)
  | outer :: rest, indent, ts =>
    if indent > column then leaveIndents column rest outer (ts ++ [.blockEnd]) else (outer :: rest, indent, ts)

/-- Closes the blocks that are indented deeper than a column. -/
def closeBlocks (s : Scanner) (column : Int) : Scanner :=
  if s.inFlow then s
  else
    let (indents, indent, tokens) := leaveIndents column s.indents s.indent s.tokens
    { s with indents := indents, indent := indent, tokens := tokens }

/-- Passes over blanks, comments and line ends. A tab counts as a blank only where no key can start. -/
def skipToToken : (fuel : Nat) → Scanner → Scanner
  | 0, s => s
  | fuel + 1, s =>
    let c := if s.cursor.index == 0 && s.cursor.rest.head? == some '\ufeff' then s.cursor.skip else s.cursor
    let c := c.skipWhile fun ch => ch == ' ' || ((s.inFlow || !s.keyAllowed) && ch == '\t')
    let c := if c.rest.head? == some '#' then c.skipWhile fun ch => !isBreak ch else c
    if c.rest.head?.any isBreak then
      skipToToken fuel { s with cursor := c.newline.2, keyAllowed := s.keyAllowed || !s.inFlow }
    else { s with cursor := c }

/-! ### Tokens -/

def streamEnd (s : Scanner) : Option Scanner := do
  let s ← (s.closeBlocks (-1)).dropKey
  some { s with keyAllowed := false, finished := true }

/-- A line that starts or ends a document. -/
def marker (s : Scanner) (t : Token) : Option Scanner := do
  let s ← (s.closeBlocks (-1)).dropKey
  some { s.take 3 t with keyAllowed := false }

/-- The words of a line. -/
def lineWords (line : List Char) : List String :=
  ((String.ofList (line.map fun c => if c == '\t' then ' ' else c)).splitOn " ").filter (· ≠ "")

def directive (s : Scanner) : Option Scanner := do
  let s ← (s.closeBlocks (-1)).dropKey
  let line := s.cursor.rest.takeWhile fun c => !isBreak c
  match (lineWords (line.drop 1)).takeWhile fun w => !w.startsWith "#" with
  | name :: args => some { s.take line.length (.directive name args) with keyAllowed := false }
  | [] => none

def flowStart (s : Scanner) (t : Token) : Option Scanner := do
  let s ← s.saveKey
  some { s.take 1 t with flow := s.flow + 1, keys := none :: s.keys, keyAllowed := true }

def flowEnd (s : Scanner) (t : Token) : Option Scanner := do
  let s ← s.dropKey
  let s := if s.inFlow then { s with flow := s.flow - 1, keys := s.keys.drop 1 } else s
  some { s.take 1 t with keyAllowed := false }

def flowEntry (s : Scanner) : Option Scanner := do
  let s ← s.dropKey
  some { s.take 1 .flowEntry with keyAllowed := true }

/-- A dash or question mark in a block, which opens one of its kind. -/
def blockMark (s : Scanner) (opens t : Token) : Option Scanner := do
  let s ← if s.inFlow then some s
    else if s.keyAllowed then some (s.openBlock s.cursor.column s.tokens.length opens)
    else none
  let s ← s.dropKey
  some (s.take 1 t)

/-- A colon: either a key stood before it, or it stands alone. -/
def valueMark (s : Scanner) : Option Scanner :=
  match s.keys with
  | some k :: keys =>
    let s := { s with
      tokens := s.tokens.take k.number ++ [Token.key] ++ s.tokens.drop k.number
      keys := none :: keys }
    let s := s.openBlock k.column k.number .mappingStart
    some { s.take 1 .value with keyAllowed := false }
  | _ =>
    if s.inFlow then some { s.take 1 .value with keyAllowed := false }
    else if s.keyAllowed then
      let s := s.openBlock s.cursor.column s.tokens.length .mappingStart
      some { s.take 1 .value with keyAllowed := true }
    else none

def isNameChar (c : Char) : Bool := c.isAlphanum || c == '_' || c == '-'

/-- A name after a mark. -/
def named (s : Scanner) (t : String → Token) : Option Scanner := do
  let s ← s.saveKey
  let name := (s.cursor.rest.drop 1).takeWhile isNameChar
  let after := s.cursor.skipMany (name.length + 1)
  if name.isEmpty || !(after.blankAt 0 || after.rest.head?.any fun c => "?:,]\x7d%@\x60".toList.contains c) then none
  else some { s.emit (t (String.ofList name)) with cursor := after, keyAllowed := false }

def isTagChar (c : Char) : Bool := c.isAlphanum || "-_;/?:@&=+$.!~*'()%".toList.contains c

def tag (s : Scanner) : Option Scanner := do
  let s ← s.saveKey
  let text ←
    if s.cursor.startsWith "!<" then do
      let inner := (s.cursor.rest.drop 2).takeWhile fun c => isTagChar c || ",[]".toList.contains c
      if inner.isEmpty || (s.cursor.rest.drop (inner.length + 2)).head? != some '>' then none
      else some ("!<".toList ++ inner ++ ['>'])
    else some ('!' :: (s.cursor.rest.drop 1).takeWhile isTagChar)
  let after := s.cursor.skipMany text.length
  if after.blankAt 0 || (s.inFlow && after.rest.head? == some ',') then
    some { s.emit (.tag (String.ofList text)) with cursor := after, keyAllowed := false }
  else none

def blockScalar (s : Scanner) (literal : Bool) : Option Scanner := do
  let s ← s.dropKey
  let (text, c) ← block literal s.indent s.cursor.skip
  some { s.emit (.scalar (String.ofList text) false) with cursor := c, keyAllowed := true }

def quotedScalar (s : Scanner) (quote : Char) : Option Scanner := do
  let s ← s.saveKey
  let (text, c) ← quoted quote (s.cursor.rest.length + 1) s.cursor.skip
  some { s.emit (.scalar (String.ofList text) false) with cursor := c, keyAllowed := false }

def plainScalar (s : Scanner) : Option Scanner := do
  let s ← s.saveKey
  let (text, broken, c) ← plain s.inFlow (s.indent + 1).toNat (s.cursor.rest.length + 1) s.cursor {}
  some { s.emit (.scalar (String.ofList text) true) with cursor := c, keyAllowed := broken }

def startsPlain (s : Scanner) (ch : Char) : Bool :=
  (!isBlank ch && !"-?:,[]\x7b\x7d#&*!|>'\"%@\x60".toList.contains ch) ||
    (ch == '-' && !(s.cursor.rest.drop 1).head?.any isBlank) ||
    (!s.inFlow && (ch == '?' || ch == ':') && !s.cursor.blankAt 1)

/-- Reads the next token. -/
def next (s : Scanner) : Option Scanner := do
  let s := s.skipToToken (s.cursor.rest.length + 1)
  let s ← s.dropStale
  let s := s.closeBlocks s.cursor.column
  let spaced := s.inFlow || s.cursor.blankAt 1
  match s.cursor.rest with
  | [] => s.streamEnd
  | ch :: _ =>
    if s.cursor.column == 0 && ch == '%' then s.directive
    else if s.cursor.atMarker then s.marker (if ch == '-' then .documentStart else .documentEnd)
    else if ch == '[' then s.flowStart .flowSequenceStart
    else if ch == '\x7b' then s.flowStart .flowMappingStart
    else if ch == ']' then s.flowEnd .flowSequenceEnd
    else if ch == '\x7d' then s.flowEnd .flowMappingEnd
    else if ch == ',' then s.flowEntry
    else if ch == '-' && s.cursor.blankAt 1 then do
      some { ← s.blockMark .sequenceStart .blockEntry with keyAllowed := true }
    else if ch == '?' && spaced then do
      some { ← s.blockMark .mappingStart .key with keyAllowed := !s.inFlow }
    else if ch == ':' && spaced then s.valueMark
    else if ch == '*' then s.named .alias
    else if ch == '&' then s.named .anchor
    else if ch == '!' then s.tag
    else if ch == '|' && !s.inFlow then s.blockScalar true
    else if ch == '>' && !s.inFlow then s.blockScalar false
    else if ch == '\'' || ch == '"' then s.quotedScalar ch
    else if s.startsPlain ch then s.plainScalar
    else none

/-- Reads tokens until the text ends. -/
def run : (fuel : Nat) → Scanner → Option Scanner
  | 0, _ => none
  | fuel + 1, s => if s.finished then some s else s.next >>= run fuel

end Scanner

/-- Characters that a text may have. -/
def isAllowed (c : Char) : Bool :=
  let n := c.toNat
  c == '\t' || c == '\n' || c == '\x0d' || n == 0x85 || (0x20 ≤ n && n ≤ 0x7E) || (0xA0 ≤ n && n ≤ 0xFFFD && n != 0xFEFF) ||
    0x10000 ≤ n

/-- The tokens of a text. -/
def tokens? (text : String) : Option (List Token) :=
  let cs := text.toList
  let body := if cs.head? == some '\ufeff' then cs.drop 1 else cs
  if body.all isAllowed then (Scanner.run (body.length + 2) ⟨⟨body, 0, 0, 0⟩, [], 0, -1, [], true, [none], false⟩).map Scanner.tokens
  else none

end PigChain.Yaml
