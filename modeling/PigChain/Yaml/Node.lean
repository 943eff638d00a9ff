import PigChain.Yaml.Token

/-!
# YAML documents

A document is a tree of scalars, sequences and mappings. An alias stands for the node that carries its name.
-/

namespace PigChain.Yaml

inductive Node where
  /-- Text, whether it is written plainly, and its tag. -/
  | scalar (text : String) (plain : Bool) (tag : Option String)
  | sequence (items : List Node)
  | mapping (pairs : List (Node × Node))

/-- A scalar that is not there. -/
def Node.empty : Node := .scalar "" true none

/-- Reading in progress: the tokens left and the nodes with names. -/
structure Reading where
  tokens : List Token
  anchors : List (String × Node) := []
  /-- Declared shorthands of tags. -/
  handles : List String := []

abbrev Reader := StateT Reading Option

namespace Reader

def peek : Reader (Option Token) := do return (← get).tokens.head?

def advance : Reader Unit := modify fun r => { r with tokens := r.tokens.drop 1 }

/-- Whether the next token is one of these; the end of the text counts as none. -/
def nextIs (ts : List Token) : Reader Bool := do
  match ← peek with
  | some t => return ts.contains t
  | none => return false

/-- Passes over a token that has to be there. -/
def expect (t : Token) : Reader Unit := do
  if ← nextIs [t] then advance else failure

/-- Passes over a token if it is there. -/
def accept (t : Token) : Reader Bool := do
  if ← nextIs [t] then
    advance
    return true
  else return false

/-- A tag with a shorthand that is declared, if it has one. -/
def checkTag (text : String) : Reader String := do
  match (text.splitOn "!") with
  | ["", handle, _] => if handle = "" || (← get).handles.contains handle then return text else failure
  | _ => return text

def anchor? : Reader (Option String) := do
  match ← peek with
  | some (.anchor name) =>
    advance
    return some name
  | _ => return none

def tag? : Reader (Option String) := do
  match ← peek with
  | some (.tag text) =>
    advance
    return some (← checkTag text)
  | _ => return none

/-- Name and tag before a node, in either order. -/
def properties : Reader (Option String × Option String) := do
  match ← anchor? with
  | some name => return (some name, ← tag?)
  | none =>
    let tag ← tag?
    return (← anchor?, tag)

mutual

/-- A node. In a block, collections may be indented, and a sequence may stand at the indentation of its key. -/
def node : (fuel : Nat) → (inBlock sameIndent : Bool) → Reader Node
  | 0, _, _ => failure
  | fuel + 1, inBlock, sameIndent => do
    if let some (.alias name) ← peek then
      advance
      match (← get).anchors.lookup name with
      | some n => return n
      | none => failure
    let (name, tag) ← properties
    let n ← content fuel inBlock sameIndent (name.isSome || tag.isSome) tag
    if let some name := name then modify fun r => { r with anchors := (name, n) :: r.anchors }
    return n

/-- A node without its name and tag; after one of them it may be missing. -/
def content : (fuel : Nat) → (inBlock sameIndent marked : Bool) → (tag : Option String) → Reader Node
  | 0, _, _, _, _ => failure
  | fuel + 1, inBlock, sameIndent, marked, tag => do
    match ← peek with
    | some (.scalar text plain) =>
      advance
      return .scalar text plain tag
    | some .flowSequenceStart =>
      advance
      return .sequence (← flowItems fuel true)
    | some .flowMappingStart =>
      advance
      return .mapping (← flowPairs fuel true)
    | some .sequenceStart =>
      if inBlock then
        advance
        return .sequence (← blockItems fuel)
      else failure
    | some .mappingStart =>
      if inBlock then
        advance
        return .mapping (← blockPairs fuel)
      else failure
    | some .blockEntry =>
      if sameIndent then return .sequence (← looseItems fuel)
      else if marked then return .scalar "" true tag
      else failure
    | _ => if marked then return .scalar "" true tag else failure

/-- A node, or nothing before one of these tokens. -/
def nodeUnless : (fuel : Nat) → (inBlock sameIndent : Bool) → (stops : List Token) → Reader Node
  | 0, _, _, _ => failure
  | fuel + 1, inBlock, sameIndent, stops => do
    if ← nextIs stops then return .empty else node fuel inBlock sameIndent

def blockItems : (fuel : Nat) → Reader (List Node)
  | 0 => failure
  | fuel + 1 => do
    if ← accept .blockEntry then
      let n ← nodeUnless fuel true false [.blockEntry, .blockEnd]
      return n :: (← blockItems fuel)
    else
      expect .blockEnd
      return []

/-- Entries of a sequence at the indentation of the key before it. -/
def looseItems : (fuel : Nat) → Reader (List Node)
  | 0 => failure
  | fuel + 1 => do
    if ← accept .blockEntry then
      let n ← nodeUnless fuel true false [.blockEntry, .key, .value, .blockEnd]
      return n :: (← looseItems fuel)
    else return []

def blockPairs : (fuel : Nat) → Reader (List (Node × Node))
  | 0 => failure
  | fuel + 1 => do
    if ← accept .key then
      let k ← nodeUnless fuel true true [.key, .value, .blockEnd]
      let v ← if ← accept .value then nodeUnless fuel true true [.key, .value, .blockEnd] else pure .empty
      return (k, v) :: (← blockPairs fuel)
    else
      expect .blockEnd
      return []

/-- The value after a key in a flow collection that ends with `close`. -/
def flowValue : (fuel : Nat) → (close : Token) → Reader Node
  | 0, _ => failure
  | fuel + 1, close => do
    if ← accept .value then nodeUnless fuel false false [.flowEntry, close] else return .empty

def flowItems : (fuel : Nat) → (first : Bool) → Reader (List Node)
  | 0, _ => failure
  | fuel + 1, first => do
    if ← accept .flowSequenceEnd then return []
    if !first then expect .flowEntry
    if ← accept .flowSequenceEnd then return []
    let n ←
      if ← accept .key then do
        let k ← nodeUnless fuel false false [.value, .flowEntry, .flowSequenceEnd]
        let v ← flowValue fuel .flowSequenceEnd
        pure (.mapping [(k, v)])
      else node fuel false false
    return n :: (← flowItems fuel false)

def flowPairs : (fuel : Nat) → (first : Bool) → Reader (List (Node × Node))
  | 0, _ => failure
  | fuel + 1, first => do
    if ← accept .flowMappingEnd then return []
    if !first then expect .flowEntry
    if ← accept .flowMappingEnd then return []
    let pair ←
      if ← accept .key then do
        let k ← nodeUnless fuel false false [.value, .flowEntry, .flowMappingEnd]
        pure (k, ← flowValue fuel .flowMappingEnd)
      else do pure (← node fuel false false, Node.empty)
    return pair :: (← flowPairs fuel false)

end

/-- The lines before a document. -/
def directives : (fuel : Nat) → Reader Bool
  | 0 => failure
  | fuel + 1 => do
    match ← peek with
    | some (.directive "YAML" [version]) =>
      if version = "1.1" || version = "1.2" then
        advance
        let _ ← directives fuel
        return true
      else failure
    | some (.directive "TAG" [handle, _]) =>
      advance
      modify fun r => { r with handles := String.ofList (handle.toList.filter (· != '!')) :: r.handles }
      let _ ← directives fuel
      return true
    | some (.directive ..) => failure
    | _ => return false

/-- Passes over lines that end a document. -/
def documentEnds : (fuel : Nat) → Reader Unit
  | 0 => pure ()
  | fuel + 1 => do if ← accept .documentEnd then documentEnds fuel else pure ()

/-- A text of at most one document, `none` if there is none. -/
def stream (fuel : Nat) : Reader (Option Node) := do
  if (← peek).isNone then return none
  let declared ← directives fuel
  let explicit ← accept .documentStart
  if declared && !explicit then failure
  let n ←
    if explicit && ((← peek).isNone || (← nextIs [.documentStart, .documentEnd])) then pure Node.empty
    else node fuel true false
  documentEnds fuel
  if (← peek).isSome then failure
  return some n

end Reader

/-- Reads a text of at most one document; the inner `none` is a text without one. -/
def parse? (text : String) : Option (Option Node) := do
  let ts ← tokens? text
  let (n, _) ← (Reader.stream (8 * ts.length + 8)).run { tokens := ts }
  some n

end PigChain.Yaml
