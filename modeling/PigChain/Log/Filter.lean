import PigChain.Text.Blank
import PigChain.Trace

/-!
# Log filters

A filter is a list of directives with commas between them: a level, a target, or a target and a level. After the
target a span may be named, and a field. An event passes if the directive with the longest target that its origin
starts with, and whose field it has, lets its level through. A directive on spans never lets an event through that
stands in no span.
-/

namespace PigChain.Log

/-- Lets a level through if its rank is not above `rank`; 0 lets nothing through. -/
structure Directive where
  target : Option String
  rank : Nat
  /-- A field that the event must have. -/
  field : Option String := none
  /-- Whether it is about spans only. -/
  onSpans : Bool := false
  deriving DecidableEq, Repr

/-- The number that digits write, after a plus sign or not. -/
def number? (cs : List Char) : Option Nat :=
  let digits := if cs.head? = some '+' then cs.tail else cs
  if digits.isEmpty || !digits.all Char.isDigit then none
  else some (digits.foldl (fun n c => 10 * n + (c.toNat - 48)) 0)

/-- The rank of a level by its name in any case, or by its number. -/
def rank? (cs : List Char) : Option Nat :=
  match number? cs with
  | some n => if n ≤ 5 then some n else none
  | none =>
    match String.ofList (cs.map Char.toLower) with
    | "off" => some 0
    | "error" => some 1
    | "warn" => some 2
    | "info" => some 3
    | "debug" => some 4
    | "trace" => some 5
    | _ => none

/-- What a target may start with. -/
def startsTarget (c : Char) : Bool := c.isAlphanum || c == '_' || c == ':' || c == '-' || c.toNat ≥ 128

/-- The rank of the level after a target; without one all levels are meant. -/
def levelOf? (cs : List Char) : Option Nat := if cs.isEmpty then some 5 else rank? cs

/-- The rank after a bracket that closes before `place`; `rest` is what is seen from there on. -/
def levelAfter? (text : List Char) (place : Nat) (rest : List Char) : Option Nat :=
  match rest with
  | [] => some 5
  | '=' :: _ => levelOf? (text.drop (place + 1))
  | _ => none

/-- A directive with a bracket that opens before `place`: a span, a field between braces, or both. -/
def bracket? (target : Option String) (text seen : List Char) (place : Nat) : Option Directive :=
  let span := (seen.drop place).takeWhile fun c => c != ']' && c != '\x7b'
  let spanEnd := place + span.length
  match seen.drop spanEnd with
  | ']' :: rest =>
    (levelAfter? text (spanEnd + 1) rest).map fun rank => { target := target, rank := rank, onSpans := true }
  | '\x7b' :: inside =>
    let size := (inside.takeWhile (· != '\x7d')).length
    match inside.drop size with
    | '\x7d' :: ']' :: rest =>
      let field := (text.drop (spanEnd + 1)).take size
      if field.isEmpty then none
      else
        (levelAfter? text (spanEnd + size + 3) rest).map fun rank =>
          { target := target, rank := rank, field := some (String.ofList (field.takeWhile (· != '='))),
            onSpans := !span.isEmpty || field.contains '=' }
    | _ => none
  | _ => none

/-- The directive of a text. Its parts are looked for in the text without the blanks around it, and the places that
are found so are then counted from the start of the whole text. -/
def directive? (text : List Char) : Option Directive :=
  let seen := Text.trimChars text
  let size := (seen.takeWhile fun c => c != '=' && c != '[').length
  let target := if size = 0 then none else some (String.ofList (text.take size))
  if seen.head?.all fun c => c != '[' && !startsTarget c then none
  else
    match seen.drop size with
    | [] =>
      match rank? text with
      | some rank => some { target := none, rank := rank }
      | none => some { target := some (String.ofList text), rank := 5 }
    | '=' :: _ => (levelOf? (text.drop (size + 1))).map fun rank => { target := target, rank := rank }
    | _ => bracket? target text seen (size + 1)

/-- What is let through. -/
abbrev Filter := List Directive

/-- The parts of a text between commas that are not empty. -/
def parts (text : String) : List String := (text.splitOn ",").filter (· ≠ "")

/-- The filter of a text. Without directives only errors pass. -/
def Filter.parse? (text : String) : Option Filter := do
  let ds ← (parts text).mapM fun part => directive? part.toList
  some (if ds.isEmpty then [{ target := none, rank := 1 }] else ds)

/-- The filter of a text, or `info` if it is none. -/
def Filter.ofText (text : String) : Filter := (Filter.parse? text).getD [{ target := none, rank := 3 }]

/-- Whether an event has a field of a name. -/
def hasField (e : Event) (name : String) : Bool := name = "message" || e.fields.any fun (k, _) => k = name

def Directive.appliesTo (d : Directive) (e : Event) : Bool :=
  !d.onSpans && d.target.all (fun t => t.toList.isPrefixOf e.origin.toList) && d.field.all (hasField e)

/-- How specific a target is: the longer, the more. -/
def Directive.targetSize (d : Directive) : Nat :=
  match d.target with
  | some t => t.utf8ByteSize + 1
  | none => 0

/-- Longer targets go first, then fields in falling order, then what is given later. -/
def Directive.moreSpecific (a b : Directive) : Bool :=
  b.targetSize < a.targetSize ||
    a.targetSize = b.targetSize &&
      match a.field, b.field with
      | _, none => true
      | none, some _ => false
      | some x, some y => !(x < y)

/-- The directive that decides about an event. -/
def Filter.decisive? (f : Filter) (e : Event) : Option Directive :=
  f.foldl (fun best d =>
    if !d.appliesTo e then best
    else
      match best with
      | some b => if d.moreSpecific b then some d else best
      | none => some d) none

/-- Whether an event passes. -/
def Filter.enables (f : Filter) (e : Event) : Bool :=
  match f.decisive? e with
  | some d => e.level.rank ≤ d.rank
  | none => false

end PigChain.Log
