/-!
# Scalars of a YAML text

A cursor goes through the text and knows its line and column. A scalar is written plainly, between quotes, or
as a block of lines. Where a plain or quoted scalar goes on over line ends, one line end is a space and more of
them are one line end less.
-/

namespace PigChain.Yaml

/-- A place in a text and what follows it. -/
structure Cursor where
  rest : List Char
  index : Nat := 0
  line : Nat := 0
  column : Nat := 0

def isBreak (c : Char) : Bool :=
  c == '\n' || c == '\x0d' || c == '\x85' || c == '\u2028' || c == '\u2029'

def isBlank (c : Char) : Bool := c == ' ' || c == '\t'

namespace Cursor

/-- Passes over one character of a line. -/
def skip (c : Cursor) : Cursor :=
  { c with rest := c.rest.drop 1, index := c.index + 1, column := c.column + 1 }

def skipMany (c : Cursor) (n : Nat) : Cursor :=
  { c with rest := c.rest.drop n, index := c.index + n, column := c.column + n }

/-- Passes over a line end and gives the text it stands for. -/
def newline (c : Cursor) : List Char × Cursor :=
  match c.rest with
  | [] => ([], c)
  | '\x0d' :: '\n' :: rest => (['\n'], ⟨rest, c.index + 2, c.line + 1, 0⟩)
  | b :: rest =>
    ([if b == '\u2028' || b == '\u2029' then b else '\n'], ⟨rest, c.index + 1, c.line + 1, 0⟩)

/-- Whether the text has a blank or a line end, or is over, `n` characters ahead. -/
def blankAt (c : Cursor) (n : Nat) : Bool :=
  match (c.rest.drop n).head? with
  | none => true
  | some ch => isBlank ch || isBreak ch

/-- Whether the next line end or the end of the text is here. -/
def atLineEnd (c : Cursor) : Bool :=
  match c.rest with
  | [] => true
  | ch :: _ => isBreak ch

def startsWith (c : Cursor) (s : String) : Bool := s.toList.isPrefixOf c.rest

/-- Whether a line that starts or ends a document is here. -/
def atMarker (c : Cursor) : Bool :=
  c.column == 0 && (c.startsWith "---" || c.startsWith "...") && c.blankAt 3

/-- Passes over characters as long as they satisfy `p`. -/
def skipWhile (p : Char → Bool) (c : Cursor) : Cursor := c.skipMany (c.rest.takeWhile p).length

end Cursor

/-! ### Gaps -/

/-- Blanks and line ends between two parts of a scalar. -/
structure Gap where
  /-- Whether there was a line end. -/
  broken : Bool := false
  blanks : List Char := []
  first : List Char := []
  more : List Char := []

/-- What a gap stands for. -/
def Gap.text (g : Gap) : List Char :=
  if g.broken then
    if g.first = ['\n'] then (if g.more.isEmpty then [' '] else g.more) else g.first ++ g.more
  else g.blanks

/-- Reads a gap. With an indentation, a tab before it at the start of a line is an error. -/
def readGap (indent : Option Nat) : (fuel : Nat) → Cursor → Gap → Option (Gap × Cursor)
  | 0, c, g => some (g, c)
  | fuel + 1, c, g =>
    match c.rest with
    | [] => some (g, c)
    | ch :: _ =>
      if isBlank ch then
        if g.broken && ch == '\t' && indent.any (c.column < ·) then none
        else readGap indent fuel c.skip (if g.broken then g else { g with blanks := g.blanks ++ [ch] })
      else if isBreak ch then
        let (text, c) := c.newline
        readGap indent fuel c
          (if g.broken then { g with more := g.more ++ text } else { broken := true, first := text })
      else some (g, c)

/-! ### Plain scalars -/

def isFlowMark (c : Char) : Bool := ",[]\x7b\x7d".toList.contains c

/-- Whether a plain scalar ends here. -/
def endsPlain (flow : Bool) (c : Cursor) : Bool :=
  match c.rest with
  | [] => true
  | ch :: _ => isBlank ch || isBreak ch || (ch == ':' && c.blankAt 1) || (flow && isFlowMark ch)

/-- Whether a colon stands where a flow collection cannot have one. -/
def strayColon (flow : Bool) (c : Cursor) : Bool :=
  flow && c.rest.head? == some ':' && ((c.rest.drop 1).head?.any fun ch => isFlowMark ch || ch == '?')

/-- Characters up to a blank or the end of the scalar. -/
def plainPart (flow : Bool) : (fuel : Nat) → Cursor → Option (List Char × Cursor)
  | 0, c => some ([], c)
  | fuel + 1, c =>
    if strayColon flow c then none
    else if endsPlain flow c then some ([], c)
    else do
      let (text, c') ← plainPart flow fuel c.skip
      some (c.rest.take 1 ++ text, c')

/-- A plain scalar of lines indented by at least `indent`, and whether it ended after a line end. -/
def plain (flow : Bool) (indent : Nat) : (fuel : Nat) → Cursor → Gap → Option (List Char × Bool × Cursor)
  | 0, c, g => some ([], g.broken, c)
  | fuel + 1, c, g =>
    if c.atMarker || c.rest.head? == some '#' then some ([], g.broken, c)
    else do
      let (part, c) ← plainPart flow c.rest.length c
      let before := if part.isEmpty then [] else g.text ++ part
      let g := if part.isEmpty then g else {}
      if c.rest.head?.any fun ch => isBlank ch || isBreak ch then
        let (g, c) ← readGap (some indent) c.rest.length c g
        if !flow && c.column < indent then some (before, g.broken, c)
        else
          let (text, broken, c) ← plain flow indent fuel c g
          some (before ++ text, broken, c)
      else some (before, g.broken, c)

/-! ### Quoted scalars -/

def hexValue? (c : Char) : Option Nat :=
  if c.isDigit then some (c.toNat - 48)
  else if 'a' ≤ c && c ≤ 'f' then some (c.toNat - 87)
  else if 'A' ≤ c && c ≤ 'F' then some (c.toNat - 55)
  else none

/-- A character by its number in hexadecimal, with the length of the escape. -/
def numbered? (length : Nat) (cs : List Char) : Option (Char × Nat) := do
  let digits := cs.take length
  if digits.length < length then none
  else
    let n ← digits.foldlM (fun n c => (hexValue? c).map (n * 16 + ·)) 0
    if n.isValidChar then some (Char.ofNat n, length + 2) else none

/-- What follows a backslash: the character it stands for and the length of the escape. -/
def escape? : List Char → Option (Char × Nat)
  | '0' :: _ => some ('\x00', 2)
  | 'a' :: _ => some ('\x07', 2)
  | 'b' :: _ => some ('\x08', 2)
  | 't' :: _ | '\t' :: _ => some ('\t', 2)
  | 'n' :: _ => some ('\n', 2)
  | 'v' :: _ => some ('\x0b', 2)
  | 'f' :: _ => some ('\x0c', 2)
  | 'r' :: _ => some ('\x0d', 2)
  | 'e' :: _ => some ('\x1b', 2)
  | ' ' :: _ => some (' ', 2)
  | '"' :: _ => some ('"', 2)
  | '/' :: _ => some ('/', 2)
  | '\\' :: _ => some ('\\', 2)
  | 'N' :: _ => some ('\x85', 2)
  | '_' :: _ => some ('\xa0', 2)
  | 'L' :: _ => some ('\u2028', 2)
  | 'P' :: _ => some ('\u2029', 2)
  | 'x' :: cs => numbered? 2 cs
  | 'u' :: cs => numbered? 4 cs
  | 'U' :: cs => numbered? 8 cs
  | _ => none

/-- Characters up to a blank, a line end or the closing quote, and whether a line end was escaped. -/
def quotedPart (quote : Char) : (fuel : Nat) → Cursor → Option (List Char × Bool × Cursor)
  | 0, c => some ([], false, c)
  | fuel + 1, c =>
    match c.rest with
    | [] => some ([], false, c)
    | ch :: rest =>
      if isBlank ch || isBreak ch then some ([], false, c)
      else if ch == quote then
        if quote == '\'' && rest.head? == some '\'' then do
          let (text, escaped, c) ← quotedPart quote fuel (c.skipMany 2)
          some ('\'' :: text, escaped, c)
        else some ([], false, c)
      else if ch == '\\' && quote == '"' then
        if rest.head?.any isBreak then some ([], true, c.skip.newline.2)
        else do
          let (x, length) ← escape? rest
          let (text, escaped, c) ← quotedPart quote fuel (c.skipMany length)
          some (x :: text, escaped, c)
      else do
        let (text, escaped, c) ← quotedPart quote fuel c.skip
        some (ch :: text, escaped, c)

/-- What stands between two quotes; the cursor is past the first of them. -/
def quoted (quote : Char) : (fuel : Nat) → Cursor → Option (List Char × Cursor)
  | 0, _ => none
  | fuel + 1, c =>
    if c.atMarker || c.rest.isEmpty then none
    else do
      let (part, escaped, c) ← quotedPart quote c.rest.length c
      if c.rest.head? == some quote then some (part, c.skip)
      else
        let (g, c) ← readGap none c.rest.length c { broken := escaped }
        let (text, c) ← quoted quote fuel c
        some (part ++ g.text ++ text, c)

/-! ### Blocks of lines -/

/-- What is kept of the line ends after a block. -/
inductive Chomp where
  | strip | clip | keep
  deriving DecidableEq

def chomp? : Char → Option Chomp
  | '+' => some .keep
  | '-' => some .strip
  | _ => none

def increment? (c : Char) : Option Nat := if '1' ≤ c && c ≤ '9' then some (c.toNat - 48) else none

/-- The header of a block after its mark: chomping and indentation in either order. -/
def blockHeader? (c : Cursor) : Option (Chomp × Option Nat × Cursor) :=
  let next (c : Cursor) : Char := c.rest.headD ' '
  let (chomp, increment, c) :=
    match chomp? (next c) with
    | some ch =>
      let c := c.skip
      match increment? (next c) with
      | some n => (ch, some n, c.skip)
      | none => (ch, none, c)
    | none =>
      match increment? (next c) with
      | some n =>
        let c := c.skip
        match chomp? (next c) with
        | some ch => (ch, some n, c.skip)
        | none => (.clip, some n, c)
      | none => (.clip, none, c)
  let c := c.skipWhile isBlank
  let c := if c.rest.head? == some '#' then c.skipWhile fun ch => !isBreak ch else c
  if c.atLineEnd then some (chomp, increment, c.newline.2) else none

/-- Empty lines before a line of a block. An indentation of 0 is not known yet: the widest of these lines is
found on the way. -/
def blockGap (indent : Nat) : (fuel : Nat) → (widest : Nat) → Cursor → Option (List Char × Nat × Cursor)
  | 0, widest, c => some ([], widest, c)
  | fuel + 1, widest, c =>
    let spaces := (c.rest.takeWhile (· == ' ')).length
    let c := c.skipMany (if indent = 0 then spaces else min spaces (indent - c.column))
    let widest := max widest c.column
    match c.rest with
    | [] => some ([], widest, c)
    | ch :: _ =>
      if ch == '\t' && (indent = 0 || c.column < indent) then none
      else if isBreak ch then do
        let (b, c) := c.newline
        let (more, widest, c) ← blockGap indent fuel widest c
        some (b ++ more, widest, c)
      else some ([], widest, c)

/-- The lines of a block, `last` being the line end before and `gap` the empty lines after it. -/
def blockLines (literal : Bool) (indent : Nat) : (fuel : Nat) → (last gap : List Char) → (blank : Bool) → Cursor →
    Option (List Char × List Char × List Char × Cursor)
  | 0, last, gap, _, c => some ([], last, gap, c)
  | fuel + 1, last, gap, blank, c =>
    match c.rest with
    | [] => some ([], last, gap, c)
    | ch :: _ =>
      if c.column ≠ indent then some ([], last, gap, c)
      else do
        let starts := isBlank ch
        let joined :=
          if !literal && last = ['\n'] && !blank && !starts then (if gap.isEmpty then [' '] else []) else last
        let line := c.rest.takeWhile fun ch => !isBreak ch
        let (next, c) := (c.skipMany line.length).newline
        let (empty, _, c) ← blockGap indent c.rest.length 0 c
        let (text, rest) ← blockLines literal indent fuel next empty starts c
        some (joined ++ gap ++ line ++ text, rest)

/-- A block; the cursor is past its mark, and `outer` is the indentation around it. -/
def block (literal : Bool) (outer : Int) (c : Cursor) : Option (List Char × Cursor) := do
  let (chomp, increment, c) ← blockHeader? c
  let given := match increment with
    | some n => (if outer ≥ 0 then outer.toNat + n else n)
    | none => 0
  let (gap, widest, c) ← blockGap given (c.rest.length + 1) 0 c
  let indent := if given = 0 then max widest (max (outer + 1).toNat 1) else given
  let (text, last, gap, c) ← blockLines literal indent (c.rest.length + 1) [] gap false c
  some (text ++ (if chomp = .strip then [] else last) ++ (if chomp = .keep then gap else []), c)

end PigChain.Yaml
