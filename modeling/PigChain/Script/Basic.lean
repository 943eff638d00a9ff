import PigChain.Script.Term

/-!
# Scripts

A script is a list of statements, each of which defines one relation from relations before it, and the
relation that is its result. Its text names the relations and ends with what is done with the result.
-/

namespace PigChain

/-- A column that a statement generates, under a new name if it has one. -/
structure Item where
  term : Term
  alias? : Option String

/-- The definition of a relation. Inputs are given by their numbers. -/
inductive Statement where
  | load (name : String)
  | filter (input : Nat) (predicate : Term)
  | generate (input : Nat) (items : List Item)
  | groupAll (input : Nat)
  | groupBy (input : Nat) (keys : List Term)
  | order (input : Nat) (keys : List (Term × Direction))
  | limit (input : Nat) (count : UInt64)

/-- Statements in order, and the number of the relation that is the result. -/
structure Script where
  statements : List Statement
  result : Nat

/-- What is done with the result. -/
inductive Terminal where
  | dump
  | store (path : String)
  deriving DecidableEq, Repr

/-- How a script is written. -/
structure RenderOptions where
  terminal : Terminal := .dump
  /-- Placed between statements. -/
  separator : String := " "
  deriving DecidableEq, Repr

def Item.render (i : Item) : String :=
  match i.alias? with
  | none => i.term.render
  | some a => i.term.render ++ " AS " ++ a

def Direction.keyword : Direction → String
  | .ascending => "ASC"
  | .descending => "DESC"

namespace Statement

/-- Texts with commas between them. -/
def commas (texts : List String) : String := ", ".intercalate texts

/-- The text after `BY`: several keys, or none, stand between parentheses. -/
def keyList : List String → String
  | [k] => k
  | ks => "(" ++ commas ks ++ ")"

/-- The text of a statement without the name that it defines. -/
def render : Statement → String
  | .load name => "LOAD " ++ quote name
  | .filter r p => "FILTER " ++ Alias.name r ++ " BY " ++ p.render
  | .generate r items => "FOREACH " ++ Alias.name r ++ " GENERATE " ++ commas (items.map Item.render)
  | .groupAll r => "GROUP " ++ Alias.name r ++ " ALL"
  | .groupBy r keys => "GROUP " ++ Alias.name r ++ " BY " ++ keyList (keys.map Term.render)
  | .order r keys =>
    "ORDER " ++ Alias.name r ++ " BY " ++ commas (keys.map fun (k, d) => k.render ++ " " ++ d.keyword)
  | .limit r count => "LIMIT " ++ Alias.name r ++ " " ++ toString count.toNat

end Statement

namespace Terminal

def render (result : Nat) : Terminal → String
  | .dump => "DUMP " ++ Alias.name result
  | .store path => "STORE " ++ Alias.name result ++ " INTO " ++ quote path

end Terminal

namespace Script

/-- The texts of definitions, the first of which defines the `n`-th relation. -/
def definitions (n : Nat) : List Statement → List String
  | [] => []
  | s :: ss => (Alias.name n ++ " = " ++ s.render) :: definitions (n + 1) ss

/-- The statements of a script as texts, the terminal one last. -/
def lines (s : Script) (terminal : Terminal) : List String :=
  definitions 0 s.statements ++ [terminal.render s.result]

/-- The text of a script. -/
def render (s : Script) (options : RenderOptions) : String :=
  options.separator.intercalate ((s.lines options.terminal).map (· ++ ";"))

end Script

end PigChain
