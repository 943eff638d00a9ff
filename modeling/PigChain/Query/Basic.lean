import PigChain.Expr.Build
import PigChain.Query.Provider

/-!
# Queries

A query is a chain with the host type of its rows. Every combinator gives a new query over a longer chain;
nothing is compiled or run until results are asked for.
-/

namespace PigChain

/-- A chain of many rows. -/
structure Query where
  chain : Expr
  /-- What a row is decoded as. -/
  host : HostType

/-- A chain of at most one value. Its chain can stand in the lambdas of other queries. -/
structure SingleQuery where
  chain : Expr
  host : HostType

/-- A record type; any other type stands for a record without fields that is named after it. -/
def DataType.asRecord : DataType → DataType
  | .record name fields => .record name fields
  | t => .record t.text []

namespace Expr

/-- A chain by the names of its source and its combinators. -/
def summary : Expr → String
  | .constant (.source name) _ => name
  | .constant v _ => v.describe
  | .call none method (chain :: _) _ => chain.summary ++ "." ++ method
  | e => e.kind.name

end Expr

namespace Query

/-- Name of the lambda parameter that stands for the row. -/
def row : String := "r"

/-- All rows of a source. -/
def ofSource (name : String) (host : HostType) : Query := ⟨.source name host.type.asRecord, host⟩

/-- A query over an existing chain, which must yield values of the host type. -/
def ofChain (chain : Expr) (host : HostType) : Except QueryError Query :=
  match chain.type.element? with
  | none => .error (.argument (.notQuery chain.type))
  | some element =>
    if element.accepts host.type then .ok ⟨chain, host⟩
    else .error (.argument (.elementType element host.type))

/-- A lambda over the rows of a query. -/
def rowLambda (q : Query) (body : Expr) : Expr := .function1 row q.host.type body

/-- The chain extended by a combinator. -/
def extend (q : Query) (method : String) (args : List Expr) (host : HostType) : Query :=
  ⟨.function method (q.chain :: args) (.query host.type), host⟩

/-- The chain ended by a combinator that yields one value. -/
def reduce (q : Query) (method : String) (args : List Expr) (host : HostType) : SingleQuery :=
  ⟨.function method (q.chain :: args) host.type, host⟩

def filter (q : Query) (predicate : Expr) : Query := q.extend "Where" [q.rowLambda predicate] q.host

def select (q : Query) (selector : Expr) (host : HostType) : Query :=
  q.extend "Select" [q.rowLambda selector] host

def orderBy (q : Query) (key : Expr) : Query := q.extend "OrderBy" [q.rowLambda key] q.host

def orderByDescending (q : Query) (key : Expr) : Query :=
  q.extend "OrderByDescending" [q.rowLambda key] q.host

def thenBy (q : Query) (key : Expr) : Query := q.extend "ThenBy" [q.rowLambda key] q.host

def thenByDescending (q : Query) (key : Expr) : Query :=
  q.extend "ThenByDescending" [q.rowLambda key] q.host

def groupBy (q : Query) (selector : Expr) (key : HostType) : Query :=
  q.extend "GroupBy" [q.rowLambda selector] (.group key q.host)

/-- At most `count` rows; a count beyond the integers is the largest of them. -/
def take (q : Query) (count : Nat) : Query :=
  q.extend "Take" [.lit (.int (Int64.ofNat (min count 9223372036854775807)))] q.host

/-- Any combinator by its name. -/
def apply (q : Query) (method : String) (args : List Expr) : Query := q.extend method args q.host

def first (q : Query) : SingleQuery := q.reduce "First" [] q.host

def firstWhere (q : Query) (predicate : Expr) : SingleQuery :=
  q.reduce "First" [q.rowLambda predicate] q.host

def count (q : Query) : SingleQuery := q.reduce "Count" [] .int64

def sum (q : Query) (selector : Expr) (host : HostType) : SingleQuery :=
  q.reduce "Sum" [q.rowLambda selector] host

def average (q : Query) (selector : Expr) : SingleQuery := q.reduce "Average" [q.rowLambda selector] .float

def min (q : Query) (selector : Expr) (host : HostType) : SingleQuery :=
  q.reduce "Min" [q.rowLambda selector] host

def max (q : Query) (selector : Expr) (host : HostType) : SingleQuery :=
  q.reduce "Max" [q.rowLambda selector] host

/-- The text of the script. -/
def text (q : Query) (p : Provider) : Except QueryError String := p.render q.chain

/-- All rows. -/
def toList (q : Query) (p : Provider) : Run (List Json) := p.executeAs q.host q.chain

/-- The only row, if there is one. -/
def only (q : Query) (p : Provider) : Run (Option Json) := p.executeOnly q.host q.chain

/-- A query in brief. -/
def display (q : Query) : String :=
  match q.chain with
  | .constant (.source _) type =>
    match type.element? with
    | some element => s!"Query({element.text})"
    | none => "Query(?)"
  | .constant .. => "Query(?)"
  | chain => chain.summary

/-- A query with its source. -/
def describe (q : Query) (p : Provider) : String :=
  "Query \x7b source: " ++ Text.describe p.source.name ++ ", chain: " ++ Text.describe q.chain.summary ++ " \x7d"

end Query

namespace SingleQuery

def text (q : SingleQuery) (p : Provider) : Except QueryError String := p.render q.chain

/-- The value, if there is one. -/
def get (q : SingleQuery) (p : Provider) : Run (Option Json) := p.executeFirst q.host q.chain

end SingleQuery

end PigChain
