import PigChain.Compile
import PigChain.Query.Host

/-!
# Providers

A provider runs chains against one data source: the chain is compiled, its script is sent, and the rows that
come back are projected. Nothing is sent if the chain does not compile, and nothing is kept between two runs.
-/

namespace PigChain

/-- A row as a source answers it: one JSON value for each column. -/
abbrev RawRow := List Json

/-- Something that runs scripts. -/
structure DataSource where
  /-- The name by which a script loads it. -/
  name : String
  /-- The rows it answers to a script, or why it fails. -/
  answer : String → Traced String (List RawRow)

/-- A source that answers every script in the same way. -/
def DataSource.fixed (name : String) (answer : Except String (List RawRow)) : DataSource :=
  ⟨name, fun _ => .silent answer⟩

/-- What a query cannot be used for. -/
inductive QueryFault where
  | notQuery (found : DataType)
  | elementType (found expected : DataType)
  | manyElements (count : Nat)
  deriving DecidableEq

def QueryFault.message : QueryFault → String
  | .notQuery found => s!"chain of type {found.text} is not a query"
  | .elementType found expected => s!"chain yields {found.text}, expected {expected.text}"
  | .manyElements count => s!"sequence contains {count} elements, expected at most one"

/-- Why a query gave no result. -/
inductive QueryError where
  | chain (error : Error)
  | argument (fault : QueryFault)
  /-- A row is not a value of the host type. -/
  | decode
  /-- The source failed. -/
  | executor (message : String)
  deriving DecidableEq

def QueryError.message : QueryError → String
  | .chain e => e.message
  | .argument fault => s!"Invalid argument: {fault.message}"
  | .decode => "Failed to decode result"
  | .executor message => message

/-- A run: what it noted, the scripts it sent, and its outcome. -/
structure Run (α : Type) where
  events : List Event
  sent : List String
  outcome : Except QueryError α

/-- A run whose outcome is worked on further. -/
def Run.andThen {α β : Type} (r : Run α) (f : α → Except QueryError β) : Run β :=
  ⟨r.events, r.sent, r.outcome.bind f⟩

/-- The projected values of one execution. -/
inductive QueryResult where
  | sequence (values : List Json)
  /-- At most one value. -/
  | single (value : Option Json)

def QueryResult.values : QueryResult → List Json
  | .sequence vs => vs
  | .single v => v.toList

/-- The result of a chain of some cardinality with these values. -/
def QueryResult.ofValues : Cardinality → List Json → QueryResult
  | .many, vs => .sequence vs
  | .single, vs => .single vs.head?

/-- A data source and the way its scripts are written. -/
structure Provider where
  source : DataSource
  options : RenderOptions := {}

namespace Provider

def origin : String := "oinq_exec::provider"

/-- The text of the script of a chain, without running it. -/
def render (p : Provider) (chain : Expr) : Except QueryError String :=
  ((chain.compile p.options).outcome.map Compiled.text).mapError .chain

/-- The projected values of raw rows. -/
def project (c : Compiled) (rows : List RawRow) : Except QueryError QueryResult :=
  ((rows.mapM c.projector.project).map (.ofValues c.cardinality)).mapError .chain

/-- Runs a chain. -/
def execute (p : Provider) (chain : Expr) : Run QueryResult :=
  let compiled := chain.compile p.options
  match compiled.outcome with
  | .error e => ⟨compiled.events, [], .error (.chain e)⟩
  | .ok c =>
    let answered := p.source.answer c.text
    let events := compiled.events ++ [⟨.debug, origin, "Rendered Pig Latin", [("text", .shown c.text)]⟩] ++
      answered.events
    match answered.outcome with
    | .error failure =>
      ⟨events ++ [⟨.warn, origin, "Data source execution failed",
          [("source", .text p.source.name), ("chain", .shown chain.fingerprint), ("error", .shown failure)]⟩],
        [c.text], .error (.executor failure)⟩
    | .ok rows =>
      ⟨events ++ [⟨.info, origin, "Executed query",
          [("source", .text p.source.name), ("rows", .number rows.length)]⟩],
        [c.text], project c rows⟩

/-- A value as one of a host type. -/
def decode (host : HostType) (j : Json) : Except QueryError Json :=
  match host.decode? j with
  | some v => .ok v
  | none => .error .decode

/-- A value that may be absent as one of a host type. -/
def decodeOption (host : HostType) : Option Json → Except QueryError (Option Json)
  | none => .ok none
  | some j => (decode host j).map some

/-- Runs a chain and decodes every value. -/
def executeAs (p : Provider) (host : HostType) (chain : Expr) : Run (List Json) :=
  (p.execute chain).andThen fun r => r.values.mapM (decode host)

/-- Runs a chain and decodes the first value, if there is one. -/
def executeFirst (p : Provider) (host : HostType) (chain : Expr) : Run (Option Json) :=
  (p.execute chain).andThen fun r => decodeOption host r.values.head?

/-- Runs a chain that yields at most one value, and decodes it. -/
def executeOnly (p : Provider) (host : HostType) (chain : Expr) : Run (Option Json) :=
  (p.execute chain).andThen fun r =>
    match r.values with
    | [] => .ok none
    | [v] => decodeOption host (some v)
    | vs => .error (.argument (.manyElements vs.length))

end Provider

end PigChain
