import PigChain.Mart.Url
import PigChain.Query.Basic

/-!
# Marts

A mart on a server is a data source: scripts are posted to one place on the server together with the name of
the mart. A transport carries them there.
-/

namespace PigChain

/-- Why a transport brought nothing back. -/
inductive TransportError where
  | unreachable (endpoint : String)
  | rejected (status : Nat) (message : String)
  deriving DecidableEq, Repr

def TransportError.message : TransportError → String
  | .unreachable endpoint => s!"Server {endpoint} is unreachable"
  | .rejected status message => s!"Server rejected script ({status}): {message}"

/-- Carries a script for a mart to a place, and brings back the rows. -/
abbrev Transport := (endpoint mart script : String) → Except TransportError (List RawRow)

/-- One mart on one server. -/
structure EdgeMart where
  url : MartUrl
  name : String
  /-- Where scripts are posted. -/
  endpoint : String
  deriving DecidableEq, Repr

namespace EdgeMart

/-- The place on a server where scripts are posted. -/
def endpointOf (u : MartUrl) : Except MartUrlError String :=
  match Url.parse ("http://" ++ u.host ++ ":" ++ toString u.port ++ "/remote") with
  | .ok endpoint => .ok ("http://" ++ endpoint.authority ++ "/remote")
  | .error fault => .error (.parse fault)

/-- The mart at an address, which has to name one. -/
def ofUrl (u : MartUrl) : Except MartUrlError EdgeMart :=
  match u.mart with
  | none => .error (.missingMart u.canonical)
  | some name => (endpointOf u).map fun endpoint => ⟨u, name, endpoint⟩

def connect (text : String) : Except MartUrlError EdgeMart := MartUrl.parse text >>= ofUrl

/-- The mart named after a record, unless the address names one already. -/
def forRecord (base record : String) : Except MartUrlError EdgeMart := connect (MartUrl.withMart base record)

def describe (m : EdgeMart) : String :=
  "EdgeMart \x7b name: " ++ Text.describe m.name ++ ", url: " ++ Text.describe m.url.canonical ++ " \x7d"

/-- The mart as a source of rows. -/
def source (m : EdgeMart) (transport : Transport) : DataSource where
  name := m.name
  answer script :=
    ⟨[⟨.debug, "oinq_edgespring::mart", "Sending script", [("mart", .shown m.name), ("endpoint", .shown m.endpoint)]⟩],
      (transport m.endpoint m.name script).mapError TransportError.message⟩

/-- A query over all rows of the mart. -/
def query (m : EdgeMart) (host : HostType) : Query := .ofSource m.name host

/-- The address of a request to replace a record of the mart. -/
def updateUri (m : EdgeMart) : Except MartUrlError String :=
  match Url.parse (m.url.canonical ++ "&action=update") with
  | .ok u => .ok (u.scheme ++ "://" ++ u.authority ++ (match u.query with
      | some q => "?" ++ q
      | none => ""))
  | .error fault => .error (.parse fault)

end EdgeMart

/-- A request to replace one record of a mart. -/
structure Update (α : Type) where
  mart : EdgeMart
  record : α

/-- Where the request is sent. -/
def Update.uri {α : Type} (u : Update α) : Except MartUrlError String := u.mart.updateUri

end PigChain
