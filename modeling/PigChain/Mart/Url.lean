import PigChain.Url.Basic

/-!
# Addresses of marts

`edgespring://host[:port]?edgemart=<name>`, or the same with `http` or `https`, addresses a mart on a server.
Every address has one canonical spelling: the host in lower case, the port written out, the names of the query
pairs in lower case and in order.
-/

namespace PigChain

/-- Why a text does not address a mart. -/
inductive MartUrlError where
  | parse (fault : UrlFault)
  | scheme (found : String)
  | missingHost (text : String)
  | missingMart (url : String)
  deriving DecidableEq, Repr

def MartUrlError.message : MartUrlError → String
  | .parse fault => s!"Failed to parse url: {fault.message}"
  | .scheme found => s!"Unsupported scheme '{found}', expected edgespring, http or https"
  | .missingHost text => s!"Url '{text}' has no host"
  | .missingMart url => s!"Url '{url}' does not name an EdgeMart"

/-- The address of a server and, maybe, of a mart on it. -/
structure MartUrl where
  host : String
  port : Nat
  /-- Query pairs, the names in lower case and in order. -/
  pairs : List Form.Pair
  deriving DecidableEq, Repr

namespace MartUrl

def schemes : List String := ["edgespring", "http", "https"]

def defaultPort : Nat := 8000

/-- Name of the query pair that names the mart. -/
def martKey : String := "edgemart"

/-- Text with the ASCII letters in lower case. -/
def lower (s : String) : String := String.ofList (s.toList.map Char.toLower)

/-- Pairs with their names in lower case and in order; pairs of one name keep their order. -/
def normalise (pairs : List Form.Pair) : List Form.Pair :=
  (pairs.map fun (key, value) => (lower key, value)).mergeSort fun a b => decide (a.1 ≤ b.1)

def parse (text : String) : Except MartUrlError MartUrl :=
  match Url.parse (Text.trim text) with
  | .error fault => .error (.parse fault)
  | .ok u =>
    if !schemes.contains u.scheme then .error (.scheme u.scheme)
    else
      match u.host with
      | none => .error (.missingHost text)
      | some host => .ok ⟨lower host, u.port.getD defaultPort, normalise u.pairs⟩

/-- The mart that is addressed: the first one named. -/
def mart (u : MartUrl) : Option String :=
  (u.pairs.find? fun (key, value) => key == martKey && value != "").map Prod.snd

/-- The canonical spelling. -/
def canonical (u : MartUrl) : String :=
  "edgespring://" ++ u.host ++ ":" ++ toString u.port ++
    if u.pairs.isEmpty then "" else "?" ++ Form.write u.pairs

/-- Whether a text occurs in another. -/
def occurs (part : List Char) : List Char → Bool
  | [] => part.isEmpty
  | c :: cs => part.isPrefixOf (c :: cs) || occurs part cs

/-- The text of an address with a mart named, unless the text names one already. -/
def withMart (base name : String) : String :=
  if occurs martKey.toList (lower base).toList then base
  else base ++ (if base.toList.contains '?' then "&" else "?") ++ Form.write [(martKey, name)]

end MartUrl

end PigChain
