import PigChain.Mart.Url

/-!
# Shared addresses

Addresses that were read once are kept under the text they were read from and under their canonical spelling,
so that one address is one instance however it is spelled. An instance is told from another by its number.
-/

namespace PigChain

/-- An address that may be shared. -/
structure SharedUrl where
  url : MartUrl
  /-- Two addresses share one reading exactly if their numbers are equal. -/
  instanceId : Nat
  deriving DecidableEq, Repr

/-- Addresses by spelling. -/
structure UrlCache where
  entries : List (String × SharedUrl) := []
  /-- The number of the next instance. -/
  next : Nat := 0

namespace UrlCache

def get? (c : UrlCache) (spelling : String) : Option SharedUrl := c.entries.lookup spelling

def insert (c : UrlCache) (spelling : String) (u : SharedUrl) : UrlCache :=
  { c with entries := (spelling, u) :: c.entries }

/-- Forgets all addresses; instances already handed out stay what they are. -/
def clear (c : UrlCache) : UrlCache := { c with entries := [] }

/-- The shared instance of a canonical spelling, new if there is none. -/
def intern (c : UrlCache) (url : MartUrl) : SharedUrl × UrlCache :=
  match c.get? url.canonical with
  | some u => (u, c)
  | none =>
    let u : SharedUrl := ⟨url, c.next⟩
    (u, { c.insert url.canonical u with next := c.next + 1 })

/-- Reads an address, or finds it by its spelling. An error leaves the cache as it is. -/
def create (c : UrlCache) (text : String) : Except MartUrlError SharedUrl × UrlCache :=
  match c.get? text with
  | some u => (.ok u, c)
  | none =>
    match MartUrl.parse text with
    | .error e => (.error e, c)
    | .ok url =>
      let (u, c) := c.intern url
      (.ok u, c.insert text u)

end UrlCache

end PigChain
