import PigChain.Text.Blank
import PigChain.Url.Address
import PigChain.Url.Domain
import PigChain.Url.Form

/-!
# URLs

A URL is read as far as it says where to go: its scheme, host, port and query. The schemes of the web have a
host in any case, which is a domain name or an address, and may leave out their own port. Any other scheme may
do without a host, and its host is taken as it stands.
-/

namespace PigChain

/-- Why a text is no URL. -/
inductive UrlFault where
  | relative
  | emptyHost
  | port
  | fourBytes
  | eightWords
  | domainName
  | domainCharacter
  deriving DecidableEq, Repr

def UrlFault.message : UrlFault → String
  | .relative => "relative URL without a base"
  | .emptyHost => "empty host"
  | .port => "invalid port number"
  | .fourBytes => "invalid IPv4 address"
  | .eightWords => "invalid IPv6 address"
  | .domainName => "invalid international domain name"
  | .domainCharacter => "invalid domain character"

/-- Where a URL leads. -/
structure Url where
  scheme : String
  host : Option String
  /-- The port, if it is given and not the scheme's own. -/
  port : Option Nat
  /-- The text between `?` and `#`. -/
  query : Option String
  deriving DecidableEq, Repr

namespace Url

/-! ### Hosts -/

/-- An address between brackets. -/
def bracketed (cs : List Char) : Except UrlFault String :=
  if cs.getLast? ≠ some ']' then .error .eightWords
  else
    match Address.eight? (cs.drop 1).dropLast with
    | some words => .ok ("[" ++ Address.eightText words ++ "]")
    | none => .error .eightWords

/-- The host of a web scheme: escapes are read, then it is an address or a domain name. -/
def webHost (cs : List Char) : Except UrlFault String :=
  if cs.head? = some '[' then bracketed cs
  else
    let decoded := Utf8.decode (Form.unescape (Utf8.encode cs))
    match Domain.toAscii? decoded with
    | none => .error .domainName
    | some [] => .error .emptyHost
    | some name =>
      if Address.endsInNumber name then
        match Address.four? name with
        | some n => .ok (Address.fourText n)
        | none => .error .fourBytes
      else .ok (String.ofList name)

/-- Characters that no host may have. -/
def isForbidden (c : Char) : Bool := "\x00\t\n\x0d #/:<>?@[\\]^|".toList.contains c

/-- A character of any other host; control characters and all beyond ASCII are escaped. -/
def hostChar (c : Char) : List Char :=
  if 32 ≤ c.toNat && c.toNat < 127 then [c] else (String.utf8EncodeChar c).flatMap Form.percent

/-- The host of any other scheme. -/
def plainHost (cs : List Char) : Except UrlFault String :=
  if cs.head? = some '[' then bracketed cs
  else if cs.any isForbidden then .error .domainCharacter
  else .ok (String.ofList (cs.flatMap hostChar))

/-! ### Schemes -/

/-- The schemes of the web with their ports. -/
def webPorts : List (String × Nat) := [("http", 80), ("https", 443), ("ws", 80), ("wss", 443), ("ftp", 21)]

def isSchemeChar (c : Char) : Bool := c.isAlphanum || c == '+' || c == '-' || c == '.'

/-- The scheme before the first colon, in lower case, and the text after the colon. -/
def splitScheme? (cs : List Char) : Option (String × List Char) :=
  match cs.span isSchemeChar with
  | (c :: scheme, ':' :: rest) =>
    if c.isAlpha then some (String.ofList ((c :: scheme).map Char.toLower), rest) else none
  | _ => none

/-! ### Authority -/

/-- Whether a character ends the authority. -/
def endsAuthority (web : Bool) (c : Char) : Bool := c == '/' || c == '?' || c == '#' || (web && c == '\\')

/-- What stands before the last `@` of an authority, if there is one, and what stands after it. -/
def splitUser (authority : List Char) : Option (List Char) × List Char :=
  let after := (authority.reverse.takeWhile (· != '@')).reverse
  if after.length = authority.length then (none, authority)
  else (some (authority.take (authority.length - after.length - 1)), after)

/-- The host and what follows it; a colon between brackets belongs to the host. -/
def splitHost : (inside : Bool) → List Char → List Char × List Char
  | _, [] => ([], [])
  | inside, c :: cs =>
    if c == ':' && !inside then ([], c :: cs)
    else
      let (host, rest) := splitHost (if c == '[' then true else if c == ']' then false else inside) cs
      (c :: host, rest)

/-- A port in decimal; no digits are no port. A backslash ends it in any scheme. -/
def readPort (cs : List Char) : Except UrlFault (Option Nat) :=
  let digits := cs.takeWhile Char.isDigit
  let n := digits.foldl (fun n c => n * 10 + (c.toNat - 48)) 0
  match cs.drop digits.length with
  | [] | '\\' :: _ => if n > 65535 then .error .port else .ok (if digits.isEmpty then none else some n)
  | _ => .error .port

/-- The query of what follows the authority. -/
def splitQuery (rest : List Char) : Option String :=
  match rest.dropWhile fun c => c != '?' && c != '#' with
  | '?' :: query => some (String.ofList (query.takeWhile (· != '#')))
  | _ => none

/-- Whether a name or a password is given. -/
def namesUser (user : List Char) : Bool := !user.isEmpty && user != [':']

/-- Reads what follows the two slashes. -/
def withAuthority (scheme : String) (cs : List Char) : Except UrlFault Url := do
  let own := webPorts.lookup scheme
  let web := own.isSome
  let authority := cs.takeWhile fun c => !endsAuthority web c
  let rest := cs.drop authority.length
  let (user, place) := splitUser authority
  if user = some [] && place.isEmpty && !rest.isEmpty then throw .emptyHost
  let (hostText, portText) := splitHost false place
  let host ← if web then (if hostText.isEmpty then throw .emptyHost else webHost hostText) else plainHost hostText
  if host.isEmpty && !portText.isEmpty then throw .emptyHost
  let port ← readPort (portText.drop 1)
  if host.isEmpty && (user.map namesUser).getD false then throw .emptyHost
  return { scheme := scheme
           host := if host.isEmpty then none else some host
           port := if port = own then none else port
           query := splitQuery rest }

/-! ### Files -/

/-- A letter and a colon or a bar. -/
def isDrive : List Char → Bool
  | [a, b] => a.isAlpha && (b == ':' || b == '|')
  | _ => false

def isSlash (c : Char) : Bool := c == '/' || c == '\\'

/-- Reads a file URL, whose host may be left out. -/
def file (cs : List Char) : Except UrlFault Url := do
  match cs with
  | a :: b :: rest =>
    let host := rest.takeWhile fun c => !endsAuthority true c
    if isSlash a && isSlash b && !host.isEmpty && !isDrive host then
      let host ← webHost host
      return ⟨"file", if host = "localhost" then none else some host, none, splitQuery rest⟩
    else return ⟨"file", none, none, splitQuery cs⟩
  | _ => return ⟨"file", none, none, splitQuery cs⟩

/-! ### URLs -/

/-- Control characters and spaces around a URL are dropped, tabs and line ends anywhere in it. -/
def cleaned (cs : List Char) : List Char :=
  let isOuter (c : Char) : Bool := c.toNat ≤ 32
  let inner := ((cs.dropWhile isOuter).reverse.dropWhile isOuter).reverse
  inner.filter fun c => c != '\t' && c != '\n' && c != '\x0d'

def parse (text : String) : Except UrlFault Url :=
  match splitScheme? (cleaned text.toList) with
  | none => .error .relative
  | some (scheme, rest) =>
    if scheme = "file" then file rest
    else if (webPorts.lookup scheme).isSome then withAuthority scheme (rest.dropWhile isSlash)
    else
      match rest with
      | '/' :: '/' :: rest => withAuthority scheme rest
      | rest => .ok ⟨scheme, none, none, splitQuery rest⟩

/-- Host and port. -/
def authority (u : Url) : String :=
  u.host.getD "" ++ match u.port with
    | some p => ":" ++ toString p
    | none => ""

/-- The pairs of the query. -/
def pairs (u : Url) : List Form.Pair := (u.query.map Form.read).getD []

end Url

end PigChain
