import PigChain.Mart.Url
import PigChain.Script.Basic
import PigChain.Yaml.Node

/-!
# Settings

Settings are read from a YAML text in which every section and every entry may be left out. Variables of the
environment go before the text.
-/

namespace PigChain

/-- Which server, and which mart if the address of the server names none. -/
structure ServerSettings where
  url : String := "edgespring://localhost:8000"
  defaultMart : Option String := none
  deriving DecidableEq, Repr

/-- How scripts are written. -/
structure ScriptSettings where
  /-- `dump` or `store`, in any case. -/
  terminal : String := "dump"
  /-- Where `store` stores. -/
  storePath : Option String := none
  separator : String := " "
  deriving DecidableEq, Repr

/-- What is logged, how and where. -/
structure LogSettings where
  level : String := "info"
  format : String := "pretty"
  output : String := "stdout"
  directory : String := "./logs"
  deriving DecidableEq, Repr

structure Settings where
  server : ServerSettings := {}
  script : ScriptSettings := {}
  logging : LogSettings := {}
  deriving DecidableEq, Repr

/-- What is wrong with a setting. -/
inductive SettingsFault where
  | missingStorePath
  | unknownTerminal (name : String)
  deriving DecidableEq, Repr

def SettingsFault.message : SettingsFault → String
  | .missingStorePath => "store terminal requires store_path"
  | .unknownTerminal name => s!"unknown terminal '{name}', expected dump or store"

/-- Why there are no settings. -/
inductive SettingsError where
  /-- There is no text to read. -/
  | missing
  | yaml
  | invalid (fault : SettingsFault)
  deriving DecidableEq, Repr

def SettingsError.message : SettingsError → String
  | .missing => "Failed to read config file"
  | .yaml => "Failed to parse YAML"
  | .invalid fault => s!"Invalid configuration: {fault.message}"

/-! ### From YAML -/

namespace Yaml.Node

/-- The entries of a section. A section without anything in it has none; a written null is no section. -/
def entries? : Node → Option (List (String × Node))
  | .mapping pairs => pairs.mapM fun (k, v) =>
    match k with
    | .scalar name _ _ => some (name, v)
    | _ => none
  | .scalar "" true _ => some []
  | _ => none

/-- The text of a scalar, whatever it looks like. -/
def text? : Node → Option String
  | .scalar s _ _ => some s
  | _ => none

def isNullText (s : String) : Bool := s == "null" || s == "Null" || s == "NULL" || s == "~"

def isNullTag (tag : String) : Bool := tag == "!!null" || tag == "!<tag:yaml.org,2002:null>"

/-- A text that may be absent: a plain null is absent. -/
def optionalText? : Node → Option (Option String)
  | .scalar s true none => some (if s == "" || isNullText s then none else some s)
  | .scalar s true (some tag) => if isNullTag tag then (if isNullText s then some none else none) else some (some s)
  | .scalar s false _ => some (some s)
  | _ => none

end Yaml.Node

/-- Settings from the entries of a section, each of which may be given once. Entries that no setter knows are
ignored. -/
def readEntries {α : Type} (setter : String → Option (Yaml.Node → α → Option α)) :
    List (String × Yaml.Node) → (seen : List String) → α → Option α
  | [], _, a => some a
  | (name, node) :: rest, seen, a =>
    match setter name with
    | none => readEntries setter rest seen a
    | some set => if seen.contains name then none else do readEntries setter rest (name :: seen) (← set node a)

def readSection {α : Type} (setter : String → Option (Yaml.Node → α → Option α)) (start : α) (node : Yaml.Node) :
    Option α := do
  readEntries setter (← node.entries?) [] start

def ServerSettings.ofNode? : Yaml.Node → Option ServerSettings :=
  readSection (fun
    | "url" => some fun n s => do some { s with url := ← n.text? }
    | "default_mart" => some fun n s => do some { s with defaultMart := ← n.optionalText? }
    | _ => none) {}

def ScriptSettings.ofNode? : Yaml.Node → Option ScriptSettings :=
  readSection (fun
    | "terminal" => some fun n s => do some { s with terminal := ← n.text? }
    | "store_path" => some fun n s => do some { s with storePath := ← n.optionalText? }
    | "statement_separator" => some fun n s => do some { s with separator := ← n.text? }
    | _ => none) {}

def LogSettings.ofNode? : Yaml.Node → Option LogSettings :=
  readSection (fun
    | "level" => some fun n s => do some { s with level := ← n.text? }
    | "format" => some fun n s => do some { s with format := ← n.text? }
    | "output" => some fun n s => do some { s with output := ← n.text? }
    | "directory" => some fun n s => do some { s with directory := ← n.text? }
    | _ => none) {}

def Settings.ofNode? : Yaml.Node → Option Settings :=
  readSection (fun
    | "server" => some fun n s => do some { s with server := ← ServerSettings.ofNode? n }
    | "translation" => some fun n s => do some { s with script := ← ScriptSettings.ofNode? n }
    | "logging" => some fun n s => do some { s with logging := ← LogSettings.ofNode? n }
    | _ => none) {}

/-! ### From the environment -/

/-- Values of environment variables. -/
abbrev Environment := String → Option String

def LogSettings.withEnvironment (s : LogSettings) (env : Environment) : LogSettings where
  level := (env "RUST_LOG").getD s.level
  format := (env "LOG_FORMAT").getD s.format
  output := (env "LOG_OUTPUT").getD s.output
  directory := (env "LOG_DIR").getD s.directory

def LogSettings.ofEnvironment (env : Environment) : LogSettings := LogSettings.withEnvironment {} env

def Settings.withEnvironment (s : Settings) (env : Environment) : Settings where
  server :=
    { url := (env "OINQ_SERVER_URL").getD s.server.url
      defaultMart := (env "OINQ_EDGEMART").or s.server.defaultMart }
  script :=
    { s.script with
      terminal := (env "OINQ_TERMINAL").getD s.script.terminal
      storePath := (env "OINQ_STORE_PATH").or s.script.storePath }
  logging := s.logging.withEnvironment env

/-- The settings of a YAML text and an environment. -/
def Settings.ofYaml (text : String) (env : Environment) : Except SettingsError Settings :=
  let found : Option Settings := match Yaml.parse? text with
    | none => none
    | some none => some {}
    | some (some node) => Settings.ofNode? node
  match found with
  | some s => .ok (s.withEnvironment env)
  | none => .error .yaml

/-- The settings of a file, given by its text if there is one. -/
def Settings.load (file : Option String) (env : Environment) : Except SettingsError Settings :=
  match file with
  | some text => Settings.ofYaml text env
  | none => .error .missing

/-! ### Uses -/

/-- The address of the server, with the default mart if it names none. -/
def ServerSettings.martUrl (s : ServerSettings) : Except MartUrlError MartUrl :=
  match s.defaultMart with
  | some mart => MartUrl.parse (MartUrl.withMart s.url mart)
  | none => MartUrl.parse s.url

/-- How scripts are written. -/
def ScriptSettings.options (s : ScriptSettings) : Except SettingsError RenderOptions :=
  match MartUrl.lower s.terminal with
  | "dump" => .ok ⟨.dump, s.separator⟩
  | "store" =>
    match s.storePath with
    | some path => if path = "" then .error (.invalid .missingStorePath) else .ok ⟨.store path, s.separator⟩
    | none => .error (.invalid .missingStorePath)
  | other => .error (.invalid (.unknownTerminal other))

end PigChain
