import PigChain.Json.Basic
import PigChain.Log.Filter
import PigChain.Settings
import PigChain.Text.Quoted

/-!
# Logs

Events go to the standard output, to a file, or to both. Only the first logger that is installed stays; asking
for another one fails, though it may have made its file by then.
-/

namespace PigChain.Log

/-- How events look on the standard output. -/
inductive Format where
  | pretty | json | compact
  deriving DecidableEq, Repr

/-- Where events go. -/
inductive Output where
  | stdout | file | both
  deriving DecidableEq, Repr

namespace Format

/-- A name that is not known is `pretty`. -/
def ofName : String → Format
  | "json" => .json
  | "compact" => .compact
  | _ => .pretty

def name : Format → String
  | .pretty => "Pretty"
  | .json => "Json"
  | .compact => "Compact"

def ofEnvironment (env : Environment) : Format := ((env "LOG_FORMAT").map ofName).getD .pretty

end Format

namespace Output

/-- A name that is not known is `stdout`. -/
def ofName : String → Output
  | "file" => .file
  | "both" => .both
  | _ => .stdout

def name : Output → String
  | .stdout => "Stdout"
  | .file => "File"
  | .both => "Both"

def ofEnvironment (env : Environment) : Output := ((env "LOG_OUTPUT").map ofName).getD .stdout

def toStdout : Output → Bool
  | .file => false
  | _ => true

def toFile : Output → Bool
  | .stdout => false
  | _ => true

end Output

/-! ### Events as text -/

/-- An event as a JSON object. -/
def eventJson (e : Event) : Json :=
  let value : EventValue → Json
    | .text s => .string s
    | .shown s => .string s
    | .number n => .int n
  .object [("level", .string e.level.name),
    ("fields", .object (("message", .string e.message) :: e.fields.map fun (k, v) => (k, value v))),
    ("target", .string e.origin)]

/-- A field in a line of a file: text stands between quotes. -/
def fieldText : String × EventValue → String
  | (k, .text s) => k ++ "=" ++ Text.describe s
  | (k, v) => k ++ "=" ++ v.plain

/-- An event as a line of a file, without its time. -/
def eventLine (e : Event) : String :=
  e.level.name ++ " " ++ e.origin ++ ": " ++ " ".intercalate (e.message :: e.fields.map fieldText)

/-! ### Loggers -/

/-- A logger that is installed. -/
structure Logger where
  filter : Filter
  format : Format
  output : Output
  /-- The file it writes to, if it writes to one. -/
  file : Option String

/-- Log files by name with their lines, what was written to the standard output, and the logger. -/
structure Logs where
  logger : Option Logger := none
  files : List (String × List String) := []
  stdout : List Event := []

inductive InitError where
  /-- The directory of the file cannot be made. -/
  | directory
  /-- There is a logger already. -/
  | installed
  deriving DecidableEq, Repr

/-- The steps of a path. -/
def pathSteps (path : String) : List String := (path.splitOn "/").filter fun s => s ≠ "" && s ≠ "."

/-- The log file of a directory. -/
def fileName (directory : String) : String := "/".intercalate (pathSteps directory ++ ["oinq"])

namespace Logs

/-- The files with one more, empty unless it was there. -/
def addFile (l : Logs) (name : String) : Logs :=
  if (l.files.lookup name).isSome then l else { l with files := l.files ++ [(name, [])] }

/-- Adds a line to a file. -/
def appendLine (l : Logs) (name line : String) : Logs :=
  { l with files := l.files.map fun (n, lines) => if n = name then (n, lines ++ [line]) else (n, lines) }

/-- Gives an event to the logger. -/
def record (l : Logs) (e : Event) : Logs :=
  match l.logger with
  | none => l
  | some g =>
    if !g.filter.enables e then l
    else
      let l := if g.output.toStdout then { l with stdout := l.stdout ++ [e] } else l
      match g.file with
      | some name => l.appendLine name (eventLine e)
      | none => l

/-- Installs a logger. `blocked` says which paths are no directories and cannot become any. -/
def init (blocked : List String → Bool) (l : Logs) (s : LogSettings) : Except InitError Unit × Logs :=
  let format := Format.ofName s.format
  let output := Output.ofName s.output
  if output.toFile && blocked (pathSteps s.directory) then (.error .directory, l)
  else
    let file := if output.toFile then some (fileName s.directory) else none
    let l := match file with
      | some name => l.addFile name
      | none => l
    if l.logger.isSome then (.error .installed, l)
    else
      let l := { l with logger := some ⟨.ofText s.level, format, output, file⟩ }
      (.ok (), l.record ⟨.info, "oinq_edgespring::logging", "Logging initialised",
        [("format", .shown format.name), ("output", .shown output.name)]⟩)

/-- The files in the order of their names. -/
def sortedFiles (l : Logs) : List (String × List String) := l.files.mergeSort fun a b => decide (a.1 ≤ b.1)

end Logs

end PigChain.Log
