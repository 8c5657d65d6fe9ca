import SchemaMigration.CommandLine.Run
import Std.Time.DateTime.Timestamp
/-!
The program: it reads the files that the settings name into a tree, runs the command on the tree,
and brings the changes back to the file system.
-/
namespace SchemaMigration.CommandLine

def fileWords : FileFault → String
  | .notFound => "no such file or directory"
  | .isDirectory => "is a directory"
  | .notDirectory => "not a directory"
  | .alreadyExists => "file exists"
  | .busy => "device or resource busy"
  | .nameTooLong => "file name too long"
  | .unusableName => "file name with a zero character"

def problemWords : ProblemKind → String
  | .notModel => "not a definition"
  | .missing => "missing"
  | .notText => "not a text"
  | .notList => "not a list"
  | .notDictionary => "not a dictionary"
  | .tooShort => "empty"
  | .notBoolean | .unclearBoolean => "neither true nor false"
  | .unknownType => "not a column type"
  | .refused message => message

def stepWords : PlaceStep → String
  | .field name => name
  | .item position => numberText position

def problemLine (p : Problem) : String :=
  String.intercalate "." (p.place.map stepWords) ++ ": " ++ problemWords p.kind

def causeWords : Cause → String
  | .file fault => fileWords fault
  | .malformedJson => "malformed JSON"
  | .problems found => String.intercalate "; " (found.map problemLine)

def faultWords : Fault → String
  | .integerTooLong => "integer too long"
  | .outsideCalendar => "point in time outside the years 1 to 9999"
  | .incomparable => "comparison of a number with a signaling NaN"
  | .unhashable => "name that cannot be a key"
  | .notText => "name that is not a text"
  | .notSerializable kind => "no JSON form for values of type " ++ kind

def refusalWords : Document.Refusal → String
  | .missing key => "missing " ++ Text.quoted key
  | .notDialect v => v.named ++ " is not a dialect"
  | .notColumnType v => v.named ++ " is not a column type"
  | .notIndexKind v => v.named ++ " is not a kind of index"
  | .noEntries | .wrongKind => "value of the wrong kind"
  | .fault f => faultWords f

def failureWords : Failure → String
  | .models _ => "not a model set"
  | .document refusal => refusalWords refusal
  | .noTimestamp => "time that is not a text"
  | .timestamp text _ => "not a point in time: " ++ Text.quoted text
  | .fault f => faultWords f
  | .clock _ => "time outside the years 1 to 9999"
  | .file fault => fileWords fault
  | .notUtf8 => "not UTF-8"
  | .malformedJson => "malformed JSON"
  | .unnamed => "path without a name"
  | e => Message.errorText ⟨causeWords, fun _ => "failure"⟩ e

def plainWording : Wording := ⟨causeWords, failureWords⟩

def variableNames : List String :=
  ["SCHEMAPLAN_DIALECT", "SCHEMAPLAN_MODELS_DIR", "SCHEMAPLAN_SQL_DIR", "SCHEMAPLAN_STATE"]

def readEnvironment : IO Environment :=
  variableNames.filterMapM fun name => do return (← IO.getEnv name).map fun value => (name, value)

def isOfInterest (name : String) : Bool :=
  ModelDirectory.isModelFile name || ScriptDirectory.isScriptFile name

/-- Adds what the file system has at a path, and whether that is a directory. -/
def observe (t : Tree) (p : FilePath) : IO (Tree × Bool) := do
  let file := (← IO.currentDir) / p.text
  match t.locate p with
  | .error _ => return (t, false)
  | .ok place =>
    if ← file.isDir then return (if Tree.isGiven place then t else t.put place .directory, true)
    else if ← file.pathExists then return (t.put place (.file (← IO.FS.readBinFile file)), false)
    else return (t, false)

def observeAll (t : Tree) (p : FilePath) : IO (Tree × Bool) := do
  let mut tree := t
  let mut isDirectory := true
  for count in List.range p.components.length do
    (tree, isDirectory) ← observe tree { p with components := p.components.take (count + 1) }
  return (tree, isDirectory)

def observeDirectory (t : Tree) (p : FilePath) : IO Tree := do
  let (t, isDirectory) ← observeAll t p
  if isDirectory then
    let entries ← ((← IO.currentDir) / p.text).readDir
    let mut tree := t
    for entry in entries do
      if isOfInterest entry.fileName then tree := (← observe tree (p.child entry.fileName)).1
    return tree
  else return t

/-- The part of the file system that a run with these arguments can touch. -/
def readTree (args : List String) (env : Environment) : IO Tree := do
  match parse args env with
  | .run settings _ _ => do
    let tree ← observeDirectory {} settings.modelsDir
    let tree ← observeDirectory tree settings.scriptsDir
    let state := settings.snapshotPath
    let (tree, _) ← observeAll tree state
    return (← observe tree (state.parent.child (state.name ++ ".tmp"))).1
  | _ => return {}

def placeText (place : List String) : String :=
  match place with
  | "/" :: below => "/" ++ String.intercalate "/" below
  | _ => String.intercalate "/" place

def replaceFile (path : String) (content : ByteArray) : IO Unit := do
  IO.FS.writeBinFile (path ++ ".part") content
  IO.FS.rename (path ++ ".part") path

def writeChanges (before after : Tree) : IO Unit := do
  for (place, node) in after.entries do
    if before.node? place ≠ some node then
      match node with
      | .directory => IO.FS.createDir (placeText place)
      | .file content => replaceFile (placeText place) content
  for (place, _) in before.entries do
    if (after.node? place).isNone then IO.FS.removeFile (placeText place)

def finish (before : Tree) (e : Ending) : IO UInt32 := do
  writeChanges before e.tree
  for message in e.messages do
    IO.eprintln (message.text plainWording)
  IO.print e.output
  match e.stoppedBy with
  | some failure => IO.eprintln (failureWords failure)
  | none => pure ()
  return e.status.toUInt32

def start (args : List String) : IO UInt32 := do
  let env ← readEnvironment
  let now := (← Std.Time.Timestamp.now).toSecondsSinceUnixEpoch.val
  let tree ← readTree args env
  match respond args env now tree with
  | .text t => do
    IO.print t
    return 0
  | .ending e => finish tree e
  | .misuse => do
    IO.eprint usageText
    return 2

end SchemaMigration.CommandLine

def main (args : List String) : IO UInt32 := SchemaMigration.CommandLine.start args
