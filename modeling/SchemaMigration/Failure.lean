import SchemaMigration.Calendar.Iso
import SchemaMigration.Files.Tree
import SchemaMigration.Model.Set
import SchemaMigration.Plan.Build
import SchemaMigration.Plan.Document
/-!
Everything that can make a piece of work fail, by cause. Messages leave the wording of faults of
files, of JSON and of single fields to whoever shows them.
-/
namespace SchemaMigration

inductive Cause where
  | file (fault : FileFault)
  | malformedJson
  | problems (found : List Problem)
  deriving DecidableEq

inductive DefinitionError where
  | noDirectory (path : FilePath)
  | unreadable (path : FilePath) (cause : Cause)
  | notObject (path : FilePath)
  | invalidFile (path : FilePath) (name : Value) (found : List Problem)
  | invalidEntry (key : String) (found : List Problem)
  | declaredTwice (name : String)
  | sharedTable (conflict : TableConflict)

namespace DefinitionError

def message (wording : Cause → String) : DefinitionError → String
  | .noDirectory path => "Models directory not found: " ++ path.text
  | .unreadable path cause => "Cannot read model file " ++ path.text ++ ": " ++ wording cause
  | .notObject path => "Model file " ++ path.text ++ " must contain a JSON object"
  | .invalidFile path _ found =>
    "Invalid model definition in " ++ path.text ++ ": " ++ wording (.problems found)
  | .invalidEntry key found =>
    "Invalid model definition " ++ Text.quoted key ++ ": " ++ wording (.problems found)
  | .declaredTwice name => "Model " ++ Text.quoted name ++ " is defined more than once"
  | .sharedTable c =>
    "Models " ++ Text.quoted c.first ++ " and " ++ Text.quoted c.second ++
      " both map to table " ++ Text.quoted c.table

def model? : DefinitionError → Option Value
  | .noDirectory _ => none
  | .unreadable path _ | .notObject path => some (.str path.stem)
  | .invalidFile _ name _ => some name
  | .invalidEntry key _ => some (.str key)
  | .declaredTwice name => some (.str name)
  | .sharedTable c => some (.str c.second)

end DefinitionError

inductive Failure where
  | definition (e : DefinitionError)
  | noModels (directory : FilePath)
  | unsupportedDialect (tag : String)
  | models (refusal : ModelSet.Refusal)
  | document (refusal : Document.Refusal)
  | noTimestamp
  | timestamp (text : String) (refusal : Iso.Refusal)
  | fault (f : Fault)
  | clock (fault : ClockFault)
  | file (fault : FileFault)
  | notUtf8
  | malformedJson
  | unnamed

namespace Failure

/-- Failures that a command reports as its own, in one line. -/
def isReported : Failure → Bool
  | .definition _ | .noModels _ | .unsupportedDialect _ => true
  | _ => false

def unsupportedDialectMessage (tag : String) : String :=
  "Unsupported dialect: " ++ Text.quoted tag ++ ". Expected one of: postgres, mysql, sqlite."

end Failure

/-- What catches failures tells them apart by their kind alone. -/
inductive FailureKind where
  /-- The files or the clock of the system do not do what is asked of them. -/
  | system
  | json
  /-- A value has not got what is asked of it. -/
  | attribute
  | key
  | type
  | value
  /-- A result is out of range, or there is none. -/
  | arithmetic
  | reported
  deriving DecidableEq

def Fault.kind : Fault → FailureKind
  | .integerTooLong => .value
  | .outsideCalendar | .incomparable => .arithmetic
  | .unhashable | .notText | .notSerializable _ => .type

def FileFault.kind : FileFault → FailureKind
  | .unusableName => .value
  | _ => .system

def ClockFault.kind : ClockFault → FailureKind
  | .yearOutOfRange => .value
  | .yearTooLarge => .system
  | .secondsTooLarge => .arithmetic

def ModelSet.Refusal.kind : ModelSet.Refusal → FailureKind
  | .noDictionary => .attribute
  | .noEntries => .type
  | .noPair | .invalid .. => .value

def Document.Refusal.kind : Document.Refusal → FailureKind
  | .missing _ => .key
  | .notDialect _ | .notColumnType _ | .notIndexKind _ => .value
  | .noEntries => .attribute
  | .wrongKind => .type
  | .fault f => f.kind

def Failure.kind : Failure → FailureKind
  | .definition _ | .noModels _ | .unsupportedDialect _ => .reported
  | .models refusal => refusal.kind
  | .document refusal => refusal.kind
  | .noTimestamp => .type
  | .timestamp .. | .notUtf8 | .unnamed => .value
  | .fault f => f.kind
  | .clock e => e.kind
  | .file e => e.kind
  | .malformedJson => .json

def Dialect.read (v : Value) : Except Failure Dialect :=
  match v with
  | .str s => match Dialect.ofName? s with
    | some d => .ok d
    | none => .error (.unsupportedDialect s)
  | v => .error (.unsupportedDialect v.text)

/-- The model set of a value, where a key that is not valid is an error of the definitions. -/
def ModelSet.read (v : Value) : Except Failure ModelSet :=
  match ModelSet.ofValue v with
  | .ok models => .ok models
  | .error (.invalid key found) => .error (.definition (.invalidEntry key found))
  | .error refusal => .error (.models refusal)

/-- The outline of a model set, where two models with one table are an error of the definitions. -/
def ModelSet.checkedOutline (models : ModelSet) : Except Failure Outline :=
  match models.outline with
  | .ok outline => .ok outline
  | .error conflict => .error (.definition (.sharedTable conflict))

def Plan.buildFrom (models : ModelSet) (dialect : Dialect) : Except Failure Plan :=
  match Plan.build models dialect with
  | .ok plan => .ok plan
  | .error conflict => .error (.definition (.sharedTable conflict))

/-- The plan of models and a dialect that are given as values. The models are checked first. -/
def Plan.read (models dialect : Value) : Except Failure Plan := do
  let models ← ModelSet.read models
  let _ ← models.checkedOutline
  let dialect ← Dialect.read dialect
  Plan.buildFrom models dialect

end SchemaMigration
