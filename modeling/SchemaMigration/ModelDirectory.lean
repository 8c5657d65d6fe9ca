import SchemaMigration.Work
/-!
Model definitions in files, one to a file, in one directory. The order of the file names is the
order in which the models are declared. Hidden files are passed over.
-/
namespace SchemaMigration.ModelDirectory
open Site

def readFailure (p : FilePath) : Failure → Failure
  | .file .unusableName => .file .unusableName
  | .file fault => .definition (.unreadable p (.file fault))
  | .malformedJson => .definition (.unreadable p .malformedJson)
  | other => other

def readModel (p : FilePath) : Value → Except Failure Model
  | .dict entries =>
    let named := ModelSet.withName p.stem entries
    match Model.check (.dict named) with
    | .ok model => .ok model
    | .error found => .error (.definition (.invalidFile p ((named.lookup "name").getD .null) found))
  | _ => .error (.definition (.notObject p))

def loadFile [Device] (p : FilePath) : Work Site Model := do
  match ← Work.attempt (readJson p) with
  | .ok v => Work.ofExcept (readModel p v)
  | .error e => Work.fail (readFailure p e)

def ending : List Char := ".json".toList

def isModelFile (name : String) : Bool :=
  ending.isSuffixOf name.toList && name.toList.head? != some '.'

def loadFiles [Device] : ModelSet → List FilePath → Work Site ModelSet
  | models, [] => pure models
  | models, p :: rest => do
    let model ← loadFile p
    if (models.lookup model.name).isSome then Work.fail (.definition (.declaredTwice model.name))
    else loadFiles (models ++ [(model.name, model)]) rest

def load [Device] (directory : FilePath) : Work Site ModelSet := do
  if ← ask (·.isDirectory? directory) then
    let names ← ask (·.names directory)
    loadFiles [] ((names.filter isModelFile).map directory.child)
  else Work.fail (.definition (.noDirectory directory))

end SchemaMigration.ModelDirectory
