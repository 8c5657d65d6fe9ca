import SchemaMigration.CommandLine.Options
import SchemaMigration.Settings

namespace SchemaMigration.CommandLine

inductive GlobalKey where
  | modelsDir
  | dialect
  | scriptsDir
  | state
  | verbose
  | version
  | help
  deriving DecidableEq

def globalFlags : FlagTable GlobalKey :=
  [ ("--models-dir", ⟨.modelsDir, true⟩), ("-m", ⟨.modelsDir, true⟩),
    ("--dialect", ⟨.dialect, true⟩), ("-d", ⟨.dialect, true⟩),
    ("--sql-dir", ⟨.scriptsDir, true⟩), ("-o", ⟨.scriptsDir, true⟩),
    ("--state", ⟨.state, true⟩),
    ("--verbose", ⟨.verbose, false⟩), ("-v", ⟨.verbose, false⟩),
    ("--version", ⟨.version, false⟩), ("--help", ⟨.help, false⟩) ]

structure GenerateOptions where
  full : Bool := false
  write : Bool := true
  saveSnapshot : Bool := false
  replaceExisting : Bool := false

inductive Command where
  | plan
  | generate (options : GenerateOptions)
  | hash
  | status
  | reset (keepBookkeeping : Bool)
  | bookkeeping

inductive CommandKey where
  | full
  | write
  | noWrite
  | saveSnapshot
  | replaceExisting
  | keepBookkeeping
  | help
  deriving DecidableEq

def helpFlag : FlagTable CommandKey := [("--help", ⟨.help, false⟩)]

def generateFlags : FlagTable CommandKey :=
  [ ("--full", ⟨.full, false⟩), ("--write", ⟨.write, false⟩), ("--no-write", ⟨.noWrite, false⟩),
    ("--save-snapshot", ⟨.saveSnapshot, false⟩), ("--replace-existing", ⟨.replaceExisting, false⟩) ] ++
    helpFlag

def resetFlags : FlagTable CommandKey := ("--keep-bookkeeping", ⟨.keepBookkeeping, false⟩) :: helpFlag

def setsWriting (key : CommandKey) : Bool := key == .write || key == .noWrite

/-- Of the two options for and against writing the last one counts. -/
def writes (given : List CommandKey) : Bool := given.reverse.find? setsWriting != some .noWrite

def generateOptions (given : List CommandKey) : GenerateOptions where
  full := given.contains .full
  write := writes given
  saveSnapshot := given.contains .saveSnapshot
  replaceExisting := given.contains .replaceExisting

def commands : List (String × FlagTable CommandKey × (List CommandKey → Command)) :=
  [ ("plan", helpFlag, fun _ => .plan),
    ("generate", generateFlags, fun given => .generate (generateOptions given)),
    ("hash", helpFlag, fun _ => .hash),
    ("status", helpFlag, fun _ => .status),
    ("reset", resetFlags, fun given => .reset (given.contains .keepBookkeeping)),
    ("bookkeeping", helpFlag, fun _ => .bookkeeping) ]

inductive Request where
  | run (settings : Settings) (verbose : Bool) (command : Command)
  | version
  | help
  | misuse

/-- Variables of the environment; an empty one counts as absent. -/
abbrev Environment := List (String × String)

def Environment.value? (env : Environment) (name : String) : Option String :=
  (env.lookup name).filter (· != "")

def given? (found : List (GlobalKey × String)) (env : Environment) (key : GlobalKey) (name : String) :
    Option String :=
  (lastValue? found key).or (env.value? name)

/--
A character without regard to case. Outside ASCII only the long s and the ligatures of `st` can
occur in the name of a dialect.
-/
def foldCase (c : Char) : List Char :=
  if c == '\u017f' then ['s']
  else if c == '\ufb05' || c == '\ufb06' then ['s', 't']
  else [c.toLower]

def dialectOf? (s : String) : Option Dialect :=
  Dialect.ofName? (String.ofList (s.toList.flatMap foldCase))

def settings? (found : List (GlobalKey × String)) (env : Environment) : Option Settings := do
  let dialect ← dialectOf? ((given? found env .dialect "SCHEMAPLAN_DIALECT").getD "postgres")
  return {
    dialect
    modelsDir := FilePath.ofString ((given? found env .modelsDir "SCHEMAPLAN_MODELS_DIR").getD "models")
    scriptsDir := FilePath.ofString ((given? found env .scriptsDir "SCHEMAPLAN_SQL_DIR").getD "sql")
    statePath := ((given? found env .state "SCHEMAPLAN_STATE").filter (· != "")).map FilePath.ofString }

def parseCommand : List String → Option (List CommandKey × Command)
  | [] => none
  | name :: args => do
    let (table, make) ← commands.lookup name
    let (found, rest) ← table.parse true args
    let given := found.map (·.1)
    if given.contains .help || rest.isEmpty then return (given, make given) else none

/-- Whether the version or help is asked for; what is asked first counts. -/
def early? (found : List (GlobalKey × String)) : Option Request :=
  match found.find? fun entry => entry.1 == .version || entry.1 == .help with
  | some (.version, _) => some .version
  | some _ => some .help
  | none => none

def isCommand (args : List String) : Bool :=
  match args with
  | name :: _ => (commands.lookup name).isSome
  | [] => false

/-- Arguments without a command may still ask for the version or help, behind two dashes. -/
def noCommand (args : List String) : Request :=
  ((globalFlags.parse false args).bind fun read => early? read.1).getD .misuse

def runRequest (found : List (GlobalKey × String)) (env : Environment) (args : List String) : Request :=
  match settings? found env, parseCommand args with
  | some settings, some (given, command) =>
    if given.contains .help then .help
    else .run settings ((lastValue? found .verbose).isSome) command
  | some _, none => if isCommand args then .misuse else noCommand args
  | none, _ => .misuse

def parse (args : List String) (env : Environment) : Request :=
  match globalFlags.parse false args with
  | none => .misuse
  | some (found, rest) => (early? found).getD (runRequest found env rest)

end SchemaMigration.CommandLine
