import SchemaMigration.CommandLine.Arguments
import SchemaMigration.CommandLine.Console
import SchemaMigration.Migration.Reset
import SchemaMigration.ModelDirectory
import SchemaMigration.ScriptDirectory
import SchemaMigration.Snapshot.Store

namespace SchemaMigration.CommandLine
open Console

def loadPlan [Device] (settings : Settings) : Work Site Plan := do
  let models ← ModelDirectory.load settings.modelsDir
  if models.isEmpty then Work.fail (.noModels settings.modelsDir)
  else Work.ofExcept (Plan.buildFrom models settings.dialect)

def report (e : Failure) : Work Console Nat := do
  say (.error e)
  return 1

/-- Goes on with the plan of the models, unless there is an error to report. -/
def withPlan [Device] (settings : Settings) (next : Plan → Work Console Nat) : Work Console Nat := do
  match ← Work.attempt (onSite (loadPlan settings)) with
  | .ok plan => next plan
  | .error e => if e.isReported then report e else Work.fail e

def numberText (n : Nat) : String := String.ofList (Numeral.digits n)

def printAll (lines : List String) : Work Console Unit := do
  let _ ← Work.each print lines

def runPlan [Device] (settings : Settings) : Work Console Nat :=
  withPlan settings fun plan => do
    let document := plan.toValue
    match Json.faults document with
    | [] => print (Json.write .indented document)
    | f :: _ => Work.fail (.fault f)
    return 0

def runHash [Device] (settings : Settings) : Work Console Nat :=
  withPlan settings fun plan => do
    print (← Work.ofFaults plan.fingerprint)
    return 0

def runReset [Device] (settings : Settings) (keepBookkeeping : Bool) : Work Console Nat :=
  withPlan settings fun plan => do
    let statements ← onSite (Site.report (Reset.statements plan (!keepBookkeeping)))
    printAll (statements.map (Statement.text plan.dialect))
    return 0

def runBookkeeping (settings : Settings) : Work Console Nat := do
  let d := settings.dialect
  printAll
    [ Statement.createBookkeeping d, "",
      "-- executed migrations\n" ++ Statement.executedQuery,
      "-- record migration\n" ++ Statement.recordQuery d ]
  return 0

def describeSnapshot (settings : Settings) : Option Snapshot → String
  | none => "Snapshot: none (" ++ settings.snapshotPath.text ++ ")"
  | some snapshot => "Snapshot: " ++ snapshot.fingerprint.text

def printPending (previous current : Plan) : Work Console Unit := do
  let files ← onSite (Site.report (Diff.files (some previous) current))
  let skipped ← onSite (Site.report (Diff.skipped (some previous) current))
  print ("Status:   " ++ numberText (MigrationFile.flatten files).length ++ " pending statement(s), " ++
    numberText skipped.length ++ " skipped change(s)")
  printAll (skipped.map fun change => "  - skipped " ++ change.description)

def printComparison (snapshot : Snapshot) (current : Plan) : Work Console Unit := do
  if ← Work.ofFaults snapshot.isStale then say .staleSnapshot
  if ← Work.ofFaults (snapshot.isOf current) then print "Status:   up to date"
  else printPending snapshot.plan current

def runStatus [Device] (settings : Settings) : Work Console Nat :=
  withPlan settings fun current => do
    let snapshot ← onSite (Snapshot.load settings.snapshotPath)
    print ("Dialect:  " ++ settings.dialect.name)
    print ("Current:  " ++ (← Work.ofFaults current.fingerprint))
    print (describeSnapshot settings snapshot)
    match snapshot with
    | none => print "Status:   no plan applied yet"
    | some stored => printComparison stored current
    return 0

def printWritten (directory : FilePath) (paths : List FilePath) : Work Console Unit := do
  print ("Wrote " ++ numberText paths.length ++ " migration file(s) to " ++ directory.text ++ ":")
  printAll (paths.map fun p => "  - " ++ p.name)

def sayLeftOut (d : Dialect) (change : SkippedChange) : Work Console Unit :=
  say (.leftOut change (change.statement.text d))

def writeScripts [Device] (directory : ScriptDirectory) (now : Int) (files : List ScriptFile) :
    Work Site (List FilePath) :=
  fun site =>
    match directory.writeAll files ⟨site, now, [], []⟩ with
    | (result, progress) => (result, progress.site)

/-- Writes the migration, if there is any; a fault of a file is reported. -/
def writeMigration [Device] (settings : Settings) (replaceExisting : Bool) (now : Int) (previous : Option Plan)
    (current : Plan) : Work Console Nat := do
  let skipped ← onSite (Site.report (Diff.skipped previous current))
  let _ ← Work.each (sayLeftOut current.dialect) skipped
  let files ← onSite (Site.report (Diff.files previous current))
  if files.all (·.statements.isEmpty) then do
    print "No changes detected."
    return 0
  else
    let directory := ScriptDirectory.mk settings.scriptsDir replaceExisting
    match ← Work.attempt (onSite (writeScripts directory now (files.map (·.script current.dialect)))) with
    | .ok paths => do
      printWritten settings.scriptsDir paths
      return 0
    | .error (.file .unusableName) => Work.fail (.file .unusableName)
    | .error (.file fault) => report (.file fault)
    | .error e => Work.fail e

def printMigration (previous : Option Plan) (current : Plan) : Work Console Nat := do
  let lines ← onSite (Site.report (Diff.script previous current))
  print (String.intercalate "\n" lines)
  return 0

def saveSnapshot [Device] (settings : Settings) (now : Int) (plan : Plan) : Work Console Unit :=
  match DateTime.ofUnixSeconds now with
  | .error fault => Work.fail (.clock fault)
  | .ok time => do
    let snapshot ← onSite (Snapshot.save settings.snapshotPath plan time)
    print ("Saved snapshot: " ++ settings.snapshotPath.text ++ " (" ++
      Fingerprint.short snapshot.fingerprint.text ++ ")")

def previousPlan [Device] (settings : Settings) (full : Bool) : Work Console (Option Plan) :=
  if full then pure none
  else do
    let snapshot ← onSite (Snapshot.load settings.snapshotPath)
    return snapshot.map (·.plan)

def runGenerate [Device] (settings : Settings) (options : GenerateOptions) (now : Int) : Work Console Nat :=
  withPlan settings fun current => do
    let previous ← previousPlan settings options.full
    let status ←
      if options.write then writeMigration settings options.replaceExisting now previous current
      else printMigration previous current
    if status == 0 && options.saveSnapshot then saveSnapshot settings now current
    return status

def runCommand [Device] (settings : Settings) (now : Int) : Command → Work Console Nat
  | .plan => runPlan settings
  | .generate options => runGenerate settings options now
  | .hash => runHash settings
  | .status => runStatus settings
  | .reset keepBookkeeping => runReset settings keepBookkeeping
  | .bookkeeping => runBookkeeping settings

/-- How a command ended: with a status, and with the failure that stopped it, if one did. -/
structure Ending where
  status : Nat
  output : String
  messages : List Message
  stoppedBy : Option Failure
  tree : Tree

def runWith [Device] (settings : Settings) (verbose : Bool) (command : Command) (now : Int) (tree : Tree) :
    Ending :=
  let (result, console) := runCommand settings now command { tree }
  let messages := console.messages.filter (·.isShown verbose)
  match result with
  | .ok status => ⟨status, console.output, messages, none, console.tree⟩
  | .error e => ⟨1, console.output, messages, some e, console.tree⟩

def versionText : String := "schemaplan, version 0.1.0\n"

def usageText : String :=
  "Usage: schemaplan [-m DIR] [-d DIALECT] [-o DIR] [--state FILE] [-v] COMMAND\n" ++
    "Commands: " ++ String.intercalate ", " (commands.map (·.1)) ++ "\n"

inductive Response where
  | text (t : String)
  | ending (e : Ending)
  | misuse

/-- A run with some arguments and variables at a time, given in seconds since the start of 1970. -/
def respond [Device] (args : List String) (env : Environment) (now : Int) (tree : Tree) : Response :=
  match parse args env with
  | .run settings verbose command => .ending (runWith settings verbose command now tree)
  | .version => .text versionText
  | .help => .text usageText
  | .misuse => .misuse

end SchemaMigration.CommandLine
