import SchemaMigration.Failure
import SchemaMigration.Fingerprint

namespace SchemaMigration

inductive Level where
  | info
  | warning
  deriving DecidableEq

def Level.name : Level → String
  | .info => "INFO"
  | .warning => "WARNING"

inductive Notice where
  | newTable (table : Value)
  | newColumn (table column : Value)
  | newIndex (table index : Value)
  | changeSkipped (description : String)
  | enumValuesIgnored (typeName : String) (kept ignored : List String) (column : Value)
  | directoryCreated (path : FilePath)
  | fileCreated (name : String)
  | fileUpdated (name : String)
  | filesWritten (summary : String)
  | snapshotIgnored (path : FilePath) (cause : Failure)
  | snapshotSaved (path : FilePath) (digest : String)

namespace Notice

def level : Notice → Level
  | .changeSkipped _ | .enumValuesIgnored .. | .snapshotIgnored .. => .warning
  | _ => .info

def source : Notice → String
  | .newTable _ | .newColumn .. | .newIndex .. | .changeSkipped _ => "schemaplan.migrations.diff"
  | .snapshotIgnored .. | .snapshotSaved .. => "schemaplan.migrations.snapshot"
  | _ => "schemaplan.migrations.generator"

/-- The message; why a snapshot is ignored is left to `wording`. -/
def message (wording : Failure → String) : Notice → String
  | .newTable table => "Detected new table: " ++ table.text
  | .newColumn table column => "Detected new column: " ++ table.text ++ "." ++ column.text
  | .newIndex table index => "Detected new index: " ++ index.text ++ " in " ++ table.text
  | .changeSkipped description => "Skipping destructive change: " ++ description
  | .enumValuesIgnored typeName kept ignored column =>
    "Enum type " ++ typeName ++ " already defined with values " ++ Text.quotedList kept ++
      "; ignoring " ++ Text.quotedList ignored ++ " from column " ++ column.text
  | .directoryCreated path => "Created SQL directory: " ++ path.text
  | .fileCreated name => "Migration file created: " ++ name
  | .fileUpdated name => "Migration file updated: " ++ name
  | .filesWritten summary => summary
  | .snapshotIgnored path cause =>
    "Ignoring unreadable plan snapshot " ++ path.text ++ ": " ++ wording cause
  | .snapshotSaved path digest =>
    "Saved plan snapshot " ++ path.text ++ " (" ++ Fingerprint.short digest ++ ")"

def line (wording : Failure → String) (n : Notice) : String :=
  n.level.name ++ " " ++ n.source ++ ": " ++ n.message wording

end Notice
end SchemaMigration
