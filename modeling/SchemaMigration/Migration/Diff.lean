import SchemaMigration.Json.Writer
import SchemaMigration.Migration.Full
import SchemaMigration.Text.Order
/-!
The migration from one plan to another, which only ever adds: new tables, new columns of tables that
stay, new indexes. What would lose or change something is not part of it. Such changes are listed
beside it, each with the statement that would make it.
-/
namespace SchemaMigration

inductive ChangeKind where
  | dropTable
  | dropColumn
  | dropIndex
  | alterColumn
  deriving DecidableEq

def ChangeKind.words : ChangeKind → String
  | .dropTable => "drop table"
  | .dropColumn => "drop column"
  | .dropIndex => "drop index"
  | .alterColumn => "alter column"

/-- A change that is left to the user: to a table, or to a column or an index of one. -/
structure SkippedChange where
  kind : ChangeKind
  table : Value
  name : Option Value
  statement : Statement
  deriving DecidableEq

/-- The change in words; a name that does not hold is not shown. -/
def SkippedChange.description (s : SkippedChange) : String :=
  let target := match s.name with
    | some name => if name.holds then s.table.text ++ "." ++ name.text else s.table.text
    | none => s.table.text
  s.kind.words ++ " " ++ target

namespace Column

/-- A default as it reads once it was stored: dates and decimals are texts then. -/
def storedDefault (c : Column) : Value :=
  match Json.substitute? c.defaultValue with
  | some text => .str text
  | none => c.defaultValue

def compareEnums (previous current : Column) : Comparison :=
  if previous.isEnum || current.isEnum then
    .ofBool (decide (Text.sort (previous.enumValues.getD []) = Text.sort (current.enumValues.getD [])))
  else .equal

/--
Compares the definitions of a column that kept its name. The order of enum values does not count,
and neither do references and keys.
-/
def compareDefinitions (previous current : Column) : Comparison :=
  .andAll
    [ .ofBool (decide (previous.type = current.type) && previous.isNullable == current.isNullable &&
        previous.hasDefault == current.hasDefault),
      previous.storedDefault.compare current.storedDefault,
      .ofBool (previous.isUnique == current.isUnique), compareEnums previous current ]

def differs (previous current : Column) : Bool := decide (previous.compareDefinitions current ≠ .equal)

end Column

namespace Diff
open Migration

/-- Without a previous plan, or with one for another dialect, everything is created anew. -/
def isFullRebuild (previous : Option Plan) (current : Plan) : Bool :=
  match previous with
  | none => true
  | some p => decide (p.dialect ≠ current.dialect)

def hashFaults (v : Value) : List Fault := if v.hashable then [] else [.unhashable]

def enumColumns (p : Plan) : List Column := p.tables.flatMap fun t => t.columns.filter (·.isEnum)

def knownTypes (p : Plan) : Reported EnumTypes := do
  Reported.faults ((enumColumns p).flatMap fun c => c.name.textFaults)
  return EnumTypes.ofKnown {} ((enumColumns p).map Sql.enumTypeName)

def newTables (previous current : Plan) : Reported (List Table) := do
  Reported.faults (current.tables.flatMap fun t => previous.tableFaults t.name)
  return current.tables.filter fun t => (previous.table? t.name).isNone

def tellNewTable (t : Table) : Reported Unit := do
  Reported.faults t.name.textFaults
  Reported.tell (.newTable t.name)

def addColumn (d : Dialect) (types : EnumTypes) (table : Value) (c : Column) :
    Reported (EnumTypes × List Statement) := do
  Reported.faults (table.textFaults ++ c.name.textFaults)
  Reported.tell (.newColumn table c.name)
  let (types, enums) ← types.declare d [c]
  let add ← statement d (.addColumn table c)
  let key ← foreignKey d table c
  return (types, enums ++ add :: key)

def hasColumn (columns : List Column) (name : Value) : Bool :=
  columns.any fun c => c.name.equals name

def addColumns (d : Dialect) (table : Value) (previous : List Column) :
    EnumTypes → List Column → Reported (EnumTypes × List Statement)
  | types, [] => pure (types, [])
  | types, c :: rest => do
    Reported.faults (hashFaults c.name)
    let (types, added) ←
      if hasColumn previous c.name then pure (types, []) else addColumn d types table c
    let (types, others) ← addColumns d table previous types rest
    return (types, added ++ others)

def hasIndex (indexes : List Index) (i : Index) : Bool :=
  indexes.any fun other => other.key == i.key

def addIndex (d : Dialect) (table : Value) (previous : List Index) (i : Index) :
    Reported (List Statement) := do
  Reported.faults i.keyFaults
  if hasIndex previous i then pure []
  else do
    Reported.faults (i.name.textFaults ++ table.textFaults)
    Reported.tell (.newIndex table i.name)
    return [← statement d (.createIndex table i)]

def alterTableSlug (table : Value) : String := "alter-" ++ table.text ++ "-table"

/-- New columns and then new indexes of a table that stays. -/
def alterTableFile (d : Dialect) (types : EnumTypes) (previous current : Table) :
    Reported (EnumTypes × MigrationFile) := do
  Reported.faults (current.name.textFaults ++ previous.columns.flatMap (fun c => hashFaults c.name) ++
    previous.indexes.flatMap Index.keyFaults)
  let (types, columns) ← addColumns d current.name previous.columns types current.columns
  let indexes ← Reported.collect (addIndex d current.name previous.indexes) current.indexes
  return (types, ⟨alterTableSlug current.name, columns ++ indexes.flatten⟩)

def alterTableFiles (d : Dialect) (previous : Plan) : EnumTypes → List Table → Reported (List MigrationFile)
  | _, [] => pure []
  | types, t :: rest =>
    match previous.table? t.name with
    | none => alterTableFiles d previous types rest
    | some before => do
      let (types, file) ← alterTableFile d types before t
      let files ← alterTableFiles d previous types rest
      return if file.statements.isEmpty then files else file :: files

def additions (previous current : Plan) : Reported (List MigrationFile) := do
  let d := current.dialect
  let types ← knownTypes previous
  let tables ← newTables previous current
  let _ ← Reported.collect tellNewTable tables
  let (types, created) ← tableFiles d types tables
  let altered ← alterTableFiles d previous types current.tables
  return created ++ altered

/-- The files of the migration; none where there is nothing to do. -/
def files (previous : Option Plan) (current : Plan) : Reported (List MigrationFile) :=
  match previous with
  | none => current.migrationFiles
  | some p => if isFullRebuild previous current then current.migrationFiles else additions p current

/-- Of tables with the same name the last one counts here. -/
def lastTable? (p : Plan) (name : Value) : Option Table :=
  p.tables.reverse.find? fun t => t.name.equals name

def skip (d : Dialect) (kind : ChangeKind) (table : Value) (name : Option Value) (s : Statement) :
    Reported SkippedChange := do
  let s ← statement d s
  return ⟨kind, table, name, s⟩

def droppedIndex (d : Dialect) (table : Value) (current : List Index) (i : Index) :
    Reported (List SkippedChange) := do
  Reported.faults i.keyFaults
  if hasIndex current i then pure []
  else do return [← skip d .dropIndex table (some i.name) (.dropIndex table i.name)]

def changedColumn (d : Dialect) (table : Value) (current : Table) (c : Column) :
    Reported (List SkippedChange) := do
  Reported.faults (current.columnFaults c.name)
  match current.column? c.name with
  | none => return [← skip d .dropColumn table (some c.name) (.dropColumn table c.name)]
  | some now => do
    Reported.faults (c.compareDefinitions now).faults
    if c.differs now then return [← skip d .alterColumn table (some c.name) (.modifyColumn table now)]
    else return []

def changedTable (current : Plan) (t : Table) : Reported (List SkippedChange) := do
  Reported.faults (hashFaults t.name)
  let d := current.dialect
  match lastTable? current t.name with
  | none => return [← skip d .dropTable t.name none (.dropTable t.name)]
  | some now => do
    Reported.faults (now.indexes.flatMap Index.keyFaults)
    let indexes ← Reported.collect (droppedIndex d t.name now.indexes) t.indexes
    let columns ← Reported.collect (changedColumn d t.name now) t.columns
    return indexes.flatten ++ columns.flatten

/-- Removals and alterations that the migration does not make, in the order of the tables. -/
def skippedFrom (previous current : Plan) : Reported (List SkippedChange) := do
  Reported.faults (current.tables.flatMap fun t => hashFaults t.name)
  let changes ← Reported.collect (changedTable current) previous.tables
  return changes.flatten

def skipped (previous : Option Plan) (current : Plan) : Reported (List SkippedChange) :=
  match previous with
  | none => pure []
  | some p => if isFullRebuild previous current then pure [] else skippedFrom p current

def describeFaults (s : SkippedChange) : List Fault :=
  s.table.textFaults ++ (s.name.map Value.textFaults).getD []

def tellSkipped (s : SkippedChange) : Reported Unit := do
  Reported.faults (describeFaults s)
  Reported.tell (.changeSkipped s.description)

/-- The statements of the migration. What it skips is told about. -/
def statements (previous : Option Plan) (current : Plan) : Reported (List Statement) := do
  let statements := MigrationFile.flatten (← files previous current)
  if isFullRebuild previous current then return statements
  else do
    let changes ← skipped previous current
    let _ ← Reported.collect tellSkipped changes
    return statements

def noChanges : String := "-- No changes detected"

/-- The texts of the statements; a migration between two plans is never without a text. -/
def script (previous : Option Plan) (current : Plan) : Reported (List String) := do
  let texts := (← statements previous current).map (Statement.text current.dialect)
  return if texts.isEmpty && !isFullRebuild previous current then [noChanges] else texts

end Diff
end SchemaMigration
