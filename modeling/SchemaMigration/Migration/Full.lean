import SchemaMigration.Migration.EnumTypes
/-!
The migration that creates every table of a plan: first the tables, each after the enum types that it
needs, then the foreign keys, when both sides of each exist, then the indexes. Statements are grouped
into files that are named for what they do.
-/
namespace SchemaMigration

/-- Statements that belong together, under the name of their file. -/
structure MigrationFile where
  slug : String
  statements : List Statement
  deriving DecidableEq

namespace MigrationFile

def texts (d : Dialect) (f : MigrationFile) : List String := f.statements.map (Statement.text d)

def flatten (files : List MigrationFile) : List Statement := files.flatMap (·.statements)

@[simp] theorem flatten_nil : flatten [] = [] := rfl

@[simp] theorem flatten_cons (f : MigrationFile) (rest : List MigrationFile) :
    flatten (f :: rest) = f.statements ++ flatten rest := rfl

@[simp] theorem flatten_append (first second : List MigrationFile) :
    flatten (first ++ second) = flatten first ++ flatten second := List.flatMap_append

theorem flatten_flatten (groups : List (List MigrationFile)) :
    flatten groups.flatten = groups.flatMap flatten := by
  induction groups with
  | nil => rfl
  | cons group rest ih => simp [ih]

end MigrationFile

namespace Migration

def statement (d : Dialect) (s : Statement) : Reported Statement :=
  Reported.statement (Statement.faults d) s

def supportedStatement (d : Dialect) (s : Statement) : Reported (List Statement) :=
  if s.supported d then do return [← statement d s] else pure []

def createTableSlug (table : Value) : String := "create-" ++ table.text ++ "-table"
def foreignKeySlug (table column : Value) : String := "alter-" ++ table.text ++ "-" ++ column.text
def indexSlug (table index : Value) : String := "create-" ++ index.text ++ "-index-in-" ++ table.text

def createTableFile (d : Dialect) (types : EnumTypes) (t : Table) : Reported (EnumTypes × MigrationFile) := do
  let (types, enums) ← types.declare d t.columns
  let create ← statement d (.createTable t.name t.columns)
  return (types, ⟨createTableSlug t.name, enums ++ [create]⟩)

def createTableFiles (d : Dialect) : EnumTypes → List Table → Reported (EnumTypes × List MigrationFile)
  | types, [] => pure (types, [])
  | types, t :: rest => do
    let (types, file) ← createTableFile d types t
    let (types, files) ← createTableFiles d types rest
    return (types, file :: files)

def foreignKey (d : Dialect) (table : Value) (c : Column) : Reported (List Statement) :=
  match c.references with
  | none => pure []
  | some target => supportedStatement d (.addForeignKey table c.name target)

def foreignKeyFiles (d : Dialect) (t : Table) : Reported (List MigrationFile) := do
  let files ← Reported.collect (fun c => do
    let statements ← foreignKey d t.name c
    return if statements.isEmpty then [] else [⟨foreignKeySlug t.name c.name, statements⟩]) t.columns
  return files.flatten

def indexFiles (d : Dialect) (t : Table) : Reported (List MigrationFile) :=
  Reported.collect (fun i => do
    let create ← statement d (.createIndex t.name i)
    return ⟨indexSlug t.name i.name, [create]⟩) t.indexes

def tableFiles (d : Dialect) (types : EnumTypes) (tables : List Table) :
    Reported (EnumTypes × List MigrationFile) := do
  let (types, creates) ← createTableFiles d types tables
  let keys ← Reported.collect (foreignKeyFiles d) tables
  let indexes ← Reported.collect (indexFiles d) tables
  return (types, creates ++ keys.flatten ++ indexes.flatten)

end Migration

namespace Plan

def migrationFiles (p : Plan) : Reported (List MigrationFile) := do
  let (_, files) ← Migration.tableFiles p.dialect {} p.tables
  return files

def migration (p : Plan) : Reported (List Statement) := do
  return MigrationFile.flatten (← p.migrationFiles)

end Plan
end SchemaMigration
