import SchemaMigration.Sql.Column

namespace SchemaMigration

inductive Statement where
  | createType (name : String) (values : List String)
  | createTable (table : Value) (columns : List Column)
  | addColumn (table : Value) (column : Column)
  | addForeignKey (table column : Value) (target : Reference)
  | createIndex (table : Value) (index : Index)
  | modifyColumn (table : Value) (column : Column)
  | dropTable (table : Value)
  | dropColumn (table column : Value)
  | dropIndex (table index : Value)
  | dropType (name : String)
  deriving DecidableEq

namespace Statement
open Sql

/-- The table that records which migrations have run. -/
def bookkeepingTable : String := "migrations"

/-- The name of an index in the schema: index names are shared by all tables. -/
def indexName (table index : Value) : String := table.text ++ "_" ++ index.text

def foreignKeyName (table column : Value) : String := table.text ++ "_" ++ column.text ++ "_fk"

/-- Types are created on their own in one dialect, and one cannot add foreign keys later. -/
def supported (d : Dialect) : Statement → Bool
  | .createType .. | .dropType .. => d == .postgres
  | .addForeignKey .. => d != .sqlite
  | _ => true

def columnLines (d : Dialect) (columns : List Column) : String :=
  String.intercalate ",\n  " (columns.map (definition d))

def quotedNames (d : Dialect) (names : List Value) : String :=
  String.intercalate ", " (names.map (quoted d))

def createIndexText (d : Dialect) (table : Value) (index : Index) : String :=
  "CREATE " ++ (if index.kind = .unique then "UNIQUE " else "") ++ "INDEX " ++
    indexName table index.name ++ " ON " ++ quoted d table ++ " (" ++ quotedNames d index.columns ++ ");"

def addForeignKeyText (d : Dialect) (table column : Value) (target : Reference) : String :=
  "ALTER TABLE " ++ quoted d table ++ " ADD CONSTRAINT " ++ foreignKeyName table column ++
    " FOREIGN KEY (" ++ quoted d column ++ ") REFERENCES " ++ quoted d target.table ++
    "(" ++ quoted d target.column ++ ");"

def modifyColumnText (d : Dialect) (table : Value) (c : Column) : String :=
  match d with
  | .postgres =>
    "ALTER TABLE " ++ quoted d table ++ " ALTER COLUMN " ++ quoted d c.name ++ " TYPE " ++
      columnType d c ++ ";"
  | .mysql => "ALTER TABLE " ++ quoted d table ++ " MODIFY COLUMN " ++ addedDefinition d c ++ ";"
  | .sqlite =>
    "-- SQLite cannot alter column " ++ quoted d table ++ "." ++ quoted d c.name ++
      " in place; rebuild the table manually to change it to " ++ columnType d c

def dropIndexText (d : Dialect) (table index : Value) : String :=
  match d with
  | .mysql => "DROP INDEX " ++ indexName table index ++ " ON " ++ quoted d table ++ ";"
  | _ => "DROP INDEX IF EXISTS " ++ indexName table index ++ ";"

def text (d : Dialect) (s : Statement) : String :=
  if !s.supported d then ""
  else match s with
    | .createType name values =>
      "CREATE TYPE " ++ quoted d (.str name) ++ " AS ENUM (" ++ literals values ++ ");"
    | .createTable table columns =>
      "CREATE TABLE " ++ quoted d table ++ " (\n  " ++ columnLines d columns ++ "\n);"
    | .addColumn table c =>
      "ALTER TABLE " ++ quoted d table ++ " ADD COLUMN " ++ addedDefinition d c ++ ";"
    | .addForeignKey table column target => addForeignKeyText d table column target
    | .createIndex table index => createIndexText d table index
    | .modifyColumn table c => modifyColumnText d table c
    | .dropTable table =>
      "DROP TABLE IF EXISTS " ++ quoted d table ++ (if d = .postgres then " CASCADE;" else ";")
    | .dropColumn table column =>
      "ALTER TABLE " ++ quoted d table ++ " DROP COLUMN " ++ quoted d column ++ ";"
    | .dropIndex table index => dropIndexText d table index
    | .dropType name => "DROP TYPE IF EXISTS " ++ quoted d (.str name) ++ " CASCADE;"

def faults (d : Dialect) (s : Statement) : List Fault :=
  if !s.supported d then []
  else match s with
    | .createType .. | .dropType .. => []
    | .createTable table columns => columns.flatMap (definitionFaults d) ++ table.textFaults
    | .addColumn table c => definitionFaults d c ++ table.textFaults
    | .addForeignKey table column target =>
      table.textFaults ++ column.textFaults ++ target.table.textFaults ++ target.column.textFaults
    | .createIndex table index =>
      index.columns.flatMap Value.textFaults ++ table.textFaults ++ index.name.textFaults
    | .modifyColumn table c =>
      match d with
      | .mysql => definitionFaults d c ++ table.textFaults
      | _ => table.textFaults ++ c.name.textFaults
    | .dropTable table => table.textFaults
    | .dropColumn table column => table.textFaults ++ column.textFaults
    | .dropIndex table index => table.textFaults ++ index.textFaults

def createBookkeeping (d : Dialect) : String :=
  let lines := match d with
    | .postgres =>
      ["id SERIAL PRIMARY KEY", "migration VARCHAR(255) NOT NULL UNIQUE",
        "executed_at TIMESTAMP DEFAULT CURRENT_TIMESTAMP"]
    | .mysql =>
      ["id INT AUTO_INCREMENT PRIMARY KEY", "migration VARCHAR(255) NOT NULL UNIQUE",
        "executed_at TIMESTAMP DEFAULT CURRENT_TIMESTAMP"]
    | .sqlite =>
      ["id INTEGER PRIMARY KEY AUTOINCREMENT", "migration TEXT NOT NULL UNIQUE",
        "executed_at DATETIME DEFAULT CURRENT_TIMESTAMP"]
  "CREATE TABLE IF NOT EXISTS " ++ bookkeepingTable ++ " (\n  " ++ String.intercalate ",\n  " lines ++ "\n);"

def parameter : Dialect → String
  | .postgres => "$1"
  | .mysql | .sqlite => "?"

def executedQuery : String := "SELECT migration FROM " ++ bookkeepingTable ++ " ORDER BY executed_at"

def recordQuery (d : Dialect) : String :=
  "INSERT INTO " ++ bookkeepingTable ++ " (migration) VALUES (" ++ parameter d ++ ")"

end Statement
end SchemaMigration
