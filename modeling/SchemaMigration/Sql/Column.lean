import SchemaMigration.Plan.Basic
import SchemaMigration.Sql.Literal

namespace SchemaMigration.Sql

def enumTypeName (c : Column) : String := c.name.text ++ "_type"

def postgresType : ColumnType → String
  | .string => "varchar(255)"
  | .text => "text"
  | .boolean => "boolean"
  | .integer => "integer"
  | .bigint => "bigint"
  | .float => "real"
  | .double => "double precision"
  | .decimal => "decimal(10,2)"
  | .date => "date"
  | .datetime => "timestamp"
  | .json => "jsonb"
  | .enum => "text"

def mysqlType : ColumnType → String
  | .string => "varchar(255)"
  | .text => "text"
  | .boolean => "tinyint(1)"
  | .integer => "integer"
  | .bigint => "bigint"
  | .float => "real"
  | .double => "double precision"
  | .decimal => "decimal(10,2)"
  | .date => "date"
  | .datetime => "datetime"
  | .json => "json"
  | .enum => "text"

def sqliteType : ColumnType → String
  | .boolean | .integer | .bigint => "INTEGER"
  | .float | .double | .decimal => "REAL"
  | .string | .text | .date | .datetime | .json | .enum => "TEXT"

def plainType : Dialect → ColumnType → String
  | .postgres => postgresType
  | .mysql => mysqlType
  | .sqlite => sqliteType

/-- The type of an enum column: a type of its own, an inline one, or a text that is checked. -/
def enumType (d : Dialect) (c : Column) : String :=
  match d with
  | .postgres => enumTypeName c
  | .mysql => "ENUM(" ++ literals c.enumMembers ++ ")"
  | .sqlite => "TEXT CHECK (" ++ quoted d c.name ++ " IN (" ++ literals c.enumMembers ++ "))"

def columnType (d : Dialect) (c : Column) : String :=
  if c.isEnum then enumType d c else plainType d c.type

/-- What stands in the way of writing the type: an enum's may be named after the column. -/
def columnTypeFaults (d : Dialect) (c : Column) : List Fault :=
  if c.isEnum && d != .mysql then c.name.textFaults else []

/-- Integral keys count by themselves; where a type says so, it takes the place of the column's. -/
def keyType (d : Dialect) (c : Column) : String :=
  match d, c.type with
  | .postgres, .integer => "SERIAL"
  | .postgres, .bigint => "BIGSERIAL"
  | _, _ => columnType d c

def countingClause? (d : Dialect) (c : Column) : Option String :=
  if c.isPrimaryKey && c.type.isIntegral then
    match d with
    | .postgres => none
    | .mysql => some "AUTO_INCREMENT"
    | .sqlite => some "AUTOINCREMENT"
  else none

def defaultText (d : Dialect) : Value → String
  | .str s => literal s
  | .bool b => booleanLiteral d b
  | .datetime t => "'" ++ String.ofList (t.sqlText?.getD t.toMillis) ++ "'"
  | .date day => "'" ++ String.ofList day.text ++ "'"
  | v => v.text

def defaultClause? (d : Dialect) (c : Column) : Option String :=
  if c.hasDefault && decide (c.defaultValue ≠ .null) then
    some ("default " ++ defaultText d c.defaultValue)
  else none

def defaultFaults (c : Column) : List Fault :=
  if c.hasDefault then
    match c.defaultValue with
    | .datetime t => if t.sqlText?.isSome then [] else [.outsideCalendar]
    | v => v.textFaults
  else []

/-- Where there is no statement that adds a foreign key, the column carries its reference. -/
def inlineReference? (d : Dialect) (c : Column) : Option String :=
  match d, c.references with
  | .sqlite, some r =>
    some ("REFERENCES " ++ quoted d r.table ++ "(" ++ quoted d r.column ++ ")")
  | _, _ => none

def referenceFaults (d : Dialect) (c : Column) : List Fault :=
  match d, c.references with
  | .sqlite, some r => r.table.textFaults ++ r.column.textFaults
  | _, _ => []

def notNull? (c : Column) : Option String :=
  if !c.isNullable && !c.isPrimaryKey then some "not null" else none

def constraints (d : Dialect) (c : Column) : List String :=
  (notNull? c).toList ++ (defaultClause? d c).toList ++ (inlineReference? d c).toList

def spaced (parts : List String) : String := String.intercalate " " parts

def definition (d : Dialect) (c : Column) : String :=
  let type := if c.isPrimaryKey then keyType d c else columnType d c
  let key := if c.isPrimaryKey then "PRIMARY KEY" :: (countingClause? d c).toList else []
  spaced (quoted d c.name :: type :: key ++ constraints d c)

/-- The definition of a column of a table that is already there: never its key. -/
def addedDefinition (d : Dialect) (c : Column) : String :=
  spaced (quoted d c.name :: columnType d c :: constraints d c)

def definitionFaults (d : Dialect) (c : Column) : List Fault :=
  c.name.textFaults ++ defaultFaults c ++ referenceFaults d c

end SchemaMigration.Sql
