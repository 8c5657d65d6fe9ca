namespace SchemaMigration

inductive ColumnType where
  | string
  | text
  | boolean
  | integer
  | bigint
  | float
  | double
  | decimal
  | date
  | datetime
  | json
  | enum
  deriving DecidableEq, Repr

namespace ColumnType

def all : List ColumnType :=
  [.string, .text, .boolean, .integer, .bigint, .float, .double, .decimal, .date, .datetime, .json, .enum]

def name : ColumnType → String
  | .string => "string"
  | .text => "text"
  | .boolean => "boolean"
  | .integer => "integer"
  | .bigint => "bigint"
  | .float => "float"
  | .double => "double"
  | .decimal => "decimal"
  | .date => "date"
  | .datetime => "datetime"
  | .json => "json"
  | .enum => "enum"

def ofName? (s : String) : Option ColumnType := all.find? (·.name == s)

def isIntegral : ColumnType → Bool
  | .integer | .bigint => true
  | _ => false

end ColumnType

inductive IndexKind where
  | plain
  | unique
  deriving DecidableEq, Repr

namespace IndexKind

def all : List IndexKind := [.plain, .unique]

def name : IndexKind → String
  | .plain => "index"
  | .unique => "unique"

def ofName? (s : String) : Option IndexKind := all.find? (·.name == s)

end IndexKind
end SchemaMigration
