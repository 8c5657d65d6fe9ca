import SchemaMigration.ColumnType
import SchemaMigration.Value.Basic

namespace SchemaMigration

structure Attribute where
  default : Value := .null
  /-- A default was declared, be it null. -/
  hasDefault : Bool := false
  unique : Bool := false
  enumValues : Option (List String) := none
  type : Option ColumnType := none

structure IndexDefinition where
  name : String
  columns : List String

structure Model where
  name : String
  table : Option String := none
  primaryKey : Option String := none
  attributes : List (String × Attribute) := []
  indexes : List IndexDefinition := []

namespace Model

/-- The declared table, or the name in lower case with an `s` behind it. -/
def tableName (m : Model) : String :=
  m.table.getD (String.ofList (m.name.toList.map Char.toLower) ++ "s")

def primaryKeyName (m : Model) : String := m.primaryKey.getD "id"

end Model

/-- Models under the names by which attributes refer to them, in order of declaration. -/
abbrev ModelSet := List (String × Model)

end SchemaMigration
