import SchemaMigration.Model.Basic
import SchemaMigration.Plan.Basic
import SchemaMigration.Text.Uppercase
/-!
From an attribute to a column. The name decides the type first, then enum values, then a declared
type, then the default. Names that end in `_id` refer to the model they name.
-/
namespace SchemaMigration

namespace Inference

def maxStringLength : Nat := 255

def endsIn (ending name : String) : Bool := ending.toList.isSuffixOf name.toList
def startsWith (start name : String) : Bool := start.toList.isPrefixOf name.toList

def typeOfName? (name : String) : Option ColumnType :=
  if endsIn "_id" name then some .bigint
  else if endsIn "_at" name then some .datetime
  else if startsWith "is_" name || startsWith "has_" name then some .boolean
  else none

/-- Defaults are single values; any other is dropped. -/
def primitiveDefault : Value → Value
  | .list _ | .tuple _ | .dict _ | .foreign _ => .null
  | v => v

def typeOfDefault? : Value → Option ColumnType
  | .bool _ => some .boolean
  | .str s => some (if maxStringLength < s.length then .text else .string)
  | .int n => some (if -2147483648 ≤ n && n ≤ 2147483647 then .integer else .bigint)
  | .float _ => some .float
  | .decimal _ => some .decimal
  | .datetime _ => some .datetime
  | .date _ => some .date
  | _ => none

def columnType (name : String) (declared : Attribute) (isPrimaryKey : Bool) : ColumnType :=
  match typeOfName? name with
  | some t => t
  | none =>
    if !(declared.enumValues.getD []).isEmpty then .enum
    else match declared.type with
      | some t => t
      | none => match typeOfDefault? (primitiveDefault declared.default) with
        | some t => t
        | none => if isPrimaryKey then .bigint else .string

end Inference

/-- What references are resolved against: the table of each model and the key of each table. -/
structure Outline where
  modelTables : List (String × String) := []
  primaryKeys : List (String × String) := []

namespace Inference

def referredModel? (name : String) : Option String :=
  if endsIn "_id" name then
    some (Text.capitalizeFirst (String.ofList (name.toList.take (name.length - 3))))
  else none

def referenceNames? (name : String) (outline : Outline) : Option (String × String) := do
  let model ← referredModel? name
  let table ← outline.modelTables.lookup model
  return (table, (outline.primaryKeys.lookup table).getD "id")

def reference? (name : String) (outline : Outline) : Option Reference :=
  (referenceNames? name outline).map fun (table, column) => ⟨.str table, .str column⟩

/-- Without an outline there are no references. Columns are always nullable. -/
def column (name : String) (declared : Attribute) (isPrimaryKey : Bool) (outline : Option Outline) :
    Column :=
  let type := columnType name declared isPrimaryKey
  { name := .str name
    type, isPrimaryKey
    isUnique := declared.unique
    hasDefault := declared.hasDefault
    defaultValue := primitiveDefault declared.default
    references := outline.bind (reference? name)
    enumValues := if type = .enum then declared.enumValues else none }

end Inference
end SchemaMigration
