import SchemaMigration.Migration.Reported
import SchemaMigration.Sql.Statement
/-!
Enum types by name. A type is created once, by the first column that needs it; a later column that
has other values under the same name is told about and keeps the type as it is.
-/
namespace SchemaMigration

/-- The types that exist, in order. Those known from before come without their values. -/
structure EnumTypes where
  seen : List (String × Option (List String)) := []

namespace EnumTypes

def put (types : EnumTypes) (name : String) (values : Option (List String)) : EnumTypes :=
  match types.seen.lookup name with
  | some _ => types
  | none => ⟨types.seen ++ [(name, values)]⟩

def ofKnown : EnumTypes → List String → EnumTypes
  | types, [] => types
  | types, name :: rest => ofKnown (types.put name none) rest

/-- The notice about a column whose values the type of its name does not have. -/
def conflict? (kept : Option (List String)) (c : Column) : Option Notice :=
  match kept with
  | some values =>
    if values = c.enumMembers then none
    else some (.enumValuesIgnored (Sql.enumTypeName c) values c.enumMembers c.name)
  | none => none

/-- The statement that creates the type of an enum column, unless it exists. -/
def declareColumn (d : Dialect) (types : EnumTypes) (c : Column) : Reported (EnumTypes × List Statement) :=
  if !c.isEnum then pure (types, [])
  else do
    Reported.faults c.name.textFaults
    let name := Sql.enumTypeName c
    match types.seen.lookup name with
    | some kept =>
      match conflict? kept c with
      | some notice => Reported.tell notice
      | none => pure ()
      return (types, [])
    | none =>
      let s := Statement.createType name c.enumMembers
      return (types.put name (some c.enumMembers), if s.supported d then [s] else [])

def declare (d : Dialect) : EnumTypes → List Column → Reported (EnumTypes × List Statement)
  | types, [] => pure (types, [])
  | types, c :: rest => do
    let (types, first) ← types.declareColumn d c
    let (types, others) ← declare d types rest
    return (types, first ++ others)

end EnumTypes
end SchemaMigration
