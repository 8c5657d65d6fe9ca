import SchemaMigration.Migration.Reported
import SchemaMigration.Sql.Statement

namespace SchemaMigration.Reset

def addNew (names : List String) (name : String) : List String :=
  if names.contains name then names else names ++ [name]

/-- Names of the enum types that a plan uses, in the order of their first use. -/
def enumTypes (p : Plan) : List String :=
  ((p.tables.flatMap fun t => t.columns.filter (·.isEnum)).map Sql.enumTypeName).foldl addNew []

def enumTypeFaults (p : Plan) : List Fault :=
  (p.tables.flatMap fun t => t.columns.filter (·.isEnum)).flatMap fun c => c.name.textFaults

/-- The statements; the bookkeeping table is dropped first, if at all. -/
def statements (p : Plan) (withBookkeeping : Bool) : Reported (List Statement) := do
  let bookkeeping :=
    if withBookkeeping then [Statement.dropTable (.str Statement.bookkeepingTable)] else []
  let tables ← Reported.collect
    (fun t => Reported.statement (Statement.faults p.dialect) (.dropTable t.name)) p.tables.reverse
  Reported.faults (enumTypeFaults p)
  let types := (enumTypes p).map Statement.dropType
  return bookkeeping ++ tables ++ types.filter (·.supported p.dialect)

end SchemaMigration.Reset
