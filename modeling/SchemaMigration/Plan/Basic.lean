import SchemaMigration.ColumnType
import SchemaMigration.Dialect
import SchemaMigration.Value.Comparison
import SchemaMigration.Value.Equality
import SchemaMigration.Value.Text
/-!
A plan: the tables of a schema for one dialect, with their columns and indexes in order. Plans built
from models have texts for names. A plan read from a document keeps whatever stands there, so names
are values; a look-up by name finds the first one that says the same.
-/
namespace SchemaMigration

structure Reference where
  table : Value
  column : Value
  deriving DecidableEq

def Reference.compareAny : Option Reference → Option Reference → Comparison
  | none, none => .equal
  | some a, some b => (a.table.compare b.table).andThen (a.column.compare b.column)
  | _, _ => .unequal

structure Column where
  name : Value
  type : ColumnType
  isPrimaryKey : Bool := false
  isUnique : Bool := false
  isNullable : Bool := true
  hasDefault : Bool := false
  /-- Null where there is no default or a null one. -/
  defaultValue : Value := .null
  references : Option Reference := none
  enumValues : Option (List String) := none
  deriving DecidableEq

structure Index where
  name : Value
  columns : List Value
  kind : IndexKind := .plain
  deriving DecidableEq

structure Table where
  name : Value
  columns : List Column := []
  indexes : List Index := []
  deriving DecidableEq

structure Plan where
  dialect : Dialect
  tables : List Table := []
  deriving DecidableEq

namespace Column

def enumMembers (c : Column) : List String :=
  if c.type = .enum then c.enumValues.getD [] else []

def isEnum (c : Column) : Bool := !c.enumMembers.isEmpty

def compareFlags (a b : Column) : Comparison :=
  .ofBool (decide (a.type = b.type) && a.isPrimaryKey == b.isPrimaryKey &&
    a.isUnique == b.isUnique && a.isNullable == b.isNullable && a.hasDefault == b.hasDefault)

def compare (a b : Column) : Comparison :=
  .andAll
    [ a.name.compare b.name, a.compareFlags b, a.defaultValue.compare b.defaultValue,
      Reference.compareAny a.references b.references, .ofBool (decide (a.enumValues = b.enumValues)) ]

end Column

namespace Index

/-- What makes two indexes of a table the same: kind, name and columns. -/
def key (i : Index) : String :=
  i.kind.name ++ ":" ++ i.name.text ++ ":" ++ String.intercalate "," (i.columns.map Value.text)

def isText : Value → Bool
  | .str _ => true
  | _ => false

/-- The key is only made of columns that are texts. -/
def keyFaults (i : Index) : List Fault :=
  i.name.textFaults ++ (if i.columns.all isText then [] else [.notText])

def compare (a b : Index) : Comparison :=
  .andAll
    [ a.name.compare b.name, .ofLists Value.compare a.columns b.columns,
      .ofBool (decide (a.kind = b.kind)) ]

end Index

namespace Table

def column? (t : Table) (name : Value) : Option Column :=
  t.columns.find? fun c => c.name.equals name

def columnFaults (t : Table) (name : Value) : List Fault :=
  Comparison.searchFaults (fun c => c.name.compare name) t.columns

def primaryKey? (t : Table) : Option Column := t.columns.find? (·.isPrimaryKey)

def compare (a b : Table) : Comparison :=
  .andAll
    [ a.name.compare b.name, .ofLists Column.compare a.columns b.columns,
      .ofLists Index.compare a.indexes b.indexes ]

end Table

namespace Plan

def table? (p : Plan) (name : Value) : Option Table :=
  p.tables.find? fun t => t.name.equals name

def tableFaults (p : Plan) (name : Value) : List Fault :=
  Comparison.searchFaults (fun t => t.name.compare name) p.tables

def tableNames (p : Plan) : List Value := p.tables.map (·.name)

/-- Plans have no identity: the same content makes the same plan. -/
def compare (a b : Plan) : Comparison :=
  (Comparison.ofBool (decide (a.dialect = b.dialect))).andThen (.ofLists Table.compare a.tables b.tables)

def summary (p : Plan) : String :=
  "MigrationPlan(dialect='" ++ p.dialect.name ++ "', tables=" ++ (Value.list p.tableNames).named ++ ")"

end Plan
end SchemaMigration
