import SchemaMigration.Plan.Basic
/-!
The document form of a plan, in which plans are stored and compared by content. Writing it leaves
out what is absent. Reading it is liberal: flags may be of any kind, anything that can be listed
stands for a list, and missing entries take their defaults.
-/
namespace SchemaMigration

namespace Document

inductive Refusal where
  | missing (key : String)
  | notDialect (v : Value)
  | notColumnType (v : Value)
  | notIndexKind (v : Value)
  /-- Entries are asked of a value that is no dictionary. -/
  | noEntries
  /-- A value is indexed or listed that cannot be. -/
  | wrongKind
  | fault (f : Fault)
  deriving DecidableEq

def field (key : String) : Value → Except Refusal Value
  | .dict entries =>
    match entries.lookup key with
    | some v => .ok v
    | none => .error (.missing key)
  | _ => .error .wrongKind

def entriesOf : Value → Except Refusal (List (String × Value))
  | .dict entries => .ok entries
  | _ => .error .noEntries

def membersOf (v : Value) : Except Refusal (List Value) :=
  match v.members? with
  | some items => .ok items
  | none => .error .wrongKind

def each {α : Type} (read : Value → Except Refusal α) : List Value → Except Refusal (List α)
  | [] => .ok []
  | v :: rest => do
    let a ← read v
    let as ← each read rest
    return a :: as

def orRefuse {α : Type} (refusal : Refusal) : Option α → Except Refusal α
  | some a => .ok a
  | none => .error refusal

def writable (v : Value) (refusal : Refusal) : Refusal :=
  match v.textFaults with
  | [] => refusal
  | f :: _ => .fault f

def named? {α : Type} (ofName? : String → Option α) : Value → Option α
  | .str s => ofName? s
  | _ => none

def dialectOf (v : Value) : Except Refusal Dialect :=
  orRefuse (writable v (.notDialect v)) (named? Dialect.ofName? v)

def columnTypeOf (v : Value) : Except Refusal ColumnType :=
  orRefuse (writable v (.notColumnType v)) (named? ColumnType.ofName? v)

def indexKindOf (v : Value) : Except Refusal IndexKind :=
  orRefuse (writable v (.notIndexKind v)) (named? IndexKind.ofName? v)

def flag (entries : List (String × Value)) (key : String) (otherwise : Bool) : Bool :=
  match entries.lookup key with
  | some v => v.holds
  | none => otherwise

def textOf (v : Value) : Except Refusal String :=
  match v.textFaults with
  | [] => .ok v.text
  | f :: _ => .error (.fault f)

end Document

open Document

namespace Reference

def toValue (r : Reference) : Value := .dict [("table", r.table), ("column", r.column)]

def ofValue (v : Value) : Except Refusal Reference := do
  let table ← field "table" v
  let column ← field "column" v
  return ⟨table, column⟩

end Reference

namespace Column

def toValue (c : Column) : Value :=
  .dict <|
    [ ("name", c.name), ("type", .str c.type.name), ("isPrimaryKey", .bool c.isPrimaryKey),
      ("isUnique", .bool c.isUnique), ("isNullable", .bool c.isNullable),
      ("hasDefault", .bool c.hasDefault) ] ++
    (if c.defaultValue = .null then [] else [("defaultValue", c.defaultValue)]) ++
    (match c.references with
      | none => []
      | some r => [("references", r.toValue)]) ++
    (match c.enumValues with
      | none => []
      | some vs => [("enumValues", .list (vs.map .str))])

def referencesOf (entries : List (String × Value)) : Except Refusal (Option Reference) :=
  match entries.lookup "references" with
  | none => .ok none
  | some v => if v.holds then (Reference.ofValue v).map some else .ok none

def enumValuesOf (entries : List (String × Value)) : Except Refusal (Option (List String)) :=
  match entries.lookup "enumValues" with
  | none | some .null => .ok none
  | some v => do
    let vs ← membersOf v
    let texts ← each textOf vs
    return some texts

def ofValue (v : Value) : Except Refusal Column := do
  let entries ← entriesOf v
  let name ← field "name" v
  let type ← field "type" v
  let type ← columnTypeOf type
  let references ← referencesOf entries
  let enumValues ← enumValuesOf entries
  return {
    name, type, references, enumValues
    isPrimaryKey := flag entries "isPrimaryKey" false
    isUnique := flag entries "isUnique" false
    isNullable := flag entries "isNullable" true
    hasDefault := flag entries "hasDefault" false
    defaultValue := (entries.lookup "defaultValue").getD .null }

end Column

namespace Index

def toValue (i : Index) : Value :=
  .dict [("name", i.name), ("columns", .list i.columns), ("type", .str i.kind.name)]

def ofValue (v : Value) : Except Refusal Index := do
  let name ← field "name" v
  let columns ← field "columns" v
  let columns ← membersOf columns
  let entries ← entriesOf v
  let kind ← indexKindOf ((entries.lookup "type").getD (.str "index"))
  return { name, columns, kind }

end Index

namespace Table

def toValue (t : Table) : Value :=
  .dict [("table", t.name), ("columns", .list (t.columns.map Column.toValue)),
    ("indexes", .list (t.indexes.map Index.toValue))]

def ofValue (v : Value) : Except Refusal Table := do
  let name ← field "table" v
  let entries ← entriesOf v
  let columns ← membersOf ((entries.lookup "columns").getD (.list []))
  let columns ← each Column.ofValue columns
  let indexes ← membersOf ((entries.lookup "indexes").getD (.list []))
  let indexes ← each Index.ofValue indexes
  return { name, columns, indexes }

end Table

namespace Plan

def toValue (p : Plan) : Value :=
  .dict [("dialect", .str p.dialect.name), ("tables", .list (p.tables.map Table.toValue))]

def ofValue (v : Value) : Except Refusal Plan := do
  let dialect ← field "dialect" v
  let dialect ← dialectOf dialect
  let tables ← field "tables" v
  let tables ← membersOf tables
  let tables ← each Table.ofValue tables
  return { dialect, tables }

end Plan
end SchemaMigration
