import SchemaMigration.Migration.Diff
import SchemaMigration.Proofs.Migration.EnumTypes
/-!
What is in a migration. Its statements are the new tables, each after its enum types, their keys and
indexes, and then the changes of the tables that stay. The objects it creates are the enum types of
its columns and, table by table, what `Diff.objectsIn` lists. A migration without a previous plan is
one from the plan without tables.
-/
namespace SchemaMigration

namespace Plan

def empty (d : Dialect) : Plan := ⟨d, []⟩

def enumTypeNames (p : Plan) : List String := (Diff.enumColumns p).map Sql.enumTypeName

theorem mem_enumTypeNames (p : Plan) (name : String) :
    name ∈ p.enumTypeNames ↔
      ∃ t ∈ p.tables, ∃ c ∈ t.columns, c.isEnum ∧ Sql.enumTypeName c = name := by
  simp only [enumTypeNames, Diff.enumColumns, List.mem_map, List.mem_flatMap, List.mem_filter]
  constructor
  · intro given
    rcases given with ⟨c, ⟨t, inPlan, inTable, enum⟩, same⟩
    exact ⟨t, inPlan, c, inTable, enum, same⟩
  · intro given
    rcases given with ⟨t, inPlan, c, inTable, enum, same⟩
    exact ⟨c, ⟨t, inPlan, inTable, enum⟩, same⟩

end Plan

namespace Diff
open Migration

def isNew (previous : Plan) (t : Table) : Bool := (previous.table? t.name).isNone

def createdIn (previous : Plan) (t : Table) : List Column :=
  match previous.table? t.name with
  | none => t.columns
  | some before => t.columns.filter fun c => !hasColumn before.columns c.name

def createdIndexes (previous : Plan) (t : Table) : List Index :=
  match previous.table? t.name with
  | none => t.indexes
  | some before => t.indexes.filter fun i => !hasIndex before.indexes i

/-- A column gets its key only together with its table. -/
def shapeIn (d : Dialect) (previous : Plan) (t : Table) (c : Column) : ColumnShape :=
  if isNew previous t then .ofNew d c else .ofAdded d c

def columnObjects (table : Value) (shape : Column → ColumnShape) (c : Column) : List SchemaObject :=
  .column table c.name :: .definition table c.name (shape c) :: c.keyObjects table

def objectsIn (d : Dialect) (previous : Plan) (t : Table) : List SchemaObject :=
  (if isNew previous t then [.table t.name] else []) ++
    (createdIn previous t).flatMap (columnObjects t.name (shapeIn d previous t)) ++
    (createdIndexes previous t).map (.index t.name)

def createdColumns (previous current : Plan) : List Column :=
  (current.tables.filter (isNew previous)).flatMap (·.columns) ++
    current.tables.flatMap fun t => if isNew previous t then [] else createdIn previous t

def createdTypes (previous current : Plan) : List SchemaObject :=
  created current.dialect
    ((knownTypes previous).value.declare current.dialect (createdColumns previous current)).value.2

theorem createdIn_of_isNew {previous : Plan} {t : Table} (new : isNew previous t) :
    createdIn previous t = t.columns := by
  rw [createdIn, Option.isNone_iff_eq_none.mp new]

theorem createdIn_sublist (previous : Plan) (t : Table) : (createdIn previous t).Sublist t.columns := by
  unfold createdIn
  split
  · exact .refl _
  · exact List.filter_sublist

theorem createdIndexes_subset (previous : Plan) (t : Table) : createdIndexes previous t ⊆ t.indexes := by
  unfold createdIndexes
  split
  · exact List.Subset.refl _
  · exact List.filter_sublist.subset

theorem mem_createdColumns (previous current : Plan) (c : Column) :
    c ∈ createdColumns previous current ↔ ∃ t ∈ current.tables, c ∈ createdIn previous t := by
  simp only [createdColumns, List.mem_append, List.mem_flatMap, List.mem_filter]
  constructor
  · intro given
    rcases given with ⟨t, ⟨inPlan, new⟩, inTable⟩ | ⟨t, inPlan, inTable⟩
    · exact ⟨t, inPlan, by rwa [createdIn_of_isNew new]⟩
    · by_cases new : isNew previous t
      · simp [new] at inTable
      · exact ⟨t, inPlan, by simpa [new] using inTable⟩
  · intro given
    rcases given with ⟨t, inPlan, inTable⟩
    by_cases new : isNew previous t
    · exact .inl ⟨t, ⟨inPlan, new⟩, by rwa [createdIn_of_isNew new] at inTable⟩
    · exact .inr ⟨t, inPlan, by simpa [new] using inTable⟩

theorem mem_names_knownTypes (p : Plan) (name : String) :
    name ∈ (knownTypes p).value.names ↔ name ∈ p.enumTypeNames := by
  change name ∈ (EnumTypes.ofKnown {} _).names ↔ _
  rw [EnumTypes.mem_names_ofKnown]
  exact or_iff_right List.not_mem_nil

theorem mem_createdTypes (previous current : Plan) (object : SchemaObject) :
    object ∈ createdTypes previous current ↔
      current.dialect = .postgres ∧ ∃ c ∈ createdColumns previous current, c.isEnum ∧
        Sql.enumTypeName c ∉ previous.enumTypeNames ∧ object = .enumType (Sql.enumTypeName c) := by
  simp only [createdTypes, EnumTypes.mem_created_declare, mem_names_knownTypes]

section
variable (d : Dialect) (t : Table)

@[simp] theorem createdIn_empty : createdIn (.empty d) t = t.columns := rfl

@[simp] theorem createdIndexes_empty : createdIndexes (.empty d) t = t.indexes := rfl

@[simp] theorem shapeIn_empty (c : Column) : shapeIn d (.empty d) t c = .ofNew d c := rfl

end

/-! The statements in their order. -/

theorem foreignKey_value (d : Dialect) (table : Value) (c : Column) :
    (foreignKey d table c).value =
      if d = .sqlite then [] else c.references.toList.map (.addForeignKey table c.name) := by
  unfold foreignKey
  cases c.references with
  | none => simp
  | some target => cases d <;> rfl

theorem mem_foreignKey (d : Dialect) (table : Value) (c : Column) (s : Statement) :
    s ∈ (foreignKey d table c).value ↔
      d ≠ .sqlite ∧ ∃ target, c.references = some target ∧ s = .addForeignKey table c.name target := by
  rw [foreignKey_value]
  split <;> simp [*, eq_comm]

def keyStatements (d : Dialect) (t : Table) : List Statement :=
  t.columns.flatMap fun c => (foreignKey d t.name c).value

def indexStatements (t : Table) : List Statement := t.indexes.map (.createIndex t.name)

theorem flatten_foreignKeyFiles (d : Dialect) (t : Table) :
    MigrationFile.flatten (foreignKeyFiles d t).value = keyStatements d t := by
  simp only [foreignKeyFiles, Reported.value_bind, Reported.value_collect, Reported.value_pure, keyStatements]
  induction t.columns with
  | nil => rfl
  | cons c rest ih =>
      rw [List.map_cons, List.flatten_cons, MigrationFile.flatten_append, ih, List.flatMap_cons]
      cases keys : (foreignKey d t.name c).value <;> simp

theorem flatten_indexFiles (d : Dialect) (t : Table) :
    MigrationFile.flatten (indexFiles d t).value = indexStatements t := by
  simp only [indexFiles, Reported.value_collect, indexStatements]
  induction t.indexes with
  | nil => rfl
  | cons i rest ih => exact congrArg (Statement.createIndex t.name i :: ·) ih

theorem flatten_tableFiles (d : Dialect) (types : EnumTypes) (tables : List Table) :
    MigrationFile.flatten (tableFiles d types tables).value.2 =
      MigrationFile.flatten (createTableFiles d types tables).value.2 ++
        tables.flatMap (keyStatements d) ++ tables.flatMap indexStatements := by
  change MigrationFile.flatten (_ ++ List.flatten _ ++ List.flatten _) = _
  simp only [MigrationFile.flatten_append, MigrationFile.flatten_flatten, Reported.value_collect,
    List.flatMap_map, flatten_foreignKeyFiles, flatten_indexFiles]

def alterStatements (d : Dialect) (types : EnumTypes) (before t : Table) : List Statement :=
  (addColumns d t.name before.columns types t.columns).value.2 ++
    (t.indexes.filter fun i => !hasIndex before.indexes i).map (.createIndex t.name)

theorem alterTableFile_value (d : Dialect) (types : EnumTypes) (before t : Table) :
    (alterTableFile d types before t).value =
      ((addColumns d t.name before.columns types t.columns).value.1,
        ⟨alterTableSlug t.name, alterStatements d types before t⟩) := by
  have indexes : ((Reported.collect (addIndex d t.name before.indexes) t.indexes).value).flatten =
      (t.indexes.filter fun i => !hasIndex before.indexes i).map (.createIndex t.name) := by
    rw [Reported.value_collect]
    induction t.indexes with
    | nil => rfl
    | cons i rest ih =>
        rw [List.map_cons, List.flatten_cons, ih]
        cases had : hasIndex before.indexes i <;> simp [addIndex, had, statement, Reported.statement]
  rw [alterStatements, ← indexes]
  rfl

theorem flatten_alterTableFiles_cons (d : Dialect) (previous : Plan) (types : EnumTypes) (t : Table)
    (rest : List Table) :
    MigrationFile.flatten (alterTableFiles d previous types (t :: rest)).value =
      match previous.table? t.name with
      | none => MigrationFile.flatten (alterTableFiles d previous types rest).value
      | some before => alterStatements d types before t ++
          MigrationFile.flatten (alterTableFiles d previous
            (addColumns d t.name before.columns types t.columns).value.1 rest).value := by
  rw [alterTableFiles]
  cases previous.table? t.name with
  | none => rfl
  | some before =>
      simp only [Reported.value_bind, Reported.value_pure, alterTableFile_value]
      cases alterStatements d types before t <;> rfl

theorem flatten_additions (previous current : Plan) :
    MigrationFile.flatten (additions previous current).value =
      MigrationFile.flatten (tableFiles current.dialect (knownTypes previous).value
          (current.tables.filter (isNew previous))).value.2 ++
        MigrationFile.flatten (alterTableFiles current.dialect previous
          (createTableFiles current.dialect (knownTypes previous).value
            (current.tables.filter (isNew previous))).value.1 current.tables).value :=
  MigrationFile.flatten_append _ _

theorem statements_some (previous current : Plan) (same : previous.dialect = current.dialect) :
    (statements (some previous) current).value =
      MigrationFile.flatten (additions previous current).value := by
  have incremental : isFullRebuild (some previous) current = false := by simp [isFullRebuild, same]
  simp [statements, files, incremental]

theorem additions_empty (p : Plan) :
    MigrationFile.flatten (additions (.empty p.dialect) p).value = p.migration.value := by
  have all : p.tables.filter (isNew (.empty p.dialect)) = p.tables :=
    List.filter_eq_self.mpr fun _ _ => rfl
  have unaltered : ∀ (types : EnumTypes) (tables : List Table),
      (alterTableFiles p.dialect (.empty p.dialect) types tables).value = [] := by
    intro types tables
    induction tables with
    | nil => rfl
    | cons t rest ih => exact ih
  rw [flatten_additions, all, unaltered, MigrationFile.flatten_nil, List.append_nil]
  rfl

theorem statements_empty (p : Plan) : (statements (some (.empty p.dialect)) p).value = p.migration.value := by
  rw [statements_some (.empty p.dialect) p rfl, additions_empty]

theorem statements_none (p : Plan) : (statements none p).value = p.migration.value := rfl

end Diff
end SchemaMigration
