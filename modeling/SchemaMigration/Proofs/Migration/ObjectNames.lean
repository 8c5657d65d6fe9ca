import SchemaMigration.Proofs.Plan.Named
import SchemaMigration.Proofs.Text.Joined

namespace SchemaMigration

namespace Value

theorem IsText.eq_of_text_eq {v w : Value} (first : v.IsText) (second : w.IsText) (same : v.text = w.text) : v = w := by
  rcases first with ⟨s, rfl⟩
  rcases second with ⟨t, rfl⟩
  exact congrArg Value.str same

theorem nodup_map_text {names : List Value} (texts : ∀ name ∈ names, name.IsText) (distinct : names.Nodup) :
    (names.map text).Nodup :=
  distinct.map_on fun v listed w alsoListed same => (texts v listed).eq_of_text_eq (texts w alsoListed) same

end Value

namespace Statement

def indexNamed? : Statement → Option String
  | .createIndex table index => some (indexName table index.name)
  | _ => none

def constraintNamed? : Statement → Option String
  | .addForeignKey table column _ => some (foreignKeyName table column)
  | _ => none

end Statement

namespace Table

def indexTexts (t : Table) : List String := t.indexes.map (·.name.text)

def indexNames (t : Table) : List String := t.indexes.map fun i => Statement.indexName t.name i.name

theorem indexNames_eq_joined (t : Table) : t.indexNames = Text.joined t.name.text t.indexTexts :=
  (List.map_map ..).symm

def keyTexts (t : Table) : List String := (t.columns.filter (·.references.isSome)).map (·.name.text)

def keyNames (t : Table) : List String :=
  (t.columns.filter (·.references.isSome)).map fun c => Statement.foreignKeyName t.name c.name

theorem keyNames_eq_joined (t : Table) : t.keyNames = (Text.joined t.name.text t.keyTexts).map (· ++ "_fk") := by
  simp only [keyNames, Text.joined, keyTexts, List.map_map]
  rfl

end Table

def Plan.indexNames (p : Plan) : List String := p.tables.flatMap (·.indexNames)

namespace Diff
open Migration
variable {α : Type} {view : Statement → Option α}

theorem filterMap_columnStatements (tables : ∀ table columns, view (.createTable table columns) = none)
    (columns : ∀ table c, view (.addColumn table c) = none) (previous : Plan) (t : Table) :
    (columnStatements previous t).filterMap view = [] := by
  rw [List.filterMap_eq_nil_iff, columnStatements]
  intro s member
  split at member
  case isTrue =>
    rw [List.mem_singleton.mp member]
    exact tables t.name t.columns
  case isFalse =>
    rcases List.mem_map.mp member with ⟨c, -, rfl⟩
    exact columns t.name c

/-- What is seen of a migration by who only looks at foreign keys and indexes. -/
theorem filterMap_additions_perm (types : ∀ name values, view (.createType name values) = none)
    (tables : ∀ table columns, view (.createTable table columns) = none)
    (columns : ∀ table c, view (.addColumn table c) = none) (previous current : Plan) :
    ((MigrationFile.flatten (additions previous current).value).filterMap view).Perm
      (current.tables.flatMap fun t =>
        ((createdIn previous t).flatMap fun c => (foreignKey current.dialect t.name c).value).filterMap view ++
          ((createdIndexes previous t).map (.createIndex t.name)).filterMap view) := by
  have typeless : ∀ s ∈ ((knownTypes previous).value.declare current.dialect (createdColumns previous current)).value.2,
      view s = none := by
    intro s member
    rcases EnumTypes.declare_only_types _ _ _ s member with ⟨name, values, rfl⟩
    exact types name values
  have seen := (additions_perm previous current).filterMap view
  rw [List.filterMap_append, List.filterMap_eq_nil_iff.mpr typeless, List.nil_append, List.filterMap_flatMap] at seen
  simpa only [tableStatements, List.filterMap_append, filterMap_columnStatements tables columns,
    List.nil_append] using seen

theorem filterMap_indexNamed_foreignKey (d : Dialect) (table : Value) (columns : List Column) :
    (columns.flatMap fun c => (foreignKey d table c).value).filterMap Statement.indexNamed? = [] := by
  rw [List.filterMap_eq_nil_iff]
  intro s member
  rcases List.mem_flatMap.mp member with ⟨c, -, key⟩
  rcases (mem_foreignKey ..).mp key with ⟨-, target, -, rfl⟩
  rfl

theorem filterMap_indexNamed_createIndex (table : Value) (indexes : List Index) :
    (indexes.map (.createIndex table)).filterMap Statement.indexNamed? =
      indexes.map fun i => Statement.indexName table i.name := by
  rw [List.filterMap_map]
  exact congrFun List.filterMap_eq_map indexes

theorem filterMap_constraintNamed_foreignKey (d : Dialect) (table : Value) (columns : List Column) :
    (columns.flatMap fun c => (foreignKey d table c).value).filterMap Statement.constraintNamed? =
      if d = .sqlite then []
      else (columns.filter (·.references.isSome)).map fun c => Statement.foreignKeyName table c.name := by
  induction columns with
  | nil => simp
  | cons c rest ih =>
      rw [List.flatMap_cons, List.filterMap_append, ih, foreignKey_value]
      by_cases inline : d = .sqlite
      · simp [inline]
      · cases references : c.references <;> simp [inline, references, Statement.constraintNamed?]

theorem filterMap_constraintNamed_createIndex (table : Value) (indexes : List Index) :
    (indexes.map (.createIndex table)).filterMap Statement.constraintNamed? = [] := by
  rw [List.filterMap_eq_nil_iff, List.forall_mem_map]
  exact fun _ _ => rfl

theorem indexNames_additions_perm (previous current : Plan) :
    ((MigrationFile.flatten (additions previous current).value).filterMap Statement.indexNamed?).Perm
      (current.tables.flatMap fun t =>
        (createdIndexes previous t).map fun i => Statement.indexName t.name i.name) := by
  have seen := @filterMap_additions_perm _ Statement.indexNamed? (fun _ _ => rfl) (fun _ _ => rfl) (fun _ _ => rfl)
    previous current
  simpa only [filterMap_indexNamed_foreignKey, filterMap_indexNamed_createIndex, List.nil_append] using seen

end Diff

namespace Plan

theorem WellNamed.tableTexts_distinct {p : Plan} (named : p.WellNamed) : (p.tables.map (·.name.text)).Nodup := by
  have distinct := Value.nodup_map_text (List.forall_mem_map.mpr named.tableTexts) named.tablesDistinct
  rwa [List.map_map] at distinct

theorem WellNamed.keyTexts_nodup {p : Plan} (named : p.WellNamed) {t : Table} (inPlan : t ∈ p.tables) :
    t.keyTexts.Nodup := by
  have distinct := Value.nodup_map_text (List.forall_mem_map.mpr (named.columnTexts t inPlan))
    (named.columnsDistinct t inPlan)
  rw [List.map_map] at distinct
  exact distinct.sublist (List.filter_sublist.map _)

theorem WellNamed.indexNames_nodup_iff {p : Plan} (named : p.WellNamed) :
    p.indexNames.Nodup ↔ (∀ t ∈ p.tables, t.indexTexts.Nodup) ∧
      ∀ t ∈ p.tables, ∀ u ∈ p.tables, ¬ Text.Overlaps t.name.text t.indexTexts u.name.text u.indexTexts := by
  simp only [indexNames, Table.indexNames_eq_joined]
  exact Text.nodup_flatMap_joined_iff named.tableTexts_distinct Table.indexTexts

theorem WellNamed.keyNames_nodup_iff {p : Plan} (named : p.WellNamed) :
    (p.tables.flatMap (·.keyNames)).Nodup ↔
      ∀ t ∈ p.tables, ∀ u ∈ p.tables, ¬ Text.Overlaps t.name.text t.keyTexts u.name.text u.keyTexts := by
  have ended : (p.tables.flatMap (·.keyNames)) =
      (p.tables.flatMap fun t => Text.joined t.name.text t.keyTexts).map (· ++ "_fk") := by
    simp only [Table.keyNames_eq_joined, List.map_flatMap]
  have ending : Function.Injective fun name : String => name ++ "_fk" := fun _ _ same => by simpa using same
  rw [ended, List.nodup_map_iff ending, Text.nodup_flatMap_joined_iff named.tableTexts_distinct Table.keyTexts]
  exact and_iff_right fun t inPlan => named.keyTexts_nodup inPlan

variable (p : Plan)

theorem indexNames_migration_perm : (p.migration.value.filterMap Statement.indexNamed?).Perm p.indexNames := by
  rw [← Diff.additions_empty]
  exact Diff.indexNames_additions_perm (.empty p.dialect) p

theorem keyNames_migration_perm : (p.migration.value.filterMap Statement.constraintNamed?).Perm
    (if p.dialect = .sqlite then [] else p.tables.flatMap (·.keyNames)) := by
  have seen := @Diff.filterMap_additions_perm _ Statement.constraintNamed? (fun _ _ => rfl) (fun _ _ => rfl)
    (fun _ _ => rfl) (.empty p.dialect) p
  rw [Diff.additions_empty] at seen
  simp only [Diff.filterMap_constraintNamed_foreignKey, Diff.filterMap_constraintNamed_createIndex,
    List.append_nil, Diff.createdIn_empty] at seen
  split
  case isTrue inline =>
    have typeless : (p.tables.flatMap fun _ => ([] : List String)) = [] := List.flatMap_eq_nil_iff.mpr fun _ _ => rfl
    simpa only [if_pos inline, typeless] using seen
  case isFalse apart =>
    simp only [if_neg apart] at seen
    exact seen

end Plan
end SchemaMigration
