import SchemaMigration.Proofs.Migration.Composition
import Mathlib.Data.List.Count

namespace SchemaMigration

theorem Column.inlineKeys_append_foreignKey (d : Dialect) (table : Value) (c : Column) :
    c.inlineKeys d table ++ created d (Migration.foreignKey d table c).value = c.keyObjects table := by
  unfold Column.inlineKeys Column.keyObjects Migration.foreignKey
  cases c.references with
  | none => cases d <;> rfl
  | some target => cases d <;> rfl

theorem created_perm {d : Dialect} {first second : List Statement} (same : first.Perm second) :
    (created d first).Perm (created d second) := same.flatMap_right _

theorem created_flatMap {α : Type} (d : Dialect) (items : List α) (statements : α → List Statement) :
    created d (items.flatMap statements) = items.flatMap fun a => created d (statements a) :=
  List.flatMap_assoc

theorem created_map {α : Type} (d : Dialect) (items : List α) (statement : α → Statement) :
    created d (items.map statement) = items.flatMap fun a => (statement a).creates d :=
  List.flatMap_map ..

theorem created_createIndex (d : Dialect) (table : Value) (indexes : List Index) :
    created d (indexes.map (.createIndex table)) = indexes.map (.index table) := by
  rw [created_map, List.map_eq_flatMap]
  rfl

namespace Diff
open Migration

theorem created_createTableFiles (d : Dialect) (types : EnumTypes) (tables : List Table) :
    (created d (MigrationFile.flatten (createTableFiles d types tables).value.2)).Perm
      (created d (types.declare d (tables.flatMap (·.columns))).value.2 ++
        tables.flatMap fun t => (Statement.createTable t.name t.columns).creates d) := by
  have creates := created_perm (d := d) (createTableFiles_perm d types tables)
  rwa [created_append, created_map] at creates

theorem created_columns_and_keys (d : Dialect) (table : Value) (shape : Column → ColumnShape)
    (columns : List Column) :
    (columns.flatMap (fun c => .column table c.name :: .definition table c.name (shape c) ::
        c.inlineKeys d table) ++ created d (columns.flatMap fun c => (foreignKey d table c).value)).Perm
      (columns.flatMap (columnObjects table shape)) := by
  have column : ∀ c : Column, columnObjects table shape c =
      (.column table c.name :: .definition table c.name (shape c) :: c.inlineKeys d table) ++
        created d (foreignKey d table c).value := by
    intro c
    rw [columnObjects, ← c.inlineKeys_append_foreignKey d table]
    rfl
  rw [created_flatMap]
  simp only [funext column]
  exact List.flatMap_append_perm ..

theorem created_columnStatements (d : Dialect) (previous : Plan) (t : Table) :
    created d (columnStatements previous t) = (if isNew previous t then [.table t.name] else []) ++
      (createdIn previous t).flatMap fun c =>
        .column t.name c.name :: .definition t.name c.name (shapeIn d previous t c) :: c.inlineKeys d t.name := by
  rw [columnStatements]
  by_cases new : isNew previous t
  · simp only [shapeIn, new, if_true, createdIn_of_isNew, created_cons, created_nil, Statement.creates,
      List.append_nil, List.singleton_append]
  · simp only [shapeIn, new, if_false, created_map, Statement.creates, List.nil_append, Bool.false_eq_true]

theorem created_tableStatements (d : Dialect) (previous : Plan) (t : Table) :
    (created d (tableStatements d previous t)).Perm (objectsIn d previous t) := by
  rw [tableStatements, created_append, created_append, created_columnStatements, created_createIndex, objectsIn]
  apply List.Perm.append_right
  rw [List.append_assoc]
  apply List.Perm.append_left
  exact created_columns_and_keys ..

theorem created_additions (previous current : Plan) :
    (created current.dialect (MigrationFile.flatten (additions previous current).value)).Perm
      (createdTypes previous current ++ current.tables.flatMap (objectsIn current.dialect previous)) := by
  have additions := created_perm (d := current.dialect) (additions_perm previous current)
  rw [created_append, created_flatMap] at additions
  refine additions.trans (List.Perm.append_left _ (List.Perm.flatMap_left _ ?_))
  intro t _
  exact created_tableStatements current.dialect previous t

end Diff
end SchemaMigration
