import SchemaMigration.Proofs.Migration.Execution
import SchemaMigration.Proofs.Plan.References

namespace SchemaMigration

def Index.Fits (i : Index) (t : Table) : Prop := ∀ name ∈ i.columns, ∃ c ∈ t.columns, c.name = name

instance (i : Index) (t : Table) : Decidable (i.Fits t) := inferInstanceAs (Decidable (∀ _ ∈ _, ∃ _ ∈ _, _))

namespace Model

def IndexesFit (m : Model) : Prop := ∀ i ∈ m.indexes, ∀ column ∈ i.columns, column ∈ m.attributeNames

instance (m : Model) : Decidable m.IndexesFit := inferInstanceAs (Decidable (∀ _ ∈ _, ∀ _ ∈ _, _))

def DeclaresKey (m : Model) : Prop := m.primaryKeyName ∈ m.attributeNames

instance (m : Model) : Decidable m.DeclaresKey := inferInstanceAs (Decidable (_ ∈ _))

end Model

namespace Plan

section
variable {outline : Outline} {m : Model}

theorem declaredIndex_fits_iff (i : IndexDefinition) :
    (declaredIndex i).Fits (buildTable outline m) ↔ ∀ column ∈ i.columns, column ∈ m.attributeNames := by
  simp only [Index.Fits, declaredIndex, List.forall_mem_map, column_buildTable_iff]

theorem uniqueIndex_fits {c : Column} {t : Table} (inTable : c ∈ t.columns) : (uniqueIndex c).Fits t := by
  intro name listed
  exact ⟨c, inTable, (List.mem_singleton.mp listed).symm⟩

theorem indexes_buildTable_fit_iff :
    (∀ i ∈ (buildTable outline m).indexes, i.Fits (buildTable outline m)) ↔ m.IndexesFit := by
  constructor
  · intro fit i declared
    exact (declaredIndex_fits_iff i).mp (fit _ ((mem_indexes_buildTable ..).mpr (.inl ⟨i, declared, rfl⟩)))
  · intro fit i listed
    rcases (mem_indexes_buildTable ..).mp listed with ⟨declared, member, rfl⟩ | ⟨c, inTable, -, rfl⟩
    · exact (declaredIndex_fits_iff declared).mpr (fit declared member)
    · exact uniqueIndex_fits inTable

end

section
open Migration Diff
variable {p : Plan}

theorem hasColumn_createdTables_iff (table name : Value) :
    p.createdTables.HasColumn table name ↔ .column table name ∈ p.inventory := by
  rw [column_mem_inventory]
  simp [Database.HasColumn, createdTables, StoredTable.ofNew, StoredColumn.ofNew]

theorem allows_foreignKey_iff {t : Table} (inPlan : t ∈ p.tables) {c : Column} (inTable : c ∈ t.columns) (r : Reference) :
    p.createdTables.Allows p.dialect (.addForeignKey t.name c.name r) ↔
      p.dialect ≠ .sqlite ∧ .column r.table r.column ∈ p.inventory := by
  rw [← hasColumn_createdTables_iff]
  exact and_congr_right' (and_iff_right (hasColumn_of_mem rfl inPlan inTable))

theorem allows_createIndex_iff (named : p.WellNamed) {t : Table} (inPlan : t ∈ p.tables) (i : Index) :
    p.createdTables.Allows p.dialect (.createIndex t.name i) ↔ i.Fits t := by
  have own : ∀ name, p.createdTables.HasColumn t.name name ↔ ∃ c ∈ t.columns, c.name = name := by
    intro name
    rw [hasColumn_createdTables_iff, column_mem_inventory]
    constructor
    · rintro ⟨other, inPlan', same, found⟩
      rwa [List.inj_on_of_nodup_map named.tablesDistinct inPlan' inPlan same] at found
    · exact fun found => ⟨t, inPlan, rfl, found⟩
  rw [Database.Allows, and_iff_right (hasTable_of_mem rfl inPlan), Index.Fits]
  simp only [own]

theorem mem_keyStatements_iff {d : Dialect} {s : Statement} :
    s ∈ p.tables.flatMap (keyStatements d) ↔
      ∃ t ∈ p.tables, ∃ c ∈ t.columns, ∃ r ∈ c.references, d ≠ .sqlite ∧ s = .addForeignKey t.name c.name r := by
  simp only [List.mem_flatMap, keyStatements, mem_foreignKey, Option.mem_def]
  grind

theorem mem_indexStatements_iff {s : Statement} :
    s ∈ p.tables.flatMap indexStatements ↔ ∃ t ∈ p.tables, ∃ i ∈ t.indexes, s = .createIndex t.name i := by
  simp only [List.mem_flatMap, indexStatements, List.mem_map, eq_comm]

theorem keyStatements_allowed_iff :
    (∀ s ∈ p.tables.flatMap (keyStatements p.dialect), p.createdTables.Allows p.dialect s) ↔
      (p.dialect ≠ .sqlite → ∀ t ∈ p.tables, ∀ c ∈ t.columns, ∀ r ∈ c.references,
        .column r.table r.column ∈ p.inventory) := by
  constructor
  · intro all separate t inPlan c inTable r references
    have key := all _ (mem_keyStatements_iff.mpr ⟨t, inPlan, c, inTable, r, references, separate, rfl⟩)
    exact ((allows_foreignKey_iff inPlan inTable r).mp key).2
  · intro resolved s member
    rcases mem_keyStatements_iff.mp member with ⟨t, inPlan, c, inTable, r, references, separate, rfl⟩
    exact (allows_foreignKey_iff inPlan inTable r).mpr ⟨separate, resolved separate t inPlan c inTable r references⟩

theorem indexStatements_allowed_iff (named : p.WellNamed) :
    (∀ s ∈ p.tables.flatMap indexStatements, p.createdTables.Allows p.dialect s) ↔
      ∀ t ∈ p.tables, ∀ i ∈ t.indexes, i.Fits t := by
  constructor
  · intro all t inPlan i listed
    exact (allows_createIndex_iff named inPlan i).mp (all _ (mem_indexStatements_iff.mpr ⟨t, inPlan, i, listed, rfl⟩))
  · intro fit s member
    rcases mem_indexStatements_iff.mp member with ⟨t, inPlan, i, listed, rfl⟩
    exact (allows_createIndex_iff named inPlan i).mpr (fit t inPlan i listed)

theorem key_or_index_of_mem {d : Dialect} {s : Statement}
    (member : s ∈ p.tables.flatMap (keyStatements d) ++ p.tables.flatMap indexStatements) :
    (∃ table column target, s = .addForeignKey table column target) ∨ ∃ table i, s = .createIndex table i := by
  rcases List.mem_append.mp member with key | index
  · rcases mem_keyStatements_iff.mp key with ⟨t, -, c, -, r, -, -, rfl⟩
    exact .inl ⟨_, _, _, rfl⟩
  · rcases mem_indexStatements_iff.mp index with ⟨t, -, i, -, rfl⟩
    exact .inr ⟨_, _, rfl⟩

/-- Once its tables are there, a migration runs exactly if no key and no index asks for a column that is not. -/
theorem exists_run_migration_iff (named : p.WellNamed) :
    (∃ db, Database.run p.dialect {} p.migration.value = some db) ↔
      (p.dialect ≠ .sqlite → ∀ t ∈ p.tables, ∀ c ∈ t.columns, ∀ r ∈ c.references,
        .column r.table r.column ∈ p.inventory) ∧
      ∀ t ∈ p.tables, ∀ i ∈ t.indexes, i.Fits t := by
  change (∃ db, Database.run p.dialect {} (MigrationFile.flatten (tableFiles p.dialect {} p.tables).value.2) = some db) ↔ _
  rw [flatten_tableFiles, List.append_assoc, Database.exists_run_append_iff]
  simp only [run_createTables named, Option.some.injEq, exists_eq_left']
  rw [Database.exists_run_iff, List.forall_mem_append, keyStatements_allowed_iff, indexStatements_allowed_iff named]
  -- keys and indexes leave the tables as they are, and nothing else decides about either
  intro s member other member' db
  rcases key_or_index_of_mem member with ⟨_, _, _, rfl⟩ | ⟨_, _, rfl⟩ <;>
    rcases key_or_index_of_mem member' with ⟨_, _, _, rfl⟩ | ⟨_, _, rfl⟩ <;> exact Iff.rfl

end

section
variable {models : ModelSet} {d : Dialect} {p : Plan}

theorem indexes_built_fit_iff (built : build models d = .ok p) :
    (∀ t ∈ p.tables, ∀ i ∈ t.indexes, i.Fits t) ↔ ∀ entry ∈ models, entry.2.IndexesFit := by
  rcases build_eq_ok_iff.mp built with ⟨-, rfl⟩
  simp only [buildWith, List.forall_mem_map, indexes_buildTable_fit_iff]

theorem reference_mem_inventory_iff (tables : models.tableNames.Nodup) {target : String × Model} (among : target ∈ models) :
    .column target.2.reference.table target.2.reference.column ∈ (buildWith (.ofModels models) models d).inventory ↔
      target.2.DeclaresKey := by
  rw [column_mem_inventory, Model.DeclaresKey, ← column_buildTable_iff (.ofModels models)]
  exact exists_table_of_reference_iff tables among fun t => ∃ c ∈ t.columns, c.name = target.2.reference.column

theorem column_of_unique_index (built : build models d = .ok p) {t : Table} (inPlan : t ∈ p.tables) {i : Index}
    (listed : i ∈ t.indexes) (unique : i.kind = .unique) :
    ∃ c ∈ t.columns, i.columns = [c.name] ∧ c.isUnique ∧ c.isPrimaryKey = false := by
  rcases build_eq_ok_iff.mp built with ⟨-, rfl⟩
  rcases List.mem_map.mp inPlan with ⟨entry, -, rfl⟩
  rcases (mem_indexes_buildTable ..).mp listed with ⟨declared, -, rfl⟩ | ⟨c, inTable, kept, rfl⟩
  · cases unique
  · rw [Bool.and_eq_true, Bool.not_eq_true'] at kept
    exact ⟨c, inTable, rfl, kept⟩

/--
The indexes of a built plan list columns of their own tables exactly if the declared ones list attributes of their
models; the unique ones always do. This is one of two conditions on which the migration that creates the plan runs. The
other one, where foreign keys have statements of their own, is that every model which attributes refer to declares its
key.
-/
theorem indexes_fit_iff (accepted : models.Accepted) (built : build models d = .ok p) :
    ((∀ t ∈ p.tables, ∀ i ∈ t.indexes, ∀ name ∈ i.columns, ∃ c ∈ t.columns, c.name = name) ↔
      ∀ entry ∈ models, entry.2.IndexesFit) ∧
    (∀ t ∈ p.tables, ∀ i ∈ t.indexes, i.kind = .unique →
      ∃ c ∈ t.columns, i.columns = [c.name] ∧ c.isUnique ∧ c.isPrimaryKey = false) ∧
    ((∃ db, Database.run d {} p.migration.value = some db) ↔
      (d ≠ .sqlite → ∀ owner ∈ models, ∀ target ∈ models, owner.2.RefersTo target.1 → target.2.DeclaresKey) ∧
        ∀ entry ∈ models, entry.2.IndexesFit) := by
  refine ⟨indexes_built_fit_iff built, fun t inPlan i listed => column_of_unique_index built inPlan listed, ?_⟩
  rw [← indexes_built_fit_iff built]
  rcases build_eq_ok_iff.mp built with ⟨tables, rfl⟩
  have named := (built_buildWith d accepted tables).regular.toWellNamed
  have runs := exists_run_migration_iff named
  rw [forall_built_references_iff accepted.keysDistinct tables] at runs
  refine runs.trans (and_congr_left' (imp_congr_right fun _ => ?_))
  exact forall₂_congr fun owner member => forall₂_congr fun target among =>
    imp_congr_right fun _ => reference_mem_inventory_iff tables among

def indexedPosts (columns : List String) : ModelSet :=
  [("User", { name := "User", attributes := [("id", {})] }),
    ("Post", {
      name := "Post"
      attributes := [("id", {}), ("user_id", {}), ("title", { unique := true })]
      indexes := [{ name := "by_user", columns }] })]

theorem posts_by_user_and_title : (indexedPosts ["user_id", "title"]).Accepted ∧
    build (indexedPosts ["user_id", "title"]) .postgres = .ok (postgresOf (indexedPosts ["user_id", "title"])) ∧
    (∀ t ∈ (postgresOf (indexedPosts ["user_id", "title"])).tables, ∀ i ∈ t.indexes, i.Fits t) ∧
    ∃ db, Database.run .postgres {} (postgresOf (indexedPosts ["user_id", "title"])).migration.value = some db := by
  have accepted : (indexedPosts ["user_id", "title"]).Accepted := by decide
  have built := build_postgresOf (indexedPosts ["user_id", "title"]) (by decide)
  rcases indexes_fit_iff accepted built with ⟨fit, -, runs⟩
  exact ⟨accepted, built, fit.mpr (by decide), runs.mpr ⟨fun _ => by decide, by decide⟩⟩

/-- An index over `user` is accepted, although the column is called `user_id`. -/
theorem missing_column_indexed : ¬ ∀ (models : ModelSet) (d : Dialect) (p : Plan), models.Accepted →
    build models d = .ok p → ∀ t ∈ p.tables, ∀ i ∈ t.indexes, ∀ name ∈ i.columns, ∃ c ∈ t.columns, c.name = name := by
  intro claimed
  have built := build_postgresOf (indexedPosts ["user"]) (by decide)
  exact absurd (claimed _ _ _ (by decide) built) (by decide)

end

end Plan
end SchemaMigration
