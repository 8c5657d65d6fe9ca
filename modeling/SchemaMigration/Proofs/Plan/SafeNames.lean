import SchemaMigration.Proofs.Migration.Composition
import SchemaMigration.Proofs.Plan.References
import SchemaMigration.Proofs.Sql.Name
/-!
When all names in the migration of a plan are safe. Models are checked name by name, but the check lets a line
break at the end of a name through, and nothing checks the columns of an index. Without these two the names of
accepted models only ever give safe names to the statements.
-/
namespace SchemaMigration

structure Table.NamesMeet (good : String → Prop) (t : Table) : Prop where
  table : good t.name.text
  columns : ∀ c ∈ t.columns, good c.name.text
  references : ∀ c ∈ t.columns, c.ReferencesMeet good
  indexes : ∀ i ∈ t.indexes, good (Statement.indexName t.name i.name)
  indexed : ∀ i ∈ t.indexes, ∀ column ∈ i.columns, good column.text

theorem Table.namesMeet_true (t : Table) : t.NamesMeet fun _ => True :=
  ⟨trivial, fun _ _ => trivial, fun _ _ _ _ => ⟨trivial, trivial⟩, fun _ _ => trivial, fun _ _ _ _ => trivial⟩

namespace Diff
open Sql Piece
variable {good : String → Prop}

theorem allMeet_foreignKey (d : Dialect) (joins : Joins good) (table : Value) (c : Column) (named : good table.text)
    (columnNamed : good c.name.text) :
    (∀ s ∈ (Migration.foreignKey d table c).value, AllMeet good (s.pieces d)) ↔ (d ≠ .sqlite → c.ReferencesMeet good) := by
  simp only [mem_foreignKey]
  constructor
  · intro all later r references
    have key := all _ ⟨later, r, references, rfl⟩
    exact ((Statement.allMeet_addForeignKey joins later ..).mp key).2.2
  · rintro references s ⟨later, r, found, rfl⟩
    exact (Statement.allMeet_addForeignKey joins later ..).mpr ⟨named, columnNamed, references later r found⟩

theorem allMeet_tableStatements_iff (d : Dialect) (joins : Joins good) (t : Table) :
    (∀ s ∈ tableStatements d (.empty d) t, AllMeet good (s.pieces d)) ↔ t.NamesMeet good := by
  have new : isNew (.empty d) t = true := rfl
  rw [tableStatements, columnStatements, if_pos new, createdIn_empty, createdIndexes_empty, List.forall_mem_append,
    List.forall_mem_append, List.forall_mem_singleton, List.forall_mem_map, Statement.allMeet_createTable joins]
  simp only [List.mem_flatMap, forall_exists_index, and_imp, Statement.allMeet_createIndex]
  constructor
  · rintro ⟨⟨⟨table, columns⟩, keys⟩, indexes⟩
    refine ⟨table, fun c inTable => (columns c inTable).1, ?_, fun i listed => (indexes i listed).1,
      fun i listed => (indexes i listed).2.2⟩
    intro c inTable
    by_cases inline : d = .sqlite
    · exact (columns c inTable).2 inline
    · exact (allMeet_foreignKey d joins t.name c table (columns c inTable).1).mp (fun s => keys s c inTable) inline
  · intro names
    refine ⟨⟨⟨names.table, fun c inTable => ⟨names.columns c inTable, fun _ => names.references c inTable⟩⟩, ?_⟩,
      fun i listed => ⟨names.indexes i listed, names.table, names.indexed i listed⟩⟩
    intro s c inTable
    exact (allMeet_foreignKey d joins t.name c names.table (names.columns c inTable)).mpr
      (fun _ => names.references c inTable) s

end Diff

namespace Plan
open Sql Piece

theorem migration_perm (p : Plan) :
    p.migration.value.Perm ((EnumTypes.declare p.dialect {} (Diff.createdColumns (.empty p.dialect) p)).value.2 ++
      p.tables.flatMap (Diff.tableStatements p.dialect (.empty p.dialect))) := by
  rw [← Diff.additions_empty]
  exact Diff.additions_perm (.empty p.dialect) p

theorem allMeet_migration_iff {good : String → Prop} (joins : Joins good) (p : Plan) :
    (∀ s ∈ p.migration.value, AllMeet good (s.pieces p.dialect)) ↔ ∀ t ∈ p.tables, t.NamesMeet good := by
  simp only [p.migration_perm.mem_iff, List.forall_mem_append, List.mem_flatMap, forall_exists_index, and_imp]
  have tables : (∀ s t, t ∈ p.tables → s ∈ Diff.tableStatements p.dialect (.empty p.dialect) t →
      AllMeet good (s.pieces p.dialect)) ↔ ∀ t ∈ p.tables, t.NamesMeet good := by
    simp only [← Diff.allMeet_tableStatements_iff p.dialect joins]
    exact ⟨fun all t inPlan s => all s t inPlan, fun all s t inPlan => all t inPlan s⟩
  rw [tables]
  apply and_iff_right_of_imp
  intro names s declared
  rw [(EnumTypes.declare_eq_broughtBy ..).2] at declared
  split at declared
  case isFalse => cases declared
  case isTrue postgres =>
    rcases List.mem_map.mp declared with ⟨type, brought, rfl⟩
    rcases EnumTypes.column_of_mem_broughtBy brought with ⟨c, created, -, rfl⟩
    rcases (Diff.mem_createdColumns ..).mp created with ⟨t, inPlan, inTable⟩
    exact Statement.allMeet_createType _ (joins.type ((names t inPlan).columns c inTable))

end Plan

namespace Model
open Identifier

/-- No name ends in a line break, and the columns of every index are safe. -/
@[mk_iff] structure NamesSafe (m : Model) : Prop where
  table : OneLine m.tableName
  attributes : ∀ name ∈ m.attributeNames, OneLine name
  indexes : ∀ i ∈ m.indexes, OneLine i.name
  indexed : ∀ i ∈ m.indexes, ∀ column ∈ i.columns, IsSafe column

instance (m : Model) : Decidable m.NamesSafe := decidable_of_iff' _ (namesSafe_iff m)

variable {m : Model}

theorem isSafe_tableName_iff (accepted : m.Accepted) : IsSafe m.tableName ↔ OneLine m.tableName := by
  cases declared : m.table with
  | some table =>
      have name : m.tableName = table := by rw [tableName, declared, Option.getD_some]
      rw [name]
      exact isSafe_iff_oneLine (accepted.table table declared)
  | none =>
      refine ⟨IsSafe.oneLine, fun oneLine => ?_⟩
      rw [tableName, declared, Option.getD_none] at oneLine ⊢
      have name : OneLine m.name := by
        intro broken
        apply oneLine
        rw [String.toList_append, List.mem_append, String.toList_ofList]
        exact .inl (List.mem_map.mpr ⟨'\n', broken, rfl⟩)
      have small : IsSafe (String.ofList (m.name.toList.map Char.toLower)) := by
        rw [IsSafe, String.toList_ofList]
        exact wellFormed_map_toLower ((isSafe_iff_oneLine accepted.name).mpr name)
      exact small.append_ending (by decide)

theorem accepts_primaryKeyName (accepted : m.Accepted) : accepts m.primaryKeyName := by
  cases declared : m.primaryKey with
  | none => rw [primaryKeyName, declared]; decide
  | some key => rw [primaryKeyName, declared]; exact accepted.primaryKey key declared

theorem accepts_attributeName (accepted : m.Accepted) {name : String} (declared : name ∈ m.attributeNames) :
    accepts name := by
  rcases List.mem_map.mp declared with ⟨a, member, rfl⟩
  exact accepted.attributeNames a member

theorem isSafe_indexName_iff {i : IndexDefinition} (named : accepts i.name) (table : IsSafe m.tableName) :
    IsSafe (Statement.indexName (.str m.tableName) (.str i.name)) ↔ OneLine i.name := by
  have start : IsSafe (m.tableName ++ "_") := table.append_ending (by decide)
  change IsSafe (m.tableName ++ "_" ++ i.name) ↔ _
  rw [isSafe_append_iff start]
  exact all_isTail_iff_oneLine named

end Model

namespace Plan
open Identifier Model

theorem forall_buildColumns_iff (outline : Outline) (m : Model) (holds : String → Prop) :
    (∀ c ∈ buildColumns outline m, holds c.name.text) ↔ ∀ name ∈ m.attributeNames, holds name := by
  simp only [buildColumns, attributeNames, List.forall_mem_map]
  rfl

theorem namesMeet_buildTable_iff (outline : Outline) {m : Model} (accepted : m.Accepted) :
    (buildTable outline m).NamesMeet IsSafe ↔
      m.NamesSafe ∧ ∀ c ∈ buildColumns outline m, c.ReferencesMeet IsSafe := by
  constructor
  · rintro ⟨table, columns, references, indexes, indexed⟩
    have declared : ∀ i ∈ m.indexes, declaredIndex i ∈ (buildTable outline m).indexes := fun i listed =>
      (mem_indexes_buildTable ..).mpr (.inl ⟨i, listed, rfl⟩)
    have attributes : ∀ name ∈ m.attributeNames, IsSafe name := (forall_buildColumns_iff outline m IsSafe).mp columns
    refine ⟨⟨IsSafe.oneLine table, fun name member => (attributes name member).oneLine, ?_, ?_⟩, references⟩
    · intro i listed
      have name := indexes (declaredIndex i) (declared i listed)
      exact (isSafe_indexName_iff (accepted.indexes i listed).name table).mp name
    · intro i listed column inIndex
      exact indexed _ (declared i listed) (.str column) (List.mem_map_of_mem inIndex)
  · rintro ⟨safe, references⟩
    have table : IsSafe m.tableName := (isSafe_tableName_iff accepted).mpr safe.table
    have columns : ∀ c ∈ buildColumns outline m, IsSafe c.name.text :=
      (forall_buildColumns_iff outline m IsSafe).mpr fun name member =>
        (isSafe_iff_oneLine (accepts_attributeName accepted member)).mpr (safe.attributes name member)
    refine ⟨table, columns, references, ?_, ?_⟩
    · intro i listed
      rcases (mem_indexes_buildTable ..).mp listed with ⟨declared, member, rfl⟩ | ⟨c, inTable, -, rfl⟩
      · exact (isSafe_indexName_iff (accepted.indexes declared member).name table).mpr (safe.indexes declared member)
      · have ends : ∀ x ∈ (c.name.text ++ "_unique").toList, isTail x :=
          ((columns c inTable).append_ending (by decide)).all_isTail
        exact (table.append_ending (by decide)).append ends
    · intro i listed column inIndex
      rcases (mem_indexes_buildTable ..).mp listed with ⟨declared, member, rfl⟩ | ⟨c, inTable, -, rfl⟩
      · rcases List.mem_map.mp inIndex with ⟨name, inDeclared, rfl⟩
        exact safe.indexed declared member name inDeclared
      · rw [List.mem_singleton.mp inIndex]
        exact columns c inTable

end Plan

namespace ModelSet
open Identifier

/-- The names of every model are safe, and no key that another model refers to ends in a line break. -/
@[mk_iff] structure NamesSafe (models : ModelSet) : Prop where
  each : ∀ entry ∈ models, entry.2.NamesSafe
  keys : ∀ entry ∈ models, ∀ target ∈ models, entry.2.RefersTo target.1 → OneLine target.2.primaryKeyName

instance (models : ModelSet) : Decidable models.NamesSafe := decidable_of_iff' _ (namesSafe_iff models)

theorem namesMeet_built_iff {models : ModelSet} (accepted : models.Accepted) (distinct : models.tableNames.Nodup) :
    (∀ entry ∈ models, (Plan.buildTable (.ofModels models) entry.2).NamesMeet IsSafe) ↔ models.NamesSafe := by
  have tables : (∀ entry ∈ models, (Plan.buildTable (.ofModels models) entry.2).NamesMeet IsSafe) ↔
      (∀ entry ∈ models, entry.2.NamesSafe) ∧
        ∀ entry ∈ models, ∀ c ∈ Plan.buildColumns (.ofModels models) entry.2, c.ReferencesMeet IsSafe := by
    rw [← forall₂_and]
    exact forall₂_congr fun entry member => Plan.namesMeet_buildTable_iff _ (accepted.models entry member)
  have safeTable : ∀ target ∈ models, target.2.NamesSafe → IsSafe target.2.tableName := fun target member safe =>
    (Model.isSafe_tableName_iff (accepted.models target member)).mpr safe.table
  have references := Plan.forall_references_iff accepted.keysDistinct distinct fun r => r.NamesMeet IsSafe
  have safeKey : ∀ target ∈ models, IsSafe target.2.primaryKeyName ↔ OneLine target.2.primaryKeyName :=
    fun target among => isSafe_iff_oneLine (Model.accepts_primaryKeyName (accepted.models target among))
  rw [tables, ModelSet.namesSafe_iff]
  refine and_congr_right fun safe => references.trans ?_
  refine forall₂_congr fun entry _ => forall₂_congr fun target among => imp_congr_right fun _ => ?_
  exact (and_iff_right (safeTable target among (safe target among))).trans (safeKey target among)

end ModelSet

namespace Plan
open Sql Piece

/--
The texts of a migration are made of words from a fixed vocabulary, of names and of values. All the names are
safe exactly if no name of a model that is used for one of them ends in a line break and the columns of all
indexes are safe themselves.
-/
theorem migration_names_safe_iff {models : ModelSet} {d : Dialect} {p : Plan} (accepted : models.Accepted)
    (built : build models d = .ok p) :
    (∀ s ∈ p.migration.value, s.text d = assemble d (s.pieces d) ∧
        ∀ text, words text ∈ s.pieces d → text ∈ vocabulary) ∧
      ((∀ s ∈ p.migration.value, ∀ name ∈ s.names d, Identifier.IsSafe name) ↔ models.NamesSafe) := by
  rcases build_eq_ok_iff.mp built with ⟨distinct, rfl⟩
  have known := (allMeet_migration_iff joins_true (buildWith (.ofModels models) models d)).mpr fun t _ =>
    Table.namesMeet_true t
  constructor
  · intro s member
    exact ⟨s.text_eq_assemble d, fun text inText => known s member _ inText⟩
  · rw [← ModelSet.namesMeet_built_iff accepted distinct]
    have tables := allMeet_migration_iff joins_isSafe (buildWith (.ofModels models) models d)
    rw [buildWith, List.forall_mem_map] at tables
    rw [← tables]
    exact forall₂_congr fun s member => (allMeet_iff_names (known s member)).symm

def titledPosts : ModelSet :=
  [("User", { name := "User", table := some "members", primaryKey := some "code", attributes := [("code", {})] }),
    ("Post", {
      name := "Post"
      attributes := [("id", {}), ("title", { unique := true }), ("state", { enumValues := some ["it's", "open"] }),
        ("user_id", {})]
      indexes := [{ name := "by_state", columns := ["state", "title"] }] })]

theorem titledPosts_named_safely : titledPosts.Accepted ∧
    build titledPosts .postgres = .ok (postgresOf titledPosts) ∧
      (∀ s ∈ (postgresOf titledPosts).migration.value, ∀ name ∈ s.names .postgres, Identifier.IsSafe name) ∧
      (postgresOf titledPosts).migration.value.length = 6 := by
  have accepted : titledPosts.Accepted := by decide
  have built : build titledPosts .postgres = .ok (postgresOf titledPosts) := build_eq_ok_iff.mpr ⟨by decide, rfl⟩
  exact ⟨accepted, built, (migration_names_safe_iff accepted built).2.mpr (by decide), by decide⟩

/-- Users in a table whose name ends in a line break, with an index whose column ends its quotes. -/
def brokenUsers : ModelSet :=
  [("User", {
      name := "User"
      table := some "users\n"
      attributes := [("id", {})]
      indexes := [{ name := "by_id", columns := ["id\"); DROP TABLE users; --"] }] })]

/-- Neither a line break at the end of a name nor the columns of an index are refused. -/
theorem users_break_out : ¬ ∀ (models : ModelSet) (d : Dialect) (p : Plan), models.Accepted → build models d = .ok p →
    ∀ s ∈ p.migration.value, ∀ name ∈ s.names d, Identifier.IsSafe name := by
  intro claimed
  have built : build brokenUsers .postgres = .ok (postgresOf brokenUsers) := build_eq_ok_iff.mpr ⟨by decide, rfl⟩
  have safe := claimed brokenUsers .postgres _ (by decide) built
  exact absurd safe (by decide +kernel)

end Plan
end SchemaMigration
