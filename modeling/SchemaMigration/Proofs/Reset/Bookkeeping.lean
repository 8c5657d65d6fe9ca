import SchemaMigration.Proofs.Migration.Tells
import SchemaMigration.Proofs.Plan.Growth
import SchemaMigration.Proofs.Reset.Undoing

namespace SchemaMigration

/-- The table that a statement creates, changes or drops. -/
def Statement.table? : Statement → Option Value
  | .createTable table _ | .addColumn table _ | .addForeignKey table _ _ | .createIndex table _ | .modifyColumn table _
  | .dropTable table | .dropColumn table _ | .dropIndex table _ => some table
  | .createType .. | .dropType .. => none

def SparesBookkeeping (statements : List Statement) : Prop :=
  ∀ s ∈ statements, s.table? ≠ some (.str Statement.bookkeepingTable)

namespace Diff
variable {previous current : Plan} {s : Statement} {table : Value}

theorem table?_of_mem_additions (member : s ∈ MigrationFile.flatten (additions previous current).value)
    (touched : s.table? = some table) : table ∈ current.tables.map (·.name) := by
  rcases additions_cases member with ⟨name, values, rfl⟩ | ⟨t, inPlan, member⟩
  · cases touched
  · have own : s.table? = some t.name := by
      rcases tableStatements_cases member with
        ⟨-, rfl⟩ | ⟨-, c, -, rfl⟩ | ⟨-, c, -, target, -, rfl⟩ | ⟨i, -, rfl⟩ <;> rfl
    rw [own] at touched
    cases touched
    exact List.mem_map_of_mem inPlan

theorem table?_of_mem_statements {before : Option Plan} (member : s ∈ (statements before current).value)
    (touched : s.table? = some table) : table ∈ current.tables.map (·.name) := by
  cases rebuild : isFullRebuild before current with
  | false =>
      cases before with
      | none => cases rebuild
      | some previous =>
          rw [statements_some previous current (by simpa [isFullRebuild] using rebuild)] at member
          exact table?_of_mem_additions member touched
  | true =>
      have whole : (statements before current).value = current.migration.value := by
        cases before with
        | none => rfl
        | some previous => simp [statements, files, rebuild, Plan.migration]
      rw [whole, ← additions_empty] at member
      exact table?_of_mem_additions member touched

end Diff

namespace Model

/-- The model is given the bookkeeping table, or has it by its name. -/
def TakesBookkeeping (m : Model) : Prop :=
  m.table = some Statement.bookkeepingTable ∨
    m.table = none ∧ String.ofList (m.name.toList.map Char.toLower) = "migration"

instance (m : Model) : Decidable m.TakesBookkeeping := inferInstanceAs (Decidable (_ ∨ _))

theorem takesBookkeeping_iff (m : Model) : m.TakesBookkeeping ↔ m.tableName = Statement.bookkeepingTable := by
  have plural : Statement.bookkeepingTable = "migration" ++ "s" := by decide
  cases given : m.table with
  | some table => simp [TakesBookkeeping, tableName, given]
  | none =>
      have own : m.tableName = String.ofList (m.name.toList.map Char.toLower) ++ "s" := by simp [tableName, given]
      rw [own, plural, String.append_left_inj]
      simp [TakesBookkeeping, given]

end Model

namespace Plan
variable {models : ModelSet} {d : Dialect} {p : Plan}

theorem migration_touches_iff (p : Plan) (table : Value) :
    (∃ s ∈ p.migration.value, s.table? = some table) ↔ table ∈ p.tables.map (·.name) := by
  constructor
  · intro given
    rcases given with ⟨s, member, touched⟩
    rw [← Diff.statements_none] at member
    exact Diff.table?_of_mem_statements member touched
  · intro inPlan
    rw [← p.tablesCreated_migration] at inPlan
    rcases List.mem_filterMap.mp inPlan with ⟨s, member, created⟩
    refine ⟨s, member, ?_⟩
    cases s <;> cases created
    rfl

theorem bookkeeping_mem_iff (built : build models d = .ok p) :
    .str Statement.bookkeepingTable ∈ p.tables.map (·.name) ↔ ∃ entry ∈ models, entry.2.TakesBookkeeping := by
  rcases build_eq_ok_iff.mp built with ⟨-, rfl⟩
  rw [map_name_buildWith, List.mem_map_of_injective Value.str_injective, ModelSet.tableNames, List.mem_map]
  simp only [Model.takesBookkeeping_iff]

theorem migration_spares_iff (built : build models d = .ok p) :
    SparesBookkeeping p.migration.value ↔ ∀ entry ∈ models, ¬ entry.2.TakesBookkeeping := by
  have taken := (p.migration_touches_iff _).trans (bookkeeping_mem_iff built)
  simpa [SparesBookkeeping] using not_congr taken

end Plan

namespace Reset
open Plan
open ModelSet (postsAndUsers)
variable {models : ModelSet} {d : Dialect} {p : Plan}

theorem count_dropTable (p : Plan) (withBookkeeping : Bool) (table : Value) :
    (statements p withBookkeeping).value.count (.dropTable table) =
      (if withBookkeeping ∧ table = .str Statement.bookkeepingTable then 1 else 0) +
        (p.tables.map (·.name)).count table := by
  have drop : Function.Injective Statement.dropTable := fun _ _ same => Statement.dropTable.inj same
  have types : (if p.dialect = .postgres then (enumTypes p).map Statement.dropType else []).count
      (.dropTable table) = 0 := by
    split <;> simp [List.count_eq_zero]
  rw [statements_value, List.count_append, List.count_append, List.count_map_of_injective _ _ drop, List.count_reverse,
    types, Nat.add_zero, Nat.add_right_cancel_iff]
  cases withBookkeeping with
  | false => simp
  | true => by_cases same : table = .str Statement.bookkeepingTable <;> simp [same, List.count_eq_zero]

/--
The statements of migrations leave the bookkeeping table alone exactly if no model takes it for its own, and so does
a reset that keeps it. Otherwise the table of that model is created in its place, and each reset drops it once more.
-/
theorem bookkeeping_untouched_iff (built : build models d = .ok p) :
    (SparesBookkeeping p.migration.value ↔ ∀ entry ∈ models, ¬ entry.2.TakesBookkeeping) ∧
      ((∀ previous, SparesBookkeeping (Diff.statements previous p).value) ↔
        ∀ entry ∈ models, ¬ entry.2.TakesBookkeeping) ∧
      ∀ withBookkeeping, (statements p withBookkeeping).value.count (.dropTable (.str Statement.bookkeepingTable)) =
        (if withBookkeeping then 1 else 0) + if ∃ entry ∈ models, entry.2.TakesBookkeeping then 1 else 0 := by
  have distinct : (p.tables.map (·.name)).Nodup := by
    rcases build_eq_ok_iff.mp built with ⟨tables, rfl⟩
    rw [map_name_buildWith]
    exact tables.map Value.str_injective
  refine ⟨migration_spares_iff built, ⟨fun spared => (migration_spares_iff built).mp (spared none), ?_⟩,
    fun withBookkeeping => ?_⟩
  · intro free previous s member touched
    have taken := (bookkeeping_mem_iff built).mp (Diff.table?_of_mem_statements member touched)
    rcases taken with ⟨entry, among, takes⟩
    exact free entry among takes
  · rw [count_dropTable, distinct.count]
    simp only [bookkeeping_mem_iff built, and_true]

theorem posts_leave_bookkeeping : ∃ p, build postsAndUsers .sqlite = .ok p ∧
    SparesBookkeeping p.migration.value ∧ (∀ previous, SparesBookkeeping (Diff.statements previous p).value) ∧
    (statements p true).value.count (.dropTable (.str "migrations")) = 1 ∧
    (statements p false).value.count (.dropTable (.str "migrations")) = 0 := by
  have built : build postsAndUsers .sqlite = .ok _ := build_eq_ok_iff.mpr ⟨by decide, rfl⟩
  have free : ∀ entry ∈ postsAndUsers, ¬ entry.2.TakesBookkeeping := by decide
  rcases bookkeeping_untouched_iff built with ⟨migration, diff, drops⟩
  exact ⟨_, built, migration.mpr free, diff.mpr free, (drops true).trans (by decide), (drops false).trans (by decide)⟩

def recordedMigrations : ModelSet := [("Migration", { name := "Migration", attributes := [("id", {})] })]

theorem migrations_dropped_with_models : ¬ ∀ (models : ModelSet) (d : Dialect) (p : Plan), models.Accepted →
    build models d = .ok p →
      SparesBookkeeping p.migration.value ∧ (∀ previous, SparesBookkeeping (Diff.statements previous p).value) ∧
      ∀ withBookkeeping, (statements p withBookkeeping).value.count (.dropTable (.str Statement.bookkeepingTable)) =
        if withBookkeeping then 1 else 0 := by
  intro claimed
  have built : build recordedMigrations .postgres = .ok (postgresOf recordedMigrations) :=
    build_postgresOf recordedMigrations (by decide)
  rcases claimed _ _ _ (by decide) built with ⟨-, -, drops⟩
  have kept := drops false
  rw [count_dropTable] at kept
  exact absurd kept (by decide)

end Reset
end SchemaMigration
