import SchemaMigration.Migration.Reset
import SchemaMigration.Proofs.Migration.Composition
import SchemaMigration.Proofs.Migration.Outcome

namespace SchemaMigration

namespace Statement

def tableCreated? : Statement → Option Value
  | .createTable table _ => some table
  | _ => none

def typeCreated? : Statement → Option String
  | .createType name _ => some name
  | _ => none

end Statement

namespace Diff
open Migration
variable {α : Type} {view : Statement → Option α}

theorem filterMap_createTableFiles_cons (d : Dialect) (types : EnumTypes) (t : Table) (rest : List Table) :
    (MigrationFile.flatten (createTableFiles d types (t :: rest)).value.2).filterMap view =
      (types.declare d t.columns).value.2.filterMap view ++ (view (.createTable t.name t.columns)).toList ++
        (MigrationFile.flatten (createTableFiles d (types.declare d t.columns).value.1 rest).value.2).filterMap view := by
  rw [createTableFiles_cons, MigrationFile.flatten_cons, List.filterMap_append, List.filterMap_append]
  cases seen : view (.createTable t.name t.columns) <;> simp [seen]

theorem tablesCreated_createTableFiles (d : Dialect) (types : EnumTypes) (tables : List Table) :
    (MigrationFile.flatten (createTableFiles d types tables).value.2).filterMap Statement.tableCreated? =
      tables.map (·.name) := by
  induction tables generalizing types with
  | nil => rfl
  | cons t rest ih =>
      have typesOnly : (types.declare d t.columns).value.2.filterMap Statement.tableCreated? = [] := by
        rw [List.filterMap_eq_nil_iff]
        intro s declared
        rcases EnumTypes.declare_only_types d types t.columns s declared with ⟨name, values, rfl⟩
        rfl
      rw [filterMap_createTableFiles_cons, ih, typesOnly]
      rfl

theorem typesCreated_createTableFiles (d : Dialect) (types : EnumTypes) (tables : List Table) :
    (MigrationFile.flatten (createTableFiles d types tables).value.2).filterMap Statement.typeCreated? =
      (types.declare d (tables.flatMap (·.columns))).value.2.filterMap Statement.typeCreated? := by
  induction tables generalizing types with
  | nil => rfl
  | cons t rest ih =>
      rw [filterMap_createTableFiles_cons, ih, List.flatMap_cons, EnumTypes.declare_append, List.filterMap_append]
      simp [Statement.typeCreated?]

end Diff

namespace EnumTypes

theorem typesCreated_declare (d : Dialect) (types : EnumTypes) (columns : List Column) :
    (types.declare d columns).value.2.filterMap Statement.typeCreated? =
      if d = .postgres then (broughtBy types.names columns).map (·.1) else [] := by
  rw [(declare_eq_broughtBy d types columns).2]
  split
  case isTrue =>
    rw [createTypes, List.filterMap_map]
    exact congrFun List.filterMap_eq_map _
  case isFalse => rfl

end EnumTypes

namespace Plan
variable (p : Plan)

theorem filterMap_migration {α : Type} {view : Statement → Option α}
    (keys : ∀ table column target, view (.addForeignKey table column target) = none)
    (indexes : ∀ table i, view (.createIndex table i) = none) :
    p.migration.value.filterMap view =
      (MigrationFile.flatten (Migration.createTableFiles p.dialect {} p.tables).value.2).filterMap view := by
  have keyless : (p.tables.flatMap (Diff.keyStatements p.dialect)).filterMap view = [] := by
    rw [List.filterMap_eq_nil_iff]
    intro s member
    rcases List.mem_flatMap.mp member with ⟨t, -, key⟩
    rcases List.mem_flatMap.mp key with ⟨c, -, key⟩
    rcases (Diff.mem_foreignKey ..).mp key with ⟨-, target, -, rfl⟩
    exact keys _ _ _
  have indexless : (p.tables.flatMap Diff.indexStatements).filterMap view = [] := by
    rw [List.filterMap_eq_nil_iff]
    intro s member
    rcases List.mem_flatMap.mp member with ⟨t, -, index⟩
    rcases List.mem_map.mp index with ⟨i, -, rfl⟩
    exact indexes _ _
  change (MigrationFile.flatten (Migration.tableFiles p.dialect {} p.tables).value.2).filterMap view = _
  rw [Diff.flatten_tableFiles, List.filterMap_append, List.filterMap_append, keyless, indexless, List.append_nil,
    List.append_nil]

theorem tablesCreated_migration : p.migration.value.filterMap Statement.tableCreated? = p.tables.map (·.name) := by
  rw [p.filterMap_migration (fun _ _ _ => rfl) (fun _ _ => rfl), Diff.tablesCreated_createTableFiles]

end Plan

namespace Reset

theorem foldl_addNew (known : List String) (columns : List Column) :
    ((columns.filter (·.isEnum)).map Sql.enumTypeName).foldl addNew known =
      known ++ (EnumTypes.broughtBy known columns).map (·.1) := by
  induction columns generalizing known with
  | nil => exact (List.append_nil known).symm
  | cons c rest ih =>
      rw [EnumTypes.broughtBy]
      cases enum : c.isEnum with
      | false => simpa [enum] using ih known
      | true =>
          rw [List.filter_cons_of_pos enum, List.map_cons, List.foldl_cons, ih]
          by_cases old : Sql.enumTypeName c ∈ known <;> simp [addNew, old]

theorem enumTypes_eq (p : Plan) :
    enumTypes p = (EnumTypes.broughtBy [] (p.tables.flatMap (·.columns))).map (·.1) := by
  rw [enumTypes, ← List.filter_flatMap, foldl_addNew, List.nil_append]

theorem typesCreated_migration (p : Plan) :
    p.migration.value.filterMap Statement.typeCreated? = if p.dialect = .postgres then enumTypes p else [] := by
  rw [p.filterMap_migration (fun _ _ _ => rfl) (fun _ _ => rfl), Diff.typesCreated_createTableFiles,
    EnumTypes.typesCreated_declare, enumTypes_eq]
  rfl

theorem statements_value (p : Plan) (withBookkeeping : Bool) :
    (statements p withBookkeeping).value =
      (if withBookkeeping then [.dropTable (.str Statement.bookkeepingTable)] else []) ++
        (p.tables.map (·.name)).reverse.map .dropTable ++
        if p.dialect = .postgres then (enumTypes p).map .dropType else [] := by
  have types : ((enumTypes p).map Statement.dropType).filter (·.supported p.dialect) =
      if p.dialect = .postgres then (enumTypes p).map .dropType else [] := by
    split
    case isTrue postgres =>
      rw [List.filter_eq_self, List.forall_mem_map]
      intro name _
      simp [Statement.supported, postgres]
    case isFalse other =>
      rw [List.filter_eq_nil_iff, List.forall_mem_map]
      intro name _
      simpa [Statement.supported] using other
  rw [← types, ← List.map_reverse, List.map_map]
  simp only [statements, Reported.value_bind, Reported.value_collect, Reported.value_pure]
  rfl

theorem succeeds_statements (p : Plan) (withBookkeeping : Bool) :
    (statements p withBookkeeping).Succeeds ↔
      (∀ t ∈ p.tables, t.name.textFaults = []) ∧ ∀ t ∈ p.tables, ∀ c ∈ t.columns, c.isEnum → c.name.textFaults = [] := by
  simp [statements, enumTypeFaults, Statement.faults, Statement.supported]
  exact fun _ => ⟨fun all t inPlan c => all c t inPlan, fun all c t inPlan => all t inPlan c⟩

theorem succeeds_statements_of_migration {p : Plan} (done : p.migration.Succeeds) (withBookkeeping : Bool) :
    (statements p withBookkeeping).Succeeds := by
  have writable := p.succeeds_migration_iff.mp done
  rw [succeeds_statements]
  exact ⟨fun t inPlan => (writable t inPlan).name,
    fun t inPlan c inTable _ => ((writable t inPlan).columns c inTable).name⟩

/--
Without the bookkeeping table, a reset consists of one statement for each table that the migration of the plan creates,
in the opposite order, and then of one for each enum type that it creates, under the same name; tables with names of
their own and types are created once. Wherever the migration can be written, so can the reset.
-/
theorem undoes_migration (p : Plan) (distinct : (p.tables.map (·.name)).Nodup) :
    (statements p false).value =
        (p.migration.value.filterMap Statement.tableCreated?).reverse.map .dropTable ++
          (p.migration.value.filterMap Statement.typeCreated?).map .dropType ∧
      (p.migration.value.filterMap Statement.tableCreated?).Nodup ∧
      (p.migration.value.filterMap Statement.typeCreated?).Nodup ∧
      (p.migration.Succeeds → (statements p false).Succeeds) := by
  rw [p.tablesCreated_migration, typesCreated_migration, statements_value]
  refine ⟨?_, distinct, ?_, fun done => succeeds_statements_of_migration done false⟩
  · rw [if_neg Bool.false_ne_true, List.nil_append]
    split <;> rfl
  · split
    · rw [enumTypes_eq]
      exact EnumTypes.nodup_broughtBy ..
    · exact List.nodup_nil

/-- Two columns share an enum type, which is created with the first table and dropped once. -/
def sharedEnum : Plan :=
  { dialect := .postgres,
    tables :=
      [{ name := .str "users", columns := [{ name := .str "role", type := .enum, enumValues := some ["admin"] }] },
        { name := .str "posts",
          columns :=
            [{ name := .str "state", type := .enum, enumValues := some ["draft"] },
              { name := .str "role", type := .enum, enumValues := some ["admin"] }] }] }

theorem undoes_migration_sharedEnum :
    (statements sharedEnum false).value =
        [.dropTable (.str "posts"), .dropTable (.str "users"), .dropType "role_type", .dropType "state_type"] ∧
      (statements sharedEnum false).Succeeds := by
  have distinct : (sharedEnum.tables.map (·.name)).Nodup := by decide
  rcases undoes_migration sharedEnum distinct with ⟨undone, -, -, done⟩
  have migrated : sharedEnum.migration.Succeeds := by
    rw [Plan.succeeds_migration_iff]
    simp only [Plan.Writable, Table.writable_iff, Column.writable_iff, Index.writable_iff]
    decide
  exact ⟨undone.trans rfl, done migrated⟩

end Reset
end SchemaMigration
