import SchemaMigration.Proofs.Migration.SilentDifference
import SchemaMigration.Proofs.Plan.Plain
import SchemaMigration.Proofs.Snapshot.Store
/-!
The migration from a plan that was loaded to one that is built. What the file says about names is taken as it
stands, so the migration fails where a name cannot serve as a key or an index is not over texts. Apart from
that, it only fails over a default that cannot be written.
-/
namespace SchemaMigration

namespace Value

theorem IsPlain.isSignaling {v : Value} (plain : v.IsPlain) : v.isSignaling = false := by cases plain <;> rfl

theorem IsPlain.substitute?_eq_none {v : Value} (plain : v.IsPlain) : Json.substitute? v = none := by
  cases plain <;> rfl

theorem IsPlain.compare_ne_undefined {v w : Value} (plain : v.IsPlain) (scalar : w.IsScalar) :
    v.compare w ≠ .undefined := by
  have numbers := compareNumbers_ne_undefined plain.isSignaling scalar.isSignaling
  cases plain <;> cases w <;> cases scalar <;> simp [compare, numbers]

end Value

namespace Column

theorem IsPlain.storedDefault_eq {c : Column} (plain : c.IsPlain) : c.storedDefault = c.defaultValue := by
  rw [storedDefault, plain.default.substitute?_eq_none]

theorem IsPlain.compare_ne_undefined {b c : Column} (plain : b.IsPlain) (typed : c.Typed) :
    b.storedDefault.compare c.storedDefault ≠ .undefined := by
  rw [plain.storedDefault_eq]
  exact plain.default.compare_ne_undefined typed.isScalar_storedDefault

theorem Typed.writable_iff {c : Column} (typed : c.Typed) : c.Writable ↔ Sql.defaultFaults c = [] := by
  constructor
  · exact Writable.default
  · intro default
    refine ⟨typed.name.textFaults_eq_nil, default, ?_⟩
    intro r found
    rcases typed.references r found with ⟨table, column⟩
    exact ⟨table.textFaults_eq_nil, column.textFaults_eq_nil⟩

end Column

theorem Index.IsPlain.keyFaults_eq_nil_iff {i : Index} (plain : i.IsPlain) :
    i.keyFaults = [] ↔ ∀ v ∈ i.columns, v.IsText := by
  have texts : (∀ v ∈ i.columns, isText v = true) ↔ ∀ v ∈ i.columns, v.IsText := by
    apply forall₂_congr
    intro v _
    cases v <;> simp [isText, Value.IsText]
  rw [← texts, ← List.all_eq_true, keyFaults, plain.name.textFaults_eq_nil, List.nil_append]
  cases i.columns.all isText <;> simp

theorem Table.Typed.writable_iff {t : Table} (typed : t.Typed) :
    t.Writable ↔ ∀ c ∈ t.columns, Sql.defaultFaults c = [] := by
  constructor
  · intro writable c inTable
    exact (writable.columns c inTable).default
  · intro defaults
    refine ⟨typed.name.textFaults_eq_nil, ?_, ?_⟩
    · intro c inTable
      exact (typed.columns c inTable).writable_iff.mpr (defaults c inTable)
    · intro i listed
      exact Index.writable_of_keyFaults (typed.indexes i listed).keyFaults_eq_nil

namespace Plan
variable {p : Plan}

theorem IsPlain.namesWritable (plain : p.IsPlain) : p.NamesWritable where
  tables t inPlan := (plain t inPlan).name.textFaults_eq_nil
  columns t inPlan c inTable := ((plain t inPlan).columns c inTable).name.textFaults_eq_nil

end Plan

namespace Diff
open Migration

/-- A former plan whose tables can be compared with the current ones: their names can serve as keys, the indexes of
tables that stay are over texts, and a definition that is shown for a change can be written. -/
structure Skippable (previous current : Plan) : Prop where
  tables : ∀ before ∈ previous.tables, before.name.hashable
  indexes : previous.Staying current fun before _ => ∀ i ∈ before.indexes, ∀ v ∈ i.columns, v.IsText
  definitions : previous.Staying current fun before t =>
    ∀ b ∈ before.columns, ∀ c ∈ t.columns, c.name = b.name → b.differs c → current.dialect = .mysql →
      Sql.defaultFaults c = []

/-- A former plan from which there is a migration: beside that, the column names of tables that are looked up can
serve as keys, and what the migration creates can be written. -/
structure Migratable (previous current : Plan) : Prop extends Skippable previous current where
  columns : ∀ t ∈ current.tables, ∀ before ∈ previous.table? t.name, ∀ b ∈ before.columns, b.name.hashable
  defaults : ∀ t ∈ current.tables, ∀ c ∈ createdIn previous t, Sql.defaultFaults c = []

variable {d : Dialect} {previous current : Plan}

/-- Where defaults compare, only a definition that is shown for a change has to be written. -/
theorem comparable_iff {table : Value} {b c : Column} (writable : table.textFaults = []) (name : c.name.IsText)
    (defaults : b.storedDefault.compare c.storedDefault ≠ .undefined) :
    Comparable d table b c ↔ (b.differs c → d = .mysql → Sql.defaultFaults c = []) := by
  have compared : (b.compareDefinitions c).faults = [] :=
    Comparison.faults_eq_nil (Column.compareDefinitions_ne_undefined defaults)
  have shown : (Statement.modifyColumn table c).faults d = [] ↔ (d = .mysql → Sql.defaultFaults c = []) := by
    cases d <;>
      simp [Statement.faults, Statement.supported, Sql.definitionFaults, Sql.referenceFaults, writable,
        name.textFaults_eq_nil]
  rw [Comparable, and_iff_right compared, shown]

theorem succeeds_skippedFrom_of_plain (plain : previous.IsPlain) (now : current.WellNamed) (typed : current.Typed) :
    (skippedFrom previous current).Succeeds ↔ Skippable previous current := by
  have table : ∀ before ∈ previous.tables, (changedTable current before).Succeeds ↔
      before.name.hashable ∧ ∀ t ∈ current.tables, t.name = before.name →
        (∀ i ∈ before.indexes, ∀ v ∈ i.columns, v.IsText) ∧
          ∀ b ∈ before.columns, ∀ c ∈ t.columns, c.name = b.name → b.differs c → current.dialect = .mysql →
            Sql.defaultFaults c = [] := by
    intro before inPrevious
    have former := plain before inPrevious
    rw [succeeds_changedTable plain.namesWritable now inPrevious]
    simp only [Option.mem_def, now.lastTable?_eq_some_iff, and_imp]
    apply and_congr_right'
    apply forall₂_congr
    intro t inPlan
    apply imp_congr_right
    intro _
    have keyed : ∀ i ∈ t.indexes, i.keyFaults = [] := fun i listed =>
      ((typed.tables t inPlan).indexes i listed).keyFaults_eq_nil
    rw [and_iff_right keyed]
    apply and_congr
    · exact forall₂_congr fun i listed => (former.indexes i listed).keyFaults_eq_nil_iff
    · apply forall₂_congr
      intro b inBefore
      simp only [now.column?_eq_some_iff inPlan, and_imp]
      apply forall₂_congr
      intro c inTable
      apply imp_congr_right
      intro _
      have column := (typed.tables t inPlan).columns c inTable
      exact comparable_iff former.name.textFaults_eq_nil column.name
        ((former.columns b inBefore).compare_ne_undefined column)
  rw [succeeds_skippedFrom previous now, forall₂_congr table]
  constructor
  · intro given
    constructor
    · exact fun before inPrevious => (given before inPrevious).1
    · exact fun before inPrevious t inPlan same => ((given before inPrevious).2 t inPlan same).1
    · exact fun before inPrevious t inPlan same => ((given before inPrevious).2 t inPlan same).2
  · intro skippable before inPrevious
    refine ⟨skippable.tables before inPrevious, fun t inPlan same => ?_⟩
    exact ⟨skippable.indexes before inPrevious t inPlan same, skippable.definitions before inPrevious t inPlan same⟩

theorem succeeds_additions_of_plain (plain : previous.IsPlain) (now : current.WellNamed) (typed : current.Typed) :
    (additions previous current).Succeeds ↔
      (∀ t ∈ current.tables, ∀ c ∈ createdIn previous t, Sql.defaultFaults c = []) ∧
        ∀ t ∈ current.tables, ∀ before ∈ previous.table? t.name,
          (∀ b ∈ before.columns, b.name.hashable) ∧ ∀ i ∈ before.indexes, ∀ v ∈ i.columns, v.IsText := by
  rw [succeeds_additions plain.namesWritable now, ← forall₂_and, ← forall₂_and]
  apply forall₂_congr
  intro t inPlan
  have table := typed.tables t inPlan
  cases found : previous.table? t.name with
  | none => simp [isNew, createdIn, found, table.writable_iff]
  | some before =>
      have former := plain before (List.mem_of_find?_eq_some found)
      have keys : (∀ i ∈ before.indexes, i.keyFaults = []) ↔ ∀ i ∈ before.indexes, ∀ v ∈ i.columns, v.IsText :=
        forall₂_congr fun i listed => (former.indexes i listed).keyFaults_eq_nil_iff
      have created : (∀ c ∈ t.columns, (∀ b ∈ before.columns, b.name ≠ c.name) → c.Writable) ↔
          ∀ c ∈ createdIn previous t, Sql.defaultFaults c = [] := by
        rw [createdIn, found]
        simp only [List.mem_filter, and_imp, Bool.not_eq_true', ← Bool.not_eq_true]
        apply forall₂_congr
        intro c inTable
        rw [hasColumn_iff (now.columnTexts t inPlan c inTable), (table.columns c inTable).writable_iff]
        simp
      have keyed : ∀ i ∈ t.indexes, i.keyFaults = [] := fun i listed => (table.indexes i listed).keyFaults_eq_nil
      simp only [isNew, found, Option.isNone_some, Bool.false_eq_true, false_implies, true_and, Option.mem_some_iff,
        forall_eq', alterable_iff, and_iff_left keyed, created, keys]
      exact and_left_comm

theorem succeeds_statements_of_plain (plain : previous.IsPlain) (now : current.WellNamed) (typed : current.Typed)
    (same : previous.dialect = current.dialect) :
    (statements (some previous) current).Succeeds ↔ Migratable previous current := by
  rw [succeeds_statements plain.namesWritable now same, succeeds_additions_of_plain plain now typed,
    succeeds_skippedFrom_of_plain plain now typed]
  constructor
  · intro given
    rcases given with ⟨⟨defaults, former⟩, skippable⟩
    exact ⟨skippable, fun t inPlan before found => (former t inPlan before found).1, defaults⟩
  · intro migratable
    refine ⟨⟨migratable.defaults, fun t inPlan before found => ?_⟩, migratable.toSkippable⟩
    refine ⟨migratable.columns t inPlan before found, ?_⟩
    have inPrevious := List.mem_of_find?_eq_some found
    exact migratable.indexes before inPrevious t inPlan (Plan.name_of_table? (now.tableTexts t inPlan) found).symm

theorem succeeds_script_anew (other : previous.dialect ≠ current.dialect) (typed : current.Typed) :
    (script (some previous) current).Succeeds ↔ ∀ t ∈ current.tables, ∀ c ∈ t.columns, Sql.defaultFaults c = [] := by
  have rebuild : isFullRebuild (some previous) current = true := by simp [isFullRebuild, other]
  have anew : (script (some previous) current).Succeeds ↔ current.migration.Succeeds := by
    simp [script, statements, files, rebuild, Plan.migration]
  rw [anew, Plan.succeeds_migration_iff]
  exact forall₂_congr fun t inPlan => (typed.tables t inPlan).writable_iff

theorem succeeds_script_of_plain (plain : previous.IsPlain) (now : current.Regular d) (typed : current.Typed) :
    (script (some previous) current).Succeeds ↔
      (previous.dialect = d → Migratable previous current) ∧
        (previous.dialect ≠ d → ∀ t ∈ current.tables, ∀ c ∈ t.columns, Sql.defaultFaults c = []) := by
  by_cases same : previous.dialect = d
  · have script : (script (some previous) current).Succeeds ↔ (statements (some previous) current).Succeeds := by
      simp [script]
    rw [script, succeeds_statements_of_plain plain now.toWellNamed typed (same.trans now.dialect.symm)]
    simp [same]
  · rw [succeeds_script_anew (same <| ·.trans now.dialect) typed, and_iff_right fun given => absurd given same]
    simp [same]

theorem succeeds_skipped_of_plain (plain : previous.IsPlain) (now : current.Regular d) (typed : current.Typed) :
    (skipped (some previous) current).Succeeds ↔ (previous.dialect = d → Skippable previous current) := by
  by_cases same : previous.dialect = d
  · rw [skipped_some (same.trans now.dialect.symm), succeeds_skippedFrom_of_plain plain now.toWellNamed typed]
    simp [same]
  · simp [skipped, isFullRebuild, now.dialect, same]

end Diff

namespace Reported

theorem exists_outcome_eq_ok_iff {α : Type} (x : Reported α) : (∃ a, x.outcome = .ok a) ↔ x.Succeeds := by
  simp [outcome_eq_ok_iff]

end Reported

namespace Snapshot

/--
Whatever file a snapshot was loaded from, there is a migration from its plan to a built one exactly if names in it can
serve as keys where they are looked up, the indexes of tables that stay are over texts, and the defaults that are
written can be. For another dialect only the defaults of the built plan count. The same holds, but for the names of
columns and what is created, for finding the changes that the migration skips.
-/
theorem loaded_diffable_iff {path : FilePath} {before after : Site} {s : Snapshot}
    (loads : load path before = (.ok (some s), after)) {d : Dialect} {current : Plan} (built : current.Built d) :
    ((∃ lines, (Diff.script (some s.plan) current).outcome = .ok lines) ↔
      (s.plan.dialect = d → Diff.Migratable s.plan current) ∧
        (s.plan.dialect ≠ d → ∀ t ∈ current.tables, ∀ c ∈ t.columns, Sql.defaultFaults c = [])) ∧
    ((∃ changes, (Diff.skipped (some s.plan) current).outcome = .ok changes) ↔
      (s.plan.dialect = d → Diff.Skippable s.plan current)) := by
  have plain := plain_of_load loads
  rw [Reported.exists_outcome_eq_ok_iff, Reported.exists_outcome_eq_ok_iff]
  exact ⟨Diff.succeeds_script_of_plain plain built.regular built.typed,
    Diff.succeeds_skipped_of_plain plain built.regular built.typed⟩

theorem load_eq_ok_of_bind {α : Type} {path : FilePath} {site : Site} {make : Snapshot → Option α} {a : α}
    (made : ((load path site).1.toOption.join.bind make) = some a) :
    ∃ s after, load path site = (.ok (some s), after) ∧ make s = some a := by
  rcases Option.bind_eq_some_iff.mp made with ⟨s, found, made⟩
  exact ⟨s, _, Work.eq_ok_of_toOption (Option.join_eq_some_iff.mp found), made⟩

def usersOnly : ModelSet := [("User", { name := "User", attributes := [("id", {})] })]

theorem usersOnly_built : (Plan.postgresOf usersOnly).Built .postgres := Plan.postgresOf_built (by decide) (by decide)

def numberedUsers : Site :=
  { tree := ⟨[(["schema.json"], .file (
    "\x7b\"plan\":\x7b\"dialect\":\"postgres\",\"tables\":[\x7b\"table\":\"users\",\"columns\":[" ++
    "\x7b\"name\":7,\"type\":\"text\"\x7d]\x7d]\x7d,\"hash\":\"0\"\x7d").toUTF8)]⟩ }

theorem numberedUsers_diffable : ∃ s after, load schemaFile numberedUsers = (.ok (some s), after) ∧
    Diff.Migratable s.plan (Plan.postgresOf usersOnly) ∧
    (Diff.script (some s.plan) (Plan.postgresOf usersOnly)).outcome =
      .ok ["ALTER TABLE \"users\" ADD COLUMN \"id\" bigint;"] := by
  have made : ((load schemaFile numberedUsers).1.toOption.join.bind fun s =>
      if s.plan.dialect = .postgres then
        (Diff.script (some s.plan) (Plan.postgresOf usersOnly)).outcome.toOption else none) =
          some ["ALTER TABLE \"users\" ADD COLUMN \"id\" bigint;"] := by
    decide +kernel
  rcases load_eq_ok_of_bind made with ⟨s, after, loads, made⟩
  rcases Option.ite_none_right_eq_some.mp made with ⟨postgres, script⟩
  have lines := eq_ok_of_toOption script
  have migratable := ((loaded_diffable_iff loads usersOnly_built).1.mp ⟨_, lines⟩).1 postgres
  exact ⟨s, after, loads, migratable, lines⟩

def listedTable : Site :=
  { tree := ⟨[(["schema.json"], .file (
    "\x7b\"plan\":\x7b\"dialect\":\"postgres\",\"tables\":[\x7b\"table\":[\"users\"]\x7d]\x7d," ++
    "\"hash\":\"0\"\x7d").toUTF8)]⟩ }

/-- It is loaded, but there is no migration from it, and the changes that one would skip are not found either. -/
theorem listedTable_not_diffable :
    (¬ ∀ (path : FilePath) (before after : Site) (s : Snapshot) (d : Dialect) (current : Plan),
      load path before = (.ok (some s), after) → current.Built d →
        ∃ lines, (Diff.script (some s.plan) current).outcome = .ok lines) ∧
    ¬ ∀ (path : FilePath) (before after : Site) (s : Snapshot) (d : Dialect) (current : Plan),
      load path before = (.ok (some s), after) → current.Built d →
        ∃ changes, (Diff.skipped (some s.plan) current).outcome = .ok changes := by
  have failed : ((load schemaFile listedTable).1.toOption.join.bind fun s =>
      if (Diff.script (some s.plan) (Plan.postgresOf usersOnly)).outcome.toOption.isNone ∧
        (Diff.skipped (some s.plan) (Plan.postgresOf usersOnly)).outcome.toOption.isNone then some () else none) =
          some () := by
    decide +kernel
  rcases load_eq_ok_of_bind failed with ⟨s, after, loads, failed⟩
  rcases Option.ite_none_right_eq_some.mp failed with ⟨⟨noScript, noneFound⟩, -⟩
  constructor
  · intro claimed
    rcases claimed _ _ _ _ _ _ loads usersOnly_built with ⟨lines, done⟩
    rw [done] at noScript
    cases noScript
  · intro claimed
    rcases claimed _ _ _ _ _ _ loads usersOnly_built with ⟨changes, done⟩
    rw [done] at noneFound
    cases noneFound

end Snapshot
end SchemaMigration
