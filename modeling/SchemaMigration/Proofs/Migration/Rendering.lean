import SchemaMigration.Proofs.Calendar.Utc
import SchemaMigration.Proofs.Plan.WellFormed
import SchemaMigration.Proofs.Snapshot.Diffable

namespace SchemaMigration

namespace Value

/-- A default that can be written, if it is kept at all. -/
def Renderable : Value → Prop
  | .int n => n.natAbs < integerLimit
  | .datetime t => t.InUtcCalendar
  | _ => True

instance : DecidablePred Renderable
  | .int n => inferInstanceAs (Decidable (n.natAbs < integerLimit))
  | .datetime t => inferInstanceAs (Decidable t.InUtcCalendar)
  | .null | .bool _ | .float _ | .str _ | .decimal _ | .date _ | .list _ | .tuple _ | .dict _ | .foreign _ => isTrue trivial

theorem renderable_primitiveDefault (v : Value) : (Inference.primitiveDefault v).Renderable ↔ v.Renderable := by
  cases v <;> rfl

end Value

theorem Column.WellFormed.defaultFaults_eq_nil_iff {c : Column} (wellFormed : c.WellFormed) (typed : c.Typed) :
    Sql.defaultFaults c = [] ↔ c.defaultValue.Renderable := by
  unfold Sql.defaultFaults
  cases declared : c.hasDefault with
  | false => simp [wellFormed.default declared, Value.Renderable]
  | true =>
      have leaf := typed.default.leaf
      cases default : c.defaultValue with
      | int n => simp [Value.textFaults, Value.Renderable]
      | datetime t => simp [Value.Renderable, ← DateTime.sqlText?_isSome_iff, Option.isSome_iff_ne_none]
      | list | tuple | dict => simp [default, Value.isLeaf] at leaf
      | null | bool | float | str | decimal | date | foreign => simp [Value.textFaults, Value.Renderable]

namespace Plan
variable {d : Dialect} {p : Plan}

theorem Built.wellFormed_column (built : p.Built d) {t : Table} (inPlan : t ∈ p.tables) {c : Column}
    (inTable : c ∈ t.columns) : c.WellFormed := by
  rcases built with ⟨models, accepted, built⟩
  rcases build_eq_ok_iff.mp built with ⟨-, rfl⟩
  rcases List.mem_map.mp inPlan with ⟨entry, member, rfl⟩
  exact (wellFormed_buildTable (accepted.models entry member)).columns c inTable

theorem Built.defaultFaults_eq_nil_iff (built : p.Built d) {t : Table} (inPlan : t ∈ p.tables) {c : Column}
    (inTable : c ∈ t.columns) : Sql.defaultFaults c = [] ↔ c.defaultValue.Renderable :=
  (built.wellFormed_column inPlan inTable).defaultFaults_eq_nil_iff ((built.typed.tables t inPlan).columns c inTable)

theorem Built.succeeds_migration_iff (built : p.Built d) :
    p.migration.Succeeds ↔ ∀ t ∈ p.tables, ∀ c ∈ t.columns, c.defaultValue.Renderable := by
  rw [Plan.succeeds_migration_iff]
  apply forall₂_congr
  intro t inPlan
  rw [(built.typed.tables t inPlan).writable_iff]
  exact forall₂_congr fun c inTable => built.defaultFaults_eq_nil_iff inPlan inTable

theorem forall_default_buildWith (outline : Outline) (models : ModelSet) (d : Dialect) (holds : Value → Prop) :
    (∀ t ∈ (buildWith outline models d).tables, ∀ c ∈ t.columns, holds c.defaultValue) ↔
      ∀ entry ∈ models, ∀ a ∈ entry.2.attributes, holds (Inference.primitiveDefault a.2.default) := by
  have table : ∀ m : Model, (∀ c ∈ (buildTable outline m).columns, holds c.defaultValue) ↔
      ∀ a ∈ m.attributes, holds (Inference.primitiveDefault a.2.default) := fun _ => List.forall_mem_map
  rw [buildWith, List.forall_mem_map]
  exact forall₂_congr fun entry _ => table entry.2

end Plan

namespace Diff
open Migration
variable {d : Dialect} {previous current : Plan}

/-- The columns whose default a migration writes: all of them from a plan for another dialect, else those that their
table did not have, and in MySQL those that are defined differently, which the definition is shown of. -/
def Writes (previous current : Plan) (t : Table) (c : Column) : Prop :=
  previous.dialect ≠ current.dialect ∨ c ∈ missingColumns previous t ∨
    current.dialect = .mysql ∧ ∃ before ∈ previous.tables, before.name = t.name ∧
      ∃ b ∈ before.columns, b.name = c.name ∧ b.differs c

theorem Feasible.default_of_missing (feasible : Feasible previous current) {t : Table} (inPlan : t ∈ current.tables)
    {c : Column} (missing : c ∈ missingColumns previous t) : Sql.defaultFaults c = [] := by
  rcases mem_missingColumns.mp missing with ⟨inTable, new⟩
  by_cases had : ∃ before ∈ previous.tables, before.name = t.name
  · rcases had with ⟨before, inPrevious, same⟩
    have alterable := feasible.tables before inPrevious t inPlan same.symm
    exact (alterable.columns c inTable (new before inPrevious same)).default
  · have fresh : ∀ before ∈ previous.tables, before.name ≠ t.name :=
      fun before inPrevious same => had ⟨before, inPrevious, same⟩
    exact ((feasible.newTables t inPlan fresh).columns c inTable).default

theorem feasible_iff_defaults (past : previous.Regular d) (now : current.Regular d) (former : previous.Typed)
    (typed : current.Typed) :
    Feasible previous current ↔
      ∀ t ∈ current.tables, ∀ c ∈ t.columns, Writes previous current t c → Sql.defaultFaults c = [] := by
  have same : previous.dialect = current.dialect := past.dialect.trans now.dialect.symm
  have comparable : ∀ before ∈ previous.tables, ∀ t ∈ current.tables, ∀ b ∈ before.columns, ∀ c ∈ t.columns,
      (Comparable current.dialect before.name b c ↔
        (b.differs c → current.dialect = .mysql → Sql.defaultFaults c = [])) := by
    intro before inPrevious t inPlan b inBefore c inTable
    have first := (former.tables before inPrevious).columns b inBefore
    have second := (typed.tables t inPlan).columns c inTable
    exact comparable_iff (former.tables before inPrevious).name.textFaults_eq_nil second.name
      (first.isScalar_storedDefault.compare_ne_undefined second.isScalar_storedDefault)
  constructor
  · intro feasible t inPlan c inTable writes
    rcases writes with other | missing | ⟨mysql, before, inPrevious, sameTable, b, inBefore, sameName, differs⟩
    · exact absurd same other
    · exact feasible.default_of_missing inPlan missing
    · have compared := feasible.columns before inPrevious t inPlan sameTable.symm b inBefore c inTable sameName.symm
      exact (comparable before inPrevious t inPlan b inBefore c inTable).mp compared differs mysql
  · intro defaults
    have missing : ∀ t ∈ current.tables, ∀ c ∈ missingColumns previous t, Sql.defaultFaults c = [] :=
      fun t inPlan c missing => defaults t inPlan c (mem_missingColumns.mp missing).1 (.inr (.inl missing))
    constructor
    case newTables =>
      intro t inPlan fresh
      refine (typed.tables t inPlan).writable_iff.mpr fun c inTable => missing t inPlan c ?_
      exact mem_missingColumns.mpr ⟨inTable, fun before inPrevious same => absurd same (fresh before inPrevious)⟩
    case tables =>
      intro before inPrevious t inPlan sameTable
      have keyed : ∀ t, Table.Typed t → ∀ i ∈ t.indexes, i.keyFaults = [] :=
        fun t table i listed => (table.indexes i listed).keyFaults_eq_nil
      refine ⟨?_, keyed before (former.tables before inPrevious), keyed t (typed.tables t inPlan)⟩
      intro c inTable new
      refine ((typed.tables t inPlan).columns c inTable).writable_iff.mpr (missing t inPlan c ?_)
      exact mem_missingColumns.mpr ⟨inTable, (past.forall_namesake_iff inPrevious sameTable.symm _).mpr new⟩
    case columns =>
      intro before inPrevious t inPlan sameTable b inBefore c inTable sameName
      refine (comparable before inPrevious t inPlan b inBefore c inTable).mpr fun differs mysql => ?_
      exact defaults t inPlan c inTable
        (.inr (.inr ⟨mysql, before, inPrevious, sameTable.symm, b, inBefore, sameName.symm, differs⟩))

theorem succeeds_script_iff_defaults {e : Dialect} (past : previous.Built e) (now : current.Built d) :
    (script (some previous) current).Succeeds ↔
      ∀ t ∈ current.tables, ∀ c ∈ t.columns, Writes previous current t c → c.defaultValue.Renderable := by
  have defaults : (∀ t ∈ current.tables, ∀ c ∈ t.columns, Writes previous current t c → Sql.defaultFaults c = []) ↔
      ∀ t ∈ current.tables, ∀ c ∈ t.columns, Writes previous current t c → c.defaultValue.Renderable :=
    forall₂_congr fun t inPlan => forall₂_congr fun c inTable =>
      imp_congr_right fun _ => now.defaultFaults_eq_nil_iff inPlan inTable
  rw [← defaults]
  by_cases same : e = d
  · subst same
    rw [succeeds_script_iff past.regular now.regular,
      feasible_iff_defaults past.regular now.regular past.typed now.typed]
  · have other : previous.dialect ≠ current.dialect := by
      rwa [past.regular.dialect, now.regular.dialect]
    rw [succeeds_script_anew other now.typed]
    simp [Writes, other]

end Diff

namespace Plan

/--
The statements of a plan can be written exactly if the defaults of all attributes can, and those of a migration from
another plan exactly if the defaults that it writes can.
-/
theorem rendered_iff_renderable {models : ModelSet} {d : Dialect} {p : Plan} (accepted : models.Accepted)
    (built : build models d = .ok p) :
    ((∃ statements, p.migration.outcome = .ok statements) ↔
      ∀ entry ∈ models, ∀ a ∈ entry.2.attributes, a.2.default.Renderable) ∧
    ∀ (e : Dialect) (previous : Plan), previous.Built e →
      ((∃ lines, (Diff.script (some previous) p).outcome = .ok lines) ↔
        ∀ t ∈ p.tables, ∀ c ∈ t.columns, Diff.Writes previous p t c → c.defaultValue.Renderable) := by
  have now : p.Built d := ⟨models, accepted, built⟩
  constructor
  · rw [Reported.exists_outcome_eq_ok_iff, now.succeeds_migration_iff]
    rcases build_eq_ok_iff.mp built with ⟨-, rfl⟩
    rw [forall_default_buildWith _ _ _ Value.Renderable]
    simp only [Value.renderable_primitiveDefault]
  · intro e previous past
    rw [Reported.exists_outcome_eq_ok_iff]
    exact Diff.succeeds_script_iff_defaults past now

def ahead : UtcOffset := ⟨18000000000, by decide⟩

def plainEvents : ModelSet := [("Event", { name := "Event", attributes := [("id", {})] })]

/-- Events with defaults of every kind, of which the list is dropped. They start with the first midnight in UTC. -/
def plannedEvents : ModelSet :=
  [("Event", {
      name := "Event"
      attributes := [("id", {}), ("title", { hasDefault := true, default := .str "it's" }),
        ("seats", { hasDefault := true, default := .int (tenTo 40) }),
        ("open", { hasDefault := true, default := .bool true }),
        ("ratio", { hasDefault := true, default := .float (.infinite true) }),
        ("price", { hasDefault := true, default := .decimal (.nan false true 0) }),
        ("day", { hasDefault := true, default := .date ⟨9999, 12, 31, by decide⟩ }),
        ("starts", {
            hasDefault := true
            default := .datetime ⟨⟨1, 1, 1, by decide⟩, ⟨18000000000, by decide⟩, some ahead⟩ }),
        ("ends", { hasDefault := true, default := .datetime ⟨⟨1, 1, 1, by decide⟩, ⟨0, by decide⟩, none⟩ }),
        ("tags", { hasDefault := true, default := .list [.str "new"] })] })]

theorem plannedEvents_rendered : plannedEvents.Accepted ∧ ∃ p, build plannedEvents .mysql = .ok p ∧
    (∃ statements, p.migration.outcome = .ok statements) ∧
    ∃ previous, previous.Built .mysql ∧ previous.tables.length = 1 ∧
      ∃ lines, (Diff.script (some previous) p).outcome = .ok lines := by
  have accepted : plannedEvents.Accepted := by decide
  have built : build plannedEvents .mysql = .ok (buildWith (.ofModels plannedEvents) plannedEvents .mysql) :=
    build_eq_ok_iff.mpr ⟨by decide, rfl⟩
  have former : (buildWith (.ofModels plainEvents) plainEvents .mysql).Built .mysql :=
    built_buildWith .mysql (by decide) (by decide)
  rcases rendered_iff_renderable accepted built with ⟨migration, diff⟩
  refine ⟨accepted, _, built, migration.mpr (by decide +kernel), _, former, rfl, (diff _ _ former).mpr ?_⟩
  have renderable : ∀ t ∈ (buildWith (.ofModels plannedEvents) plannedEvents .mysql).tables,
      ∀ c ∈ t.columns, c.defaultValue.Renderable := by
    decide +kernel
  exact fun t inPlan c inTable _ => renderable t inPlan c inTable

/-- Events that start with the first midnight of a clock ahead of UTC, when the calendar has not begun in UTC. -/
def earlyEvents : ModelSet :=
  [("Event", {
      name := "Event"
      attributes := [("id", {}),
        ("starts", { hasDefault := true, default := .datetime ⟨⟨1, 1, 1, by decide⟩, ⟨0, by decide⟩, some ahead⟩ })] })]

/-- They are accepted, but neither the migration that creates them nor one that adds their start can be written. -/
theorem earlyEvents_not_rendered :
    (¬ ∀ (models : ModelSet) (d : Dialect) (p : Plan), models.Accepted → build models d = .ok p →
      ∃ statements, p.migration.outcome = .ok statements) ∧
    ¬ ∀ (models : ModelSet) (d e : Dialect) (p previous : Plan), models.Accepted → build models d = .ok p →
      previous.Built e → ∃ lines, (Diff.script (some previous) p).outcome = .ok lines := by
  have accepted : earlyEvents.Accepted := by decide
  have built : build earlyEvents .postgres = .ok (postgresOf earlyEvents) := build_postgresOf _ (by decide)
  have former : (postgresOf plainEvents).Built .postgres := postgresOf_built (by decide) (by decide)
  constructor
  · intro claimed
    have failed : (postgresOf earlyEvents).migration.outcome = .error .outsideCalendar := by rfl
    rcases claimed _ _ _ accepted built with ⟨statements, done⟩
    rw [failed] at done
    cases done
  · intro claimed
    have failed : (Diff.script (some (postgresOf plainEvents)) (postgresOf earlyEvents)).outcome =
        .error .outsideCalendar := by
      rfl
    rcases claimed _ _ _ _ _ accepted built former with ⟨lines, done⟩
    rw [failed] at done
    cases done

end Plan
end SchemaMigration
