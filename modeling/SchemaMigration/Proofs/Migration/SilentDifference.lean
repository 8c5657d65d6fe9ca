import SchemaMigration.Proofs.Migration.Exactness
import SchemaMigration.Proofs.Plan.Typed

namespace SchemaMigration

namespace Comparison

theorem andAll_ne_undefined {parts : List Comparison} (defined : ∀ part ∈ parts, part ≠ .undefined) :
    andAll parts ≠ .undefined := by
  induction parts with
  | nil => simp [andAll]
  | cons part rest ih =>
      rw [andAll]
      cases answer : part with
      | equal => exact ih fun other member => defined other (List.mem_cons_of_mem part member)
      | unequal => simp [andThen]
      | undefined => exact absurd answer (defined part List.mem_cons_self)

@[simp] theorem ofBool_ne_undefined (b : Bool) : ofBool b ≠ .undefined := by cases b <;> simp [ofBool]

theorem faults_eq_nil {c : Comparison} (defined : c ≠ .undefined) : c.faults = [] := by
  cases c <;> simp_all [faults]

end Comparison

namespace Value

def IsScalar : Value → Prop
  | .null | .bool _ | .int _ | .float _ | .str _ => True
  | _ => False

theorem compareNumbers_ne_undefined {v w : Value} (first : v.isSignaling = false) (second : w.isSignaling = false) :
    v.compareNumbers w ≠ .undefined := by
  rw [compareNumbers, first, second, Bool.or_false, Bool.and_false, if_neg Bool.false_ne_true]
  split
  · exact Comparison.ofBool_ne_undefined _
  · simp

theorem IsScalar.isSignaling {v : Value} (scalar : v.IsScalar) : v.isSignaling = false := by
  cases v <;> first | rfl | cases scalar

theorem IsScalar.compare_ne_undefined {v w : Value} (first : v.IsScalar) (second : w.IsScalar) :
    v.compare w ≠ .undefined := by
  have numbers := compareNumbers_ne_undefined first.isSignaling second.isSignaling
  cases v <;> cases first <;> cases w <;> cases second <;> simp [compare, numbers]

end Value

namespace Column

theorem compareEnums_ne_undefined (b c : Column) : compareEnums b c ≠ .undefined := by
  unfold compareEnums
  split <;> simp

theorem compareDefinitions_ne_undefined {b c : Column} (defaults : b.storedDefault.compare c.storedDefault ≠ .undefined) :
    b.compareDefinitions c ≠ .undefined := by
  apply Comparison.andAll_ne_undefined
  simp [defaults, compareEnums_ne_undefined]

theorem Typed.isScalar_storedDefault {c : Column} (typed : c.Typed) : c.storedDefault.IsScalar := by
  have leaf := typed.default.leaf
  have known := typed.default.known
  rw [storedDefault]
  cases default : c.defaultValue with
  | list | tuple | dict => simp [default, Value.isLeaf] at leaf
  | foreign kind => exact absurd default (known kind)
  | _ => trivial

end Column

theorem Index.Typed.keyFaults_eq_nil {i : Index} (typed : i.Typed) : i.keyFaults = [] := by
  have texts : i.columns.all isText := by
    rw [List.all_eq_true]
    intro v member
    rcases typed.columns v member with ⟨s, rfl⟩
    rfl
  rw [keyFaults, typed.name.textFaults_eq_nil, if_pos texts]
  rfl

/-- Tables with the same columns, defined alike, and the same indexes. -/
structure Table.Alike (t after : Table) : Prop where
  columnNames : ∀ name, name ∈ t.columns.map (·.name) ↔ name ∈ after.columns.map (·.name)
  columns : ∀ b ∈ t.columns, ∀ c ∈ after.columns, c.name = b.name → b.Alike c
  indexKeys : ∀ key, key ∈ t.indexes.map (·.key) ↔ key ∈ after.indexes.map (·.key)

@[mk_iff] structure Plan.Alike (p q : Plan) : Prop where
  tableNames : ∀ name, name ∈ p.tableNames ↔ name ∈ q.tableNames
  tables : p.Staying q Table.Alike

namespace Diff
variable {d : Dialect} {p q : Plan}

/-- A table that already had all it has now, by name and by key. -/
@[mk_iff] structure Had (before t : Table) : Prop where
  columns : ∀ c ∈ t.columns, ∃ b ∈ before.columns, b.name = c.name
  indexes : ∀ i ∈ t.indexes, ∃ other ∈ before.indexes, other.key = i.key

theorem missing_eq_nil_iff (past : p.WellNamed) {before t : Table} (inPrevious : before ∈ p.tables)
    (same : before.name = t.name) : missingColumns p t = [] ∧ missingIndexes p t = [] ↔ Had before t := by
  have only : ∀ holds : Table → Prop, (∀ other ∈ p.tables, other.name = t.name → holds other) ↔ holds before := by
    intro holds
    constructor
    · intro given
      exact given before inPrevious same
    · intro given other otherIn otherName
      rwa [past.table_eq otherIn inPrevious (otherName.trans same.symm)]
  simp only [missingColumns, missingIndexes, List.filter_eq_nil_iff, decide_eq_true_eq, only, had_iff]
  simp

theorem statementsFor_eq_nil_iff (past : p.WellNamed) (d : Dialect) (t : Table) :
    statementsFor d p t = [] ↔ ∃ before ∈ p.tables, before.name = t.name ∧ Had before t := by
  rw [statementsFor, List.append_eq_nil_iff, List.append_eq_nil_iff]
  constructor
  · intro nothing
    rcases nothing with ⟨⟨columns, -⟩, indexes⟩
    split at columns
    case isFalse => cases columns
    case isTrue stays =>
      rcases stays with ⟨before, inPrevious, same⟩
      have missing := And.intro (List.map_eq_nil_iff.mp columns) (List.map_eq_nil_iff.mp indexes)
      exact ⟨before, inPrevious, same, (missing_eq_nil_iff past inPrevious same).mp missing⟩
  · intro given
    rcases given with ⟨before, inPrevious, same, had⟩
    rcases (missing_eq_nil_iff past inPrevious same).mpr had with ⟨columns, indexes⟩
    rw [columns, indexes, if_pos ⟨before, inPrevious, same⟩]
    simp

theorem nothing_to_do_iff (past : p.Regular d) (now : q.Regular d) :
    (statements (some p) q).value = [] ↔
      ∀ t ∈ q.tables, ∃ before ∈ p.tables, before.name = t.name ∧ Had before t := by
  have tables : (∀ t ∈ q.tables, statementsFor d p t = []) ↔
      ∀ t ∈ q.tables, ∃ before ∈ p.tables, before.name = t.name ∧ Had before t :=
    forall₂_congr fun t _ => statementsFor_eq_nil_iff past.toWellNamed d t
  rw [statements_eq_nil_iff past now, ← tables, and_iff_right_of_imp]
  -- A new type would be that of a missing column.
  intro nothing
  apply List.eq_nil_iff_forall_not_mem.mpr
  intro type brought
  rcases (newTypes_brought past.toWellNamed now.toWellNamed).values type brought with ⟨t, inPlan, c, isMissing, -⟩
  rcases tables.mp nothing t inPlan with ⟨before, inPrevious, same, had⟩
  rw [((missing_eq_nil_iff past.toWellNamed inPrevious same).mpr had).1] at isMissing
  cases isMissing

theorem alike_iff_had_and_has {t after : Table} (distinct : (after.columns.map (·.name)).Nodup) :
    t.Alike after ↔ Had t after ∧ StillHas t after := by
  constructor
  · intro alike
    refine ⟨⟨?_, ?_⟩, ⟨?_, ?_⟩⟩
    · intro c inAfter
      exact List.mem_map.mp ((alike.columnNames c.name).mpr (List.mem_map_of_mem inAfter))
    · intro i inAfter
      exact List.mem_map.mp ((alike.indexKeys i.key).mpr (List.mem_map_of_mem inAfter))
    · intro i inTable
      rw [Plan.hasIndex_iff]
      exact List.mem_map.mp ((alike.indexKeys i.key).mp (List.mem_map_of_mem inTable))
    · intro b inTable
      rcases List.mem_map.mp ((alike.columnNames b.name).mp (List.mem_map_of_mem inTable)) with ⟨c, inAfter, same⟩
      exact ⟨c, inAfter, same, alike.columns b inTable c inAfter same⟩
  · intro given
    rcases given with ⟨had, has⟩
    refine ⟨?_, ?_, ?_⟩
    · intro name
      simp only [List.mem_map]
      constructor
      · rintro ⟨b, inTable, rfl⟩
        rcases has.columns b inTable with ⟨c, inAfter, same, -⟩
        exact ⟨c, inAfter, same⟩
      · rintro ⟨c, inAfter, rfl⟩
        exact had.columns c inAfter
    · intro b inTable c inAfter same
      rcases has.columns b inTable with ⟨other, otherIn, otherName, alike⟩
      rwa [List.inj_on_of_nodup_map distinct inAfter otherIn (same.trans otherName.symm)]
    · intro key
      simp only [List.mem_map]
      constructor
      · rintro ⟨i, inTable, rfl⟩
        exact (Plan.hasIndex_iff ..).mp (has.indexes i inTable)
      · rintro ⟨i, inAfter, rfl⟩
        exact had.indexes i inAfter

theorem alike_iff_nothing (past : p.Regular d) (now : q.Regular d) :
    p.Alike q ↔ (statements (some p) q).value = [] ∧ (skipped (some p) q).value = [] := by
  have table : p.Staying q Table.Alike ↔ p.Staying q fun t after => Had t after ∧ StillHas t after :=
    forall₄_congr fun t _ after inPlan => imp_congr_right fun _ => alike_iff_had_and_has (now.columnsDistinct after inPlan)
  rw [nothing_to_do_iff past now, skipped_eq_nil_iff now.toWellNamed
    (past.dialect.trans now.dialect.symm), Plan.alike_iff, table]
  constructor
  · intro alike
    rcases alike with ⟨names, tables⟩
    constructor
    · intro t inPlan
      rcases List.mem_map.mp ((names t.name).mpr (List.mem_map_of_mem inPlan)) with ⟨before, inPrevious, same⟩
      exact ⟨before, inPrevious, same, (tables before inPrevious t inPlan same.symm).1⟩
    · intro t inPrevious
      rcases List.mem_map.mp ((names t.name).mp (List.mem_map_of_mem inPrevious)) with ⟨after, inPlan, same⟩
      exact ⟨after, inPlan, same, (tables t inPrevious after inPlan same).2⟩
  · intro given
    rcases given with ⟨had, has⟩
    constructor
    · intro name
      simp only [Plan.tableNames, List.mem_map]
      constructor
      · rintro ⟨t, inPrevious, rfl⟩
        rcases has t inPrevious with ⟨after, inPlan, same, -⟩
        exact ⟨after, inPlan, same⟩
      · rintro ⟨t, inPlan, rfl⟩
        rcases had t inPlan with ⟨before, inPrevious, same, -⟩
        exact ⟨before, inPrevious, same⟩
    · intro t inPrevious after inPlan same
      rcases had after inPlan with ⟨before, beforeIn, beforeName, hadAll⟩
      rcases has t inPrevious with ⟨later, laterIn, laterName, hasAll⟩
      rw [past.table_eq inPrevious beforeIn (same.symm.trans beforeName.symm)] at hasAll ⊢
      rw [now.table_eq laterIn inPlan (laterName.trans same.symm)] at hasAll
      exact ⟨hadAll, hasAll⟩

theorem feasible_of_had (typed : p.Typed) (alsoTyped : q.Typed) (past : p.WellNamed)
    (had : ∀ t ∈ q.tables, ∃ before ∈ p.tables, before.name = t.name ∧ Had before t)
    (altered : p.Staying q fun before t => ∀ b ∈ before.columns, ∀ c ∈ t.columns, c.name = b.name → b.differs c →
      (Statement.modifyColumn before.name c).faults q.dialect = []) : Feasible p q where
  newTables := by
    intro t inPlan new
    rcases had t inPlan with ⟨before, inPrevious, same, -⟩
    exact absurd same (new before inPrevious)
  tables := by
    intro before inPrevious t inPlan same
    rcases had t inPlan with ⟨other, otherIn, otherName, hadAll⟩
    rw [past.table_eq otherIn inPrevious (otherName.trans same)] at hadAll
    refine ⟨?_, ?_, ?_⟩
    · intro c inTable new
      rcases hadAll.columns c inTable with ⟨b, inBefore, sameName⟩
      exact absurd sameName (new b inBefore)
    · exact fun i listed => ((typed.tables before inPrevious).indexes i listed).keyFaults_eq_nil
    · exact fun i listed => ((alsoTyped.tables t inPlan).indexes i listed).keyFaults_eq_nil
  columns := by
    intro before inPrevious t inPlan same b inBefore c inTable sameName
    have former := (typed.tables before inPrevious).columns b inBefore
    have column := (alsoTyped.tables t inPlan).columns c inTable
    have defined := Column.compareDefinitions_ne_undefined
      (former.isScalar_storedDefault.compare_ne_undefined column.isScalar_storedDefault)
    exact ⟨Comparison.faults_eq_nil defined, altered before inPrevious t inPlan same b inBefore c inTable sameName⟩

theorem feasible_of_alike (past : p.Built d) (now : q.Built d) (alike : p.Alike q) : Feasible p q := by
  have nothing := ((alike_iff_nothing past.regular now.regular).mp alike).1
  rw [nothing_to_do_iff past.regular now.regular] at nothing
  apply feasible_of_had past.typed now.typed past.regular.toWellNamed nothing
  intro before inPrevious t inPlan same b inBefore c inTable sameName
  have alikeColumns := (alike.tables before inPrevious t inPlan same).columns b inBefore c inTable sameName
  rw [(Column.differs_eq_false_iff b c).mpr alikeColumns]
  exact fun differs => absurd differs Bool.false_ne_true

theorem silent_iff_alike (past : p.Built d) (now : q.Built d) :
    (script (some p) q).outcome = .ok [noChanges] ∧ (skipped (some p) q).outcome = .ok [] ↔ p.Alike q := by
  have same : p.dialect = q.dialect := past.regular.dialect.trans now.regular.dialect.symm
  have nothing := alike_iff_nothing past.regular now.regular
  rw [Reported.outcome_eq_ok_iff, Reported.outcome_eq_ok_iff, script_eq_noChanges_iff same]
  constructor
  · intro given
    exact nothing.mpr ⟨given.1.2, given.2.2⟩
  · intro alike
    have feasible := feasible_of_alike past now alike
    have told := (succeeds_script_iff past.regular now.regular).mpr feasible
    have listed := feasible.skipped_succeeds past.regular now.regular
    exact ⟨⟨told, (nothing.mp alike).1⟩, listed, (nothing.mp alike).2⟩

def orderedTickets (states : List String) : ModelSet :=
  [("Ticket", { name := "Ticket", attributes := [("id", {}), ("state", { enumValues := some states })] })]

theorem states_reordered_silently :
    (Plan.postgresOf (orderedTickets ["open", "closed"])).Built .postgres ∧
      (Plan.postgresOf (orderedTickets ["closed", "open"])).Built .postgres ∧
      (Plan.postgresOf (orderedTickets ["open", "closed"])).Alike
        (Plan.postgresOf (orderedTickets ["closed", "open"])) := by
  have past : (Plan.postgresOf (orderedTickets ["open", "closed"])).Built .postgres :=
    Plan.postgresOf_built (by decide) (by decide)
  have now : (Plan.postgresOf (orderedTickets ["closed", "open"])).Built .postgres :=
    Plan.postgresOf_built (by decide) (by decide)
  exact ⟨past, now, (silent_iff_alike past now).mp ⟨rfl, rfl⟩⟩

/-- Users under two numbers, one of which is their key, and posts that refer to them. -/
def numberedUsers (key : String) : ModelSet :=
  [("User", {
      name := "User"
      primaryKey := some key
      attributes := [("id", { type := some .integer }), ("uid", { type := some .integer })] }),
    ("Post", { name := "Post", attributes := [("id", {}), ("user_id", {})] })]

theorem key_moved_silently :
    (Plan.postgresOf (numberedUsers "id")).Built .postgres ∧ (Plan.postgresOf (numberedUsers "uid")).Built .postgres ∧
      (script (some (Plan.postgresOf (numberedUsers "id"))) (Plan.postgresOf (numberedUsers "uid"))).outcome = .ok [noChanges] ∧
      (skipped (some (Plan.postgresOf (numberedUsers "id"))) (Plan.postgresOf (numberedUsers "uid"))).outcome = .ok [] ∧
      ¬ (Plan.postgresOf (numberedUsers "id")).Staying (Plan.postgresOf (numberedUsers "uid")) (fun before t =>
        ∀ b ∈ before.columns, ∀ c ∈ t.columns, c.name = b.name →
          b.isPrimaryKey = c.isPrimaryKey ∧ b.references = c.references) :=
  ⟨Plan.postgresOf_built (by decide) (by decide), Plan.postgresOf_built (by decide) (by decide),
    rfl, rfl, by unfold Plan.Staying; decide⟩

end Diff
end SchemaMigration
