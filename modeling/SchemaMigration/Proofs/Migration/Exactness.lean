import SchemaMigration.Proofs.Migration.DiffOutcome
import SchemaMigration.Proofs.Plan.Built

namespace SchemaMigration

def SchemaObject.isForeignKey : SchemaObject → Bool
  | .foreignKey .. => true
  | _ => false

namespace Statement
open Sql

/-- Whether a statement creates something. The others drop or change what is there. -/
def isAdditive : Statement → Bool
  | .createType .. | .createTable .. | .addColumn .. | .addForeignKey .. | .createIndex .. => true
  | .modifyColumn .. | .dropTable .. | .dropColumn .. | .dropIndex .. | .dropType .. => false

theorem head?_text (d : Dialect) {s : Statement} (additive : s.isAdditive) :
    (s.text d).toList.head? ∈ [none, some 'A', some 'C'] := by
  unfold text
  split
  · simp
  · cases s with
    | createType | createTable | addColumn | addForeignKey | createIndex =>
        dsimp only [addForeignKeyText, createIndexText]
        simp
    | modifyColumn | dropTable | dropColumn | dropIndex | dropType => cases additive

theorem text_ne_noChanges (d : Dialect) {s : Statement} (additive : s.isAdditive) :
    s.text d ≠ Diff.noChanges := by
  intro same
  have start := head?_text d additive
  rw [same] at start
  revert start
  decide

end Statement

namespace Diff
open Migration

variable {d : Dialect} {previous current : Plan}

theorem isAdditive_of_mem_tableStatements (d : Dialect) (previous : Plan) (t : Table) :
    ∀ s ∈ tableStatements d previous t, s.isAdditive := by
  intro s member
  rcases tableStatements_cases member with ⟨-, rfl⟩ | ⟨-, c, -, rfl⟩ | ⟨-, c, -, target, -, rfl⟩ | ⟨i, -, rfl⟩ <;> rfl

theorem isAdditive_of_mem_statements (same : previous.dialect = current.dialect) :
    ∀ s ∈ (statements (some previous) current).value, s.isAdditive := by
  intro s member
  rw [statements_some previous current same] at member
  rcases additions_cases member with ⟨name, values, rfl⟩ | ⟨t, -, inTable⟩
  · rfl
  · exact isAdditive_of_mem_tableStatements _ previous t s inTable

theorem script_eq_noChanges_iff (same : previous.dialect = current.dialect) :
    (script (some previous) current).value = [noChanges] ↔ (statements (some previous) current).value = [] := by
  have incremental : isFullRebuild (some previous) current = false := by simp [isFullRebuild, same]
  have additive := isAdditive_of_mem_statements same
  rw [script, Reported.value_bind, incremental]
  cases found : (statements (some previous) current).value with
  | nil => simp
  | cons s rest =>
      have first := s.text_ne_noChanges current.dialect (additive s (found ▸ List.mem_cons_self))
      simp [first]

def statementsFor (d : Dialect) (previous : Plan) (t : Table) : List Statement :=
  (if ∃ before ∈ previous.tables, before.name = t.name then
      (missingColumns previous t).map (.addColumn t.name)
    else [.createTable t.name t.columns]) ++
  (if d = .sqlite then []
    else (missingColumns previous t).flatMap fun c => c.references.toList.map (.addForeignKey t.name c.name)) ++
  (missingIndexes previous t).map (.createIndex t.name)

/-- Enum types that created columns use and that the previous plan does not have, each once. -/
structure BringsTypes (previous current : Plan) (types : List (String × List String)) : Prop where
  once : (types.map (·.1)).Nodup
  names : ∀ name, name ∈ types.map (·.1) ↔ current.dialect = .postgres ∧ name ∉ previous.enumTypeNames ∧
    ∃ t ∈ current.tables, ∃ c ∈ missingColumns previous t, c.isEnum ∧ Sql.enumTypeName c = name
  values : ∀ type ∈ types, ∃ t ∈ current.tables, ∃ c ∈ missingColumns previous t, c.isEnum ∧
    type = (Sql.enumTypeName c, c.enumMembers)

theorem tableStatements_eq_statementsFor (d : Dialect) (past : previous.WellNamed) (now : current.WellNamed)
    {t : Table} (inPlan : t ∈ current.tables) : tableStatements d previous t = statementsFor d previous t := by
  have text := now.tableTexts t inPlan
  have columns : columnStatements previous t =
      if ∃ before ∈ previous.tables, before.name = t.name then
        (missingColumns previous t).map (.addColumn t.name)
      else [.createTable t.name t.columns] := by
    rw [columnStatements, createdIn_eq_missingColumns past now inPlan]
    by_cases stays : ∃ before ∈ previous.tables, before.name = t.name
    · rw [if_pos stays, (isNew_eq_false_iff text).mpr stays, if_neg Bool.false_ne_true]
    · rw [if_neg stays, if_pos ((isNew_iff text).mpr (by simpa using stays))]
  have keys : ((createdIn previous t).flatMap fun c => (foreignKey d t.name c).value) =
      if d = .sqlite then []
      else (missingColumns previous t).flatMap fun c => c.references.toList.map (.addForeignKey t.name c.name) := by
    rw [createdIn_eq_missingColumns past now inPlan]
    simp only [foreignKey_value]
    split <;> simp
  rw [tableStatements, statementsFor, columns, keys, createdIndexes_eq_missingIndexes past text]

def newTypes (previous current : Plan) : List (String × List String) :=
  if current.dialect = .postgres then
    EnumTypes.broughtBy (knownTypes previous).value.names (createdColumns previous current)
  else []

theorem mem_createdColumns_iff_missing (past : previous.WellNamed) (now : current.WellNamed) (c : Column) :
    c ∈ createdColumns previous current ↔ ∃ t ∈ current.tables, c ∈ missingColumns previous t := by
  rw [mem_createdColumns]
  apply exists_congr
  intro t
  apply and_congr_right
  intro inPlan
  rw [createdIn_eq_missingColumns past now inPlan]

theorem newTypes_brought (past : previous.WellNamed) (now : current.WellNamed) :
    BringsTypes previous current (newTypes previous current) := by
  have missing := mem_createdColumns_iff_missing past now
  unfold newTypes
  by_cases postgres : current.dialect = .postgres
  · rw [if_pos postgres]
    refine ⟨EnumTypes.nodup_broughtBy .., ?_, ?_⟩
    · intro name
      rw [EnumTypes.mem_names_broughtBy, mem_names_knownTypes, and_iff_right postgres]
      apply and_congr_right
      intro _
      constructor
      · intro given
        rcases given with ⟨c, isCreated, used⟩
        rcases (missing c).mp isCreated with ⟨t, inPlan, isMissing⟩
        exact ⟨t, inPlan, c, isMissing, used⟩
      · intro given
        rcases given with ⟨t, inPlan, c, isMissing, used⟩
        exact ⟨c, (missing c).mpr ⟨t, inPlan, isMissing⟩, used⟩
    · intro type member
      rcases EnumTypes.column_of_mem_broughtBy member with ⟨c, isCreated, used⟩
      rcases (missing c).mp isCreated with ⟨t, inPlan, isMissing⟩
      exact ⟨t, inPlan, c, isMissing, used⟩
  · rw [if_neg postgres]
    exact ⟨List.nodup_nil, by simp [postgres], by simp⟩

theorem statements_perm (past : previous.Regular d) (now : current.Regular d) :
    (statements (some previous) current).value.Perm
      (EnumTypes.createTypes (newTypes previous current) ++ current.tables.flatMap (statementsFor d previous)) := by
  have types : ((knownTypes previous).value.declare current.dialect (createdColumns previous current)).value.2 =
      EnumTypes.createTypes (newTypes previous current) := by
    rw [(EnumTypes.declare_eq_broughtBy ..).2, newTypes]
    split <;> rfl
  have tables : current.tables.flatMap (tableStatements current.dialect previous) =
      current.tables.flatMap (statementsFor d previous) := by
    apply List.flatMap_congr
    intro t inPlan
    rw [now.dialect, tableStatements_eq_statementsFor d past.toWellNamed now.toWellNamed inPlan]
  rw [statements_some previous current (past.dialect.trans now.dialect.symm), ← types, ← tables]
  exact additions_perm previous current

theorem statements_eq_nil_iff (past : previous.Regular d) (now : current.Regular d) :
    (statements (some previous) current).value = [] ↔
      newTypes previous current = [] ∧ ∀ t ∈ current.tables, statementsFor d previous t = [] := by
  rw [← List.length_eq_zero_iff, (statements_perm past now).length_eq, List.length_eq_zero_iff,
    List.append_eq_nil_iff, EnumTypes.createTypes, List.map_eq_nil_iff, List.flatMap_eq_nil_iff]

theorem filter_isForeignKey_objectsIn (d : Dialect) (previous : Plan) (t : Table) :
    (objectsIn d previous t).filter (·.isForeignKey) =
      (createdIn previous t).flatMap (·.keyObjects t.name) := by
  have table : (if isNew previous t then [SchemaObject.table t.name] else []).filter (·.isForeignKey) = [] := by
    split <;> rfl
  have keys : ∀ c : Column, (columnObjects t.name (shapeIn d previous t) c).filter (·.isForeignKey) =
      c.keyObjects t.name := by
    intro c
    rw [columnObjects, List.filter_cons_of_neg Bool.false_ne_true, List.filter_cons_of_neg Bool.false_ne_true,
      Column.keyObjects]
    cases c.references <;> rfl
  have indexes : ((createdIndexes previous t).map (SchemaObject.index t.name)).filter (·.isForeignKey) = [] := by
    simp [SchemaObject.isForeignKey]
  rw [objectsIn, List.filter_append, List.filter_append, table, indexes, List.filter_flatMap]
  simp only [keys, List.nil_append, List.append_nil]

theorem created_foreignKeys_perm (past : previous.Regular d) (now : current.Regular d) :
    ((created d (statements (some previous) current).value).filter (·.isForeignKey)).Perm
      (current.tables.flatMap fun t => (missingColumns previous t).flatMap (·.keyObjects t.name)) := by
  have types : (createdTypes previous current).filter (·.isForeignKey) = [] := by
    apply List.filter_eq_nil_iff.mpr
    intro object member
    rcases (mem_createdTypes ..).mp member with ⟨-, c, -, -, -, rfl⟩
    exact Bool.false_ne_true
  have tables : current.tables.flatMap (fun t => (objectsIn d previous t).filter (·.isForeignKey)) =
      current.tables.flatMap fun t => (missingColumns previous t).flatMap (·.keyObjects t.name) := by
    apply List.flatMap_congr
    intro t inPlan
    rw [filter_isForeignKey_objectsIn, createdIn_eq_missingColumns past.toWellNamed now.toWellNamed inPlan]
  have objects := (created_additions previous current).filter (·.isForeignKey)
  rw [now.dialect, List.filter_append, types, List.nil_append, List.filter_flatMap, tables] at objects
  rwa [statements_some previous current (past.dialect.trans now.dialect.symm)]

/--
A migration that has one statement for each entry that the previous plan lacks and no other, and that
reads as these statements or, where there are none, as the line that says so.
-/
structure IsExact (d : Dialect) (previous current : Plan) (types : List (String × List String)) : Prop where
  brought : BringsTypes previous current types
  listed : (statements (some previous) current).value.Perm
    (EnumTypes.createTypes types ++ current.tables.flatMap (statementsFor d previous))
  keyed : ((created d (statements (some previous) current).value).filter (·.isForeignKey)).Perm
    (current.tables.flatMap fun t => (missingColumns previous t).flatMap (·.keyObjects t.name))
  silent : (script (some previous) current).value = [noChanges] ↔
    types = [] ∧ ∀ t ∈ current.tables, statementsFor d previous t = []
  read : (script (some previous) current).value ≠ [noChanges] →
    (script (some previous) current).value = (statements (some previous) current).value.map (Statement.text d)

theorem migration_exact (past : previous.Regular d) (now : current.Regular d) :
    ((script (some previous) current).outcome = .ok (script (some previous) current).value ↔
      Feasible previous current) ∧ ∃ types, IsExact d previous current types := by
  have same : previous.dialect = current.dialect := past.dialect.trans now.dialect.symm
  have silent := script_eq_noChanges_iff same
  constructor
  · rw [Reported.outcome_eq_ok_iff, and_iff_left rfl, succeeds_script_iff past now]
  · refine ⟨newTypes previous current, newTypes_brought past.toWellNamed now.toWellNamed, statements_perm past now,
      created_foreignKeys_perm past now, ?_, ?_⟩
    · rw [silent, statements_eq_nil_iff past now]
    · intro changes
      have changed : (statements (some previous) current).value ≠ [] := mt silent.mpr changes
      rw [script, Reported.value_bind, Reported.value_pure, now.dialect]
      simp [changed]

def plainTickets : ModelSet := [("Ticket", { name := "Ticket", attributes := [("id", {})] })]

def assignedTickets : ModelSet :=
  [("Ticket", {
      name := "Ticket"
      attributes := [("id", {}), ("state", { enumValues := some ["open", "closed"] }), ("agent_id", {})]
      indexes := [{ name := "by_state", columns := ["state"] }] }),
    ("Agent", { name := "Agent", attributes := [("id", {})] })]

theorem tickets_assigned_exactly :
    (Plan.postgresOf plainTickets).Regular .postgres ∧ (Plan.postgresOf assignedTickets).Regular .postgres ∧
      (∃ types, IsExact .postgres (Plan.postgresOf plainTickets) (Plan.postgresOf assignedTickets) types) ∧
      (script (some (Plan.postgresOf plainTickets)) (Plan.postgresOf assignedTickets)).value.length = 6 := by
  have past : (Plan.postgresOf plainTickets).Regular .postgres :=
    (Plan.postgresOf_built (by decide) (by decide)).regular
  have now : (Plan.postgresOf assignedTickets).Regular .postgres :=
    (Plan.postgresOf_built (by decide) (by decide)).regular
  rcases (migration_exact past now).2 with ⟨types, exact⟩
  have changes : (script (some (Plan.postgresOf plainTickets)) (Plan.postgresOf assignedTickets)).value ≠ [noChanges] := by
    intro silent
    exact absurd (exact.silent.mp silent).2 (by decide)
  refine ⟨past, now, ⟨types, exact⟩, ?_⟩
  rw [exact.read changes, List.length_map]
  decide

end Diff
end SchemaMigration
