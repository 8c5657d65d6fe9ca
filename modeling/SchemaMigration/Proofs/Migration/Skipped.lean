import SchemaMigration.Proofs.Plan.Named
import SchemaMigration.Proofs.Text.Order
import Mathlib.Tactic.MkIffOfInductiveProp

namespace SchemaMigration

namespace Comparison

@[simp] theorem ofBool_eq_equal_iff (b : Bool) : ofBool b = .equal ↔ b = true := by cases b <;> simp [ofBool]

@[simp] theorem andThen_eq_equal_iff (a b : Comparison) : a.andThen b = .equal ↔ a = .equal ∧ b = .equal := by
  cases a <;> simp [andThen]

end Comparison

namespace Column

/-- Columns that are defined alike, as far as definitions are compared. -/
@[mk_iff] structure Alike (b c : Column) : Prop where
  type : b.type = c.type
  isNullable : b.isNullable = c.isNullable
  hasDefault : b.hasDefault = c.hasDefault
  default : b.storedDefault.equals c.storedDefault
  isUnique : b.isUnique = c.isUnique
  enumMembers : b.enumMembers.Perm c.enumMembers

theorem enumMembers_eq_nil {c : Column} (plain : c.isEnum = false) : c.enumMembers = [] := by
  simpa [isEnum] using plain

theorem type_of_isEnum {c : Column} (enum : c.isEnum) : c.type = .enum := by
  by_contra other
  simp [isEnum, enumMembers, other] at enum

theorem compareEnums_eq_equal_iff {b c : Column} (type : b.type = c.type) :
    compareEnums b c = .equal ↔ b.enumMembers.Perm c.enumMembers := by
  unfold compareEnums
  cases enums : b.isEnum || c.isEnum with
  | true =>
      have enum : b.type = .enum := by
        rcases Bool.or_eq_true_iff.mp enums with first | second
        · exact type_of_isEnum first
        · exact type.trans (type_of_isEnum second)
      have alsoEnum : c.type = .enum := type.symm.trans enum
      simp [enumMembers, enum, alsoEnum, Text.sort_eq_sort_iff]
  | false =>
      rw [Bool.or_eq_false_iff] at enums
      simp [enumMembers_eq_nil enums.1, enumMembers_eq_nil enums.2]

theorem differs_eq_false_iff (b c : Column) : b.differs c = false ↔ b.Alike c := by
  have same : b.differs c = false ↔ b.compareDefinitions c = .equal := by simp [differs]
  rw [same, alike_iff, compareDefinitions]
  by_cases type : b.type = c.type
  · simp [Comparison.andAll, compareEnums_eq_equal_iff type, type, Value.equals, and_assoc]
  · simp [Comparison.andAll, type]

end Column

namespace Diff
open Migration

variable {previous current : Plan}

theorem droppedIndex_value (d : Dialect) (table : Value) (current : List Index) (i : Index) :
    (droppedIndex d table current i).value =
      if hasIndex current i then [] else [⟨.dropIndex, table, some i.name, .dropIndex table i.name⟩] := by
  unfold droppedIndex
  cases hasIndex current i <;> rfl

theorem changedColumn_value (d : Dialect) (table : Value) (current : Table) (c : Column) :
    (changedColumn d table current c).value =
      match current.column? c.name with
      | none => [⟨.dropColumn, table, some c.name, .dropColumn table c.name⟩]
      | some now => if c.differs now then [⟨.alterColumn, table, some c.name, .modifyColumn table now⟩] else [] := by
  unfold changedColumn
  rw [Reported.value_bind]
  cases current.column? c.name with
  | none => rfl
  | some now => cases differs : c.differs now <;> simp [differs, skip, statement, Reported.statement]

theorem changedTable_value (current : Plan) (t : Table) :
    (changedTable current t).value =
      match lastTable? current t.name with
      | none => [⟨.dropTable, t.name, none, .dropTable t.name⟩]
      | some now => (t.indexes.flatMap fun i => (droppedIndex current.dialect t.name now.indexes i).value) ++
          t.columns.flatMap fun c => (changedColumn current.dialect t.name now c).value := by
  unfold changedTable
  rw [Reported.value_bind]
  cases lastTable? current t.name with
  | none => rfl
  | some now => simp [List.flatMap_def]

theorem skippedFrom_value (previous current : Plan) :
    (skippedFrom previous current).value = previous.tables.flatMap fun t => (changedTable current t).value := by
  simp [skippedFrom, List.flatMap_def]

theorem skipped_some (same : previous.dialect = current.dialect) :
    skipped (some previous) current = skippedFrom previous current := by
  simp [skipped, isFullRebuild, same]

/-- A table that has everything it had, and columns as they were, as far as definitions are compared. -/
@[mk_iff] structure StillHas (t after : Table) : Prop where
  indexes : ∀ i ∈ t.indexes, hasIndex after.indexes i
  columns : ∀ b ∈ t.columns, ∃ c ∈ after.columns, c.name = b.name ∧ b.Alike c

theorem changedColumn_eq_nil_iff (now : current.WellNamed) {after : Table} (inPlan : after ∈ current.tables)
    (d : Dialect) (table : Value) (b : Column) :
    (changedColumn d table after b).value = [] ↔ ∃ c ∈ after.columns, c.name = b.name ∧ b.Alike c := by
  have stays : (∃ c ∈ after.columns, c.name = b.name ∧ b.Alike c) ↔
      ∃ c, after.column? b.name = some c ∧ b.Alike c := by
    simp only [now.column?_eq_some_iff inPlan, and_assoc]
  rw [changedColumn_value, stays]
  cases after.column? b.name with
  | none => simp
  | some c => simp [← Column.differs_eq_false_iff]

theorem changedTable_eq_nil_iff (now : current.WellNamed) (t : Table) :
    (changedTable current t).value = [] ↔ ∃ after ∈ current.tables, after.name = t.name ∧ StillHas t after := by
  have stays : (∃ after ∈ current.tables, after.name = t.name ∧ StillHas t after) ↔
      ∃ after, lastTable? current t.name = some after ∧ StillHas t after := by
    simp only [now.lastTable?_eq_some_iff, and_assoc]
  rw [changedTable_value, stays]
  cases found : lastTable? current t.name with
  | none => simp
  | some after =>
      have inPlan := ((now.lastTable?_eq_some_iff _ after).mp found).1
      have columns : (∀ b ∈ t.columns, (changedColumn current.dialect t.name after b).value = []) ↔
          ∀ b ∈ t.columns, ∃ c ∈ after.columns, c.name = b.name ∧ b.Alike c :=
        forall₂_congr fun b _ => changedColumn_eq_nil_iff now inPlan current.dialect t.name b
      simp [columns, droppedIndex_value, stillHas_iff]

theorem skipped_eq_nil_iff (now : current.WellNamed) (same : previous.dialect = current.dialect) :
    (skipped (some previous) current).value = [] ↔
      ∀ t ∈ previous.tables, ∃ after ∈ current.tables, after.name = t.name ∧ StillHas t after := by
  rw [skipped_some same, skippedFrom_value, List.flatMap_eq_nil_iff]
  exact forall₂_congr fun t _ => changedTable_eq_nil_iff now t

theorem alterColumn_mem_changedColumn_iff (d : Dialect) (table : Value) (after : Table) (b : Column) (s : SkippedChange) :
    s ∈ (changedColumn d table after b).value ∧ s.kind = .alterColumn ↔
      ∃ c, after.column? b.name = some c ∧ b.differs c ∧
        s = ⟨.alterColumn, table, some b.name, .modifyColumn table c⟩ := by
  rw [changedColumn_value]
  cases after.column? b.name with
  | none =>
      constructor
      · rintro ⟨member, alters⟩
        rw [List.mem_singleton.mp member] at alters
        cases alters
      · rintro ⟨c, ⟨⟩, -⟩
  | some c =>
      cases differs : b.differs c with
      | false => simp [differs]
      | true =>
          simp only [if_true, List.mem_singleton, Option.some.injEq, exists_eq_left', differs, true_and]
          exact and_iff_left_of_imp fun same => congrArg SkippedChange.kind same

theorem alterColumn_mem_changedTable_iff (current : Plan) (t : Table) (s : SkippedChange) :
    s ∈ (changedTable current t).value ∧ s.kind = .alterColumn ↔
      ∃ after, lastTable? current t.name = some after ∧ ∃ b ∈ t.columns, ∃ c, after.column? b.name = some c ∧
        b.differs c ∧ s = ⟨.alterColumn, t.name, some b.name, .modifyColumn t.name c⟩ := by
  simp only [← alterColumn_mem_changedColumn_iff current.dialect]
  rw [changedTable_value]
  cases lastTable? current t.name with
  | none =>
      constructor
      · rintro ⟨member, alters⟩
        rw [List.mem_singleton.mp member] at alters
        cases alters
      · rintro ⟨after, ⟨⟩, -⟩
  | some after =>
      have index : ∀ i : Index, s ∈ (droppedIndex current.dialect t.name after.indexes i).value → s.kind ≠ .alterColumn := by
        intro i member alters
        rw [droppedIndex_value] at member
        split at member
        · cases member
        · rw [List.mem_singleton.mp member] at alters
          cases alters
      simp only [Option.some.injEq, exists_eq_left', List.mem_append, List.mem_flatMap]
      constructor
      · rintro ⟨⟨i, -, dropped⟩ | ⟨b, inTable, changed⟩, alters⟩
        · exact absurd alters (index i dropped)
        · exact ⟨b, inTable, changed, alters⟩
      · rintro ⟨b, inTable, changed, alters⟩
        exact ⟨.inr ⟨b, inTable, changed⟩, alters⟩

theorem alterColumn_mem_skipped_iff (now : current.WellNamed) (same : previous.dialect = current.dialect)
    (s : SkippedChange) :
    s ∈ (skipped (some previous) current).value ∧ s.kind = .alterColumn ↔
      ∃ before ∈ previous.tables, ∃ t ∈ current.tables, t.name = before.name ∧
        ∃ b ∈ before.columns, ∃ c ∈ t.columns, c.name = b.name ∧ b.differs c ∧
          s = ⟨.alterColumn, before.name, some b.name, .modifyColumn before.name c⟩ := by
  rw [skipped_some same, skippedFrom_value, List.mem_flatMap]
  have table : ∀ before, s ∈ (changedTable current before).value ∧ s.kind = .alterColumn ↔
      ∃ t ∈ current.tables, t.name = before.name ∧ ∃ b ∈ before.columns, ∃ c ∈ t.columns, c.name = b.name ∧
        b.differs c ∧ s = ⟨.alterColumn, before.name, some b.name, .modifyColumn before.name c⟩ := by
    intro before
    rw [alterColumn_mem_changedTable_iff]
    simp only [now.lastTable?_eq_some_iff, and_assoc]
    apply exists_congr
    intro t
    apply and_congr_right
    intro inPlan
    simp only [now.column?_eq_some_iff inPlan, and_assoc]
  constructor
  · rintro ⟨⟨before, inPrevious, changed⟩, alters⟩
    exact ⟨before, inPrevious, (table before).mp ⟨changed, alters⟩⟩
  · rintro ⟨before, inPrevious, altered⟩
    rcases (table before).mpr altered with ⟨changed, alters⟩
    exact ⟨⟨before, inPrevious, changed⟩, alters⟩

end Diff
end SchemaMigration
