import SchemaMigration.Proofs.Migration.Created
import Mathlib.Data.List.Nodup

namespace SchemaMigration

namespace Value

def IsText (v : Value) : Prop := ∃ s, v = .str s

theorem str_injective : Function.Injective str := fun _ _ same => str.inj same

theorem equals_iff_eq {name : Value} (text : name.IsText) (v : Value) : v.equals name = true ↔ v = name := by
  rcases text with ⟨s, rfl⟩
  cases v <;>
    simp [equals, compare, compareNumbers, numeric?, isNumber, Comparison.ofBool]

theorem equals_iff_eq_left {name : Value} (text : name.IsText) (v : Value) : name.equals v = true ↔ name = v := by
  rcases text with ⟨s, rfl⟩
  cases v <;>
    simp [equals, compare, compareNumbers, numeric?, isNumber, Comparison.ofBool]

theorem find?_eq_some_iff {α : Type} {nameOf : α → Value} {items : List α} (distinct : (items.map nameOf).Nodup)
    {name : Value} (text : name.IsText) (a : α) :
    (items.find? fun item => (nameOf item).equals name) = some a ↔ a ∈ items ∧ nameOf a = name := by
  have name_eq : ∀ b, (items.find? fun item => (nameOf item).equals name) = some b → nameOf b = name := by
    intro b found
    have same := List.find?_some (p := fun item => (nameOf item).equals name) found
    exact (equals_iff_eq text _).mp same
  constructor
  · intro found
    exact ⟨List.mem_of_find?_eq_some found, name_eq a found⟩
  · intro given
    rcases given with ⟨member, same⟩
    cases found : items.find? fun item => (nameOf item).equals name with
    | none => simpa [same, equals_iff_eq text] using List.find?_eq_none.mp found a member
    | some other =>
        have otherName := name_eq other found
        have otherIn := List.mem_of_find?_eq_some found
        rw [List.inj_on_of_nodup_map distinct otherIn member (otherName.trans same.symm)]

theorem find?_eq_some_iff_of_texts {α : Type} {nameOf : α → Value} {items : List α}
    (distinct : (items.map nameOf).Nodup) (texts : ∀ item ∈ items, (nameOf item).IsText) (name : Value) (a : α) :
    (items.find? fun item => (nameOf item).equals name) = some a ↔ a ∈ items ∧ nameOf a = name := by
  by_cases text : name.IsText
  · exact find?_eq_some_iff distinct text a
  · constructor
    · intro found
      have member := List.mem_of_find?_eq_some found
      have same := List.find?_some (p := fun item => (nameOf item).equals name) found
      exact ⟨member, (equals_iff_eq_left (texts a member) name).mp same⟩
    · intro given
      rcases given with ⟨member, rfl⟩
      exact absurd (texts a member) text

end Value

namespace Plan

structure WellNamed (p : Plan) : Prop where
  tableTexts : ∀ t ∈ p.tables, t.name.IsText
  columnTexts : ∀ t ∈ p.tables, ∀ c ∈ t.columns, c.name.IsText
  tablesDistinct : (p.tables.map (·.name)).Nodup
  columnsDistinct : ∀ t ∈ p.tables, (t.columns.map (·.name)).Nodup

structure Regular (d : Dialect) (p : Plan) : Prop extends p.WellNamed where
  dialect : p.dialect = d

/-- What a database holds that was made for the plan, by name. -/
def inventory (p : Plan) : List SchemaObject :=
  p.tables.flatMap (fun t => .table t.name :: t.columns.map fun c => .column t.name c.name) ++
    if p.dialect = .postgres then p.enumTypeNames.map .enumType else []

variable {p : Plan}

theorem regular_empty (d : Dialect) : (empty d).Regular d where
  tableTexts := by simp [empty]
  columnTexts := by simp [empty]
  tablesDistinct := by simp [empty]
  columnsDistinct := by simp [empty]
  dialect := rfl

@[simp] theorem table_mem_inventory (name : Value) :
    .table name ∈ p.inventory ↔ ∃ t ∈ p.tables, t.name = name := by
  unfold inventory
  split <;> simp [eq_comm]

@[simp] theorem column_mem_inventory (table name : Value) :
    .column table name ∈ p.inventory ↔
      ∃ t ∈ p.tables, t.name = table ∧ ∃ c ∈ t.columns, c.name = name := by
  unfold inventory
  split <;> simp [and_assoc, and_comm, and_left_comm]

@[simp] theorem enumType_mem_inventory (name : String) :
    .enumType name ∈ p.inventory ↔ p.dialect = .postgres ∧ name ∈ p.enumTypeNames := by
  unfold inventory
  split <;> simp [*]

theorem isNamed_of_mem_inventory {object : SchemaObject} (member : object ∈ p.inventory) : object.isNamed := by
  unfold inventory at member
  simp only [List.mem_append, List.mem_flatMap, List.mem_cons, List.mem_map] at member
  rcases member with ⟨t, -, rfl | ⟨c, -, rfl⟩⟩ | types
  · rfl
  · rfl
  · split at types
    · rcases List.mem_map.mp types with ⟨name, -, rfl⟩
      rfl
    · cases types

theorem table?_eq_none_iff {name : Value} (text : name.IsText) :
    p.table? name = none ↔ ∀ t ∈ p.tables, t.name ≠ name := by
  simp [table?, List.find?_eq_none, Value.equals_iff_eq text]

theorem name_of_table? {name : Value} (text : name.IsText) {t : Table} (found : p.table? name = some t) :
    t.name = name := by
  have same := List.find?_some (p := fun (t : Table) => t.name.equals name) found
  exact (Value.equals_iff_eq text _).mp same

theorem WellNamed.table_eq (named : p.WellNamed) {s t : Table} (first : s ∈ p.tables)
    (second : t ∈ p.tables) (same : s.name = t.name) : s = t :=
  List.inj_on_of_nodup_map named.tablesDistinct first second same

theorem WellNamed.forall_namesake_iff (named : p.WellNamed) {t : Table} (inPlan : t ∈ p.tables) {name : Value}
    (same : t.name = name) (holds : Table → Prop) :
    (∀ other ∈ p.tables, other.name = name → holds other) ↔ holds t := by
  constructor
  · intro given
    exact given t inPlan same
  · intro given other alsoInPlan alsoSame
    rwa [named.table_eq alsoInPlan inPlan (alsoSame.trans same.symm)]

theorem WellNamed.column_eq (named : p.WellNamed) {t : Table} (inPlan : t ∈ p.tables) {b c : Column}
    (first : b ∈ t.columns) (second : c ∈ t.columns) (same : b.name = c.name) : b = c :=
  List.inj_on_of_nodup_map (named.columnsDistinct t inPlan) first second same

theorem WellNamed.table?_eq_some_iff (named : p.WellNamed) {name : Value} (text : name.IsText) (t : Table) :
    p.table? name = some t ↔ t ∈ p.tables ∧ t.name = name :=
  Value.find?_eq_some_iff named.tablesDistinct text t

theorem WellNamed.lastTable?_eq_some_iff (named : p.WellNamed) (name : Value) (t : Table) :
    Diff.lastTable? p name = some t ↔ t ∈ p.tables ∧ t.name = name := by
  have distinct : (p.tables.reverse.map (·.name)).Nodup := by
    rw [List.map_reverse, List.nodup_reverse]
    exact named.tablesDistinct
  rw [← List.mem_reverse]
  exact Value.find?_eq_some_iff_of_texts distinct (fun t listed => named.tableTexts t (List.mem_reverse.mp listed)) name t

theorem WellNamed.column?_eq_some_iff (named : p.WellNamed) {t : Table} (inPlan : t ∈ p.tables) (name : Value)
    (c : Column) : t.column? name = some c ↔ c ∈ t.columns ∧ c.name = name :=
  Value.find?_eq_some_iff_of_texts (named.columnsDistinct t inPlan) (named.columnTexts t inPlan) name c

end Plan

namespace Diff

theorem hasColumn_iff {name : Value} (text : name.IsText) (columns : List Column) :
    hasColumn columns name = true ↔ ∃ c ∈ columns, c.name = name := by
  simp [hasColumn, Value.equals_iff_eq text]

theorem isNew_iff {previous : Plan} {t : Table} (text : t.name.IsText) :
    isNew previous t = true ↔ ∀ before ∈ previous.tables, before.name ≠ t.name := by
  rw [isNew, Option.isNone_iff_eq_none, Plan.table?_eq_none_iff text]

theorem isNew_eq_false_iff {previous : Plan} {t : Table} (text : t.name.IsText) :
    isNew previous t = false ↔ ∃ before ∈ previous.tables, before.name = t.name := by
  rw [← Bool.not_eq_true, isNew_iff text]
  simp

def missingColumns (previous : Plan) (t : Table) : List Column :=
  t.columns.filter fun c =>
    ∀ before ∈ previous.tables, before.name = t.name → ∀ b ∈ before.columns, b.name ≠ c.name

theorem mem_missingColumns {previous : Plan} {t : Table} {c : Column} :
    c ∈ missingColumns previous t ↔ c ∈ t.columns ∧
      ∀ before ∈ previous.tables, before.name = t.name → ∀ b ∈ before.columns, b.name ≠ c.name := by
  simp [missingColumns]

/-- The indexes of a table whose key no index of the table has in the previous plan. -/
def missingIndexes (previous : Plan) (t : Table) : List Index :=
  t.indexes.filter fun i =>
    ∀ before ∈ previous.tables, before.name = t.name → ∀ other ∈ before.indexes, other.key ≠ i.key

section
variable {previous current : Plan}

theorem forall_former_iff (past : previous.WellNamed) {name : Value} (text : name.IsText) (holds : Table → Prop) :
    (∀ before ∈ previous.tables, before.name = name → holds before) ↔
      ∀ before ∈ previous.table? name, holds before := by
  simp only [Option.mem_def, past.table?_eq_some_iff text, and_imp]

theorem createdIn_eq_missingColumns (past : previous.WellNamed) (now : current.WellNamed) {t : Table}
    (inPlan : t ∈ current.tables) : createdIn previous t = missingColumns previous t := by
  have former := forall_former_iff past (now.tableTexts t inPlan)
  rw [createdIn, missingColumns]
  simp only [former]
  cases previous.table? t.name with
  | none => simp
  | some before =>
      apply List.filter_congr
      intro c inTable
      rw [Bool.eq_iff_iff, Bool.not_eq_true', ← Bool.not_eq_true, hasColumn_iff (now.columnTexts t inPlan c inTable)]
      simp

theorem createdIndexes_eq_missingIndexes (past : previous.WellNamed) {t : Table} (text : t.name.IsText) :
    createdIndexes previous t = missingIndexes previous t := by
  have former := forall_former_iff past text
  rw [createdIndexes, missingIndexes]
  simp only [former]
  cases previous.table? t.name with
  | none => simp
  | some before =>
      apply List.filter_congr
      intro i _
      rw [Bool.eq_iff_iff]
      simp [hasIndex]

theorem mem_createdIn (past : previous.WellNamed) (now : current.WellNamed) {t : Table}
    (inPlan : t ∈ current.tables) (c : Column) :
    c ∈ createdIn previous t ↔
      c ∈ t.columns ∧ .column t.name c.name ∉ previous.inventory := by
  rw [createdIn_eq_missingColumns past now inPlan, missingColumns, List.mem_filter, Plan.column_mem_inventory]
  simp

theorem mem_createdIndexes (past : previous.WellNamed) {t : Table} (text : t.name.IsText) (i : Index) :
    i ∈ createdIndexes previous t ↔
      i ∈ t.indexes ∧ ∀ before ∈ previous.tables, before.name = t.name → hasIndex before.indexes i = false := by
  rw [createdIndexes_eq_missingIndexes past text, missingIndexes, List.mem_filter]
  simp [hasIndex]

end

end Diff
end SchemaMigration
