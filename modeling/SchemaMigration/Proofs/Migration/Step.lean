import SchemaMigration.Proofs.Plan.Named

namespace SchemaMigration

@[simp] theorem Column.mem_keyObjects (table : Value) (c : Column) (object : SchemaObject) :
    object ∈ c.keyObjects table ↔
      ∃ target, c.references = some target ∧ object = .foreignKey table c.name target := by
  unfold Column.keyObjects
  cases c.references <;> simp

namespace Diff

section
variable (d : Dialect) (previous : Plan) (t : Table)

theorem mem_objectsIn (object : SchemaObject) :
    object ∈ objectsIn d previous t ↔
      (isNew previous t ∧ object = .table t.name) ∨
      (∃ c ∈ createdIn previous t, object = .column t.name c.name ∨
        object = .definition t.name c.name (shapeIn d previous t c) ∨
        ∃ target, c.references = some target ∧ object = .foreignKey t.name c.name target) ∨
      ∃ i ∈ createdIndexes previous t, object = .index t.name i := by
  cases new : isNew previous t <;> simp [objectsIn, columnObjects, new, eq_comm]

@[simp] theorem table_mem_objectsIn (name : Value) :
    .table name ∈ objectsIn d previous t ↔ isNew previous t ∧ name = t.name := by
  simp [mem_objectsIn]

@[simp] theorem column_mem_objectsIn (table name : Value) :
    .column table name ∈ objectsIn d previous t ↔
      table = t.name ∧ ∃ c ∈ createdIn previous t, name = c.name := by
  simp [mem_objectsIn, and_left_comm]

@[simp] theorem definition_mem_objectsIn (table name : Value) (shape : ColumnShape) :
    .definition table name shape ∈ objectsIn d previous t ↔
      table = t.name ∧ ∃ c ∈ createdIn previous t, name = c.name ∧ shape = shapeIn d previous t c := by
  simp [mem_objectsIn, and_left_comm]

@[simp] theorem foreignKey_mem_objectsIn (table name : Value) (target : Reference) :
    .foreignKey table name target ∈ objectsIn d previous t ↔
      table = t.name ∧ ∃ c ∈ createdIn previous t, name = c.name ∧ c.references = some target := by
  simp [mem_objectsIn, and_left_comm]

@[simp] theorem index_mem_objectsIn (table : Value) (index : Index) :
    .index table index ∈ objectsIn d previous t ↔ table = t.name ∧ index ∈ createdIndexes previous t := by
  simp [mem_objectsIn, and_comm]

@[simp] theorem enumType_not_mem_objectsIn (name : String) :
    .enumType name ∉ objectsIn d previous t := by
  simp [mem_objectsIn]

end

variable {d : Dialect} {previous current : Plan}

theorem mem_created_statements (past : previous.dialect = d) (now : current.dialect = d)
    (object : SchemaObject) :
    object ∈ created d (statements (some previous) current).value ↔
      object ∈ createdTypes previous current ∨ ∃ t ∈ current.tables, object ∈ objectsIn d previous t := by
  subst now
  rw [statements_some previous current past, (created_additions previous current).mem_iff,
    List.mem_append, List.mem_flatMap]

theorem table_mem_created (past : previous.dialect = d) (now : current.Regular d) (name : Value) :
    .table name ∈ created d (statements (some previous) current).value ↔
      .table name ∈ current.inventory ∧ .table name ∉ previous.inventory := by
  rw [mem_created_statements past now.dialect]
  simp only [mem_createdTypes, reduceCtorEq, and_false, exists_false, false_or, table_mem_objectsIn,
    Plan.table_mem_inventory]
  constructor
  · intro given
    rcases given with ⟨t, inPlan, new, rfl⟩
    refine ⟨⟨t, inPlan, rfl⟩, ?_⟩
    intro given
    rcases given with ⟨before, inPrevious, same⟩
    exact (isNew_iff (now.tableTexts t inPlan)).mp new before inPrevious same
  · intro given
    rcases given with ⟨⟨t, inPlan, rfl⟩, absent⟩
    refine ⟨t, inPlan, (isNew_iff (now.tableTexts t inPlan)).mpr ?_, rfl⟩
    intro before inPrevious same
    exact absent ⟨before, inPrevious, same⟩

theorem column_mem_created (past : previous.Regular d) (now : current.Regular d) (table name : Value) :
    .column table name ∈ created d (statements (some previous) current).value ↔
      .column table name ∈ current.inventory ∧ .column table name ∉ previous.inventory := by
  rw [mem_created_statements past.dialect now.dialect]
  simp only [mem_createdTypes, reduceCtorEq, and_false, exists_false, false_or, column_mem_objectsIn]
  rw [current.column_mem_inventory]
  constructor
  · intro given
    rcases given with ⟨t, inPlan, rfl, c, isCreated, rfl⟩
    rcases (mem_createdIn past.toWellNamed now.toWellNamed inPlan c).mp isCreated with ⟨inTable, absent⟩
    exact ⟨⟨t, inPlan, rfl, c, inTable, rfl⟩, absent⟩
  · intro given
    rcases given with ⟨⟨t, inPlan, rfl, c, inTable, rfl⟩, absent⟩
    have isCreated := (mem_createdIn past.toWellNamed now.toWellNamed inPlan c).mpr ⟨inTable, absent⟩
    exact ⟨t, inPlan, rfl, c, isCreated, rfl⟩

theorem enumType_mem_created (past : previous.dialect = d) (now : current.dialect = d) (name : String) :
    .enumType name ∈ created d (statements (some previous) current).value ↔
      d = .postgres ∧ name ∉ previous.enumTypeNames ∧
        ∃ c ∈ createdColumns previous current, c.isEnum ∧ Sql.enumTypeName c = name := by
  rw [mem_created_statements past now, mem_createdTypes, now]
  simp only [enumType_not_mem_objectsIn, and_false, exists_false, or_false, SchemaObject.enumType.injEq]
  constructor
  · intro given
    rcases given with ⟨postgres, c, isCreated, enum, unknown, rfl⟩
    exact ⟨postgres, unknown, c, isCreated, enum, rfl⟩
  · intro given
    rcases given with ⟨postgres, unknown, c, isCreated, enum, rfl⟩
    exact ⟨postgres, c, isCreated, enum, unknown, rfl⟩

theorem definition_mem_created (past : previous.dialect = d) (now : current.dialect = d) (table name : Value)
    (shape : ColumnShape) :
    .definition table name shape ∈ created d (statements (some previous) current).value ↔
      ∃ t ∈ current.tables, table = t.name ∧
        ∃ c ∈ createdIn previous t, name = c.name ∧ shape = shapeIn d previous t c := by
  simp [mem_created_statements past now, mem_createdTypes]

theorem foreignKey_mem_created (past : previous.dialect = d) (now : current.dialect = d) (table name : Value)
    (target : Reference) :
    .foreignKey table name target ∈ created d (statements (some previous) current).value ↔
      ∃ t ∈ current.tables, table = t.name ∧
        ∃ c ∈ createdIn previous t, name = c.name ∧ c.references = some target := by
  simp [mem_created_statements past now, mem_createdTypes]

theorem index_mem_created (past : previous.dialect = d) (now : current.dialect = d) (table : Value)
    (i : Index) :
    .index table i ∈ created d (statements (some previous) current).value ↔
      ∃ t ∈ current.tables, table = t.name ∧ i ∈ createdIndexes previous t := by
  simp [mem_created_statements past now, mem_createdTypes]

theorem created_of_new (past : previous.Regular d) (now : current.Regular d) {object : SchemaObject}
    (place : object.isPlace) (inPlan : object ∈ current.inventory) (new : object ∉ previous.inventory) :
    object ∈ created d (statements (some previous) current).value := by
  cases object with
  | table name => exact (table_mem_created past.dialect now name).mpr ⟨inPlan, new⟩
  | column table name => exact (column_mem_created past now table name).mpr ⟨inPlan, new⟩
  | definition | foreignKey | index | enumType => cases place

/-- Only what is new in the plan is created. An enum type may be new and yet not be created. -/
theorem new_of_created (past : previous.Regular d) (now : current.Regular d) {object : SchemaObject}
    (named : object.isNamed) (isCreated : object ∈ created d (statements (some previous) current).value) :
    object ∈ current.inventory ∧ object ∉ previous.inventory := by
  cases object with
  | table name => exact (table_mem_created past.dialect now name).mp isCreated
  | column table name => exact (column_mem_created past now table name).mp isCreated
  | enumType name =>
      obtain ⟨postgres, unknown, c, inColumns, enum, rfl⟩ :=
        (enumType_mem_created past.dialect now.dialect name).mp isCreated
      rcases (mem_createdColumns previous current c).mp inColumns with ⟨t, inPlan, inTable⟩
      have used : Sql.enumTypeName c ∈ current.enumTypeNames := (current.mem_enumTypeNames _).mpr
        ⟨t, inPlan, c, (createdIn_sublist previous t).subset inTable, enum, rfl⟩
      simp [now.dialect, postgres, used, unknown]
  | definition | foreignKey | index => cases named

/-! No such object is created twice. -/

theorem count_flatMap_le_one {α : Type} {items : List α} {objects : α → List SchemaObject}
    {object : SchemaObject} (apart : items.Pairwise fun a b => object ∈ objects a → object ∉ objects b)
    (once : ∀ a ∈ items, (objects a).count object ≤ 1) : (items.flatMap objects).count object ≤ 1 := by
  induction items with
  | nil => exact Nat.zero_le 1
  | cons a rest ih =>
      rw [List.flatMap_cons, List.count_append]
      have first := once a List.mem_cons_self
      have later := ih apart.of_cons fun b member => once b (List.mem_cons_of_mem a member)
      by_cases here : object ∈ objects a
      · have nowhere : object ∉ rest.flatMap objects := by
          intro member
          rcases List.mem_flatMap.mp member with ⟨b, inRest, again⟩
          exact List.rel_of_pairwise_cons apart inRest here again
        rw [List.count_eq_zero.mpr nowhere]
        omega
      · rw [List.count_eq_zero.mpr here]
        omega

theorem pairwise_ne_of_nodup_map {α : Type} {items : List α} {name : α → Value}
    (distinct : (items.map name).Nodup) : items.Pairwise fun a b => name a ≠ name b :=
  List.pairwise_map.mp distinct

theorem count_table_objectsIn (t : Table) (name : Value) :
    (objectsIn d previous t).count (.table name) ≤ 1 := by
  have columns : (.table name : SchemaObject) ∉
      (createdIn previous t).flatMap (columnObjects t.name (shapeIn d previous t)) := by
    simp [columnObjects]
  have indexes : (.table name : SchemaObject) ∉ (createdIndexes previous t).map (.index t.name) := by simp
  rw [objectsIn, List.count_append, List.count_append, List.count_eq_zero.mpr columns,
    List.count_eq_zero.mpr indexes]
  split
  · exact List.nodup_iff_count_le_one.mp (List.nodup_singleton _) _
  · exact Nat.zero_le 1

theorem count_column_objectsIn {t : Table} (distinct : (t.columns.map (·.name)).Nodup) (table name : Value) :
    (objectsIn d previous t).count (.column table name) ≤ 1 := by
  have new : (.column table name : SchemaObject) ∉ if isNew previous t then [.table t.name] else [] := by
    split <;> simp
  have indexes : (.column table name : SchemaObject) ∉ (createdIndexes previous t).map (.index t.name) := by
    simp
  rw [objectsIn, List.count_append, List.count_append, List.count_eq_zero.mpr new,
    List.count_eq_zero.mpr indexes, Nat.zero_add, Nat.add_zero]
  apply count_flatMap_le_one
  · refine ((pairwise_ne_of_nodup_map distinct).sublist (createdIn_sublist previous t)).imp ?_
    intro b c apart
    simp only [columnObjects, List.mem_cons, SchemaObject.column.injEq, reduceCtorEq,
      Column.mem_keyObjects, and_false, exists_false, or_false]
    rintro ⟨-, rfl⟩ ⟨-, same⟩
    exact apart same
  · intro c _
    have others : (.column table name : SchemaObject) ∉
        .definition t.name c.name (shapeIn d previous t c) :: c.keyObjects t.name := by simp
    rw [columnObjects, List.count_cons, List.count_eq_zero.mpr others]
    split <;> omega

theorem count_created_le_one (past : previous.dialect = d) (now : current.Regular d) {object : SchemaObject}
    (named : object.isNamed) : (created d (statements (some previous) current).value).count object ≤ 1 := by
  obtain rfl := now.dialect
  rw [statements_some previous current past, (created_additions previous current).count_eq, List.count_append]
  cases object with
  | table name =>
      have types : .table name ∉ createdTypes previous current := by simp [mem_createdTypes]
      rw [List.count_eq_zero.mpr types, Nat.zero_add]
      apply count_flatMap_le_one
      · refine (pairwise_ne_of_nodup_map now.tablesDistinct).imp ?_
        intro s t apart here there
        simp only [table_mem_objectsIn] at here there
        exact apart (here.2.symm.trans there.2)
      · intro t _
        exact count_table_objectsIn t name
  | column table name =>
      have types : .column table name ∉ createdTypes previous current := by simp [mem_createdTypes]
      rw [List.count_eq_zero.mpr types, Nat.zero_add]
      apply count_flatMap_le_one
      · refine (pairwise_ne_of_nodup_map now.tablesDistinct).imp ?_
        intro s t apart here there
        simp only [column_mem_objectsIn] at here there
        exact apart (here.1.symm.trans there.1)
      · intro t inPlan
        exact count_column_objectsIn (now.columnsDistinct t inPlan) table name
  | enumType name =>
      have tables : .enumType name ∉ current.tables.flatMap (objectsIn current.dialect previous) := by simp
      rw [List.count_eq_zero.mpr tables]
      exact List.nodup_iff_count_le_one.mp (EnumTypes.nodup_created_declare ..) _
  | definition | foreignKey | index => cases named

end Diff
end SchemaMigration
