import SchemaMigration.Proofs.Migration.Step
import SchemaMigration.Proofs.Migration.TypeSupply
import SchemaMigration.Proofs.Plan.Built
/-!
The order of tables and columns in a migration. New tables come with all their columns, then their
keys and indexes, and the tables that stay get their columns one after the other, each with its key.
A key that refers to such a column works only when it comes no earlier than the column.
-/
namespace SchemaMigration

abbrev PlacedColumn := Value × Column

def Column.refersTo (c : Column) (other : PlacedColumn) : Prop := c.references = some ⟨other.1, other.2.name⟩

instance (c : Column) (other : PlacedColumn) : Decidable (c.refersTo other) :=
  inferInstanceAs (Decidable (_ = _))

/-- References lead to tables and columns of the plan, indexes to columns of their own table. -/
@[mk_iff] structure Plan.WellReferenced (p : Plan) : Prop where
  references : ∀ t ∈ p.tables, ∀ c ∈ t.columns, ∀ r ∈ c.references, .column r.table r.column ∈ p.inventory
  indexes : ∀ t ∈ p.tables, ∀ i ∈ t.indexes, ∀ name ∈ i.columns, ∃ c ∈ t.columns, c.name = name

instance (p : Plan) : Decidable p.WellReferenced := decidable_of_iff' _ (Plan.wellReferenced_iff p)

theorem Statement.isPlace_of_mem_placesUsed (s : Statement) : ∀ object ∈ s.placesUsed, object.isPlace := by
  cases s <;> simp [placesUsed, SchemaObject.isPlace]

section
variable {d : Dialect}

def Placeless (d : Dialect) (statements : List Statement) : Prop :=
  ∀ object ∈ created d statements, object.isPlace = false

theorem supplied_of_placeless {held : List SchemaObject} {statements : List Statement}
    (placeless : Placeless d statements) :
    Supplied d Statement.placesUsed held statements ↔
      ∀ s ∈ statements, ∀ object ∈ s.placesUsed, object ∈ held := by
  induction statements generalizing held with
  | nil => simp [Supplied]
  | cons s rest ih =>
      rw [Placeless, created_cons, List.forall_mem_append] at placeless
      rw [Supplied, ih placeless.2, List.forall_mem_cons]
      apply and_congr_right
      intro _
      apply forall₄_congr
      intro later _ object used
      rw [List.mem_append, or_iff_left]
      intro creates
      have place := later.isPlace_of_mem_placesUsed object used
      rw [placeless.1 object creates] at place
      cases place

theorem placeless_flatMap {α : Type} {items : List α} {statements : α → List Statement}
    (placeless : ∀ a ∈ items, Placeless d (statements a)) : Placeless d (items.flatMap statements) := by
  intro object member
  rcases List.mem_flatMap.mp member with ⟨s, inside, creates⟩
  rcases List.mem_flatMap.mp inside with ⟨a, listed, inPart⟩
  exact placeless a listed object (List.mem_flatMap.mpr ⟨s, inPart, creates⟩)

theorem supplied_flatMap_of_placeless {α : Type} {items : List α} {statements : α → List Statement}
    {held : List SchemaObject} (placeless : ∀ a ∈ items, Placeless d (statements a)) :
    Supplied d Statement.placesUsed held (items.flatMap statements) ↔
      ∀ a ∈ items, Supplied d Statement.placesUsed held (statements a) := by
  rw [supplied_of_placeless (placeless_flatMap placeless)]
  constructor
  · intro found a listed
    rw [supplied_of_placeless (placeless a listed)]
    intro s inPart
    exact found s (List.mem_flatMap.mpr ⟨a, listed, inPart⟩)
  · intro found s member
    rcases List.mem_flatMap.mp member with ⟨a, listed, inPart⟩
    exact (supplied_of_placeless (placeless a listed)).mp (found a listed) s inPart

end

namespace Plan

def placeOf (c : PlacedColumn) : SchemaObject := .column c.1 c.2.name

theorem refersTo_iff {c : Column} {target : Reference} (references : c.references = some target)
    (other : PlacedColumn) :
    c.refersTo other ↔ placeOf other = .column target.table target.column := by
  cases target
  simp [Column.refersTo, references, placeOf, eq_comm]

/-- Of the places of the plan, exactly the columns that are due are not yet held. -/
def Awaits (p : Plan) (due : List PlacedColumn) (held : List SchemaObject) : Prop :=
  ∀ object ∈ p.inventory, object.isPlace → (object ∈ held ↔ object ∉ due.map placeOf)

variable {d : Dialect} {current : Plan} {due : List PlacedColumn} {held : List SchemaObject}

theorem Awaits.table_held (awaits : current.Awaits due held) {t : Table} (inPlan : t ∈ current.tables) :
    .table t.name ∈ held := by
  refine (awaits _ ((current.table_mem_inventory _).mpr ⟨t, inPlan, rfl⟩) rfl).mpr ?_
  simp [placeOf]

theorem Awaits.column_held_iff (awaits : current.Awaits due held) {table name : Value}
    (inPlan : .column table name ∈ current.inventory) :
    .column table name ∈ held ↔ ∀ later ∈ due, placeOf later ≠ .column table name := by
  rw [awaits _ inPlan rfl, List.mem_map]
  simp only [not_exists, not_and, ne_eq]

theorem Awaits.append_placeless {statements : List Statement} (awaits : current.Awaits due held)
    (placeless : Placeless d statements) : current.Awaits due (held ++ created d statements) := by
  intro object inPlan place
  rw [← awaits object inPlan place, List.mem_append, or_iff_left]
  intro creates
  rw [placeless object creates] at place
  cases place

end Plan

namespace Diff
open Migration Plan

variable {d : Dialect} {current : Plan} {due : List PlacedColumn} {held : List SchemaObject}

theorem placeless_foreignKey (table : Value) (c : Column) : Placeless d (foreignKey d table c).value := by
  intro object member
  rcases List.mem_flatMap.mp member with ⟨s, key, creates⟩
  rcases (mem_foreignKey ..).mp key with ⟨-, target, -, rfl⟩
  obtain rfl := List.mem_singleton.mp creates
  rfl

theorem placeless_createIndex (table : Value) (indexes : List Index) :
    Placeless d (indexes.map (.createIndex table)) := by
  intro object member
  rw [created_createIndex] at member
  rcases List.mem_map.mp member with ⟨i, -, rfl⟩
  rfl

theorem placeless_declare (types : EnumTypes) (columns : List Column) :
    Placeless d (types.declare d columns).value.2 := by
  intro object member
  rcases (EnumTypes.mem_created_declare ..).mp member with ⟨-, c, -, -, -, rfl⟩
  rfl

theorem supplied_foreignKey (separate : d ≠ .sqlite) (sound : current.WellReferenced)
    (awaits : current.Awaits due held) {t : Table} (inPlan : t ∈ current.tables) {c : Column}
    (inTable : c ∈ t.columns) (settled : ∀ later ∈ due, placeOf later ≠ .column t.name c.name) :
    Supplied d Statement.placesUsed held (foreignKey d t.name c).value ↔
      ∀ later ∈ due, ¬ c.refersTo later := by
  rw [supplied_of_placeless (placeless_foreignKey t.name c)]
  simp only [mem_foreignKey, separate, ne_eq, not_false_eq_true, true_and]
  cases references : c.references with
  | none => simp [Column.refersTo, references]
  | some target =>
      have known := sound.references t inPlan c inTable target references
      rcases (current.column_mem_inventory _ _).mp known with ⟨other, otherIn, otherName, -⟩
      have ownColumn := (awaits.column_held_iff
        ((current.column_mem_inventory _ _).mpr ⟨t, inPlan, rfl, c, inTable, rfl⟩)).mpr settled
      have targetTable : .table target.table ∈ held := otherName ▸ awaits.table_held otherIn
      simp only [Option.some.injEq, exists_eq_left', forall_eq, Statement.placesUsed, List.forall_mem_cons,
        awaits.table_held inPlan, ownColumn, targetTable, awaits.column_held_iff known, refersTo_iff references,
        List.not_mem_nil, false_implies, implies_true, true_and, and_true, ne_eq]

theorem supplied_createIndex (sound : current.WellReferenced) (awaits : current.Awaits due held) {t : Table}
    (inPlan : t ∈ current.tables) (settled : ∀ later ∈ due, later.1 ≠ t.name) {indexes : List Index}
    (own : indexes ⊆ t.indexes) :
    Supplied d Statement.placesUsed held (indexes.map (.createIndex t.name)) := by
  rw [supplied_of_placeless (placeless_createIndex t.name indexes)]
  intro s member object used
  rcases List.mem_map.mp member with ⟨i, listed, rfl⟩
  rcases List.mem_cons.mp used with rfl | inIndex
  · exact awaits.table_held inPlan
  · rcases List.mem_map.mp inIndex with ⟨name, inColumns, rfl⟩
    rcases sound.indexes t inPlan i (own listed) name inColumns with ⟨c, inTable, rfl⟩
    rw [awaits.column_held_iff ((current.column_mem_inventory _ _).mpr ⟨t, inPlan, rfl, c, inTable, rfl⟩)]
    intro later isDue same
    exact settled later isDue (SchemaObject.column.inj same).1

theorem supplied_addColumn (separate : d ≠ .sqlite) (sound : current.WellReferenced) (types : EnumTypes)
    {t : Table} (inPlan : t ∈ current.tables) {c : Column} (inTable : c ∈ t.columns)
    (awaits : current.Awaits ((t.name, c) :: due) held)
    (once : ∀ later ∈ due, placeOf later ≠ .column t.name c.name) :
    (Supplied d Statement.placesUsed held
        ((types.declare d [c]).value.2 ++ .addColumn t.name c :: (foreignKey d t.name c).value) ↔
      ∀ later ∈ due, ¬ c.refersTo later) ∧
    current.Awaits due (held ++ created d
      ((types.declare d [c]).value.2 ++ .addColumn t.name c :: (foreignKey d t.name c).value)) := by
  have declared := awaits.append_placeless (placeless_declare types [c] (d := d))
  have needless : ∀ s ∈ (types.declare d [c]).value.2, s.placesUsed = [] := by
    intro s member
    rcases EnumTypes.declare_only_types d types [c] s member with ⟨name, values, rfl⟩
    rfl
  have added : current.Awaits due
      ((held ++ created d (types.declare d [c]).value.2) ++ (Statement.addColumn t.name c).creates d) := by
    intro object known place
    have creates : object ∈ (Statement.addColumn t.name c).creates d ↔ object = placeOf (t.name, c) := by
      simp only [Statement.creates, Column.inlineKeys, separate, if_false, List.mem_cons, List.not_mem_nil,
        or_false, placeOf]
      refine or_iff_left ?_
      rintro rfl
      cases place
    rw [List.mem_append, declared object known place, creates, List.map_cons, List.mem_cons, not_or]
    constructor
    · rintro (⟨-, absent⟩ | rfl) isDue
      · exact absent isDue
      · rcases List.mem_map.mp isDue with ⟨later, inDue, same⟩
        exact once later inDue same
    · intro absent
      by_cases same : object = placeOf (t.name, c)
      · exact .inr same
      · exact .inl ⟨same, absent⟩
  constructor
  · rw [supplied_append, Supplied, supplied_foreignKey separate sound added inPlan inTable once]
    simp only [supplied_of_needless d Statement.placesUsed held needless, Statement.placesUsed,
      List.mem_singleton, forall_eq, declared.table_held inPlan, true_and]
  · have keyed := added.append_placeless (placeless_foreignKey t.name c (d := d))
    simpa only [created_append, created_cons, List.append_assoc] using keyed

theorem supplied_addColumns (separate : d ≠ .sqlite) (sound : current.WellReferenced) (types : EnumTypes)
    {t : Table} (inPlan : t ∈ current.tables) (apart : ∀ later ∈ due, later.1 ≠ t.name) {columns : List Column}
    (inTable : columns ⊆ t.columns) (distinct : (columns.map (·.name)).Nodup)
    (awaits : current.Awaits (columns.map (t.name, ·) ++ due) held) :
    (Supplied d Statement.placesUsed held (addColumns d t.name [] types columns).value.2 ↔
      (columns.map (t.name, ·)).Pairwise (fun earlier later => ¬ earlier.2.refersTo later) ∧
        ∀ c ∈ columns, ∀ later ∈ due, ¬ c.refersTo later) ∧
    current.Awaits due (held ++ created d (addColumns d t.name [] types columns).value.2) := by
  induction columns generalizing types held with
  | nil => simpa [addColumns, Supplied] using awaits
  | cons c rest ih =>
      have once : ∀ later ∈ rest.map (t.name, ·) ++ due, placeOf later ≠ .column t.name c.name := by
        intro later member same
        rcases SchemaObject.column.inj same with ⟨sameTable, sameName⟩
        rcases List.mem_append.mp member with inRest | isDue
        · rcases List.mem_map.mp inRest with ⟨other, inside, rfl⟩
          exact (List.nodup_cons.mp distinct).1 (List.mem_map.mpr ⟨other, inside, sameName⟩)
        · exact apart later isDue sameTable
      rw [List.map_cons, List.cons_append] at awaits
      have first := supplied_addColumn separate sound types inPlan (inTable List.mem_cons_self) awaits once
      have others := ih (types.declare d [c]).value.1 (List.subset_of_cons_subset inTable)
        (List.nodup_cons.mp distinct).2 first.2
      rw [addColumns_cons _ _ _ _ _ _ rfl, supplied_append, first.1, others.1, created_append,
        ← List.append_assoc]
      refine ⟨?_, others.2⟩
      simp only [List.map_cons, List.pairwise_cons, List.forall_mem_append, List.forall_mem_cons]
      exact and_and_and_comm

/-- The columns that a migration adds to tables that stay, in its order. -/
def addedColumns (previous : Plan) (tables : List Table) : List PlacedColumn :=
  tables.flatMap fun t => if isNew previous t then [] else (createdIn previous t).map (t.name, ·)

theorem addedColumns_cons (previous : Plan) (t : Table) (rest : List Table) :
    addedColumns previous (t :: rest) =
      (if isNew previous t then [] else (createdIn previous t).map (t.name, ·)) ++ addedColumns previous rest :=
  List.flatMap_cons

theorem table_of_mem_addedColumns {previous : Plan} {tables : List Table} {added : PlacedColumn}
    (member : added ∈ addedColumns previous tables) :
    ∃ t ∈ tables, isNew previous t = false ∧ added.1 = t.name ∧ added.2 ∈ createdIn previous t := by
  rcases List.mem_flatMap.mp member with ⟨t, listed, inTable⟩
  cases new : isNew previous t with
  | true => simp [new] at inTable
  | false =>
      rw [new, if_neg Bool.false_ne_true] at inTable
      rcases List.mem_map.mp inTable with ⟨c, isCreated, rfl⟩
      exact ⟨t, listed, new, rfl, isCreated⟩

theorem mem_addedColumns_iff (previous : Plan) (named : current.WellNamed) {t : Table}
    (listed : t ∈ current.tables) {c : Column} (inTable : c ∈ t.columns) :
    placeOf (t.name, c) ∈ (addedColumns previous current.tables).map placeOf ↔
      isNew previous t = false ∧ c ∈ createdIn previous t := by
  constructor
  · intro member
    rcases List.mem_map.mp member with ⟨added, isAdded, same⟩
    rcases table_of_mem_addedColumns isAdded with ⟨other, otherIn, stays, sameTable, isCreated⟩
    rcases SchemaObject.column.inj same with ⟨names, columns⟩
    obtain rfl := named.table_eq otherIn listed (sameTable.symm.trans names)
    have inOther := (createdIn_sublist previous other).subset isCreated
    obtain rfl := named.column_eq otherIn inOther inTable columns
    exact ⟨stays, isCreated⟩
  · intro given
    rcases given with ⟨stays, isCreated⟩
    refine List.mem_map.mpr ⟨(t.name, c), List.mem_flatMap.mpr ⟨t, listed, ?_⟩, rfl⟩
    rw [stays, if_neg Bool.false_ne_true]
    exact List.mem_map.mpr ⟨c, isCreated, rfl⟩

theorem supplied_alterTableFiles (separate : d ≠ .sqlite) (sound : current.WellReferenced)
    (named : current.WellNamed) (previous : Plan) (types : EnumTypes) {tables : List Table}
    (inPlan : tables ⊆ current.tables) (distinct : (tables.map (·.name)).Nodup)
    (awaits : current.Awaits (addedColumns previous tables) held) :
    Supplied d Statement.placesUsed held
        (MigrationFile.flatten (alterTableFiles d previous types tables).value) ↔
      (addedColumns previous tables).Pairwise fun earlier later => ¬ earlier.2.refersTo later := by
  induction tables generalizing types held with
  | nil => simp [alterTableFiles, Supplied, addedColumns]
  | cons t rest ih =>
      have inRest := List.subset_of_cons_subset inPlan
      have distinctRest := (List.nodup_cons.mp distinct).2
      rw [addedColumns_cons] at awaits ⊢
      rw [flatten_alterTableFiles_cons]
      cases found : previous.table? t.name with
      | none =>
          have new : isNew previous t = true := by simp [isNew, found]
          rw [new] at awaits ⊢
          exact ih types inRest distinctRest awaits
      | some before =>
          have stays : isNew previous t = false := by simp [isNew, found]
          rw [stays, if_neg Bool.false_ne_true] at awaits ⊢
          have listed := inPlan List.mem_cons_self
          have apart : ∀ later ∈ addedColumns previous rest, later.1 ≠ t.name := by
            intro later member same
            rcases table_of_mem_addedColumns member with ⟨other, otherIn, -, name, -⟩
            exact (List.nodup_cons.mp distinct).1 (List.mem_map.mpr ⟨other, otherIn, name.symm.trans same⟩)
          have columns := supplied_addColumns separate sound types listed apart
            (createdIn_sublist previous t).subset
            ((named.columnsDistinct t listed).sublist ((createdIn_sublist previous t).map _)) awaits
          have indexes := supplied_createIndex (d := d) sound columns.2 listed apart
            (createdIndexes_subset previous t)
          have altered := columns.2.append_placeless
            (placeless_createIndex t.name (createdIndexes previous t) (d := d))
          rw [List.append_assoc, ← created_append, ← alterStatements_eq d types found] at altered
          have alteration : Supplied d Statement.placesUsed held (alterStatements d types before t) ↔
              ((createdIn previous t).map (t.name, ·)).Pairwise
                  (fun earlier later => ¬ earlier.2.refersTo later) ∧
                ∀ c ∈ createdIn previous t, ∀ later ∈ addedColumns previous rest, ¬ c.refersTo later := by
            rw [alterStatements_eq d types found, supplied_append, columns.1, and_iff_left indexes]
          rw [supplied_append, alteration, ih _ inRest distinctRest altered, List.pairwise_append,
            List.forall_mem_map, and_assoc, and_congr_right_iff]
          exact fun _ => and_comm

theorem mem_created_createTableFiles {object : SchemaObject} (place : object.isPlace) (types : EnumTypes)
    (tables : List Table) :
    object ∈ created d (MigrationFile.flatten (createTableFiles d types tables).value.2) ↔
      ∃ t ∈ tables, object ∈ (Statement.createTable t.name t.columns).creates d := by
  rw [(created_createTableFiles d types tables).mem_iff, List.mem_append, List.mem_flatMap, or_iff_right]
  intro declared
  rw [placeless_declare types _ object declared] at place
  cases place

theorem column_mem_createTable (separate : d ≠ .sqlite) (table name : Value) (t : Table) :
    .column table name ∈ (Statement.createTable t.name t.columns).creates d ↔
      table = t.name ∧ ∃ c ∈ t.columns, name = c.name := by
  simp [Statement.creates, Column.inlineKeys, separate, and_left_comm]

theorem awaits_addedColumns (separate : d ≠ .sqlite) {previous : Plan} (past : previous.Regular d)
    (now : current.Regular d) (types : EnumTypes) :
    current.Awaits (addedColumns previous current.tables) (previous.inventory ++ created d
      (MigrationFile.flatten (createTableFiles d types (current.tables.filter (isNew previous))).value.2)) := by
  intro object inPlan place
  rw [List.mem_append, mem_created_createTableFiles place]
  cases object with
  | table name =>
      rcases (current.table_mem_inventory name).mp inPlan with ⟨t, listed, rfl⟩
      have undue : .table t.name ∉ (addedColumns previous current.tables).map placeOf := by simp [placeOf]
      simp only [undue, not_false_eq_true, iff_true]
      by_cases new : isNew previous t
      · exact .inr ⟨t, List.mem_filter.mpr ⟨listed, new⟩, by simp [Statement.creates]⟩
      · rw [isNew_iff (now.tableTexts t listed)] at new
        exact .inl (by simpa using new)
  | column table name =>
      rcases (current.column_mem_inventory table name).mp inPlan with ⟨t, listed, rfl, c, inTable, rfl⟩
      have new : (∃ other ∈ current.tables.filter (isNew previous), .column t.name c.name ∈
          (Statement.createTable other.name other.columns).creates d) ↔ isNew previous t := by
        simp only [List.mem_filter, column_mem_createTable separate]
        constructor
        · intro given
          rcases given with ⟨other, ⟨otherIn, new⟩, same, -⟩
          rwa [now.table_eq listed otherIn same]
        · intro new
          exact ⟨t, ⟨listed, new⟩, rfl, c, inTable, rfl⟩
      have due := mem_addedColumns_iff previous now.toWellNamed listed inTable
      rw [placeOf] at due
      rw [new, due, mem_createdIn past.toWellNamed now.toWellNamed listed]
      cases isNew previous t <;> simp [inTable]
  | definition | foreignKey | index | enumType => cases place

/--
No column refers to one that only comes later: columns of new tables to none that is added to another
table, and those added to none that is added after them.
-/
@[mk_iff] structure ReferencesInOrder (previous current : Plan) : Prop where
  fromNewTables : ∀ t ∈ current.tables, isNew previous t → ∀ c ∈ t.columns,
    ∀ later ∈ addedColumns previous current.tables, ¬ c.refersTo later
  amongAdded : (addedColumns previous current.tables).Pairwise fun earlier later => ¬ earlier.2.refersTo later

instance (previous current : Plan) : Decidable (ReferencesInOrder previous current) :=
  decidable_of_iff' _ (referencesInOrder_iff previous current)

theorem placeless_keyStatements (t : Table) : Placeless d (keyStatements d t) :=
  placeless_flatMap fun c _ => placeless_foreignKey t.name c

theorem ne_of_mem_addedColumns (named : current.WellNamed) {previous : Plan} {t : Table}
    (listed : t ∈ current.tables) (new : isNew previous t) :
    ∀ later ∈ addedColumns previous current.tables, later.1 ≠ t.name := by
  intro later member same
  rcases table_of_mem_addedColumns member with ⟨other, otherIn, stays, name, -⟩
  obtain rfl := named.table_eq otherIn listed (name.symm.trans same)
  simp [new] at stays

theorem supplied_newKeys (separate : d ≠ .sqlite) (sound : current.WellReferenced) (named : current.WellNamed)
    (previous : Plan) (awaits : current.Awaits (addedColumns previous current.tables) held) :
    Supplied d Statement.placesUsed held ((current.tables.filter (isNew previous)).flatMap (keyStatements d)) ↔
      ∀ t ∈ current.tables, isNew previous t → ∀ c ∈ t.columns,
        ∀ later ∈ addedColumns previous current.tables, ¬ c.refersTo later := by
  rw [supplied_flatMap_of_placeless fun t _ => placeless_keyStatements t]
  simp only [List.mem_filter, and_imp]
  apply forall₃_congr
  intro t listed new
  rw [keyStatements, supplied_flatMap_of_placeless fun c _ => placeless_foreignKey t.name c]
  apply forall₂_congr
  intro c inTable
  apply supplied_foreignKey separate sound awaits listed inTable
  intro later isDue same
  exact ne_of_mem_addedColumns named listed new later isDue (SchemaObject.column.inj same).1

theorem supplied_newIndexes (sound : current.WellReferenced) (named : current.WellNamed)
    (previous : Plan) (awaits : current.Awaits (addedColumns previous current.tables) held) :
    Supplied d Statement.placesUsed held
      ((current.tables.filter (isNew previous)).flatMap indexStatements) := by
  rw [supplied_flatMap_of_placeless fun t _ => placeless_createIndex t.name t.indexes]
  intro t member
  rcases List.mem_filter.mp member with ⟨listed, new⟩
  exact supplied_createIndex sound awaits listed (ne_of_mem_addedColumns named listed new) (List.Subset.refl _)

theorem placesUsed_createTableFiles (types : EnumTypes) (tables : List Table) :
    ∀ s ∈ MigrationFile.flatten (createTableFiles d types tables).value.2, s.placesUsed = [] := by
  induction tables generalizing types with
  | nil => simp [createTableFiles]
  | cons t rest ih =>
      intro s member
      rw [createTableFiles_cons, MigrationFile.flatten_cons, List.append_assoc, List.mem_append] at member
      rcases member with declared | member
      · rcases EnumTypes.declare_only_types d types t.columns s declared with ⟨name, values, rfl⟩
        rfl
      · rcases List.mem_cons.mp member with rfl | later
        · rfl
        · exact ih _ s later

theorem supplied_places (separate : d ≠ .sqlite) {previous : Plan} (past : previous.Regular d)
    (now : current.Regular d) (sound : current.WellReferenced) :
    Supplied d Statement.placesUsed previous.inventory
        (MigrationFile.flatten (additions previous current).value) ↔
      ReferencesInOrder previous current := by
  have creates := supplied_of_needless d Statement.placesUsed previous.inventory
    (placesUsed_createTableFiles (d := d) (knownTypes previous).value (current.tables.filter (isNew previous)))
  have tables := awaits_addedColumns separate past now (knownTypes previous).value
  have keys := supplied_newKeys separate sound now.toWellNamed previous tables
  have keyed := tables.append_placeless (placeless_flatMap (d := d)
    fun t (_ : t ∈ current.tables.filter (isNew previous)) => placeless_keyStatements t)
  have indexes := supplied_newIndexes (d := d) sound now.toWellNamed previous keyed
  have indexed := keyed.append_placeless (placeless_flatMap (d := d)
    fun t (_ : t ∈ current.tables.filter (isNew previous)) => placeless_createIndex t.name t.indexes)
  have alters := supplied_alterTableFiles separate sound now.toWellNamed previous
    (createTableFiles d (knownTypes previous).value (current.tables.filter (isNew previous))).value.1
    (List.Subset.refl _) now.tablesDistinct indexed
  rw [referencesInOrder_iff, ← keys, ← alters, flatten_additions, flatten_tableFiles, now.dialect]
  simp only [List.append_assoc] at indexes ⊢
  simp only [supplied_append, creates, true_and, List.append_assoc]
  exact and_congr_right fun _ => and_iff_right indexes

theorem supplied_types {previous : Plan} (past : previous.dialect = d) (now : current.dialect = d) :
    Supplied d (Statement.typesUsed d) previous.inventory
      (MigrationFile.flatten (additions previous current).value) := by
  by_cases postgres : d = .postgres
  · subst postgres
    rw [(settles_additions previous now).relies]
    intro c _ _ known
    exact (previous.enumType_mem_inventory _).mpr ⟨past, (mem_names_knownTypes previous _).mp known⟩
  · apply supplied_of_needless
    intro s _
    cases s <;> simp [Statement.typesUsed, Column.typeUsed, postgres]

/-- Every statement finds its tables, columns and types exactly if the references are in order. -/
theorem supplied_iff_referencesInOrder {previous : Plan} (separate : d ≠ .sqlite) (past : previous.Regular d)
    (now : current.Regular d) (sound : current.WellReferenced) :
    Supplied d (Statement.uses d) previous.inventory (statements (some previous) current).value ↔
      ReferencesInOrder previous current := by
  rw [statements_some previous current (past.dialect.trans now.dialect.symm)]
  have both := supplied_both d (Statement.typesUsed d) Statement.placesUsed previous.inventory
    (MigrationFile.flatten (additions previous current).value)
  exact both.trans ((and_iff_right (supplied_types past.dialect now.dialect)).trans
    (supplied_places separate past now sound))

def plainUsers : ModelSet := [("User", { name := "User", attributes := [("id", {})] })]

def rekeyedUsers : ModelSet :=
  [("User", { name := "User", primaryKey := some "uid", attributes := [("id", {}), ("uid", {})] }),
    ("Post", { name := "Post", attributes := [("id", {}), ("user_id", {})] })]

def teamedUsers : ModelSet :=
  [("User", { name := "User", attributes := [("id", {}), ("team_id", {})] }),
    ("Team", { name := "Team", attributes := [("id", {})] })]

def mysqlPlan (models : ModelSet) : Plan := buildWith (.ofModels models) models .mysql

theorem mysqlPlan_regular {models : ModelSet} (accepted : models.Accepted)
    (distinct : models.tableNames.Nodup) : (mysqlPlan models).Regular .mysql :=
  (built_buildWith .mysql accepted distinct).regular

theorem teams_before_their_users :
    (mysqlPlan plainUsers).Regular .mysql ∧ (mysqlPlan teamedUsers).Regular .mysql ∧
      (mysqlPlan teamedUsers).WellReferenced ∧
      Supplied .mysql (Statement.uses .mysql) (mysqlPlan plainUsers).inventory
        (statements (some (mysqlPlan plainUsers)) (mysqlPlan teamedUsers)).value := by
  have past : (mysqlPlan plainUsers).Regular .mysql := mysqlPlan_regular (by decide) (by decide)
  have now : (mysqlPlan teamedUsers).Regular .mysql := mysqlPlan_regular (by decide) (by decide)
  have sound : (mysqlPlan teamedUsers).WellReferenced := by decide
  exact ⟨past, now, sound, (supplied_iff_referencesInOrder (by decide) past now sound).mpr (by decide)⟩

theorem posts_before_their_key :
    (mysqlPlan plainUsers).Regular .mysql ∧ (mysqlPlan rekeyedUsers).Regular .mysql ∧
      (mysqlPlan rekeyedUsers).WellReferenced ∧
      ¬ Supplied .mysql (Statement.uses .mysql) (mysqlPlan plainUsers).inventory
        (statements (some (mysqlPlan plainUsers)) (mysqlPlan rekeyedUsers)).value :=
  ⟨mysqlPlan_regular (by decide) (by decide), mysqlPlan_regular (by decide) (by decide), by decide, by decide⟩

end Diff
end SchemaMigration
