import SchemaMigration.Proofs.Migration.Content
import Mathlib.Data.List.Perm.Basic

namespace SchemaMigration

section
variable {α β : Type}

theorem flatMap_filter_append_perm (chosen : α → Bool) (f : α → List β) (items : List α) :
    ((items.filter chosen).flatMap f ++ items.flatMap fun a => if chosen a then [] else f a).Perm
      (items.flatMap f) := by
  have first : (items.filter chosen).flatMap f = items.flatMap fun a => if chosen a then f a else [] := by
    induction items with
    | nil => rfl
    | cons a rest ih => cases now : chosen a <;> simp [now, ih]
  have whole : ∀ a, (if chosen a then f a else []) ++ (if chosen a then [] else f a) = f a := by
    intro a
    cases chosen a <;> simp
  rw [first]
  simpa only [whole] using List.flatMap_append_perm items (fun a => if chosen a then f a else [])
    fun a => if chosen a then [] else f a

theorem append_append_perm (a b c d : List α) : ((a ++ b) ++ (c ++ d)).Perm ((a ++ c) ++ (b ++ d)) := by
  simp only [List.append_assoc]
  apply List.Perm.append_left
  exact List.perm_append_comm_assoc b c d

end

namespace Diff
open Migration

theorem createTableFiles_cons (d : Dialect) (types : EnumTypes) (t : Table) (rest : List Table) :
    (createTableFiles d types (t :: rest)).value =
      ((createTableFiles d (types.declare d t.columns).value.1 rest).value.1,
        ⟨createTableSlug t.name, (types.declare d t.columns).value.2 ++ [.createTable t.name t.columns]⟩ ::
          (createTableFiles d (types.declare d t.columns).value.1 rest).value.2) := rfl

theorem createTableFiles_types (d : Dialect) (types : EnumTypes) (tables : List Table) :
    (createTableFiles d types tables).value.1 =
      (types.declare d (tables.flatMap (·.columns))).value.1 := by
  induction tables generalizing types with
  | nil => rfl
  | cons t rest ih => rw [createTableFiles_cons, ih, List.flatMap_cons, EnumTypes.declare_append]

theorem createTableFiles_perm (d : Dialect) (types : EnumTypes) (tables : List Table) :
    (MigrationFile.flatten (createTableFiles d types tables).value.2).Perm
      ((types.declare d (tables.flatMap (·.columns))).value.2 ++
        tables.map fun t => .createTable t.name t.columns) := by
  induction tables generalizing types with
  | nil => exact .refl _
  | cons t rest ih =>
      rw [createTableFiles_cons, List.flatMap_cons, EnumTypes.declare_append, MigrationFile.flatten_cons]
      exact ((ih _).append_left _).trans (append_append_perm ..)

theorem addColumns_cons (d : Dialect) (table : Value) (previous : List Column) (types : EnumTypes)
    (c : Column) (rest : List Column) (lacking : hasColumn previous c.name = false) :
    (addColumns d table previous types (c :: rest)).value =
      ((addColumns d table previous (types.declare d [c]).value.1 rest).value.1,
        ((types.declare d [c]).value.2 ++ .addColumn table c :: (foreignKey d table c).value) ++
          (addColumns d table previous (types.declare d [c]).value.1 rest).value.2) := by
  rw [addColumns, lacking]
  rfl

theorem addColumns_eq_filter (d : Dialect) (table : Value) (previous : List Column) (types : EnumTypes)
    (columns : List Column) :
    (addColumns d table previous types columns).value =
      (addColumns d table [] types (columns.filter fun c => !hasColumn previous c.name)).value := by
  induction columns generalizing types with
  | nil => rfl
  | cons c rest ih =>
      cases had : hasColumn previous c.name with
      | true =>
          rw [List.filter_cons_of_neg (by simp [had]), ← ih, addColumns, had]
          rfl
      | false => rw [List.filter_cons_of_pos (by simp [had]), addColumns_cons _ _ _ _ _ _ had,
          addColumns_cons _ _ _ _ _ _ rfl, ih]

theorem addColumns_types (d : Dialect) (table : Value) (types : EnumTypes) (columns : List Column) :
    (addColumns d table [] types columns).value.1 = (types.declare d columns).value.1 := by
  induction columns generalizing types with
  | nil => rfl
  | cons c rest ih =>
      rw [addColumns_cons _ _ _ _ _ _ rfl, ih]
      exact (congrArg (·.1) (EnumTypes.declare_append d types [c] rest)).symm

theorem addColumns_perm (d : Dialect) (table : Value) (types : EnumTypes) (columns : List Column) :
    (addColumns d table [] types columns).value.2.Perm
      ((types.declare d columns).value.2 ++
        columns.flatMap fun c => .addColumn table c :: (foreignKey d table c).value) := by
  induction columns generalizing types with
  | nil => exact .refl _
  | cons c rest ih =>
      have declared := EnumTypes.declare_append d types [c] rest
      rw [List.singleton_append] at declared
      rw [addColumns_cons _ _ _ _ _ _ rfl, declared, List.flatMap_cons]
      exact ((ih _).append_left _).trans (append_append_perm ..)

theorem alterStatements_eq (d : Dialect) {previous : Plan} (types : EnumTypes) {before t : Table}
    (found : previous.table? t.name = some before) :
    alterStatements d types before t = (addColumns d t.name [] types (createdIn previous t)).value.2 ++
      (createdIndexes previous t).map (.createIndex t.name) := by
  rw [alterStatements, addColumns_eq_filter, createdIn, createdIndexes, found]

theorem alterColumns_types (d : Dialect) (previous : Plan) (types : EnumTypes) (before t : Table)
    (found : previous.table? t.name = some before) :
    (addColumns d t.name before.columns types t.columns).value.1 =
      (types.declare d (createdIn previous t)).value.1 := by
  rw [addColumns_eq_filter, addColumns_types, createdIn, found]

/-- The columns of a table that a migration creates: with the table, or one by one. -/
def columnStatements (previous : Plan) (t : Table) : List Statement :=
  if isNew previous t then [.createTable t.name t.columns]
  else (createdIn previous t).map (.addColumn t.name)

/-- What a migration does for one table, enum types aside. -/
def tableStatements (d : Dialect) (previous : Plan) (t : Table) : List Statement :=
  columnStatements previous t ++ ((createdIn previous t).flatMap fun c => (foreignKey d t.name c).value) ++
    (createdIndexes previous t).map (.createIndex t.name)

theorem tableStatements_cases {d : Dialect} {previous : Plan} {t : Table} {s : Statement}
    (member : s ∈ tableStatements d previous t) :
    (isNew previous t ∧ s = .createTable t.name t.columns) ∨
      (isNew previous t = false ∧ ∃ c ∈ createdIn previous t, s = .addColumn t.name c) ∨
      (d ≠ .sqlite ∧ ∃ c ∈ createdIn previous t, ∃ target, c.references = some target ∧
        s = .addForeignKey t.name c.name target) ∨
      ∃ i ∈ createdIndexes previous t, s = .createIndex t.name i := by
  rw [tableStatements, List.mem_append, List.mem_append, List.mem_flatMap, List.mem_map] at member
  rcases member with (column | ⟨c, created, key⟩) | ⟨i, created, rfl⟩
  · rw [columnStatements] at column
    split at column
    case isTrue new => exact .inl ⟨new, List.mem_singleton.mp column⟩
    case isFalse stays =>
      rcases List.mem_map.mp column with ⟨c, created, rfl⟩
      exact .inr (.inl ⟨Bool.not_eq_true _ ▸ stays, c, created, rfl⟩)
  · rcases (mem_foreignKey ..).mp key with ⟨separate, target, references, rfl⟩
    exact .inr (.inr (.inl ⟨separate, c, created, target, references, rfl⟩))
  · exact .inr (.inr (.inr ⟨i, created, rfl⟩))

theorem alterStatements_perm (d : Dialect) (previous : Plan) (types : EnumTypes) (before t : Table)
    (found : previous.table? t.name = some before) :
    (alterStatements d types before t).Perm
      ((types.declare d (createdIn previous t)).value.2 ++ tableStatements d previous t) := by
  have stays : isNew previous t = false := by simp [isNew, found]
  have columns : ((createdIn previous t).flatMap fun c => .addColumn t.name c :: (foreignKey d t.name c).value).Perm
      (columnStatements previous t ++ (createdIn previous t).flatMap fun c => (foreignKey d t.name c).value) := by
    rw [columnStatements, stays, if_neg Bool.false_ne_true, List.map_eq_flatMap]
    exact (List.flatMap_append_perm _ (fun c => [Statement.addColumn t.name c]) _).symm
  rw [alterStatements_eq d types found, tableStatements, ← List.append_assoc]
  apply List.Perm.append_right
  exact (addColumns_perm ..).trans (columns.append_left _)

theorem alterTableFiles_perm (d : Dialect) (previous : Plan) (types : EnumTypes) (tables : List Table) :
    (MigrationFile.flatten (alterTableFiles d previous types tables).value).Perm
      ((types.declare d (tables.flatMap fun t => if isNew previous t then [] else createdIn previous t)).value.2 ++
        tables.flatMap fun t => if isNew previous t then [] else tableStatements d previous t) := by
  induction tables generalizing types with
  | nil => exact .refl _
  | cons t rest ih =>
      rw [flatten_alterTableFiles_cons, List.flatMap_cons, List.flatMap_cons]
      cases found : previous.table? t.name with
      | none =>
          have new : isNew previous t = true := by simp [isNew, found]
          simpa [new] using ih types
      | some before =>
          have stays : isNew previous t = false := by simp [isNew, found]
          simp only [stays, Bool.false_eq_true, if_false, EnumTypes.declare_append,
            alterColumns_types d previous types before t found]
          have now := alterStatements_perm d previous types before t found
          exact (now.append (ih _)).trans (append_append_perm ..)

theorem newTables_perm (d : Dialect) (previous : Plan) (tables : List Table)
    (new : ∀ t ∈ tables, isNew previous t) :
    ((tables.map fun t => Statement.createTable t.name t.columns) ++ tables.flatMap (keyStatements d) ++
      tables.flatMap indexStatements).Perm (tables.flatMap (tableStatements d previous)) := by
  have passes : tables.flatMap (tableStatements d previous) = tables.flatMap fun t =>
      ([Statement.createTable t.name t.columns] ++ keyStatements d t) ++ indexStatements t := by
    apply List.flatMap_congr
    intro t listed
    rw [tableStatements, columnStatements, if_pos (new t listed), createdIn_of_isNew (new t listed),
      createdIndexes, Option.isNone_iff_eq_none.mp (new t listed)]
    rfl
  have creates := List.flatMap_append_perm tables (fun t => [Statement.createTable t.name t.columns])
    (keyStatements d)
  have indexes := List.flatMap_append_perm tables
    (fun t => [Statement.createTable t.name t.columns] ++ keyStatements d t) indexStatements
  rw [passes, List.map_eq_flatMap]
  exact (creates.append_right _).trans indexes

theorem tableFiles_perm (d : Dialect) (previous : Plan) (types : EnumTypes) (tables : List Table)
    (new : ∀ t ∈ tables, isNew previous t) :
    (MigrationFile.flatten (tableFiles d types tables).value.2).Perm
      ((types.declare d (tables.flatMap (·.columns))).value.2 ++ tables.flatMap (tableStatements d previous)) := by
  have creates := ((createTableFiles_perm d types tables).append_right
    (tables.flatMap (keyStatements d))).append_right (tables.flatMap indexStatements)
  have passes := (newTables_perm d previous tables new).append_left (types.declare d (tables.flatMap (·.columns))).value.2
  rw [← List.append_assoc, ← List.append_assoc] at passes
  rw [flatten_tableFiles]
  exact creates.trans passes

theorem additions_perm (previous current : Plan) :
    (MigrationFile.flatten (additions previous current).value).Perm
      (((knownTypes previous).value.declare current.dialect (createdColumns previous current)).value.2 ++
        current.tables.flatMap (tableStatements current.dialect previous)) := by
  have creates := tableFiles_perm current.dialect previous (knownTypes previous).value
    (current.tables.filter (isNew previous)) (by simp)
  have alters := alterTableFiles_perm current.dialect previous
    (createTableFiles current.dialect (knownTypes previous).value
      (current.tables.filter (isNew previous))).value.1 current.tables
  have whole := flatMap_filter_append_perm (isNew previous) (tableStatements current.dialect previous)
    current.tables
  rw [createTableFiles_types] at alters
  rw [flatten_additions, createTableFiles_types, createdColumns, EnumTypes.declare_append]
  exact (creates.append alters).trans ((append_append_perm ..).trans (whole.append_left _))

theorem additions_cases {previous current : Plan} {s : Statement}
    (member : s ∈ MigrationFile.flatten (additions previous current).value) :
    (∃ name values, s = .createType name values) ∨
      ∃ t ∈ current.tables, s ∈ tableStatements current.dialect previous t := by
  rcases List.mem_append.mp ((additions_perm previous current).mem_iff.mp member) with declared | inTable
  · exact .inl (EnumTypes.declare_only_types _ _ _ s declared)
  · exact .inr (List.mem_flatMap.mp inTable)

end Diff
end SchemaMigration
