import SchemaMigration.Proofs.Migration.Created
/-!
The order of enum types in a migration. A type that was not known before is created in time for the
columns that need it; for a known one the migration relies on the database.
-/
namespace SchemaMigration

namespace EnumTypes

/--
How statements that add the given columns deal with enum types. They create the types that are not
known, and work where the database holds the known ones among those the columns need.
-/
structure Settles (types : EnumTypes) (columns : List Column) (statements : List Statement) : Prop where
  creates : ∀ name, .enumType name ∈ created .postgres statements ↔
    name ∉ types.names ∧ ∃ c ∈ columns, c.isEnum ∧ Sql.enumTypeName c = name
  relies : ∀ held, Supplied .postgres (Statement.typesUsed .postgres) held statements ↔
    ∀ c ∈ columns, c.isEnum → Sql.enumTypeName c ∈ types.names → .enumType (Sql.enumTypeName c) ∈ held

variable {types : EnumTypes}

theorem Settles.nil {statements : List Statement}
    (needless : ∀ s ∈ statements, s.typesUsed .postgres = [])
    (typeless : ∀ s ∈ statements, ∀ name, .enumType name ∉ s.creates .postgres) :
    types.Settles [] statements where
  creates name := by
    have absent : .enumType name ∉ created .postgres statements := by
      intro member
      rcases List.mem_flatMap.mp member with ⟨s, inside, creates⟩
      exact typeless s inside name creates
    simp [absent]
  relies held := by
    simp [supplied_of_needless _ _ held needless]

theorem Settles.append {columns more : List Column} {statements others : List Statement}
    (first : types.Settles columns statements)
    (second : (types.declare .postgres columns).value.1.Settles more others) :
    types.Settles (columns ++ more) (statements ++ others) where
  creates name := by
    rw [created_append, List.mem_append, first.creates, second.creates, mem_names_declare]
    simp only [List.mem_append, or_and_right, exists_or, not_or]
    grind
  relies held := by
    rw [supplied_append, first.relies, second.relies]
    simp only [mem_names_declare, List.mem_append, first.creates]
    grind

theorem Settles.declared {columns : List Column} {s : Statement}
    (uses : s.typesUsed .postgres = columns.flatMap (·.typeUsed .postgres))
    (typeless : ∀ name, .enumType name ∉ s.creates .postgres) :
    types.Settles columns ((types.declare .postgres columns).value.2 ++ [s]) where
  creates name := by
    simp only [created_append, created_cons, created_nil, List.append_nil, List.mem_append, typeless, or_false,
      mem_created_declare, SchemaObject.enumType.injEq, true_and]
    constructor
    · intro given
      rcases given with ⟨c, member, enum, unknown, rfl⟩
      exact ⟨unknown, c, member, enum, rfl⟩
    · intro given
      rcases given with ⟨unknown, c, member, enum, rfl⟩
      exact ⟨c, member, enum, unknown, rfl⟩
  relies held := by
    have needless : ∀ s ∈ (types.declare .postgres columns).value.2, s.typesUsed .postgres = [] := by
      intro s member
      rcases declare_only_types .postgres types columns s member with ⟨name, values, rfl⟩
      rfl
    simp only [supplied_append, supplied_of_needless _ _ held needless, true_and, Supplied, and_true, uses,
      List.mem_flatMap, Column.typeUsed, List.mem_append, mem_created_declare]
    constructor
    · intro supplied c member enum known
      rcases supplied (.enumType (Sql.enumTypeName c)) ⟨c, member, by simp [enum]⟩ with
        present | ⟨other, -, -, unknown, same⟩
      · exact present
      · exact absurd (SchemaObject.enumType.inj same ▸ known) unknown
    · rintro supplied object ⟨c, member, used⟩
      split at used
      case isTrue enum =>
        obtain rfl := List.mem_singleton.mp used
        by_cases known : Sql.enumTypeName c ∈ types.names
        · exact .inl (supplied c member enum known)
        · exact .inr ⟨c, member, enum, known, rfl⟩
      case isFalse => cases used

end EnumTypes

namespace Diff
open Migration

theorem settles_support (types : EnumTypes) {statements : List Statement}
    (support : ∀ s ∈ statements, (∃ table column target, s = .addForeignKey table column target) ∨
      ∃ table i, s = .createIndex table i) : types.Settles [] statements := by
  apply EnumTypes.Settles.nil
  · intro s member
    rcases support s member with ⟨table, column, target, rfl⟩ | ⟨table, i, rfl⟩ <;> rfl
  · intro s member name
    rcases support s member with ⟨table, column, target, rfl⟩ | ⟨table, i, rfl⟩ <;> simp [Statement.creates]

theorem settles_foreignKey (types : EnumTypes) (table : Value) (c : Column) :
    types.Settles [] (foreignKey .postgres table c).value := by
  apply settles_support
  intro s member
  rcases (mem_foreignKey ..).mp member with ⟨-, target, -, rfl⟩
  exact .inl ⟨table, c.name, target, rfl⟩

theorem settles_createIndex (types : EnumTypes) (table : Value) (indexes : List Index) :
    types.Settles [] (indexes.map (.createIndex table)) := by
  apply settles_support
  intro s member
  rcases List.mem_map.mp member with ⟨i, -, rfl⟩
  exact .inr ⟨table, i, rfl⟩

theorem settles_createTableFiles (types : EnumTypes) (tables : List Table) :
    types.Settles (tables.flatMap (·.columns))
      (MigrationFile.flatten (createTableFiles .postgres types tables).value.2) := by
  induction tables generalizing types with
  | nil => exact settles_support types (by simp [createTableFiles])
  | cons t rest ih =>
      rw [createTableFiles_cons, MigrationFile.flatten_cons, List.flatMap_cons]
      refine .append (.declared rfl ?_) (ih _)
      intro name
      simp [Statement.creates, Column.inlineKeys]

theorem settles_addColumns (types : EnumTypes) (table : Value) (columns : List Column) :
    types.Settles columns (addColumns .postgres table [] types columns).value.2 := by
  induction columns generalizing types with
  | nil => exact settles_support types (by simp [addColumns])
  | cons c rest ih =>
      rw [addColumns_cons _ _ _ _ _ _ rfl, ← List.singleton_append (l := rest)]
      have column : types.Settles [c] ((types.declare .postgres [c]).value.2 ++ [.addColumn table c]) := by
        refine .declared (by simp [Statement.typesUsed]) ?_
        intro name
        simp [Statement.creates, Column.inlineKeys]
      have keyed := column.append (settles_foreignKey _ table c)
      rw [List.append_nil, List.append_assoc] at keyed
      exact keyed.append (ih _)

theorem settles_alterTableFiles (types : EnumTypes) (previous : Plan) (tables : List Table) :
    types.Settles (tables.flatMap fun t => if isNew previous t then [] else createdIn previous t)
      (MigrationFile.flatten (alterTableFiles .postgres previous types tables).value) := by
  induction tables generalizing types with
  | nil => exact settles_support types (by simp [alterTableFiles])
  | cons t rest ih =>
      rw [flatten_alterTableFiles_cons, List.flatMap_cons]
      cases found : previous.table? t.name with
      | none => simpa [isNew, found] using ih types
      | some before =>
          have stays : isNew previous t = false := by simp [isNew, found]
          have altered : types.Settles (createdIn previous t) (alterStatements .postgres types before t) := by
            have indexed := (settles_addColumns types t.name (createdIn previous t)).append
              (settles_createIndex _ t.name (createdIndexes previous t))
            rwa [List.append_nil, ← alterStatements_eq .postgres types found] at indexed
          simp only [stays, Bool.false_eq_true, if_false, alterColumns_types _ _ _ _ _ found]
          exact altered.append (ih _)

theorem settles_additions (previous : Plan) {current : Plan} (postgres : current.dialect = .postgres) :
    (knownTypes previous).value.Settles (createdColumns previous current)
      (MigrationFile.flatten (additions previous current).value) := by
  rw [flatten_additions, flatten_tableFiles, postgres, createdColumns, createTableFiles_types]
  have support : ∀ types : EnumTypes, types.Settles []
      ((current.tables.filter (isNew previous)).flatMap (keyStatements .postgres) ++
        (current.tables.filter (isNew previous)).flatMap indexStatements) := by
    intro types
    apply settles_support
    intro s member
    simp only [List.mem_append, List.mem_flatMap, keyStatements, indexStatements, List.mem_map] at member
    rcases member with ⟨t, -, c, -, key⟩ | ⟨t, -, i, -, rfl⟩
    · rcases (mem_foreignKey ..).mp key with ⟨-, target, -, rfl⟩
      exact .inl ⟨t.name, c.name, target, rfl⟩
    · exact .inr ⟨t.name, i, rfl⟩
  have tables := (settles_createTableFiles (knownTypes previous).value
    (current.tables.filter (isNew previous))).append (support _)
  rw [List.append_nil, ← List.append_assoc] at tables
  exact tables.append (settles_alterTableFiles _ previous current.tables)

end Diff
end SchemaMigration
