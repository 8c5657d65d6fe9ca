import SchemaMigration.Proofs.Migration.PlaceOrder

namespace SchemaMigration

def Tableless (d : Dialect) (statements : List Statement) : Prop := ∀ name, .table name ∉ created d statements

namespace Tableless
variable {d : Dialect} {first second : List Statement}

theorem of_placeless (placeless : Placeless d first) : Tableless d first := by
  intro name creates
  have place := placeless _ creates
  cases place

theorem append (left : Tableless d first) (right : Tableless d second) : Tableless d (first ++ second) := by
  intro name creates
  rw [created_append, List.mem_append] at creates
  exact creates.elim (left name) (right name)

theorem inlineKeys (table : Value) (c : Column) (name : Value) : .table name ∉ c.inlineKeys d table := by
  unfold Column.inlineKeys
  split <;> simp

theorem addColumn (table : Value) (c : Column) : Tableless d [.addColumn table c] := by
  intro name
  simp [Statement.creates, inlineKeys]

end Tableless

theorem table_mem_createTable (d : Dialect) (name table : Value) (columns : List Column) :
    .table name ∈ (Statement.createTable table columns).creates d ↔ name = table := by
  simp [Statement.creates, Tableless.inlineKeys]

/-- It has statements, and if one of them creates a table, it is named for it. -/
structure MigrationFile.Proper (d : Dialect) (f : MigrationFile) : Prop where
  nonempty : f.statements ≠ []
  slug : ∀ name, .table name ∈ created d f.statements → f.slug = Migration.createTableSlug name

namespace Diff
open Migration

variable {d : Dialect} {f : MigrationFile}

theorem tableless_addColumns (types : EnumTypes) (table : Value) (columns : List Column) :
    Tableless d (addColumns d table [] types columns).value.2 := by
  induction columns generalizing types with
  | nil => exact fun name creates => by cases creates
  | cons c rest ih =>
      rw [addColumns_cons _ _ _ _ _ _ rfl, ← List.singleton_append (l := (foreignKey d table c).value)]
      have declared : Tableless d (types.declare d [c]).value.2 := .of_placeless (placeless_declare types [c])
      have keyed : Tableless d (foreignKey d table c).value := .of_placeless (placeless_foreignKey table c)
      exact (declared.append ((Tableless.addColumn table c).append keyed)).append (ih _)

theorem proper_createTableFiles (types : EnumTypes) (tables : List Table) :
    ∀ f ∈ (createTableFiles d types tables).value.2, f.Proper d := by
  induction tables generalizing types with
  | nil => exact fun f member => by cases member
  | cons t rest ih =>
      rw [createTableFiles_cons, List.forall_mem_cons]
      refine ⟨⟨by simp, fun name creates => ?_⟩, ih _⟩
      have declared : Tableless d (types.declare d t.columns).value.2 := .of_placeless (placeless_declare types t.columns)
      rw [created_append, List.mem_append] at creates
      rw [created_cons, created_nil, List.append_nil, table_mem_createTable] at creates
      rw [creates.resolve_left (declared name)]

theorem proper_of_tableless (nonempty : f.statements ≠ []) (tableless : Tableless d f.statements) : f.Proper d :=
  ⟨nonempty, fun name creates => absurd creates (tableless name)⟩

theorem proper_foreignKeyFiles (t : Table) : ∀ f ∈ (foreignKeyFiles d t).value, f.Proper d := by
  intro f member
  simp only [foreignKeyFiles, Reported.value_bind, Reported.value_pure, Reported.value_collect, List.mem_flatten,
    List.mem_map] at member
  rcases member with ⟨files, ⟨c, -, rfl⟩, inside⟩
  split at inside
  case isTrue => cases inside
  case isFalse filled =>
    rw [List.mem_singleton.mp inside]
    exact proper_of_tableless (by simpa using filled) (.of_placeless (placeless_foreignKey t.name c))

theorem proper_indexFiles (t : Table) : ∀ f ∈ (indexFiles d t).value, f.Proper d := by
  intro f member
  simp only [indexFiles, Reported.value_collect, List.mem_map] at member
  rcases member with ⟨i, -, rfl⟩
  exact proper_of_tableless (List.cons_ne_nil _ _) (.of_placeless (placeless_createIndex t.name [i]))

theorem proper_tableFiles (types : EnumTypes) (tables : List Table) :
    ∀ f ∈ (tableFiles d types tables).value.2, f.Proper d := by
  change ∀ f ∈ _ ++ List.flatten _ ++ List.flatten _, MigrationFile.Proper d f
  simp only [Reported.value_collect, List.forall_mem_append, List.mem_flatten, List.mem_map]
  refine ⟨⟨proper_createTableFiles types tables, ?_⟩, ?_⟩
  · rintro f ⟨files, ⟨t, -, rfl⟩, inside⟩
    exact proper_foreignKeyFiles t f inside
  · rintro f ⟨files, ⟨t, -, rfl⟩, inside⟩
    exact proper_indexFiles t f inside

theorem proper_alterTableFiles (previous : Plan) (types : EnumTypes) (tables : List Table) :
    ∀ f ∈ (alterTableFiles d previous types tables).value, f.Proper d := by
  induction tables generalizing types with
  | nil => exact fun f member => by cases member
  | cons t rest ih =>
      rw [alterTableFiles]
      cases found : previous.table? t.name with
      | none => exact ih types
      | some before =>
          simp only [Reported.value_bind, Reported.value_pure, alterTableFile_value]
          split
          case isTrue => exact ih _
          case isFalse filled =>
            rw [List.forall_mem_cons]
            refine ⟨proper_of_tableless (by simpa using filled) ?_, ih _⟩
            rw [alterStatements_eq d types found]
            have added := tableless_addColumns (d := d) types t.name (createdIn previous t)
            exact added.append (.of_placeless (placeless_createIndex t.name _))

theorem proper_files (previous : Option Plan) (current : Plan) :
    ∀ f ∈ (files previous current).value, f.Proper current.dialect := by
  have rebuilt : ∀ f ∈ current.migrationFiles.value, f.Proper current.dialect := proper_tableFiles {} current.tables
  unfold files
  split
  case h_1 => exact rebuilt
  case h_2 p =>
    split
    case isTrue => exact rebuilt
    case isFalse =>
      change ∀ f ∈ _ ++ _, MigrationFile.Proper current.dialect f
      rw [List.forall_mem_append]
      exact ⟨proper_tableFiles _ _, proper_alterTableFiles p _ current.tables⟩

theorem flatten_files (previous : Option Plan) (current : Plan) :
    MigrationFile.flatten (files previous current).value = (statements previous current).value := by
  unfold statements
  rw [Reported.value_bind]
  split <;> rfl

end Diff
end SchemaMigration
