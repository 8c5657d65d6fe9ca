import SchemaMigration.Proofs.Migration.Composition
import SchemaMigration.Proofs.Migration.Skipped
import SchemaMigration.Proofs.Plan.WellFormed
import SchemaMigration.Proofs.Sql.Piece
/-!
Whether enum columns find their types by name. A type is created under a name in quotes, which stays as it is, and
columns name it without quotes, which the database folds to small letters. So a column finds a type exactly if the
folded name is that of a type which some column has brought.
-/
namespace SchemaMigration

namespace Sql

/-- A name without quotes, in the small letters to which the database folds it. -/
def folded (name : String) : String := String.ofList (name.toList.map Char.toLower)

theorem folded_append (first second : String) : folded (first ++ second) = folded first ++ folded second := by
  rw [folded, String.toList_append, List.map_append, String.ofList_append]
  rfl

/-- What a database takes a piece of a statement to name: in quotes the name as it stands, otherwise the folded one. -/
def Piece.identifier? : Piece → Option String
  | .bare name => some (folded name)
  | .inQuotes name => some name
  | _ => none

/-- Every name of a group is folded to a name of its own group, of one before it or of the known ones. -/
def FoldsBack : List String → List (List String) → Prop
  | _, [] => True
  | known, names :: rest => (∀ name ∈ names, folded name ∈ known ++ names) ∧ FoldsBack (known ++ names) rest

instance decidableFoldsBack : ∀ known groups, Decidable (FoldsBack known groups)
  | _, [] => isTrue trivial
  | known, names :: rest => @instDecidableAnd _ _ inferInstance (decidableFoldsBack (known ++ names) rest)

theorem foldsBack_append_ending {ending : String} (small : folded ending = ending) (known : List String)
    (groups : List (List String)) :
    FoldsBack (known.map (· ++ ending)) (groups.map (·.map (· ++ ending))) ↔ FoldsBack known groups := by
  have apart : Function.Injective fun name : String => name ++ ending := fun _ _ same => by simpa using same
  induction groups generalizing known with
  | nil => rfl
  | cons names rest ih =>
      have group : (∀ name ∈ names.map (· ++ ending), folded name ∈ (known ++ names).map (· ++ ending)) ↔
          ∀ name ∈ names, folded name ∈ known ++ names := by
        rw [List.forall_mem_map]
        apply forall₂_congr
        intro name _
        rw [folded_append, small]
        exact List.mem_map_of_injective apart
      rw [List.map_cons, FoldsBack, FoldsBack, ← List.map_append]
      exact and_congr group (ih (known ++ names))

end Sql
open Sql

def Column.typesNamed (c : Column) : List SchemaObject :=
  ((if c.isPrimaryKey then keyTypePieces .postgres c else typePieces .postgres c).filterMap Piece.identifier?).map
    .enumType

def Statement.typesNamed : Statement → List SchemaObject
  | .createTable _ columns => columns.flatMap (·.typesNamed)
  | .addColumn _ c => c.typesNamed
  | _ => []

/-- Types that count by themselves are for integral keys, so the type of an enum is named wherever it is used. -/
theorem keyTypePieces_of_isEnum {d : Dialect} {c : Column} (enum : c.isEnum) : keyTypePieces d c = typePieces d c := by
  unfold keyTypePieces
  rw [Column.type_of_isEnum enum]
  cases d <;> rfl

theorem Column.typesNamed_eq (c : Column) :
    c.typesNamed = if c.isEnum then [.enumType (folded (enumTypeName c))] else [] := by
  cases enum : c.isEnum with
  | true =>
      rw [typesNamed, keyTypePieces_of_isEnum enum, ite_self, typePieces, if_pos enum]
      rfl
  | false =>
      have words : typePieces .postgres c = [.words (plainType .postgres c.type)] := by simp [typePieces, enum]
      unfold typesNamed keyTypePieces
      rw [words]
      cases c.isPrimaryKey <;> cases c.type <;> rfl

def Table.typeNames (t : Table) : List String := (t.columns.filter (·.isEnum)).map enumTypeName

theorem Table.mem_typeNames (t : Table) (name : String) :
    name ∈ t.typeNames ↔ ∃ c ∈ t.columns, c.isEnum ∧ enumTypeName c = name := by
  simp only [typeNames, List.mem_map, List.mem_filter, and_assoc]

namespace Diff
open Migration

theorem enumType_mem_declared (types : EnumTypes) (t : Table) (name : String) :
    .enumType name ∈ created .postgres (types.declare .postgres t.columns).value.2 ↔
      name ∉ types.names ∧ name ∈ t.typeNames := by
  rw [EnumTypes.mem_created_declare, t.mem_typeNames]
  constructor
  · intro given
    rcases given with ⟨-, c, inTable, enum, unseen, same⟩
    obtain rfl := SchemaObject.enumType.inj same
    exact ⟨unseen, c, inTable, enum, rfl⟩
  · intro given
    rcases given with ⟨unseen, c, inTable, enum, rfl⟩
    exact ⟨rfl, c, inTable, enum, unseen, rfl⟩

theorem table_finds_types_iff {held : List SchemaObject} {known : List String}
    (there : ∀ name, .enumType name ∈ held ↔ name ∈ known) (t : Table) :
    (∀ object ∈ (Statement.createTable t.name t.columns).typesNamed, object ∈ held) ↔
      ∀ name ∈ t.typeNames, folded name ∈ known := by
  have named : ∀ object, object ∈ (Statement.createTable t.name t.columns).typesNamed ↔
      ∃ name ∈ t.typeNames, object = .enumType (folded name) := by
    intro object
    simp only [Statement.typesNamed, List.mem_flatMap, Column.typesNamed_eq, t.mem_typeNames]
    constructor
    · intro given
      rcases given with ⟨c, inTable, member⟩
      split at member
      case isTrue enum => exact ⟨_, ⟨c, inTable, enum, rfl⟩, List.mem_singleton.mp member⟩
      case isFalse => cases member
    · intro given
      rcases given with ⟨name, ⟨c, inTable, enum, rfl⟩, rfl⟩
      exact ⟨c, inTable, by simp [enum]⟩
  constructor
  · intro finds name listed
    exact (there _).mp (finds _ ((named _).mpr ⟨name, listed, rfl⟩))
  · intro folds object member
    rcases (named object).mp member with ⟨name, listed, rfl⟩
    exact (there _).mpr (folds name listed)

/--
The statements that create tables find the types they name exactly if these fold back. What is held, what has been
seen and what the tables so far have named are the same types.
-/
theorem supplied_createTableFiles_iff {types : EnumTypes} {held : List SchemaObject} {known : List String}
    (seen : ∀ name, name ∈ types.names ↔ name ∈ known) (there : ∀ name, .enumType name ∈ held ↔ name ∈ known)
    (tables : List Table) :
    Supplied .postgres Statement.typesNamed held
        (MigrationFile.flatten (createTableFiles .postgres types tables).value.2) ↔
      FoldsBack known (tables.map (·.typeNames)) := by
  induction tables generalizing types held known with
  | nil => exact Iff.rfl
  | cons t rest ih =>
      have needless : ∀ s ∈ (types.declare .postgres t.columns).value.2, s.typesNamed = [] := by
        intro s member
        rcases EnumTypes.declare_only_types .postgres types t.columns s member with ⟨name, values, rfl⟩
        rfl
      have seenNow : ∀ name, name ∈ (types.declare .postgres t.columns).value.1.names ↔ name ∈ known ++ t.typeNames := by
        intro name
        rw [EnumTypes.mem_names_declare, List.mem_append, seen, t.mem_typeNames]
      have declared : ∀ name, .enumType name ∈ held ++ created .postgres (types.declare .postgres t.columns).value.2 ↔
          name ∈ known ++ t.typeNames := by
        intro name
        rw [List.mem_append, enumType_mem_declared, List.mem_append, there, seen]
        by_cases old : name ∈ known <;> simp [old]
      have thereNow : ∀ name, .enumType name ∈ (held ++ created .postgres (types.declare .postgres t.columns).value.2) ++
          (Statement.createTable t.name t.columns).creates .postgres ↔ name ∈ known ++ t.typeNames := by
        intro name
        rw [List.mem_append, declared]
        simp [Statement.creates, Column.inlineKeys]
      rw [createTableFiles_cons, MigrationFile.flatten_cons, supplied_append, supplied_append, created_append,
        created_cons, created_nil, List.append_nil, ← List.append_assoc, ih seenNow thereNow, Supplied, Supplied,
        table_finds_types_iff declared, List.map_cons, FoldsBack]
      simp [supplied_of_needless _ _ held needless]

end Diff

namespace Inference

theorem isEnum_column {name : String} {declared : Attribute} {key : Bool} {outline : Option Outline}
    (accepted : declared.Accepted) :
    (column name declared key outline).isEnum = ((typeOfName? name).isNone && declared.enumValues.isSome) := by
  have members : (column name declared key outline).enumMembers =
      if columnType name declared key = .enum then declared.enumValues.getD [] else [] := by
    simp only [Column.enumMembers, column]
    split <;> rfl
  rw [Column.isEnum, members]
  cases named : typeOfName? name with
  | some t =>
      have other : columnType name declared key ≠ .enum := by
        intro enum
        rw [columnType, named] at enum
        exact typeOfName?_ne_enum name (named.trans (congrArg some enum))
      simp [other]
  | none =>
      cases given : declared.enumValues with
      | none => simp
      | some values =>
          have filled : values ≠ [] := fun empty => accepted.someValues (by rw [given, empty])
          have enum : columnType name declared key = .enum := by simp [columnType, named, given, filled]
          simp [enum, filled]

end Inference

def Model.enumNames (m : Model) : List String :=
  (m.attributes.filter fun a => (Inference.typeOfName? a.1).isNone && a.2.enumValues.isSome).map (·.1)

theorem Model.typeNames_buildTable (outline : Outline) {m : Model} (accepted : m.Accepted) :
    (Plan.buildTable outline m).typeNames = m.enumNames.map (· ++ "_type") := by
  have enums : m.attributes.filter (fun a =>
      (Inference.column a.1 a.2 (a.1 == m.primaryKeyName) (some outline)).isEnum) =
      m.attributes.filter fun a => (Inference.typeOfName? a.1).isNone && a.2.enumValues.isSome :=
    List.filter_congr fun a declared => Inference.isEnum_column (accepted.attributes a declared)
  rw [Table.typeNames, Plan.buildTable, Plan.buildColumns, List.filter_map, enumNames, ← enums, List.map_map,
    List.map_map]
  rfl

namespace Plan
open Diff Migration

theorem supplied_migration_iff {p : Plan} (postgres : p.dialect = .postgres) :
    Supplied .postgres Statement.typesNamed [] p.migration.value ↔ FoldsBack [] (p.tables.map (·.typeNames)) := by
  have needless : ∀ s ∈ p.tables.flatMap (keyStatements .postgres) ++ p.tables.flatMap indexStatements,
      s.typesNamed = [] := by
    intro s member
    rcases List.mem_append.mp member with keys | indexes
    · rcases List.mem_flatMap.mp keys with ⟨t, -, inTable⟩
      rcases List.mem_flatMap.mp inTable with ⟨c, -, key⟩
      rcases (mem_foreignKey ..).mp key with ⟨-, target, -, rfl⟩
      rfl
    · rcases List.mem_flatMap.mp indexes with ⟨t, -, inTable⟩
      rcases List.mem_map.mp inTable with ⟨i, -, rfl⟩
      rfl
  have passes : p.migration.value = MigrationFile.flatten (createTableFiles .postgres {} p.tables).value.2 ++
      (p.tables.flatMap (keyStatements .postgres) ++ p.tables.flatMap indexStatements) := by
    rw [← List.append_assoc, ← flatten_tableFiles, ← postgres]
    rfl
  have tables : Supplied .postgres Statement.typesNamed []
      (MigrationFile.flatten (createTableFiles .postgres {} p.tables).value.2) ↔
        FoldsBack [] (p.tables.map (·.typeNames)) :=
    supplied_createTableFiles_iff (fun _ => Iff.rfl) (fun _ => iff_of_false List.not_mem_nil List.not_mem_nil) p.tables
  rw [passes, supplied_append, tables]
  exact and_iff_left (supplied_of_needless _ _ _ needless)

/--
The type of every enum column is found under the name that the column gives it, among the types that were created
before, exactly if folding the name of each enum attribute leads to one of its own model or of a model before it.
-/
theorem enum_types_found_iff {models : ModelSet} {p : Plan} (accepted : models.Accepted)
    (built : build models .postgres = .ok p) :
    Supplied .postgres Statement.typesNamed [] p.migration.value ↔ FoldsBack [] (models.map (·.2.enumNames)) := by
  rcases build_eq_ok_iff.mp built with ⟨-, rfl⟩
  have names : (buildWith (.ofModels models) models .postgres).tables.map (·.typeNames) =
      (models.map (·.2.enumNames)).map (·.map (· ++ "_type")) := by
    rw [buildWith, List.map_map, List.map_map]
    exact List.map_congr_left fun entry member => Model.typeNames_buildTable _ (accepted.models entry member)
  calc Supplied .postgres Statement.typesNamed [] (buildWith (.ofModels models) models .postgres).migration.value
      ↔ FoldsBack [] ((buildWith (.ofModels models) models .postgres).tables.map (·.typeNames)) :=
        supplied_migration_iff rfl
    _ ↔ FoldsBack [] ((models.map (·.2.enumNames)).map (·.map (· ++ "_type"))) := by rw [names]
    _ ↔ FoldsBack [] (models.map (·.2.enumNames)) := by exact foldsBack_append_ending (by decide) [] _

def ticketsAndTasks (first second : String) : ModelSet :=
  [("Ticket", { name := "Ticket", attributes := [("id", {}), (first, { enumValues := some ["open", "closed"] })] }),
    ("Task", { name := "Task", attributes := [("id", {}), (second, { enumValues := some ["open", "closed"] })] })]

/-- A capital finds the type that was created for small letters. -/
theorem tasks_find_type : build (ticketsAndTasks "status" "Status") .postgres =
      .ok (postgresOf (ticketsAndTasks "status" "Status")) ∧
    Supplied .postgres Statement.typesNamed [] (postgresOf (ticketsAndTasks "status" "Status")).migration.value := by
  have built := build_postgresOf (ticketsAndTasks "status" "Status") (by decide)
  exact ⟨built, (enum_types_found_iff (by decide) built).mpr (by decide)⟩

/-- The type `Status_type` exists, but the column asks for `status_type`. -/
theorem capital_type_not_found : ¬ ∀ (models : ModelSet) (p : Plan), models.Accepted → build models .postgres = .ok p →
    Supplied .postgres Statement.typesNamed [] p.migration.value := by
  intro claimed
  have built := build_postgresOf (ticketsAndTasks "Status" "status") (by decide)
  exact absurd (claimed _ _ (by decide) built) (by decide)

end Plan
end SchemaMigration
