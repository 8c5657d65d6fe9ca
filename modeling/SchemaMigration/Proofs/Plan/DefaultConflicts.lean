import SchemaMigration.Proofs.Plan.IndexColumns
import SchemaMigration.Proofs.Sql.Default

namespace SchemaMigration

namespace Sql

/-- What a definition of a column has behind the name. -/
structure Clauses where
  type : String
  others : List String

namespace Clauses

def text (name : String) (clauses : Clauses) : String := spaced (name :: clauses.type :: clauses.others)

/-- Types without defaults: those of keys that count by themselves, and those of large values. -/
def typesWithoutDefault : Dialect → List String
  | .postgres => ["SERIAL", "BIGSERIAL"]
  | .mysql => ["text", "json"]
  | .sqlite => []

def HasDefault (clauses : Clauses) : Prop := ∃ literal, "default " ++ literal ∈ clauses.others

def RefusesDefault (d : Dialect) (clauses : Clauses) : Prop :=
  clauses.type ∈ typesWithoutDefault d ∨ d = .mysql ∧ "AUTO_INCREMENT" ∈ clauses.others

/-- Databases refuse such a column. -/
def Contradictory (d : Dialect) (clauses : Clauses) : Prop := clauses.HasDefault ∧ clauses.RefusesDefault d

end Clauses

section
variable (d : Dialect) (c : Column)

def clauses : Clauses :=
  ⟨if c.isPrimaryKey then keyType d c else columnType d c,
    (if c.isPrimaryKey then "PRIMARY KEY" :: (countingClause? d c).toList else []) ++ constraints d c⟩

/-- A column that is added is never the key. -/
def addedClauses : Clauses := ⟨columnType d c, constraints d c⟩

theorem definition_eq_clauses : definition d c = (clauses d c).text (quoted d c.name) := rfl

theorem addedDefinition_eq_clauses : addedDefinition d c = (addedClauses d c).text (quoted d c.name) := rfl

end

end Sql

def Statement.clauses (d : Dialect) : Statement → List Sql.Clauses
  | .createTable _ columns => columns.map (Sql.clauses d)
  | .addColumn _ c => [Sql.addedClauses d c]
  | .modifyColumn _ c => if d = .mysql then [Sql.addedClauses d c] else []
  | _ => []

namespace Sql
variable {d : Dialect} {c : Column} {clause : String}

theorem head_of_default (given : clause ∈ defaultClause? d c) : clause.toList.head? = some 'd' := by
  unfold defaultClause? at given
  split at given
  · obtain rfl := Option.some.inj given
    simp
  · cases given

theorem head_of_mem_constraints (member : clause ∈ constraints d c) :
    clause ∈ defaultClause? d c ∨ clause.toList.head? ∈ [some 'n', some 'R'] := by
  simp only [constraints, List.mem_append, Option.mem_toList] at member
  rcases member with (required | default) | reference
  · unfold notNull? at required
    split at required
    · obtain rfl := Option.some.inj required
      exact .inr (by simp)
    · cases required
  · exact .inl default
  · unfold inlineReference? at reference
    split at reference
    · obtain rfl := Option.some.inj reference
      exact .inr (by simp)
    · cases reference

theorem hasDefault_iff : (clauses d c).HasDefault ↔ defaultClause? d c ≠ none := by
  constructor
  · intro given
    rcases given with ⟨literal, member⟩
    rcases List.mem_append.mp member with key | constraint
    · have other : "default " ++ literal ∉ "PRIMARY KEY" :: (countingClause? d c).toList := by
        unfold countingClause?
        cases d <;> split <;> simp [← String.toList_inj]
      split at key
      · exact absurd key other
      · cases key
    · rcases head_of_mem_constraints constraint with default | other
      · exact fun missing => by simp [missing] at default
      · simp at other
  · intro given
    rcases Option.ne_none_iff_exists'.mp given with ⟨clause, found⟩
    have member : clause ∈ (clauses d c).others := by simp [clauses, constraints, found]
    unfold defaultClause? at found
    split at found
    · obtain rfl := Option.some.inj found
      exact ⟨_, member⟩
    · cases found

theorem countingWord_mem_iff :
    "AUTO_INCREMENT" ∈ (clauses .mysql c).others ↔ c.isPrimaryKey = true ∧ c.type.isIntegral = true := by
  have constraint : "AUTO_INCREMENT" ∉ constraints .mysql c := by
    intro member
    rcases head_of_mem_constraints member with default | other
    · exact absurd (head_of_default default) (by decide)
    · exact absurd other (by decide)
  cases key : c.isPrimaryKey <;> simp [clauses, key, constraint, countingClause?]

theorem columnType_not_counting : columnType .postgres c ∉ Clauses.typesWithoutDefault .postgres := by
  intro listed
  unfold columnType at listed
  split at listed
  case isTrue =>
    -- the name of the column may be anything, but the type ends in another letter
    have last : (enumType .postgres c).toList.getLast? = some 'e' := by simp [enumType, enumTypeName]
    simp only [Clauses.typesWithoutDefault, List.mem_cons, List.not_mem_nil, or_false] at listed
    rcases listed with same | same <;> simp [same] at last
  case isFalse =>
    revert listed
    cases c.type <;> decide

theorem keyType_of_not_integral (other : c.type.isIntegral = false) : keyType d c = columnType d c := by
  unfold keyType
  split
  case h_1 type => simp [type, ColumnType.isIntegral] at other
  case h_2 type => simp [type, ColumnType.isIntegral] at other
  case h_3 => rfl

theorem type_postgres_iff : (clauses .postgres c).type ∈ Clauses.typesWithoutDefault .postgres ↔
    c.isPrimaryKey = true ∧ c.type.isIntegral = true := by
  cases key : c.isPrimaryKey with
  | false => simpa [clauses, key] using columnType_not_counting
  | true =>
      simp only [clauses, key, if_true, true_and]
      cases integral : c.type.isIntegral with
      | false =>
          rw [keyType_of_not_integral integral]
          simpa using columnType_not_counting
      | true =>
          revert integral
          unfold keyType
          cases c.type <;> simp [ColumnType.isIntegral, Clauses.typesWithoutDefault]

theorem type_mysql_iff (wellFormed : c.WellFormed) : (clauses .mysql c).type ∈ Clauses.typesWithoutDefault .mysql ↔
    c.type ∈ [.text, .json] := by
  have type : (clauses .mysql c).type = columnType .mysql c := by
    change (if c.isPrimaryKey then columnType .mysql c else columnType .mysql c) = _
    exact ite_self _
  rw [type, columnType]
  split
  case isTrue enum =>
    refine iff_of_false ?_ (by simp [Column.type_of_isEnum enum])
    simp [Clauses.typesWithoutDefault, enumType, ← String.toList_inj]
  case isFalse plain =>
    have other : c.type ≠ .enum := by
      intro enum
      rcases wellFormed.enum.mp enum with ⟨values, given, filled⟩
      simp [Column.isEnum, Column.enumMembers, enum, given, filled] at plain
    revert other
    cases c.type <;> decide

theorem refusesDefault_iff (wellFormed : c.WellFormed) : (clauses d c).RefusesDefault d ↔
    (d ≠ .sqlite ∧ c.isPrimaryKey = true ∧ c.type.isIntegral = true) ∨ (d = .mysql ∧ c.type ∈ [.text, .json]) := by
  unfold Clauses.RefusesDefault
  cases d with
  | postgres => simpa using type_postgres_iff
  | mysql => simp [type_mysql_iff wellFormed, countingWord_mem_iff, or_comm]
  | sqlite => simp [Clauses.typesWithoutDefault]

theorem contradictory_iff (wellFormed : c.WellFormed) : (clauses d c).Contradictory d ↔ c.defaultValue ≠ .null ∧
    ((d ≠ .sqlite ∧ c.isPrimaryKey = true ∧ c.type.isIntegral = true) ∨ (d = .mysql ∧ c.type ∈ [.text, .json])) := by
  rw [Clauses.Contradictory, hasDefault_iff, refusesDefault_iff wellFormed, Ne, wellFormed.defaultClause?_eq_none_iff]

end Sql

namespace Value

def IsInteger : Value → Prop
  | .int _ => True
  | _ => False

instance : DecidablePred IsInteger
  | .int _ => isTrue trivial
  | .null | .bool _ | .float _ | .str _ | .decimal _ | .date _ | .datetime _ | .list _ | .tuple _ | .dict _
  | .foreign _ => isFalse id

def IsLongText : Value → Prop
  | .str s => Inference.maxStringLength < s.length
  | _ => False

instance : DecidablePred IsLongText
  | .str s => inferInstanceAs (Decidable (Inference.maxStringLength < s.length))
  | .null | .bool _ | .int _ | .float _ | .decimal _ | .date _ | .datetime _ | .list _ | .tuple _ | .dict _
  | .foreign _ => isFalse id

end Value

namespace Attribute

/-- Neither the name nor enum values decide the type. -/
def LeavesType (name : String) (a : Attribute) : Prop :=
  Inference.typeOfName? name = none ∧ (a.enumValues.getD []).isEmpty = true

def KeepsDefault (a : Attribute) : Prop := Inference.primitiveDefault a.default ≠ .null

/-- An integral type, for the end of the name, or by declaration, or for the default. -/
def IsIntegral (name : String) (a : Attribute) : Prop :=
  Inference.endsIn "_id" name = true ∨
    a.LeavesType name ∧ ((∃ t ∈ a.type, t.isIntegral = true) ∨ a.type = none ∧ a.default.IsInteger)

/-- A type of large values, by declaration or for the length of the default. -/
def IsLarge (name : String) (a : Attribute) : Prop :=
  a.LeavesType name ∧ ((∃ t ∈ a.type, t ∈ [.text, .json]) ∨ a.type = none ∧ a.default.IsLongText)

instance (name : String) (a : Attribute) : Decidable (a.LeavesType name) := inferInstanceAs (Decidable (_ ∧ _))

instance (a : Attribute) : Decidable a.KeepsDefault := inferInstanceAs (Decidable (_ ≠ _))

instance (name : String) (a : Attribute) : Decidable (a.IsIntegral name) := inferInstanceAs (Decidable (_ ∨ _))

instance (name : String) (a : Attribute) : Decidable (a.IsLarge name) := inferInstanceAs (Decidable (_ ∧ _))

end Attribute

namespace Inference
variable {name : String} {a : Attribute} {key : Bool}

theorem columnType_of_leavesType (free : a.LeavesType name) : columnType name a key =
    (a.type.or (typeOfDefault? (primitiveDefault a.default))).getD (if key then .bigint else .string) := by
  rw [columnType, free.1, free.2]
  cases a.type <;> cases typeOfDefault? (primitiveDefault a.default) <;> rfl

theorem columnType_of_not_leavesType (taken : ¬ a.LeavesType name) :
    columnType name a key = (typeOfName? name).getD .enum := by
  rw [columnType]
  cases named : typeOfName? name with
  | some t => rfl
  | none =>
      have values : (a.enumValues.getD []).isEmpty = false := by simpa [Attribute.LeavesType, named] using taken
      simp [values]

theorem typeOfName?_cases (name : String) :
    (endsIn "_id" name = true ∧ typeOfName? name = some .bigint) ∨
      (endsIn "_id" name = false ∧ typeOfName? name ∈ [none, some .datetime, some .boolean]) := by
  unfold typeOfName?
  cases ends : endsIn "_id" name with
  | true => exact .inl ⟨rfl, rfl⟩
  | false =>
      refine .inr ⟨rfl, ?_⟩
      rw [if_neg Bool.false_ne_true]
      split
      · simp
      · split <;> simp

theorem isIntegral_of_default {v : Value} (kept : primitiveDefault v ≠ .null) (otherwise : ColumnType) :
    ((typeOfDefault? (primitiveDefault v)).getD otherwise).isIntegral = true ↔ v.IsInteger := by
  cases v with
  | null | list | tuple | dict | foreign => exact absurd rfl kept
  | int n =>
      refine iff_of_true ?_ trivial
      simp only [primitiveDefault, typeOfDefault?]
      split <;> rfl
  | str s =>
      refine iff_of_false ?_ id
      simp only [primitiveDefault, typeOfDefault?]
      split <;> exact Bool.false_ne_true
  | bool | float | decimal | date | datetime => exact iff_of_false Bool.false_ne_true id

theorem large_of_default (v : Value) {otherwise : ColumnType} (small : otherwise ∉ [.text, .json]) :
    (typeOfDefault? (primitiveDefault v)).getD otherwise ∈ [.text, .json] ↔ v.IsLongText := by
  cases v with
  | str s =>
      simp only [primitiveDefault, typeOfDefault?, Value.IsLongText]
      split
      case isTrue long => exact iff_of_true (by simp) long
      case isFalse short => exact iff_of_false (by simp) short
  | int n =>
      refine iff_of_false ?_ id
      simp only [primitiveDefault, typeOfDefault?]
      split <;> simp
  | null | list | tuple | dict | foreign => exact iff_of_false small id
  | bool | float | decimal | date | datetime => exact iff_of_false (by simp [primitiveDefault, typeOfDefault?]) id

/-- A default that is kept has a type of its own, so a key with one is not a big integer for the lack of a type. -/
theorem isIntegral_columnType_iff (kept : a.KeepsDefault) :
    (columnType name a key).isIntegral = true ↔ a.IsIntegral name := by
  unfold Attribute.IsIntegral
  by_cases free : a.LeavesType name
  · have ends : endsIn "_id" name = false := by
      rcases typeOfName?_cases name with ⟨-, named⟩ | ⟨ends, -⟩
      · cases named.symm.trans free.1
      · exact ends
    rw [columnType_of_leavesType free]
    cases declared : a.type with
    | some t => simp [free, ends]
    | none => simp [free, ends, isIntegral_of_default kept]
  · rw [columnType_of_not_leavesType free]
    rcases typeOfName?_cases name with ⟨ends, named⟩ | ⟨ends, named⟩
    · simp [ends, named, ColumnType.isIntegral]
    · refine iff_of_false ?_ (by simp [free, ends])
      simp only [List.mem_cons, List.not_mem_nil, or_false] at named
      rcases named with named | named | named <;> rw [named] <;> exact Bool.false_ne_true

theorem large_columnType_iff : columnType name a key ∈ [.text, .json] ↔ a.IsLarge name := by
  unfold Attribute.IsLarge
  by_cases free : a.LeavesType name
  · rw [columnType_of_leavesType free]
    have small : (if key then .bigint else .string) ∉ [ColumnType.text, .json] := by cases key <;> decide
    cases declared : a.type with
    | some t => simp [free]
    | none => simp only [Option.none_or, large_of_default a.default small]; simp [free]
  · refine iff_of_false ?_ (by simp [free])
    rw [columnType_of_not_leavesType free]
    rcases typeOfName?_cases name with ⟨-, named⟩ | ⟨-, named⟩
    · simp [named]
    · simp only [List.mem_cons, List.not_mem_nil, or_false] at named
      rcases named with named | named | named <;> simp [named]

end Inference

/-- The attribute has a default beside which a dialect refuses its column: of a key that counts by itself, or in MySQL
of a large value. -/
def Model.Contradicts (d : Dialect) (m : Model) (a : String × Attribute) : Prop :=
  a.2.KeepsDefault ∧ ((d ≠ .sqlite ∧ a.1 = m.primaryKeyName ∧ a.2.IsIntegral a.1) ∨ (d = .mysql ∧ a.2.IsLarge a.1))

instance (d : Dialect) (m : Model) : DecidablePred (m.Contradicts d) := fun _ => inferInstanceAs (Decidable (_ ∧ _))

namespace Plan
variable {models : ModelSet} {d : Dialect} {p : Plan}

theorem contradictory_column_iff {m : Model} (accepted : m.Accepted) (outline : Outline) {a : String × Attribute}
    (declared : a ∈ m.attributes) :
    (Sql.clauses d (Inference.column a.1 a.2 (a.1 == m.primaryKeyName) (some outline))).Contradictory d ↔
      m.Contradicts d a := by
  rw [Sql.contradictory_iff (wellFormed_column (accepted.attributes a declared))]
  refine and_congr_right fun kept => or_congr ?_ ?_
  · rw [← Inference.isIntegral_columnType_iff kept, ← beq_iff_eq (a := a.1)]
    rfl
  · rw [← Inference.large_columnType_iff]
    rfl

theorem forall_clauses_migration (p : Plan) (holds : Sql.Clauses → Prop) :
    (∀ s ∈ p.migration.value, ∀ clauses ∈ s.clauses p.dialect, holds clauses) ↔
      ∀ t ∈ p.tables, ∀ c ∈ t.columns, holds (Sql.clauses p.dialect c) := by
  have types : ∀ s ∈ (EnumTypes.declare p.dialect {} (p.tables.flatMap (·.columns))).value.2,
      ∀ clauses ∈ s.clauses p.dialect, holds clauses := by
    intro s declared
    rcases EnumTypes.declare_only_types _ _ _ s declared with ⟨name, values, rfl⟩
    exact nofun
  have others : ∀ s ∈ p.tables.flatMap (Diff.keyStatements p.dialect) ++ p.tables.flatMap Diff.indexStatements,
      ∀ clauses ∈ s.clauses p.dialect, holds clauses := by
    intro s member
    rcases key_or_index_of_mem member with ⟨table, column, target, rfl⟩ | ⟨table, i, rfl⟩ <;> exact nofun
  have creates : ∀ s, s ∈ MigrationFile.flatten (Migration.createTableFiles p.dialect {} p.tables).value.2 ↔ _ :=
    fun s => (Diff.createTableFiles_perm p.dialect {} p.tables).mem_iff
  change (∀ s ∈ MigrationFile.flatten (Migration.tableFiles p.dialect {} p.tables).value.2, _) ↔ _
  rw [Diff.flatten_tableFiles, List.append_assoc, List.forall_mem_append, and_iff_left others]
  simp only [creates, List.forall_mem_append, and_iff_right types, List.forall_mem_map]
  exact forall₂_congr fun t _ => List.forall_mem_map

theorem forall_contradictory_iff (accepted : models.Accepted) (built : build models d = .ok p) :
    (∀ s ∈ p.migration.value, ∀ clauses ∈ s.clauses d, ¬ clauses.Contradictory d) ↔
      ∀ entry ∈ models, ∀ a ∈ entry.2.attributes, ¬ entry.2.Contradicts d a := by
  have columns := forall_clauses_migration p fun clauses => ¬ clauses.Contradictory d
  rcases build_eq_ok_iff.mp built with ⟨-, rfl⟩
  refine columns.trans (List.forall_mem_map.trans ?_)
  refine forall₂_congr fun entry member => List.forall_mem_map.trans ?_
  exact forall₂_congr fun a declared =>
    not_congr (contradictory_column_iff (accepted.models entry member) (.ofModels models) declared)

/--
No column that the migration of a built plan defines has a default that contradicts the rest of its definition, exactly
if no attribute declares one: a default for a key of an integral type, or in MySQL for a text or a document, also where
that type comes from the default.
-/
theorem contradictory_defaults_iff {statements : List Statement} (accepted : models.Accepted)
    (built : build models d = .ok p) (done : p.migration.outcome = .ok statements) :
    (∀ t ∈ p.tables, ∀ c ∈ t.columns, Sql.definition d c = (Sql.clauses d c).text (Sql.quoted d c.name) ∧
      ((Sql.clauses d c).Contradictory d ↔ c.defaultValue ≠ .null ∧
        ((d ≠ .sqlite ∧ c.isPrimaryKey = true ∧ c.type.isIntegral = true) ∨ (d = .mysql ∧ c.type ∈ [.text, .json])))) ∧
    ((∀ s ∈ statements, ∀ clauses ∈ s.clauses d, ¬ clauses.Contradictory d) ↔
      ∀ entry ∈ models, ∀ a ∈ entry.2.attributes, ¬ entry.2.Contradicts d a) := by
  have now : p.Built d := ⟨models, accepted, built⟩
  rcases (Reported.outcome_eq_ok_iff ..).mp done with ⟨-, rfl⟩
  refine ⟨fun t inPlan c inTable => ?_, forall_contradictory_iff accepted built⟩
  exact ⟨Sql.definition_eq_clauses d c, Sql.contradictory_iff (now.wellFormed_column inPlan inTable)⟩

theorem Built.outcome_migration (built : p.Built d)
    (renderable : ∀ t ∈ p.tables, ∀ c ∈ t.columns, c.defaultValue.Renderable) :
    p.migration.outcome = .ok p.migration.value :=
  (Reported.outcome_eq_ok_iff ..).mpr ⟨built.succeeds_migration_iff.mpr renderable, rfl⟩

/-- Users with defaults for all columns but their number and their notes, and teams whose key is not a number. -/
def welcomedUsers : ModelSet :=
  [("User", {
      name := "User"
      attributes := [("id", {}), ("name", { hasDefault := true, default := .str "new" }),
        ("team_id", { hasDefault := true, default := .int 1 }), ("notes", { type := some .text }),
        ("state", { hasDefault := true, default := .str "open", enumValues := some ["open", "closed"] })] }),
    ("Team", {
        name := "Team"
        primaryKey := some "code"
        attributes := [("code", { hasDefault := true, default := .str "home" })] })]

theorem welcomedUsers_agree : welcomedUsers.Accepted ∧ ∃ p statements, build welcomedUsers .mysql = .ok p ∧
    p.migration.outcome = .ok statements ∧ statements.length = 3 ∧
    ∀ s ∈ statements, ∀ clauses ∈ s.clauses .mysql, ¬ clauses.Contradictory .mysql := by
  have accepted : welcomedUsers.Accepted := by decide
  have built : build welcomedUsers .mysql = .ok (buildWith (.ofModels welcomedUsers) welcomedUsers .mysql) :=
    build_eq_ok_iff.mpr ⟨by decide, rfl⟩
  have done := (built_buildWith .mysql accepted (by decide)).outcome_migration (by decide +kernel)
  exact ⟨accepted, _, _, built, done, by decide, (contradictory_defaults_iff accepted built done).2.mpr (by decide)⟩

def defaultedUsers : ModelSet :=
  [("User", { name := "User", attributes := [("id", { hasDefault := true, default := .int 1 })] })]

def defaultedPages : ModelSet :=
  [("Page", {
      name := "Page"
      attributes := [("id", {}), ("body", { hasDefault := true, default := .str "", type := some .text })] })]

/-- One dialect creates the users, and another one the pages, with a default that it refuses. -/
theorem users_and_pages_contradict :
    (¬ ∀ (models : ModelSet) (p : Plan) (statements : List Statement), models.Accepted →
      build models .postgres = .ok p → p.migration.outcome = .ok statements →
        ∀ s ∈ statements, ∀ clauses ∈ s.clauses .postgres, ¬ clauses.Contradictory .postgres) ∧
    ¬ ∀ (models : ModelSet) (p : Plan) (statements : List Statement), models.Accepted →
      build models .mysql = .ok p → p.migration.outcome = .ok statements →
        ∀ s ∈ statements, ∀ clauses ∈ s.clauses .mysql, ¬ clauses.Contradictory .mysql := by
  constructor
  · intro claimed
    have accepted : defaultedUsers.Accepted := by decide
    have built := build_postgresOf defaultedUsers (by decide)
    have done := (postgresOf_built accepted (by decide)).outcome_migration (by decide +kernel)
    exact absurd ((forall_contradictory_iff accepted built).mp (claimed _ _ _ accepted built done)) (by decide)
  · intro claimed
    have accepted : defaultedPages.Accepted := by decide
    have built : build defaultedPages .mysql = .ok (buildWith (.ofModels defaultedPages) defaultedPages .mysql) :=
      build_eq_ok_iff.mpr ⟨by decide, rfl⟩
    have done := (built_buildWith .mysql accepted (by decide)).outcome_migration (by decide +kernel)
    exact absurd ((forall_contradictory_iff accepted built).mp (claimed _ _ _ accepted built done)) (by decide)

end Plan

end SchemaMigration
