import SchemaMigration.Proofs.Migration.Outcome
import SchemaMigration.Proofs.Migration.PlaceOrder
import SchemaMigration.Proofs.Schema.Database
/-!
Executing the migration that creates a plan. Started on nothing, it runs from the first statement to
the last and leaves what the plan describes and nothing else: the tables with their columns in order,
every foreign key and every index once, and the enum types of the columns.
-/
namespace SchemaMigration

def Plan.foreignKeys (p : Plan) : List ForeignKey :=
  p.tables.flatMap fun t => t.columns.flatMap fun c => c.references.toList.map (⟨t.name, c.name, ·⟩)

def Plan.namedIndexes (p : Plan) : List (Value × Index) :=
  p.tables.flatMap fun t => t.indexes.map (t.name, ·)

namespace EnumTypes

theorem broughtBy_append (known : List String) (first second : List Column) :
    broughtBy known (first ++ second) =
      broughtBy known first ++ broughtBy (known ++ (broughtBy known first).map (·.1)) second := by
  induction first generalizing known with
  | nil => simp [broughtBy]
  | cons c rest ih =>
      rw [List.cons_append, broughtBy, broughtBy]
      split
      · rw [ih]
        simp
      · exact ih known

end EnumTypes

namespace Database
open Migration Diff EnumTypes

variable {d : Dialect} {db : Database} {types : EnumTypes}

def broughtTypes (d : Dialect) (types : EnumTypes) (columns : List Column) : List (String × List String) :=
  if d = .postgres then broughtBy types.names columns else []

/-- The types that are taken for known are those of the database, where it has any. -/
structure Tracks (d : Dialect) (db : Database) (types : EnumTypes) : Prop where
  names : d = .postgres → db.enumTypes.map (·.1) = types.names
  distinct : (db.enumTypes.map (·.1)).Nodup

theorem broughtTypes_append (d : Dialect) (types : EnumTypes) (first second : List Column) :
    broughtTypes d types (first ++ second) =
      broughtTypes d types first ++ broughtTypes d (types.declare d first).value.1 second := by
  unfold broughtTypes
  split
  · rw [(declare_eq_broughtBy d types first).1, broughtBy_append]
  · rfl

theorem Tracks.declare (tracks : db.Tracks d types) (columns : List Column) :
    Tracks d { db with enumTypes := db.enumTypes ++ broughtTypes d types columns }
      (types.declare d columns).value.1 := by
  unfold broughtTypes
  constructor
  · intro postgres
    rw [if_pos postgres, List.map_append, tracks.names postgres, (declare_eq_broughtBy d types columns).1]
  · by_cases postgres : d = .postgres
    · rw [if_pos postgres, List.map_append]
      refine tracks.distinct.append (nodup_broughtBy ..) ?_
      intro name old new
      rw [tracks.names postgres] at old
      exact ((mem_names_broughtBy ..).mp new).1 old
    · rw [if_neg postgres, List.append_nil]
      exact tracks.distinct

theorem run_declare (tracks : db.Tracks d types) (columns : List Column) :
    db.run d (types.declare d columns).value.2 =
      some { db with enumTypes := db.enumTypes ++ broughtTypes d types columns } := by
  have distinct := (tracks.declare columns).distinct
  rw [(declare_eq_broughtBy d types columns).2]
  unfold broughtTypes at distinct ⊢
  by_cases postgres : d = .postgres
  · rw [if_pos postgres] at distinct ⊢
    rw [if_pos postgres]
    exact run_createTypes postgres _ distinct
  · simp [postgres]

theorem hasTypeOf_of_brought (tracks : db.Tracks d types) {columns : List Column} {c : Column}
    (listed : c ∈ columns) :
    HasTypeOf d { db with enumTypes := db.enumTypes ++ broughtTypes d types columns } c := by
  intro postgres enum
  have names := (tracks.declare columns).names postgres
  rw [HasType, names, mem_names_declare]
  exact .inr ⟨c, listed, enum, rfl⟩

theorem run_createTableFiles (tracks : db.Tracks d types) {tables : List Table}
    (apart : (db.tables.map (·.name) ++ tables.map (·.name)).Nodup)
    (distinct : ∀ t ∈ tables, (t.columns.map (·.name)).Nodup) :
    db.run d (MigrationFile.flatten (createTableFiles d types tables).value.2) =
      some { db with
        enumTypes := db.enumTypes ++ broughtTypes d types (tables.flatMap (·.columns))
        tables := db.tables ++ tables.map (.ofNew d) } := by
  induction tables generalizing db types with
  | nil => simp [createTableFiles, broughtTypes, broughtBy]
  | cons t rest ih =>
      let typed : Database := { db with enumTypes := db.enumTypes ++ broughtTypes d types t.columns }
      have allowed : typed.Allows d (.createTable t.name t.columns) := by
        refine ⟨?_, distinct t List.mem_cons_self, fun c listed => hasTypeOf_of_brought tracks listed⟩
        intro given
        rcases given with ⟨other, there, same⟩
        exact (List.nodup_append.mp apart).2.2 _ (List.mem_map.mpr ⟨other, there, same⟩) _
          List.mem_cons_self rfl
      have still : Tracks d (typed.execute d (.createTable t.name t.columns)) (types.declare d t.columns).value.1 :=
        ⟨(tracks.declare t.columns).names, (tracks.declare t.columns).distinct⟩
      have later := ih still (by simpa [execute, typed] using apart)
        fun other member => distinct other (List.mem_cons_of_mem t member)
      rw [createTableFiles_cons, MigrationFile.flatten_cons, List.append_assoc,
        run_append (run_declare tracks t.columns), List.singleton_append, run_cons allowed, later,
        List.flatMap_cons, broughtTypes_append]
      simp [execute, typed, StoredTable.ofNew]

end Database

namespace Plan
open Diff Migration

variable {p : Plan}

/-- What a plan describes, as a database. -/
def database (p : Plan) : Database where
  enumTypes := Database.broughtTypes p.dialect {} (p.tables.flatMap (·.columns))
  tables := p.tables.map (.ofNew p.dialect)
  constraints := if p.dialect = .sqlite then [] else p.foreignKeys
  indexes := p.namedIndexes

theorem flatMap_keyStatements (p : Plan) :
    p.tables.flatMap (keyStatements p.dialect) =
      if p.dialect = .sqlite then [] else p.foreignKeys.map ForeignKey.statement := by
  unfold keyStatements
  split
  case isTrue inline => simp [foreignKey_value, inline]
  case isFalse separate =>
    simp only [foreignKey_value, if_neg separate, foreignKeys, List.map_flatMap, List.map_map]
    rfl

theorem flatMap_indexStatements (p : Plan) :
    p.tables.flatMap indexStatements =
      p.namedIndexes.map fun entry => .createIndex entry.1 entry.2 := by
  simp only [namedIndexes, List.map_flatMap, List.map_map]
  rfl

theorem hasTable_of_mem {db : Database} {d : Dialect} (tables : db.tables = p.tables.map (.ofNew d)) {t : Table}
    (inPlan : t ∈ p.tables) : db.HasTable t.name := by
  refine ⟨.ofNew d t, ?_, rfl⟩
  rw [tables]
  exact List.mem_map_of_mem inPlan

theorem hasColumn_of_mem {db : Database} {d : Dialect} (tables : db.tables = p.tables.map (.ofNew d)) {t : Table}
    (inPlan : t ∈ p.tables) {c : Column} (inTable : c ∈ t.columns) : db.HasColumn t.name c.name := by
  refine ⟨.ofNew d t, ?_, rfl, .ofNew d c, List.mem_map_of_mem inTable, rfl⟩
  rw [tables]
  exact List.mem_map_of_mem inPlan

theorem mem_foreignKeys (p : Plan) (key : ForeignKey) :
    key ∈ p.foreignKeys ↔ ∃ t ∈ p.tables, ∃ c ∈ t.columns, ∃ target, c.references = some target ∧
      key = ⟨t.name, c.name, target⟩ := by
  simp [foreignKeys, eq_comm]

/-- What the first pass of a migration makes: the tables, and the enum types of their columns. -/
def createdTables (p : Plan) : Database where
  enumTypes := Database.broughtTypes p.dialect {} (p.tables.flatMap (·.columns))
  tables := p.tables.map (.ofNew p.dialect)

theorem run_createTables (named : p.WellNamed) :
    Database.run p.dialect {} (MigrationFile.flatten (createTableFiles p.dialect {} p.tables).value.2) =
      some p.createdTables := by
  have nothing : Database.Tracks p.dialect {} {} := ⟨fun _ => rfl, List.nodup_nil⟩
  exact Database.run_createTableFiles nothing named.tablesDistinct named.columnsDistinct

/-- The migration of a plan runs, and makes of nothing what the plan describes. -/
theorem run_migration (named : p.WellNamed) (sound : p.WellReferenced) :
    Database.run p.dialect {} p.migration.value = some p.database := by
  let keyed : Database := { p.createdTables with constraints := p.database.constraints }
  have keys : p.createdTables.run p.dialect (p.tables.flatMap (keyStatements p.dialect)) = some keyed := by
    rw [flatMap_keyStatements]
    by_cases inline : p.dialect = .sqlite
    · simp [keyed, createdTables, database, inline]
    · have found : ∀ key ∈ p.foreignKeys, p.createdTables.HasColumn key.table key.column ∧
          p.createdTables.HasColumn key.target.table key.target.column := by
        intro key member
        rcases (mem_foreignKeys p key).mp member with ⟨t, inPlan, c, inTable, target, references, rfl⟩
        have targetIn := sound.references t inPlan c inTable target references
        rcases (column_mem_inventory ..).mp targetIn with ⟨other, otherIn, sameTable, b, inOther, sameColumn⟩
        refine ⟨hasColumn_of_mem rfl inPlan inTable, ?_⟩
        rw [← sameTable, ← sameColumn]
        exact hasColumn_of_mem rfl otherIn inOther
      rw [if_neg inline, Database.run_addForeignKeys inline p.foreignKeys found]
      simp [keyed, createdTables, database, inline]
  have indexes : keyed.run p.dialect (p.tables.flatMap indexStatements) = some p.database := by
    rw [flatMap_indexStatements, Database.run_createIndexes]
    · rfl
    · intro entry member
      rcases List.mem_flatMap.mp member with ⟨t, inPlan, listed⟩
      rcases List.mem_map.mp listed with ⟨i, inTable, rfl⟩
      refine ⟨hasTable_of_mem rfl inPlan, ?_⟩
      intro name indexed
      rcases sound.indexes t inPlan i inTable name indexed with ⟨c, inColumns, rfl⟩
      exact hasColumn_of_mem rfl inPlan inColumns
  change Database.run p.dialect {} (MigrationFile.flatten (tableFiles p.dialect {} p.tables).value.2) = _
  rw [flatten_tableFiles, List.append_assoc, Database.run_append (run_createTables named), Database.run_append keys,
    indexes]

/-- A database that has what the plan describes, everything once, and nothing else. -/
structure Describes (p : Plan) (db : Database) : Prop where
  tables : db.tables = p.tables.map fun t => ⟨t.name, t.columns.map (.ofNew p.dialect)⟩
  foreignKeys : db.foreignKeys = p.foreignKeys
  keysOnce : db.foreignKeys.Nodup
  constraints : db.constraints = if p.dialect = .sqlite then [] else p.foreignKeys
  indexes : db.indexes = p.namedIndexes
  typesOnce : (db.enumTypes.map (·.1)).Nodup
  /-- A type has the values of the first column that uses it. -/
  types : ∀ name, db.enumTypes.lookup name =
    if p.dialect = .postgres then
      ((enumColumns p).find? fun c => Sql.enumTypeName c == name).map (·.enumMembers)
    else none

theorem nodup_flatMap_of_named {α β : Type} {items : List α} {f : α → List β} {name : α → Value}
    (nameOf : β → Value) (distinct : (items.map name).Nodup) (each : ∀ a ∈ items, (f a).Nodup)
    (named : ∀ a ∈ items, ∀ b ∈ f a, nameOf b = name a) : (items.flatMap f).Nodup := by
  have apart : items.Pairwise fun a b => name a ≠ name b := pairwise_ne_of_nodup_map distinct
  refine List.nodup_flatMap.mpr ⟨each, apart.imp_of_mem ?_⟩
  intro a b first second different x inFirst inSecond
  apply different
  calc name a = nameOf x := (named a first x inFirst).symm
    _ = name b := named b second x inSecond

theorem nodup_foreignKeys (named : p.WellNamed) : p.foreignKeys.Nodup := by
  refine nodup_flatMap_of_named ForeignKey.table named.tablesDistinct ?_ ?_
  · intro t inPlan
    refine nodup_flatMap_of_named ForeignKey.column (named.columnsDistinct t inPlan) ?_ ?_
    · intro c _
      cases c.references <;> simp
    · intro c _ key member
      rcases List.mem_map.mp member with ⟨target, -, rfl⟩
      rfl
  · intro t _ key member
    rcases List.mem_flatMap.mp member with ⟨c, -, inColumn⟩
    rcases List.mem_map.mp inColumn with ⟨target, -, rfl⟩
    rfl

theorem foreignKeys_database (p : Plan) : p.database.foreignKeys = p.foreignKeys := by
  have inColumns : (p.database.tables.flatMap fun t => t.columns.flatMap fun c =>
      c.reference.toList.map (ForeignKey.mk t.name c.name)) = if p.dialect = .sqlite then p.foreignKeys else [] := by
    simp only [database, List.flatMap_map, StoredTable.ofNew, StoredColumn.ofNew, Column.inlineReference]
    split
    case isTrue inline => rfl
    case isFalse separate => simp
  have beside : p.database.constraints = if p.dialect = .sqlite then [] else p.foreignKeys := rfl
  rw [Database.foreignKeys, inColumns, beside]
  split <;> simp

theorem find?_enumColumns (p : Plan) (name : String) :
    ((p.tables.flatMap (·.columns)).find? fun c => c.isEnum && Sql.enumTypeName c == name) =
      (enumColumns p).find? fun c => Sql.enumTypeName c == name := by
  rw [enumColumns, ← List.filter_flatMap, List.find?_filter]
  congr 1
  funext c
  rw [Bool.eq_iff_iff]
  simp

theorem describes_database (named : p.WellNamed) : p.Describes p.database where
  tables := rfl
  foreignKeys := foreignKeys_database p
  keysOnce := by
    rw [foreignKeys_database]
    exact nodup_foreignKeys named
  constraints := rfl
  indexes := rfl
  typesOnce := by
    simp only [database, Database.broughtTypes]
    split
    · exact EnumTypes.nodup_broughtBy ..
    · exact List.nodup_nil
  types := by
    intro name
    simp only [database, Database.broughtTypes]
    split
    · rw [EnumTypes.lookup_broughtBy, ← find?_enumColumns]
      rfl
    · rfl

theorem migration_executable (named : p.WellNamed) (sound : p.WellReferenced) :
    (p.migration.outcome = .ok p.migration.value ↔ p.Writable) ∧
      ∃ db, Database.run p.dialect {} p.migration.value = some db ∧ p.Describes db := by
  constructor
  · rw [Reported.outcome_eq_ok_iff, succeeds_migration_iff, and_iff_left rfl]
  · exact ⟨p.database, run_migration named sound, describes_database named⟩

def crossReferenced : ModelSet :=
  [("User", {
      name := "User"
      attributes := [("id", {}), ("team_id", {}), ("status", { enumValues := some ["new", "known"] })] }),
    ("Team", {
      name := "Team"
      attributes := [("id", {}), ("user_id", {}), ("status", { enumValues := some ["open", "full"] })]
      indexes := [{ name := "by_status", columns := ["status"] }] })]

theorem crossReferenced_executable :
    (postgresOf crossReferenced).WellNamed ∧ (postgresOf crossReferenced).WellReferenced ∧
      ∃ db, Database.run .postgres {} (postgresOf crossReferenced).migration.value = some db ∧
        (postgresOf crossReferenced).Describes db ∧ db.foreignKeys.length = 2 ∧
          db.enumTypes.lookup "status_type" = some ["new", "known"] := by
  have named : (postgresOf crossReferenced).WellNamed := (postgresOf_built (by decide) (by decide)).regular.toWellNamed
  have sound : (postgresOf crossReferenced).WellReferenced := by decide
  rcases (migration_executable named sound).2 with ⟨db, done, described⟩
  refine ⟨named, sound, db, done, described, ?_, ?_⟩
  · rw [described.foreignKeys]
    decide
  · rw [described.types]
    decide

end Plan

end SchemaMigration
