import SchemaMigration.Proofs.Plan.References
/-!
The SQL types on both sides of a reference. A column that refers ends in `_id` and is a big integer for that, whatever
it refers to, while the type of the key comes from the name, the values, the type and the default of its own attribute.
-/
namespace SchemaMigration

/-- The column types that a dialect writes like that of big integers. -/
def Dialect.bigintTypes : Dialect → List ColumnType
  | .postgres | .mysql => [.bigint]
  | .sqlite => [.boolean, .integer, .bigint]

namespace Sql

theorem plainType_eq_bigint_iff (d : Dialect) (t : ColumnType) :
    plainType d t = plainType d .bigint ↔ t ∈ d.bigintTypes := by
  cases d <;> cases t <;> decide

theorem enumType_ne_bigint (d : Dialect) (c : Column) : enumType d c ≠ plainType d .bigint := by
  intro same
  have letters := congrArg String.toList same
  cases d with
  | postgres =>
      -- the name of the column may be anything, but the type ends in another letter
      have last := congrArg List.getLast? letters
      simp [enumType, enumTypeName, plainType, postgresType] at last
  | mysql => simp [enumType, plainType, mysqlType] at letters
  | sqlite => simp [enumType, plainType, sqliteType] at letters

theorem columnType_eq_bigint_iff (d : Dialect) (c : Column) :
    columnType d c = plainType d .bigint ↔ c.type ∈ d.bigintTypes := by
  rw [columnType]
  split
  case isTrue enum =>
    have type : c.type = .enum := by
      by_contra other
      simp [Column.isEnum, Column.enumMembers, other] at enum
    refine iff_of_false (enumType_ne_bigint d c) ?_
    rw [type]
    cases d <;> decide
  case isFalse => exact plainType_eq_bigint_iff d c.type

end Sql

namespace Inference

theorem columnType_of_referredModel? {name key : String} (refers : referredModel? name = some key) (declared : Attribute)
    (isPrimaryKey : Bool) : columnType name declared isPrimaryKey = .bigint := by
  unfold referredModel? at refers
  split at refers
  case isTrue ends => rw [columnType, typeOfName?, if_pos ends]
  case isFalse => cases refers

end Inference

/-- The key of the model, if it is declared, has a type that is written like that of the columns which refer to it. -/
def Model.KeyFits (d : Dialect) (m : Model) : Prop :=
  ∀ a ∈ m.attributes, a.1 = m.primaryKeyName → Inference.columnType a.1 a.2 true ∈ d.bigintTypes

instance (d : Dialect) (m : Model) : Decidable (m.KeyFits d) := inferInstanceAs (Decidable (∀ _ ∈ _, _))

namespace Plan
variable {models : ModelSet} {d : Dialect} {p : Plan}

theorem type_of_reference (built : build models d = .ok p) {t : Table} (inPlan : t ∈ p.tables) {c : Column}
    (inTable : c ∈ t.columns) {r : Reference} (references : c.references = some r) : c.type = .bigint := by
  rcases build_eq_ok_iff.mp built with ⟨tables, rfl⟩
  rcases List.mem_map.mp inPlan with ⟨owner, -, rfl⟩
  rcases (mem_buildColumns ..).mp inTable with ⟨a, -, rfl⟩
  have resolved : Inference.reference? a.1 (.ofModels models) = some r := references
  rw [ModelSet.reference?_ofModels tables, Option.bind_eq_some_iff] at resolved
  rcases resolved with ⟨key, stands, -⟩
  exact Inference.columnType_of_referredModel? stands ..

theorem forall_targets_iff (tables : models.tableNames.Nodup) {target : String × Model} (among : target ∈ models)
    (holds : ColumnType → Prop) :
    (∀ t ∈ (buildWith (.ofModels models) models d).tables, t.name = target.2.reference.table →
        ∀ k ∈ t.columns, k.name = target.2.reference.column → holds k.type) ↔
      ∀ a ∈ target.2.attributes, a.1 = target.2.primaryKeyName → holds (Inference.columnType a.1 a.2 true) := by
  have key : ∀ a : String × Attribute, a.1 = target.2.primaryKeyName →
      (Inference.column a.1 a.2 (a.1 == target.2.primaryKeyName) (some (.ofModels models))).type =
        Inference.columnType a.1 a.2 true := by
    intro a name
    rw [beq_iff_eq.mpr name]
    rfl
  constructor
  · intro all a declared name
    rcases (table_of_reference_iff tables among).mpr rfl with ⟨inPlan, table⟩
    rw [← key a name]
    exact all _ inPlan table _ ((mem_buildColumns ..).mpr ⟨a, declared, rfl⟩) (congrArg Value.str name)
  · intro all t inPlan table k inTable column
    rcases (table_of_reference_iff tables among).mp ⟨inPlan, table⟩ with rfl
    rcases (mem_buildColumns ..).mp inTable with ⟨a, declared, rfl⟩
    have name : a.1 = target.2.primaryKeyName := Value.str.inj column
    rw [key a name]
    exact all a declared name

/--
A column and the column that it refers to have the same SQL type exactly where the key of the model is a big integer
too, or something that the dialect writes in the same way.
-/
theorem reference_types_match_iff (accepted : models.Accepted) (built : build models d = .ok p) :
    (∀ t ∈ p.tables, ∀ c ∈ t.columns, ∀ r ∈ c.references, ∀ target ∈ p.tables, target.name = r.table →
        ∀ k ∈ target.columns, k.name = r.column → Sql.columnType d c = Sql.columnType d k) ↔
      ∀ owner ∈ models, ∀ target ∈ models, owner.2.RefersTo target.1 → target.2.KeyFits d := by
  have written : ∀ t ∈ p.tables, ∀ c ∈ t.columns, ∀ r ∈ c.references, Sql.columnType d c = Sql.plainType d .bigint := by
    intro t inPlan c inTable r references
    rw [Sql.columnType_eq_bigint_iff, type_of_reference built inPlan inTable references]
    cases d <;> decide
  rcases build_eq_ok_iff.mp built with ⟨tables, rfl⟩
  calc _ ↔ ∀ t ∈ (buildWith (.ofModels models) models d).tables, ∀ c ∈ t.columns, ∀ r ∈ c.references,
        ∀ target ∈ (buildWith (.ofModels models) models d).tables, target.name = r.table →
          ∀ k ∈ target.columns, k.name = r.column → k.type ∈ d.bigintTypes := by
        refine forall₂_congr fun t inPlan => forall₂_congr fun c inTable => forall₂_congr fun r references => ?_
        refine forall₃_congr fun target _ _ => forall₃_congr fun k _ _ => ?_
        rw [written t inPlan c inTable r references, eq_comm, Sql.columnType_eq_bigint_iff]
    _ ↔ _ := forall_built_references_iff accepted.keysDistinct tables _
    _ ↔ ∀ owner ∈ models, ∀ target ∈ models, owner.2.RefersTo target.1 → target.2.KeyFits d :=
        forall₂_congr fun owner _ => forall₂_congr fun target among => imp_congr_right fun _ =>
          forall_targets_iff tables among (· ∈ d.bigintTypes)

def booksOfAuthors (key : String) (declared : Attribute) : ModelSet :=
  [("Book", { name := "Book", attributes := [("id", {}), ("author_id", {})] }),
    ("Author", { name := "Author", table := some "writers", primaryKey := some key, attributes := [(key, declared)] })]

/-- Books by authors whose numbers are expected to need more than 32 bits. -/
def booksOfManyAuthors : ModelSet := booksOfAuthors "code" { default := .int 3000000000, hasDefault := true }

theorem books_typed_like_authors : booksOfManyAuthors.Accepted ∧ ∃ p, build booksOfManyAuthors .mysql = .ok p ∧
    ∀ t ∈ p.tables, ∀ c ∈ t.columns, ∀ r ∈ c.references, ∀ target ∈ p.tables, target.name = r.table →
      ∀ k ∈ target.columns, k.name = r.column → Sql.columnType .mysql c = Sql.columnType .mysql k := by
  have accepted : booksOfManyAuthors.Accepted := by decide
  have built : build booksOfManyAuthors .mysql = .ok _ := build_eq_ok_iff.mpr ⟨by decide, rfl⟩
  exact ⟨accepted, _, built, (reference_types_match_iff accepted built).mpr (by decide)⟩

/-- A book refers with a big integer to a text. -/
theorem authors_keyed_by_text : ¬ ∀ (models : ModelSet) (d : Dialect) (p : Plan), models.Accepted →
    build models d = .ok p → ∀ t ∈ p.tables, ∀ c ∈ t.columns, ∀ r ∈ c.references, ∀ target ∈ p.tables,
      target.name = r.table → ∀ k ∈ target.columns, k.name = r.column → Sql.columnType d c = Sql.columnType d k := by
  intro claimed
  have built := build_postgresOf (booksOfAuthors "uuid" { type := some .string }) (by decide)
  exact absurd (claimed _ _ _ (by decide) built) (by decide)

end Plan
end SchemaMigration
