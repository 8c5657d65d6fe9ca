import SchemaMigration.Proofs.Plan.References
import Mathlib.Data.List.Forall2
/-!
What everything that reads a built plan relies on: names that tell tables and columns apart, at most one key in a
table, references to tables of the plan, enum values in enum columns and nowhere else, no default where none was
declared, and the declared indexes before those that keep the values of unique columns apart.
-/
namespace SchemaMigration

namespace Inference

theorem typeOfName?_ne_enum (name : String) : typeOfName? name ≠ some .enum := by
  unfold typeOfName?
  split
  · nofun
  · split
    · nofun
    · split <;> nofun

theorem typeOfDefault?_ne_enum (v : Value) : typeOfDefault? v ≠ some .enum := by
  cases v with
  | str | int =>
      simp only [typeOfDefault?]
      split <;> nofun
  | null | bool | float | decimal | date | datetime | list | tuple | dict | foreign => nofun

/-- Only enum values make a column an enum: a declared type does not without them, and no name or default does. -/
theorem exists_values_of_enum {name : String} {declared : Attribute} {key : Bool} (accepted : declared.Accepted)
    (enum : columnType name declared key = .enum) : ∃ values, declared.enumValues = some values ∧ values ≠ [] := by
  cases given : declared.enumValues with
  | some values => exact ⟨values, rfl, fun empty => accepted.someValues (by rw [given, empty])⟩
  | none =>
      exfalso
      unfold columnType at enum
      split at enum
      case h_1 t named => exact typeOfName?_ne_enum name (named.trans (congrArg some enum))
      case h_2 =>
        rw [given] at enum
        split at enum
        case isTrue present => simp at present
        case isFalse =>
          split at enum
          case h_1 t typed => exact accepted.enumValues (typed.trans (congrArg some enum)) given
          case h_2 =>
            split at enum
            case h_1 t valued => exact typeOfDefault?_ne_enum _ (valued.trans (congrArg some enum))
            case h_2 => split at enum <;> cases enum

end Inference

/-- Enum values stand in enum columns and nowhere else, and a default only where one was declared. -/
structure Column.WellFormed (c : Column) : Prop where
  enum : c.type = .enum ↔ ∃ values, c.enumValues = some values ∧ values ≠ []
  other : c.type ≠ .enum → c.enumValues = none
  default : c.hasDefault = false → c.defaultValue = .null

structure Table.WellFormed (t : Table) : Prop where
  columnsDistinct : (t.columns.map (·.name)).Nodup
  oneKey : (t.columns.filter (·.isPrimaryKey)).length ≤ 1
  columns : ∀ c ∈ t.columns, c.WellFormed

structure Plan.WellFormed (p : Plan) : Prop where
  tablesDistinct : (p.tables.map (·.name)).Nodup
  tables : ∀ t ∈ p.tables, t.WellFormed
  references : ∀ t ∈ p.tables, ∀ c ∈ t.columns, ∀ r ∈ c.references, ∃ target ∈ p.tables, target.name = r.table

structure Column.Declares (m : Model) (a : String × Attribute) (c : Column) : Prop where
  name : c.name = .str a.1
  isPrimaryKey : c.isPrimaryKey = true ↔ a.1 = m.primaryKeyName
  isUnique : c.isUnique = a.2.unique
  hasDefault : c.hasDefault = a.2.hasDefault

structure Index.Declares (i : IndexDefinition) (j : Index) : Prop where
  name : j.name = .str i.name
  columns : j.columns = i.columns.map .str
  kind : j.kind = .plain

/-- The index keeps the values of the column apart and is named for it. -/
structure Index.Distinguishes (c : Column) (j : Index) : Prop where
  name : ∃ name, c.name = .str name ∧ j.name = .str (name ++ "_unique")
  columns : j.columns = [c.name]
  kind : j.kind = .unique

/-- The table is that of the model: its columns and indexes stand in the order of declaration. -/
structure Table.Declares (m : Model) (t : Table) : Prop where
  name : t.name = .str m.tableName
  columns : List.Forall₂ (Column.Declares m) m.attributes t.columns
  indexes : ∃ declared unique, t.indexes = declared ++ unique ∧
    List.Forall₂ Index.Declares m.indexes declared ∧
    List.Forall₂ Index.Distinguishes (t.columns.filter fun c => c.isUnique && !c.isPrimaryKey) unique

namespace Plan
variable {models : ModelSet} {d : Dialect} {outline : Outline} {m : Model}

theorem wellFormed_column {name : String} {declared : Attribute} {key : Bool} {known : Option Outline}
    (accepted : declared.Accepted) : (Inference.column name declared key known).WellFormed where
  enum := by
    constructor
    · intro enum
      rcases Inference.exists_values_of_enum accepted enum with ⟨values, given, filled⟩
      exact ⟨values, (if_pos enum).trans given, filled⟩
    · intro given
      rcases given with ⟨values, given, -⟩
      by_contra other
      cases (if_neg other).symm.trans given
  other := fun other => if_neg other
  default := by
    intro undeclared
    have absent := accepted.undeclared undeclared
    change Inference.primitiveDefault declared.default = .null
    rw [absent]
    rfl

theorem wellFormed_buildTable (accepted : m.Accepted) : (buildTable outline m).WellFormed where
  columnsDistinct := by
    have names : (buildTable outline m).columns.map (·.name) = (m.attributes.map (·.1)).map Value.str := by
      simp [buildTable, map_name_buildColumns]
    rw [names]
    exact accepted.attributesDistinct.map Value.str_injective
  oneKey := by
    have keys : (buildTable outline m).columns.filter (·.isPrimaryKey) =
        (m.attributes.filter fun a => a.1 == m.primaryKeyName).map fun a =>
          Inference.column a.1 a.2 (a.1 == m.primaryKeyName) (some outline) := List.filter_map
    have distinct : ((m.attributes.filter fun a => a.1 == m.primaryKeyName).map (·.1)).Nodup :=
      accepted.attributesDistinct.sublist (List.filter_sublist.map _)
    have same : ∀ name ∈ (m.attributes.filter fun a => a.1 == m.primaryKeyName).map (·.1), name = m.primaryKeyName := by
      simp
    rw [List.eq_replicate_of_mem same, List.nodup_replicate, List.length_map] at distinct
    rwa [keys, List.length_map]
  columns := by
    intro c inTable
    rcases (mem_buildColumns ..).mp inTable with ⟨a, declared, rfl⟩
    exact wellFormed_column (accepted.attributes a declared)

theorem declares_buildTable (outline : Outline) (m : Model) : (buildTable outline m).Declares m where
  name := rfl
  columns := by
    apply List.forall₂_map_right_iff.mpr
    apply List.forall₂_same.mpr
    intro a _
    exact ⟨rfl, beq_iff_eq, rfl, rfl⟩
  indexes := by
    refine ⟨_, _, rfl, ?_, ?_⟩
    · apply List.forall₂_map_right_iff.mpr
      apply List.forall₂_same.mpr
      intro i _
      exact ⟨rfl, rfl, rfl⟩
    · apply List.forall₂_map_right_iff.mpr
      apply List.forall₂_same.mpr
      intro c member
      rcases (mem_buildColumns ..).mp (List.mem_filter.mp member).1 with ⟨a, -, rfl⟩
      exact ⟨⟨a.1, rfl, rfl⟩, rfl, rfl⟩

/--
Accepted models have a plan exactly if they have tables of their own, and it is well formed: it has one table for each
model, with one column for each attribute and an index for each that was declared and for each unique column, all in
the order of declaration.
-/
theorem built_wellFormed (accepted : models.Accepted) (d : Dialect) :
    ((∃ p, build models d = .ok p) ↔ models.tableNames.Nodup) ∧
      ∀ p, build models d = .ok p →
        p.dialect = d ∧ p.WellFormed ∧ List.Forall₂ (fun entry t => t.Declares entry.2) models p.tables := by
  constructor
  · constructor
    · intro built
      rcases built with ⟨p, built⟩
      exact (build_eq_ok_iff.mp built).1
    · intro distinct
      exact ⟨_, build_eq_ok_iff.mpr ⟨distinct, rfl⟩⟩
  intro p built
  have regular := Built.regular ⟨models, accepted, built⟩
  rcases build_eq_ok_iff.mp built with ⟨distinct, rfl⟩
  refine ⟨rfl, ⟨regular.tablesDistinct, ?_, ?_⟩, ?_⟩
  · intro t inPlan
    rcases List.mem_map.mp inPlan with ⟨entry, member, rfl⟩
    exact wellFormed_buildTable (accepted.models entry member)
  · intro t inPlan c inTable r references
    rcases reference_of_mem_built distinct inPlan inTable references with ⟨name, entry, member, -, -, rfl⟩
    exact ⟨_, List.mem_map_of_mem member, rfl⟩
  · apply List.forall₂_map_right_iff.mpr
    apply List.forall₂_same.mpr
    intro entry _
    exact declares_buildTable _ entry.2

def statedArticles : ModelSet :=
  [("Article", {
      name := "Article"
      attributes := [("id", { unique := true }), ("title", { unique := true }),
        ("state", { enumValues := some ["draft", "done"], type := some .enum }), ("writer_id", {})]
      indexes := [⟨"by_state", ["state", "title"]⟩] }),
    ("Writer", { name := "Writer", primaryKey := some "code", attributes := [("code", {})] })]

theorem statedArticles_wellFormed : statedArticles.Accepted ∧ ∃ p, build statedArticles .sqlite = .ok p ∧ p.WellFormed ∧
    p.tables.map (·.indexes.map (·.key)) = [["index:by_state:state,title", "unique:title_unique:title"], []] := by
  have accepted : statedArticles.Accepted := by decide
  rcases built_wellFormed accepted .sqlite with ⟨builds, shape⟩
  rcases builds.mpr (by decide) with ⟨p, built⟩
  refine ⟨accepted, p, built, (shape p built).2.1, ?_⟩
  rw [(build_eq_ok_iff.mp built).2]
  decide

end Plan
end SchemaMigration
