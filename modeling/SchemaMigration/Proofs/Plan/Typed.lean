import SchemaMigration.Proofs.Plan.Growth
import SchemaMigration.Proofs.Value.Stored

namespace SchemaMigration

namespace Value

theorem IsText.isLeaf {v : Value} (text : v.IsText) : v.isLeaf := by
  rcases text with ⟨s, rfl⟩
  rfl

structure IsSingle (v : Value) : Prop where
  leaf : v.isLeaf
  known : ∀ kind, v ≠ .foreign kind

end Value

structure Column.Typed (c : Column) : Prop where
  name : c.name.IsText
  default : c.defaultValue.IsSingle
  references : ∀ r ∈ c.references, r.table.IsText ∧ r.column.IsText

structure Index.Typed (i : Index) : Prop where
  name : i.name.IsText
  columns : ∀ v ∈ i.columns, v.IsText

structure Table.Typed (t : Table) : Prop where
  name : t.name.IsText
  columns : ∀ c ∈ t.columns, c.Typed
  indexes : ∀ i ∈ t.indexes, i.Typed

/-- Names are texts, and defaults are single values. -/
structure Plan.Typed (p : Plan) : Prop where
  tables : ∀ t ∈ p.tables, t.Typed

namespace Inference

theorem typed_column (name : String) (declared : Attribute) (key : Bool) (outline : Option Outline) :
    (column name declared key outline).Typed where
  name := ⟨_, rfl⟩
  default := by
    have default : (column name declared key outline).defaultValue = primitiveDefault declared.default := rfl
    rw [default]
    cases declared.default <;> exact ⟨rfl, nofun⟩
  references := by
    intro r found
    rcases Option.bind_eq_some_iff.mp found with ⟨known, -, resolved⟩
    rcases Option.map_eq_some_iff.mp resolved with ⟨names, -, rfl⟩
    exact ⟨⟨_, rfl⟩, ⟨_, rfl⟩⟩

end Inference

theorem Plan.typed_of_build {models : ModelSet} {d : Dialect} {p : Plan} (done : build models d = .ok p) : p.Typed := by
  rcases build_eq_ok_iff.mp done with ⟨-, rfl⟩
  refine ⟨fun t inPlan => ?_⟩
  rcases List.mem_map.mp inPlan with ⟨entry, -, rfl⟩
  have columns : ∀ c ∈ buildColumns (.ofModels models) entry.2, c.Typed := by
    intro c inTable
    rcases (mem_buildColumns ..).mp inTable with ⟨a, -, rfl⟩
    exact Inference.typed_column ..
  refine ⟨⟨_, rfl⟩, columns, ?_⟩
  intro i listed
  rcases (mem_indexes_buildTable ..).mp listed with ⟨declared, -, rfl⟩ | ⟨c, inTable, -, rfl⟩
  · refine ⟨⟨_, rfl⟩, ?_⟩
    intro v member
    rcases List.mem_map.mp member with ⟨s, -, rfl⟩
    exact ⟨s, rfl⟩
  · refine ⟨⟨_, rfl⟩, ?_⟩
    intro v member
    rw [List.mem_singleton.mp member]
    exact (columns c inTable).name

theorem Plan.Built.typed {d : Dialect} {p : Plan} (built : p.Built d) : p.Typed := by
  rcases built with ⟨models, -, done⟩
  exact typed_of_build done

end SchemaMigration
