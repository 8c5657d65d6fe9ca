import SchemaMigration.Proofs.Plan.ObjectNames
import SchemaMigration.Proofs.Plan.SafeNames

namespace SchemaMigration
open Identifier

/-- Names as they come from accepted models; a column with a foreign key is named for a key. -/
structure Plan.Spelled (p : Plan) : Prop where
  tables : ∀ t ∈ p.tables, IsSpelled t.name.text
  columns : ∀ t ∈ p.tables, ∀ c ∈ t.columns, IsSpelled c.name.text
  keys : ∀ t ∈ p.tables, ∀ name ∈ t.keyTexts, Inference.endsIn "_id" name
  indexes : ∀ t ∈ p.tables, ∀ name ∈ t.indexTexts, IsSpelled name

namespace Model
variable {m : Model}

theorem isSpelled_tableName (accepted : m.Accepted) : IsSpelled m.tableName := by
  cases declared : m.table with
  | some table =>
      have name : m.tableName = table := by rw [tableName, declared, Option.getD_some]
      rw [name]
      exact isSpelled_of_accepts (accepted.table table declared)
  | none =>
      rw [tableName, declared, Option.getD_none]
      exact (isSpelled_of_accepts accepted.name).lower.append_ending (by decide)

theorem isSpelled_of_mem_indexTexts (accepted : m.Accepted) {name : String} (listed : name ∈ m.indexTexts) :
    IsSpelled name := by
  rcases List.mem_append.mp listed with declared | derived
  · rcases List.mem_map.mp declared with ⟨i, member, rfl⟩
    exact isSpelled_of_accepts (accepted.indexes i member).name
  · rcases List.mem_map.mp derived with ⟨a, unique, rfl⟩
    have declared := accepted.attributeNames a (List.mem_filter.mp unique).1
    exact (isSpelled_of_accepts declared).append_ending (by decide)

theorem endsIn_of_mem_referringNames {models : ModelSet} {name : String} (refers : name ∈ models.referringNames m) :
    Inference.endsIn "_id" name := by
  have leads := (List.mem_filter.mp refers).2
  by_contra other
  simp [Inference.referredModel?, other] at leads

end Model

theorem Plan.Built.spelled {d : Dialect} {p : Plan} (built : p.Built d) : p.Spelled := by
  rcases built with ⟨models, accepted, done⟩
  rcases Plan.build_eq_ok_iff.mp done with ⟨distinct, rfl⟩
  have each := accepted.models
  refine ⟨?_, ?_, ?_, ?_⟩ <;> simp only [Plan.buildWith, List.forall_mem_map]
  · exact fun entry member => Model.isSpelled_tableName (each entry member)
  · intro entry member c inTable
    rcases (Plan.mem_buildColumns ..).mp inTable with ⟨a, declared, rfl⟩
    exact isSpelled_of_accepts ((each entry member).attributeNames a declared)
  · intro entry member
    rw [ModelSet.keyTexts_buildTable distinct]
    exact fun name => Model.endsIn_of_mem_referringNames
  · intro entry member
    rw [Model.indexTexts_buildTable]
    exact fun name => Model.isSpelled_of_mem_indexTexts (each entry member)

end SchemaMigration
