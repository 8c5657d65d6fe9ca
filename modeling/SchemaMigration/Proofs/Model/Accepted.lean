import SchemaMigration.Model.Set
import SchemaMigration.Value.Equality
import Mathlib.Tactic.MkIffOfInductiveProp

namespace SchemaMigration

deriving instance DecidableEq for Attribute, IndexDefinition, Model

@[mk_iff] structure Attribute.Accepted (a : Attribute) : Prop where
  someValues : a.enumValues ≠ some []
  enumValues : a.type = some .enum → a.enumValues ≠ none
  undeclared : a.hasDefault = false → a.default = .null

@[mk_iff] structure IndexDefinition.Accepted (i : IndexDefinition) : Prop where
  name : Identifier.accepts i.name
  someColumns : i.columns ≠ []

@[mk_iff] structure Model.Accepted (m : Model) : Prop where
  name : Identifier.accepts m.name
  table : ∀ t ∈ m.table, Identifier.accepts t
  primaryKey : ∀ k ∈ m.primaryKey, Identifier.accepts k
  attributeNames : ∀ a ∈ m.attributes, Identifier.accepts a.1
  attributesDistinct : (m.attributes.map (·.1)).Nodup
  attributes : ∀ a ∈ m.attributes, a.2.Accepted
  indexes : ∀ i ∈ m.indexes, i.Accepted

@[mk_iff] structure ModelSet.Accepted (models : ModelSet) : Prop where
  keysDistinct : (models.map (·.1)).Nodup
  models : ∀ entry ∈ models, entry.2.Accepted

instance (a : Attribute) : Decidable a.Accepted := decidable_of_iff' _ (Attribute.accepted_iff a)

instance (i : IndexDefinition) : Decidable i.Accepted := decidable_of_iff' _ (IndexDefinition.accepted_iff i)

instance (m : Model) : Decidable m.Accepted := decidable_of_iff' _ (Model.accepted_iff m)

instance (models : ModelSet) : Decidable models.Accepted := decidable_of_iff' _ (ModelSet.accepted_iff models)

end SchemaMigration
