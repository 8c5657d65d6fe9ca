import SchemaMigration.Proofs.History.Recreation
import SchemaMigration.Proofs.Plan.Growth
import Mathlib.Data.Set.BooleanAlgebra
import Mathlib.Order.CompletePartialOrder

namespace SchemaMigration

/-- What plans have in common when names, references and the keys of indexes are all that counts. -/
inductive Feature where
  | table (name : Value)
  | column (table name : Value)
  | foreignKey (table column : Value) (target : Reference)
  | index (table : Value) (key : String)
  | enumType (name : String)
  deriving DecidableEq

def featuresOf (d : Dialect) (statements : List Statement) : Set Feature
  | .table name => .table name ∈ created d statements
  | .column table name => .column table name ∈ created d statements
  | .foreignKey table name target => .foreignKey table name target ∈ created d statements
  | .index table key => ∃ i, i.key = key ∧ .index table i ∈ created d statements
  | .enumType name => .enumType name ∈ created d statements

theorem featuresOf_nil (d : Dialect) : featuresOf d [] = ∅ := by
  apply Set.eq_empty_of_forall_notMem
  intro feature
  cases feature with
  | table | column | foreignKey | enumType => exact List.not_mem_nil
  | index table key => exact fun given => given.elim fun i present => List.not_mem_nil present.2

theorem featuresOf_append (d : Dialect) (first second : List Statement) :
    featuresOf d (first ++ second) = featuresOf d first ∪ featuresOf d second := by
  have objects : ∀ object, object ∈ created d (first ++ second) ↔
      object ∈ created d first ∨ object ∈ created d second := by simp
  ext feature
  cases feature with
  | table | column | foreignKey | enumType => exact objects _
  | index table key =>
      constructor
      · intro given
        rcases given with ⟨i, same, isCreated⟩
        exact ((objects _).mp isCreated).imp (⟨i, same, ·⟩) (⟨i, same, ·⟩)
      · intro given
        rcases given with ⟨i, same, early⟩ | ⟨i, same, late⟩
        · exact ⟨i, same, (objects _).mpr (.inl early)⟩
        · exact ⟨i, same, (objects _).mpr (.inr late)⟩

namespace Plan

/-- The features that a database has which was made for the plan. -/
def features (p : Plan) : Set Feature
  | .table name => .table name ∈ p.inventory
  | .column table name => .column table name ∈ p.inventory
  | .foreignKey table name target =>
    ∃ t ∈ p.tables, t.name = table ∧ ∃ c ∈ t.columns, c.name = name ∧ c.references = some target
  | .index table key => ∃ t ∈ p.tables, t.name = table ∧ ∃ i ∈ t.indexes, i.key = key
  | .enumType name => .enumType name ∈ p.inventory

/-- Every table, column and index of a plan is also in another one, unchanged. -/
def KeptIn (p q : Plan) : Prop :=
  ∀ t ∈ p.tables, ∃ after ∈ q.tables, after.name = t.name ∧ t.columns ⊆ after.columns ∧ t.indexes ⊆ after.indexes

instance (p q : Plan) : Decidable (p.KeptIn q) := inferInstanceAs (Decidable (∀ _ ∈ _, _))

variable {d : Dialect} {p q r : Plan}

theorem KeptIn.trans (first : p.KeptIn q) (second : q.KeptIn r) : p.KeptIn r := by
  intro t inFirst
  rcases first t inFirst with ⟨after, inSecond, name, columns, indexes⟩
  rcases second after inSecond with ⟨later, inThird, laterName, laterColumns, laterIndexes⟩
  exact ⟨later, inThird, laterName.trans name, List.Subset.trans columns laterColumns,
    List.Subset.trans indexes laterIndexes⟩

theorem KeptIn.growsTo (kept : p.KeptIn q) : p.GrowsTo q := by
  intro t inPlan
  rcases kept t inPlan with ⟨after, inGrown, name, columns, indexes⟩
  exact ⟨after, inGrown, name, fun c inTable => ⟨c, columns inTable, rfl⟩, indexes⟩

theorem KeptIn.features_subset (kept : p.KeptIn q) (past : p.dialect = d) (now : q.dialect = d) :
    p.features ⊆ q.features := by
  have named := kept.growsTo.inventory_subset past now
  intro feature member
  cases feature with
  | table | column | enumType => exact named member
  | foreignKey =>
      rcases member with ⟨t, inPlan, rfl, c, inTable, rfl, references⟩
      rcases kept t inPlan with ⟨after, inGrown, name, columns, -⟩
      exact ⟨after, inGrown, name, c, columns inTable, rfl, references⟩
  | index =>
      rcases member with ⟨t, inPlan, rfl, i, inTable, rfl⟩
      rcases kept t inPlan with ⟨after, inGrown, name, -, indexes⟩
      exact ⟨after, inGrown, name, i, indexes inTable, rfl⟩

end Plan

namespace Diff
variable {d : Dialect} {p q r : Plan}

theorem named_mem_created_iff (past : p.Regular d) (now : q.Regular d) (kept : p.KeptIn q) {object : SchemaObject}
    (named : object.isNamed) :
    object ∈ created d (statements (some p) q).value ↔ object ∈ q.inventory ∧ object ∉ p.inventory := by
  constructor
  · exact new_of_created past now named
  · intro new
    exact named_mem_created_growing past now kept.growsTo new.1 new.2

theorem foreignKey_mem_created_iff (past : p.Regular d) (now : q.Regular d) (kept : p.KeptIn q)
    (table name : Value) (target : Reference) :
    .foreignKey table name target ∈ created d (statements (some p) q).value ↔
      Feature.foreignKey table name target ∈ q.features \ p.features := by
  rw [foreignKey_mem_created past.dialect now.dialect]
  constructor
  · intro given
    rcases given with ⟨t, inGrown, rfl, c, isCreated, rfl, references⟩
    rcases (mem_createdIn past.toWellNamed now.toWellNamed inGrown c).mp isCreated with ⟨inTable, new⟩
    refine ⟨⟨t, inGrown, rfl, c, inTable, rfl, references⟩, ?_⟩
    intro old
    rcases old with ⟨former, inPlan, sameTable, b, inFormer, sameColumn, -⟩
    exact new ((p.column_mem_inventory ..).mpr ⟨former, inPlan, sameTable, b, inFormer, sameColumn⟩)
  · intro given
    rcases given with ⟨⟨t, inGrown, rfl, c, inTable, rfl, references⟩, new⟩
    refine ⟨t, inGrown, rfl, c, ?_, rfl, references⟩
    rcases former_or_created past now inGrown inTable with ⟨former, inPlan, sameTable, b, inFormer, sameColumn⟩ | isCreated
    · rcases kept former inPlan with ⟨after, afterIn, afterName, columns, -⟩
      obtain rfl := now.table_eq afterIn inGrown (afterName.trans sameTable.symm)
      obtain rfl := now.column_eq inGrown (columns inFormer) inTable sameColumn.symm
      exact absurd ⟨former, inPlan, sameTable.symm, b, inFormer, rfl, references⟩ new
    · exact isCreated

theorem index_mem_created_iff (past : p.Regular d) (now : q.Regular d) (table : Value) (key : String) :
    (∃ i, i.key = key ∧ .index table i ∈ created d (statements (some p) q).value) ↔
      Feature.index table key ∈ q.features \ p.features := by
  simp only [index_mem_created past.dialect now.dialect]
  constructor
  · intro given
    rcases given with ⟨i, rfl, t, inGrown, rfl, isCreated⟩
    rcases (mem_createdIndexes past.toWellNamed (now.tableTexts t inGrown) i).mp isCreated with ⟨inTable, new⟩
    refine ⟨⟨t, inGrown, rfl, i, inTable, rfl⟩, ?_⟩
    intro old
    rcases old with ⟨former, inPlan, sameTable, other, inFormer, sameKey⟩
    have had := (Plan.hasIndex_iff former.indexes i).mpr ⟨other, inFormer, sameKey⟩
    rw [new former inPlan sameTable] at had
    cases had
  · intro given
    rcases given with ⟨⟨t, inGrown, rfl, i, inTable, rfl⟩, new⟩
    refine ⟨i, rfl, t, inGrown, rfl, ?_⟩
    refine (mem_createdIndexes past.toWellNamed (now.tableTexts t inGrown) i).mpr ⟨inTable, ?_⟩
    intro former inPlan sameTable
    rw [← Bool.not_eq_true, Plan.hasIndex_iff]
    intro had
    rcases had with ⟨other, inFormer, sameKey⟩
    exact new ⟨former, inPlan, sameTable, other, inFormer, sameKey⟩

theorem featuresOf_statements (past : p.Regular d) (now : q.Regular d) (kept : p.KeptIn q) :
    featuresOf d (statements (some p) q).value = q.features \ p.features := by
  ext feature
  cases feature with
  | table | column | enumType => exact named_mem_created_iff past now kept rfl
  | foreignKey table name target => exact foreignKey_mem_created_iff past now kept table name target
  | index table key => exact index_mem_created_iff past now table key

theorem path_independent (first : p.Regular d) (second : q.Regular d) (third : r.Regular d) (kept : p.KeptIn q)
    (keptOn : q.KeptIn r) :
    featuresOf d (statements (some p) r).value =
        featuresOf d (statements (some p) q).value ∪ featuresOf d (statements (some q) r).value ∧
      Disjoint (featuresOf d (statements (some p) q).value) (featuresOf d (statements (some q) r).value) := by
  rw [featuresOf_statements first second kept, featuresOf_statements second third keptOn,
    featuresOf_statements first third (kept.trans keptOn)]
  have grown := kept.features_subset first.dialect second.dialect
  have grownOn := keptOn.features_subset second.dialect third.dialect
  constructor
  · rw [Set.union_comm]
    exact (Set.sdiff_union_sdiff_cancel grownOn grown).symm
  · exact disjoint_sdiff_self_right.mono_left Set.sdiff_subset

def ticketModel (attributes : List (String × Attribute)) (indexes : List IndexDefinition) : Model :=
  { name := "Ticket", attributes := ("id", {}) :: attributes, indexes }

def state : String × Attribute := ("state", { enumValues := some ["open", "closed"] })

def byState : IndexDefinition := ⟨"by_state", ["state"]⟩

def ticketsOnly : ModelSet := [("Ticket", ticketModel [] [])]

def ticketsWithState : ModelSet := [("Ticket", ticketModel [state] [byState])]

def ticketsWithAgents : ModelSet :=
  [("Ticket", ticketModel [state, ("agent_id", {})] [byState]),
    ("Agent", { name := "Agent", attributes := [("id", {}), state] })]

theorem tickets_on_two_paths :
    (Plan.postgresOf ticketsOnly).KeptIn (Plan.postgresOf ticketsWithState) ∧
      (Plan.postgresOf ticketsWithState).KeptIn (Plan.postgresOf ticketsWithAgents) ∧
      Feature.enumType "state_type" ∉ featuresOf .postgres
        (statements (some (Plan.postgresOf ticketsWithState)) (Plan.postgresOf ticketsWithAgents)).value := by
  have first : (Plan.postgresOf ticketsOnly).Regular .postgres := (Plan.postgresOf_built (by decide) (by decide)).regular
  have second : (Plan.postgresOf ticketsWithState).Regular .postgres :=
    (Plan.postgresOf_built (by decide) (by decide)).regular
  have third : (Plan.postgresOf ticketsWithAgents).Regular .postgres :=
    (Plan.postgresOf_built (by decide) (by decide)).regular
  have kept : (Plan.postgresOf ticketsOnly).KeptIn (Plan.postgresOf ticketsWithState) := by decide
  have keptOn : (Plan.postgresOf ticketsWithState).KeptIn (Plan.postgresOf ticketsWithAgents) := by decide
  have early : Feature.enumType "state_type" ∈ featuresOf .postgres
      (statements (some (Plan.postgresOf ticketsOnly)) (Plan.postgresOf ticketsWithState)).value := by
    change SchemaObject.enumType "state_type" ∈ created .postgres _
    decide
  exact ⟨kept, keptOn, Set.disjoint_left.mp (path_independent first second third kept keptOn).2 early⟩

end Diff

namespace History
variable {d : Dialect}

theorem features_subset_last {base : Plan} {plans : List Plan} (start : base.Regular d)
    (regular : ∀ p ∈ plans, p.Regular d) (kept : List.IsChain Plan.KeptIn (base :: plans)) :
    base.features ⊆ ((base :: plans).getLast (List.cons_ne_nil base plans)).features := by
  induction plans generalizing base with
  | nil => exact subset_rfl
  | cons p rest ih =>
      rcases List.isChain_cons_cons.mp kept with ⟨first, others⟩
      have next := regular p List.mem_cons_self
      have later := ih next (fun q member => regular q (List.mem_cons_of_mem p member)) others
      rw [List.getLast_cons (List.cons_ne_nil p rest)]
      exact (first.features_subset start.dialect next.dialect).trans later

theorem featuresOf_migrations {base : Plan} {plans : List Plan} (start : base.Regular d)
    (regular : ∀ p ∈ plans, p.Regular d) (kept : List.IsChain Plan.KeptIn (base :: plans)) :
    featuresOf d (migrations (some base) plans) =
      ((base :: plans).getLast (List.cons_ne_nil base plans)).features \ base.features := by
  induction plans generalizing base with
  | nil => rw [migrations, featuresOf_nil, List.getLast_singleton, Set.sdiff_self]
  | cons p rest ih =>
      rcases List.isChain_cons_cons.mp kept with ⟨first, others⟩
      have next := regular p List.mem_cons_self
      have restRegular : ∀ q ∈ rest, q.Regular d := fun q member => regular q (List.mem_cons_of_mem p member)
      rw [migrations, featuresOf_append, Diff.featuresOf_statements start next first, ih next restRegular others,
        List.getLast_cons (List.cons_ne_nil p rest), Set.union_comm]
      exact Set.sdiff_union_sdiff_cancel (features_subset_last next restRegular others)
        (first.features_subset start.dialect next.dialect)

end History
end SchemaMigration
