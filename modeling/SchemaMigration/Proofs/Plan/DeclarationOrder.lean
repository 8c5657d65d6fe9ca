import SchemaMigration.Proofs.Model.Containment
import SchemaMigration.Proofs.Plan.Growth
/-!
The order in which models are declared is the order of their tables and nothing else. References are resolved by the
name of a model and the name of a table, and both tell the models apart, so each model has the same table wherever it
stands.
-/
namespace SchemaMigration

namespace ModelSet
variable {models permuted : ModelSet}

theorem reference?_of_perm (keys : (models.map (·.1)).Nodup) (tables : models.tableNames.Nodup)
    (order : permuted.Perm models) (name : String) :
    Inference.reference? name (.ofModels permuted) = Inference.reference? name (.ofModels models) := by
  have permutedTables : permuted.tableNames.Nodup := (order.map _).nodup_iff.mpr tables
  rw [reference?_ofModels permutedTables, reference?_ofModels tables]
  simp only [lookup_eq_of_perm keys order]

theorem Accepted.of_perm (accepted : models.Accepted) (order : permuted.Perm models) : permuted.Accepted where
  keysDistinct := (order.map _).nodup_iff.mpr accepted.keysDistinct
  models := fun entry member => accepted.models entry (order.mem_iff.mp member)

def declared (entry : String × Value) : String × Model :=
  (entry.1, (readEntry entry.1 entry.2).toOption.getD { name := entry.1 })

theorem readEntries_eq_ok_iff {entries : List (String × Value)} :
    readEntries entries = .ok models ↔
      (∀ entry ∈ entries, ∃ m, readEntry entry.1 entry.2 = .ok m) ∧ models = entries.map declared := by
  induction entries generalizing models with
  | nil => simp [readEntries, eq_comm]
  | cons entry rest ih =>
      constructor
      · intro done
        rcases bind_eq_ok done with ⟨m, first, done⟩
        rcases bind_eq_ok done with ⟨others, later, done⟩
        cases done
        rcases ih.mp later with ⟨read, rfl⟩
        refine ⟨List.forall_mem_cons.mpr ⟨⟨m, first⟩, read⟩, ?_⟩
        rw [List.map_cons, declared, first]
        rfl
      · intro given
        rcases given with ⟨read, rfl⟩
        rcases List.forall_mem_cons.mp read with ⟨⟨m, first⟩, others⟩
        rw [readEntries, first, ih.mpr ⟨others, rfl⟩, List.map_cons, declared, first]
        rfl

end ModelSet

namespace Plan
variable {models permuted : ModelSet} {d : Dialect} {p : Plan}

/-- The table of a model depends on the other models by the references of its attributes only. -/
theorem buildTable_eq_iff {first second : Outline} {m : Model} :
    buildTable first m = buildTable second m ↔
      ∀ name ∈ m.attributeNames, Inference.reference? name first = Inference.reference? name second := by
  constructor
  · intro same name member
    rcases List.mem_map.mp member with ⟨a, declared, rfl⟩
    have columns : buildColumns first m = buildColumns second m := congrArg Table.columns same
    exact congrArg Column.references (List.map_inj_left.mp columns a declared)
  · intro same
    have columns : buildColumns first m = buildColumns second m := by
      apply List.map_congr_left
      intro a declared
      have reference := same a.1 (List.mem_map_of_mem declared)
      simp only [Inference.column, Option.bind_some, reference]
    rw [buildTable, buildTable, columns]

/-- Both plans have the same table for each item, in the places of the items. -/
structure Rearranged {α : Type} (items others : List α) (p q : Plan) : Prop where
  dialect : q.dialect = p.dialect
  tables : ∃ tableOf : α → Table, p.tables = items.map tableOf ∧ q.tables = others.map tableOf

theorem Rearranged.reverse {α : Type} {items : List α} {q : Plan} (rearranged : Rearranged items items.reverse p q) :
    q.tables = p.tables.reverse := by
  rcases rearranged.tables with ⟨tableOf, tables, others⟩
  rw [tables, others, List.map_reverse]

theorem build_of_perm (keys : (models.map (·.1)).Nodup) (order : permuted.Perm models)
    (built : build models d = .ok p) : ∃ q, build permuted d = .ok q ∧ Rearranged models permuted p q := by
  rcases build_eq_ok_iff.mp built with ⟨tables, rfl⟩
  have permutedTables : permuted.tableNames.Nodup := (order.map _).nodup_iff.mpr tables
  refine ⟨_, build_eq_ok_iff.mpr ⟨permutedTables, rfl⟩, rfl, fun entry => buildTable (.ofModels models) entry.2, rfl, ?_⟩
  apply List.map_congr_left
  intro entry _
  exact buildTable_eq_iff.mpr fun name _ => ModelSet.reference?_of_perm keys tables order name

theorem read_eq_ok_iff {entries : List (String × Value)} {dialect : Value} :
    Plan.read (.dict entries) dialect = .ok p ↔
      ∃ models d, ModelSet.readEntries entries = .ok models ∧ Dialect.read dialect = .ok d ∧ build models d = .ok p := by
  constructor
  · intro done
    rcases bind_eq_ok done with ⟨models, modelsRead, done⟩
    rcases bind_eq_ok done with ⟨outline, -, done⟩
    rcases bind_eq_ok done with ⟨d, dialectRead, done⟩
    refine ⟨models, d, ModelSet.read_eq_ok_iff.mp modelsRead, dialectRead, ?_⟩
    rw [buildFrom] at done
    split at done
    case h_1 plan built =>
      cases done
      exact built
    case h_2 => cases done
  · intro given
    rcases given with ⟨models, d, modelsRead, dialectRead, built⟩
    have outlined : models.checkedOutline = .ok (.ofModels models) := by
      rw [ModelSet.checkedOutline, ModelSet.outline_eq_ok_iff.mpr ⟨(build_eq_ok_iff.mp built).1, rfl⟩]
    have finished : buildFrom models d = .ok p := by rw [buildFrom, built]
    simp only [Plan.read, ModelSet.read_eq_ok_iff.mpr modelsRead, outlined, dialectRead, finished, bind, Except.bind]

/--
Where a model set has a plan, so has every permutation of it, with the same table for each model at the place of that
model. This holds of models and of what they are read from.
-/
theorem order_of_declaration :
    (∀ (models permuted : ModelSet) (d : Dialect) (p : Plan), (models.map (·.1)).Nodup → permuted.Perm models →
      build models d = .ok p → ∃ q, build permuted d = .ok q ∧ Rearranged models permuted p q) ∧
    ∀ (entries permuted : List (String × Value)) (dialect : Value) (p : Plan), (entries.map (·.1)).Nodup →
      permuted.Perm entries → Plan.read (.dict entries) dialect = .ok p →
        ∃ q, Plan.read (.dict permuted) dialect = .ok q ∧ Rearranged entries permuted p q := by
  refine ⟨fun models permuted d p => build_of_perm, ?_⟩
  intro entries permuted dialect p keys order done
  rcases read_eq_ok_iff.mp done with ⟨models, d, read, dialectRead, built⟩
  rcases ModelSet.readEntries_eq_ok_iff.mp read with ⟨each, rfl⟩
  have modelKeys : ((entries.map ModelSet.declared).map (·.1)).Nodup := by
    rw [List.map_map]
    exact keys
  have permutedRead : ModelSet.readEntries permuted = .ok (permuted.map ModelSet.declared) :=
    ModelSet.readEntries_eq_ok_iff.mpr ⟨fun entry member => each entry (order.mem_iff.mp member), rfl⟩
  rcases build_of_perm modelKeys (order.map _) built with ⟨q, permutedBuilt, dialect, tableOf, tables, permutedTables⟩
  refine ⟨q, read_eq_ok_iff.mpr ⟨_, d, permutedRead, dialectRead, permutedBuilt⟩, dialect, tableOf ∘ ModelSet.declared, ?_⟩
  rw [tables, permutedTables, List.map_map, List.map_map]
  exact ⟨rfl, rfl⟩

def postsOfUsers : List (String × Value) :=
  [("Post", .dict [("attributes", .dict [("id", .dict []), ("user_id", .dict [])])]),
    ("User", .dict [("primaryKey", .str "code"), ("attributes", .dict [("code", .dict []), ("post_id", .dict [])])])]

theorem users_before_their_posts :
    (∃ p q, build (postsOfUsers.map ModelSet.declared) .sqlite = .ok p ∧
      build (postsOfUsers.reverse.map ModelSet.declared) .sqlite = .ok q ∧ q.tables = p.tables.reverse) ∧
    ∃ p q, Plan.read (.dict postsOfUsers) (.str "mysql") = .ok p ∧
      Plan.read (.dict postsOfUsers.reverse) (.str "mysql") = .ok q ∧ q.tables = p.tables.reverse := by
  constructor
  · have built : build (postsOfUsers.map ModelSet.declared) .sqlite = .ok _ := build_eq_ok_iff.mpr ⟨by decide, rfl⟩
    rcases order_of_declaration.1 _ (postsOfUsers.map ModelSet.declared).reverse _ _ (by decide) (List.reverse_perm _)
      built with ⟨q, permuted, rearranged⟩
    rw [List.map_reverse]
    exact ⟨_, q, built, permuted, rearranged.reverse⟩
  · have read := eq_ok_of_toOption (x := Plan.read (.dict postsOfUsers) (.str "mysql"))
      (a := buildWith (.ofModels (postsOfUsers.map ModelSet.declared)) (postsOfUsers.map ModelSet.declared) .mysql)
      (by decide +kernel)
    rcases order_of_declaration.2 _ postsOfUsers.reverse _ _ (by decide) (List.reverse_perm _) read with
      ⟨q, permuted, rearranged⟩
    exact ⟨_, q, read, permuted, rearranged.reverse⟩

end Plan
end SchemaMigration
