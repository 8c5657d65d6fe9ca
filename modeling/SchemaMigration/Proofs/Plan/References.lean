import SchemaMigration.Proofs.Plan.Growth

namespace SchemaMigration

/-- The plan has the table, the table has the column, and it is the key. -/
def Plan.Resolves (p : Plan) (r : Reference) : Prop :=
  ∃ t ∈ p.tables, t.name = r.table ∧ ∃ c ∈ t.columns, c.name = r.column ∧ c.isPrimaryKey

instance (p : Plan) (r : Reference) : Decidable (p.Resolves r) :=
  inferInstanceAs (Decidable (∃ t ∈ p.tables, t.name = r.table ∧ ∃ c ∈ t.columns, c.name = r.column ∧ c.isPrimaryKey))

namespace Model

def reference (m : Model) : Reference := ⟨.str m.tableName, .str m.primaryKeyName⟩

def RefersTo (m : Model) (key : String) : Prop := ∃ name ∈ m.attributeNames, Inference.referredModel? name = some key

instance (m : Model) (key : String) : Decidable (m.RefersTo key) :=
  inferInstanceAs (Decidable (∃ name ∈ m.attributeNames, Inference.referredModel? name = some key))

end Model

theorem ModelSet.reference?_eq_some_iff {models : ModelSet} (keys : (models.map (·.1)).Nodup)
    (tables : models.tableNames.Nodup) {name : String} {r : Reference} :
    Inference.reference? name (.ofModels models) = some r ↔
      ∃ entry ∈ models, Inference.referredModel? name = some entry.1 ∧ r = entry.2.reference := by
  rw [reference?_ofModels tables, Option.bind_eq_some_iff]
  constructor
  · rintro ⟨key, stands, found⟩
    rcases Option.map_eq_some_iff.mp found with ⟨m, leads, rfl⟩
    exact ⟨(key, m), mem_of_lookup_eq_some leads, stands, rfl⟩
  · rintro ⟨entry, member, stands, rfl⟩
    exact ⟨entry.1, stands, Option.map_eq_some_iff.mpr ⟨entry.2, lookup_eq_some_of_mem keys member, rfl⟩⟩

namespace Plan
variable {models : ModelSet} {d : Dialect}

/-- What holds of all references holds of the models that attributes refer to. -/
theorem forall_references_iff (keys : (models.map (·.1)).Nodup) (tables : models.tableNames.Nodup)
    (holds : Reference → Prop) :
    (∀ owner ∈ models, ∀ c ∈ buildColumns (.ofModels models) owner.2, ∀ r ∈ c.references, holds r) ↔
      ∀ owner ∈ models, ∀ target ∈ models, owner.2.RefersTo target.1 → holds target.2.reference := by
  refine forall₂_congr fun owner _ => ?_
  constructor
  · rintro all target among ⟨name, declared, stands⟩
    rcases List.mem_map.mp declared with ⟨a, inModel, rfl⟩
    have leads := (ModelSet.reference?_eq_some_iff keys tables).mpr ⟨target, among, stands, rfl⟩
    exact all _ ((mem_buildColumns ..).mpr ⟨a, inModel, rfl⟩) _ leads
  · intro all c inTable r references
    rcases (mem_buildColumns ..).mp inTable with ⟨a, declared, rfl⟩
    rcases (ModelSet.reference?_eq_some_iff keys tables).mp references with ⟨target, among, stands, rfl⟩
    exact all target among ⟨a.1, List.mem_map_of_mem declared, stands⟩

theorem forall_built_references_iff (keys : (models.map (·.1)).Nodup) (tables : models.tableNames.Nodup)
    (holds : Reference → Prop) :
    (∀ t ∈ (buildWith (.ofModels models) models d).tables, ∀ c ∈ t.columns, ∀ r ∈ c.references, holds r) ↔
      ∀ owner ∈ models, ∀ target ∈ models, owner.2.RefersTo target.1 → holds target.2.reference := by
  rw [← forall_references_iff keys tables, buildWith, List.forall_mem_map]
  rfl

theorem table_of_reference_iff (distinct : models.tableNames.Nodup) {target : String × Model} (among : target ∈ models)
    {t : Table} :
    t ∈ (buildWith (.ofModels models) models d).tables ∧ t.name = target.2.reference.table ↔
      t = buildTable (.ofModels models) target.2 := by
  constructor
  · rintro ⟨inPlan, name⟩
    rcases List.mem_map.mp inPlan with ⟨other, inModels, rfl⟩
    rw [List.inj_on_of_nodup_map distinct inModels among (Value.str.inj name)]
  · rintro rfl
    exact ⟨List.mem_map_of_mem among, rfl⟩

theorem exists_table_of_reference_iff (distinct : models.tableNames.Nodup) {target : String × Model}
    (among : target ∈ models) (holds : Table → Prop) :
    (∃ t ∈ (buildWith (.ofModels models) models d).tables, t.name = target.2.reference.table ∧ holds t) ↔
      holds (buildTable (.ofModels models) target.2) := by
  simp only [← and_assoc, table_of_reference_iff distinct among, exists_eq_left]

theorem column_buildTable_iff (outline : Outline) (m : Model) (name : String) :
    (∃ c ∈ (buildTable outline m).columns, c.name = .str name) ↔ name ∈ m.attributeNames := by
  have names : (buildTable outline m).columns.map (·.name) = m.attributeNames.map .str := by
    rw [Model.attributeNames, List.map_map]
    exact map_name_buildColumns outline m
  rw [← List.mem_map, names, List.mem_map_of_injective Value.str_injective]

theorem key_built_iff (outline : Outline) (m : Model) :
    (∃ c ∈ (buildTable outline m).columns, c.name = .str m.primaryKeyName ∧ c.isPrimaryKey) ↔
      m.primaryKeyName ∈ m.attributeNames := by
  rw [← column_buildTable_iff outline]
  refine exists_congr fun c => and_congr_right fun inTable => and_iff_left_of_imp fun name => ?_
  rcases (mem_buildColumns ..).mp inTable with ⟨a, -, rfl⟩
  exact beq_iff_eq.mpr (Value.str.inj name)

theorem resolves_reference_iff (distinct : models.tableNames.Nodup) {entry : String × Model} (member : entry ∈ models) :
    (buildWith (.ofModels models) models d).Resolves entry.2.reference ↔
      entry.2.primaryKeyName ∈ entry.2.attributeNames := by
  rw [← key_built_iff (.ofModels models)]
  exact exists_table_of_reference_iff distinct member fun t =>
    ∃ c ∈ t.columns, c.name = entry.2.reference.column ∧ c.isPrimaryKey

theorem reference_of_mem_built (distinct : models.tableNames.Nodup) {t : Table}
    (inPlan : t ∈ (buildWith (.ofModels models) models d).tables) {c : Column} (inTable : c ∈ t.columns) {r : Reference}
    (references : c.references = some r) :
    ∃ name entry, entry ∈ models ∧ c.name = .str name ∧ Inference.referredModel? name = some entry.1 ∧
      r = entry.2.reference := by
  rcases List.mem_map.mp inPlan with ⟨owner, -, rfl⟩
  rcases (mem_buildColumns ..).mp inTable with ⟨a, -, rfl⟩
  have resolved : Inference.reference? a.1 (.ofModels models) = some r := references
  rw [ModelSet.reference?_ofModels distinct, Option.bind_eq_some_iff] at resolved
  rcases resolved with ⟨key, named, found⟩
  rcases Option.map_eq_some_iff.mp found with ⟨m, declared, rfl⟩
  exact ⟨a.1, (key, m), mem_of_lookup_eq_some declared, rfl, named, rfl⟩

/--
A column of a built plan that has references names the table of the model that its own name stands for and
that model's key. The table is in the plan; the column is in the table, and is then its key, exactly if the model
declares the attribute of its key.
-/
theorem references_resolve_iff {p : Plan} (built : build models d = .ok p) :
    ∀ t ∈ p.tables, ∀ c ∈ t.columns, ∀ r, c.references = some r →
      ∃ name entry, entry ∈ models ∧ c.name = .str name ∧ Inference.referredModel? name = some entry.1 ∧
        r = entry.2.reference ∧ (∃ target ∈ p.tables, target.name = r.table) ∧
        (p.Resolves r ↔ entry.2.primaryKeyName ∈ entry.2.attributeNames) := by
  rcases build_eq_ok_iff.mp built with ⟨distinct, rfl⟩
  intro t inPlan c inTable r references
  rcases reference_of_mem_built distinct inPlan inTable references with ⟨name, entry, member, column, stands, rfl⟩
  exact ⟨name, entry, member, column, stands, rfl, ⟨_, List.mem_map_of_mem member, rfl⟩,
    resolves_reference_iff distinct member⟩

def authoredPosts : ModelSet :=
  [("Post", { name := "Post", attributes := [("id", {}), ("user_id", {})] }),
    ("User", { name := "User", table := some "members", primaryKey := some "code", attributes := [("code", {})] })]

theorem authors_found : build authoredPosts .mysql = .ok (buildWith (.ofModels authoredPosts) authoredPosts .mysql) ∧
    (buildWith (.ofModels authoredPosts) authoredPosts .mysql).Resolves ⟨.str "members", .str "code"⟩ := by
  have built : build authoredPosts .mysql = .ok (buildWith (.ofModels authoredPosts) authoredPosts .mysql) :=
    build_eq_ok_iff.mpr ⟨by decide, rfl⟩
  have declared : ∀ entry ∈ authoredPosts, entry.2.primaryKeyName ∈ entry.2.attributeNames := by decide
  rcases references_resolve_iff built _ List.mem_cons_self _ (List.mem_cons_of_mem _ List.mem_cons_self)
    ⟨.str "members", .str "code"⟩ (by decide) with ⟨name, entry, member, -, -, -, -, resolves⟩
  exact ⟨built, resolves.mpr (declared entry member)⟩

def keylessAuthors : ModelSet :=
  [("Post", { name := "Post", attributes := [("id", {}), ("user_id", {})] }),
    ("User", { name := "User", attributes := [("name", {})] })]

/-- The key of a model need not be one of its attributes, so a reference may lead to no column. -/
theorem authors_without_key : ¬ ∀ (models : ModelSet) (d : Dialect) (p : Plan), models.Accepted →
    build models d = .ok p → ∀ t ∈ p.tables, ∀ c ∈ t.columns, ∀ r, c.references = some r → p.Resolves r := by
  intro claimed
  have built : build keylessAuthors .postgres = .ok (postgresOf keylessAuthors) :=
    build_eq_ok_iff.mpr ⟨by decide, rfl⟩
  have resolves := claimed keylessAuthors .postgres _ (by decide) built _ List.mem_cons_self _
    (List.mem_cons_of_mem _ List.mem_cons_self) ⟨.str "users", .str "id"⟩ (by decide)
  exact absurd resolves (by decide)

end Plan
end SchemaMigration
