import SchemaMigration.Proofs.Migration.Growth
import SchemaMigration.Proofs.Plan.Built

namespace SchemaMigration

structure Model.GrowsTo (m grown : Model) : Prop where
  name : grown.name = m.name
  table : grown.table = m.table
  primaryKey : grown.primaryKey = m.primaryKey
  attributes : m.attributes ⊆ grown.attributes
  indexes : m.indexes ⊆ grown.indexes

def ModelSet.GrowsTo (models grown : ModelSet) : Prop :=
  ∀ former ∈ models, ∃ after ∈ grown, after.1 = former.1 ∧ former.2.GrowsTo after.2

def Model.attributeNames (m : Model) : List String := m.attributes.map (·.1)

namespace Model.GrowsTo
variable {m grown : Model} (growth : m.GrowsTo grown)
include growth

theorem tableName : grown.tableName = m.tableName := by
  rw [Model.tableName, Model.tableName, growth.table, growth.name]

theorem primaryKeyName : grown.primaryKeyName = m.primaryKeyName := by
  rw [Model.primaryKeyName, Model.primaryKeyName, growth.primaryKey]

end Model.GrowsTo

namespace Plan
variable {m grown : Model} {former later : Outline}

theorem mem_buildColumns (outline : Outline) (m : Model) (c : Column) :
    c ∈ buildColumns outline m ↔
      ∃ a ∈ m.attributes, c = Inference.column a.1 a.2 (a.1 == m.primaryKeyName) (some outline) := by
  simp [buildColumns, eq_comm]

theorem buildColumns_grow (later : Outline) (growth : m.GrowsTo grown) {c : Column}
    (inTable : c ∈ buildColumns former m) :
    ∃ kept ∈ buildColumns later grown, kept = { c with references := kept.references } := by
  rcases (mem_buildColumns ..).mp inTable with ⟨a, declared, rfl⟩
  refine ⟨_, (mem_buildColumns ..).mpr ⟨a, growth.attributes declared, rfl⟩, ?_⟩
  rw [growth.primaryKeyName]
  rfl

theorem buildTable_growsTo (growth : m.GrowsTo grown) :
    (buildTable former m).GrowsTo (buildTable later grown) where
  name := congrArg Value.str growth.tableName
  columns := fun c inTable => buildColumns_grow later growth inTable
  indexes := by
    intro i member
    simp only [buildTable, List.mem_append, List.mem_map, List.mem_filter] at member ⊢
    rcases member with ⟨declared, listed, rfl⟩ | ⟨c, ⟨inTable, unique⟩, rfl⟩
    · exact .inl ⟨declared, growth.indexes listed, rfl⟩
    · rcases buildColumns_grow later growth inTable with ⟨kept, keptIn, alike⟩
      refine .inr ⟨kept, ⟨keptIn, ?_⟩, ?_⟩
      · rwa [alike]
      · rw [alike]
        rfl

theorem keys_completable_iff :
    (∀ c ∈ buildColumns later grown, c.isPrimaryKey → ∃ b ∈ buildColumns former m, b.name = c.name) ↔
      (grown.primaryKeyName ∈ grown.attributeNames → grown.primaryKeyName ∈ m.attributeNames) := by
  simp only [mem_buildColumns, Model.attributeNames, List.mem_map]
  constructor
  · rintro keys ⟨a, declared, name⟩
    rcases keys _ ⟨a, declared, rfl⟩ (by simp [Inference.column, name]) with ⟨b, ⟨e, inFormer, rfl⟩, same⟩
    exact ⟨e, inFormer, (Value.str.inj same).trans name⟩
  · rintro keys c ⟨a, declared, rfl⟩ key
    have name : a.1 = grown.primaryKeyName := by simpa [Inference.column] using key
    rcases keys ⟨a, declared, name⟩ with ⟨e, inFormer, same⟩
    exact ⟨_, ⟨e, inFormer, rfl⟩, congrArg Value.str (same.trans name.symm)⟩

theorem references_completable_iff (growth : m.GrowsTo grown) :
    (∀ b ∈ buildColumns former m, ∀ c ∈ buildColumns later grown,
        c.name = b.name → c.references = b.references) ↔
      ∀ a ∈ m.attributes, Inference.reference? a.1 later = Inference.reference? a.1 former := by
  simp only [mem_buildColumns]
  constructor
  · intro references a declared
    exact references _ ⟨a, declared, rfl⟩ _ ⟨a, growth.attributes declared, rfl⟩ rfl
  · rintro references b ⟨a, declared, rfl⟩ c ⟨e, -, rfl⟩ same
    have name : e.1 = a.1 := Value.str.inj same
    change Inference.reference? e.1 later = Inference.reference? a.1 former
    rw [name, references a declared]

theorem declaredIndex_injective : Function.Injective declaredIndex := by
  rintro ⟨name, columns⟩ ⟨other, others⟩ same
  rcases Index.mk.inj same with ⟨names, lists, -⟩
  exact congrArg₂ IndexDefinition.mk (Value.str.inj names) (Value.str_injective.list_map lists)

theorem kind_eq_of_key_eq {i j : Index} (same : i.key = j.key) : i.kind = j.kind := by
  have first := congrArg (fun key : String => key.toList.head?) same
  cases plain : i.kind <;> cases other : j.kind <;> simp [Index.key, plain, other, IndexKind.name] at first ⊢

theorem name_eq_of_uniqueIndex_key {name other : String} {b c : Column} (first : b.name = .str name)
    (second : c.name = .str other) (same : (uniqueIndex b).key = (uniqueIndex c).key) : name = other := by
  have texts := congrArg String.toList same
  simp only [Index.key, uniqueIndex, first, second, Value.text, String.toList_append, List.map_cons,
    List.map_nil, String.intercalate_singleton, List.append_assoc, List.append_cancel_left_eq] at texts
  have lengths : name.toList.length = other.toList.length := by
    have sizes := congrArg List.length texts
    simp only [List.length_append] at sizes
    omega
  exact String.toList_injective (List.append_inj texts lengths).1

theorem mem_indexes_buildTable (outline : Outline) (m : Model) (i : Index) :
    i ∈ (buildTable outline m).indexes ↔
      (∃ declared ∈ m.indexes, declaredIndex declared = i) ∨
        ∃ c ∈ buildColumns outline m, (c.isUnique && !c.isPrimaryKey) ∧ uniqueIndex c = i := by
  simp only [buildTable, List.mem_append, List.mem_map, List.mem_filter, and_assoc]

theorem hasIndex_iff (indexes : List Index) (i : Index) :
    Diff.hasIndex indexes i ↔ ∃ other ∈ indexes, other.key = i.key := by
  simp [Diff.hasIndex]

theorem indexes_completable_iff (growth : m.GrowsTo grown) (distinct : grown.attributeNames.Nodup) :
    (∀ i ∈ (buildTable later grown).indexes, Diff.hasIndex (buildTable former m).indexes i →
        i ∈ (buildTable former m).indexes) ↔
      ∀ i ∈ grown.indexes, ∀ old ∈ m.indexes,
        (declaredIndex old).key = (declaredIndex i).key → i ∈ m.indexes := by
  simp only [hasIndex_iff, mem_indexes_buildTable]
  constructor
  · intro indexes i listed old oldListed same
    rcases indexes (declaredIndex i) (.inl ⟨i, listed, rfl⟩) ⟨_, .inl ⟨old, oldListed, rfl⟩, same⟩ with
      ⟨declared, inFormer, equal⟩ | ⟨c, -, -, equal⟩
    · rwa [← declaredIndex_injective equal]
    · cases congrArg Index.kind equal
  · rintro indexes i (⟨declared, listed, rfl⟩ | ⟨c, inTable, unique, rfl⟩) ⟨other, inFormer, same⟩
    · rcases inFormer with ⟨old, oldListed, rfl⟩ | ⟨b, -, -, rfl⟩
      · exact .inl ⟨declared, indexes declared listed old oldListed same, rfl⟩
      · cases kind_eq_of_key_eq same
    · rcases inFormer with ⟨old, oldListed, rfl⟩ | ⟨b, inFormer, alsoUnique, rfl⟩
      · cases kind_eq_of_key_eq same
      · rcases (mem_buildColumns ..).mp inFormer with ⟨a, declared, rfl⟩
        rcases (mem_buildColumns ..).mp inTable with ⟨e, listed, rfl⟩
        have name := name_eq_of_uniqueIndex_key rfl rfl same
        have equal := List.inj_on_of_nodup_map distinct (growth.attributes declared) listed name
        exact .inr ⟨_, (mem_buildColumns ..).mpr ⟨a, declared, rfl⟩, alsoUnique, by rw [← equal]; rfl⟩

theorem buildTable_completable_iff (growth : m.GrowsTo grown) (accepted : grown.Accepted) :
    (buildTable former m).Completable (buildTable later grown) ↔
      (grown.primaryKeyName ∈ grown.attributeNames → grown.primaryKeyName ∈ m.attributeNames) ∧
      (∀ a ∈ m.attributes, Inference.reference? a.1 later = Inference.reference? a.1 former) ∧
      ∀ i ∈ grown.indexes, ∀ old ∈ m.indexes,
        (declaredIndex old).key = (declaredIndex i).key → i ∈ m.indexes := by
  rw [Table.completable_iff, indexes_completable_iff growth accepted.attributesDistinct]
  exact and_congr keys_completable_iff (and_congr_left' (references_completable_iff growth))

end Plan

namespace ModelSet
open Inference

theorem lookup_modelTables (models : ModelSet) (key : String) :
    (Outline.ofModels models).modelTables.lookup key = (models.lookup key).map Model.tableName :=
  lookup_map_snd models Model.tableName key

theorem lookup_primaryKeys {models : ModelSet} (distinct : models.tableNames.Nodup) {entry : String × Model}
    (member : entry ∈ models) :
    (Outline.ofModels models).primaryKeys.lookup entry.2.tableName = some entry.2.primaryKeyName := by
  induction models with
  | nil => cases member
  | cons first rest ih =>
      rcases List.nodup_cons.mp distinct with ⟨fresh, distinctRest⟩
      simp only [Outline.ofModels, List.map_cons, List.lookup_cons]
      rcases List.mem_cons.mp member with rfl | inRest
      · simp
      · have apart : entry.2.tableName ≠ first.2.tableName := by
          intro same
          exact fresh (List.mem_map.mpr ⟨entry, inRest, same⟩)
        rw [beq_eq_false_iff_ne.mpr apart]
        exact ih distinctRest inRest

theorem reference?_ofModels {models : ModelSet} (distinct : models.tableNames.Nodup) (name : String) :
    reference? name (.ofModels models) = (referredModel? name).bind fun key =>
      (models.lookup key).map fun m => ⟨.str m.tableName, .str m.primaryKeyName⟩ := by
  unfold reference? referenceNames?
  cases referredModel? name with
  | none => rfl
  | some key =>
      simp only [Option.bind_eq_bind, Option.bind_some, lookup_modelTables]
      cases found : models.lookup key with
      | none => rfl
      | some m =>
          have tables := lookup_primaryKeys distinct (mem_of_lookup_eq_some found)
          simp [tables]

variable {models grown : ModelSet}

theorem GrowsTo.model (grows : models.GrowsTo grown) (accepted : grown.Accepted) {former after : String × Model}
    (inFormer : former ∈ models) (inGrown : after ∈ grown) (same : after.1 = former.1) :
    former.2.GrowsTo after.2 := by
  rcases grows former inFormer with ⟨other, otherIn, key, growth⟩
  rwa [List.inj_on_of_nodup_map accepted.keysDistinct inGrown otherIn (same.trans key.symm)]

theorem GrowsTo.key_eq_iff (grows : models.GrowsTo grown) (accepted : grown.Accepted)
    (distinct : grown.tableNames.Nodup) {former after : String × Model} (inFormer : former ∈ models)
    (inGrown : after ∈ grown) : after.2.tableName = former.2.tableName ↔ after.1 = former.1 := by
  constructor
  · intro same
    rcases grows former inFormer with ⟨other, otherIn, key, growth⟩
    rw [List.inj_on_of_nodup_map distinct inGrown otherIn (same.trans growth.tableName.symm), key]
  · intro same
    exact (grows.model accepted inFormer inGrown same).tableName

theorem reference?_grown_eq_iff (grows : models.GrowsTo grown) (accepted : grown.Accepted)
    (distinct : models.tableNames.Nodup) (distinctGrown : grown.tableNames.Nodup) (name : String) :
    reference? name (.ofModels grown) = reference? name (.ofModels models) ↔
      ∀ key ∈ referredModel? name, key ∈ grown.map (·.1) → key ∈ models.map (·.1) := by
  rw [reference?_ofModels distinct, reference?_ofModels distinctGrown]
  cases referredModel? name with
  | none => simp
  | some key =>
      simp only [Option.bind_some, Option.mem_some_iff, forall_eq']
      cases found : models.lookup key with
      | some m =>
          have member := mem_of_lookup_eq_some found
          rcases grows _ member with ⟨after, inGrown, same, growth⟩
          have sameKey : after.1 = key := same
          have later : grown.lookup key = some after.2 :=
            sameKey ▸ lookup_eq_some_of_mem accepted.keysDistinct inGrown
          have known : key ∈ models.map (·.1) := List.mem_map.mpr ⟨_, member, rfl⟩
          simp [later, growth.tableName, growth.primaryKeyName, known]
      | none =>
          have unknown := (lookup_eq_none_iff_not_mem models key).mp found
          rw [Option.map_none, Option.map_eq_none_iff, lookup_eq_none_iff_not_mem]
          exact ⟨fun absent present => absurd present absent, fun known present => unknown (known present)⟩

/-- What a migration can bring to the models that stay. -/
structure Completable (models grown : ModelSet) : Prop where
  keys : ∀ former ∈ models, ∀ after ∈ grown, after.1 = former.1 →
    after.2.primaryKeyName ∈ after.2.attributeNames → after.2.primaryKeyName ∈ former.2.attributeNames
  references : ∀ former ∈ models, ∀ a ∈ former.2.attributes, ∀ key ∈ referredModel? a.1,
    key ∈ grown.map (·.1) → key ∈ models.map (·.1)
  indexes : ∀ former ∈ models, ∀ after ∈ grown, after.1 = former.1 → ∀ i ∈ after.2.indexes,
    ∀ old ∈ former.2.indexes, (Plan.declaredIndex old).key = (Plan.declaredIndex i).key → i ∈ former.2.indexes

theorem tables_completable_iff (grows : models.GrowsTo grown) (accepted : grown.Accepted)
    (distinct : models.tableNames.Nodup) (distinctGrown : grown.tableNames.Nodup) (d : Dialect) :
    (Plan.buildWith (.ofModels models) models d).Staying (Plan.buildWith (.ofModels grown) grown d)
        Table.Completable ↔ models.Completable grown := by
  simp only [Plan.Staying, Plan.buildWith, List.forall_mem_map]
  constructor
  · intro tables
    have models : ∀ former ∈ models, ∀ after ∈ grown, after.1 = former.1 → _ :=
      fun former inFormer after inGrown same =>
        (Plan.buildTable_completable_iff (grows.model accepted inFormer inGrown same)
          (accepted.models after inGrown)).mp
          (tables former inFormer after inGrown
            (congrArg Value.str ((grows.key_eq_iff accepted distinctGrown inFormer inGrown).mpr same)))
    refine ⟨fun former inFormer after inGrown same => (models former inFormer after inGrown same).1, ?_,
      fun former inFormer after inGrown same => (models former inFormer after inGrown same).2.2⟩
    intro former inFormer a declared
    rcases grows former inFormer with ⟨after, inGrown, same, -⟩
    exact (reference?_grown_eq_iff grows accepted distinct distinctGrown a.1).mp
      ((models former inFormer after inGrown same).2.1 a declared)
  · intro completable former inFormer after inGrown sameTable
    have same := (grows.key_eq_iff accepted distinctGrown inFormer inGrown).mp (Value.str.inj sameTable)
    exact (Plan.buildTable_completable_iff (grows.model accepted inFormer inGrown same)
      (accepted.models after inGrown)).mpr
      ⟨completable.keys former inFormer after inGrown same,
        fun a declared => (reference?_grown_eq_iff grows accepted distinct distinctGrown a.1).mpr
          (completable.references former inFormer a declared),
        completable.indexes former inFormer after inGrown same⟩

theorem GrowsTo.plan (grows : models.GrowsTo grown) (d : Dialect) :
    (Plan.buildWith (.ofModels models) models d).GrowsTo (Plan.buildWith (.ofModels grown) grown d) := by
  intro t member
  rcases List.mem_map.mp member with ⟨former, inFormer, rfl⟩
  rcases grows former inFormer with ⟨after, inGrown, -, growth⟩
  exact ⟨_, List.mem_map.mpr ⟨after, inGrown, rfl⟩, Plan.buildTable_growsTo growth⟩

end ModelSet

/--
Migrating from the plan of the former models creates the objects of the plan of the grown ones exactly
if what the former models lack is what a migration can bring.
-/
theorem grown_created_iff_completable {models grown : ModelSet} (accepted : models.Accepted)
    (grownAccepted : grown.Accepted) (grows : models.GrowsTo grown) {d : Dialect} {p q : Plan}
    (built : Plan.build models d = .ok p) (grownBuilt : Plan.build grown d = .ok q) :
    (∀ object, object ∈ created d (p.migration.value ++ (Diff.statements (some p) q).value) ↔
      object ∈ created d q.migration.value) ↔ models.Completable grown := by
  have before := Plan.Built.regular ⟨models, accepted, built⟩
  have after := Plan.Built.regular ⟨grown, grownAccepted, grownBuilt⟩
  rcases Plan.build_eq_ok_iff.mp built with ⟨distinct, rfl⟩
  rcases Plan.build_eq_ok_iff.mp grownBuilt with ⟨distinctGrown, rfl⟩
  rw [← ModelSet.tables_completable_iff grows grownAccepted distinct distinctGrown d,
    ← Diff.agree_iff_completable before after (grows.plan d)]
  exact Iff.rfl

namespace ModelSet

def namedUsers : ModelSet :=
  [("User", { name := "User", attributes := [("id", {}), ("name", { unique := true })]
              indexes := [⟨"by_name", ["name"]⟩] })]

def usersInTeams : ModelSet :=
  [("User", { name := "User", attributes := [("id", {}), ("name", { unique := true }), ("team_id", {})]
              indexes := [⟨"by_name", ["name"]⟩, ⟨"by_team", ["team_id"]⟩] }),
    ("Team", { name := "Team", attributes := [("id", {})] })]

def planOf (models : ModelSet) : Plan := Plan.buildWith (.ofModels models) models .postgres

theorem namedUsers_grow : namedUsers.GrowsTo usersInTeams := by
  intro former inFormer
  obtain rfl := List.mem_singleton.mp inFormer
  exact ⟨_, List.mem_cons_self, rfl, rfl, rfl, rfl, by simp, by simp⟩

theorem teams_brought_along :
    namedUsers.Accepted ∧ usersInTeams.Accepted ∧ namedUsers.GrowsTo usersInTeams ∧
      Plan.build namedUsers .postgres = .ok (planOf namedUsers) ∧
      Plan.build usersInTeams .postgres = .ok (planOf usersInTeams) ∧
      ∀ object, object ∈ created .postgres ((planOf namedUsers).migration.value ++
          (Diff.statements (some (planOf namedUsers)) (planOf usersInTeams)).value) ↔
        object ∈ created .postgres (planOf usersInTeams).migration.value := by
  have brought : namedUsers.Completable usersInTeams := ⟨by decide, by decide, by decide⟩
  exact ⟨by decide, by decide, namedUsers_grow, rfl, rfl,
    (grown_created_iff_completable (by decide) (by decide) namedUsers_grow rfl rfl).mpr brought⟩

def postsAlone : ModelSet := [("Post", { name := "Post", attributes := [("id", {}), ("user_id", {})] })]

def postsAndUsers : ModelSet := postsAlone ++ [("User", { name := "User", attributes := [("id", {})] })]

theorem postsAlone_grow : postsAlone.GrowsTo postsAndUsers := by
  intro former inFormer
  obtain rfl := List.mem_singleton.mp inFormer
  exact ⟨_, List.mem_cons_self, rfl, rfl, rfl, rfl, by simp, by simp⟩

theorem late_users_leave_posts_unlinked :
    postsAlone.Accepted ∧ postsAndUsers.Accepted ∧ postsAlone.GrowsTo postsAndUsers ∧
      Plan.build postsAlone .postgres = .ok (planOf postsAlone) ∧
      Plan.build postsAndUsers .postgres = .ok (planOf postsAndUsers) ∧
      ¬ ∀ object, object ∈ created .postgres ((planOf postsAlone).migration.value ++
          (Diff.statements (some (planOf postsAlone)) (planOf postsAndUsers)).value) ↔
        object ∈ created .postgres (planOf postsAndUsers).migration.value := by
  refine ⟨by decide, by decide, postsAlone_grow, rfl, rfl, ?_⟩
  intro same
  have key := (same (.foreignKey (.str "posts") (.str "user_id") ⟨.str "users", .str "id"⟩)).mpr (by decide)
  revert key
  decide

end ModelSet
end SchemaMigration
