import SchemaMigration.Proofs.Migration.ObjectNames
import SchemaMigration.Proofs.Plan.Growth
/-!
When the indexes and the foreign keys of a schema have names of their own. Names are joined by underscores and hold
underscores themselves, so those of two models may meet, and nothing keeps the names of a model's own indexes apart.
-/
namespace SchemaMigration

namespace Model

/-- The names of a model's indexes: those it declares, and one for each unique attribute that is not its key. -/
def indexTexts (m : Model) : List String :=
  m.indexes.map (·.name) ++
    (m.attributes.filter fun a => a.2.unique && a.1 != m.primaryKeyName).map fun a => a.1 ++ "_unique"

theorem indexTexts_buildTable (outline : Outline) (m : Model) : (Plan.buildTable outline m).indexTexts = m.indexTexts := by
  simp only [Table.indexTexts, Plan.buildTable, Plan.buildColumns, indexTexts, List.map_append, List.map_map,
    List.filter_map]
  rfl

end Model

namespace ModelSet
variable {models : ModelSet}

/-- The attributes of a model whose names stand for a model of the set. -/
def referringNames (models : ModelSet) (m : Model) : List String :=
  m.attributeNames.filter fun name => ((Inference.referredModel? name).bind fun key => models.lookup key).isSome

theorem keyTexts_buildTable (distinct : models.tableNames.Nodup) (m : Model) :
    (Plan.buildTable (.ofModels models) m).keyTexts = models.referringNames m := by
  have refers : ∀ name, (Inference.reference? name (.ofModels models)).isSome =
      ((Inference.referredModel? name).bind fun key => models.lookup key).isSome := by
    intro name
    rw [reference?_ofModels distinct]
    cases Inference.referredModel? name with
    | none => rfl
    | some key => exact Option.isSome_map
  simp only [Table.keyTexts, Plan.buildTable, Plan.buildColumns, referringNames, Model.attributeNames, ← refers,
    List.filter_map, List.map_map]
  rfl

/-- Every model tells its indexes apart, and no table's name goes on from another's into the names of its indexes. -/
@[mk_iff] structure IndexNamesApart (models : ModelSet) : Prop where
  each : ∀ entry ∈ models, entry.2.indexTexts.Nodup
  across : ∀ entry ∈ models, ∀ other ∈ models,
    ¬ Text.Overlaps entry.2.tableName entry.2.indexTexts other.2.tableName other.2.indexTexts

/-- No table's name goes on from another's into the names of its referring columns. -/
def KeyNamesApart (models : ModelSet) : Prop :=
  ∀ entry ∈ models, ∀ other ∈ models,
    ¬ Text.Overlaps entry.2.tableName (models.referringNames entry.2) other.2.tableName (models.referringNames other.2)

instance (models : ModelSet) : Decidable models.IndexNamesApart := decidable_of_iff' _ (indexNamesApart_iff models)

instance (models : ModelSet) : Decidable models.KeyNamesApart := inferInstanceAs (Decidable (∀ _ ∈ _, ∀ _ ∈ _, _))

end ModelSet

namespace Plan
variable {models : ModelSet} {d : Dialect} {p : Plan}

theorem indexNames_built_iff (accepted : models.Accepted) (built : build models d = .ok p) :
    p.indexNames.Nodup ↔ models.IndexNamesApart := by
  rcases build_eq_ok_iff.mp built with ⟨distinct, rfl⟩
  have named := (built_buildWith d accepted distinct).regular.toWellNamed
  rw [named.indexNames_nodup_iff, ModelSet.indexNamesApart_iff]
  simp only [buildWith, List.forall_mem_map, Model.indexTexts_buildTable]
  rfl

theorem keyNames_built_iff (accepted : models.Accepted) (built : build models d = .ok p) :
    (p.tables.flatMap (·.keyNames)).Nodup ↔ models.KeyNamesApart := by
  rcases build_eq_ok_iff.mp built with ⟨distinct, rfl⟩
  have named := (built_buildWith d accepted distinct).regular.toWellNamed
  rw [named.keyNames_nodup_iff]
  simp only [buildWith, List.forall_mem_map, ModelSet.keyTexts_buildTable distinct]
  rfl

/--
The indexes of the migration that creates a schema have names of their own exactly if each model tells its indexes
apart and no two tables overlap. So do the foreign keys, which need no name where columns carry them along.
-/
theorem object_names_distinct_iff (accepted : models.Accepted) (built : build models d = .ok p) :
    ((p.migration.value.filterMap Statement.indexNamed?).Nodup ↔ models.IndexNamesApart) ∧
      ((p.migration.value.filterMap Statement.constraintNamed?).Nodup ↔ (d ≠ .sqlite → models.KeyNamesApart)) := by
  have dialect : p.dialect = d := by
    rcases build_eq_ok_iff.mp built with ⟨-, rfl⟩
    rfl
  constructor
  · rw [p.indexNames_migration_perm.nodup_iff, indexNames_built_iff accepted built]
  · rw [p.keyNames_migration_perm.nodup_iff, ← keyNames_built_iff accepted built, dialect]
    by_cases inline : d = .sqlite <;> simp [inline]

def postsAndTags (reference index : String) : ModelSet :=
  [("User", { name := "User", attributes := [("id", {}), ("email", { unique := true })] }),
    ("Tag_user", { name := "Tag_user", attributes := [("id", {})] }),
    ("Post", {
      name := "Post"
      table := some "post"
      attributes := [("id", {}), ("title", {}), (reference, {})]
      indexes := [{ name := index, columns := ["title"] }] }),
    ("Post_tag", {
      name := "Post_tag"
      table := some "post_tag"
      attributes := [("id", {}), ("name", { unique := true }), ("user_id", {})]
      indexes := [{ name := "name", columns := ["name"] }] })]

theorem posts_named_apart : (postgresOf (postsAndTags "user_id" "name")).migration.value.filterMap Statement.indexNamed? =
      ["users_email_unique", "post_name", "post_tag_name", "post_tag_name_unique"] ∧
    ((postgresOf (postsAndTags "user_id" "name")).migration.value.filterMap Statement.indexNamed?).Nodup ∧
      ((postgresOf (postsAndTags "user_id" "name")).migration.value.filterMap Statement.constraintNamed?).Nodup := by
  have apart := object_names_distinct_iff (by decide) (build_postgresOf (postsAndTags "user_id" "name") (by decide))
  exact ⟨by decide, apart.1.mpr (by decide), apart.2.mpr (by decide)⟩

/-- The index `tag_name` of `post` meets `name` of `post_tag`, and the references meet alike. -/
theorem post_tags_share_names : ¬ (∀ (models : ModelSet) (d : Dialect) (p : Plan), models.Accepted →
      build models d = .ok p → (p.migration.value.filterMap Statement.indexNamed?).Nodup) ∧
    ¬ ∀ (models : ModelSet) (d : Dialect) (p : Plan), models.Accepted →
      build models d = .ok p → (p.migration.value.filterMap Statement.constraintNamed?).Nodup := by
  have accepted : (postsAndTags "tag_user_id" "tag_name").Accepted := by decide
  have built := build_postgresOf (postsAndTags "tag_user_id" "tag_name") (by decide)
  constructor
  · intro claimed
    exact absurd (claimed _ _ _ accepted built) (by decide)
  · intro claimed
    exact absurd (claimed _ _ _ accepted built) (by decide)

end Plan
end SchemaMigration
