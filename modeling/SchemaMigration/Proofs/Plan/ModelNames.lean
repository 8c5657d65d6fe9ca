import SchemaMigration.Proofs.Model.Containment
import SchemaMigration.Proofs.Model.Validation
import SchemaMigration.Proofs.Plan.DeclarationOrder
import SchemaMigration.Proofs.Plan.References
/-!
References and the names of models. An attribute that ends in `_id` refers to the model whose key it spells, and the
key need not be the name that the model declares. The models of a directory have their names as keys, so that their plan
is another one where an attribute refers to a model which the caller calls otherwise.
-/
namespace SchemaMigration

namespace Inference

theorem referredModel?_eq_some_iff {name key : String} :
    referredModel? name = some key ↔ ∃ stem, name = stem ++ "_id" ∧ Text.capitalizeFirst stem = key := by
  have stems : ∀ stem : String, (stem ++ "_id").toList.take ((stem ++ "_id").length - 3) = stem.toList := by
    intro stem
    have three : "_id".toList.length = 3 := rfl
    rw [← String.length_toList, String.toList_append, List.length_append, three, Nat.add_sub_cancel, List.take_left]
  rw [referredModel?, endsIn]
  constructor
  · intro stands
    split at stands
    case isTrue ends =>
      rcases List.isSuffixOf_iff_suffix.mp ends with ⟨stem, whole⟩
      have name : name = String.ofList stem ++ "_id" := by
        apply String.toList_inj.mp
        rw [String.toList_append, String.toList_ofList, whole]
      refine ⟨String.ofList stem, name, Option.some.inj ?_⟩
      rw [← stands, name, stems, String.ofList_toList]
    case isFalse => cases stands
  · rintro ⟨stem, rfl, rfl⟩
    have ends : "_id".toList.isSuffixOf (stem ++ "_id").toList := by
      rw [String.toList_append]
      exact List.isSuffixOf_iff_suffix.mpr (List.suffix_append ..)
    rw [if_pos ends, stems, String.ofList_toList]

end Inference

/-- The column refers to the model that its name spells before `_id`, where models are called so, and to no other. -/
def Column.RefersBy (called : String × Model → String) (models : ModelSet) (c : Column) : Prop :=
  ∀ r, c.references = some r ↔ ∃ stem, c.name = .str (stem ++ "_id") ∧
    ∃ entry ∈ models, called entry = Text.capitalizeFirst stem ∧ r = entry.2.reference

namespace ModelSet
variable {models loaded : ModelSet}

/-- Every model that an attribute refers to, by its key or by its name, has its name as its key. -/
def NamesFollowed (models : ModelSet) : Prop :=
  ∀ entry ∈ models, ∀ owner ∈ models, owner.2.RefersTo entry.1 ∨ owner.2.RefersTo entry.2.name → entry.1 = entry.2.name

instance (models : ModelSet) : Decidable models.NamesFollowed := inferInstanceAs (Decidable (∀ _ ∈ _, ∀ _ ∈ _, _ → _))

/-- The attribute spells the model that the reference leads to, where models are called so. -/
def Spells (models : ModelSet) (called : String × Model → String) (name : String) (r : Reference) : Prop :=
  ∃ entry ∈ models, Inference.referredModel? name = some (called entry) ∧ r = entry.2.reference

theorem refersBy_iff {called : String × Model → String} {c : Column} {name : String} (column : c.name = .str name) :
    c.RefersBy called models ↔ ∀ r, c.references = some r ↔ models.Spells called name r := by
  refine forall_congr' fun r => iff_congr Iff.rfl ?_
  rw [column]
  constructor
  · rintro ⟨stem, ends, entry, member, spelled, rfl⟩
    exact ⟨entry, member, Inference.referredModel?_eq_some_iff.mpr ⟨stem, Value.str.inj ends, spelled.symm⟩, rfl⟩
  · rintro ⟨entry, member, stands, rfl⟩
    rcases Inference.referredModel?_eq_some_iff.mp stands with ⟨stem, rfl, spelled⟩
    exact ⟨stem, rfl, entry, member, spelled.symm, rfl⟩

theorem eq_of_reference (tables : models.tableNames.Nodup) {entry other : String × Model} (member : entry ∈ models)
    (member' : other ∈ models) (same : entry.2.reference = other.2.reference) : entry = other :=
  List.inj_on_of_nodup_map tables member member' (Value.str.inj (congrArg Reference.table same))

theorem spells_iff_namesFollowed (tables : models.tableNames.Nodup) :
    (∀ owner ∈ models, ∀ name ∈ owner.2.attributeNames, ∀ r,
        models.Spells (·.1) name r ↔ models.Spells (·.2.name) name r) ↔ models.NamesFollowed := by
  constructor
  · -- no two models have one table, so a reference that is spelled both ways leads to the same entry
    rintro same entry member owner among (⟨name, declared, byKey⟩ | ⟨name, declared, byName⟩)
    · rcases (same owner among name declared _).mp ⟨entry, member, byKey, rfl⟩ with ⟨other, member', byName, leads⟩
      rcases eq_of_reference tables member member' leads with rfl
      exact Option.some.inj (byKey.symm.trans byName)
    · rcases (same owner among name declared _).mpr ⟨entry, member, byName, rfl⟩ with ⟨other, member', byKey, leads⟩
      rcases eq_of_reference tables member member' leads with rfl
      exact Option.some.inj (byKey.symm.trans byName)
  · intro followed owner among name declared r
    constructor
    · rintro ⟨entry, member, byKey, rfl⟩
      have keyed := followed entry member owner among (.inl ⟨name, declared, byKey⟩)
      exact ⟨entry, member, byKey.trans (congrArg some keyed), rfl⟩
    · rintro ⟨entry, member, byName, rfl⟩
      have keyed := followed entry member owner among (.inr ⟨name, declared, byName⟩)
      exact ⟨entry, member, byName.trans (congrArg some keyed.symm), rfl⟩

/-- Definitions that give no names are named after their keys, which is how attributes refer to them. -/
theorem namesFollowed_of_unnamed {entries : List (String × Value)} (read : readEntries entries = .ok models)
    (unnamed : ∀ entry ∈ entries, ∀ fields, definitionEntries entry.2 = .ok fields → fields.lookup "name" = none) :
    models.NamesFollowed := by
  rcases readEntries_eq_ok_iff.mp read with ⟨each, rfl⟩
  intro entry member _ _ _
  rcases List.mem_map.mp member with ⟨⟨key, definition⟩, among, rfl⟩
  rcases each _ among with ⟨m, done⟩
  rw [declared, done]
  exact (name_of_readEntry done (unnamed _ among)).symm

/-- The keys are the names of the models, and they tell the models apart. -/
structure KeyedByName (models : ModelSet) : Prop where
  keys : ∀ entry ∈ models, entry.1 = entry.2.name
  distinct : (models.map (·.1)).Nodup

theorem KeyedByName.add (keyed : models.KeyedByName) {m : Model} (new : models.lookup m.name = none) :
    KeyedByName (models ++ [(m.name, m)]) := by
  constructor
  · intro entry member
    rcases List.mem_append.mp member with old | added
    · exact keyed.keys entry old
    · rw [List.mem_singleton.mp added]
  · rw [List.map_append]
    refine keyed.distinct.append (List.nodup_singleton _) ?_
    exact List.disjoint_singleton.mpr ((lookup_eq_none_iff_not_mem models m.name).mp new)

theorem KeyedByName.spells_iff (keyed : loaded.KeyedByName) (same : (loaded.map (·.2)).Perm (models.map (·.2)))
    (name : String) (r : Reference) : loaded.Spells (·.1) name r ↔ models.Spells (·.2.name) name r := by
  constructor
  · rintro ⟨entry, member, stands, rfl⟩
    rcases List.mem_map.mp (same.mem_iff.mp (List.mem_map_of_mem member)) with ⟨other, member', model⟩
    have spelled := (keyed.keys entry member).trans (congrArg Model.name model.symm)
    exact ⟨other, member', stands.trans (congrArg some spelled), by rw [model]⟩
  · rintro ⟨entry, member, stands, rfl⟩
    rcases List.mem_map.mp (same.mem_iff.mpr (List.mem_map_of_mem member)) with ⟨other, member', model⟩
    have spelled := (congrArg Model.name model.symm).trans (keyed.keys other member').symm
    exact ⟨other, member', stands.trans (congrArg some spelled), by rw [model]⟩

end ModelSet

namespace ModelDirectory
variable {models loaded : ModelSet} {site : Site}

theorem keyedByName_loadFiles {paths : List FilePath} (keyed : models.KeyedByName)
    (done : (loadFiles models paths site).1 = .ok loaded) : loaded.KeyedByName := by
  induction paths generalizing models with
  | nil =>
      cases done
      exact keyed
  | cons p rest ih =>
      rw [loadFiles_cons_eq] at done
      split at done
      · cases done
      · split at done
        · cases done
        · -- a name that is there already is refused, so that what is added has a new one
          rename_i new
          exact ih (keyed.add (Option.not_isSome_iff_eq_none.mp new)) done

theorem keyedByName_load {directory : FilePath} (done : (load directory site).1 = .ok loaded) : loaded.KeyedByName := by
  have empty : ModelSet.KeyedByName [] := ⟨fun _ member => absurd member List.not_mem_nil, List.nodup_nil⟩
  exact keyedByName_loadFiles empty ((load_eq_ok_iff ..).mp done).2

end ModelDirectory

namespace Plan
variable {models loaded : ModelSet} {d : Dialect} {p : Plan}

theorem forall_refersBy_iff (keys : (models.map (·.1)).Nodup) (tables : models.tableNames.Nodup)
    (called : String × Model → String) :
    (∀ t ∈ (buildWith (.ofModels models) models d).tables, ∀ c ∈ t.columns, c.RefersBy called models) ↔
      ∀ owner ∈ models, ∀ name ∈ owner.2.attributeNames, ∀ r,
        models.Spells (·.1) name r ↔ models.Spells called name r := by
  have column : ∀ (a : String × Attribute) (isKey : Bool),
      (Inference.column a.1 a.2 isKey (some (.ofModels models))).RefersBy called models ↔
        ∀ r, models.Spells (·.1) a.1 r ↔ models.Spells called a.1 r := by
    intro a isKey
    rw [ModelSet.refersBy_iff rfl]
    exact forall_congr' fun r => iff_congr (ModelSet.reference?_eq_some_iff keys tables) Iff.rfl
  simp only [buildWith, buildTable, buildColumns, Model.attributeNames, List.forall_mem_map, column]

theorem tables_perm_iff {first second : Outline} {definitions others : List Model} (order : others.Perm definitions)
    (distinct : (definitions.map Model.tableName).Nodup) :
    (others.map (buildTable first)).Perm (definitions.map (buildTable second)) ↔
      ∀ m ∈ definitions, buildTable first m = buildTable second m := by
  constructor
  · intro same m member
    have built := same.mem_iff.mp (List.mem_map_of_mem (order.mem_iff.mpr member))
    rcases List.mem_map.mp built with ⟨other, inModels, table⟩
    have name : other.tableName = m.tableName := Value.str.inj (congrArg Table.name table)
    rcases List.inj_on_of_nodup_map distinct inModels member name with rfl
    exact table.symm
  · intro same
    rw [← List.map_congr_left same]
    exact order.map _

theorem tables_eq_iff {first second : Outline} {definitions others : List Model} (order : others.Perm definitions)
    (distinct : (definitions.map Model.tableName).Nodup) :
    others.map (buildTable first) = definitions.map (buildTable second) ↔
      others = definitions ∧ ∀ m ∈ definitions, buildTable first m = buildTable second m := by
  constructor
  · intro same
    have each := (tables_perm_iff order distinct).mp (.of_eq same)
    refine ⟨List.ext_getElem order.length_eq fun i inside inside' => ?_, each⟩
    have table : buildTable first others[i] = buildTable second definitions[i] := by
      have place := congrArg (·[i]?) same
      simpa [inside, inside'] using place
    have name : others[i].tableName = definitions[i].tableName := Value.str.inj (congrArg Table.name table)
    exact List.inj_on_of_nodup_map distinct (order.mem_iff.mp (List.getElem_mem inside)) (List.getElem_mem inside') name
  · rintro ⟨rfl, same⟩
    exact List.map_congr_left same

theorem buildTable_loaded_iff (keyed : loaded.KeyedByName) (same : (loaded.map (·.2)).Perm (models.map (·.2)))
    (keys : (models.map (·.1)).Nodup) (tables : models.tableNames.Nodup) (loadedTables : loaded.tableNames.Nodup) :
    (∀ m ∈ models.map (·.2), buildTable (.ofModels loaded) m = buildTable (.ofModels models) m) ↔
      models.NamesFollowed := by
  rw [← ModelSet.spells_iff_namesFollowed tables, List.forall_mem_map]
  refine forall₂_congr fun owner _ => buildTable_eq_iff.trans (forall₂_congr fun name _ => ?_)
  rw [Option.ext_iff]
  refine forall_congr' fun r => ?_
  rw [ModelSet.reference?_eq_some_iff keyed.distinct loadedTables, ModelSet.reference?_eq_some_iff keys tables]
  exact (iff_congr (keyed.spells_iff same name r) Iff.rfl).trans iff_comm

theorem refersBy_names_iff (keys : (models.map (·.1)).Nodup) (built : build models d = .ok p) :
    (∀ t ∈ p.tables, ∀ c ∈ t.columns, c.RefersBy (·.2.name) models) ↔ models.NamesFollowed := by
  rcases build_eq_ok_iff.mp built with ⟨tables, rfl⟩
  rw [forall_refersBy_iff keys tables, ModelSet.spells_iff_namesFollowed tables]

theorem tables_buildWith (models : ModelSet) (d : Dialect) :
    (buildWith (.ofModels models) models d).tables = (models.map (·.2)).map (buildTable (.ofModels models)) := by
  rw [List.map_map]
  rfl

theorem build_loaded (keyed : loaded.KeyedByName) (same : (loaded.map (·.2)).Perm (models.map (·.2)))
    (keys : (models.map (·.1)).Nodup) (built : build models d = .ok p) :
    ∃ q, build loaded d = .ok q ∧ (q.tables.Perm p.tables ↔ models.NamesFollowed) ∧
      (q = p ↔ loaded.map (·.2) = models.map (·.2) ∧ models.NamesFollowed) := by
  rcases build_eq_ok_iff.mp built with ⟨tables, rfl⟩
  have distinct : ((models.map (·.2)).map Model.tableName).Nodup := by
    rw [List.map_map]
    exact tables
  have loadedTables : loaded.tableNames.Nodup := by
    have loadedDistinct := (same.map Model.tableName).nodup_iff.mpr distinct
    rwa [List.map_map] at loadedDistinct
  have each := buildTable_loaded_iff keyed same keys tables loadedTables
  refine ⟨_, build_eq_ok_iff.mpr ⟨loadedTables, rfl⟩, ?_, ?_⟩
  · rw [tables_buildWith, tables_buildWith, tables_perm_iff same distinct, each]
  · rw [← each, ← tables_eq_iff same distinct, ← tables_buildWith, ← tables_buildWith]
    exact ⟨congrArg Plan.tables, fun equal => congrArg (Plan.mk d) equal⟩

/--
A column of a built plan refers to the model whose key it spells, which is the model that it names exactly if names are
followed. This is also what decides whether the same models have the same tables when they are loaded from a directory,
and they have the same plan if they are loaded in the same order, too.
-/
theorem references_follow_names_iff (accepted : models.Accepted) (built : build models d = .ok p) :
    (∀ t ∈ p.tables, ∀ c ∈ t.columns, c.RefersBy (·.1) models) ∧
    ((∀ t ∈ p.tables, ∀ c ∈ t.columns, c.RefersBy (·.2.name) models) ↔ models.NamesFollowed) ∧
    ∀ directory site loaded, (ModelDirectory.load directory site).1 = .ok loaded →
      (loaded.map (·.2)).Perm (models.map (·.2)) →
        ∃ q, build loaded d = .ok q ∧ (∀ t ∈ q.tables, ∀ c ∈ t.columns, c.RefersBy (·.2.name) loaded) ∧
          (q.tables.Perm p.tables ↔ models.NamesFollowed) ∧
          (q = p ↔ loaded.map (·.2) = models.map (·.2) ∧ models.NamesFollowed) := by
  refine ⟨?_, refersBy_names_iff accepted.keysDistinct built, ?_⟩
  · rcases build_eq_ok_iff.mp built with ⟨tables, rfl⟩
    exact (forall_refersBy_iff accepted.keysDistinct tables _).mpr fun _ _ _ _ _ => Iff.rfl
  · intro directory site loaded done same
    have keyed := ModelDirectory.keyedByName_load done
    have followed : loaded.NamesFollowed := fun entry member _ _ _ => keyed.keys entry member
    rcases build_loaded keyed same accepted.keysDistinct built with ⟨q, loadedBuilt, tables, plans⟩
    exact ⟨q, loadedBuilt, (refersBy_names_iff keyed.distinct loadedBuilt).mpr followed, tables, plans⟩

def postsUnder (users posts : String) : ModelSet :=
  [(users, { name := "User", attributes := [("id", {})] }),
    (posts, { name := "Post", attributes := [("id", {}), ("user_id", {})] })]

def postsInFiles : Site :=
  { tree := ⟨[(["m"], .directory),
      (["m", "1.json"], .file "\x7b\"name\": \"User\", \"attributes\": \x7b\"id\": \x7b\x7d\x7d\x7d".toUTF8),
      (["m", "2.json"], .file (
        "\x7b\"name\": \"Post\", \"attributes\": \x7b\"id\": \x7b\x7d, \"user_id\": \x7b\x7d\x7d\x7d").toUTF8)]⟩ }

/-- Nothing refers to posts, so that they may have any key. -/
theorem articles_loaded_as_posts : (postsUnder "User" "Article").Accepted ∧
    build (postsUnder "User" "Article") .postgres = .ok (postgresOf (postsUnder "User" "Article")) ∧
    (ModelDirectory.load ⟨"", ["m"]⟩ postsInFiles).1 = .ok (postsUnder "User" "Post") ∧
    build (postsUnder "User" "Post") .postgres = .ok (postgresOf (postsUnder "User" "Article")) := by
  have accepted : (postsUnder "User" "Article").Accepted := by decide
  have built := build_postgresOf (postsUnder "User" "Article") (by decide)
  have loaded : (ModelDirectory.load ⟨"", ["m"]⟩ postsInFiles).1 = .ok (postsUnder "User" "Post") :=
    eq_ok_of_toOption (by decide +kernel)
  rcases references_follow_names_iff accepted built with ⟨-, -, alike⟩
  rcases alike _ _ _ loaded (.refl _) with ⟨q, loadedBuilt, -, -, same⟩
  rw [same.mpr ⟨rfl, by decide⟩] at loadedBuilt
  exact ⟨accepted, built, loaded, loadedBuilt⟩

/-- Users under another key are not found by their name. -/
theorem accounts_named_user : ¬ ∀ (models : ModelSet) (d : Dialect) (p : Plan), models.Accepted →
    build models d = .ok p → ∀ t ∈ p.tables, ∀ c ∈ t.columns, c.RefersBy (·.2.name) models := by
  intro claimed
  have built := build_postgresOf (postsUnder "Account" "Post") (by decide)
  have distinct : ((postsUnder "Account" "Post").map (·.1)).Nodup := by decide
  exact absurd ((refersBy_names_iff distinct built).mp (claimed _ _ _ (by decide) built)) (by decide)

end Plan
end SchemaMigration
