import SchemaMigration.Proofs.Migration.ObjectNames
import SchemaMigration.Proofs.Plan.Typed
import SchemaMigration.Proofs.Text.Identifier
/-!
Whether a migration creates an index under a name that an index of the former plan has. A table is taken to have an
index already if kind, name and columns are the same, while in the schema an index is known by the names of table and
index alone.
-/
namespace SchemaMigration

namespace Index

/-- The key goes on behind the name with a colon, so a name that holds none can be read off. -/
theorem name_eq_of_key_eq {i j : Index} (first : ':' ∉ i.name.text.toList) (second : ':' ∉ j.name.text.toList)
    (same : i.key = j.key) : i.name.text = j.name.text := by
  have readOff : ∀ name rest : List Char, ':' ∉ name → (name ++ ':' :: rest).takeWhile (· != ':') = name := by
    intro name rest absent
    have all : ∀ c ∈ name, (c != ':') = true := fun c inside => bne_iff_ne.mpr fun colon => absent (colon ▸ inside)
    rw [List.takeWhile_append_of_pos all, List.takeWhile_cons_of_neg (by decide), List.append_nil]
  have texts := congrArg String.toList same
  simp only [key, Plan.kind_eq_of_key_eq same, String.toList_append, List.append_assoc,
    List.append_cancel_left_eq] at texts
  change _ ++ ':' :: _ = _ ++ ':' :: _ at texts
  have names := congrArg (List.takeWhile (· != ':')) texts
  rw [readOff _ _ first, readOff _ _ second] at names
  exact String.toList_inj.mp names

end Index

namespace Plan
variable {d : Dialect} {p : Plan}

theorem index_eq (distinct : p.indexNames.Nodup) {t u : Table} (inPlan : t ∈ p.tables) (alsoInPlan : u ∈ p.tables)
    {i j : Index} (listed : i ∈ t.indexes) (alsoListed : j ∈ u.indexes)
    (same : Statement.indexName t.name i.name = Statement.indexName u.name j.name) : t = u ∧ i = j := by
  let pairs := p.tables.flatMap fun t => t.indexes.map fun i => (t, i)
  have names : p.indexNames = pairs.map fun pair => Statement.indexName pair.1.name pair.2.name := by
    simp only [pairs, indexNames, Table.indexNames, List.map_flatMap, List.map_map]
    rfl
  have paired : ∀ t ∈ p.tables, ∀ i ∈ t.indexes, (t, i) ∈ pairs :=
    fun t inPlan i listed => List.mem_flatMap.mpr ⟨t, inPlan, List.mem_map_of_mem listed⟩
  rw [names] at distinct
  have entry := List.inj_on_of_nodup_map distinct (paired t inPlan i listed) (paired u alsoInPlan j alsoListed) same
  exact Prod.mk.inj entry

theorem Built.colon_notMem (built : p.Built d) {t : Table} (inPlan : t ∈ p.tables) {i : Index}
    (listed : i ∈ t.indexes) : ':' ∉ i.name.text.toList := by
  rcases built with ⟨models, accepted, done⟩
  rcases build_eq_ok_iff.mp done with ⟨-, rfl⟩
  rcases List.mem_map.mp inPlan with ⟨entry, member, rfl⟩
  have model := accepted.models entry member
  rcases (mem_indexes_buildTable ..).mp listed with ⟨declared, inModel, rfl⟩ | ⟨c, inTable, -, rfl⟩
  · exact Identifier.notMem_of_accepts (model.indexes declared inModel).name rfl (by decide)
  · rcases (mem_buildColumns ..).mp inTable with ⟨a, inModel, rfl⟩
    change ':' ∉ (a.1 ++ "_unique").toList
    rw [String.toList_append, List.mem_append, not_or]
    exact ⟨Identifier.notMem_of_accepts (model.attributeNames a inModel) rfl (by decide), by decide⟩

end Plan

/--
Two tables share the names of indexes for the same indexes alone: where they are the same table, its index has kept
its key with its name, and where they are not, they do not overlap.
-/
theorem Table.sharedNames_iff {u t : Table} (former : u.Typed) (later : t.Typed) :
    (∀ j ∈ u.indexes, ∀ i ∈ t.indexes, Statement.indexName u.name j.name = Statement.indexName t.name i.name →
        t.name = u.name ∧ j.key = i.key) ↔
      (t.name = u.name → ∀ j ∈ u.indexes, ∀ i ∈ t.indexes, j.name = i.name → j.key = i.key) ∧
        ¬ Text.Overlaps u.name.text u.indexTexts t.name.text t.indexTexts ∧
          ¬ Text.Overlaps t.name.text t.indexTexts u.name.text u.indexTexts := by
  by_cases same : t.name = u.name
  · have apart : ∀ {names others}, ¬ Text.Overlaps u.name.text names u.name.text others := fun overlap => overlap.ne rfl
    have names : ∀ j ∈ u.indexes, ∀ i ∈ t.indexes,
        Statement.indexName u.name j.name = Statement.indexName u.name i.name ↔ j.name = i.name := by
      intro j inU i inT
      constructor
      · intro joined
        have texts : j.name.text = i.name.text := by simpa [Statement.indexName] using joined
        exact (former.indexes j inU).name.eq_of_text_eq (later.indexes i inT).name texts
      · exact congrArg (Statement.indexName u.name)
    simp only [same, true_and, true_implies, apart, not_false_eq_true, and_true]
    exact forall₄_congr fun j inU i inT => by rw [names j inU i inT]
  · have different : u.name.text ≠ t.name.text := fun texts => same (later.name.eq_of_text_eq former.name texts.symm)
    have disjoint : (∀ j ∈ u.indexes, ∀ i ∈ t.indexes,
        Statement.indexName u.name j.name ≠ Statement.indexName t.name i.name) ↔ u.indexNames.Disjoint t.indexNames := by
      simp only [List.disjoint_iff_ne, Table.indexNames, List.forall_mem_map]
    rw [← Text.disjoint_joined_iff different, ← Table.indexNames_eq_joined, ← Table.indexNames_eq_joined, ← disjoint]
    simp only [same, false_and, false_implies, true_and]

namespace Diff
variable {d : Dialect} {previous current : Plan}

def newIndexNames (previous current : Plan) : List String :=
  (statements (some previous) current).value.filterMap Statement.indexNamed?

theorem mem_newIndexNames (before : previous.Built d) (after : current.Built d) (name : String) :
    name ∈ newIndexNames previous current ↔
      ∃ t ∈ current.tables, ∃ i ∈ createdIndexes previous t, Statement.indexName t.name i.name = name := by
  rw [newIndexNames, statements_some previous current (before.regular.dialect.trans after.regular.dialect.symm),
    (indexNames_additions_perm previous current).mem_iff]
  simp only [List.mem_flatMap, List.mem_map]

theorem created_or_named (before : previous.Built d) (after : current.Built d) {t : Table} (inPlan : t ∈ current.tables)
    {i : Index} (listed : i ∈ t.indexes) :
    i ∈ createdIndexes previous t ∨
      ∃ former ∈ previous.tables, former.name = t.name ∧
        ∃ j ∈ former.indexes, j.key = i.key ∧ j.name.text = i.name.text := by
  by_cases had : ∃ former ∈ previous.tables, former.name = t.name ∧ hasIndex former.indexes i
  · right
    rcases had with ⟨former, inFormer, same, had⟩
    rcases (Plan.hasIndex_iff ..).mp had with ⟨j, alsoListed, key⟩
    have stops := before.colon_notMem inFormer alsoListed
    have name := Index.name_eq_of_key_eq stops (after.colon_notMem inPlan listed) key
    exact ⟨former, inFormer, same, j, alsoListed, key, name⟩
  · left
    have text := after.regular.tableTexts t inPlan
    refine (mem_createdIndexes before.regular.toWellNamed text i).mpr ⟨listed, ?_⟩
    intro former inFormer same
    rw [← Bool.not_eq_true]
    exact fun found => had ⟨former, inFormer, same, found⟩

/--
A migration creates an index under the name of a former one unless every index of the current plan that has such a
name is the former index itself, in its table and with its key.
-/
theorem names_new_iff_kept (before : previous.Built d) (after : current.Built d)
    (distinct : previous.indexNames.Nodup) :
    (∀ name ∈ newIndexNames previous current, name ∉ previous.indexNames) ↔
      ∀ u ∈ previous.tables, ∀ t ∈ current.tables, ∀ j ∈ u.indexes, ∀ i ∈ t.indexes,
        Statement.indexName u.name j.name = Statement.indexName t.name i.name → t.name = u.name ∧ j.key = i.key := by
  have former : ∀ u ∈ previous.tables, ∀ j ∈ u.indexes, Statement.indexName u.name j.name ∈ previous.indexNames :=
    fun u inFormer j listed => List.mem_flatMap.mpr ⟨u, inFormer, List.mem_map_of_mem listed⟩
  constructor
  · intro new u inFormer t inPlan j inU i inT same
    rcases created_or_named before after inPlan inT with isCreated | ⟨kept, keptIn, table, k, inKept, key, name⟩
    · have made := (mem_newIndexNames before after _).mpr ⟨t, inPlan, i, isCreated, rfl⟩
      exact absurd (same ▸ former u inFormer j inU) (new _ made)
    · have names : Statement.indexName u.name j.name = Statement.indexName kept.name k.name := by
        rw [same, Statement.indexName, Statement.indexName, table, name]
      obtain ⟨rfl, rfl⟩ := Plan.index_eq distinct inFormer keptIn inU inKept names
      exact ⟨table.symm, key⟩
  · intro kept name made again
    rcases (mem_newIndexNames before after name).mp made with ⟨t, inPlan, i, isCreated, rfl⟩
    rcases List.mem_flatMap.mp again with ⟨u, inFormer, listed⟩
    rcases List.mem_map.mp listed with ⟨j, inU, same⟩
    have text := after.regular.tableTexts t inPlan
    rcases (mem_createdIndexes before.regular.toWellNamed text i).mp isCreated with ⟨inT, lacking⟩
    rcases kept u inFormer t inPlan j inU i inT same with ⟨table, key⟩
    have had : hasIndex u.indexes i := (Plan.hasIndex_iff ..).mpr ⟨j, inU, key⟩
    exact absurd had (by simp [lacking u inFormer table.symm])

/--
A migration creates no index under the name of a former one exactly if no table that stays has an index that kept its
name and not its key, and no table overlaps with another one of the former plan.
-/
theorem index_names_new_iff (before : previous.Built d) (after : current.Built d)
    (distinct : previous.indexNames.Nodup) :
    (∀ name ∈ newIndexNames previous current, name ∉ previous.indexNames) ↔
      (previous.Staying current fun u t => ∀ j ∈ u.indexes, ∀ i ∈ t.indexes, j.name = i.name → j.key = i.key) ∧
        ∀ u ∈ previous.tables, ∀ t ∈ current.tables,
          ¬ Text.Overlaps u.name.text u.indexTexts t.name.text t.indexTexts ∧
            ¬ Text.Overlaps t.name.text t.indexTexts u.name.text u.indexTexts := by
  have pairs := forall₄_congr fun u (inFormer : u ∈ previous.tables) t (inPlan : t ∈ current.tables) =>
    Table.sharedNames_iff (before.typed.tables u inFormer) (after.typed.tables t inPlan)
  rw [names_new_iff_kept before after distinct, pairs]
  simp only [forall_and, Plan.Staying]

def usersIndexed (columns : List String) (more : List (String × Attribute)) : ModelSet :=
  [("User", {
      name := "User"
      attributes := [("id", {}), ("email", { unique := true })] ++ more
      indexes := [{ name := "by_email", columns }] })]

def contacts : String × Model :=
  ("Contact", {
      name := "Contact"
      attributes := [("id", {}), ("email", {})]
      indexes := [{ name := "by_email", columns := ["email"] }] })

/-- The users keep their index and get a unique role, and there are contacts with an index of the same name. -/
def contactsAndUsers : ModelSet := contacts :: usersIndexed ["email"] [("role", { unique := true })]

theorem contacts_indexed_anew :
    newIndexNames (Plan.postgresOf (usersIndexed ["email"] [])) (Plan.postgresOf contactsAndUsers) =
        ["contacts_by_email", "users_role_unique"] ∧
      ∀ name ∈ newIndexNames (Plan.postgresOf (usersIndexed ["email"] [])) (Plan.postgresOf contactsAndUsers),
        name ∉ (Plan.postgresOf (usersIndexed ["email"] [])).indexNames := by
  have before : (Plan.postgresOf (usersIndexed ["email"] [])).Built .postgres :=
    Plan.postgresOf_built (by decide) (by decide)
  have after : (Plan.postgresOf contactsAndUsers).Built .postgres := Plan.postgresOf_built (by decide) (by decide)
  refine ⟨by decide, (index_names_new_iff before after (by decide)).mpr ⟨?_, by decide⟩⟩
  unfold Plan.Staying
  decide

/-- An index whose columns change is created under the name that it has already. -/
theorem changed_index_named_again : ¬ ∀ (d : Dialect) (previous current : Plan), previous.Built d → current.Built d →
    previous.indexNames.Nodup → current.indexNames.Nodup →
      ∀ name ∈ newIndexNames previous current, name ∉ previous.indexNames := by
  intro claimed
  have before : (Plan.postgresOf (usersIndexed ["email"] [])).Built .postgres :=
    Plan.postgresOf_built (by decide) (by decide)
  have after : (Plan.postgresOf (usersIndexed ["email", "id"] [])).Built .postgres :=
    Plan.postgresOf_built (by decide) (by decide)
  exact claimed .postgres _ _ before after (by decide) (by decide) "users_by_email" (by decide) (by decide)

end Diff
end SchemaMigration
