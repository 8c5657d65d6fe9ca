import SchemaMigration.Proofs.Plan.DeclarationOrder
import SchemaMigration.Proofs.Plan.References
import SchemaMigration.Proofs.Reset.Bookkeeping
import Mathlib.Data.List.Sort
import Mathlib.Order.Extension.Linear

namespace SchemaMigration
open Relation

section
variable {α β : Type} {leads : β → β → Prop}

theorem exists_perm_pairwise_not (acyclic : ∀ b, ¬ TransGen leads b b) (key : α → β) (items : List α) :
    ∃ permuted : List α, permuted.Perm items ∧
      permuted.Pairwise fun earlier later => ¬ leads (key earlier) (key later) := by
  classical
  have antisymm : ∀ a b, ReflTransGen leads a b → ReflTransGen leads b a → a = b := by
    intro a b there back
    rcases reflTransGen_iff_eq_or_transGen.mp there with same | path
    · exact same.symm
    · exact absurd (path.trans_left back) (acyclic a)
  have : IsPartialOrder β (ReflTransGen leads) := { refl := fun _ => .refl, trans := fun _ _ _ => .trans, antisymm }
  -- Sorted by a linear order that extends the partial one, from the last to the first.
  rcases extend_partialOrder (ReflTransGen leads) with ⟨before, linear, extended⟩
  have total : Std.Total fun a b : α => before (key b) (key a) := ⟨fun a b => linear.total (key b) (key a)⟩
  have trans : IsTrans α fun a b : α => before (key b) (key a) :=
    ⟨fun _ _ _ first second => linear.trans _ _ _ second first⟩
  refine ⟨items.insertionSort fun a b => before (key b) (key a), List.perm_insertionSort .., ?_⟩
  refine (List.pairwise_insertionSort _ items).imp fun {earlier later} sorted step => ?_
  have same : key earlier = key later := linear.antisymm _ _ (extended _ _ (.single step)) sorted
  rw [same] at step
  exact acyclic _ (.single step)

theorem acyclic_of_pairwise_not {places : List β} (within : ∀ a b, leads a b → a ≠ b ∧ a ∈ places ∧ b ∈ places)
    (ordered : places.Pairwise fun earlier later => ¬ leads earlier later) (b : β) : ¬ TransGen leads b b := by
  classical
  have backwards : leads ≤ Function.onFun (· > ·) (fun a => places.idxOf a) := by
    intro a b step
    rcases within a b step with ⟨distinct, first, second⟩
    rcases Nat.lt_trichotomy (places.idxOf a) (places.idxOf b) with forwards | same | backwards
    · have apart := List.pairwise_iff_getElem.mp ordered _ _ (List.idxOf_lt_length_of_mem first)
        (List.idxOf_lt_length_of_mem second) forwards
      rw [List.getElem_idxOf, List.getElem_idxOf] at apart
      exact absurd step apart
    · exact absurd ((List.idxOf_inj first).mp same) distinct
    · exact backwards
  -- Along a cycle the place would become smaller than itself.
  intro cycle
  have still : TransGen (· > ·) (places.idxOf b) (places.idxOf b) :=
    TransGen.lift (fun a => places.idxOf a) backwards _ _ cycle
  rw [transGen_eq_self] at still
  exact absurd still (Nat.lt_irrefl _)

end

namespace Plan
variable {models permuted : ModelSet} {d : Dialect} {p : Plan}

def RefersTo (p : Plan) (owner target : Value) : Prop :=
  owner ≠ target ∧ ∃ t ∈ p.tables, t.name = owner ∧ ∃ c ∈ t.columns, ∃ r ∈ c.references, r.table = target

def Acyclic (p : Plan) : Prop := ∀ name, ¬ TransGen p.RefersTo name name

theorem refersTo_built_iff (accepted : models.Accepted) (built : build models d = .ok p) {name other : Value} :
    p.RefersTo name other ↔ ∃ owner ∈ models, ∃ target ∈ models, owner ≠ target ∧ owner.2.RefersTo target.1 ∧
      .str owner.2.tableName = name ∧ .str target.2.tableName = other := by
  rcases build_eq_ok_iff.mp built with ⟨tables, rfl⟩
  constructor
  · intro given
    rcases given with ⟨distinct, t, inPlan, rfl, c, inTable, r, references, rfl⟩
    rcases List.mem_map.mp inPlan with ⟨owner, among, rfl⟩
    rcases (mem_buildColumns ..).mp inTable with ⟨a, declared, rfl⟩
    rcases (ModelSet.reference?_eq_some_iff accepted.keysDistinct tables).mp references with ⟨target, among', stands, rfl⟩
    refine ⟨owner, among, target, among', ?_, ⟨a.1, List.mem_map_of_mem declared, stands⟩, rfl, rfl⟩
    intro same
    subst same
    exact distinct rfl
  · intro given
    rcases given with ⟨owner, among, target, among', distinct, ⟨name, declared, stands⟩, rfl, rfl⟩
    rcases List.mem_map.mp declared with ⟨a, inModel, rfl⟩
    refine ⟨?_, _, List.mem_map_of_mem among, rfl, _, (mem_buildColumns ..).mpr ⟨a, inModel, rfl⟩, _,
      (ModelSet.reference?_eq_some_iff accepted.keysDistinct tables).mpr ⟨target, among', stands, rfl⟩, rfl⟩
    intro same
    exact distinct (List.inj_on_of_nodup_map tables among among' (Value.str.inj same))

theorem refersTo_of_models_iff (accepted : models.Accepted) (built : build models d = .ok p)
    {owner target : String × Model} (among : owner ∈ models) (among' : target ∈ models) :
    p.RefersTo (.str owner.2.tableName) (.str target.2.tableName) ↔ owner ≠ target ∧ owner.2.RefersTo target.1 := by
  have named : ∀ {entry other : String × Model}, entry ∈ models → other ∈ models →
      Value.str entry.2.tableName = .str other.2.tableName → entry = other := by
    intro entry other here there same
    exact List.inj_on_of_nodup_map (build_eq_ok_iff.mp built).1 here there (Value.str.inj same)
  rw [refersTo_built_iff accepted built]
  constructor
  · intro given
    rcases given with ⟨first, inModels, second, inModels', distinct, refers, same, same'⟩
    cases named inModels among same
    cases named inModels' among' same'
    exact ⟨distinct, refers⟩
  · intro given
    rcases given with ⟨distinct, refers⟩
    exact ⟨owner, among, target, among', distinct, refers, rfl, rfl⟩

theorem pairwise_refersTo_iff (accepted : models.Accepted) (built : build models d = .ok p)
    (order : permuted.Perm models) :
    permuted.Pairwise (fun earlier later => ¬ p.RefersTo (.str earlier.2.tableName) (.str later.2.tableName)) ↔
      permuted.Pairwise fun earlier later => ¬ earlier.2.RefersTo later.1 := by
  have distinct : permuted.Pairwise (· ≠ ·) := order.nodup_iff.mpr (List.Nodup.of_map _ accepted.keysDistinct)
  have refers : ∀ {earlier later}, earlier ∈ permuted → later ∈ permuted → earlier ≠ later →
      (p.RefersTo (.str earlier.2.tableName) (.str later.2.tableName) ↔ earlier.2.RefersTo later.1) := by
    intro earlier later first second apart
    rw [refersTo_of_models_iff accepted built (order.mem_iff.mp first) (order.mem_iff.mp second), and_iff_right apart]
  constructor
  · intro ordered
    exact (distinct.and ordered).imp_of_mem fun first second given => mt (refers first second given.1).mpr given.2
  · intro ordered
    exact (distinct.and ordered).imp_of_mem fun first second given => mt (refers first second given.1).mp given.2

/-- Without a cycle the models can be declared in an order in which none refers to a later one, and only then. -/
theorem acyclic_iff (accepted : models.Accepted) (built : build models d = .ok p) :
    p.Acyclic ↔ ∃ permuted : ModelSet, permuted.Perm models ∧
      permuted.Pairwise fun earlier later => ¬ earlier.2.RefersTo later.1 := by
  constructor
  · intro acyclic
    rcases exists_perm_pairwise_not acyclic (fun entry : String × Model => .str entry.2.tableName) models with
      ⟨permuted, order, ordered⟩
    exact ⟨permuted, order, (pairwise_refersTo_iff accepted built order).mp ordered⟩
  · intro given
    rcases given with ⟨permuted, order, ordered⟩
    have backwards : (permuted.map fun entry => Value.str entry.2.tableName).Pairwise fun earlier later =>
        ¬ p.RefersTo earlier later := List.pairwise_map.mpr ((pairwise_refersTo_iff accepted built order).mpr ordered)
    refine acyclic_of_pairwise_not (fun name other refers => ?_) backwards
    rcases (refersTo_built_iff accepted built).mp refers with ⟨owner, among, target, among', -, -, rfl, rfl⟩
    exact ⟨refers.1, List.mem_map_of_mem (order.mem_iff.mpr among), List.mem_map_of_mem (order.mem_iff.mpr among')⟩

end Plan

namespace Reset
open Plan
open ModelSet (postsAndUsers)
variable {models : ModelSet} {d : Dialect} {p : Plan}

/-- No table is dropped before one that refers to it. -/
def ReferencingFirst (p : Plan) (statements : List Statement) : Prop :=
  statements.Pairwise fun earlier later => ∀ owner target, p.RefersTo owner target →
    ¬ (earlier = .dropTable target ∧ later = .dropTable owner)

theorem referencingFirst_drops_iff (p : Plan) :
    ReferencingFirst p ((p.tables.map (·.name)).reverse.map .dropTable) ↔
      p.tables.Pairwise fun earlier later => ¬ p.RefersTo earlier.name later.name := by
  rw [ReferencingFirst, List.pairwise_map, List.pairwise_reverse, List.pairwise_map]
  refine List.Pairwise.iff fun earlier later => ?_
  constructor
  · intro apart refers
    exact apart _ _ refers ⟨rfl, rfl⟩
  · intro apart owner target refers given
    rcases given with ⟨first, second⟩
    cases first
    cases second
    exact apart refers

theorem referencingFirst_append_iff {p : Plan} {first second : List Statement}
    (others : ∀ s ∈ second, ∀ table, s ≠ .dropTable table) :
    ReferencingFirst p (first ++ second) ↔ ReferencingFirst p first := by
  rw [ReferencingFirst, List.pairwise_append]
  constructor
  · exact And.left
  · intro ordered
    refine ⟨ordered, List.pairwise_iff_forall_sublist.mpr ?_, ?_⟩
    · intro earlier later both owner target _ given
      rcases given with ⟨drop, -⟩
      exact others earlier (both.subset List.mem_cons_self) target drop
    · intro earlier _ later member owner target _ given
      rcases given with ⟨-, drop⟩
      exact others later member owner drop

theorem referencingFirst_statements_iff (p : Plan) (withBookkeeping : Bool) :
    ReferencingFirst p (statements p withBookkeeping).value ↔
      p.tables.Pairwise (fun earlier later => ¬ p.RefersTo earlier.name later.name) ∧
        (withBookkeeping → ∀ name, ¬ p.RefersTo name (.str Statement.bookkeepingTable)) := by
  have types : ∀ s ∈ (if p.dialect = .postgres then (enumTypes p).map Statement.dropType else []), ∀ table,
      s ≠ .dropTable table := by
    intro s member table drop
    split at member
    · rcases List.mem_map.mp member with ⟨name, -, rfl⟩
      cases drop
    · cases member
  rw [statements_value, referencingFirst_append_iff types]
  cases withBookkeeping with
  | false => simpa using referencingFirst_drops_iff p
  | true =>
      have first : (∀ later ∈ (p.tables.map (·.name)).reverse.map Statement.dropTable, ∀ owner target,
          p.RefersTo owner target →
            ¬ (.dropTable (.str Statement.bookkeepingTable) = Statement.dropTable target ∧ later = .dropTable owner)) ↔
          ∀ name, ¬ p.RefersTo name (.str Statement.bookkeepingTable) := by
        constructor
        · intro apart name refers
          rcases refers.2 with ⟨t, inPlan, named, -⟩
          refine apart (.dropTable name) ?_ name _ refers ⟨rfl, rfl⟩
          exact List.mem_map_of_mem (List.mem_reverse.mpr (named ▸ List.mem_map_of_mem inPlan))
        · intro apart later _ owner target refers given
          rcases given with ⟨drop, -⟩
          cases drop
          exact apart owner refers
      rw [if_pos rfl, List.singleton_append, ReferencingFirst, List.pairwise_cons, first, and_comm]
      exact and_congr (referencingFirst_drops_iff p) (by simp)

theorem ordered_tables_iff (accepted : models.Accepted) (built : build models d = .ok p) :
    p.tables.Pairwise (fun earlier later => ¬ p.RefersTo earlier.name later.name) ↔
      models.Pairwise fun earlier later => ¬ earlier.2.RefersTo later.1 := by
  have tables : p.tables = models.map fun entry => buildTable (.ofModels models) entry.2 := by
    rcases build_eq_ok_iff.mp built with ⟨-, rfl⟩
    rfl
  rw [tables, List.pairwise_map]
  exact pairwise_refersTo_iff accepted built (.refl models)

/-- No model refers to another one that takes the bookkeeping table for its own. -/
def KeepsOffBookkeeping (models : ModelSet) : Prop :=
  ∀ owner ∈ models, ∀ target ∈ models, owner ≠ target → owner.2.RefersTo target.1 → ¬ target.2.TakesBookkeeping

instance (models : ModelSet) : Decidable (KeepsOffBookkeeping models) :=
  inferInstanceAs (Decidable (∀ owner ∈ models, ∀ target ∈ models, owner ≠ target → owner.2.RefersTo target.1 →
    ¬ target.2.TakesBookkeeping))

theorem keepsOffBookkeeping_iff (accepted : models.Accepted) (built : build models d = .ok p) :
    (∀ name, ¬ p.RefersTo name (.str Statement.bookkeepingTable)) ↔ KeepsOffBookkeeping models := by
  constructor
  · intro apart owner among target among' distinct refers takes
    have step := (refersTo_built_iff accepted built).mpr ⟨owner, among, target, among', distinct, refers, rfl, rfl⟩
    rw [target.2.takesBookkeeping_iff.mp takes] at step
    exact apart _ step
  · intro apart name refers
    rcases (refersTo_built_iff accepted built).mp refers with ⟨owner, among, target, among', distinct, refers, -, named⟩
    exact apart owner among target among' distinct refers (target.2.takesBookkeeping_iff.mpr (Value.str.inj named))

theorem referencingFirst_built_iff (accepted : models.Accepted) (built : build models d = .ok p)
    (withBookkeeping : Bool) :
    ReferencingFirst p (statements p withBookkeeping).value ↔
      models.Pairwise (fun earlier later => ¬ earlier.2.RefersTo later.1) ∧
        (withBookkeeping → KeepsOffBookkeeping models) := by
  rw [referencingFirst_statements_iff, ordered_tables_iff accepted built, keepsOffBookkeeping_iff accepted built]

/--
A reset drops every table after those that refer to it exactly if no model refers to one that is declared later and,
where the bookkeeping table is dropped with the others, none refers to a model that has it for its table. Whether
references run in cycles says something else: it says whether the models can be declared in such an order.
-/
theorem referencing_dropped_first_iff (accepted : models.Accepted) (built : build models d = .ok p)
    (withBookkeeping : Bool) :
    (ReferencingFirst p (statements p withBookkeeping).value ↔
        models.Pairwise (fun earlier later => ¬ earlier.2.RefersTo later.1) ∧
          (withBookkeeping → KeepsOffBookkeeping models)) ∧
      (p.Acyclic ∧ (withBookkeeping → KeepsOffBookkeeping models) ↔
        ∃ permuted q, permuted.Perm models ∧ build permuted d = .ok q ∧
          ReferencingFirst q (statements q withBookkeeping).value) := by
  refine ⟨referencingFirst_built_iff accepted built withBookkeeping, ?_⟩
  have off : ∀ {permuted : ModelSet}, permuted.Perm models →
      (KeepsOffBookkeeping permuted ↔ KeepsOffBookkeeping models) := by
    intro permuted order
    simp only [KeepsOffBookkeeping, order.mem_iff]
  rw [acyclic_iff accepted built]
  constructor
  · intro given
    rcases given with ⟨⟨permuted, order, ordered⟩, apart⟩
    rcases build_of_perm accepted.keysDistinct order built with ⟨q, permutedBuilt, -⟩
    refine ⟨permuted, q, order, permutedBuilt, ?_⟩
    rw [referencingFirst_built_iff (accepted.of_perm order) permutedBuilt, off order]
    exact ⟨ordered, apart⟩
  · intro given
    rcases given with ⟨permuted, q, order, permutedBuilt, first⟩
    rw [referencingFirst_built_iff (accepted.of_perm order) permutedBuilt, off order] at first
    exact ⟨⟨permuted, order, first.1⟩, first.2⟩

theorem posts_dropped_before_users : ∃ p, build postsAndUsers.reverse .mysql = .ok p ∧
    (statements p true).value = [.dropTable (.str "migrations"), .dropTable (.str "posts"), .dropTable (.str "users")] ∧
    ReferencingFirst p (statements p true).value := by
  have built : build postsAndUsers.reverse .mysql = .ok _ := build_eq_ok_iff.mpr ⟨by decide, rfl⟩
  exact ⟨_, built, rfl, (referencing_dropped_first_iff (by decide) built true).1.mpr (by decide)⟩

/-- Users are declared after the posts that refer to them, so they are dropped before them. -/
theorem late_users_dropped_first : ¬ ∀ (models : ModelSet) (d : Dialect) (p : Plan), models.Accepted →
    build models d = .ok p → p.Acyclic → ReferencingFirst p (statements p true).value := by
  intro claimed
  have accepted : postsAndUsers.Accepted := by decide
  have built : build postsAndUsers .mysql = .ok _ := build_eq_ok_iff.mpr ⟨by decide, rfl⟩
  have acyclic := (acyclic_iff accepted built).mpr ⟨postsAndUsers.reverse, List.reverse_perm _, by decide⟩
  have ordered := (referencingFirst_built_iff accepted built true).mp (claimed _ _ _ accepted built acyclic)
  exact absurd ordered.1 (by decide)

end Reset
end SchemaMigration
