import SchemaMigration.Proofs.Entries
import SchemaMigration.Proofs.Value.Stored
import SchemaMigration.Value.Comparison
import Mathlib.Data.List.Perm.Subperm

namespace SchemaMigration

namespace Value

theorem compareNumbers_comm (a b : Value) : a.compareNumbers b = b.compareNumbers a := by
  unfold compareNumbers
  rw [Bool.and_comm a.isNumber, Bool.or_comm a.isSignaling]
  split
  · rfl
  · cases a.numeric? <;> cases b.numeric? <;> simp [eq_comm]

theorem timeEquals_comm (a b : DateTime) : timeEquals a b = timeEquals b a := by
  unfold timeEquals
  cases a.instant? <;> cases b.instant? <;> simp [Bool.beq_comm, eq_comm]

theorem compareItems_eq_equal_iff {as bs : List Value} :
    compareItems as bs = .equal ↔ List.Forall₂ (fun a b => a.compare b = .equal) as bs := by
  induction as generalizing bs with
  | nil => cases bs <;> simp [compareItems]
  | cons a as ih =>
      cases bs with
      | nil => simp [compareItems]
      | cons b bs =>
          rw [compareItems, List.forall₂_cons, ← ih]
          cases a.compare b <;> simp [Comparison.andThen]

theorem compareEntries_eq_equal_iff {as bs : List (String × Value)} :
    compareEntries as bs = .equal ↔ ∀ e ∈ as, ∃ b, bs.lookup e.1 = some b ∧ e.2.compare b = .equal := by
  induction as with
  | nil => simp [compareEntries]
  | cons e as ih =>
      rcases e with ⟨k, a⟩
      rw [compareEntries, List.forall_mem_cons, ← ih]
      cases found : bs.lookup k with
      | none => simp [Comparison.andThen]
      | some b => cases compared : a.compare b <;> simp [compared, Comparison.andThen]

theorem compare_list_eq_equal_iff {as bs : List Value} :
    (list as).compare (list bs) = .equal ↔ List.Forall₂ (fun a b => a.compare b = .equal) as bs := by
  rw [compare, ← compareItems_eq_equal_iff]
  split
  case isTrue => rfl
  case isFalse long =>
    have differ : ¬ compareItems as bs = .equal := by
      intro same
      exact long (beq_iff_eq.mpr (compareItems_eq_equal_iff.mp same).length_eq)
    simp [differ]

theorem compare_dict_eq_equal_iff {as bs : List (String × Value)} :
    (dict as).compare (dict bs) = .equal ↔
      as.length = bs.length ∧ ∀ e ∈ as, ∃ b, bs.lookup e.1 = some b ∧ e.2.compare b = .equal := by
  rw [compare, ← compareEntries_eq_equal_iff]
  split
  case isTrue long => simp [beq_iff_eq.mp long]
  case isFalse long => simpa using fun same => absurd same (by simpa using long)

theorem compare_comm_of_isLeaf {a : Value} (leaf : a.isLeaf) (b : Value) : a.compare b = b.compare a := by
  cases a with
  | list | tuple | dict => cases leaf
  | null => cases b <;> first | rfl | exact compareNumbers_comm _ _
  | str s =>
      cases b with
      | str r => simp only [compare, Bool.beq_comm]
      | _ => exact compareNumbers_comm _ _
  | date s =>
      cases b with
      | date r => simp only [compare, eq_comm]
      | _ => exact compareNumbers_comm _ _
  | datetime s =>
      cases b with
      | datetime r => simp only [compare, timeEquals_comm]
      | _ => exact compareNumbers_comm _ _
  | bool | int | float | decimal | foreign => cases b <;> exact compareNumbers_comm _ _

/-- A value that says the same as another one whenever that one says the same as it. -/
def Swaps (a : Value) : Prop := ∀ b, b.WellKeyed → a.compare b = .equal → b.compare a = .equal

theorem items_eq_equal_symm {as bs : List Value} (each : ∀ a ∈ as, a.Swaps) (wellKeyed : ∀ b ∈ bs, b.WellKeyed)
    (same : List.Forall₂ (fun a b => a.compare b = .equal) as bs) :
    List.Forall₂ (fun b a => b.compare a = .equal) bs as := by
  induction same with
  | nil => exact .nil
  | cons first _ ih =>
      rcases List.forall_mem_cons.mp each with ⟨swaps, eachLater⟩
      rcases List.forall_mem_cons.mp wellKeyed with ⟨keyed, keyedLater⟩
      exact .cons (swaps _ keyed first) (ih eachLater keyedLater)

/-- Where every entry is found under its key among as many others, each of the others is found too. -/
theorem entries_eq_equal_symm {as bs : List (String × Value)} (distinct : (as.map (·.1)).Nodup)
    (keyed : (dict bs).WellKeyed) (each : ∀ e ∈ as, e.2.Swaps) (same : (dict as).compare (dict bs) = .equal) :
    (dict bs).compare (dict as) = .equal := by
  rw [compare_dict_eq_equal_iff] at same ⊢
  rcases same with ⟨long, found⟩
  have distinct' : (bs.map (·.1)).Nodup := keyed bs .here
  have within : as.map (·.1) ⊆ bs.map (·.1) := by
    intro key member
    rcases List.mem_map.mp member with ⟨e, here, rfl⟩
    rcases found e here with ⟨b, there, -⟩
    exact List.mem_map.mpr ⟨_, mem_of_lookup_eq_some there, rfl⟩
  -- As many distinct keys among the others are all of the others' keys.
  have keys := (List.subperm_of_subset distinct within).perm_of_length_le (by simp [long])
  refine ⟨long.symm, fun f there => ?_⟩
  rcases List.mem_map.mp (keys.mem_iff.mpr (List.mem_map_of_mem there)) with ⟨e, here, key⟩
  rcases found e here with ⟨b, under, equal⟩
  rw [key, lookup_eq_some_of_mem distinct' there] at under
  cases under
  exact ⟨e.2, by rw [← key, lookup_eq_some_of_mem distinct here], each e here f.2 (keyed.entry there) equal⟩

theorem swaps_of_wellKeyed (a : Value) : a.WellKeyed → a.Swaps := by
  induction a using induct with
  | leaf a leaf =>
      intro _ b _ same
      rwa [← compare_comm_of_isLeaf leaf b]
  | list items each =>
      intro keyed b keyed' same
      have swaps : ∀ v ∈ items, v.Swaps := fun v member => each v member (keyed.member rfl member)
      cases b with
      | list others =>
          rw [compare_list_eq_equal_iff] at same ⊢
          exact items_eq_equal_symm swaps (fun v member => keyed'.member rfl member) same
      | _ => exact (compareNumbers_comm _ _).trans same
  | tuple items each =>
      intro keyed b keyed' same
      have swaps : ∀ v ∈ items, v.Swaps := fun v member => each v member (keyed.member rfl member)
      cases b with
      | tuple others =>
          rw [compare, compareItems_eq_equal_iff] at same ⊢
          exact items_eq_equal_symm swaps (fun v member => keyed'.member rfl member) same
      | _ => exact (compareNumbers_comm _ _).trans same
  | dict entries each =>
      intro keyed b keyed' same
      have swaps : ∀ e ∈ entries, e.2.Swaps := fun e member => each e member (keyed.entry member)
      cases b with
      | dict others => exact entries_eq_equal_symm (keyed entries .here) keyed' swaps same
      | _ => exact (compareNumbers_comm _ _).trans same

theorem equals_comm {a b : Value} (keyed : a.WellKeyed) (keyed' : b.WellKeyed) : a.equals b = b.equals a := by
  rw [equals, equals, decide_eq_decide]
  exact ⟨swaps_of_wellKeyed a keyed b keyed', swaps_of_wellKeyed b keyed' a keyed⟩

end Value

end SchemaMigration
