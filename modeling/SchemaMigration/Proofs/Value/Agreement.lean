import SchemaMigration.Proofs.Entries
import SchemaMigration.Proofs.Value.Stored
import Mathlib.Data.List.Perm.Subperm

namespace SchemaMigration.Value

mutual

/-- The same value, apart from the order of the entries of every dictionary in it. -/
def Agrees : Value → Value → Prop
  | .list as, .list bs => ItemsAgree as bs
  | .dict as, .dict bs => as.length = bs.length ∧ EntriesAgree as bs
  | a, b => a = b

def ItemsAgree : List Value → List Value → Prop
  | [], [] => True
  | a :: as, b :: bs => Agrees a b ∧ ItemsAgree as bs
  | _, _ => False

def EntriesAgree : List (String × Value) → List (String × Value) → Prop
  | [], _ => True
  | (k, a) :: as, bs =>
    (match bs.lookup k with
      | some b => Agrees a b
      | none => False) ∧ EntriesAgree as bs

end

theorem agrees_leaf {a : Value} (leaf : a.isLeaf) (b : Value) : a.Agrees b ↔ a = b := by
  cases a with
  | list | tuple | dict => cases leaf
  | _ => simp [Agrees]

theorem agrees_of_isLeaf {a : Value} (leaf : a.isLeaf) : a.Agrees a := (agrees_leaf leaf a).mpr rfl

theorem itemsAgree_iff {as bs : List Value} : ItemsAgree as bs ↔ List.Forall₂ Agrees as bs := by
  induction as generalizing bs with
  | nil => cases bs <;> simp [ItemsAgree]
  | cons a as ih => cases bs <;> simp [ItemsAgree, ih]

theorem entriesAgree_iff {as bs : List (String × Value)} :
    EntriesAgree as bs ↔ ∀ e ∈ as, ∃ b, bs.lookup e.1 = some b ∧ e.2.Agrees b := by
  induction as with
  | nil => simp [EntriesAgree]
  | cons e rest ih =>
      rcases e with ⟨k, a⟩
      rw [EntriesAgree, ih, List.forall_mem_cons]
      cases bs.lookup k <;> simp

theorem agrees_list_iff {as bs : List Value} : Agrees (.list as) (.list bs) ↔ List.Forall₂ Agrees as bs := by
  rw [Agrees, itemsAgree_iff]

theorem agrees_dict_iff {as bs : List (String × Value)} :
    Agrees (.dict as) (.dict bs) ↔
      as.length = bs.length ∧ ∀ e ∈ as, ∃ b, bs.lookup e.1 = some b ∧ e.2.Agrees b := by
  rw [Agrees, entriesAgree_iff]

theorem Agrees.lookup {as bs : List (String × Value)} (agrees : Agrees (.dict as) (.dict bs))
    (distinct : (as.map (·.1)).Nodup) (key : String) : Option.Rel Agrees (as.lookup key) (bs.lookup key) := by
  rcases agrees_dict_iff.mp agrees with ⟨long, each⟩
  cases found : as.lookup key with
  | some a =>
      rcases each _ (mem_of_lookup_eq_some found) with ⟨b, there, same⟩
      rw [there]
      exact .some same
  | none =>
      have within : as.map (·.1) ⊆ bs.map (·.1) := by
        intro other member
        rcases List.mem_map.mp member with ⟨e, here, rfl⟩
        rcases each e here with ⟨b, there, -⟩
        exact List.mem_map.mpr ⟨_, mem_of_lookup_eq_some there, rfl⟩
      have keys := (List.subperm_of_subset distinct within).perm_of_length_le (by simp [long])
      rw [lookup_eq_none_iff_not_mem, keys.mem_iff, ← lookup_eq_none_iff_not_mem] at found
      rw [found]
      exact .none

theorem leaf_eq_of_rel {a b : Value} (leaf : a.isLeaf) (related : Option.Rel Agrees (some a) (some b)) : a = b := by
  cases related with
  | some same => exact (agrees_leaf leaf b).mp same

theorem Agrees.list_eq {α : Type} {write : α → Value} {as bs : List α}
    (told : ∀ a ∈ as, ∀ b, (write a).Agrees (write b) → a = b)
    (agrees : Agrees (.list (as.map write)) (.list (bs.map write))) : as = bs := by
  rw [agrees_list_iff, List.forall₂_map_left_iff, List.forall₂_map_right_iff] at agrees
  have both := (List.forall₂_and_left as bs).mpr ⟨told, agrees⟩
  rw [← List.forall₂_eq_eq_eq]
  exact both.imp fun a b given => given.1 b given.2

theorem option_eq_of_rel {α : Type} {write : α → Value} {x y : Option α}
    (told : ∀ a ∈ x, ∀ b, (write a).Agrees (write b) → a = b)
    (related : Option.Rel Agrees (x.map write) (y.map write)) : x = y := by
  cases x with
  | none =>
      cases y with
      | none => rfl
      | some b => cases related
  | some a =>
      cases y with
      | none => cases related
      | some b =>
          cases related with
          | some same => exact congrArg some (told a rfl b same)

end SchemaMigration.Value
