import SchemaMigration.Text.Order
import Mathlib.Data.List.Sort

namespace SchemaMigration.Text

section
variable {α : Type} (key : α → String)

theorem insertBy_eq_orderedInsert (a : α) (items : List α) :
    insertBy key a items = items.orderedInsert (fun a b => key a ≤ key b) a := by
  induction items with
  | nil => rfl
  | cons b rest ih =>
      rw [insertBy, List.orderedInsert_cons, ih]
      by_cases smaller : key b < key a
      · rw [if_pos smaller, if_neg (String.not_le.mpr smaller)]
      · rw [if_neg smaller, if_pos (String.not_lt.mp smaller)]

theorem sortBy_eq_insertionSort (items : List α) :
    sortBy key items = items.insertionSort (fun a b => key a ≤ key b) := by
  induction items with
  | nil => rfl
  | cons a rest ih =>
      rw [List.insertionSort_cons, ← ih, ← insertBy_eq_orderedInsert]
      rfl

theorem sortBy_perm (items : List α) : (sortBy key items).Perm items := by
  rw [sortBy_eq_insertionSort]
  exact List.perm_insertionSort _ items

theorem pairwise_sortBy (items : List α) : (sortBy key items).Pairwise (fun a b => key a ≤ key b) := by
  have : Std.Total (fun a b : α => key a ≤ key b) := ⟨fun a b => String.le_total (key a) (key b)⟩
  have : IsTrans α (fun a b => key a ≤ key b) := ⟨fun _ _ _ => String.le_trans⟩
  rw [sortBy_eq_insertionSort]
  exact List.pairwise_insertionSort _ items

/-- Where items with the same key are the same, their order is forgotten, and nothing else. -/
theorem sortBy_eq_sortBy_iff {items others : List α}
    (distinct : ∀ a ∈ items, ∀ b ∈ items, key a = key b → a = b) :
    sortBy key items = sortBy key others ↔ items.Perm others := by
  constructor
  · intro same
    calc
      items.Perm (sortBy key items) := (sortBy_perm key items).symm
      _ = sortBy key others := same
      List.Perm _ others := sortBy_perm key others
  · intro same
    have together : (sortBy key items).Perm (sortBy key others) :=
      (sortBy_perm key items).trans (same.trans (sortBy_perm key others).symm)
    refine together.eq_of_pairwise ?_ (pairwise_sortBy key items) (pairwise_sortBy key others)
    intro a b first second below above
    have member := (sortBy_perm key items).mem_iff.mp first
    have inItems := same.mem_iff.mpr ((sortBy_perm key others).mem_iff.mp second)
    exact distinct a member b inItems (String.le_antisymm below above)

theorem sortBy_map {β : Type} (other : β → String) {f : α → β} (keeps : ∀ a, other (f a) = key a) (items : List α) :
    sortBy other (items.map f) = (sortBy key items).map f := by
  have inserted : ∀ a (rest : List α), insertBy other (f a) (rest.map f) = (insertBy key a rest).map f := by
    intro a rest
    induction rest with
    | nil => rfl
    | cons b rest ih =>
        rw [List.map_cons, insertBy, insertBy, keeps, keeps, ih]
        split <;> rfl
  induction items with
  | nil => rfl
  | cons a rest ih => rw [List.map_cons, sortBy, sortBy, ih, inserted]

end

theorem sort_eq_self_iff (texts : List String) : sort texts = texts ↔ texts.Pairwise (· ≤ ·) := by
  constructor
  · intro same
    rw [← same]
    exact pairwise_sortBy id texts
  · intro ordered
    exact (sortBy_perm id texts).eq_of_pairwise (fun a b _ _ => String.le_antisymm) (pairwise_sortBy id texts) ordered

theorem sort_eq_sort_iff (texts others : List String) : sort texts = sort others ↔ texts.Perm others :=
  sortBy_eq_sortBy_iff id fun _ _ _ _ same => same

end SchemaMigration.Text
