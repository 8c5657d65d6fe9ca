import Mathlib.Data.List.Nodup

namespace SchemaMigration

section
variable {α : Type}

theorem mem_of_lookup_eq_some {entries : List (String × α)} {key : String} {a : α}
    (found : entries.lookup key = some a) : (key, a) ∈ entries := by
  rcases List.lookup_eq_some_iff.mp found with ⟨before, after, rfl, -⟩
  exact List.mem_append_right before List.mem_cons_self

theorem lookup_eq_some_of_mem {entries : List (String × α)} (distinct : (entries.map (·.1)).Nodup)
    {entry : String × α} (member : entry ∈ entries) : entries.lookup entry.1 = some entry.2 := by
  cases found : entries.lookup entry.1 with
  | none => simpa using List.lookup_eq_none_iff.mp found entry member
  | some a =>
      have same := List.inj_on_of_nodup_map distinct (mem_of_lookup_eq_some found) member rfl
      exact congrArg (some ·.2) same

theorem lookup_eq_none_iff_not_mem (entries : List (String × α)) (name : String) :
    entries.lookup name = none ↔ name ∉ entries.map (·.1) := by
  simp only [List.lookup_eq_none_iff, bne_iff_ne, ne_eq, List.mem_map, not_exists, not_and]
  exact ⟨fun absent entry member same => absent entry member same.symm,
    fun absent entry member same => absent entry member same.symm⟩

theorem lookup_eq_of_perm {entries others : List (String × α)} (distinct : (entries.map (·.1)).Nodup)
    (order : others.Perm entries) (key : String) : others.lookup key = entries.lookup key := by
  cases found : others.lookup key with
  | some a =>
      have member := order.mem_iff.mp (mem_of_lookup_eq_some found)
      exact (lookup_eq_some_of_mem distinct member).symm
  | none =>
      rw [lookup_eq_none_iff_not_mem, (order.map _).mem_iff] at found
      exact ((lookup_eq_none_iff_not_mem entries key).mpr found).symm

theorem lookup_map_snd {β : Type} (entries : List (String × α)) (f : α → β) (name : String) :
    (entries.map fun entry => (entry.1, f entry.2)).lookup name = (entries.lookup name).map f := by
  induction entries with
  | nil => rfl
  | cons entry rest ih =>
      rcases entry with ⟨key, a⟩
      simp only [List.map_cons, List.lookup_cons, ih]
      cases name == key <;> rfl

end

end SchemaMigration
