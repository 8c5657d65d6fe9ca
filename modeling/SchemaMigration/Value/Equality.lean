import SchemaMigration.Value.Basic

namespace SchemaMigration.Value

mutual

def same : Value → Value → Bool
  | .null, .null => true
  | .bool a, .bool b => a == b
  | .int a, .int b => a == b
  | .float a, .float b => decide (a = b)
  | .str a, .str b => a == b
  | .decimal a, .decimal b => decide (a = b)
  | .date a, .date b => decide (a = b)
  | .datetime a, .datetime b => decide (a = b)
  | .list a, .list b => sameItems a b
  | .tuple a, .tuple b => sameItems a b
  | .dict a, .dict b => sameEntries a b
  | .foreign a, .foreign b => a == b
  | _, _ => false

def sameItems : List Value → List Value → Bool
  | [], [] => true
  | a :: as, b :: bs => same a b && sameItems as bs
  | _, _ => false

def sameEntries : List (String × Value) → List (String × Value) → Bool
  | [], [] => true
  | (k, a) :: as, (l, b) :: bs => k == l && same a b && sameEntries as bs
  | _, _ => false

end

mutual

theorem same_iff : (a b : Value) → (same a b = true ↔ a = b)
  | .list a, b => by cases b <;> simp [same, sameItems_iff a]
  | .tuple a, b => by cases b <;> simp [same, sameItems_iff a]
  | .dict a, b => by cases b <;> simp [same, sameEntries_iff a]
  | .null, b | .bool _, b | .int _, b | .float _, b | .str _, b | .decimal _, b | .date _, b
  | .datetime _, b | .foreign _, b => by cases b <;> simp [same]

theorem sameItems_iff : (a b : List Value) → (sameItems a b = true ↔ a = b)
  | [], b => by cases b <;> simp [sameItems]
  | x :: xs, b => by
    cases b with
    | nil => simp [sameItems]
    | cons y ys => simp [sameItems, same_iff x, sameItems_iff xs]

theorem sameEntries_iff : (a b : List (String × Value)) → (sameEntries a b = true ↔ a = b)
  | [], b => by cases b <;> simp [sameEntries]
  | (k, x) :: xs, b => by
    cases b with
    | nil => simp [sameEntries]
    | cons entry ys =>
      obtain ⟨l, y⟩ := entry
      simp [sameEntries, same_iff x, sameEntries_iff xs]

end

instance : DecidableEq Value := fun a b => decidable_of_iff (same a b = true) (same_iff a b)

end SchemaMigration.Value
