import SchemaMigration.Json.Writer
import SchemaMigration.Proofs.Model.Validation

namespace SchemaMigration.Value

def isLeaf : Value → Bool
  | .list _ | .tuple _ | .dict _ => false
  | _ => true

theorem induct {motive : Value → Prop} (leaf : ∀ v, v.isLeaf → motive v)
    (list : ∀ items, (∀ v ∈ items, motive v) → motive (.list items))
    (tuple : ∀ items, (∀ v ∈ items, motive v) → motive (.tuple items))
    (dict : ∀ entries, (∀ e ∈ entries, motive e.2) → motive (.dict entries)) (v : Value) : motive v :=
  @Value.rec motive (fun items => ∀ v ∈ items, motive v) (fun entries => ∀ e ∈ entries, motive e.2) (fun e => motive e.2)
    (leaf _ rfl) (fun _ => leaf _ rfl) (fun _ => leaf _ rfl) (fun _ => leaf _ rfl) (fun _ => leaf _ rfl)
    (fun _ => leaf _ rfl) (fun _ => leaf _ rfl) (fun _ => leaf _ rfl) list tuple dict (fun _ => leaf _ rfl)
    (List.forall_mem_nil _) (fun _ _ first later => List.forall_mem_cons.mpr ⟨first, later⟩)
    (List.forall_mem_nil _) (fun _ _ first later => List.forall_mem_cons.mpr ⟨first, later⟩)
    (fun _ _ value => value) v

def storedLeaf (v : Value) : Value :=
  match Json.substitute? v with
  | some text => .str text
  | none => v

mutual

def stored : Value → Value
  | .list items | .tuple items => .list (storedItems items)
  | .dict entries => .dict (storedEntries entries)
  | v => v.storedLeaf

def storedItems : List Value → List Value
  | [] => []
  | v :: rest => stored v :: storedItems rest

def storedEntries : List (String × Value) → List (String × Value)
  | [] => []
  | (k, v) :: rest => (k, stored v) :: storedEntries rest

end

theorem storedItems_eq_map (items : List Value) : storedItems items = items.map stored := by
  induction items with
  | nil => rfl
  | cons v rest ih => rw [storedItems, ih, List.map_cons]

theorem storedEntries_eq_map (entries : List (String × Value)) :
    storedEntries entries = entries.map fun entry => (entry.1, entry.2.stored) := by
  induction entries with
  | nil => rfl
  | cons entry rest ih => rw [storedEntries, ih, List.map_cons]

theorem stored_of_isLeaf {v : Value} (leaf : v.isLeaf) : v.stored = v.storedLeaf := by
  cases v <;> first | rfl | cases leaf

theorem isLeaf_storedLeaf {v : Value} (leaf : v.isLeaf) : v.storedLeaf.isLeaf := by
  cases v <;> first | rfl | cases leaf

end SchemaMigration.Value
