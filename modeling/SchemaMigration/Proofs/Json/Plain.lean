import SchemaMigration.Json.Reader
import SchemaMigration.Proofs.Entries
import SchemaMigration.Proofs.Number.Rounding
import SchemaMigration.Proofs.Text.Numeral
import SchemaMigration.Proofs.Work
import SchemaMigration.Value.Text
/-!
What a JSON text can say. Whatever is read from one is plain: there are no decimals, dates or tuples in
it, and its integers are short enough to be written again.
-/
namespace SchemaMigration

namespace Value

/-- A value of the kinds that JSON has, whose integers can be written. -/
inductive IsPlain : Value → Prop
  | null : IsPlain .null
  | bool (b : Bool) : IsPlain (.bool b)
  | int {n : Int} (short : n.natAbs < integerLimit) : IsPlain (.int n)
  | float (x : Double) : IsPlain (.float x)
  | str (s : String) : IsPlain (.str s)
  | list {items : List Value} (each : ∀ v ∈ items, IsPlain v) : IsPlain (.list items)
  | dict {entries : List (String × Value)} (each : ∀ e ∈ entries, IsPlain e.2) : IsPlain (.dict entries)

theorem allTextFaults_eq_nil {items : List Value} (each : ∀ v ∈ items, v.textFaults = []) : allTextFaults items = [] := by
  induction items with
  | nil => rfl
  | cons v rest ih =>
      rcases List.forall_mem_cons.mp each with ⟨first, later⟩
      rw [allTextFaults, first, ih later, List.append_nil]

theorem entriesTextFaults_eq_nil {entries : List (String × Value)} (each : ∀ e ∈ entries, e.2.textFaults = []) :
    entriesTextFaults entries = [] := by
  induction entries with
  | nil => rfl
  | cons e rest ih =>
      rcases List.forall_mem_cons.mp each with ⟨first, later⟩
      rw [entriesTextFaults, first, ih later, List.append_nil]

namespace IsPlain

theorem textFaults_eq_nil {v : Value} (plain : v.IsPlain) : v.textFaults = [] := by
  induction plain with
  | null | bool | float | str => rfl
  | int short => rw [textFaults, if_pos short]
  | list _ ih => exact allTextFaults_eq_nil ih
  | dict _ ih => exact entriesTextFaults_eq_nil ih

theorem item {items : List Value} (plain : IsPlain (.list items)) {v : Value} (member : v ∈ items) : v.IsPlain := by
  cases plain with
  | list each => exact each v member

theorem lookup {entries : List (String × Value)} (plain : IsPlain (.dict entries)) {key : String} {v : Value}
    (found : entries.lookup key = some v) : v.IsPlain := by
  cases plain with
  | dict each => exact each _ (mem_of_lookup_eq_some found)

theorem members {v : Value} (plain : v.IsPlain) {items : List Value} (listed : v.members? = some items) :
    ∀ item ∈ items, item.IsPlain := by
  intro item member
  cases plain with
  | null | bool | int | float => cases listed
  | str s =>
      cases listed
      rcases List.mem_map.mp member with ⟨c, -, rfl⟩
      exact .str _
  | list each =>
      cases listed
      exact each item member
  | dict each =>
      cases listed
      rcases List.mem_map.mp member with ⟨e, -, rfl⟩
      exact .str _

end IsPlain

end Value

theorem Entries.forall_mem_put {holds : Value → Prop} {found : List (String × Value)} {v : Value} (new : holds v)
    (each : ∀ e ∈ found, holds e.2) (key : String) : ∀ e ∈ Entries.put key v found, holds e.2 := by
  induction found with
  | nil => exact List.forall_mem_singleton.mpr new
  | cons entry rest ih =>
      rcases List.forall_mem_cons.mp each with ⟨first, later⟩
      rw [Entries.put]
      split
      · exact List.forall_mem_cons.mpr ⟨new, later⟩
      · exact List.forall_mem_cons.mpr ⟨first, ih later⟩

namespace Json

def Token.IsPlain : Token → Prop
  | .leaf v => v.IsPlain
  | _ => True

theorem isDigit_of_mem_integerPart (s : List Char) {c : Char} (member : c ∈ (integerPart s).1) : c.isDigit := by
  unfold integerPart at member
  split at member
  · rw [List.mem_singleton.mp member]
    rfl
  · exact Numeral.isDigit_of_mem_span s member

/-- An integer that is not too long to be read is not too long to be written. -/
theorem plain_of_number? {negative : Bool} {s : List Char} {read : Token × List Char}
    (found : number? negative s = some read) : read.1.IsPlain := by
  unfold number? at found
  split at found
  · cases found
  · rename_i whole rest _ parted
    have numeral : ∀ c ∈ whole, c.isDigit := fun c member =>
      isDigit_of_mem_integerPart s (by rwa [parted])
    dsimp only at found
    split at found
    · split at found
      · cases found
        trivial
      · rename_i short
        cases found
        have fits : Numeral.value whole < tenTo digitLimit :=
          calc Numeral.value whole < 10 ^ whole.length := Numeral.value_lt_pow numeral
            _ ≤ tenTo digitLimit := by
              rw [tenTo_eq]
              exact Nat.pow_le_pow_right (by decide) (Nat.le_of_not_lt short)
        apply Value.IsPlain.int
        cases negative
        · exact fits
        · rwa [if_pos rfl, Int.natAbs_neg]
    · cases found
      exact .float _

theorem plain_orElse {first second : Option (Token × List Char)} (one : ∀ read ∈ first, read.1.IsPlain)
    (other : ∀ read ∈ second, read.1.IsPlain) : ∀ read ∈ (first <|> second), read.1.IsPlain := by
  cases first with
  | none => exact other
  | some read => exact one

theorem plain_of_word? {s : List Char} {read : Token × List Char} (found : word? s = some read) : read.1.IsPlain := by
  have word : ∀ (w : String) {v : Value}, v.IsPlain →
      ∀ read ∈ (after? w.toList s).map fun rest => (Token.leaf v, rest), read.1.IsPlain := by
    intro w v plain read found
    rcases Option.map_eq_some_iff.mp found with ⟨rest, -, rfl⟩
    exact plain
  revert read
  apply plain_orElse (word _ .null)
  apply plain_orElse (word _ (.bool true))
  apply plain_orElse (word _ (.bool false))
  apply plain_orElse (word _ (.float .nan))
  apply plain_orElse (word _ (.float (.infinite false)))
  apply plain_orElse (word _ (.float (.infinite true)))
  intro read found
  split at found <;> exact plain_of_number? found

theorem plain_of_step? {s : List Char} {read : Token × List Char} (found : step? s = some read) : read.1.IsPlain := by
  unfold step? at found
  split at found
  case h_7 =>
    rcases Option.map_eq_some_iff.mp found with ⟨units, -, rfl⟩
    exact .str _
  case h_8 => exact plain_of_word? found
  all_goals
    cases found
    trivial

theorem plain_tokensFrom (fuel : Nat) (s : List Char) : ∀ token ∈ tokensFrom fuel s, token.IsPlain := by
  induction fuel generalizing s with
  | zero => exact List.forall_mem_nil _
  | succ fuel ih =>
      rw [tokensFrom]
      split
      · exact List.forall_mem_nil _
      · split
        · rename_i token rest read
          exact List.forall_mem_cons.mpr ⟨plain_of_step? read, ih rest⟩
        · exact List.forall_mem_singleton.mpr trivial

/-- What the readers make of plain tokens with some fuel is plain, and so is what they leave. -/
structure ReadsPlain (fuel : Nat) : Prop where
  value : ∀ {tokens v rest}, (∀ token ∈ tokens, token.IsPlain) → readValue fuel tokens = .ok (v, rest) →
    v.IsPlain ∧ ∀ token ∈ rest, token.IsPlain
  items : ∀ {tokens vs rest}, (∀ token ∈ tokens, token.IsPlain) → readItems fuel tokens = .ok (vs, rest) →
    (∀ v ∈ vs, v.IsPlain) ∧ ∀ token ∈ rest, token.IsPlain
  entries : ∀ {found tokens entries rest}, (∀ token ∈ tokens, token.IsPlain) → (∀ e ∈ found, e.2.IsPlain) →
    readEntries fuel found tokens = .ok (entries, rest) →
      (∀ e ∈ entries, e.2.IsPlain) ∧ ∀ token ∈ rest, token.IsPlain

section
variable {fuel : Nat} {tokens rest : List Token}

theorem ReadsPlain.value_succ (reads : ReadsPlain fuel) {v : Value} (plain : ∀ token ∈ tokens, token.IsPlain)
    (done : readValue (fuel + 1) tokens = .ok (v, rest)) : v.IsPlain ∧ ∀ token ∈ rest, token.IsPlain := by
  unfold readValue at done
  split at done
  case h_2 =>
    cases done
    exact List.forall_mem_cons.mp plain
  case h_4 =>
    cases done
    exact ⟨.list (List.forall_mem_nil _), (List.forall_mem_cons.mp (List.forall_mem_cons.mp plain).2).2⟩
  case h_5 same =>
    cases same
    rcases bind_eq_ok done with ⟨⟨vs, later⟩, read, ⟨⟩⟩
    rcases reads.items (List.forall_mem_cons.mp plain).2 read with ⟨each, left⟩
    exact ⟨.list each, left⟩
  case h_6 =>
    cases done
    exact ⟨.dict (List.forall_mem_nil _), (List.forall_mem_cons.mp (List.forall_mem_cons.mp plain).2).2⟩
  case h_7 same =>
    cases same
    rcases bind_eq_ok done with ⟨⟨entries, later⟩, read, ⟨⟩⟩
    rcases reads.entries (List.forall_mem_cons.mp plain).2 (List.forall_mem_nil _) read with ⟨each, left⟩
    exact ⟨.dict each, left⟩
  all_goals cases done

theorem ReadsPlain.items_succ (reads : ReadsPlain fuel) {vs : List Value} (plain : ∀ token ∈ tokens, token.IsPlain)
    (done : readItems (fuel + 1) tokens = .ok (vs, rest)) :
    (∀ v ∈ vs, v.IsPlain) ∧ ∀ token ∈ rest, token.IsPlain := by
  rw [readItems] at done
  rcases bind_eq_ok done with ⟨⟨v, left⟩, read, done⟩
  rcases reads.value plain read with ⟨first, plain⟩
  dsimp only at done
  split at done
  · cases done
    exact ⟨List.forall_mem_singleton.mpr first, (List.forall_mem_cons.mp plain).2⟩
  · rcases bind_eq_ok done with ⟨⟨others, last⟩, read, ⟨⟩⟩
    rcases reads.items (List.forall_mem_cons.mp plain).2 read with ⟨later, plain⟩
    exact ⟨List.forall_mem_cons.mpr ⟨first, later⟩, plain⟩
  · cases done

theorem ReadsPlain.entries_succ (reads : ReadsPlain fuel) {found entries : List (String × Value)}
    (plain : ∀ token ∈ tokens, token.IsPlain) (each : ∀ e ∈ found, e.2.IsPlain)
    (done : readEntries (fuel + 1) found tokens = .ok (entries, rest)) :
    (∀ e ∈ entries, e.2.IsPlain) ∧ ∀ token ∈ rest, token.IsPlain := by
  unfold readEntries at done
  split at done
  · rename_i fuel' key after same
    cases same
    rcases bind_eq_ok done with ⟨⟨v, left⟩, read, done⟩
    rcases List.forall_mem_cons.mp plain with ⟨-, afterKey⟩
    rcases reads.value (List.forall_mem_cons.mp afterKey).2 read with ⟨new, plain⟩
    have put := Entries.forall_mem_put new each key
    dsimp only at done
    split at done
    · cases done
      exact ⟨put, (List.forall_mem_cons.mp plain).2⟩
    · exact reads.entries (List.forall_mem_cons.mp plain).2 put done
    · cases done
  · cases done

end

theorem readsPlain (fuel : Nat) : ReadsPlain fuel := by
  induction fuel with
  | zero =>
      constructor
      · intro tokens v rest _ done
        cases done
      · intro tokens vs rest _ done
        cases done
      · intro found tokens entries rest _ _ done
        cases done
  | succ fuel ih => exact ⟨ih.value_succ, ih.items_succ, ih.entries_succ⟩

theorem plain_of_readTokens {tokens : List Token} (plain : ∀ token ∈ tokens, token.IsPlain) {v : Value}
    (done : readTokens tokens = .ok v) : v.IsPlain := by
  unfold readTokens at done
  split at done
  · rename_i read
    cases done
    exact ((readsPlain _).value plain read).1
  · cases done
  · cases done

theorem plain_of_read {s : String} {v : Value} (done : read s = .ok v) : v.IsPlain :=
  plain_of_readTokens (plain_tokensFrom _ _) done

end Json
end SchemaMigration
