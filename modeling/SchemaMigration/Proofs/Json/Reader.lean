import SchemaMigration.Json.Reader
import SchemaMigration.Proofs.Json.Token

namespace SchemaMigration

theorem Entries.put_of_not_mem {key : String} {found : List (String × Value)} (absent : key ∉ found.map (·.1))
    (v : Value) : Entries.put key v found = found ++ [(key, v)] := by
  induction found with
  | nil => rfl
  | cons entry rest ih =>
      simp only [List.map_cons, List.mem_cons, not_or] at absent
      have different : (entry.1 == key) = false := beq_eq_false_iff_ne.mpr (Ne.symm absent.1)
      rw [Entries.put, different, if_neg Bool.false_ne_true, ih absent.2, List.cons_append]

namespace Value

theorem WellKeyed.item {items : List Value} (keyed : WellKeyed (.list items)) {v : Value} (member : v ∈ items) :
    v.WellKeyed :=
  fun inner inside => keyed inner (.item member inside)

theorem WellKeyed.component {items : List Value} (keyed : WellKeyed (.tuple items)) {v : Value} (member : v ∈ items) :
    v.WellKeyed :=
  fun inner inside => keyed inner (.component member inside)

theorem WellKeyed.keys {entries : List (String × Value)} (keyed : WellKeyed (.dict entries)) :
    (entries.map (·.1)).Nodup :=
  keyed entries .here

end Value

namespace Json

section
variable {fuel : Nat} {s rest : List Token}

theorem readValue_of_readItems {vs : List Value} (read : readItems fuel s = .ok (vs, rest)) :
    readValue (fuel + 1) (.listOpen :: s) = .ok (.list vs, rest) := by
  have inside : ∀ later, s ≠ .listClose :: later := by
    rintro later rfl
    cases fuel with
    | zero => cases read
    | succ fuel => cases fuel <;> cases read
  rw [readValue]
  · rw [read]
    rfl
  · exact inside

theorem readValue_of_readEntries {entries : List (String × Value)} (read : readEntries fuel [] s = .ok (entries, rest)) :
    readValue (fuel + 1) (.dictOpen :: s) = .ok (.dict entries, rest) := by
  have inside : ∀ later, s ≠ .dictClose :: later := by
    rintro later rfl
    cases fuel <;> cases read
  rw [readValue]
  · rw [read]
    rfl
  · exact inside

end

/-- Fuel for reading a value: every token may open a list, and every item takes a step. -/
def ReadsBack (v : Value) : Prop :=
  ∀ fuel rest, 2 * (valueTokens v).length ≤ fuel → readValue fuel (valueTokens v ++ rest) = .ok (v.stored, rest)

theorem readItems_of_readsBack {items : List Value} (each : ∀ v ∈ items, ReadsBack v) (nonempty : items ≠ [])
    (fuel : Nat) (rest : List Token)
    (enough : 2 * (List.intercalate [.comma] (items.map valueTokens)).length + 2 ≤ fuel) :
    readItems fuel (List.intercalate [.comma] (items.map valueTokens) ++ .listClose :: rest) =
      .ok (items.map Value.stored, rest) := by
  induction items generalizing fuel with
  | nil => exact absurd rfl nonempty
  | cons v others ih =>
      rcases List.forall_mem_cons.mp each with ⟨first, later⟩
      cases fuel with
      | zero => omega
      | succ fuel =>
          cases others with
          | nil =>
              simp only [List.map_cons, List.map_nil, List.intercalate_singleton] at enough ⊢
              simp only [readItems, first fuel _ (by omega)]
              rfl
          | cons w more =>
              have reads := ih later (List.cons_ne_nil w more) fuel
              simp only [List.map_cons, List.intercalate_cons_cons, List.append_assoc, List.length_append,
                List.length_singleton] at enough reads ⊢
              simp only [readItems, first fuel _ (by omega)]
              simp only [List.cons_append, List.nil_append, bind, Except.bind, reads (by omega)]
              rfl

theorem readEntries_of_readsBack {entries : List (String × Value)} (each : ∀ e ∈ entries, ReadsBack e.2)
    (nonempty : entries ≠ []) (found : List (String × Value))
    (distinct : (found.map (·.1) ++ entries.map (·.1)).Nodup) (fuel : Nat) (rest : List Token)
    (enough : 2 * (List.intercalate [.comma] (entries.map entryToken)).length + 2 ≤ fuel) :
    readEntries fuel found (List.intercalate [.comma] (entries.map entryToken) ++ .dictClose :: rest) =
      .ok (found ++ entries.map fun e => (e.1, e.2.stored), rest) := by
  induction entries generalizing found fuel with
  | nil => exact absurd rfl nonempty
  | cons e others ih =>
      rcases List.forall_mem_cons.mp each with ⟨first, later⟩
      have absent : e.1 ∉ found.map (·.1) := by
        intro member
        exact List.disjoint_of_nodup_append distinct member List.mem_cons_self
      have put := Entries.put_of_not_mem absent e.2.stored
      cases fuel with
      | zero => omega
      | succ fuel =>
          cases others with
          | nil =>
              simp only [List.map_cons, List.map_nil, List.intercalate_singleton, entryToken, List.cons_append,
                List.length_cons] at enough ⊢
              simp only [readEntries, first fuel _ (by omega)]
              simp only [bind, Except.bind, put]
              rfl
          | cons w more =>
              have next : ((found ++ [(e.1, e.2.stored)]).map (·.1) ++ (w :: more).map (·.1)).Nodup := by
                simpa using distinct
              have reads := ih later (List.cons_ne_nil w more) (found ++ [(e.1, e.2.stored)]) next fuel
              simp only [List.map_cons, List.intercalate_cons_cons, List.append_assoc, List.length_append,
                List.length_cons, entryToken, List.cons_append, List.nil_append] at enough reads ⊢
              simp only [readEntries, first fuel _ (by omega)]
              simp only [bind, Except.bind, put, reads (by omega)]

theorem readValue_list {items : List Value} (each : ∀ v ∈ items, ReadsBack v) (fuel : Nat) (rest : List Token)
    (enough : 2 * (blockTokens .listOpen .listClose (items.map valueTokens)).length ≤ fuel) :
    readValue fuel (blockTokens .listOpen .listClose (items.map valueTokens) ++ rest) =
      .ok (.list (items.map Value.stored), rest) := by
  simp only [blockTokens, List.length_cons, List.length_append, List.length_nil] at enough
  simp only [blockTokens, List.cons_append, List.append_assoc, List.nil_append]
  cases fuel with
  | zero => omega
  | succ fuel =>
      cases items with
      | nil => rfl
      | cons v others =>
          exact readValue_of_readItems
            (readItems_of_readsBack each (List.cons_ne_nil v others) fuel rest (by omega))

theorem readValue_dict {entries : List (String × Value)} (each : ∀ e ∈ entries, ReadsBack e.2)
    (distinct : (entries.map (·.1)).Nodup) (fuel : Nat) (rest : List Token)
    (enough : 2 * (blockTokens .dictOpen .dictClose (entries.map entryToken)).length ≤ fuel) :
    readValue fuel (blockTokens .dictOpen .dictClose (entries.map entryToken) ++ rest) =
      .ok (.dict (entries.map fun e => (e.1, e.2.stored)), rest) := by
  simp only [blockTokens, List.length_cons, List.length_append, List.length_nil] at enough
  simp only [blockTokens, List.cons_append, List.append_assoc, List.nil_append]
  cases fuel with
  | zero => omega
  | succ fuel =>
      cases entries with
      | nil => rfl
      | cons e others =>
          exact readValue_of_readEntries
            (readEntries_of_readsBack each (List.cons_ne_nil e others) [] distinct fuel rest (by omega))

theorem readsBack (v : Value) : v.WellKeyed → ReadsBack v := by
  induction v using Value.induct with
  | leaf v leaf =>
      intro _ fuel rest enough
      rw [valueTokens_of_isLeaf leaf] at enough ⊢
      cases fuel with
      | zero => cases enough
      | succ fuel => rw [List.singleton_append, readValue]
  | list items ih =>
      intro keyed fuel rest enough
      rw [valueTokens, itemTokens_eq_map] at enough ⊢
      rw [Value.stored, Value.storedItems_eq_map]
      exact readValue_list (fun v member => ih v member (keyed.item member)) fuel rest enough
  | tuple items ih =>
      intro keyed fuel rest enough
      rw [valueTokens, itemTokens_eq_map] at enough ⊢
      rw [Value.stored, Value.storedItems_eq_map]
      exact readValue_list (fun v member => ih v member (keyed.component member)) fuel rest enough
  | dict entries ih =>
      intro keyed fuel rest enough
      rw [valueTokens, entryTokens_eq_map] at enough ⊢
      rw [Value.stored, Value.storedEntries_eq_map]
      exact readValue_dict (fun e member => ih e member (keyed.entry member)) keyed.keys fuel rest enough

/-- What is written is read as what is left of it, also where blanks follow. -/
theorem read_write_append {layout : Layout} (readable : layout.Readable) {v : Value} (keyed : v.WellKeyed)
    (writable : faults v = []) {trailing : String} (blank : ∀ c ∈ trailing.toList, isBlank c) :
    read (write layout v ++ trailing) = .ok v.stored := by
  have back := readsBack v keyed (2 * (valueTokens v).length + 2) [] (by omega)
  rw [List.append_nil] at back
  rw [read, String.toList_append, tokens_write readable writable blank, readTokens, back]

theorem read_write {layout : Layout} (readable : layout.Readable) {v : Value} (keyed : v.WellKeyed)
    (writable : faults v = []) : read (write layout v) = .ok v.stored := by
  have back := read_write_append readable keyed writable (show ∀ c ∈ "".toList, isBlank c by simp)
  rwa [String.append_empty] at back

end Json
end SchemaMigration
