import SchemaMigration.Proofs.Plan.Document

namespace SchemaMigration
open Document

namespace Document

theorem eq_of_read {α : Type} {read : Value → Except Refusal α} {write : α → Value}
    (back : ∀ a, read (write a) = .ok a) {a b : α} (same : write a = write b) : a = b := by
  have first := back a
  rw [same, back b] at first
  exact (Except.ok.inj first).symm

end Document

theorem Value.texts_eq_of_agrees {vs ws : List String}
    (agrees : Value.Agrees (.list (vs.map .str)) (.list (ws.map .str))) : vs = ws :=
  agrees.list_eq fun _ _ _ same => Value.str.inj ((Value.agrees_leaf rfl _).mp same)

theorem Reference.eq_of_agrees {r s : Reference} (texts : r.table.IsText ∧ r.column.IsText)
    (agrees : r.toValue.Agrees s.toValue) : r = s := by
  have related := Value.Agrees.lookup agrees (Reference.wellKeyed_toValue texts).keys
  have table : r.table = s.table := Value.leaf_eq_of_rel texts.1.isLeaf (related "table")
  have column : r.column = s.column := Value.leaf_eq_of_rel texts.2.isLeaf (related "column")
  cases r
  cases s
  cases table
  cases column
  rfl

namespace Column
variable {b c : Column} (typed : b.Typed) (agrees : b.toValue.Agrees c.toValue)
include typed agrees

theorem lookup_of_agrees (key : String) :
    Option.Rel Value.Agrees ((b.requiredEntries ++ b.optionalEntries).lookup key)
      ((c.requiredEntries ++ c.optionalEntries).lookup key) := by
  have keyed := wellKeyed_toValue typed
  rw [toValue_eq] at keyed agrees
  rw [toValue_eq] at agrees
  exact agrees.lookup keyed.keys key

/-- What is left out says null, no reference and no values. -/
theorem optional_eq_of_agrees :
    b.defaultValue = c.defaultValue ∧ b.references = c.references ∧ b.enumValues = c.enumValues := by
  rcases lookup_optional b with ⟨default, references, enumValues⟩
  rcases lookup_optional c with ⟨otherDefault, otherReferences, otherEnumValues⟩
  have related : ∀ key, b.requiredEntries.lookup key = none → c.requiredEntries.lookup key = none →
      Option.Rel Value.Agrees (b.optionalEntries.lookup key) (c.optionalEntries.lookup key) := by
    intro key absent alsoAbsent
    have here := lookup_of_agrees typed agrees key
    rwa [List.lookup_append, List.lookup_append, absent, alsoAbsent] at here
  refine ⟨?_, ?_, ?_⟩
  · have here := related "defaultValue" rfl rfl
    have leaf := typed.default.leaf
    rw [← default] at leaf
    rw [← default, ← otherDefault]
    generalize b.optionalEntries.lookup "defaultValue" = x at here leaf ⊢
    generalize c.optionalEntries.lookup "defaultValue" = y at here ⊢
    cases here with
    | none => rfl
    | some same => exact (Value.agrees_leaf leaf _).mp same
  · have here := related "references" rfl rfl
    rw [references, otherReferences] at here
    exact Value.option_eq_of_rel (fun r found s => Reference.eq_of_agrees (typed.references r found)) here
  · have here := related "enumValues" rfl rfl
    rw [enumValues, otherEnumValues] at here
    exact Value.option_eq_of_rel (fun _ _ _ => Value.texts_eq_of_agrees) here

theorem eq_of_agrees : b = c := by
  have related := lookup_of_agrees typed agrees
  have name : b.name = c.name := Value.leaf_eq_of_rel typed.name.isLeaf (related "name")
  have type : b.type = c.type := eq_of_read columnTypeOf_name (Value.leaf_eq_of_rel rfl (related "type"))
  have flag : ∀ {x y}, Option.Rel Value.Agrees (some (.bool x)) (some (.bool y)) → x = y :=
    fun same => Value.bool.inj (Value.leaf_eq_of_rel rfl same)
  have key : b.isPrimaryKey = c.isPrimaryKey := flag (related "isPrimaryKey")
  have unique : b.isUnique = c.isUnique := flag (related "isUnique")
  have nullable : b.isNullable = c.isNullable := flag (related "isNullable")
  have hasDefault : b.hasDefault = c.hasDefault := flag (related "hasDefault")
  rcases optional_eq_of_agrees typed agrees with ⟨default, references, enumValues⟩
  cases b
  cases c
  simp only at name type key unique nullable hasDefault default references enumValues
  rw [name, type, key, unique, nullable, hasDefault, default, references, enumValues]

end Column

theorem Index.eq_of_agrees {i j : Index} (typed : i.Typed) (agrees : i.toValue.Agrees j.toValue) : i = j := by
  have related := Value.Agrees.lookup agrees (Index.wellKeyed_toValue typed).keys
  have name : i.name = j.name := Value.leaf_eq_of_rel typed.name.isLeaf (related "name")
  have kind : i.kind = j.kind := eq_of_read indexKindOf_name (Value.leaf_eq_of_rel rfl (related "type"))
  have columns : i.columns = j.columns := by
    cases related "columns" with
    | some same =>
        rw [← List.map_id i.columns, ← List.map_id j.columns] at same
        exact Value.Agrees.list_eq (fun v member _ => (Value.agrees_leaf (typed.columns v member).isLeaf _).mp) same
  cases i
  cases j
  simp only at name kind columns
  rw [name, kind, columns]

theorem Table.eq_of_agrees {t u : Table} (typed : t.Typed) (agrees : t.toValue.Agrees u.toValue) : t = u := by
  have related := Value.Agrees.lookup agrees (Table.wellKeyed_toValue typed).keys
  have name : t.name = u.name := Value.leaf_eq_of_rel typed.name.isLeaf (related "table")
  have columns : t.columns = u.columns := by
    cases related "columns" with
    | some same => exact same.list_eq fun c inTable _ => Column.eq_of_agrees (typed.columns c inTable)
  have indexes : t.indexes = u.indexes := by
    cases related "indexes" with
    | some same => exact same.list_eq fun i listed _ => Index.eq_of_agrees (typed.indexes i listed)
  cases t
  cases u
  simp only at name columns indexes
  rw [name, columns, indexes]

theorem Column.Typed.stored {c : Column} (typed : c.Typed) : c.stored.Typed where
  name := typed.name
  default := by
    rw [Column.stored, storedDefault]
    cases Json.substitute? c.defaultValue with
    | none => exact typed.default
    | some text => exact ⟨rfl, nofun⟩
  references := typed.references

theorem Table.Typed.stored {t : Table} (typed : t.Typed) : t.stored.Typed where
  name := typed.name
  columns := List.forall_mem_map.mpr fun c inTable => (typed.columns c inTable).stored
  indexes := typed.indexes

namespace Plan
variable {p q : Plan} {digest : String}

theorem eq_of_agrees (typed : p.Typed) (agrees : p.toValue.Agrees q.toValue) : p = q := by
  have related := Value.Agrees.lookup agrees (Plan.wellKeyed_toValue typed).keys
  have dialect : p.dialect = q.dialect := eq_of_read dialectOf_name (Value.leaf_eq_of_rel rfl (related "dialect"))
  have tables : p.tables = q.tables := by
    cases related "tables" with
    | some same => exact same.list_eq fun t inPlan _ => Table.eq_of_agrees (typed.tables t inPlan)
  cases p
  cases q
  simp only at dialect tables
  rw [dialect, tables]

theorem Typed.stored (typed : p.Typed) : p.stored.Typed where
  tables := List.forall_mem_map.mpr fun t inPlan => (typed.tables t inPlan).stored

theorem Regular.stored {d : Dialect} (regular : p.Regular d) : p.stored.Regular d := by
  have columns : ∀ t : Table, t.stored.columns.map (·.name) = t.columns.map (·.name) := by
    intro t
    rw [Table.stored, List.map_map]
    rfl
  have tables : p.stored.tables.map (·.name) = p.tables.map (·.name) := by
    rw [Plan.stored, List.map_map]
    rfl
  refine ⟨⟨?_, ?_, ?_, ?_⟩, regular.dialect⟩
  · exact List.forall_mem_map.mpr regular.tableTexts
  · exact List.forall_mem_map.mpr fun t inPlan => List.forall_mem_map.mpr (regular.columnTexts t inPlan)
  · rw [tables]
    exact regular.tablesDistinct
  · refine List.forall_mem_map.mpr fun t inPlan => ?_
    rw [columns]
    exact regular.columnsDistinct t inPlan

theorem writable_of_fingerprint (taken : p.fingerprint = .ok digest) : Json.faults p.toValue = [] := by
  rw [fingerprint, Fingerprint.ofValue] at taken
  cases done : Fingerprint.canonicalText p.toValue with
  | error fault =>
      rw [done] at taken
      cases taken
  | ok text => exact Fingerprint.writable_of_canonicalText done

theorem fingerprint_stored (typed : p.Typed) (taken : p.fingerprint = .ok digest) : p.stored.fingerprint = .ok digest := by
  rw [← taken, fingerprint, fingerprint, Fingerprint.ofValue, Fingerprint.ofValue, ← toValue_stored typed,
    Fingerprint.canonicalText_stored (writable_of_fingerprint taken)]

theorem canonicalText_eq_ok_iff (typed : p.Typed) (alsoTyped : q.Typed) {text : String}
    (written : Fingerprint.canonicalText p.toValue = .ok text) :
    Fingerprint.canonicalText q.toValue = .ok text ↔ p.stored = q.stored := by
  have writable := Fingerprint.writable_of_canonicalText written
  constructor
  · intro sameText
    have alsoWritable := Fingerprint.writable_of_canonicalText sameText
    rw [← written, Fingerprint.canonicalText_of_writable writable,
      Fingerprint.canonicalText_of_writable alsoWritable, Except.ok.injEq, eq_comm] at sameText
    rw [Fingerprint.write_canonical_eq_iff (wellKeyed_toValue typed) (wellKeyed_toValue alsoTyped) writable
      alsoWritable] at sameText
    have agrees := Iff.mp (Fingerprint.separates _ _ (wellKeyed_toValue typed) (wellKeyed_toValue alsoTyped)) sameText
    rw [toValue_stored typed, toValue_stored alsoTyped] at agrees
    exact eq_of_agrees typed.stored agrees
  · intro same
    have alsoWritable : Json.faults q.toValue = [] := by
      rw [← Json.faults_stored_eq_nil_iff, toValue_stored alsoTyped, ← same, ← toValue_stored typed,
        Json.faults_stored_eq_nil_iff]
      exact writable
    rw [← Fingerprint.canonicalText_stored alsoWritable, toValue_stored alsoTyped, ← same, ← toValue_stored typed,
      Fingerprint.canonicalText_stored writable, written]

end Plan
end SchemaMigration
