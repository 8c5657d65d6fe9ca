import SchemaMigration.Proofs.Entries
import SchemaMigration.Proofs.Model.Accepted
import SchemaMigration.Proofs.Work

namespace SchemaMigration

namespace Checked
variable {α β : Type}

theorem within_eq_ok {step : PlaceStep} {x : Checked α} {a : α} : within step x = .ok a ↔ x = .ok a := by
  cases x <;> simp [within]

theorem both_eq_ok {x : Checked α} {y : Checked β} {a : α} {b : β} :
    both x y = .ok (a, b) ↔ x = .ok a ∧ y = .ok b := by
  cases x <;> cases y <;> simp [both]

theorem next_eq_ok {check : α → Checked β} {x : Checked α} {b : β} :
    next check x = .ok b ↔ ∃ a, x = .ok a ∧ check a = .ok b := by
  cases x <;> simp [next]

end Checked

open Checked

section
variable {α : Type}

theorem checkField_eq_ok {entries : List (String × Value)} {name other : String} {absent : Checked α}
    {check : Value → Checked α} {a : α} (checked : checkField entries name other absent check = .ok a) :
    absent = .ok a ∨ ∃ entry ∈ entries, check entry.2 = .ok a := by
  unfold checkField at checked
  split at checked
  case h_2 => exact .inl checked
  case h_1 spelling v found =>
    refine .inr ⟨(spelling, v), ?_, within_eq_ok.mp checked⟩
    unfold spelled? at found
    split at found
    case h_1 w there =>
      cases found
      exact mem_of_lookup_eq_some there
    case h_2 =>
      rcases Option.map_eq_some_iff.mp found with ⟨w, there, same⟩
      cases same
      exact mem_of_lookup_eq_some there

theorem checkOptional_eq_ok {check : Value → Checked α} {v : Value} {a : α}
    (checked : checkOptional check v = .ok (some a)) : check v = .ok a := by
  unfold checkOptional at checked
  split at checked
  · cases checked
  · split at checked
    case h_1 b found => rw [found, Option.some.inj (Except.ok.inj checked)]
    case h_2 => cases checked

theorem checkItems_eq_ok {check : Value → Checked α} {position : Nat} {items : List Value} {found : List α}
    (checked : checkItems check position items = .ok found) : ∀ a ∈ found, ∃ v ∈ items, check v = .ok a := by
  induction items generalizing position found with
  | nil =>
      cases checked
      simp
  | cons v rest ih =>
      rw [checkItems] at checked
      split at checked
      case h_1 b bs both =>
        rcases both_eq_ok.mp both with ⟨first, later⟩
        cases checked
        intro a member
        rcases List.mem_cons.mp member with rfl | inRest
        · exact ⟨v, List.mem_cons_self, within_eq_ok.mp first⟩
        · rcases ih later a inRest with ⟨w, inside, checks⟩
          exact ⟨w, List.mem_cons_of_mem v inside, checks⟩
      case h_2 => cases checked

theorem checkName_eq_ok {context : String} {v : Value} {name : String}
    (checked : checkName context v = .ok name) : Identifier.accepts name := by
  rcases next_eq_ok.mp checked with ⟨found, -, checked⟩
  unfold checkIdentifier at checked
  split at checked
  case isTrue good =>
    cases checked
    exact good
  case isFalse => cases checked

theorem eq_str_of_checkName {context : String} {v : Value} {name : String}
    (checked : checkName context v = .ok name) : v = .str name := by
  rcases next_eq_ok.mp checked with ⟨found, text, checked⟩
  unfold checkIdentifier at checked
  split at checked
  case isTrue =>
    cases checked
    cases v <;> cases text
    rfl
  case isFalse => cases checked

theorem requireSome_eq_ok {items found : List α} (checked : requireSome items = .ok found) : found ≠ [] := by
  cases items with
  | nil => cases checked
  | cons a rest =>
      cases checked
      simp

end

theorem checkEnumValues_eq_ok {v : Value} {values : List String} (checked : checkEnumValues v = .ok values) :
    values ≠ [] := by
  rcases next_eq_ok.mp checked with ⟨items, -, checked⟩
  split at checked
  case h_1 => exact requireSome_eq_ok checked
  case h_2 => cases checked

theorem Attribute.accepted_of_check {v : Value} {a : Attribute} (checked : check v = .ok a) : a.Accepted := by
  rcases next_eq_ok.mp checked with ⟨entries, -, checked⟩
  rcases next_eq_ok.mp checked with ⟨⟨unique, enumValues, type⟩, fields, checked⟩
  rcases (both_eq_ok.trans (and_congr_right' both_eq_ok)).mp fields with ⟨-, enum, -⟩
  change assemble entries unique enumValues type = .ok a at checked
  unfold assemble at checked
  split at checked
  case isTrue => cases checked
  case isFalse complete =>
    cases checked
    refine ⟨?_, ?_, ?_⟩
    · rintro rfl
      rcases checkField_eq_ok enum with absent | ⟨entry, -, given⟩
      · cases absent
      · exact checkEnumValues_eq_ok (checkOptional_eq_ok given) rfl
    · rintro rfl rfl
      exact complete rfl
    · intro undeclared
      have absent : entries.lookup "default" = none := by simpa using undeclared
      simp [absent]

theorem IndexDefinition.accepted_of_check {v : Value} {i : IndexDefinition} (checked : check v = .ok i) :
    i.Accepted := by
  rcases next_eq_ok.mp checked with ⟨entries, -, checked⟩
  rcases next_eq_ok.mp checked with ⟨⟨name, columns⟩, fields, checked⟩
  rcases both_eq_ok.mp fields with ⟨named, listed⟩
  cases checked
  constructor
  · rcases checkField_eq_ok named with absent | ⟨entry, -, given⟩
    · cases absent
    · exact checkName_eq_ok given
  · rcases checkField_eq_ok listed with absent | ⟨entry, -, given⟩
    · cases absent
    · rcases next_eq_ok.mp given with ⟨items, -, given⟩
      rcases next_eq_ok.mp given with ⟨texts, -, given⟩
      exact requireSome_eq_ok given

theorem checkAttributes_eq_ok {entries : List (String × Value)} {attributes : List (String × Attribute)}
    (checked : checkAttributes entries = .ok attributes) :
    attributes.map (·.1) = entries.map (·.1) ∧ ∀ a ∈ attributes, a.2.Accepted := by
  induction entries generalizing attributes with
  | nil =>
      cases checked
      simp
  | cons entry rest ih =>
      rw [checkAttributes] at checked
      split at checked
      case h_1 a as both =>
        rcases both_eq_ok.mp both with ⟨first, later⟩
        rcases ih later with ⟨names, accepted⟩
        cases checked
        exact ⟨congrArg (entry.1 :: ·) names, List.forall_mem_cons.mpr
          ⟨Attribute.accepted_of_check (within_eq_ok.mp first), accepted⟩⟩
      case h_2 => cases checked

theorem checkAttributeNames_eq_ok {attributes found : List (String × Attribute)}
    (checked : checkAttributeNames attributes = .ok found) :
    found = attributes ∧ ∀ a ∈ attributes, Identifier.accepts a.1 := by
  unfold checkAttributeNames at checked
  split at checked
  case h_1 => cases checked
  case h_2 good =>
    cases checked
    exact ⟨rfl, by simpa using good⟩

namespace Value

/-- A value is somewhere inside another one, or is it. -/
inductive Within (v : Value) : Value → Prop where
  | here : Within v v
  | item {items : List Value} {w : Value} (member : w ∈ items) (inside : Within v w) : Within v (.list items)
  | component {items : List Value} {w : Value} (member : w ∈ items) (inside : Within v w) :
      Within v (.tuple items)
  | entry {entries : List (String × Value)} {e : String × Value} (member : e ∈ entries)
      (inside : Within v e.2) : Within v (.dict entries)

/-- No dictionary in the value has a key twice. -/
def WellKeyed (v : Value) : Prop := ∀ entries, Within (.dict entries) v → (entries.map (·.1)).Nodup

theorem WellKeyed.entry {entries : List (String × Value)} (keyed : WellKeyed (.dict entries))
    {e : String × Value} (member : e ∈ entries) : e.2.WellKeyed :=
  fun inner inside => keyed inner (.entry member inside)

theorem wellKeyed_str (s : String) : WellKeyed (.str s) := by
  intro entries inside
  cases inside

theorem WellKeyed.member {v w : Value} {members : List Value} (keyed : v.WellKeyed)
    (listed : v.members? = some members) (member : w ∈ members) : w.WellKeyed := by
  cases v with
  | list items =>
      cases listed
      exact fun inner inside => keyed inner (.item member inside)
  | tuple items =>
      cases listed
      exact fun inner inside => keyed inner (.component member inside)
  | str s =>
      cases listed
      rcases List.mem_map.mp member with ⟨c, -, rfl⟩
      exact wellKeyed_str _
  | dict entries =>
      cases listed
      rcases List.mem_map.mp member with ⟨e, -, rfl⟩
      exact wellKeyed_str _
  | null | bool | int | float | decimal | date | datetime | foreign => cases listed

end Value

theorem Model.accepted_of_check {entries : List (String × Value)} (keyed : ∀ e ∈ entries, e.2.WellKeyed)
    {m : Model} (checked : check (.dict entries) = .ok m) : m.Accepted := by
  rcases next_eq_ok.mp checked with ⟨_, here, checked⟩
  cases here
  rcases next_eq_ok.mp checked with ⟨⟨name, table, primaryKey, attributes, indexes⟩, fields, checked⟩
  cases checked
  rcases both_eq_ok.mp fields with ⟨named, fields⟩
  rcases both_eq_ok.mp fields with ⟨tabled, fields⟩
  rcases both_eq_ok.mp fields with ⟨keyNamed, fields⟩
  rcases both_eq_ok.mp fields with ⟨attributed, indexed⟩
  have attributesGood : (∀ a ∈ attributes, Identifier.accepts a.1) ∧ (attributes.map (·.1)).Nodup ∧
      ∀ a ∈ attributes, a.2.Accepted := by
    rcases checkField_eq_ok attributed with absent | ⟨e, member, given⟩
    · cases absent
      simp
    · rcases next_eq_ok.mp given with ⟨found, dictionary, given⟩
      rcases next_eq_ok.mp given with ⟨read, attributesRead, given⟩
      rcases checkAttributeNames_eq_ok given with ⟨rfl, good⟩
      rcases checkAttributes_eq_ok attributesRead with ⟨names, accepted⟩
      have distinct : (found.map (·.1)).Nodup := by
        unfold checkDictionary at dictionary
        split at dictionary
        case h_1 there =>
          cases dictionary
          exact keyed e member found (there ▸ .here)
        case h_2 => cases dictionary
      exact ⟨good, names ▸ distinct, accepted⟩
  refine ⟨?_, ?_, ?_, attributesGood.1, attributesGood.2.1, attributesGood.2.2, ?_⟩
  · rcases checkField_eq_ok named with absent | ⟨e, -, given⟩
    · cases absent
    · exact checkName_eq_ok given
  · rintro t rfl
    rcases checkField_eq_ok tabled with absent | ⟨e, -, given⟩
    · cases absent
    · exact checkName_eq_ok (checkOptional_eq_ok given)
  · rintro k rfl
    rcases checkField_eq_ok keyNamed with absent | ⟨e, -, given⟩
    · cases absent
    · exact checkName_eq_ok (checkOptional_eq_ok given)
  · intro i member
    rcases checkField_eq_ok indexed with absent | ⟨e, -, given⟩
    · cases absent
      cases member
    · rcases next_eq_ok.mp given with ⟨items, -, given⟩
      rcases checkItems_eq_ok given i member with ⟨v, -, given⟩
      exact IndexDefinition.accepted_of_check given

theorem Model.name_of_check {entries : List (String × Value)} {m : Model} (checked : check (.dict entries) = .ok m) :
    entries.lookup "name" = some (.str m.name) := by
  rcases next_eq_ok.mp checked with ⟨_, here, checked⟩
  cases here
  rcases next_eq_ok.mp checked with ⟨⟨name, table, primaryKey, attributes, indexes⟩, fields, checked⟩
  cases checked
  have named := (both_eq_ok.mp fields).1
  rw [checkField, spelled?] at named
  cases found : entries.lookup "name" with
  | none =>
      rw [found] at named
      cases named
  | some v =>
      rw [found] at named
      rw [eq_str_of_checkName (within_eq_ok.mp named)]

namespace ModelSet

def EachKeyed (entries : List (String × Value)) : Prop := ∀ e ∈ entries, e.2.WellKeyed

theorem eachKeyed_put {key : String} {v : Value} {entries : List (String × Value)} (keyed : EachKeyed entries)
    (wellKeyed : v.WellKeyed) : EachKeyed (Entries.put key v entries) := by
  induction entries with
  | nil => exact List.forall_mem_singleton.mpr wellKeyed
  | cons entry rest ih =>
      rcases List.forall_mem_cons.mp keyed with ⟨first, others⟩
      unfold Entries.put
      split
      · exact List.forall_mem_cons.mpr ⟨wellKeyed, others⟩
      · exact List.forall_mem_cons.mpr ⟨first, ih others⟩

theorem eachKeyed_putPair {entries result : List (String × Value)} {pair : Value} (keyed : EachKeyed entries)
    (wellKeyed : pair.WellKeyed) (done : putPair entries pair = .ok result) : EachKeyed result := by
  unfold putPair at done
  split at done
  case h_1 => cases done
  case h_2 key v listed =>
    split at done
    · cases done
      exact eachKeyed_put keyed (wellKeyed.member listed (by simp))
    · split at done
      · cases done
        exact keyed
      · cases done
  case h_3 => cases done

theorem eachKeyed_putPairs {entries result : List (String × Value)} {pairs : List Value}
    (keyed : EachKeyed entries) (wellKeyed : ∀ pair ∈ pairs, pair.WellKeyed)
    (done : putPairs entries pairs = .ok result) : EachKeyed result := by
  induction pairs generalizing entries with
  | nil =>
      cases done
      exact keyed
  | cons pair rest ih =>
      rcases List.forall_mem_cons.mp wellKeyed with ⟨first, others⟩
      cases put : putPair entries pair with
      | error refusal =>
          rw [putPairs, put] at done
          cases done
      | ok found =>
          rw [putPairs, put] at done
          exact ih (eachKeyed_putPair keyed first put) others done

theorem eachKeyed_definitionEntries {definition : Value} {entries : List (String × Value)}
    (keyed : definition.WellKeyed) (done : definitionEntries definition = .ok entries) : EachKeyed entries := by
  unfold definitionEntries at done
  split at done
  case h_1 =>
    cases done
    exact fun e member => keyed.entry member
  case h_2 =>
    split at done
    · cases done
    · exact eachKeyed_putPairs (by simp [EachKeyed]) (fun pair member => keyed.member ‹_› member) done

theorem accepted_of_readEntry {key : String} {definition : Value} {m : Model} (keyed : definition.WellKeyed)
    (done : readEntry key definition = .ok m) : m.Accepted := by
  unfold readEntry at done
  cases found : definitionEntries definition with
  | error refusal =>
      rw [found] at done
      cases done
  | ok entries =>
      have each := eachKeyed_definitionEntries keyed found
      have named : EachKeyed (withName key entries) := by
        unfold withName
        split
        · exact each
        · exact List.forall_mem_append.mpr ⟨each, List.forall_mem_singleton.mpr (Value.wellKeyed_str key)⟩
      cases checked : Model.check (.dict (withName key entries)) with
      | ok model =>
          simp only [found, checked, bind, Except.bind] at done
          cases done
          exact Model.accepted_of_check named checked
      | error problems =>
          simp only [found, checked, bind, Except.bind] at done
          cases done

theorem name_of_readEntry {key : String} {definition : Value} {m : Model} (done : readEntry key definition = .ok m)
    (unnamed : ∀ fields, definitionEntries definition = .ok fields → fields.lookup "name" = none) : m.name = key := by
  rcases bind_eq_ok done with ⟨fields, listed, done⟩
  split at done
  case h_1 model checked =>
    cases done
    have named := Model.name_of_check checked
    rw [withName, unnamed fields listed, Option.isSome_none, if_neg Bool.false_ne_true, List.lookup_append,
      unnamed fields listed] at named
    exact (Value.str.inj (Option.some.inj named)).symm
  case h_2 => cases done

theorem readEntries_eq_ok {entries : List (String × Value)} {models : ModelSet} (keyed : EachKeyed entries)
    (done : readEntries entries = .ok models) :
    models.map (·.1) = entries.map (·.1) ∧ ∀ entry ∈ models, entry.2.Accepted := by
  induction entries generalizing models with
  | nil =>
      cases done
      simp
  | cons entry rest ih =>
      rcases List.forall_mem_cons.mp keyed with ⟨first, others⟩
      rw [readEntries] at done
      cases read : readEntry entry.1 entry.2 with
      | error refusal =>
          rw [read] at done
          cases done
      | ok model =>
          rw [read] at done
          cases later : readEntries rest with
          | error refusal =>
              rw [later] at done
              cases done
          | ok found =>
              rw [later] at done
              cases done
              rcases ih others later with ⟨names, accepted⟩
              exact ⟨congrArg (entry.1 :: ·) names,
                List.forall_mem_cons.mpr ⟨accepted_of_readEntry first read, accepted⟩⟩

theorem accepted_of_ofValue {v : Value} {models : ModelSet} (keyed : v.WellKeyed)
    (done : ofValue v = .ok models) : models.Accepted := by
  unfold ofValue at done
  split at done
  case h_1 entries =>
    rcases readEntries_eq_ok (fun e member => keyed.entry member) done with ⟨names, accepted⟩
    exact ⟨names ▸ keyed entries .here, accepted⟩
  case h_2 => cases done

end ModelSet
end SchemaMigration
