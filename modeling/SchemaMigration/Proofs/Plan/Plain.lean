import SchemaMigration.Proofs.Json.Plain
import SchemaMigration.Snapshot.Store

namespace SchemaMigration
open Document

structure Reference.IsPlain (r : Reference) : Prop where
  table : r.table.IsPlain
  column : r.column.IsPlain

structure Column.IsPlain (c : Column) : Prop where
  name : c.name.IsPlain
  default : c.defaultValue.IsPlain
  references : ∀ r ∈ c.references, r.IsPlain

structure Index.IsPlain (i : Index) : Prop where
  name : i.name.IsPlain
  columns : ∀ v ∈ i.columns, v.IsPlain

structure Table.IsPlain (t : Table) : Prop where
  name : t.name.IsPlain
  columns : ∀ c ∈ t.columns, c.IsPlain
  indexes : ∀ i ∈ t.indexes, i.IsPlain

def Plan.IsPlain (p : Plan) : Prop := ∀ t ∈ p.tables, t.IsPlain

namespace Document

theorem plain_of_field {key : String} {v w : Value} (plain : v.IsPlain) (found : field key v = .ok w) : w.IsPlain := by
  unfold field at found
  split at found
  · split at found
    · rename_i stored
      cases found
      exact plain.lookup stored
    · cases found
  · cases found

theorem eq_dict_of_entriesOf {v : Value} {entries : List (String × Value)} (found : entriesOf v = .ok entries) :
    v = .dict entries := by
  unfold entriesOf at found
  split at found
  · cases found
    rfl
  · cases found

theorem plain_of_membersOf {v : Value} {items : List Value} (plain : v.IsPlain) (found : membersOf v = .ok items) :
    ∀ item ∈ items, item.IsPlain := by
  unfold membersOf at found
  split at found
  · rename_i listed
    cases found
    exact plain.members listed
  · cases found

theorem forall_mem_of_each {α : Type} {read : Value → Except Refusal α} {holds : α → Prop}
    (one : ∀ {v a}, v.IsPlain → read v = .ok a → holds a) {items : List Value} (plain : ∀ v ∈ items, v.IsPlain)
    {found : List α} (done : each read items = .ok found) : ∀ a ∈ found, holds a := by
  induction items generalizing found with
  | nil =>
      cases done
      exact List.forall_mem_nil _
  | cons v rest ih =>
      rcases List.forall_mem_cons.mp plain with ⟨first, later⟩
      rcases bind_eq_ok done with ⟨a, read, done⟩
      rcases bind_eq_ok done with ⟨others, reads, ⟨⟩⟩
      exact List.forall_mem_cons.mpr ⟨one first read, ih later reads⟩

theorem plain_getD_lookup {entries : List (String × Value)} (plain : (Value.dict entries).IsPlain) (key : String)
    {otherwise : Value} (fallback : otherwise.IsPlain) : ((entries.lookup key).getD otherwise).IsPlain := by
  cases found : entries.lookup key with
  | none => exact fallback
  | some v => exact plain.lookup found

end Document

theorem Reference.plain_of_ofValue {v : Value} {r : Reference} (plain : v.IsPlain) (done : ofValue v = .ok r) :
    r.IsPlain := by
  rcases bind_eq_ok done with ⟨table, first, done⟩
  rcases bind_eq_ok done with ⟨column, second, ⟨⟩⟩
  exact ⟨plain_of_field plain first, plain_of_field plain second⟩

theorem Column.plain_of_referencesOf {entries : List (String × Value)} (plain : (Value.dict entries).IsPlain)
    {references : Option Reference} (done : referencesOf entries = .ok references) : ∀ r ∈ references, r.IsPlain := by
  unfold referencesOf at done
  split at done
  · cases done
    exact nofun
  · rename_i v stored
    split at done
    · cases read : Reference.ofValue v with
      | error refusal =>
          rw [read] at done
          cases done
      | ok r =>
          rw [read] at done
          cases done
          rintro _ ⟨⟩
          exact Reference.plain_of_ofValue (plain.lookup stored) read
    · cases done
      exact nofun

theorem Column.plain_of_ofValue {v : Value} {c : Column} (plain : v.IsPlain) (done : ofValue v = .ok c) : c.IsPlain := by
  rcases bind_eq_ok done with ⟨entries, listed, done⟩
  rcases bind_eq_ok done with ⟨name, named, done⟩
  rcases bind_eq_ok done with ⟨_, -, done⟩
  rcases bind_eq_ok done with ⟨type, -, done⟩
  rcases bind_eq_ok done with ⟨references, referring, done⟩
  rcases bind_eq_ok done with ⟨enumValues, -, ⟨⟩⟩
  rcases eq_dict_of_entriesOf listed with rfl
  exact ⟨plain_of_field plain named, plain_getD_lookup plain _ .null, plain_of_referencesOf plain referring⟩

theorem Index.plain_of_ofValue {v : Value} {i : Index} (plain : v.IsPlain) (done : ofValue v = .ok i) : i.IsPlain := by
  rcases bind_eq_ok done with ⟨name, named, done⟩
  rcases bind_eq_ok done with ⟨stored, found, done⟩
  rcases bind_eq_ok done with ⟨columns, listed, done⟩
  rcases bind_eq_ok done with ⟨_, -, done⟩
  rcases bind_eq_ok done with ⟨kind, -, ⟨⟩⟩
  exact ⟨plain_of_field plain named, plain_of_membersOf (plain_of_field plain found) listed⟩

theorem Table.plain_of_ofValue {v : Value} {t : Table} (plain : v.IsPlain) (done : ofValue v = .ok t) : t.IsPlain := by
  rcases bind_eq_ok done with ⟨name, named, done⟩
  rcases bind_eq_ok done with ⟨entries, listed, done⟩
  rcases bind_eq_ok done with ⟨columnValues, columnsListed, done⟩
  rcases bind_eq_ok done with ⟨columns, columnsRead, done⟩
  rcases bind_eq_ok done with ⟨indexValues, indexesListed, done⟩
  rcases bind_eq_ok done with ⟨indexes, indexesRead, ⟨⟩⟩
  rcases eq_dict_of_entriesOf listed with rfl
  have members : ∀ {key : String} {items : List Value},
      membersOf ((entries.lookup key).getD (.list [])) = .ok items → ∀ item ∈ items, item.IsPlain :=
    fun found => plain_of_membersOf (plain_getD_lookup plain _ (.list (List.forall_mem_nil _))) found
  exact ⟨plain_of_field plain named, forall_mem_of_each Column.plain_of_ofValue (members columnsListed) columnsRead,
    forall_mem_of_each Index.plain_of_ofValue (members indexesListed) indexesRead⟩

theorem Plan.plain_of_ofValue {v : Value} {p : Plan} (plain : v.IsPlain) (done : ofValue v = .ok p) : p.IsPlain := by
  rcases bind_eq_ok done with ⟨_, -, done⟩
  rcases bind_eq_ok done with ⟨dialect, -, done⟩
  rcases bind_eq_ok done with ⟨stored, found, done⟩
  rcases bind_eq_ok done with ⟨items, listed, done⟩
  rcases bind_eq_ok done with ⟨tables, read, ⟨⟩⟩
  exact forall_mem_of_each Table.plain_of_ofValue (plain_of_membersOf (plain_of_field plain found) listed) read

namespace Snapshot

theorem plain_of_readPlan {v : Value} {p : Plan} (plain : v.IsPlain) (done : readPlan v = .ok p) : p.IsPlain := by
  unfold readPlan at done
  split at done
  · rename_i read
    cases done
    exact Plan.plain_of_ofValue plain read
  · cases done

theorem plain_of_ofPlanValue {v : Value} {s : Snapshot} (plain : v.IsPlain) (done : ofPlanValue v = .ok s) :
    s.plan.IsPlain := by
  rcases bind_eq_ok done with ⟨p, read, done⟩
  rcases bind_eq_ok done with ⟨fingerprint, -, ⟨⟩⟩
  exact plain_of_readPlan plain read

theorem plain_of_ofValue {v : Value} {s : Snapshot} (plain : v.IsPlain) (done : ofValue v = .ok s) : s.plan.IsPlain := by
  unfold ofValue at done
  split at done
  · split at done
    · rename_i stored found
      rcases bind_eq_ok done with ⟨p, read, done⟩
      rcases bind_eq_ok done with ⟨fingerprint, -, done⟩
      rcases bind_eq_ok done with ⟨updatedAt, -, ⟨⟩⟩
      exact plain_of_readPlan (plain.lookup found) read
    · exact plain_of_ofPlanValue plain done
  · exact plain_of_ofPlanValue plain done

theorem plain_of_readJson {p : FilePath} {v : Value} {before after : Site}
    (done : Site.readJson p before = (.ok v, after)) : v.IsPlain := by
  rcases Work.bind_eq_ok_iff.mp done with ⟨text, site, -, done⟩
  cases read : Json.read text with
  | error refusal =>
      rw [read] at done
      cases refusal <;> cases done
  | ok w =>
      rw [read] at done
      cases done
      exact Json.plain_of_read read

theorem plain_of_load {p : FilePath} {s : Snapshot} {before after : Site}
    (done : load p before = (.ok (some s), after)) : s.plan.IsPlain := by
  rcases Work.bind_eq_ok_iff.mp done with ⟨there, site, -, done⟩
  split at done
  · rcases Work.bind_eq_ok_iff.mp done with ⟨result, later, attempted, done⟩
    split at done
    · cases done
      rw [Work.attempt_eq_ok_iff] at attempted
      rcases Work.bind_eq_ok_iff.mp attempted with ⟨v, read, stored, made⟩
      exact plain_of_ofValue (plain_of_readJson stored) (Work.ofExcept_eq_ok_iff.mp made).1
    · split at done
      · rcases Work.bind_eq_ok_iff.mp done with ⟨_, _, -, ⟨⟩⟩
      · cases done
  · cases done

end Snapshot
end SchemaMigration
