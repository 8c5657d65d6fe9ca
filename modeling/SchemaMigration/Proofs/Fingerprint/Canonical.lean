import SchemaMigration.Fingerprint
import SchemaMigration.Proofs.Json.Reader
import SchemaMigration.Proofs.Text.Order
import SchemaMigration.Proofs.Value.Agreement

namespace SchemaMigration
open Value

namespace Value

/-- A value that can be written: dictionaries have distinct keys, no part is of an unknown kind, and no
integer has more than 4300 digits. -/
structure Plain (v : Value) : Prop where
  keyed : v.WellKeyed
  known : ∀ kind, ¬ Within (.foreign kind) v
  short : ∀ n, Within (.int n) v → (Numeral.digits n.natAbs).length ≤ 4300

theorem wellKeyed_of_isLeaf {v : Value} (leaf : v.isLeaf) : v.WellKeyed := by
  intro entries inside
  cases v with
  | list | tuple | dict => cases leaf
  | _ => cases inside

theorem wellKeyed_list {items : List Value} (each : ∀ v ∈ items, v.WellKeyed) : WellKeyed (.list items) := by
  intro entries inside
  cases inside with
  | item member inside => exact each _ member entries inside

theorem wellKeyed_dict {entries : List (String × Value)} (distinct : (entries.map (·.1)).Nodup)
    (each : ∀ e ∈ entries, e.2.WellKeyed) : WellKeyed (.dict entries) := by
  intro inner inside
  cases inside with
  | here => exact distinct
  | entry member inside => exact each _ member inner inside

theorem wellKeyed_tuple {items : List Value} (each : ∀ v ∈ items, v.WellKeyed) : WellKeyed (.tuple items) := by
  intro entries inside
  cases inside with
  | component member inside => exact each _ member entries inside

theorem Plain.leaf {v : Value} (leaf : v.isLeaf) (known : ∀ kind, v ≠ .foreign kind)
    (short : ∀ n, v = .int n → (Numeral.digits n.natAbs).length ≤ 4300) : v.Plain := by
  have only : ∀ w, Within w v → w = v := by
    intro w inside
    cases inside with
    | here => rfl
    | item | component | entry => cases leaf
  exact ⟨wellKeyed_of_isLeaf leaf, fun kind inside => known kind (only _ inside).symm,
    fun n inside => short n (only _ inside).symm⟩

section
variable {items : List Value} (each : ∀ v ∈ items, v.Plain)
include each

theorem Plain.list : Plain (.list items) where
  keyed := wellKeyed_list fun v member => (each v member).keyed
  known kind := by
    rintro (_ | ⟨member, inside⟩)
    exact (each _ member).known kind inside
  short n := by
    rintro (_ | ⟨member, inside⟩)
    exact (each _ member).short n inside

theorem Plain.tuple : Plain (.tuple items) where
  keyed := wellKeyed_tuple fun v member => (each v member).keyed
  known kind := by
    rintro (_ | _ | ⟨member, inside⟩)
    exact (each _ member).known kind inside
  short n := by
    rintro (_ | _ | ⟨member, inside⟩)
    exact (each _ member).short n inside

end

theorem Plain.dict {entries : List (String × Value)} (distinct : (entries.map (·.1)).Nodup)
    (each : ∀ e ∈ entries, e.2.Plain) : Plain (.dict entries) where
  keyed := wellKeyed_dict distinct fun e member => (each e member).keyed
  known kind := by
    rintro (_ | _ | _ | ⟨member, inside⟩)
    exact (each _ member).known kind inside
  short n := by
    rintro (_ | _ | _ | ⟨member, inside⟩)
    exact (each _ member).short n inside

end Value

namespace Json

theorem faults_eq_nil {v : Value} (known : ∀ kind, ¬ Within (.foreign kind) v)
    (short : ∀ n, Within (.int n) v → (Numeral.digits n.natAbs).length ≤ 4300) : faults v = [] := by
  induction v using Value.induct with
  | leaf v leaf =>
      cases v with
      | int n =>
          have limit : Value.integerLimit = tenTo 4300 := rfl
          rw [faults, limit, tenTo_eq, if_pos ((Numeral.length_digits_le_iff (by decide)).mp (short n .here))]
      | foreign kind => exact absurd .here (known kind)
      | list | tuple | dict => cases leaf
      | _ => rfl
  | list items ih =>
      rw [faults, itemFaults_eq_nil_iff]
      exact fun v member => ih v member (fun kind inside => known kind (.item member inside))
        fun n inside => short n (.item member inside)
  | tuple items ih =>
      rw [faults, itemFaults_eq_nil_iff]
      exact fun v member => ih v member (fun kind inside => known kind (.component member inside))
        fun n inside => short n (.component member inside)
  | dict entries ih =>
      rw [faults, entryFaults_eq_nil_iff]
      exact fun e member => ih e member (fun kind inside => known kind (.entry member inside))
        fun n inside => short n (.entry member inside)

theorem leafText_stored (layout : Layout) {v : Value} (leaf : v.isLeaf) :
    leafText layout v.storedLeaf = leafText layout v := by
  cases v with
  | list | tuple | dict => cases leaf
  | _ => rfl

theorem valueText_stored (layout : Layout) (v : Value) :
    ∀ level, valueText layout level v.stored = valueText layout level v := by
  induction v using Value.induct with
  | leaf v leaf =>
      intro level
      rw [stored_of_isLeaf leaf, valueText_of_isLeaf layout level leaf,
        valueText_of_isLeaf layout level (isLeaf_storedLeaf leaf), leafText_stored layout leaf]
  | list items ih | tuple items ih =>
      intro level
      rw [stored, storedItems_eq_map, valueText, valueText, itemTexts_eq_map, itemTexts_eq_map, List.map_map]
      exact congrArg _ (List.map_congr_left fun v member => ih v member (level + 1))
  | dict entries ih =>
      intro level
      rw [stored, storedEntries_eq_map, valueText, valueText, entryTexts_eq_map, entryTexts_eq_map, List.map_map]
      exact congrArg _ (List.map_congr_left fun e member => congrArg _ (ih e member (level + 1)))

theorem faults_stored_eq_nil_iff (v : Value) : faults v.stored = [] ↔ faults v = [] := by
  induction v using Value.induct with
  | leaf v leaf =>
      cases v with
      | list | tuple | dict => cases leaf
      | _ => rfl
  | list items ih | tuple items ih =>
      rw [Value.stored, Value.storedItems_eq_map, faults, faults, itemFaults_eq_nil_iff, itemFaults_eq_nil_iff,
        List.forall_mem_map]
      exact forall₂_congr ih
  | dict entries ih =>
      rw [Value.stored, Value.storedEntries_eq_map, faults, faults, entryFaults_eq_nil_iff, entryFaults_eq_nil_iff,
        List.forall_mem_map]
      exact forall₂_congr ih

end Json

namespace Fingerprint
open Json

theorem canonicalItems_eq_map (items : List Value) : canonicalItems items = items.map canonical := by
  induction items with
  | nil => rfl
  | cons v rest ih => rw [canonicalItems, ih, List.map_cons]

theorem canonicalEntries_eq_map (entries : List (String × Value)) :
    canonicalEntries entries = entries.map fun e => (e.1, canonical e.2) := by
  induction entries with
  | nil => rfl
  | cons e rest ih => rw [canonicalEntries, ih, List.map_cons]

theorem canonical_of_isLeaf {v : Value} (leaf : v.isLeaf) : canonical v = v := by
  cases v with
  | list | tuple | dict => cases leaf
  | _ => rfl

theorem mem_sorted_iff {entries : List (String × Value)} {e : String × Value} :
    e ∈ Text.sortBy (·.1) entries ↔ e ∈ entries :=
  (Text.sortBy_perm _ entries).mem_iff

theorem wellKeyed_canonical (v : Value) : v.WellKeyed → (canonical v).WellKeyed := by
  induction v using Value.induct with
  | leaf v leaf =>
      intro keyed
      rwa [canonical_of_isLeaf leaf]
  | list items ih =>
      intro keyed
      rw [canonical, canonicalItems_eq_map]
      apply wellKeyed_list
      rw [List.forall_mem_map]
      exact fun v member => ih v member (keyed.item member)
  | tuple items ih =>
      intro keyed
      rw [canonical, canonicalItems_eq_map]
      apply wellKeyed_list
      rw [List.forall_mem_map]
      exact fun v member => ih v member (keyed.component member)
  | dict entries ih =>
      intro keyed
      rw [canonical, canonicalEntries_eq_map]
      apply wellKeyed_dict
      · rw [((Text.sortBy_perm _ _).map _).nodup_iff, List.map_map]
        exact keyed.keys
      · intro e member
        rw [mem_sorted_iff, List.mem_map] at member
        rcases member with ⟨entry, member, rfl⟩
        exact ih entry member (keyed.entry member)

theorem faults_canonical (v : Value) : faults (canonical v) = [] ↔ faults v = [] := by
  induction v using Value.induct with
  | leaf v leaf => rw [canonical_of_isLeaf leaf]
  | list items ih | tuple items ih =>
      rw [canonical, canonicalItems_eq_map, faults, faults, itemFaults_eq_nil_iff, itemFaults_eq_nil_iff,
        List.forall_mem_map]
      exact forall₂_congr ih
  | dict entries ih =>
      rw [canonical, canonicalEntries_eq_map, faults, faults, entryFaults_eq_nil_iff, entryFaults_eq_nil_iff]
      simp only [mem_sorted_iff, List.forall_mem_map]
      exact forall₂_congr ih

/-- Sorting entries and leaving out what a text does not say can be done in either order. -/
theorem stored_canonical (v : Value) : (canonical v).stored = canonical v.stored := by
  induction v using Value.induct with
  | leaf v leaf =>
      rw [canonical_of_isLeaf leaf, stored_of_isLeaf leaf, canonical_of_isLeaf (isLeaf_storedLeaf leaf)]
  | list items ih | tuple items ih =>
      rw [canonical, stored, stored, canonical, storedItems_eq_map, storedItems_eq_map, canonicalItems_eq_map,
        canonicalItems_eq_map, List.map_map, List.map_map]
      exact congrArg _ (List.map_congr_left ih)
  | dict entries ih =>
      have sorted := Text.sortBy_map (fun e : String × Value => e.1) (fun e : String × Value => e.1)
        (f := fun e => (e.1, e.2.stored)) (fun _ => rfl) (entries.map fun e => (e.1, canonical e.2))
      rw [canonical, stored, stored, canonical, storedEntries_eq_map, storedEntries_eq_map, canonicalEntries_eq_map,
        canonicalEntries_eq_map, ← sorted, List.map_map, List.map_map]
      refine congrArg _ (congrArg _ (List.map_congr_left fun e member => ?_))
      exact congrArg (Prod.mk e.1) (ih e member)

theorem eq_canonical_iff_of_isLeaf {a : Value} (leaf : a.isLeaf) (b : Value) : a = canonical b ↔ a = b := by
  have notLeaf : ∀ {c : Value}, c.isLeaf = false → a ≠ c := by
    rintro c other rfl
    exact absurd leaf (by rw [other]; decide)
  cases b with
  | list | tuple | dict => exact iff_of_false (notLeaf rfl) (notLeaf rfl)
  | _ => exact Iff.rfl

theorem canonicalItems_eq_iff {items others : List Value}
    (each : ∀ v ∈ items, ∀ w ∈ others, canonical v = canonical w ↔ v.Agrees w) :
    items.map canonical = others.map canonical ↔ List.Forall₂ Agrees items others := by
  induction items generalizing others with
  | nil => cases others <;> simp
  | cons v items ih =>
      cases others with
      | nil => simp
      | cons w others =>
          have first := each v List.mem_cons_self w List.mem_cons_self
          have later := ih fun v member w member' =>
            each v (List.mem_cons_of_mem _ member) w (List.mem_cons_of_mem _ member')
          rw [List.map_cons, List.map_cons, List.cons_eq_cons, List.forall₂_cons, first, later]

theorem canonicalEntries_eq_iff {entries others : List (String × Value)} (distinct : (entries.map (·.1)).Nodup)
    (alsoDistinct : (others.map (·.1)).Nodup)
    (each : ∀ e ∈ entries, ∀ f ∈ others, canonical e.2 = canonical f.2 ↔ e.2.Agrees f.2) :
    Text.sortBy (·.1) (entries.map fun e => (e.1, canonical e.2)) =
        Text.sortBy (·.1) (others.map fun e => (e.1, canonical e.2)) ↔
      entries.length = others.length ∧ ∀ e ∈ entries, ∃ b, others.lookup e.1 = some b ∧ e.2.Agrees b := by
  have keys : ((entries.map fun e => (e.1, canonical e.2)).map (·.1)).Nodup := by
    rw [List.map_map]
    exact distinct
  rw [Text.sortBy_eq_sortBy_iff _ fun a first b second same => List.inj_on_of_nodup_map keys first second same]
  constructor
  · intro same
    refine ⟨by simpa using same.length_eq, fun e member => ?_⟩
    have there := same.mem_iff.mp (List.mem_map_of_mem member)
    rcases List.mem_map.mp there with ⟨f, here, equal⟩
    rcases Prod.mk.inj equal with ⟨key, value⟩
    refine ⟨f.2, ?_, (each e member f here).mp value.symm⟩
    rw [← key]
    exact lookup_eq_some_of_mem alsoDistinct here
  · rintro ⟨long, agree⟩
    have within : (entries.map fun e => (e.1, canonical e.2)) ⊆ others.map fun e => (e.1, canonical e.2) := by
      intro pair member
      rcases List.mem_map.mp member with ⟨e, here, rfl⟩
      rcases agree e here with ⟨b, found, agrees⟩
      have there := mem_of_lookup_eq_some found
      rw [(each e here (e.1, b) there).mpr agrees]
      exact List.mem_map_of_mem there
    exact (List.subperm_of_subset keys.of_map within).perm_of_length_le (by simp [long])

def Separates (x y : Value) : Prop := canonical x.stored = canonical y.stored ↔ x.stored.Agrees y.stored

theorem separates_sequence {items : List Value} (each : ∀ v ∈ items, ∀ w, w.WellKeyed → Separates v w) {y : Value}
    (keyed : y.WellKeyed) :
    canonical (.list (items.map stored)) = canonical y.stored ↔ Agrees (.list (items.map stored)) y.stored := by
  have sequence : ∀ others : List Value, (∀ w ∈ others, w.WellKeyed) →
      (canonical (.list (items.map stored)) = canonical (.list (others.map stored)) ↔
        Agrees (.list (items.map stored)) (.list (others.map stored))) := by
    intro others parts
    rw [canonical, canonical, canonicalItems_eq_map, canonicalItems_eq_map, agrees_list_iff, Value.list.injEq]
    apply canonicalItems_eq_iff
    simp only [List.forall_mem_map]
    exact fun v member w member' => each v member w (parts w member')
  cases y with
  | list others =>
      rw [stored, storedItems_eq_map]
      exact sequence others fun w member => keyed.item member
  | tuple others =>
      rw [stored, storedItems_eq_map]
      exact sequence others fun w member => keyed.component member
  | _ => simp [canonical, stored, storedLeaf, substitute?, Agrees]

theorem separates_dict {entries : List (String × Value)} (distinct : (entries.map (·.1)).Nodup)
    (each : ∀ e ∈ entries, ∀ w, w.WellKeyed → Separates e.2 w) {y : Value} (keyed : y.WellKeyed) :
    Separates (.dict entries) y := by
  unfold Separates
  cases y with
  | dict others =>
      rw [stored, stored, storedEntries_eq_map, storedEntries_eq_map, canonical, canonical, canonicalEntries_eq_map,
        canonicalEntries_eq_map, agrees_dict_iff, Value.dict.injEq]
      apply canonicalEntries_eq_iff
      · rw [List.map_map]
        exact distinct
      · rw [List.map_map]
        exact keyed.keys
      · simp only [List.forall_mem_map]
        exact fun e member f member' => each e member f.2 (keyed.entry member')
  | _ => simp [canonical, stored, storedLeaf, substitute?, Agrees]

theorem separates (x : Value) : ∀ y, x.WellKeyed → y.WellKeyed → Separates x y := by
  induction x using Value.induct with
  | leaf x leaf =>
      intro y _ _
      have still : x.stored.isLeaf := by
        rw [stored_of_isLeaf leaf]
        exact isLeaf_storedLeaf leaf
      rw [Separates, canonical_of_isLeaf still, eq_canonical_iff_of_isLeaf still, agrees_leaf still]
  | list items ih =>
      intro y keyed keyed'
      rw [Separates, stored, storedItems_eq_map]
      exact separates_sequence (fun v member w => ih v member w (keyed.item member)) keyed'
  | tuple items ih =>
      intro y keyed keyed'
      rw [Separates, stored, storedItems_eq_map]
      exact separates_sequence (fun v member w => ih v member w (keyed.component member)) keyed'
  | dict entries ih =>
      intro y keyed keyed'
      exact separates_dict keyed.keys (fun e member w => ih e member w (keyed.entry member)) keyed'

theorem canonicalText_of_writable {v : Value} (writable : faults v = []) :
    canonicalText v = .ok (write .compact (canonical v)) := by
  have sorted := (faults_canonical v).mpr writable
  simp only [canonicalText, sorted]

theorem writable_of_canonicalText {v : Value} {text : String} (done : canonicalText v = .ok text) : Json.faults v = [] := by
  rw [← faults_canonical]
  simp only [canonicalText] at done
  split at done
  case h_1 faultless => exact faultless
  case h_2 => cases done

theorem canonicalText_stored {v : Value} (writable : Json.faults v = []) : canonicalText v.stored = canonicalText v := by
  rw [canonicalText_of_writable writable, canonicalText_of_writable ((Json.faults_stored_eq_nil_iff v).mpr writable),
    ← stored_canonical, Json.write, Json.write, Json.valueText_stored]

/-- The text of the sorted form can be read back, so it tells as much as the form. -/
theorem write_canonical_eq_iff {x y : Value} (keyed : x.WellKeyed) (alsoKeyed : y.WellKeyed)
    (writable : faults x = []) (alsoWritable : faults y = []) :
    write .compact (canonical x) = write .compact (canonical y) ↔ canonical x.stored = canonical y.stored := by
  rw [← stored_canonical, ← stored_canonical]
  constructor
  · intro same
    have first := read_write Layout.compact_readable (wellKeyed_canonical x keyed) ((faults_canonical x).mpr writable)
    have second :=
      read_write Layout.compact_readable (wellKeyed_canonical y alsoKeyed) ((faults_canonical y).mpr alsoWritable)
    rw [same, second] at first
    exact (Except.ok.inj first).symm
  · intro same
    rw [write, write, ← valueText_stored, same, valueText_stored]

/--
Two values that can be written have the same canonical text exactly if they are the same once dates, points in
time and decimals are texts and tuples are lists, whatever the order of the entries of their dictionaries. Values
of different kinds are never the same here, and floating point numbers only as data: what is not a number is the
same as itself, and a zero with a sign is not the one without.
-/
theorem canonicalText_exact {x y : Value} (plain : x.Plain) (alsoPlain : y.Plain) :
    ∃ s t, canonicalText x = .ok s ∧ canonicalText y = .ok t ∧ (s = t ↔ x.stored.Agrees y.stored) := by
  have writable := faults_eq_nil plain.known plain.short
  have alsoWritable := faults_eq_nil alsoPlain.known alsoPlain.short
  refine ⟨_, _, canonicalText_of_writable writable, canonicalText_of_writable alsoWritable, ?_⟩
  calc
    write .compact (canonical x) = write .compact (canonical y) ↔ canonical x.stored = canonical y.stored :=
      write_canonical_eq_iff plain.keyed alsoPlain.keyed writable alsoWritable
    _ ↔ x.stored.Agrees y.stored := separates x y plain.keyed alsoPlain.keyed

/-- A tuple and a decimal against the list and the text that they are written as, in another order. -/
theorem canonicalText_exact_reordered :
    ∃ s t, canonicalText (.dict [("size", .tuple [.int 1, .bool true]), ("price", .decimal (.finite false 15 (-1)))]) =
        .ok s ∧
      canonicalText (.dict [("price", .str "1.5"), ("size", .list [.int 1, .bool true])]) = .ok t ∧ s = t := by
  have one : Plain (.int 1) := .leaf rfl (by simp) (by rintro n ⟨⟩; decide)
  have parts : ∀ v ∈ [Value.int 1, .bool true], v.Plain := by
    simp only [List.forall_mem_cons]
    exact ⟨one, .leaf rfl (by simp) (by simp), List.forall_mem_nil _⟩
  have plain : Plain (.dict [("size", .tuple [.int 1, .bool true]), ("price", .decimal (.finite false 15 (-1)))]) := by
    apply Plain.dict (by decide)
    simp only [List.forall_mem_cons]
    exact ⟨.tuple parts, .leaf rfl (by simp) (by simp), List.forall_mem_nil _⟩
  have alsoPlain : Plain (.dict [("price", .str "1.5"), ("size", .list [.int 1, .bool true])]) := by
    apply Plain.dict (by decide)
    simp only [List.forall_mem_cons]
    exact ⟨.leaf rfl (by simp) (by simp), .list parts, List.forall_mem_nil _⟩
  rcases canonicalText_exact plain alsoPlain with ⟨s, t, first, second, same⟩
  refine ⟨s, t, first, second, same.mpr ?_⟩
  have price : String.ofList (Decimal.finite false 15 (-1)).text = "1.5" := by decide
  simp only [stored, storedEntries, storedItems, storedLeaf, substitute?, price]
  rw [agrees_dict_iff]
  simp only [List.forall_mem_cons]
  refine ⟨rfl, ⟨_, rfl, ?_⟩, ⟨_, rfl, agrees_of_isLeaf rfl⟩, List.forall_mem_nil _⟩
  exact agrees_list_iff.mpr (.cons (agrees_of_isLeaf rfl) (.cons (agrees_of_isLeaf rfl) .nil))

mutual

/-- Of the same kinds throughout, and equal as numbers, texts and so on. What is not a number is equal to itself here. -/
def EqualInKind : Value → Value → Prop
  | .list as, .list bs => ItemsEqualInKind as bs
  | .dict as, .dict bs => as.length = bs.length ∧ EntriesEqualInKind as bs
  | a, b => a.kindName = b.kindName ∧ (a.equals b = true ∨ a = .float .nan ∧ b = .float .nan)

def ItemsEqualInKind : List Value → List Value → Prop
  | [], [] => True
  | a :: as, b :: bs => EqualInKind a b ∧ ItemsEqualInKind as bs
  | _, _ => False

def EntriesEqualInKind : List (String × Value) → List (String × Value) → Prop
  | [], _ => True
  | (k, a) :: as, bs =>
    (match bs.lookup k with
      | some b => EqualInKind a b
      | none => False) ∧ EntriesEqualInKind as bs

end

def zero (negative : Bool) : Value := .float (.finite negative ⟨0, by decide +kernel⟩)

/-- Zeros are equal whatever their sign, and their texts are not. -/
theorem signed_zeros_told_apart : ¬ ∀ x y : Value, x.Plain → y.Plain →
    ∃ s t, canonicalText x = .ok s ∧ canonicalText y = .ok t ∧ (s = t ↔ EqualInKind x.stored y.stored) := by
  intro claimed
  have plain : ∀ negative, (zero negative).Plain := fun negative => .leaf rfl nofun nofun
  rcases claimed _ _ (plain false) (plain true) with ⟨s, t, first, second, same⟩
  have texts : canonicalText (zero false) = .ok "0.0" ∧ canonicalText (zero true) = .ok "-0.0" := by decide +kernel
  rw [texts.1] at first
  rw [texts.2] at second
  cases first
  cases second
  have equal : EqualInKind (zero false) (zero true) := ⟨rfl, .inl (by decide +kernel)⟩
  exact absurd (same.mpr equal) (by decide)

end Fingerprint
end SchemaMigration
