import SchemaMigration.Proofs.Model.Directory
import SchemaMigration.Proofs.Value.Stored
import SchemaMigration.Snapshot.Store
/-!
Loading a snapshot from a path that is there. Whatever stands at the path, it is a snapshot or it is ignored with one
warning: each step of reading can fail only in ways for which a snapshot is ignored. The steps are followed from what
stands in the way of writing a value, over the readers of documents, to the text and the bytes of the file.
-/
namespace SchemaMigration

def FailsOnly {ε α : Type} (allowed : ε → Prop) (x : Except ε α) : Prop := ∀ e, x = .error e → allowed e

namespace FailsOnly
variable {ε α β : Type} {allowed : ε → Prop}

theorem ok (a : α) : FailsOnly allowed (.ok a) := nofun

theorem error {e : ε} (may : allowed e) : FailsOnly allowed (.error e : Except ε α) := by
  rintro _ ⟨⟩
  exact may

theorem bind {x : Except ε α} {f : α → Except ε β} (first : FailsOnly allowed x) (second : ∀ a, FailsOnly allowed (f a)) :
    FailsOnly allowed (x >>= f) := by
  cases x with
  | error e => exact error (first e rfl)
  | ok a => exact second a

end FailsOnly

namespace Work
variable {σ α β : Type} {allowed : Failure → Prop}

/-- The ways in which work can fail are all allowed, wherever it starts. -/
def FailsOnly (allowed : Failure → Prop) (x : Work σ α) : Prop := ∀ s, SchemaMigration.FailsOnly allowed (x s).1

namespace FailsOnly

theorem pure (a : α) : FailsOnly allowed (Pure.pure a : Work σ α) := fun _ => .ok a

theorem fail {e : Failure} (may : allowed e) : FailsOnly allowed (Work.fail e : Work σ α) := fun _ => .error may

theorem bind {x : Work σ α} {f : α → Work σ β} (first : x.FailsOnly allowed) (second : ∀ a, (f a).FailsOnly allowed) :
    (x >>= f).FailsOnly allowed := by
  intro s e failed
  rcases bind_eq_error (Prod.ext failed rfl) with here | ⟨a, middle, -, later⟩
  · exact first s e (by rw [here])
  · exact second a middle e (by rw [later])

theorem ofExcept {x : Except Failure α} (only : SchemaMigration.FailsOnly allowed x) :
    FailsOnly allowed (Work.ofExcept x : Work σ α) := by
  cases x with
  | ok a => exact pure a
  | error e => exact fail (only e rfl)

end FailsOnly

end Work

namespace Value

theorem allTextFaults_eq_flatMap (items : List Value) : allTextFaults items = items.flatMap textFaults := by
  induction items with
  | nil => rfl
  | cons v rest ih => rw [allTextFaults, ih, List.flatMap_cons]

theorem entriesTextFaults_eq_flatMap (entries : List (String × Value)) :
    entriesTextFaults entries = entries.flatMap fun e => e.2.textFaults := by
  induction entries with
  | nil => rfl
  | cons e rest ih => rw [entriesTextFaults, ih, List.flatMap_cons]

end Value

namespace Json

theorem itemFaults_eq_flatMap (items : List Value) : itemFaults items = items.flatMap faults := by
  induction items with
  | nil => rfl
  | cons v rest ih => rw [itemFaults, ih, List.flatMap_cons]

theorem entryFaults_eq_flatMap (entries : List (String × Value)) :
    entryFaults entries = entries.flatMap fun e => faults e.2 := by
  induction entries with
  | nil => rfl
  | cons e rest ih => rw [entryFaults, ih, List.flatMap_cons]

theorem mem_faults_of_textFaults {v : Value} {f : Fault} (found : f ∈ v.textFaults) : f ∈ faults v := by
  have several : ∀ items : List Value, (∀ v ∈ items, f ∈ v.textFaults → f ∈ faults v) →
      f ∈ Value.allTextFaults items → f ∈ itemFaults items := by
    intro items each found
    rw [Value.allTextFaults_eq_flatMap] at found
    rcases List.mem_flatMap.mp found with ⟨v, inside, here⟩
    rw [itemFaults_eq_flatMap]
    exact List.mem_flatMap.mpr ⟨v, inside, each v inside here⟩
  induction v using Value.induct with
  | leaf v leaf =>
      cases v with
      | int n => exact found
      | list | tuple | dict => cases leaf
      | _ => cases found
  | list items ih => exact several items ih found
  | tuple items ih => exact several items ih found
  | dict entries ih =>
      rw [Value.textFaults, Value.entriesTextFaults_eq_flatMap] at found
      rcases List.mem_flatMap.mp found with ⟨e, inside, here⟩
      rw [faults, entryFaults_eq_flatMap]
      exact List.mem_flatMap.mpr ⟨e, inside, ih e inside here⟩

theorem isUnreadable_of_mem_faults {v : Value} {f : Fault} (found : f ∈ faults v) : Snapshot.isUnreadable f.kind := by
  have several : ∀ items : List Value, (∀ v ∈ items, f ∈ faults v → Snapshot.isUnreadable f.kind) →
      f ∈ itemFaults items → Snapshot.isUnreadable f.kind := by
    intro items each found
    rw [itemFaults_eq_flatMap] at found
    rcases List.mem_flatMap.mp found with ⟨v, inside, here⟩
    exact each v inside here
  induction v using Value.induct with
  | leaf v leaf =>
      cases v with
      | int n =>
          rw [faults] at found
          split at found
          · cases found
          · rcases List.mem_singleton.mp found with rfl
            rfl
      | foreign kind =>
          rcases List.mem_singleton.mp found with rfl
          rfl
      | list | tuple | dict => cases leaf
      | _ => cases found
  | list items ih => exact several items ih found
  | tuple items ih => exact several items ih found
  | dict entries ih =>
      rw [faults, entryFaults_eq_flatMap] at found
      rcases List.mem_flatMap.mp found with ⟨e, inside, here⟩
      exact ih e inside here

end Json

namespace Document

/-- The readers of documents refuse values only in ways for which a snapshot is ignored. -/
def RefusesOnly {α : Type} (x : Except Refusal α) : Prop := FailsOnly (fun refusal => Snapshot.isUnreadable refusal.kind) x

variable {α : Type}

theorem refusesOnly_field (key : String) (v : Value) : RefusesOnly (field key v) := by
  cases v with
  | dict entries =>
      rw [field]
      cases entries.lookup key with
      | some found => exact .ok found
      | none => exact .error rfl
  | _ => exact .error rfl

theorem refusesOnly_entriesOf (v : Value) : RefusesOnly (entriesOf v) := by
  cases v with
  | dict entries => exact .ok entries
  | _ => exact .error rfl

theorem refusesOnly_membersOf (v : Value) : RefusesOnly (membersOf v) := by
  unfold membersOf
  split
  case h_1 items _ => exact .ok items
  case h_2 => exact .error rfl

theorem refusesOnly_each {read : Value → Except Refusal α} (one : ∀ v, RefusesOnly (read v)) (vs : List Value) :
    RefusesOnly (each read vs) := by
  induction vs with
  | nil => exact .ok []
  | cons v rest ih => exact (one v).bind fun a => ih.bind fun as => .ok (a :: as)

theorem isUnreadable_of_textFaults {v : Value} {f : Fault} {rest : List Fault} (faults : v.textFaults = f :: rest) :
    Snapshot.isUnreadable (Refusal.fault f).kind := by
  have found : f ∈ v.textFaults := by
    rw [faults]
    exact List.mem_cons_self
  exact Json.isUnreadable_of_mem_faults (Json.mem_faults_of_textFaults found)

theorem refusesOnly_textOf (v : Value) : RefusesOnly (textOf v) := by
  unfold textOf
  split
  case h_1 => exact .ok v.text
  case h_2 faults => exact .error (isUnreadable_of_textFaults faults)

theorem refusesOnly_named (ofName? : String → Option α) {refusal : Refusal} (may : Snapshot.isUnreadable refusal.kind)
    (v : Value) : RefusesOnly (orRefuse (writable v refusal) (named? ofName? v)) := by
  cases named? ofName? v with
  | some a => exact .ok a
  | none =>
      apply FailsOnly.error
      unfold writable
      split
      case h_1 => exact may
      case h_2 faults => exact isUnreadable_of_textFaults faults

end Document

open Document

theorem Reference.refusesOnly_ofValue (v : Value) : RefusesOnly (ofValue v) :=
  (refusesOnly_field "table" v).bind fun _ => (refusesOnly_field "column" v).bind fun _ => .ok _

namespace Column

theorem refusesOnly_referencesOf (entries : List (String × Value)) : RefusesOnly (referencesOf entries) := by
  unfold referencesOf
  split
  · exact .ok none
  case h_2 v _ =>
    split
    · intro refusal failed
      cases read : Reference.ofValue v with
      | error other =>
          rw [read] at failed
          cases failed
          exact Reference.refusesOnly_ofValue v _ read
      | ok r =>
          rw [read] at failed
          cases failed
    · exact .ok none

theorem refusesOnly_enumValuesOf (entries : List (String × Value)) : RefusesOnly (enumValuesOf entries) := by
  unfold enumValuesOf
  split
  · exact .ok none
  · exact .ok none
  case h_3 v _ _ =>
    apply (refusesOnly_membersOf v).bind
    intro members
    exact (refusesOnly_each refusesOnly_textOf members).bind fun texts => .ok (some texts)

theorem refusesOnly_ofValue (v : Value) : RefusesOnly (ofValue v) := by
  apply (refusesOnly_entriesOf v).bind
  intro entries
  apply (refusesOnly_field "name" v).bind
  intro name
  apply (refusesOnly_field "type" v).bind
  intro word
  apply (refusesOnly_named ColumnType.ofName? rfl word).bind
  intro type
  apply (refusesOnly_referencesOf entries).bind
  intro references
  exact (refusesOnly_enumValuesOf entries).bind fun enumValues => .ok _

end Column

theorem Index.refusesOnly_ofValue (v : Value) : RefusesOnly (ofValue v) := by
  apply (refusesOnly_field "name" v).bind
  intro name
  apply (refusesOnly_field "columns" v).bind
  intro stored
  apply (refusesOnly_membersOf stored).bind
  intro columns
  apply (refusesOnly_entriesOf v).bind
  intro entries
  exact (refusesOnly_named IndexKind.ofName? rfl _).bind fun kind => .ok _

theorem Table.refusesOnly_ofValue (v : Value) : RefusesOnly (ofValue v) := by
  apply (refusesOnly_field "table" v).bind
  intro name
  apply (refusesOnly_entriesOf v).bind
  intro entries
  apply (refusesOnly_membersOf _).bind
  intro columnValues
  apply (refusesOnly_each Column.refusesOnly_ofValue columnValues).bind
  intro columns
  apply (refusesOnly_membersOf _).bind
  intro indexValues
  exact (refusesOnly_each Index.refusesOnly_ofValue indexValues).bind fun indexes => .ok _

theorem Plan.refusesOnly_ofValue (v : Value) : RefusesOnly (ofValue v) := by
  apply (refusesOnly_field "dialect" v).bind
  intro word
  apply (refusesOnly_named Dialect.ofName? rfl word).bind
  intro dialect
  apply (refusesOnly_field "tables" v).bind
  intro stored
  apply (refusesOnly_membersOf stored).bind
  intro tableValues
  exact (refusesOnly_each Table.refusesOnly_ofValue tableValues).bind fun tables => .ok _

namespace Snapshot

def IsIgnored (cause : Failure) : Prop := isUnreadable cause.kind

theorem ignored_readPlan (v : Value) : FailsOnly IsIgnored (readPlan v) := by
  intro cause failed
  unfold readPlan at failed
  split at failed
  · cases failed
  case h_2 refusal refused =>
    cases failed
    exact Plan.refusesOnly_ofValue v refusal refused

theorem ignored_fingerprint {p : Plan} {fault : Fault} (failed : p.fingerprint = .error fault) :
    IsIgnored (.fault fault) := by
  unfold Plan.fingerprint Fingerprint.ofValue Fingerprint.canonicalText at failed
  dsimp only at failed
  split at failed
  · cases failed
  case h_2 found =>
    cases failed
    apply Json.isUnreadable_of_mem_faults
    rw [found]
    exact List.mem_cons_self

theorem ignored_readFingerprint (p : Plan) (stored : Option Value) : FailsOnly IsIgnored (readFingerprint p stored) := by
  unfold readFingerprint
  split
  · exact .ok _
  split
  · exact .ok _
  case h_2 failed => exact .error (ignored_fingerprint failed)

theorem ignored_readTime (stored : Option Value) : FailsOnly IsIgnored (readTime stored) := by
  unfold readTime
  split
  · exact .ok none
  · split
    · exact .ok _
    · exact .error rfl
  · exact .error rfl

theorem ignored_ofPlanValue (v : Value) : FailsOnly IsIgnored (ofPlanValue v) := by
  apply (ignored_readPlan v).bind
  intro p
  exact (ignored_readFingerprint p none).bind fun fingerprint => .ok _

theorem ignored_ofValue (v : Value) : FailsOnly IsIgnored (ofValue v) := by
  unfold ofValue
  split
  · split
    case h_1 stored _ =>
      apply (ignored_readPlan stored).bind
      intro p
      apply (ignored_readFingerprint p _).bind
      intro fingerprint
      exact (ignored_readTime _).bind fun updatedAt => .ok _
    · exact ignored_ofPlanValue _
  · exact ignored_ofPlanValue v

open Site

theorem ignored_ask {α : Type} (question : Tree → Except FileFault α) : (ask question).FailsOnly IsIgnored := by
  intro site
  unfold ask
  split
  · exact .ok _
  case h_2 fault _ =>
    apply FailsOnly.error
    cases fault <;> rfl

theorem ignored_readText (path : FilePath) : (readText path).FailsOnly IsIgnored := by
  apply (ignored_ask _).bind
  intro content
  split
  · exact .pure _
  · exact .fail rfl

theorem ignored_readJson (path : FilePath) : (readJson path).FailsOnly IsIgnored := by
  apply (ignored_readText path).bind
  intro text
  split
  · exact .pure _
  · exact .fail rfl
  · exact .fail rfl

theorem ignored_readFile (path : FilePath) : (readFile path).FailsOnly IsIgnored :=
  (ignored_readJson path).bind fun v => .ofExcept (ignored_ofValue v)

theorem onlyLooks_readFile [Device] (path : FilePath) : (readFile path).OnlyLooks :=
  (onlyLooks_readJson path).bind fun _ => .ofExcept _

theorem load_of_there {path : FilePath} {site : Site} (there : site.tree.exists? path = .ok true) :
    load path site = match (readFile path site).1 with
      | .ok s => (.ok (some s), site)
      | .error cause => (.ok none, { site with told := site.told ++ [.snapshotIgnored path cause] }) := by
  have attempted : Work.attempt (readFile path) site = (.ok (readFile path site).1, site) :=
    Work.attempt_eq_ok_iff.mpr (Prod.ext rfl (onlyLooks_readFile path site))
  have asked : ask (·.exists? path) site = (.ok true, site) := ask_eq_ok _ there
  refine (Work.bind_of_ok asked).trans ((Work.bind_of_ok attempted).trans ?_)
  cases read : (readFile path site).1 with
  | ok s => rfl
  | error cause =>
      have ignored : isUnreadable cause.kind = true := ignored_readFile path site cause read
      dsimp only
      rw [if_pos ignored]
      rfl

theorem readFile_eq_ok {path : FilePath} {site : Site} {s : Snapshot} (done : (readFile path site).1 = .ok s) :
    ∃ content text v, site.tree.read path = .ok content ∧ String.fromUTF8? content = some text ∧
      Json.read text = .ok v ∧ Snapshot.ofValue v = .ok s := by
  have done : readFile path site = (.ok s, (readFile path site).2) := Prod.ext done rfl
  rcases Work.bind_eq_ok_iff.mp done with ⟨v, _, stored, made⟩
  rcases Work.bind_eq_ok_iff.mp stored with ⟨text, _, shown, read⟩
  rcases Work.bind_eq_ok_iff.mp shown with ⟨content, _, found, decoded⟩
  cases utf8 : String.fromUTF8? content with
  | none =>
      rw [utf8] at decoded
      cases decoded
  | some other =>
      rw [utf8] at decoded
      cases decoded
      cases parsed : Json.read text with
      | error refusal =>
          rw [parsed] at read
          cases refusal <;> cases read
      | ok w =>
          rw [parsed] at read
          cases read
          exact ⟨content, text, v, (ask_eq_ok_iff.mp found).1, utf8, parsed, (Work.ofExcept_eq_ok_iff.mp made).1⟩

/-- Whatever stands at a path, it is loaded as the snapshot that its text is, or it is ignored with one warning. -/
theorem load_never_fails {path : FilePath} {site : Site} (there : site.tree.exists? path = .ok true) :
    (∃ content text v s, site.tree.read path = .ok content ∧ String.fromUTF8? content = some text ∧
        Json.read text = .ok v ∧ Snapshot.ofValue v = .ok s ∧ load path site = (.ok (some s), site)) ∨
      ∃ cause, (readFile path site).1 = .error cause ∧ (Notice.snapshotIgnored path cause).level = .warning ∧
        load path site = (.ok none, { site with told := site.told ++ [.snapshotIgnored path cause] }) := by
  rw [load_of_there there]
  cases read : (readFile path site).1 with
  | ok s =>
      rcases readFile_eq_ok read with ⟨content, text, v, held, decoded, parsed, made⟩
      exact .inl ⟨content, text, v, s, held, decoded, parsed, made, rfl⟩
  | error cause => exact .inr ⟨cause, rfl, rfl, rfl⟩

def placed (node : Node) : Site := ⟨⟨[(["schema.json"], node)]⟩, []⟩

def usersWith (column : String) : Node :=
  .file ("\x7b\"plan\": \x7b\"dialect\": \"postgres\", \"tables\": [\x7b\"table\": \"users\", \"columns\": [" ++
    column ++ "], \"indexes\": []\x7d]\x7d, \"hash\": \"0\"\x7d").toUTF8

def typedUsers : Node := usersWith "\x7b\"name\": \"id\", \"type\": \"integer\"\x7d"

/-- A directory and a column without a type are ignored with one warning; with a type the column is loaded. -/
theorem directory_and_untyped_column_ignored :
    (∀ node ∈ [.directory, usersWith "\x7b\"name\": \"id\"\x7d"], ∃ notice : Notice, notice.level = .warning ∧
        load ⟨"", ["schema.json"]⟩ (placed node) = (.ok none, { placed node with told := [notice] })) ∧
      ∃ s : Snapshot, load ⟨"", ["schema.json"]⟩ (placed typedUsers) = (.ok (some s), placed typedUsers) ∧
        s.plan.tables.map (fun t => (t.name, t.columns.map fun c => (c.name, c.type))) =
          [(.str "users", [(.str "id", .integer)])] := by
  have ignored : ∀ node, (load ⟨"", ["schema.json"]⟩ (placed node)).1.toOption.map Option.isSome = some false →
      ∃ notice : Notice, notice.level = .warning ∧
        load ⟨"", ["schema.json"]⟩ (placed node) = (.ok none, { placed node with told := [notice] }) := by
    intro node nothing
    rcases @load_never_fails ⟨"", ["schema.json"]⟩ (placed node) rfl with loaded | ignored
    · rcases loaded with ⟨_, _, _, s, -, -, -, -, loaded⟩
      rw [loaded] at nothing
      cases nothing
    · rcases ignored with ⟨cause, -, level, loaded⟩
      exact ⟨_, level, loaded⟩
  refine ⟨?_, ?_⟩
  · simp only [List.forall_mem_cons]
    exact ⟨ignored _ (by decide +kernel), ignored _ (by decide +kernel), List.forall_mem_nil _⟩
  · have tables : (load ⟨"", ["schema.json"]⟩ (placed typedUsers)).1.toOption.map
        (·.map fun s => s.plan.tables.map fun t => (t.name, t.columns.map fun c => (c.name, c.type))) =
          some (some [(.str "users", [(.str "id", .integer)])]) := by decide +kernel
    rcases @load_never_fails ⟨"", ["schema.json"]⟩ (placed typedUsers) rfl with
      ⟨_, _, _, s, -, -, -, -, loaded⟩ | ⟨cause, -, -, loaded⟩
    · rw [loaded] at tables
      exact ⟨s, loaded, Option.some.inj (Option.some.inj tables)⟩
    · rw [loaded] at tables
      cases tables

end Snapshot

end SchemaMigration
