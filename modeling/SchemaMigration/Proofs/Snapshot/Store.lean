import SchemaMigration.Snapshot.Store
import SchemaMigration.Proofs.Calendar.Iso
import SchemaMigration.Proofs.Files.Place
import SchemaMigration.Proofs.Fingerprint.Plan
import SchemaMigration.Proofs.Work

namespace SchemaMigration

namespace Snapshot
open Site

theorem fromUTF8?_toUTF8 (s : String) : String.fromUTF8? s.toUTF8 = some s := by
  have valid : s.toByteArray.IsValidUTF8 := s.isValidUTF8
  simp [String.fromUTF8?, String.fromUTF8, valid]

theorem readTime_timeValue (now : DateTime) : readTime (some (timeValue (some now))) = .ok (some now.asRead) := by
  have read := DateTime.read_isoText now
  have shown : now.isoText ≠ [] := by
    intro empty
    rw [empty] at read
    cases read
  have kept : (some (timeValue (some now))).filter Value.holds = some (timeValue (some now)) := by
    simp [timeValue, Value.holds, shown]
  rw [readTime, kept]
  simp only [timeValue, String.toList_ofList, read]

theorem readFingerprint_str {p : Plan} {digest : String} (taken : p.fingerprint = .ok digest) :
    readFingerprint p (some (.str digest)) = .ok (.str digest) := by
  rw [readFingerprint]
  cases kept : (some (Value.str digest)).filter Value.holds with
  | none => simp only [taken]
  | some v =>
      rcases Option.filter_eq_some_iff.mp kept with ⟨⟨⟩, -⟩
      rfl

theorem ofValue_stored {p : Plan} (typed : p.Typed) {digest : String} (taken : p.fingerprint = .ok digest)
    (now : DateTime) :
    Snapshot.ofValue (toValue ⟨p, .str digest, some now⟩).stored = .ok ⟨p.stored, .str digest, some now.asRead⟩ := by
  have plan := Plan.ofValue_toValue_stored typed
  have fingerprint := readFingerprint_str (Plan.fingerprint_stored typed taken)
  have time := readTime_timeValue now
  have document : (toValue ⟨p, .str digest, some now⟩).stored =
      .dict [("plan", p.toValue.stored), ("hash", .str digest), ("updatedAt", timeValue (some now))] := rfl
  have planFound : List.lookup "plan" [("plan", p.toValue.stored), ("hash", .str digest),
      ("updatedAt", timeValue (some now))] = some p.toValue.stored := rfl
  have hashFound : List.lookup "hash" [("plan", p.toValue.stored), ("hash", .str digest),
      ("updatedAt", timeValue (some now))] = some (.str digest) := rfl
  have timeFound : List.lookup "updatedAt" [("plan", p.toValue.stored), ("hash", .str digest),
      ("updatedAt", timeValue (some now))] = some (timeValue (some now)) := rfl
  rw [document, ofValue]
  simp only [planFound, hashFound, timeFound, readPlan, plan, bind, Except.bind, fingerprint, time]
  rfl

theorem read_fileText {p : Plan} (typed : p.Typed) {digest : String} (taken : p.fingerprint = .ok digest)
    (now : DateTime) :
    Json.read (fileText ⟨p, .str digest, some now⟩) = .ok (toValue ⟨p, .str digest, some now⟩).stored := by
  have keyed : (toValue ⟨p, .str digest, some now⟩).WellKeyed := by
    apply Value.wellKeyed_dict (by simp)
    simp only [List.forall_mem_cons]
    exact ⟨Plan.wellKeyed_toValue typed, Value.wellKeyed_str _, Value.wellKeyed_str _, List.forall_mem_nil _⟩
  have writable : Json.faults (toValue ⟨p, .str digest, some now⟩) = [] := by
    simp [toValue, Json.faults, Json.entryFaults, timeValue, Plan.writable_of_fingerprint taken]
  exact Json.read_write_append Json.Layout.indented_readable keyed writable (List.forall_mem_singleton.mpr rfl)

theorem load_of_read {path : FilePath} {s : Site} {text : String} (held : s.tree.read path = .ok text.toUTF8)
    {v : Value} (content : Json.read text = .ok v) {snapshot : Snapshot} (valid : Snapshot.ofValue v = .ok snapshot) :
    load path s = (.ok (some snapshot), s) := by
  have there := ask_eq_ok (·.exists? path) (s := s) (Tree.exists_of_read held)
  have bytes := ask_eq_ok (·.read path) (s := s) held
  have readText : readText path s = (.ok text, s) :=
    Work.bind_eq_ok_iff.mpr ⟨_, s, bytes, by rw [fromUTF8?_toUTF8]; rfl⟩
  have readJson : readJson path s = (.ok v, s) :=
    Work.bind_eq_ok_iff.mpr ⟨_, s, readText, by rw [content]; rfl⟩
  have readFile : readFile path s = (.ok snapshot, s) :=
    Work.bind_eq_ok_iff.mpr ⟨_, s, readJson, by rw [valid]; rfl⟩
  have attempted : Work.attempt (Snapshot.readFile path) s = (.ok (.ok snapshot), s) := by
    rw [Work.attempt, readFile]
  refine Work.bind_eq_ok_iff.mpr ⟨true, s, there, ?_⟩
  exact Work.bind_eq_ok_iff.mpr ⟨_, s, attempted, rfl⟩

theorem read_of_replaceFile [Device] {path : FilePath} {text : String} {before after : Site}
    (replaced : replaceFile path text before = (.ok (), after)) : after.tree.read path = .ok text.toUTF8 := by
  rw [replaceFile] at replaced
  cases named : path.withName? (path.name ++ ".tmp") with
  | none =>
      rw [named] at replaced
      cases replaced
  | some beside =>
      rw [named] at replaced
      rcases Work.bind_eq_ok_iff.mp replaced with ⟨⟨⟩, middle, wrote, thenMoved⟩
      rcases writeText_eq_ok_iff.mp wrote with ⟨-, first, written, rfl⟩
      rcases move_eq_ok_iff.mp thenMoved with ⟨-, second, moved, rfl⟩
      rcases Tree.read_of_move moved with ⟨content, held, there⟩
      rw [Tree.read_of_write written] at held
      cases held
      exact there

theorem read_of_save [Device] {path : FilePath} {p : Plan} {now : DateTime} {before after : Site} {saved : Snapshot}
    (done : save path p now before = (.ok saved, after)) :
    ∃ digest, p.fingerprint = .ok digest ∧ saved = ⟨p, .str digest, some now⟩ ∧
      after.tree.read path = .ok (fileText saved).toUTF8 := by
  rcases Work.bind_eq_ok_iff.mp done with ⟨digest, s₁, taken, done⟩
  rcases Work.bind_eq_ok_iff.mp done with ⟨⟨⟩, s₂, -, done⟩
  rcases Work.bind_eq_ok_iff.mp done with ⟨⟨⟩, s₃, replaced, done⟩
  rcases Work.bind_eq_ok_iff.mp done with ⟨⟨⟩, s₄, ⟨⟩, ⟨⟩⟩
  have held : s₃.tree.read path = _ := read_of_replaceFile replaced
  exact ⟨digest, (Work.ofFaults_eq_ok_iff.mp taken).1, rfl, held⟩

/-- Saving touches neither the path itself nor, for a time, the one beside it. -/
structure Spares (t : Tree) (path p : FilePath) : Prop where
  place : t.Apart p path
  beside : ∀ beside ∈ path.withName? (path.name ++ ".tmp"), t.Apart p beside

theorem read_of_save_other {path other : FilePath} {p : Plan} {now : DateTime} {before after : Site} {saved : Snapshot}
    (done : save path p now before = (.ok saved, after)) (spared : Spares after.tree path other) {content : ByteArray}
    (held : before.tree.read other = .ok content) : after.tree.read other = .ok content := by
  rcases Work.bind_eq_ok_iff.mp done with ⟨digest, s₁, taken, done⟩
  rcases Work.bind_eq_ok_iff.mp done with ⟨⟨⟩, s₂, made, done⟩
  rcases Work.bind_eq_ok_iff.mp done with ⟨⟨⟩, s₃, replaced, done⟩
  rcases Work.bind_eq_ok_iff.mp done with ⟨⟨⟩, s₄, ⟨⟩, ⟨⟩⟩
  rw [(Work.ofFaults_eq_ok_iff.mp taken).2] at made
  have makes := onlyMakes_ensureDirectories path.parent before
  rw [made] at makes
  have held : s₂.tree.read other = .ok content := makes.read held
  rw [replaceFile] at replaced
  cases named : path.withName? (path.name ++ ".tmp") with
  | none =>
      rw [named] at replaced
      cases replaced
  | some beside =>
      rw [named] at replaced
      rcases Work.bind_eq_ok_iff.mp replaced with ⟨⟨⟩, middle, wrote, thenMoved⟩
      rcases writeText_eq_ok_iff.mp wrote with ⟨-, first, written, rfl⟩
      rcases move_eq_ok_iff.mp thenMoved with ⟨-, second, moved, rfl⟩
      rcases Tree.moves_of_move moved with ⟨_, _, _, moves⟩
      have fromBeside : second.Apart other beside := spared.beside beside named
      have early : first.Apart other beside := fun place located leads =>
        fromBeside place (Tree.locate_keeps moves.keepsDirectories located)
          (Tree.locate_keeps moves.keepsDirectories leads)
      exact Tree.read_of_move_apart moved fromBeside spared.place (Tree.read_of_write_apart written early held)

theorem load_of_save {path : FilePath} {p : Plan} (typed : p.Typed) {now : DateTime} {before after : Site}
    {saved : Snapshot} (done : save path p now before = (.ok saved, after)) :
    ∃ digest, p.fingerprint = .ok digest ∧
      load path after = (.ok (some ⟨p.stored, .str digest, some now.asRead⟩), after) := by
  rcases read_of_save done with ⟨digest, taken, rfl, held⟩
  exact ⟨digest, taken, load_of_read held (read_fileText typed taken now) (ofValue_stored typed taken now)⟩

/--
A snapshot that was saved is loaded again: its plan is the one that was saved with its dates and decimals as
texts, its fingerprint is that of the plan, so that it is not stale and matches the plan, and its time is the same
instant unless the clock was ahead or behind by less than a second, which is not read.
-/
theorem load_save_exact {path : FilePath} {p : Plan} (typed : p.Typed) {now : DateTime} {before after : Site}
    {saved : Snapshot} (done : save path p now before = (.ok saved, after)) :
    ∃ (loaded : Snapshot) (digest : String) (updatedAt : DateTime), load path after = (.ok (some loaded), after) ∧
      loaded.plan = p.stored ∧ p.fingerprint = .ok digest ∧ loaded.fingerprint = .str digest ∧
      loaded.isStale = .ok false ∧ loaded.isOf p = .ok true ∧ loaded.updatedAt = some updatedAt ∧
      (Value.timeEquals updatedAt now = true ↔
        ∀ o ∈ now.offset, o.micros.natAbs < Calendar.microsPerSecond → o.micros = 0) := by
  rcases load_of_save typed done with ⟨digest, taken, loads⟩
  have still := Plan.fingerprint_stored typed taken
  have same : (Value.str digest).equals (.str digest) = true := by simp [Value.equals, Value.compare, Comparison.ofBool]
  refine ⟨_, digest, now.asRead, loads, rfl, taken, rfl, ?_, ?_, rfl, DateTime.timeEquals_asRead_iff now⟩
  · simp only [isStale, isOf, still, bind, Except.bind, same]
    rfl
  · simp only [isOf, taken, bind, Except.bind, same]
    rfl

def schemaFile : FilePath := ⟨"", ["schema.json"]⟩

theorem save_schemaFile {p : Plan} {digest : String} (taken : p.fingerprint = .ok digest) (now : DateTime) :
    ∃ after, save schemaFile p now {} = (.ok ⟨p, .str digest, some now⟩, after) := by
  have replaced : ∃ after, replaceFile schemaFile (fileText ⟨p, .str digest, some now⟩) {} = (.ok (), after) := ⟨_, rfl⟩
  rcases replaced with ⟨after, replaced⟩
  have directories : ensureDirectories schemaFile.parent {} = (.ok (), {}) := rfl
  refine ⟨{ after with told := after.told ++ [.snapshotSaved schemaFile digest] }, ?_⟩
  refine Work.bind_eq_ok_iff.mpr ⟨digest, {}, Work.ofFaults_eq_ok_iff.mpr ⟨taken, rfl⟩, ?_⟩
  refine Work.bind_eq_ok_iff.mpr ⟨(), {}, directories, ?_⟩
  refine Work.bind_eq_ok_iff.mpr ⟨(), after, replaced, ?_⟩
  exact Work.bind_eq_ok_iff.mpr ⟨(), _, rfl, rfl⟩

/-- Noon on the first day of 2024, on a clock ahead of UTC. -/
def noon (ahead : UtcOffset) : DateTime := ⟨⟨2024, 1, 1, by decide⟩, ⟨43200000000, by decide⟩, some ahead⟩

def endOfJanuary : Date := ⟨2024, 1, 31, by decide⟩

def orders : Plan :=
  ⟨.postgres, [{
    name := .str "orders"
    columns := [
      { name := .str "price", type := .decimal, hasDefault := true, defaultValue := .decimal (.finite false 150 (-2)) },
      { name := .str "due", type := .date, hasDefault := true, defaultValue := .date endOfJanuary }] }]⟩

theorem orders_typed : orders.Typed := by
  have columns : ∀ t ∈ orders.tables, ∀ c ∈ t.columns, c.Typed := by
    simp only [orders, List.forall_mem_cons]
    refine ⟨⟨⟨⟨_, rfl⟩, ⟨rfl, nofun⟩, nofun⟩, ⟨⟨_, rfl⟩, ⟨rfl, nofun⟩, nofun⟩, List.forall_mem_nil _⟩, List.forall_mem_nil _⟩
  refine ⟨fun t inPlan => ⟨?_, columns t inPlan, ?_⟩⟩
  · rcases List.mem_singleton.mp inPlan with rfl
    exact ⟨_, rfl⟩
  · rcases List.mem_singleton.mp inPlan with rfl
    exact nofun

theorem orders_kept : ∃ (saved loaded : Snapshot) (after : Site) (updatedAt : DateTime),
    save schemaFile orders (noon ⟨3600000000, by decide⟩) {} = (.ok saved, after) ∧
      load schemaFile after = (.ok (some loaded), after) ∧ loaded.plan = orders.stored ∧
      loaded.isStale = .ok false ∧ loaded.isOf orders = .ok true ∧ loaded.updatedAt = some updatedAt ∧
      Value.timeEquals updatedAt (noon ⟨3600000000, by decide⟩) = true := by
  have taken : ∃ digest, orders.fingerprint = .ok digest := ⟨_, rfl⟩
  rcases taken with ⟨digest, taken⟩
  rcases save_schemaFile taken (noon ⟨3600000000, by decide⟩) with ⟨after, done⟩
  rcases load_save_exact orders_typed done with
    ⟨loaded, _, updatedAt, loads, plan, -, -, fresh, matching, time, same⟩
  refine ⟨_, loaded, after, updatedAt, done, loads, plan, fresh, matching, time, same.mpr ?_⟩
  rintro o ⟨⟩ small
  exact absurd small (by decide)

/-- The time is another one where the clock is ahead of UTC by a few microseconds. -/
theorem time_changed : ¬ ∀ (path : FilePath) (p : Plan) (now : DateTime) (before after : Site) (saved : Snapshot),
    p.Typed → save path p now before = (.ok saved, after) →
      ∃ loaded updatedAt, load path after = (.ok (some loaded), after) ∧ loaded.updatedAt = some updatedAt ∧
        Value.timeEquals updatedAt now = true := by
  intro claimed
  have taken : ∃ digest, orders.fingerprint = .ok digest := ⟨_, rfl⟩
  rcases taken with ⟨digest, taken⟩
  rcases save_schemaFile taken (noon ⟨5, by decide⟩) with ⟨after, done⟩
  rcases claimed _ _ _ _ _ _ orders_typed done with ⟨loaded, updatedAt, loads, time, same⟩
  rcases load_of_save orders_typed done with ⟨_, -, found⟩
  rw [found] at loads
  cases loads
  cases time
  exact absurd ((DateTime.timeEquals_asRead_iff _).mp same _ rfl (by decide)) (by decide)

end Snapshot
end SchemaMigration
