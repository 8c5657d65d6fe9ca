import SchemaMigration.Proofs.Migration.Slugs
import SchemaMigration.Proofs.Plan.Spelled

namespace SchemaMigration
open Identifier Slug

namespace Subject

def kind : Subject → Nat
  | creation _ => 0
  | key .. => 1
  | index .. => 2
  | alteration _ => 3

/-- A foreign key that is not taken for an altered table. -/
def KeyedApart (s : Subject) : Prop := ∀ table column, s = key table column → folded column ≠ "table".toList

theorem kind_eq {a b : Subject} (first : a.KeyedApart) (second : b.KeyedApart) (same : a.words = b.words) :
    a.kind = b.kind := by
  cases a <;> cases b <;> simp_all [words, kind, KeyedApart]

end Subject

theorem Slug.folded_ne_table {name : String} (key : Inference.endsIn "_id" name) : folded name ≠ "table".toList := by
  rcases List.isSuffixOf_iff_suffix.mp key with ⟨start, split⟩
  intro same
  rw [folded, ← split, List.flatMap_append] at same
  have last := congrArg List.getLast? same
  rw [List.getLast?_append] at last
  change some 'd' = some 'e' at last
  exact absurd last (by decide)

namespace Diff

/--
Without regard to capital letters and line breaks: the names of new tables are distinct, in each of them those of the
columns with foreign keys and those of the indexes, and so are the names of the tables that are altered.
-/
@[mk_iff] structure SlugsApart (previous current : Plan) : Prop where
  tables : ((creations previous current).map fun t => folded t.name.text).Nodup
  keys : ∀ t ∈ creations previous current, ((separateKeys current.dialect t).map folded).Nodup
  indexes : ∀ t ∈ creations previous current, (t.indexTexts.map folded).Nodup
  altered : ((alterations previous current).map fun t => folded t.name.text).Nodup

instance (previous current : Plan) : Decidable (SlugsApart previous current) :=
  decidable_of_iff' _ (slugsApart_iff previous current)

variable {d : Dialect} {previous current : Plan}

theorem mem_subjects_iff {s : Subject} : s ∈ subjects previous current ↔
    (∃ t ∈ creations previous current, s = .creation t.name.text) ∨
      (∃ t ∈ creations previous current, ∃ name ∈ separateKeys current.dialect t, s = .key t.name.text name) ∨
      (∃ t ∈ creations previous current, ∃ name ∈ t.indexTexts, s = .index t.name.text name) ∨
      ∃ t ∈ alterations previous current, s = .alteration t.name.text := by
  simp only [subjects, tableSubjects, List.mem_append, List.mem_map, List.mem_flatMap, eq_comm, or_assoc]

theorem spelled_subjects (spelled : current.Spelled) :
    ∀ s ∈ subjects previous current, ∀ name ∈ s.names, IsSpelled name := by
  have new : ∀ t ∈ creations previous current, t ∈ current.tables := fun t => List.mem_of_mem_filter
  have keys : ∀ t ∈ creations previous current, ∀ name ∈ separateKeys current.dialect t, IsSpelled name := by
    intro t created name separate
    unfold separateKeys at separate
    split at separate
    · cases separate
    · rcases List.mem_map.mp separate with ⟨c, refers, rfl⟩
      exact spelled.columns t (new t created) c (List.mem_filter.mp refers).1
  intro s member
  rcases mem_subjects_iff.mp member with ⟨t, created, rfl⟩ | ⟨t, created, key, separate, rfl⟩ |
    ⟨t, created, index, listed, rfl⟩ | ⟨t, altered, rfl⟩ <;> simp only [Subject.names, List.forall_mem_cons]
  · exact ⟨spelled.tables t (new t created), List.forall_mem_nil _⟩
  · exact ⟨spelled.tables t (new t created), keys t created key separate, List.forall_mem_nil _⟩
  · exact ⟨spelled.tables t (new t created), spelled.indexes t (new t created) index listed, List.forall_mem_nil _⟩
  · exact ⟨spelled.tables t (List.mem_of_mem_filter altered), List.forall_mem_nil _⟩

section
variable {tables : List Table}

theorem nodup_words_iff {subject : String → Subject} {f : List Char → List (List Char)}
    (injective : Function.Injective f) (words : ∀ table, (subject table).words = f (folded table)) :
    ((tables.map (subject ·.name.text)).map Subject.words).Nodup ↔ (tables.map fun t => folded t.name.text).Nodup := by
  rw [← List.nodup_map_iff injective, List.map_map, List.map_map]
  simp only [Function.comp_def, words]

theorem nodup_words_of_parts_iff {subject : String → String → Subject} {f : List Char → List Char → List (List Char)}
    (injective : ∀ {a b x y}, f a x = f b y → a = b ∧ x = y)
    (words : ∀ table name, (subject table name).words = f (folded table) (folded name))
    (distinct : (tables.map fun t => folded t.name.text).Nodup) (names : Table → List String) :
    ((tables.flatMap fun t => (names t).map (subject t.name.text)).map Subject.words).Nodup ↔
      ∀ t ∈ tables, ((names t).map folded).Nodup := by
  rw [← nodup_flatMap_map_iff injective distinct]
  simp only [List.map_flatMap, List.map_map, Function.comp_def, words]

end

theorem nodup_words_append_iff {first second : List Subject} (keys : ∀ s ∈ first ++ second, s.KeyedApart)
    (apart : ∀ a ∈ first, ∀ b ∈ second, a.kind ≠ b.kind) :
    ((first ++ second).map Subject.words).Nodup ↔
      (first.map Subject.words).Nodup ∧ (second.map Subject.words).Nodup := by
  rw [List.map_append, List.nodup_append, ← and_assoc]
  apply and_iff_left
  simp only [List.forall_mem_map]
  intro a inFirst b inSecond same
  exact apart a inFirst b inSecond
    (Subject.kind_eq (keys a (List.mem_append_left _ inFirst)) (keys b (List.mem_append_right _ inSecond)) same)

theorem keyedApart_subjects (spelled : current.Spelled) : ∀ s ∈ subjects previous current, s.KeyedApart := by
  intro s member
  rcases mem_subjects_iff.mp member with ⟨t, -, rfl⟩ | ⟨t, created, key, separate, rfl⟩ | ⟨t, -, index, -, rfl⟩ |
    ⟨t, -, rfl⟩
  · nofun
  · intro table column same
    cases same
    unfold separateKeys at separate
    split at separate
    · cases separate
    · exact folded_ne_table (spelled.keys t (List.mem_of_mem_filter created) _ separate)
  · nofun
  · nofun

theorem words_nodup_iff (spelled : current.Spelled) :
    ((subjects previous current).map Subject.words).Nodup ↔ SlugsApart previous current := by
  have keyed : ∀ s ∈ subjects previous current, s.KeyedApart := keyedApart_subjects spelled
  -- Kinds never meet, so each is looked at by itself, keys and indexes within tables that are told apart.
  unfold subjects tableSubjects at keyed ⊢
  rw [nodup_words_append_iff keyed, nodup_words_append_iff (List.forall_mem_append.mp keyed).1,
    nodup_words_append_iff (List.forall_mem_append.mp (List.forall_mem_append.mp keyed).1).1, slugsApart_iff,
    nodup_words_iff (f := (["create".toList, ·, "table".toList])) (fun _ _ => by simp) (fun _ => rfl),
    nodup_words_iff (f := (["alter".toList, ·, "table".toList])) (fun _ _ => by simp) (fun _ => rfl)]
  · rw [and_assoc, and_assoc]
    refine and_congr_right fun distinct => and_congr ?_ (and_congr_left' ?_)
    · exact nodup_words_of_parts_iff (f := fun owner part => ["alter".toList, owner, part]) (by simp)
        (fun _ _ => rfl) distinct _
    · exact nodup_words_of_parts_iff
        (f := fun owner part => ["create".toList, part, "index".toList, "in".toList, owner]) (by simp +contextual)
        (fun _ _ => rfl) distinct _
  all_goals
    simp only [List.forall_mem_append, List.forall_mem_map, List.forall_mem_flatMap, Subject.kind]
    simp

theorem nodup_keys_iff {previous : Option Plan} (same : ∀ p ∈ previous, p.dialect = current.dialect)
    (spelled : current.Spelled) :
    ((files previous current).value.map (·.key)).Nodup ↔ SlugsApart (former previous current) current := by
  have keys : (files previous current).value.map (·.key) =
      (subjects (former previous current) current).map fun s => Slug.ofText s.slug := by
    have slugs := congrArg (List.map Slug.ofText) (map_slug_files same)
    rwa [List.map_map, List.map_map] at slugs
  have names : ∀ s ∈ subjects (former previous current) current, ∀ name ∈ s.names, IsSpelled name :=
    spelled_subjects spelled
  rw [keys, ← words_nodup_iff spelled]
  simp only [List.Nodup, List.pairwise_map]
  exact List.Pairwise.iff_of_mem fun {a b} inA inB => not_congr (Subject.ofText_slug_inj (names a inA) (names b inB))

/--
The slugs of a migration's files are distinct exactly if the names of what they are about are, without regard to capital
letters and line breaks. Then a run that replaces files by slug leaves every one of them in a directory with one file at
most for each slug, such as an empty one; or it stops at a file whose number is too long or whose name makes no usable
path, after the files before it.
-/
theorem slugs_distinct_iff {previous : Option Plan} (past : ∀ p ∈ previous, p.Built d) (now : current.Built d) :
    (((files previous current).value.map (·.key)).Nodup ↔ SlugsApart (former previous current) current) ∧
      (SlugsApart (former previous current) current → ∀ {path : FilePath} {place : List String} {number : Int}
        {before after : Site} {result : Except Failure (List FilePath)},
        OnePerSlug path place before.tree → 0 ≤ number →
        CommandLine.writeScripts (.replacing path) number ((files previous current).value.map (·.script d)) before =
            (result, after) →
          match result with
          | .ok _ => OnePerSlug path place after.tree ∧ ∀ f ∈ (files previous current).value,
              after.tree.HoldsSlug place f.key (f.script d).bytes
          | .error e => StopsWith path place ((files previous current).value.map (·.script d)) before number e
              after.tree) := by
  have same : ∀ p ∈ previous, p.dialect = current.dialect := fun p given =>
    (past p given).regular.dialect.trans now.regular.dialect.symm
  have distinct := nodup_keys_iff same now.spelled
  refine ⟨distinct, fun apart path place number before after result held natural done => ?_⟩
  have nonempty : ∀ f ∈ (files previous current).value.map (·.script d), f.statements ≠ [] := by
    rw [List.forall_mem_map]
    intro f member
    simpa [MigrationFile.script, MigrationFile.texts] using (proper_files previous current f member).nonempty
  cases result with
  | ok paths =>
      have keys : (((files previous current).value.map (·.script d)).map (·.key)).Nodup := by
        rw [List.map_map]
        exact distinct.mpr apart
      rcases held.writeScripts_distinct natural nonempty keys done with ⟨single, holds⟩
      exact ⟨single, fun f member => holds (f.script d) (List.mem_map_of_mem member)⟩
  | error e => exact held.writeScripts natural nonempty done

def loneMembers : ModelSet := [("Member", { name := "Member", attributes := [("id", {})] })]

def membersAndPosts : ModelSet :=
  [("Member", { name := "Member", attributes := [("id", {}), ("email", { unique := true })] }),
    ("Post", {
      name := "Post"
      attributes := [("id", {}), ("member_id", {})]
      indexes := [{ name := "by_member", columns := ["member_id"] }] })]

def membersMigration : List MigrationFile :=
  (files (some (Plan.postgresOf loneMembers)) (Plan.postgresOf membersAndPosts)).value

def emptyFolder : Site := ⟨⟨[(["sql"], .directory)]⟩, []⟩

theorem posts_written_apart :
    membersMigration.map (·.key) =
        ["create-posts-table", "alter-posts-member_id", "create-by_member-index-in-posts", "alter-members-table"] ∧
      (membersMigration.map (·.key)).Nodup ∧
      ∃ paths after, CommandLine.writeScripts (.replacing (.ofString "sql")) 1700000000
          (membersMigration.map (·.script .postgres)) emptyFolder = (.ok paths, after) ∧
        ∀ f ∈ membersMigration, after.tree.HoldsSlug ["sql"] f.key (f.script .postgres).bytes := by
  have past : ∀ p ∈ some (Plan.postgresOf loneMembers), p.Built .postgres := by
    rintro p ⟨⟩
    exact Plan.postgresOf_built (by decide) (by decide)
  have now : (Plan.postgresOf membersAndPosts).Built .postgres := Plan.postgresOf_built (by decide) (by decide)
  have told : SlugsApart (former (some (Plan.postgresOf loneMembers)) (Plan.postgresOf membersAndPosts))
      (Plan.postgresOf membersAndPosts) := by decide +kernel
  have empty : OnePerSlug (.ofString "sql") ["sql"] emptyFolder.tree :=
    .of_empty (by decide +kernel) (by decide +kernel) (by decide +kernel)
  have apart := slugs_distinct_iff past now
  refine ⟨by decide +kernel, apart.1.mpr told, ?_⟩
  have finished : (CommandLine.writeScripts (.replacing (.ofString "sql")) 1700000000
      (membersMigration.map (·.script .postgres)) emptyFolder).1.isOk := by decide +kernel
  cases done : CommandLine.writeScripts (.replacing (.ofString "sql")) 1700000000
      (membersMigration.map (·.script .postgres)) emptyFolder with
  | mk result after =>
      cases result with
      | error e =>
          rw [done] at finished
          cases finished
      | ok paths => exact ⟨paths, after, rfl, (apart.2 told empty (by decide) done).2⟩

def twinTables : ModelSet :=
  [("User", { name := "User", attributes := [("id", {})] }),
    ("Person", { name := "Person", table := some "Users", attributes := [("id", {}), ("name", {})] })]

def twiceIndexed : ModelSet :=
  [("User", {
      name := "User"
      attributes := [("id", {}), ("email", {})]
      indexes := [{ name := "by_email", columns := ["email"] }, { name := "by_email", columns := ["id"] }] })]

/-- The second table takes the place of the first, and so does the second index. -/
theorem twins_share_slug : (¬ ∀ (d : Dialect) (previous : Option Plan) (current : Plan), (∀ p ∈ previous, p.Built d) →
      current.Built d → ((files previous current).value.map (·.key)).Nodup) ∧
    (files none (Plan.postgresOf twinTables)).value.map (·.key) = ["create-users-table", "create-users-table"] ∧
    (files none (Plan.postgresOf twiceIndexed)).value.map (·.key) =
      ["create-users-table", "create-by_email-index-in-users", "create-by_email-index-in-users"] := by
  refine ⟨fun claimed => ?_, by decide +kernel, by decide +kernel⟩
  have now : (Plan.postgresOf twinTables).Built .postgres := Plan.postgresOf_built (by decide) (by decide)
  exact absurd (claimed .postgres none _ nofun now) (by decide +kernel)

end Diff
end SchemaMigration
