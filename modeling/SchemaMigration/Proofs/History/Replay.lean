import SchemaMigration.Proofs.History.Rewriting
import SchemaMigration.Proofs.Migration.TableOrder
/-!
Running what is left in a directory that replaces files by slug. What a file creates that was overwritten may be
missing then, and what has come to an earlier place may come too early. A file whose slug is its own does neither.
-/
namespace SchemaMigration

def SchemaObject.isStructural : SchemaObject → Bool
  | .definition .. | .enumType _ => false
  | _ => true

def Recreates (d : Dialect) (others statements : List Statement) : Prop :=
  ∀ object ∈ created d others, object.isStructural → object ∈ created d statements

instance (d : Dialect) (others statements : List Statement) : Decidable (Recreates d others statements) :=
  inferInstanceAs (Decidable (∀ _ ∈ _, _))

namespace MigrationFile

/-- The files that are left create what all files create, and every table before it is mentioned. -/
structure Replays (d : Dialect) (files left : List MigrationFile) : Prop where
  recreates : Recreates d (flatten files) (flatten left)
  supplied : Supplied d (Statement.tablesMentioned d) [] (flatten left)

/-- Nothing is lost with the content of an overwritten file, and no new content comes too early. -/
structure Harmless (d : Dialect) (files left : List MigrationFile) : Prop where
  recreated : ∀ f ∈ files, Rewritten files f.key → Recreates d f.statements (flatten left)
  inTime : ∀ before f after, left = before ++ f :: after → Rewritten files f.key →
    Supplied d Statement.tablesNamed (created d (flatten before)) f.statements
  referenced : d = .sqlite → Supplied d Statement.tablesReferenced [] (flatten left)

variable {d : Dialect} {files : List MigrationFile} {f g : MigrationFile}

theorem mem_of_mem_settle (member : f ∈ settle files) : f ∈ files :=
  (mem_of_mem_settleOn member).resolve_left List.not_mem_nil

theorem mem_settle_of_not_rewritten (member : f ∈ files) (once : ¬ Rewritten files f.key) : f ∈ settle files := by
  rcases List.append_of_mem member with ⟨before, after, rfl⟩
  rcases settle_split once with ⟨first, last, settled, -⟩
  rw [settled]
  simp

theorem nodup_settle (files : List MigrationFile) : ((settle files).map key).Nodup :=
  @nodup_settleOn [] List.nodup_nil files

theorem eq_of_mem_settle (first : f ∈ settle files) (second : g ∈ settle files) (same : f.key = g.key) : f = g :=
  List.inj_on_of_nodup_map (nodup_settle files) first second same

/-- Before a file with a slug of its own stand the same slugs as ever. -/
theorem map_key_before {before after : List MigrationFile} (settled : settle files = before ++ f :: after)
    (once : ¬ Rewritten files f.key) : ∃ earlier later, files = earlier ++ f :: later ∧
      ∀ k, k ∈ before.map key ↔ k ∈ earlier.map key := by
  have member : f ∈ settle files := by
    rw [settled]
    simp
  rcases List.append_of_mem (mem_of_mem_settle member) with ⟨earlier, later, rfl⟩
  rcases settle_split once with ⟨first, last, split, keys⟩
  have distinct : (settle (earlier ++ f :: later)).Nodup := (nodup_settle _).of_map
  have same : before = first := by
    have inBefore := settled ▸ distinct
    rw [split] at settled distinct
    rw [List.nodup_middle, List.nodup_cons, List.mem_append, not_or] at distinct inBefore
    exact ((List.append_cons_inj_of_notMem inBefore.1.1 inBefore.1.2).mp settled.symm).1
  exact ⟨earlier, later, rfl, same ▸ keys⟩

theorem mem_created_flatten {object : SchemaObject} :
    object ∈ created d (flatten files) ↔ ∃ f ∈ files, object ∈ created d f.statements := by
  simp only [created, flatten, List.mem_flatMap]
  constructor
  · rintro ⟨s, ⟨f, member, inside⟩, creates⟩
    exact ⟨f, member, s, inside, creates⟩
  · rintro ⟨f, member, s, inside, creates⟩
    exact ⟨s, ⟨f, member, inside⟩, creates⟩

theorem recreates_settle (recreated : ∀ f ∈ files, Rewritten files f.key → Recreates d f.statements (flatten (settle files))) :
    Recreates d (flatten files) (flatten (settle files)) := by
  intro object isCreated structural
  rcases mem_created_flatten.mp isCreated with ⟨f, member, creates⟩
  by_cases rewritten : Rewritten files f.key
  · exact recreated f member rewritten object creates structural
  · exact mem_created_flatten.mpr ⟨f, mem_settle_of_not_rewritten member rewritten, creates⟩

theorem table_created_before (proper : ∀ f ∈ files, f.Proper d)
    (recreates : Recreates d (flatten files) (flatten (settle files))) {before earlier later after : List MigrationFile}
    (split : files = earlier ++ f :: later) (settled : settle files = before ++ f :: after)
    (keys : ∀ k, k ∈ before.map key ↔ k ∈ earlier.map key) {name : Value}
    (isCreated : .table name ∈ created d (flatten earlier)) : .table name ∈ created d (flatten before) := by
  rcases mem_created_flatten.mp isCreated with ⟨h, inEarlier, creates⟩
  have inFiles : h ∈ files := split ▸ List.mem_append_left _ inEarlier
  have still := recreates (.table name) (mem_created_flatten.mpr ⟨h, inFiles, creates⟩) rfl
  rcases mem_created_flatten.mp still with ⟨now, inLeft, createsNow⟩
  have slug : now.key = h.key := by
    rw [key, key, (proper now (mem_of_mem_settle inLeft)).slug name createsNow, (proper h inFiles).slug name creates]
  rcases List.mem_map.mp ((keys h.key).mpr (List.mem_map_of_mem inEarlier)) with ⟨there, inBefore, same⟩
  have inSettled : there ∈ settle files := settled ▸ List.mem_append_left _ inBefore
  rw [eq_of_mem_settle inLeft inSettled (slug.trans same.symm)] at createsNow
  exact mem_created_flatten.mpr ⟨there, inBefore, createsNow⟩

theorem replays_iff_harmless (proper : ∀ f ∈ files, f.Proper d)
    (supplied : Supplied d Statement.tablesNamed [] (flatten files)) :
    Replays d files (settle files) ↔ Harmless d files (settle files) := by
  have mentioned : Supplied d (Statement.tablesMentioned d) [] (flatten (settle files)) ↔
      Supplied d Statement.tablesNamed [] (flatten (settle files)) ∧
        (d = .sqlite → Supplied d Statement.tablesReferenced [] (flatten (settle files))) := by
    rw [show Statement.tablesMentioned d = fun s => s.tablesNamed ++ if d = .sqlite then s.tablesReferenced else []
      from rfl, supplied_both]
    apply and_congr_right'
    split
    case isTrue inline => simp [inline]
    case isFalse separate => simp [separate, supplied_of_needless]
  have named : Supplied d Statement.tablesNamed [] (flatten (settle files)) ↔ ∀ before f after,
      settle files = before ++ f :: after → Supplied d Statement.tablesNamed (created d (flatten before)) f.statements := by
    simp only [supplied_flatten_iff, List.nil_append]
  constructor
  · rintro ⟨recreates, supplied⟩
    rcases mentioned.mp supplied with ⟨order, referenced⟩
    refine ⟨fun f member _ object creates => ?_, fun before f after split _ => named.mp order before f after split,
      referenced⟩
    exact recreates object (mem_created_flatten.mpr ⟨f, member, creates⟩)
  · intro harmless
    have recreates := recreates_settle harmless.recreated
    refine ⟨recreates, mentioned.mpr ⟨named.mpr fun before f after split => ?_, harmless.referenced⟩⟩
    by_cases rewritten : Rewritten files f.key
    · exact harmless.inTime before f after split rewritten
    · rcases map_key_before split rewritten with ⟨earlier, later, whole, keys⟩
      have history := (supplied_flatten_iff files).mp supplied earlier f later whole
      refine history.exchange fun s _ object needed isCreated => ?_
      rcases Statement.table_of_mem_tablesNamed needed with ⟨name, rfl⟩
      exact table_created_before proper recreates whole split keys isCreated

end MigrationFile

namespace History
open MigrationFile Placed

variable {d : Dialect} {path : FilePath}

theorem supplied_tables {base : Plan} {plans : List Plan} {held : List SchemaObject} (start : base.Regular d)
    (past : ∀ t ∈ base.tables, .table t.name ∈ held) (built : ∀ p ∈ plans, p.Built d) :
    Supplied d Statement.tablesNamed held (migrations (some base) plans) := by
  induction plans generalizing base held with
  | nil => trivial
  | cons p rest ih =>
      rcases List.forall_mem_cons.mp built with ⟨first, others⟩
      have now := first.regular
      have same : base.dialect = p.dialect := start.dialect.trans now.dialect.symm
      rw [migrations, supplied_append]
      constructor
      · rw [Diff.statements_some base p same]
        exact Diff.supplied_tablesNamed now first.closed past
      · apply ih now _ others
        intro t inPlan
        have known := (p.table_mem_inventory t.name).mpr ⟨t, inPlan, rfl⟩
        rw [List.mem_append, Diff.table_mem_created start.dialect now]
        by_cases old : .table t.name ∈ base.inventory
        · rcases (base.table_mem_inventory _).mp old with ⟨before, inBase, name⟩
          exact .inl (name ▸ past before inBase)
        · exact .inr ⟨known, old⟩

/--
Runs of the program, each of which writes the migration from the plan before it into a directory that replaces
files by slug. If it is empty at first, and the numbers grow and keep ten digits, then it lists one file for each slug
in the end: in the place of the first file with the slug, and with the statements of the last. Running these in the
order of their names creates every table, column, foreign key and index of the history, and every table before it is
mentioned, exactly if that holds for the files whose slug was written more than once, and for references inside
column definitions.
-/
theorem replays_iff_overwriting_harmless {stages : List Stage} {before after : Site}
    (built : ∀ s ∈ stages, s.plan.Built d) (there : before.tree.isDirectory? path = .ok true)
    (empty : before.tree.names path = .ok []) (inTurn : InTurn none stages [])
    (short : ∀ p ∈ shelfAfter none stages [], p.number < firstOfElevenDigits)
    (done : writeStages path none stages before = (.ok (), after)) :
    after.tree.Lists d path (settle (filesOf none (plansIn stages))) ∧
      (Replays d (filesOf none (plansIn stages)) (settle (filesOf none (plansIn stages))) ↔
        Harmless d (filesOf none (plansIn stages)) (settle (filesOf none (plansIn stages)))) := by
  have plans : ∀ p ∈ plansIn stages, p.Built d := List.forall_mem_map.mpr built
  have dialect : ∀ s ∈ stages, s.plan.dialect = d := fun s member => (built s member).regular.dialect
  have proper := proper_filesOf none (List.forall_mem_map.mpr dialect)
  have supplied : Supplied d Statement.tablesNamed [] (flatten (filesOf none (plansIn stages))) := by
    rw [flatten_filesOf, migrations_none fun p member => (plans p member).regular]
    exact supplied_tables (Plan.regular_empty d) (by simp [Plan.empty]) plans
  exact ⟨lists_writeStages dialect there empty inTurn short done, replays_iff_harmless proper supplied⟩

def stagesOf (plans : List Plan) : List Stage := plans.zipIdx.map fun entry => ⟨1700000000 + 100 * entry.2, entry.1⟩

theorem stagesOf_built {plans : List Plan} (built : ∀ p ∈ plans, p.Built d) : ∀ s ∈ stagesOf plans, s.plan.Built d := by
  rw [stagesOf, List.forall_mem_map]
  intro entry member
  exact built entry.1 (List.fst_mem_of_mem_zipIdx member)

def emptyDirectory : Site := { tree := ⟨[(["sql"], .directory)]⟩ }

theorem emptyDirectory_is_empty : emptyDirectory.tree.isDirectory? (.ofString "sql") = .ok true ∧
    emptyDirectory.tree.names (.ofString "sql") = .ok [] := by decide +kernel

def interruptedStages : List Stage := stagesOf interruptedPlans

theorem posts_replaced_harmlessly :
    (∀ s ∈ interruptedStages, s.plan.Built .postgres) ∧ InTurn none interruptedStages [] ∧
      Rewritten (filesOf none (plansIn interruptedStages)) "create-posts-table" ∧
      ∃ after, writeStages (.ofString "sql") none interruptedStages emptyDirectory = (.ok (), after) ∧
        after.tree.names (.ofString "sql") =
          .ok ["1700000000-create-users-table.sql", "1700000001-create-posts-table.sql"] ∧
        after.tree.Lists .postgres (.ofString "sql") (settle (filesOf none (plansIn interruptedStages))) ∧
        Replays .postgres (filesOf none (plansIn interruptedStages))
          (settle (filesOf none (plansIn interruptedStages))) := by
  have built : ∀ s ∈ interruptedStages, s.plan.Built .postgres := stagesOf_built interruptedPlans_built
  have inTurn : InTurn none interruptedStages [] := by decide +kernel
  have finished : (writeStages (.ofString "sql") none interruptedStages emptyDirectory).1.isOk := by decide +kernel
  have done := Work.eq_ok_of_isOk finished
  rcases replays_iff_overwriting_harmless built emptyDirectory_is_empty.1 emptyDirectory_is_empty.2 inTurn
    (by decide +kernel) done with ⟨lists, replays⟩
  have names : ((writeStages (.ofString "sql") none interruptedStages emptyDirectory).2.tree.names
      (.ofString "sql")) = .ok ["1700000000-create-users-table.sql", "1700000001-create-posts-table.sql"] := by
    decide +kernel
  refine ⟨built, inTurn, by decide +kernel, _, done, names, lists, replays.mpr ⟨by decide +kernel, ?_, nofun⟩⟩
  have order : Supplied .postgres Statement.tablesNamed []
      (flatten (settle (filesOf none (plansIn interruptedStages)))) := by decide +kernel
  exact fun before f after split _ => (supplied_flatten_iff _).mp order before f after split

def describedUsers : List ModelSet :=
  [users, [("User", { name := "User", attributes := [("id", {}), ("age", {})] })],
    [("User", { name := "User", attributes := [("id", {}), ("age", {}), ("nick", {})] })]]

def describedStages : List Stage := stagesOf (plansOf .postgres describedUsers)

/-- The change that adds the nickname takes the place of the one that adds the age. -/
theorem ages_lost : ¬ ∀ (d : Dialect) (path : FilePath) (stages : List Stage) (before after : Site),
    (∀ s ∈ stages, s.plan.Built d) → before.tree.isDirectory? path = .ok true → before.tree.names path = .ok [] →
      InTurn none stages [] → (∀ s ∈ stages, s.base < firstOfElevenDigits) →
      writeStages path none stages before = (.ok (), after) → ∀ left, after.tree.Lists d path left →
      Replays d (filesOf none (plansIn stages)) left := by
  intro claimed
  have built : ∀ s ∈ describedStages, s.plan.Built .postgres := stagesOf_built (plansOf_built .postgres (by decide))
  have inTurn : InTurn none describedStages [] := by decide +kernel
  have finished : (writeStages (.ofString "sql") none describedStages emptyDirectory).1.isOk := by decide +kernel
  have done := Work.eq_ok_of_isOk finished
  have lists := lists_writeStages (fun s member => (built s member).regular.dialect) emptyDirectory_is_empty.1
    emptyDirectory_is_empty.2 inTurn (by decide +kernel) done
  have replays := claimed .postgres (.ofString "sql") describedStages emptyDirectory _ built emptyDirectory_is_empty.1
    emptyDirectory_is_empty.2 inTurn (by decide +kernel) done _ lists
  have kept := replays.recreates (.column (.str "users") (.str "age")) (by decide +kernel) rfl
  exact absurd kept (by decide +kernel)

end History
end SchemaMigration
