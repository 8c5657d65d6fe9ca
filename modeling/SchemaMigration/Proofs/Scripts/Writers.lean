import SchemaMigration.Proofs.Scripts.OnePerSlug
import Mathlib.Logic.Function.Basic
/-!
Several writers that replace files in one directory, in any order. Each has a number of its own to go on with, so two of
them may give the same number; files are told apart by their slugs all the same, and the last write of a slug counts.
-/
namespace SchemaMigration
open ScriptDirectory

/-- What a writer keeps for itself: its next number, and which files it created and updated. -/
structure Writer where
  number : Int
  created : List FilePath := []
  updated : List FilePath := []

structure Workshop (ι : Type) where
  site : Site
  writers : ι → Writer

/-- Who writes which file, on the device as it is then. -/
structure Turn (ι : Type) where
  writer : ι
  file : ScriptFile
  device : Device := .sound

namespace Workshop
variable {ι : Type} [DecidableEq ι]

def progress (i : ι) (s : Workshop ι) : Progress :=
  ⟨s.site, (s.writers i).number, (s.writers i).created, (s.writers i).updated⟩

def goOn (i : ι) (p : Progress) (s : Workshop ι) : Workshop ι :=
  ⟨p.site, Function.update s.writers i ⟨p.number, p.created, p.updated⟩⟩

/-- One writer writes a file. If it fails, the others go on. -/
def turn (path : FilePath) (t : Turn ι) : Work (Workshop ι) (Except Failure (Option FilePath)) :=
  (Work.inside (progress t.writer) (goOn t.writer) (@ScriptDirectory.write t.device (replacing path) t.file)).attempt

def turns (path : FilePath) : List (Turn ι) → Work (Workshop ι) (List (Except Failure (Option FilePath))) :=
  Work.each (turn path)

/-- How turns end that start from a state, and what they have put, one after the other. -/
inductive TurnsEnd (path : FilePath) (place : List String) : Workshop ι → List (Turn ι) →
    List (Except Failure (Option FilePath)) → List (String × ByteArray) → Workshop ι → Prop where
  | nil (s : Workshop ι) : TurnsEnd path place s [] [] [] s
  | cons {s next after : Workshop ι} {t : Turn ι} {rest : List (Turn ι)} {result : Except Failure (Option FilePath)}
      {results : List (Except Failure (Option FilePath))} {put : Option (String × ByteArray)}
      {puts : List (String × ByteArray)} (done : turn path t s = (.ok result, next))
      (ends : @WriteEnds t.device path place s.site (s.writers t.writer).number t.file result put)
      (others : TurnsEnd path place next rest results puts after) :
      TurnsEnd path place s (t :: rest) (result :: results) (put.toList ++ puts) after

def Natural (s : Workshop ι) : Prop := ∀ i, 0 ≤ (s.writers i).number

theorem Natural.goOn {s : Workshop ι} (natural : s.Natural) (i : ι) {p : Progress} (number : 0 ≤ p.number) :
    (s.goOn i p).Natural := by
  intro j
  by_cases same : j = i
  · subst same
    simpa [Workshop.goOn] using number
  · simpa [Workshop.goOn, same] using natural j

variable {path : FilePath} {place : List String} {s : Workshop ι}

theorem turn_spec (held : OnePerSlug path place s.site.tree) (natural : s.Natural) (t : Turn ι)
    (nonempty : t.file.statements ≠ []) :
    ∃ result next put, turn path t s = (.ok result, next) ∧
      @WriteEnds t.device path place s.site (s.writers t.writer).number t.file result put ∧
      PutAll place put.toList s.site.tree next.site.tree ∧ next.Natural := by
  cases done : @ScriptDirectory.write t.device (replacing path) t.file (s.progress t.writer) with
  | mk result next =>
      rcases @OnePerSlug.write_ends _ _ _ t.device _ _ held (natural t.writer) nonempty _ done with
        ⟨put, ends, all, least, -⟩
      refine ⟨result, s.goOn t.writer next, put, ?_, ends, all, natural.goOn t.writer ((natural t.writer).trans least)⟩
      rw [turn, Work.attempt_eq_ok_iff, Work.inside, done]

theorem turns_spec (held : OnePerSlug path place s.site.tree) (natural : s.Natural) (writes : List (Turn ι))
    (nonempty : ∀ t ∈ writes, t.file.statements ≠ []) :
    ∃ results puts after, turns path writes s = (.ok results, after) ∧ TurnsEnd path place s writes results puts after ∧
      PutAll place puts s.site.tree after.site.tree := by
  induction writes generalizing s with
  | nil => exact ⟨[], [], s, rfl, .nil s, .nil _⟩
  | cons t rest ih =>
      rcases List.forall_mem_cons.mp nonempty with ⟨first, others⟩
      rcases turn_spec held natural t first with ⟨result, next, put, done, ends, all, later⟩
      rcases ih (all.onePerSlug held) later others with ⟨results, puts, after, rested, further, puttings⟩
      refine ⟨result :: results, put.toList ++ puts, after, ?_, .cons done ends further, all.append puttings⟩
      exact Work.bind_eq_ok_iff.mpr ⟨result, next, done, Work.bind_eq_ok_iff.mpr ⟨results, after, rested, rfl⟩⟩

namespace TurnsEnd
variable {after : Workshop ι} {writes : List (Turn ι)} {results : List (Except Failure (Option FilePath))}
  {puts : List (String × ByteArray)}

theorem key_of_put (ends : TurnsEnd path place s writes results puts after) :
    ∀ put ∈ puts, ∃ t ∈ writes, t.file.key = put.1 := by
  induction ends with
  | nil => nofun
  | @cons s next after t rest result results put puts done ends others ih =>
      intro p member
      rcases List.mem_append.mp member with own | later
      · obtain rfl : put = some p := Option.mem_toList.mp own
        exact ⟨t, List.mem_cons_self, (@WriteEnds.key_of_put _ _ t.device _ _ _ _ _ ends).symm⟩
      · rcases ih p later with ⟨u, inRest, key⟩
        exact ⟨u, List.mem_cons_of_mem _ inRest, key⟩

/-- What a turn that did not fail has put is put last for its slug, unless there is a later turn for the slug. -/
theorem lastPut_of_ok (ends : TurnsEnd path place s writes results puts after) {i : Nat} {t : Turn ι}
    {r : Option FilePath} (turn : writes[i]? = some t) (fine : results[i]? = some (.ok r))
    (last : ∀ u ∈ writes.drop (i + 1), u.file.key ≠ t.file.key) : lastPut t.file.key puts = some t.file.bytes := by
  induction ends generalizing i with
  | nil => cases turn
  | @cons s next after first rest result results put puts done ends others ih =>
      rw [lastPut_append]
      cases i with
      | zero =>
          cases turn
          cases fine
          rw [List.drop_succ_cons, List.drop_zero] at last
          have untouched : lastPut t.file.key puts = none := by
            rw [lastPut_eq_none_iff]
            intro p member same
            rcases others.key_of_put p member with ⟨u, inRest, key⟩
            exact last u inRest (key.trans same)
          rw [untouched, Option.none_or, @WriteEnds.put_of_ok _ _ t.device _ _ _ _ _ ends]
          exact lastPut_singleton t.file.put
      | succ i =>
          rw [List.drop_succ_cons] at last
          rw [ih turn fine last, Option.some_or]

end TurnsEnd

/--
However many writers take turns on a directory with one file at most for each slug, and however the device fails meanwhile,
it stays such a directory, holds for each slug what was put last, and every other file is as it was. A turn that does not
fail puts the whole file, so this is what is held unless another turn has the slug later; one that fails does so because
of the device or of the name that is due, and puts nothing or the beginning of the file.
-/
theorem turns_replace_by_slug (held : OnePerSlug path place s.site.tree) (natural : s.Natural) (writes : List (Turn ι))
    (nonempty : ∀ t ∈ writes, t.file.statements ≠ []) :
    ∃ results puts after, turns path writes s = (.ok results, after) ∧ TurnsEnd path place s writes results puts after ∧
      OnePerSlug path place after.site.tree ∧
      (∀ slug content, lastPut slug puts = some content → after.site.tree.HoldsSlug place slug content) ∧
      (∀ (i : Nat) (t : Turn ι) (r : Option FilePath), writes[i]? = some t → results[i]? = some (.ok r) →
        (∀ u ∈ writes.drop (i + 1), u.file.key ≠ t.file.key) → after.site.tree.HoldsSlug place t.file.key t.file.bytes) ∧
      ∀ q, (∀ put ∈ puts, ∀ name, slugOf? name = some put.1 → q ≠ place ++ [name]) →
        after.site.tree.node? q = s.site.tree.node? q := by
  rcases turns_spec held natural writes nonempty with ⟨results, puts, after, done, ends, all⟩
  refine ⟨results, puts, after, done, ends, all.onePerSlug held, fun _ _ => all.holds_last, ?_, fun _ => all.node?_other⟩
  exact fun i t r turn fine last => all.holds_last (ends.lastPut_of_ok turn fine last)

end Workshop

def sharedTree : Tree :=
  ⟨[(["sql"], .directory), (["sql", "12-users.sql"], .file "old\n".toUTF8),
    (["sql", "7-pages.sql"], .file "old\n".toUTF8), (["sql", "notes"], .file "keep\n".toUTF8)]⟩

theorem onePerSlug_sharedTree : OnePerSlug (.ofString "sql") ["sql"] sharedTree where
  located := by decide +kernel
  directory := by decide +kernel
  regular := by
    have files : ∀ name ∈ sharedTree.namesIn ["sql"],
        sharedTree.node? ["sql", name] ≠ none ∧ sharedTree.node? ["sql", name] ≠ some .directory := by decide +kernel
    intro name member
    rcases files name member with ⟨there, regular⟩
    change ∃ content, sharedTree.node? ["sql", name] = _
    cases node : sharedTree.node? ["sql", name] with
    | none => exact absurd node there
    | some n =>
        cases n with
        | directory => exact absurd node regular
        | file content => exact ⟨content, rfl⟩
  single := by
    have distinct : ∀ a ∈ sharedTree.namesIn ["sql"], ∀ b ∈ sharedTree.namesIn ["sql"],
        (slugOf? a).isSome → slugOf? b = slugOf? a → a = b := by decide +kernel
    intro a first b second slug named named'
    exact distinct a first b second (by rw [named]; rfl) (named'.trans named.symm)

def twoWriters : Workshop Bool := ⟨⟨sharedTree, []⟩, fun _ => ⟨20, [], []⟩⟩

@[reducible] def troubled (trouble : Trouble) : Device := { Device.sound with writing := fun _ _ _ => some trouble }

/--
The first writer writes the users, the second pages and users; its pages are broken off after one byte, and it writes them
again. Posts are refused once, which spends a number.
-/
def interleaved : List (Turn Bool) :=
  [{ writer := false, file := ⟨"Users", ["a;"]⟩ },
    { writer := true, file := ⟨"pages", ["b;"]⟩, device := troubled (.brokenOff 1 .busy) },
    { writer := true, file := ⟨"users", ["c;"]⟩ },
    { writer := true, file := ⟨"pages", ["b;"]⟩ },
    { writer := false, file := ⟨"posts", ["d;"]⟩, device := troubled (.refused .busy) },
    { writer := false, file := ⟨"posts", ["d;"]⟩ }]

theorem two_writers_replace_by_slug :
    ∃ results after, Workshop.turns (.ofString "sql") interleaved twoWriters = (.ok results, after) ∧
      results.map (·.toOption) =
        [some (some (.ofString "sql/12-users.sql")), none, some (some (.ofString "sql/12-users.sql")),
          some (some (.ofString "sql/7-pages.sql")), none, some (some (.ofString "sql/21-posts.sql"))] ∧
      OnePerSlug (.ofString "sql") ["sql"] after.site.tree ∧
      after.site.tree.HoldsSlug ["sql"] "users" "c;\n".toUTF8 ∧ after.site.tree.HoldsSlug ["sql"] "pages" "b;\n".toUTF8 ∧
      after.site.tree.HoldsSlug ["sql"] "posts" "d;\n".toUTF8 ∧
      after.site.tree.node? ["sql", "notes"] = some (.file "keep\n".toUTF8) := by
  have nonempty : ∀ t ∈ interleaved, t.file.statements ≠ [] := by
    simp only [interleaved, List.forall_mem_cons]
    exact ⟨by decide, by decide, by decide, by decide, by decide, by decide, List.forall_mem_nil _⟩
  have natural : twoWriters.Natural := fun _ => show (0 : Int) ≤ 20 by decide
  rcases Workshop.turns_replace_by_slug (s := twoWriters) onePerSlug_sharedTree natural interleaved nonempty with
    ⟨results, puts, after, done, ends, single, -, last, others⟩
  have evaluated : (Workshop.turns (.ofString "sql") interleaved twoWriters).1.toOption.map (·.map (·.toOption)) =
      some [some (some (.ofString "sql/12-users.sql")), none, some (some (.ofString "sql/12-users.sql")),
        some (some (.ofString "sql/7-pages.sql")), none, some (some (.ofString "sql/21-posts.sql"))] := by decide +kernel
  rw [done] at evaluated
  have ended : results.map (·.toOption) = _ := Option.some.inj evaluated
  have fine : ∀ {i : Nat} {r : Option FilePath}, (results.map (·.toOption))[i]? = some (some r) →
      results[i]? = some (.ok r) := by
    intro i r found
    rw [List.getElem?_map, Option.map_eq_some_iff] at found
    rcases found with ⟨result, listed, shown⟩
    rw [listed, eq_ok_of_toOption shown]
  have unnamed : slugOf? "notes" = none := by decide +kernel
  refine ⟨results, after, done, ended, single, ?_, ?_, ?_, ?_⟩
  · exact last 2 _ _ rfl (fine (congrArg (·[2]?) ended)) (by decide +kernel)
  · exact last 3 _ _ rfl (fine (congrArg (·[3]?) ended)) (by decide +kernel)
  · exact last 5 _ _ rfl (fine (congrArg (·[5]?) ended)) (by decide +kernel)
  · refine (others ["sql", "notes"] (fun put _ name named same => ?_)).trans (by decide +kernel)
    obtain rfl : "notes" = name := by simpa using same
    rw [unnamed] at named
    cases named

end SchemaMigration
