import SchemaMigration.Proofs.Scripts.Replacing
/-!
A directory in which no two files have the same slug. Where files are replaced, a file that is written is put under the
one name with its slug, or under a new name if there is none, so the directory stays as it is said here: with one file
at most for each slug. Number, order and time of the writes do not matter.
-/
namespace SchemaMigration
open ScriptDirectory

namespace ScriptFile

def key (f : ScriptFile) : String := Slug.ofText f.slug

def bytes (f : ScriptFile) : ByteArray := (f.content ++ "\n").toUTF8

def put (f : ScriptFile) : String × ByteArray := (f.key, f.bytes)

end ScriptFile

namespace ScriptDirectory

theorem ne_of_slugOf? {name slug other : String} (named : slugOf? name = some slug)
    (plain : isScriptFile other = false) : name ≠ other := by
  rintro rfl
  rw [isScriptFile_of_slugOf? named] at plain
  cases plain

variable {directory : ScriptDirectory} {names : List String} {slug : String}

theorem of_named?_eq_some {p : FilePath} (found : directory.named? names slug = some p) :
    ∃ name ∈ names, slugOf? name = some slug ∧ p = directory.path.child name := by
  rcases Option.map_eq_some_iff.mp found with ⟨name, first, rfl⟩
  have named : slugOf? name = some slug := by simpa using List.find?_some first
  exact ⟨name, (List.mem_filter.mp (List.mem_of_find?_eq_some first)).1, named, rfl⟩

theorem named?_eq_none_iff : directory.named? names slug = none ↔ ∀ name ∈ names, slugOf? name ≠ some slug := by
  rw [named?, Option.map_eq_none_iff, List.find?_eq_none]
  constructor
  · intro absent name member named
    exact absent name (List.mem_filter.mpr ⟨member, isScriptFile_of_slugOf? named⟩) (by simp [named])
  · intro absent name member
    simpa using absent name (List.mem_filter.mp member).1

end ScriptDirectory

def Tree.HoldsSlug (t : Tree) (place : List String) (slug : String) (content : ByteArray) : Prop :=
  ∃ name ∈ t.namesIn place, slugOf? name = some slug ∧ t.node? (place ++ [name]) = some (.file content)

/-- A directory at a place that holds files only, for each slug one at most. -/
structure OnePerSlug (path : FilePath) (place : List String) (t : Tree) : Prop where
  located : t.locate path = .ok place
  directory : t.node? place = some .directory
  regular : ∀ name ∈ t.namesIn place, ∃ content, t.node? (place ++ [name]) = some (.file content)
  single : ∀ a ∈ t.namesIn place, ∀ b ∈ t.namesIn place, ∀ slug,
    slugOf? a = some slug → slugOf? b = some slug → a = b

/-- Content is put under a name with the slug; if a file has that slug, it is the one with this name. -/
structure Puts (place : List String) (slug : String) (content : ByteArray) (name : String) (t u : Tree) : Prop where
  named : slugOf? name = some slug
  only : ∀ other ∈ t.namesIn place, slugOf? other = some slug → other = name
  free : t.node? (place ++ [name]) ≠ some .directory
  tree : u = t.put (place ++ [name]) (.file content)

inductive PutAll (place : List String) : List (String × ByteArray) → Tree → Tree → Prop where
  | nil (t : Tree) : PutAll place [] t t
  | cons {slug name : String} {content : ByteArray} {rest : List (String × ByteArray)} {t u w : Tree}
      (put : Puts place slug content name t u) (others : PutAll place rest u w) : PutAll place ((slug, content) :: rest) t w

def lastPut (slug : String) (puts : List (String × ByteArray)) : Option ByteArray := puts.reverse.lookup slug

theorem lastPut_append (slug : String) (first second : List (String × ByteArray)) :
    lastPut slug (first ++ second) = (lastPut slug second).or (lastPut slug first) := by
  rw [lastPut, List.reverse_append, List.lookup_append]
  rfl

theorem lastPut_eq_none_iff {slug : String} {puts : List (String × ByteArray)} :
    lastPut slug puts = none ↔ ∀ put ∈ puts, put.1 ≠ slug := by
  rw [lastPut, List.lookup_eq_none_iff]
  simp only [List.mem_reverse, bne_iff_ne, ne_comm]

theorem lastPut_singleton (put : String × ByteArray) : lastPut put.1 [put] = some put.2 := by
  rw [lastPut, List.reverse_singleton, List.lookup_cons, beq_self_eq_true]

theorem lastPut_cons (slug : String) (put : String × ByteArray) (rest : List (String × ByteArray)) :
    lastPut slug (put :: rest) = (lastPut slug rest).or (if put.1 = slug then some put.2 else none) := by
  rw [← List.singleton_append, lastPut_append]
  split
  case isTrue same => rw [← same, lastPut_singleton]
  case isFalse other => rw [show lastPut slug [put] = none from lastPut_eq_none_iff.mpr (by simpa using other)]

theorem lastPut_of_mem {puts : List (String × ByteArray)} (distinct : (puts.map (·.1)).Nodup) {slug : String}
    {content : ByteArray} (member : (slug, content) ∈ puts) : lastPut slug puts = some content := by
  induction puts with
  | nil => cases member
  | cons put rest ih =>
      rcases List.nodup_cons.mp distinct with ⟨fresh, others⟩
      rw [lastPut_cons]
      rcases List.mem_cons.mp member with rfl | later
      · have once : lastPut slug rest = none :=
          lastPut_eq_none_iff.mpr fun other inRest same => fresh (List.mem_map.mpr ⟨other, inRest, same⟩)
        rw [once, Option.none_or, if_pos rfl]
      · rw [ih others later, Option.some_or]

variable {path : FilePath} {place : List String} {t u w : Tree} {name slug : String}
  {content : ByteArray}

theorem OnePerSlug.of_empty (located : t.locate path = .ok place) (directory : t.node? place = some .directory)
    (empty : t.namesIn place = []) : OnePerSlug path place t := by
  refine ⟨located, directory, ?_, ?_⟩ <;> rw [empty] <;> nofun

namespace Puts

theorem node?_same (put : Puts place slug content name t u) : u.node? (place ++ [name]) = some (.file content) := by
  rw [put.tree, Tree.node?_put_same (Tree.isGiven_eq_false put.free)]

theorem node?_other (put : Puts place slug content name t u) {q : List String} (other : q ≠ place ++ [name]) :
    u.node? q = t.node? q := by
  rw [put.tree, Tree.node?_put_other _ other]

theorem mem_namesIn_iff (put : Puts place slug content name t u) {other : String} :
    other ∈ u.namesIn place ↔ other ∈ t.namesIn place ∨ other = name := by
  rw [put.tree, Tree.namesIn_put]
  split
  case isTrue there => exact ⟨.inl, by rintro (old | rfl) <;> assumption⟩
  case isFalse => simp

theorem holds (put : Puts place slug content name t u) : u.HoldsSlug place slug content :=
  ⟨name, put.mem_namesIn_iff.mpr (.inr rfl), put.named, put.node?_same⟩

theorem holds_other (put : Puts place slug content name t u) {kept : String} {old : ByteArray} (different : slug ≠ kept)
    (held : t.HoldsSlug place kept old) : u.HoldsSlug place kept old := by
  rcases held with ⟨other, member, named, file⟩
  refine ⟨other, put.mem_namesIn_iff.mpr (.inl member), named, ?_⟩
  rwa [put.node?_other]
  intro same
  obtain rfl : other = name := by simpa using same
  rw [put.named] at named
  exact different (Option.some.inj named)

theorem keepsDirectories (put : Puts place slug content name t u) : t.KeepsDirectories u := by
  rw [put.tree]
  exact Tree.keepsDirectories_put _ put.free

end Puts

theorem OnePerSlug.puts (held : OnePerSlug path place t) (put : Puts place slug content name t u) :
    OnePerSlug path place u where
  located := Tree.locate_keeps put.keepsDirectories held.located
  directory := put.keepsDirectories _ held.directory
  regular := by
    intro other member
    by_cases same : other = name
    · rw [same]
      exact ⟨content, put.node?_same⟩
    · rw [put.node?_other (by simpa using same)]
      exact held.regular other ((put.mem_namesIn_iff.mp member).resolve_right same)
  single := by
    have fits : ∀ a ∈ t.namesIn place, ∀ key, slugOf? a = some key → slugOf? name = some key → a = name := by
      intro a member key named shared
      rw [put.named] at shared
      cases shared
      exact put.only a member named
    intro a first b second key named shared
    rcases put.mem_namesIn_iff.mp first with first | rfl
    · rcases put.mem_namesIn_iff.mp second with second | rfl
      · exact held.single a first b second key named shared
      · exact fits a first key named shared
    · rcases put.mem_namesIn_iff.mp second with second | rfl
      · exact (fits b second key shared named).symm
      · rfl

namespace PutAll
variable {puts : List (String × ByteArray)}

theorem append {first second : List (String × ByteArray)} (early : PutAll place first t u)
    (late : PutAll place second u w) : PutAll place (first ++ second) t w := by
  induction early with
  | nil t => exact late
  | cons put _ ih => exact .cons put (ih late)

theorem onePerSlug (all : PutAll place puts t u) (held : OnePerSlug path place t) : OnePerSlug path place u := by
  induction all with
  | nil t => exact held
  | cons put _ ih => exact ih (held.puts put)

theorem holds_other (all : PutAll place puts t u) (untouched : lastPut slug puts = none)
    (held : t.HoldsSlug place slug content) : u.HoldsSlug place slug content := by
  induction all with
  | nil t => exact held
  | cons put _ ih =>
      rw [lastPut_cons, Option.or_eq_none_iff] at untouched
      exact ih untouched.1 (put.holds_other (by simpa using untouched.2) held)

theorem holds_last (all : PutAll place puts t u) (last : lastPut slug puts = some content) :
    u.HoldsSlug place slug content := by
  induction all with
  | nil t => cases last
  | cons put others ih =>
      rw [lastPut_cons] at last
      -- What is put later for the slug takes the place of this, and what is put for another slug does not.
      cases later : lastPut slug _ with
      | some final =>
          rw [later, Option.some_or] at last
          exact ih (later.trans last)
      | none =>
          rw [later, Option.none_or] at last
          split at last
          case isFalse => cases last
          case isTrue same =>
            cases last
            exact others.holds_other later (same ▸ put.holds)

theorem node?_other (all : PutAll place puts t u) {q : List String}
    (other : ∀ put ∈ puts, ∀ name, slugOf? name = some put.1 → q ≠ place ++ [name]) : u.node? q = t.node? q := by
  induction all with
  | nil t => rfl
  | cons put _ ih =>
      rcases List.forall_mem_cons.mp other with ⟨first, rest⟩
      rw [ih rest, put.node?_other (first _ put.named)]

end PutAll

/-- The name under which a slug is written now: the one that has it, or a new one under the next number. -/
inductive Due (place : List String) (t : Tree) (number : Int) (slug : String) : String → Prop where
  | present {name : String} (there : name ∈ t.namesIn place) (named : slugOf? name = some slug) : Due place t number slug name
  | new (absent : ∀ name ∈ t.namesIn place, slugOf? name ≠ some slug) : Due place t number slug (fileName number slug)

/--
How the write of a file ends, and what it has put under the name that was due: the whole text if nothing is wrong, the
first bytes of it if the device breaks off, and otherwise nothing.
-/
inductive WriteEnds [Device] (path : FilePath) (place : List String) (site : Site) (number : Int) (f : ScriptFile) :
    Except Failure (Option FilePath) → Option (String × ByteArray) → Prop where
  | written {name : String} (due : Due place site.tree number f.key name)
      (fine : Device.writing site.told.length site.tree (path.child name) = none) :
      WriteEnds path place site number f (.ok (some (path.child name))) (some f.put)
  | brokenOff {name : String} {count : Nat} {fault : FileFault} (due : Due place site.tree number f.key name)
      (trouble : Device.writing site.told.length site.tree (path.child name) = some (.brokenOff count fault)) :
      WriteEnds path place site number f (.error (.file fault)) (some (f.key, f.bytes.extract 0 count))
  | refused {name : String} {fault : FileFault} (due : Due place site.tree number f.key name)
      (trouble : Device.writing site.told.length site.tree (path.child name) = some (.refused fault)) :
      WriteEnds path place site number f (.error (.file fault)) none
  | unusableName {name : String} {fault : FileFault} (due : Due place site.tree number f.key name)
      (unusable : Tree.nameable path name = .error fault) :
      WriteEnds path place site number f (.error (.file fault)) none
  | numberTooLong (absent : ∀ name ∈ site.tree.namesIn place, slugOf? name ≠ some f.key)
      (long : Value.integerLimit ≤ number.natAbs) :
      WriteEnds path place site number f (.error (.fault .integerTooLong)) none

namespace WriteEnds
variable [Device] {site : Site} {number : Int} {f : ScriptFile}

theorem put_of_ok {r : Option FilePath} {put : Option (String × ByteArray)}
    (ends : WriteEnds path place site number f (.ok r) put) : put = some f.put := by
  cases ends
  rfl

theorem key_of_put {result : Except Failure (Option FilePath)} {put : String × ByteArray}
    (ends : WriteEnds path place site number f result (some put)) : put.1 = f.key := by
  cases ends <;> rfl

end WriteEnds

inductive StopsWith [Device] (path : FilePath) (place : List String) (files : List ScriptFile) (before : Site)
    (number : Int) : Failure → Tree → Prop where
  | intro {earlier later : List ScriptFile} {f : ScriptFile} {middle : Site} {next : Int} {e : Failure}
      {put : Option (String × ByteArray)} {after : Tree} (parts : files = earlier ++ f :: later)
      (all : PutAll place (earlier.map (·.put)) before.tree middle.tree) (least : number ≤ next)
      (most : next ≤ number + earlier.length) (ends : WriteEnds path place middle next f (.error e) put)
      (last : PutAll place put.toList middle.tree after) : StopsWith path place files before number e after

namespace OnePerSlug
variable {f : ScriptFile} {files : List ScriptFile} {number : Int}

theorem exists_directory (held : OnePerSlug path place t) : t.exists? path = .ok true := by
  rw [Tree.exists?, Tree.find_eq_ok_iff.mpr ⟨place, held.located, held.directory⟩]

theorem names_eq (held : OnePerSlug path place t) : t.names path = .ok (Text.sort (t.namesIn place)) := by
  have there : t.isDirectory? path = .ok true :=
    Tree.isDirectory?_eq_true_iff.mpr (Tree.find_eq_ok_iff.mpr ⟨place, held.located, held.directory⟩)
  exact (Tree.names_eq_ok_iff there).mpr ⟨place, held.located, rfl⟩

theorem replaced?_eq (held : OnePerSlug path place t) (slug : String) :
    ∃ found, (replacing path).replaced? t slug = .ok found ∧
      match found with
      | some p => ∃ name ∈ t.namesIn place, slugOf? name = some slug ∧ p = path.child name
      | none => ∀ name ∈ t.namesIn place, slugOf? name ≠ some slug := by
  have sorted : ∀ name, name ∈ Text.sort (t.namesIn place) ↔ name ∈ t.namesIn place := fun name =>
    (Text.sortBy_perm _ _).mem_iff
  refine ⟨(replacing path).named? (Text.sort (t.namesIn place)) slug, ?_, ?_⟩
  · change ((replacing path).named? · slug) <$> t.names path = _
    rw [held.names_eq]
    rfl
  · split
    case h_1 p found =>
      rcases of_named?_eq_some found with ⟨name, member, named, rfl⟩
      exact ⟨name, (sorted name).mp member, named, rfl⟩
    case h_2 found => exact fun name member => named?_eq_none_iff.mp found name ((sorted name).mpr member)

theorem locate_child (held : OnePerSlug path place t) (named : slugOf? name = some slug) :
    t.locate (path.child name) = (fun _ => place ++ [name]) <$> Tree.nameable path name :=
  Tree.locate_child_of_directory held.located held.directory (ne_of_slugOf? named (by decide))

theorem node?_ne_directory (held : OnePerSlug path place t) (named : slugOf? name = some slug) :
    t.node? (place ++ [name]) ≠ some .directory := by
  by_cases there : name ∈ t.namesIn place
  · rcases held.regular name there with ⟨content, file⟩
    rw [file]
    nofun
  · have given : Tree.isGiven (place ++ [name]) = false := by
      have root : place ++ [name] ≠ Tree.rootPlace := by
        intro same
        have last := congrArg List.getLast? same
        rw [List.getLast?_concat] at last
        exact ne_of_slugOf? named (by decide) (Option.some.inj last)
      have up : name ≠ ".." := ne_of_slugOf? named (by decide)
      simp [Tree.isGiven, root, up]
    rw [Tree.node?_eq_none given there]
    nofun

theorem written (held : OnePerSlug path place t) (named : slugOf? name = some slug)
    (done : t.write (path.child name) content = .ok u) : u = t.put (place ++ [name]) (.file content) := by
  rcases Tree.write_eq_ok_iff.mp done with ⟨target, located, -, put⟩
  rw [held.locate_child named] at located
  cases usable : Tree.nameable path name with
  | error fault =>
      rw [usable] at located
      cases located
  | ok =>
      rw [usable] at located
      cases located
      exact put

theorem unwritten (held : OnePerSlug path place t) (named : slugOf? name = some slug) {fault : FileFault}
    (failed : t.write (path.child name) content = .error fault) : Tree.nameable path name = .error fault := by
  have located := held.locate_child named
  cases usable : Tree.nameable path name with
  | error other =>
      rw [usable] at located
      rcases Tree.write_eq_error failed with unlocated | ⟨target, leads, -⟩
      · exact congrArg _ (Except.error.inj (located.symm.trans unlocated))
      · cases located.symm.trans leads
  | ok =>
      rw [usable] at located
      rcases Tree.write_eq_error failed with unlocated | ⟨target, leads, directory⟩
      · cases located.symm.trans unlocated
      · cases located.symm.trans leads
        exact absurd directory (held.node?_ne_directory named)

theorem slugOf?_due (natural : 0 ≤ number) (due : Due place t number f.key name) : slugOf? name = some f.key := by
  cases due with
  | present _ named => exact named
  | new =>
      rw [← Int.toNat_of_nonneg natural]
      exact slugOf?_fileName number.toNat f.slug

theorem only_due (held : OnePerSlug path place t) (due : Due place t number f.key name) :
    ∀ other ∈ t.namesIn place, slugOf? other = some f.key → other = name := by
  intro other member named
  cases due with
  | present there own => exact held.single other member name there f.key named own
  | new absent => exact absurd named (absent other member)

theorem puts_due (held : OnePerSlug path place t) (natural : 0 ≤ number) (due : Due place t number f.key name)
    (content : ByteArray) : Puts place f.key content name t (t.put (place ++ [name]) (.file content)) :=
  ⟨slugOf?_due natural due, held.only_due due, held.node?_ne_directory (slugOf?_due natural due), rfl⟩

section
variable [Device] {s s' : Progress}

theorem write_eq (held : OnePerSlug path place s.site.tree) (nonempty : f.statements ≠ []) :
    (∃ name ∈ s.site.tree.namesIn place, slugOf? name = some f.key ∧
        (replacing path).write f s = (some <$> overwrite (path.child name) (f.content ++ "\n")) s) ∨
      (∀ name ∈ s.site.tree.namesIn place, slugOf? name ≠ some f.key) ∧
        (replacing path).write f s = (some <$> (replacing path).create f.key (f.content ++ "\n")) s := by
  have ready : (replacing path).ensure s.site = (.ok (), s.site) := ensure_there held.exists_directory
  have there := onSite_eq_ok_iff.mpr ⟨_, ready, rfl⟩
  rcases held.replaced?_eq f.key with ⟨found, answer, meaning⟩
  have looked := onSite_eq_ok_iff.mpr ⟨_, findExisting_eq_ok_iff.mpr ⟨answer, rfl⟩, rfl⟩
  have chosen : (replacing path).write f s = (match found with
      | some p => some <$> overwrite p (f.content ++ "\n")
      | none => some <$> (replacing path).create f.key (f.content ++ "\n")) s := by
    rw [ScriptDirectory.write, if_neg (by simpa using nonempty), Work.bind_of_ok there]
    change (Progress.onSite ((replacing path).findExisting f.key) >>= _) _ = _
    exact Work.bind_of_ok looked
  cases found with
  | some p =>
      rcases meaning with ⟨name, member, named, rfl⟩
      exact .inl ⟨name, member, named, chosen⟩
  | none => exact .inr ⟨meaning, chosen⟩

theorem fails_due (held : OnePerSlug path place s.site.tree) (natural : 0 ≤ s.number)
    (due : Due place s.site.tree s.number f.key name) {fault : FileFault} {tree : Tree}
    (fails : Site.WriteFails (path.child name) (f.content ++ "\n") s.site fault tree) :
    ∃ put, WriteEnds path place s.site s.number f (.error (.file fault)) put ∧ PutAll place put.toList s.site.tree tree := by
  cases fails with
  | unwritable reason =>
      have unusable := held.unwritten (slugOf?_due natural due) reason
      exact ⟨none, .unusableName due unusable, .nil _⟩
  | refused trouble => exact ⟨none, .refused due trouble, .nil _⟩
  | brokenOff trouble begun =>
      obtain rfl := held.written (slugOf?_due natural due) begun
      exact ⟨some _, .brokenOff due trouble, .cons (held.puts_due natural due _) (.nil _)⟩

theorem write_ends (held : OnePerSlug path place s.site.tree) (natural : 0 ≤ s.number) (nonempty : f.statements ≠ [])
    {result : Except Failure (Option FilePath)} (done : (replacing path).write f s = (result, s')) :
    ∃ put, WriteEnds path place s.site s.number f result put ∧ PutAll place put.toList s.site.tree s'.site.tree ∧
      s.number ≤ s'.number ∧ s'.number ≤ s.number + 1 := by
  rcases held.write_eq nonempty with ⟨name, there, named, chosen⟩ | ⟨absent, chosen⟩
  · have due : Due place s.site.tree s.number f.key name := .present there named
    rw [chosen] at done
    cases result with
    | ok r =>
        rcases Work.bind_eq_ok_iff.mp done with ⟨p, s₁, wrote, ⟨⟩⟩
        rcases overwrite_eq_ok wrote with ⟨rfl, fine, written, number, -⟩
        have tree := held.written named written
        refine ⟨some f.put, .written due fine, ?_, by omega, by omega⟩
        exact tree ▸ .cons (held.puts_due natural due _) (.nil _)
    | error e =>
        rcases Work.bind_eq_error done with failed | ⟨p, s₁, -, ⟨⟩⟩
        rcases overwrite_eq_error failed with ⟨-, number, fault, rfl, fails⟩
        rcases held.fails_due natural due fails with ⟨put, ends, all⟩
        exact ⟨put, ends, all, by omega, by omega⟩
  · have due : Due place s.site.tree s.number f.key (fileName s.number f.key) := .new absent
    rw [chosen] at done
    cases result with
    | ok r =>
        rcases Work.bind_eq_ok_iff.mp done with ⟨p, s₁, wrote, ⟨⟩⟩
        rcases create_eq_ok wrote with ⟨rfl, fine, written, number, -⟩
        have tree := held.written (slugOf?_due natural due) written
        refine ⟨some f.put, .written due fine, ?_, by omega, by omega⟩
        exact tree ▸ .cons (held.puts_due natural due _) (.nil _)
    | error e =>
        rcases Work.bind_eq_error done with failed | ⟨p, s₁, -, ⟨⟩⟩
        rcases create_eq_error failed with ⟨-, number, ⟨rfl, long, tree⟩ | ⟨fault, rfl, fails⟩⟩
        · exact ⟨none, .numberTooLong absent long, tree ▸ .nil _, by omega, by omega⟩
        · rcases held.fails_due natural due fails with ⟨put, ends, all⟩
          exact ⟨put, ends, all, by omega, by omega⟩

theorem each (held : OnePerSlug path place s.site.tree) (natural : 0 ≤ s.number)
    (nonempty : ∀ f ∈ files, f.statements ≠ []) {result : Except Failure (List (Option FilePath))}
    (done : Work.each (replacing path).write files s = (result, s')) :
    match result with
    | .ok _ => PutAll place (files.map (·.put)) s.site.tree s'.site.tree
    | .error e => StopsWith path place files s.site s.number e s'.site.tree := by
  induction files generalizing s result with
  | nil =>
      cases done
      exact .nil _
  | cons f rest ih =>
      rcases List.forall_mem_cons.mp nonempty with ⟨first, others⟩
      have continued : ∀ {r s₁}, (replacing path).write f s = (.ok r, s₁) →
          PutAll place [f.put] s.site.tree s₁.site.tree ∧ s.number ≤ s₁.number ∧ s₁.number ≤ s.number + 1 := by
        intro r s₁ wrote
        rcases held.write_ends natural first wrote with ⟨put, ends, all, number⟩
        rw [ends.put_of_ok] at all
        exact ⟨all, number⟩
      cases result with
      | ok paths =>
          rcases Work.bind_eq_ok_iff.mp done with ⟨p, s₁, wrote, further⟩
          rcases Work.bind_eq_ok_iff.mp further with ⟨later, s₂, rested, ⟨⟩⟩
          rcases continued wrote with ⟨put, least, -⟩
          exact put.append (ih (put.onePerSlug held) (by omega) others rested)
      | error e =>
          rcases Work.bind_eq_error done with failed | ⟨p, s₁, wrote, further⟩
          · rcases held.write_ends natural first failed with ⟨put, ends, all, -⟩
            have parts : f :: rest = [] ++ f :: rest := rfl
            exact .intro parts (.nil _) le_rfl (by simp) ends all
          · rcases continued wrote with ⟨put, least, most⟩
            rcases Work.bind_eq_error further with failed | ⟨later, s₂, -, ⟨⟩⟩
            cases ih (put.onePerSlug held) (by omega) others failed with
            | @intro earlier later g middle next _ part _ parts all atLeast atMost ends last =>
                have extended : f :: rest = (f :: earlier) ++ g :: later := by rw [parts, List.cons_append]
                refine .intro extended (put.append all) (by omega) ?_ ends last
                rw [List.length_cons]
                omega

theorem writeScripts {before after : Site} (held : OnePerSlug path place before.tree) (natural : 0 ≤ number)
    (nonempty : ∀ f ∈ files, f.statements ≠ []) {result : Except Failure (List FilePath)}
    (done : CommandLine.writeScripts (replacing path) number files before = (result, after)) :
    match result with
    | .ok _ => PutAll place (files.map (·.put)) before.tree after.tree
    | .error e => StopsWith path place files before number e after.tree := by
  cases result with
  | ok paths =>
      rcases writeScripts_eq_ok done with ⟨written, last, all, tree⟩
      rw [tree]
      exact held.each natural nonempty all
  | error e =>
      have error : ((replacing path).writeAll files ⟨before, number, [], []⟩).1 = .error e := congrArg Prod.fst done
      have site : ((replacing path).writeAll files ⟨before, number, [], []⟩).2.site = after := congrArg Prod.snd done
      rcases Work.bind_eq_error (Prod.ext error rfl) with failed | ⟨paths, s₁, -, failed⟩
      · have stops : StopsWith path place files before number e _ := held.each natural nonempty failed
        exact site ▸ stops
      · rcases Work.bind_eq_error failed with ⟨⟨⟩⟩ | ⟨s₂, s₃, -, failed⟩
        rcases Work.bind_eq_error failed with ⟨⟨⟩⟩ | ⟨⟨⟩, s₄, -, ⟨⟩⟩

theorem writeScripts_distinct {before after : Site} (held : OnePerSlug path place before.tree) (natural : 0 ≤ number)
    (nonempty : ∀ f ∈ files, f.statements ≠ []) (distinct : (files.map (·.key)).Nodup) {paths : List FilePath}
    (done : CommandLine.writeScripts (replacing path) number files before = (.ok paths, after)) :
    OnePerSlug path place after.tree ∧ ∀ f ∈ files, after.tree.HoldsSlug place f.key f.bytes := by
  have all : PutAll place (files.map (·.put)) before.tree after.tree := held.writeScripts natural nonempty done
  have keys : ((files.map (·.put)).map (·.1)).Nodup := by
    rw [List.map_map]
    exact distinct
  exact ⟨all.onePerSlug held, fun f member => all.holds_last (lastPut_of_mem keys (List.mem_map_of_mem member))⟩

end

end OnePerSlug
end SchemaMigration
