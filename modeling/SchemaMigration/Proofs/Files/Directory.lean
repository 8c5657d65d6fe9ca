import SchemaMigration.Proofs.Files.Tree
/-!
Files in one directory. The way to a directory is the same for all files in it, so files with different names never
stand at the same place; and a file that is written changes what stands at its own place and nothing else.
-/
namespace SchemaMigration.Tree
variable {t u w : Tree} {place : List String} {p : FilePath} {name : String}

/-- The directory that components lead to from a directory, all of them directories. -/
def walk (t : Tree) (here : List String) : List String → Except FileFault (List String)
  | [] => .ok here
  | component :: rest => do
    let next ← t.enter here component
    walk t next rest

def directoryOf (t : Tree) (p : FilePath) : Except FileFault (List String) :=
  t.walk (if p.root == "" then [] else rootPlace) p.components

theorem locateFrom_append_singleton (t : Tree) (here components : List String) (ordinary : name ≠ "..") :
    t.locateFrom here (components ++ [name]) = do
      let directory ← t.walk here components
      checkLength name
      return directory ++ [name] := by
  induction components generalizing here with
  | nil =>
      rw [List.nil_append, locateFrom, if_neg (by simpa using ordinary)]
      rfl
  | cons component rest ih =>
      have step : t.locateFrom here (component :: (rest ++ [name])) =
          t.enter here component >>= fun next => t.locateFrom next (rest ++ [name]) := by
        rw [locateFrom]
        simp
      rw [List.cons_append, step, walk, bind_assoc]
      exact congrArg _ (funext ih)

theorem locate_child (ordinary : name ≠ "..") (located : t.locate (p.child name) = .ok place) :
    ∃ directory, t.directoryOf p = .ok directory ∧ place = directory ++ [name] := by
  unfold locate at located
  split at located
  case isTrue => cases located
  split at located
  case isTrue => cases located
  have components : (p.child name).components = p.components ++ [name] := rfl
  rw [components, locateFrom_append_singleton t _ _ ordinary] at located
  rcases bind_eq_ok_iff.mp located with ⟨directory, walked, rest⟩
  rcases bind_eq_ok_iff.mp rest with ⟨-, -, done⟩
  exact ⟨directory, walked, (Except.ok.inj done).symm⟩

/-- Whether a path may end in a name; this does not depend on what there is. -/
def nameable (p : FilePath) (name : String) : Except FileFault Unit :=
  if (p.child name).text.toList.contains '\x00' then .error .unusableName
  else if pathLimit < (p.child name).text.utf8ByteSize then .error .nameTooLong
  else checkLength name

/-- Files of one directory stand at the same place exactly if they have the same name. -/
theorem place_eq_iff {other : String} {q : List String} (ordinary : name ≠ "..") (ordinary' : other ≠ "..")
    (located : t.locate (p.child name) = .ok place) (located' : t.locate (p.child other) = .ok q) :
    place = q ↔ name = other := by
  rcases locate_child ordinary located with ⟨directory, first, rfl⟩
  rcases locate_child ordinary' located' with ⟨directory', second, rfl⟩
  rw [first] at second
  cases second
  simp

theorem write_eq_ok_iff {content : ByteArray} :
    t.write p content = .ok u ↔
      ∃ place, t.locate p = .ok place ∧ t.node? place ≠ some .directory ∧ u = t.put place (.file content) := by
  rw [write, bind_eq_ok_iff]
  apply exists_congr
  intro place
  apply and_congr_right'
  split
  case h_1 directory => simp [directory]
  case h_2 free =>
    rw [and_iff_right free]
    exact ⟨fun done => (Except.ok.inj done).symm, fun done => congrArg Except.ok done.symm⟩

def KeepsFiles (t u : Tree) : Prop :=
  ∀ place content, t.node? place = some (.file content) → u.node? place = some (.file content)

/-- Directories may be made, and nothing else changes. -/
structure OnlyMakes (t u : Tree) : Prop where
  directories : t.KeepsDirectories u
  files : ∀ place content, u.node? place = some (.file content) ↔ t.node? place = some (.file content)

namespace OnlyMakes

theorem refl (t : Tree) : t.OnlyMakes t := ⟨fun _ directory => directory, fun _ _ => Iff.rfl⟩

theorem trans (first : t.OnlyMakes u) (second : u.OnlyMakes w) : t.OnlyMakes w :=
  ⟨first.directories.trans second.directories, fun place content =>
    (second.files place content).trans (first.files place content)⟩

theorem keepsFiles (makes : t.OnlyMakes u) : t.KeepsFiles u := fun place content => (makes.files place content).mpr

theorem read (makes : t.OnlyMakes u) {content : ByteArray} (held : t.read p = .ok content) : u.read p = .ok content := by
  rcases find_eq_ok_iff.mp (read_eq_ok_iff.mp held) with ⟨place, located, file⟩
  rw [read_eq_ok_iff, find_eq_ok_iff]
  exact ⟨place, locate_keeps makes.directories located, (makes.files place content).mpr file⟩

theorem put_directory (free : t.node? place = none) : t.OnlyMakes (t.put place .directory) := by
  have fresh : t.node? place ≠ some .directory := by simp [free]
  have given : isGiven place = false := isGiven_eq_false fresh
  refine ⟨keepsDirectories_put _ fresh, fun other content => ?_⟩
  by_cases same : other = place
  · rw [same, node?_put_same given, free]
    exact iff_of_false nofun nofun
  · rw [node?_put_other _ same]

theorem makeDirectory [Device] (made : t.makeDirectory p = .ok u) : t.OnlyMakes u := by
  rcases bind_eq_ok_iff.mp made with ⟨place, -, made⟩
  split at made
  case h_1 => cases made
  case h_2 free =>
    rcases Device.grant_eq_ok_iff.mp made with ⟨-, ⟨⟩⟩
    exact put_directory free

theorem ensureDirectory [Device] (made : t.ensureDirectory p = .ok u) : t.OnlyMakes u := by
  unfold Tree.ensureDirectory at made
  split at made
  case h_1 new =>
    cases made
    exact makeDirectory new
  case h_2 => cases made
  case h_3 =>
    split at made
    · cases made
      exact refl t
    · cases made
    · cases made

theorem ensureDirectories [Device] (t : Tree) (p : FilePath) (depth : Nat) : t.OnlyMakes (t.ensureDirectories p depth).2 := by
  induction depth generalizing p with
  | zero => exact refl t
  | succ depth ih =>
      unfold Tree.ensureDirectories
      split
      case h_1 made => exact ensureDirectory made
      case h_2 =>
        have above := ih p.parent
        split
        case h_1 between split =>
          rw [split] at above
          split
          case h_1 made => exact above.trans (ensureDirectory made)
          case h_2 => exact above
        case h_2 => exact above
      case h_3 => exact refl t

end OnlyMakes

theorem keepsFiles_put_iff {content : ByteArray} (free : t.node? place ≠ some .directory) :
    t.KeepsFiles (t.put place (.file content)) ↔ ∀ old, t.node? place = some (.file old) → old = content := by
  constructor
  · intro keeps old held
    have still := keeps place old held
    rw [node?_put_same (isGiven_eq_false free)] at still
    cases still
    rfl
  · intro same other old held
    by_cases here : other = place
    · rw [here] at held ⊢
      rw [node?_put_same (isGiven_eq_false free), same old held]
    · rwa [node?_put_other _ here]

theorem read_of_write_other {content old : ByteArray} {other : String} (ordinary : name ≠ "..") (ordinary' : other ≠ "..")
    (written : t.write (p.child name) content = .ok u) (held : t.read (p.child other) = .ok old) (different : other ≠ name) :
    u.read (p.child other) = .ok old := by
  rcases write_eq_ok_iff.mp written with ⟨place, located, free, rfl⟩
  rcases find_eq_ok_iff.mp (read_eq_ok_iff.mp held) with ⟨q, leads, node⟩
  have apart : q ≠ place := fun same => different ((place_eq_iff ordinary' ordinary leads located).mp same)
  rw [read_eq_ok_iff, find_eq_ok_iff]
  exact ⟨q, locate_keeps (keepsDirectories_put _ free) leads, by rwa [node?_put_other _ apart]⟩

def Apart (t : Tree) (p q : FilePath) : Prop := ∀ place, t.locate p = .ok place → t.locate q ≠ .ok place

theorem read_of_write_apart {q : FilePath} {content old : ByteArray} (written : t.write q content = .ok u)
    (apart : u.Apart p q) (held : t.read p = .ok old) : u.read p = .ok old := by
  rcases write_eq_ok_iff.mp written with ⟨place, located, free, rfl⟩
  rcases find_eq_ok_iff.mp (read_eq_ok_iff.mp held) with ⟨own, leads, node⟩
  have keeps := keepsDirectories_put (.file content) free
  have different : own ≠ place := by
    rintro rfl
    exact apart own (locate_keeps keeps leads) (locate_keeps keeps located)
  rw [read_eq_ok_iff, find_eq_ok_iff]
  exact ⟨own, locate_keeps keeps leads, by rwa [node?_put_other _ different]⟩

theorem read_of_move_apart {source target : FilePath} {old : ByteArray} (moved : t.move source target = .ok u)
    (fromSource : u.Apart p source) (fromTarget : u.Apart p target) (held : t.read p = .ok old) : u.read p = .ok old := by
  rcases moves_of_move moved with ⟨content, oldPlace, newPlace, moves⟩
  rcases find_eq_ok_iff.mp (read_eq_ok_iff.mp held) with ⟨own, leads, node⟩
  have keeps := moves.keepsDirectories
  have notOld : own ≠ oldPlace := by
    rintro rfl
    exact fromSource own (locate_keeps keeps leads) (locate_keeps keeps moves.source)
  have notNew : own ≠ newPlace := by
    rintro rfl
    exact fromTarget own (locate_keeps keeps leads) (locate_keeps keeps moves.target)
  rw [read_eq_ok_iff, find_eq_ok_iff]
  refine ⟨own, locate_keeps keeps leads, ?_⟩
  rwa [moves.tree, node?_put_other _ notNew, node?_remove_other notOld]

/-! The names in a directory, in the order in which they came there. -/

def namesIn (t : Tree) (directory : List String) : List String := t.entries.filterMap fun entry => nameIn? directory entry.1

theorem nameIn?_eq_some_iff {directory q : List String} :
    nameIn? directory q = some name ↔ q = directory ++ [name] := by
  unfold nameIn?
  cases last : q.getLast? with
  | none =>
      rw [List.getLast?_eq_none_iff.mp last]
      simp
  | some final =>
      rcases List.getLast?_eq_some_iff.mp last with ⟨start, rfl⟩
      simp only [List.dropLast_concat, beq_iff_eq]
      constructor
      · intro found
        split at found
        case isTrue same => rw [same, Option.some.inj found]
        case isFalse => cases found
      · intro same
        rcases List.append_inj' same rfl with ⟨rfl, names⟩
        rw [if_pos rfl, (List.cons.inj names).1]

theorem namesIn_put (t : Tree) (directory : List String) (n : Node) :
    (t.put (directory ++ [name]) n).namesIn directory =
      if name ∈ t.namesIn directory then t.namesIn directory else t.namesIn directory ++ [name] := by
  have own : nameIn? directory (directory ++ [name]) = some name := nameIn?_eq_some_iff.mpr rfl
  have step : ∀ entry rest, namesIn ⟨entry :: rest⟩ directory =
      (nameIn? directory entry.1).toList ++ namesIn ⟨rest⟩ directory := by
    intro entry rest
    unfold namesIn
    rw [List.filterMap_cons]
    cases nameIn? directory entry.1 <;> rfl
  rcases t with ⟨entries⟩
  induction entries with
  | nil => simp [put, putEntry, namesIn, own]
  | cons entry rest ih =>
      rcases entry with ⟨q, m⟩
      unfold put at ih ⊢
      rw [putEntry]
      by_cases same : q = directory ++ [name]
      · subst same
        simp [step, own]
      · rw [if_neg (by simpa using same), step, step, ih]
        have other : name ∉ (nameIn? directory q).toList := fun found =>
          same (nameIn?_eq_some_iff.mp (Option.mem_toList.mp found))
        simp only [List.mem_append, other, false_or]
        split <;> simp

theorem isDirectory?_eq_true_iff : t.isDirectory? p = .ok true ↔ t.find p = .ok .directory := by
  unfold isDirectory?
  split <;> rename_i found <;> rw [found] <;> simp

theorem names_eq_ok_iff {names : List String} (there : t.isDirectory? p = .ok true) :
    t.names p = .ok names ↔ ∃ directory, t.locate p = .ok directory ∧ names = Text.sort (t.namesIn directory) := by
  unfold Tree.names
  rw [there]
  change (t.locate p >>= fun directory => Except.ok (Text.sort (t.namesIn directory))) = _ ↔ _
  rw [bind_eq_ok_iff]
  exact exists_congr fun directory => and_congr_right' ⟨fun same => (Except.ok.inj same).symm, fun same => congrArg _ same.symm⟩

theorem walk_of_locateFrom {components here directory : List String}
    (located : t.locateFrom here components = .ok directory) (there : t.node? directory = some .directory) :
    t.walk here components = .ok directory := by
  induction components generalizing here with
  | nil => exact located
  | cons component rest ih =>
      cases rest with
      | nil =>
          rw [locateFrom] at located
          refine bind_eq_ok_iff.mpr ⟨directory, ?_, rfl⟩
          rw [enter]
          split at located
          case isTrue up => rwa [if_pos up]
          case isFalse down =>
            rcases bind_eq_ok_iff.mp located with ⟨short, checked, ⟨⟩⟩
            rw [if_neg down]
            exact bind_eq_ok_iff.mpr ⟨short, checked, by rw [there]; rfl⟩
      | cons second later =>
          have step : t.locateFrom here (component :: second :: later) =
              t.enter here component >>= fun next => t.locateFrom next (second :: later) := by
            rw [locateFrom]
            simp
          rw [step] at located
          rcases bind_eq_ok_iff.mp located with ⟨next, entered, further⟩
          exact bind_eq_ok_iff.mpr ⟨next, entered, ih further⟩

theorem directoryOf_of_locate {directory : List String} (located : t.locate p = .ok directory)
    (there : t.node? directory = some .directory) : t.directoryOf p = .ok directory := by
  unfold locate at located
  split at located
  case isTrue => cases located
  split at located
  case isTrue => cases located
  case isFalse => exact walk_of_locateFrom located there

theorem locate_child_of_directory {directory : List String} (located : t.locate p = .ok directory)
    (there : t.node? directory = some .directory) (ordinary : name ≠ "..") :
    t.locate (p.child name) = (fun _ => directory ++ [name]) <$> nameable p name := by
  have leads : t.walk (if p.root == "" then [] else rootPlace) p.components = .ok directory :=
    directoryOf_of_locate located there
  have components : (p.child name).components = p.components ++ [name] := rfl
  have root : (p.child name).root = p.root := rfl
  unfold locate nameable
  split
  case isTrue => rfl
  split
  case isTrue => rfl
  rw [components, root, locateFrom_append_singleton t _ _ ordinary, leads]
  rfl

theorem write_eq_error {content : ByteArray} {fault : FileFault} (failed : t.write p content = .error fault) :
    t.locate p = .error fault ∨ ∃ place, t.locate p = .ok place ∧ t.node? place = some .directory := by
  cases located : t.locate p with
  | error other =>
      rw [write, located] at failed
      cases failed
      exact .inl rfl
  | ok place =>
      refine .inr ⟨place, rfl, ?_⟩
      by_contra free
      have written : t.write p content = .ok (t.put place (.file content)) :=
        write_eq_ok_iff.mpr ⟨place, located, free, rfl⟩
      rw [failed] at written
      cases written

theorem write_eq_error_congr {content other : ByteArray} {fault : FileFault} (failed : t.write p content = .error fault) :
    t.write p other = .error fault := by
  rcases write_eq_error failed with unlocated | ⟨place, located, directory⟩
  · rw [write, unlocated]
    rfl
  · have refused (new : ByteArray) : t.write p new = .error .isDirectory := by
      simp [write, located, directory, bind, Except.bind]
    rw [refused] at failed ⊢
    exact failed

theorem node?_eq_none {directory : List String} (given : isGiven (directory ++ [name]) = false)
    (absent : name ∉ t.namesIn directory) : t.node? (directory ++ [name]) = none := by
  rw [node?, given, if_neg Bool.false_ne_true, List.lookup_eq_none_iff]
  intro entry member
  rw [bne_iff_ne]
  intro same
  exact absent (List.mem_filterMap.mpr ⟨entry, member, nameIn?_eq_some_iff.mpr same.symm⟩)

end SchemaMigration.Tree
