import SchemaMigration.Files.Tree
import Mathlib.Data.List.Basic

namespace SchemaMigration

section
variable {ε α β : Type}

theorem bind_eq_ok_iff {x : Except ε α} {f : α → Except ε β} {b : β} :
    (x >>= f) = .ok b ↔ ∃ a, x = .ok a ∧ f a = .ok b := by
  cases x with
  | error e => exact iff_of_false nofun nofun
  | ok a => exact ⟨fun done => ⟨a, rfl, done⟩, by rintro ⟨_, ⟨⟩, done⟩; exact done⟩

end

theorem bind_eq_error_iff {ε α β : Type} {x : Except ε α} {f : α → Except ε β} {e : ε} :
    (x >>= f) = .error e ↔ x = .error e ∨ ∃ a, x = .ok a ∧ f a = .error e := by
  cases x with
  | error other => simp [bind, Except.bind]
  | ok a => simp [bind, Except.bind]

theorem Device.grant_eq_ok_iff {α : Type} {refusal : Option FileFault} {x : Except FileFault α} {a : α} :
    Device.grant refusal x = .ok a ↔ refusal = none ∧ x = .ok a := by
  cases refusal with
  | none => exact (and_iff_right rfl).symm
  | some fault =>
      rw [Device.grant, bind_eq_ok_iff]
      exact iff_of_false nofun nofun

namespace Tree
variable {t u : Tree} {place other : List String}

theorem lookup_putEntry_same (place : List String) (n : Node) (entries : List (List String × Node)) :
    (putEntry place n entries).lookup place = some n := by
  induction entries with
  | nil => simp [putEntry]
  | cons entry rest ih =>
      rcases entry with ⟨key, m⟩
      by_cases same : key = place
      · simp [putEntry, same]
      · simp [putEntry, same, List.lookup_cons, beq_eq_false_iff_ne.mpr (Ne.symm same), ih]

theorem lookup_putEntry_other (n : Node) (entries : List (List String × Node)) (different : other ≠ place) :
    (putEntry place n entries).lookup other = entries.lookup other := by
  have apart := beq_eq_false_iff_ne.mpr different
  induction entries with
  | nil => simp [putEntry, different]
  | cons entry rest ih =>
      rcases entry with ⟨key, m⟩
      by_cases same : key = place
      · simp [putEntry, same, List.lookup_cons, apart]
      · simp [putEntry, same, List.lookup_cons, ih]

theorem lookup_remove_other (entries : List (List String × Node)) (different : other ≠ place) :
    (entries.filter fun entry => entry.1 != place).lookup other = entries.lookup other := by
  have apart := beq_eq_false_iff_ne.mpr different
  induction entries with
  | nil => rfl
  | cons entry rest ih =>
      rcases entry with ⟨key, m⟩
      by_cases same : key = place
      · simp [same, List.lookup_cons, apart, ih]
      · simp [same, List.lookup_cons, ih]

def KeepsDirectories (t u : Tree) : Prop := ∀ place, t.node? place = some .directory → u.node? place = some .directory

theorem KeepsDirectories.trans {w : Tree} (first : t.KeepsDirectories u) (second : u.KeepsDirectories w) :
    t.KeepsDirectories w :=
  fun place directory => second place (first place directory)

theorem node?_put_same (given : isGiven place = false) (n : Node) : (t.put place n).node? place = some n := by
  rw [node?, given, if_neg Bool.false_ne_true]
  exact lookup_putEntry_same place n t.entries

theorem node?_put_other (n : Node) (different : other ≠ place) : (t.put place n).node? other = t.node? other := by
  rw [node?, node?, put, lookup_putEntry_other n t.entries different]

theorem node?_remove_other (different : other ≠ place) : (t.remove place).node? other = t.node? other := by
  rw [node?, node?, remove, lookup_remove_other t.entries different]

theorem keepsDirectories_put (n : Node) (free : t.node? place ≠ some .directory) : t.KeepsDirectories (t.put place n) := by
  intro other directory
  have different : other ≠ place := by
    rintro rfl
    exact free directory
  rwa [node?_put_other n different]

theorem keepsDirectories_remove (free : t.node? place ≠ some .directory) : t.KeepsDirectories (t.remove place) := by
  intro other directory
  have different : other ≠ place := by
    rintro rfl
    exact free directory
  rwa [node?_remove_other different]

theorem node?_remove_same (given : isGiven place = false) : (t.remove place).node? place = none := by
  rw [node?, given, if_neg Bool.false_ne_true, remove, List.lookup_eq_none_iff]
  intro entry member
  have kept := (List.mem_filter.mp member).2
  simpa [bne_comm] using kept

theorem isGiven_eq_false (free : t.node? place ≠ some .directory) : isGiven place = false := by
  by_contra given
  rw [Bool.not_eq_false] at given
  exact free (by rw [node?, if_pos given])

section
variable (keeps : t.KeepsDirectories u)
include keeps

theorem enter_keeps {here next : List String} {component : String} (entered : t.enter here component = .ok next) :
    u.enter here component = .ok next := by
  rw [enter] at entered ⊢
  split
  · rwa [if_pos ‹_›] at entered
  · rw [if_neg ‹_›, bind_eq_ok_iff] at entered
    rcases entered with ⟨short, checked, found⟩
    apply bind_eq_ok_iff.mpr ⟨short, checked, ?_⟩
    split at found
    case h_1 => cases found
    case h_2 => cases found
    case h_3 directory =>
      rw [keeps _ directory]
      exact found

theorem locateFrom_keeps {components : List String} {here : List String}
    (located : t.locateFrom here components = .ok place) : u.locateFrom here components = .ok place := by
  induction components generalizing here with
  | nil => exact located
  | cons component rest ih =>
      cases rest with
      | nil => exact located
      | cons second later =>
          have step : ∀ w : Tree, w.locateFrom here (component :: second :: later) =
              w.enter here component >>= fun next => w.locateFrom next (second :: later) := by
            intro w
            rw [locateFrom]
            nofun
          rw [step, bind_eq_ok_iff] at located
          rcases located with ⟨next, entered, further⟩
          rw [step, bind_eq_ok_iff]
          exact ⟨next, enter_keeps keeps entered, ih further⟩

theorem locate_keeps {p : FilePath} (located : t.locate p = .ok place) : u.locate p = .ok place := by
  rw [locate] at located ⊢
  split
  · rw [if_pos ‹_›] at located
    cases located
  rw [if_neg ‹_›] at located
  split
  · rw [if_pos ‹_›] at located
    cases located
  · rw [if_neg ‹_›] at located
    exact locateFrom_keeps keeps located

end

theorem find_eq_ok_iff {p : FilePath} {n : Node} :
    t.find p = .ok n ↔ ∃ place, t.locate p = .ok place ∧ t.node? place = some n := by
  rw [find, bind_eq_ok_iff]
  apply exists_congr
  intro place
  apply and_congr_right'
  cases t.node? place with
  | none => exact iff_of_false nofun nofun
  | some m => exact ⟨fun same => congrArg some (Except.ok.inj same), fun same => congrArg Except.ok (Option.some.inj same)⟩

theorem read_eq_ok_iff {p : FilePath} {content : ByteArray} :
    t.read p = .ok content ↔ t.find p = .ok (.file content) := by
  rw [read, bind_eq_ok_iff]
  constructor
  · rintro ⟨n, found, content⟩
    cases n with
    | directory => cases content
    | file held =>
        cases content
        exact found
  · intro found
    exact ⟨_, found, rfl⟩

theorem read_of_write {p : FilePath} {content : ByteArray} (written : t.write p content = .ok u) :
    u.read p = .ok content := by
  rcases bind_eq_ok_iff.mp written with ⟨place, located, made⟩
  have free : t.node? place ≠ some .directory := by
    intro directory
    rw [directory] at made
    cases made
  have put : u = t.put place (.file content) := by
    split at made
    · cases made
    · exact (Except.ok.inj made).symm
  rw [read_eq_ok_iff, find_eq_ok_iff, put]
  exact ⟨place, locate_keeps (keepsDirectories_put _ free) located, node?_put_same (isGiven_eq_false free) _⟩

/-- A move takes a file away and puts it where no directory is. -/
structure Moves (t u : Tree) (source target : FilePath) (content : ByteArray) (old new : List String) : Prop where
  held : t.read source = .ok content
  source : t.locate source = .ok old
  target : t.locate target = .ok new
  freeOld : t.node? old ≠ some .directory
  freeNew : (t.remove old).node? new ≠ some .directory
  tree : u = (t.remove old).put new (.file content)

theorem moves_of_move {source target : FilePath} (moved : t.move source target = .ok u) :
    ∃ content old new, t.Moves u source target content old new := by
  rcases bind_eq_ok_iff.mp moved with ⟨content, held, moved⟩
  rcases bind_eq_ok_iff.mp moved with ⟨oldPlace, old, moved⟩
  rcases bind_eq_ok_iff.mp moved with ⟨newPlace, new, made⟩
  have oldFree : t.node? oldPlace ≠ some .directory := by
    rcases find_eq_ok_iff.mp (read_eq_ok_iff.mp held) with ⟨place, located, file⟩
    rw [old] at located
    cases located
    rw [file]
    nofun
  have newFree : t.node? newPlace ≠ some .directory := by
    intro directory
    rw [directory] at made
    split at made <;> cases made
  refine ⟨content, oldPlace, newPlace, held, old, new, oldFree, ?_, ?_⟩
  · by_cases same : newPlace = oldPlace
    · rw [same, node?_remove_same (isGiven_eq_false oldFree)]
      nofun
    · rwa [node?_remove_other same]
  · split at made
    · cases made
    · split at made
      · cases made
      · exact (Except.ok.inj made).symm

theorem Moves.keepsDirectories {source target : FilePath} {content : ByteArray} {old new : List String}
    (moves : t.Moves u source target content old new) : t.KeepsDirectories u := by
  rw [moves.tree]
  exact (keepsDirectories_remove moves.freeOld).trans (keepsDirectories_put _ moves.freeNew)

theorem read_of_move {source target : FilePath} (moved : t.move source target = .ok u) :
    ∃ content, t.read source = .ok content ∧ u.read target = .ok content := by
  rcases moves_of_move moved with ⟨content, old, new, moves⟩
  refine ⟨content, moves.held, ?_⟩
  rw [read_eq_ok_iff, find_eq_ok_iff]
  refine ⟨new, locate_keeps moves.keepsDirectories moves.target, ?_⟩
  rw [moves.tree]
  exact node?_put_same (isGiven_eq_false moves.freeNew) _

theorem exists_of_read {p : FilePath} {content : ByteArray} (held : t.read p = .ok content) : t.exists? p = .ok true := by
  rw [exists?, read_eq_ok_iff.mp held]

end Tree
end SchemaMigration
