import SchemaMigration.Proofs.Files.Place
import SchemaMigration.Proofs.Snapshot.Store
/-!
Saving a snapshot replaces the old one as a whole or not at all. Everything that can go wrong happens before the new file
is moved from beside its place, and beside is another place.
-/
namespace SchemaMigration

theorem FilePath.place_eq_step {p : FilePath} (named : p.components ≠ []) : p.place = Tree.step p.parent.place p.name := by
  have last : p.name = p.components.getLast named := by rw [name, List.getLast?_eq_getLast_of_ne_nil named, Option.getD_some]
  have split : p.components = p.parent.components ++ [p.name] := by
    rw [last]
    exact (List.dropLast_append_getLast named).symm
  have root : p.parent.root = p.root := rfl
  rw [place, split, List.foldl_append, place, root]
  rfl

theorem Tree.above_ne_append {here : List String} {name : String} (ordinary : name ≠ "..") : above here ≠ here ++ [name] := by
  unfold above
  intro same
  split at same
  case isTrue => simp at same
  split at same
  case isTrue =>
    rw [List.append_cancel_left_eq] at same
    exact ordinary (List.cons.inj same).1.symm
  case isFalse =>
    have lengths := congrArg List.length same
    rw [List.length_dropLast, List.length_append, List.length_singleton] at lengths
    omega

namespace Snapshot
open Site

theorem place_ne_beside {path beside : FilePath} (named : path.withName? (path.name ++ ".tmp") = some beside) :
    path.place ≠ beside.place := by
  have temporary : path.name ++ ".tmp" ≠ ".." := by
    intro same
    have lengths := congrArg String.length same
    rw [String.length_append] at lengths
    have fixed : ".tmp".length = 4 ∧ "..".length = 2 := by decide
    omega
  have longer : path.name ≠ path.name ++ ".tmp" := by
    intro same
    have lengths := congrArg String.length same
    rw [String.length_append] at lengths
    have fixed : ".tmp".length = 4 := by decide
    omega
  rw [FilePath.withName?] at named
  split at named
  case isTrue => cases named
  case isFalse components =>
    rw [← Option.some.inj named, FilePath.place_child _ temporary, FilePath.place_eq_step (by simpa using components), Tree.step]
    split
    case isTrue => exact Tree.above_ne_append temporary
    case isFalse =>
      rw [ne_eq, List.append_cancel_left_eq, List.cons.injEq]
      exact fun same => longer same.1

theorem keepsFileAt_of_replaceFile [Device] {path : FilePath} {text : String} {before after : Site} {e : Failure}
    (failed : replaceFile path text before = (.error e, after)) : before.tree.KeepsFileAt path.place after.tree := by
  rw [replaceFile] at failed
  cases named : path.withName? (path.name ++ ".tmp") with
  | none =>
      rw [named] at failed
      cases failed
      exact .refl _ _
  | some beside =>
      rw [named] at failed
      have kept := keepsFileAt_writeText text (place_ne_beside named) before
      rcases Work.bind_eq_error failed with unwritten | ⟨⟨⟩, middle, wrote, unmoved⟩
      · rwa [unwritten] at kept
      · rw [wrote] at kept
        rw [move_eq_error unmoved]
        exact kept

theorem keepsFileAt_of_save [Device] {path : FilePath} {p : Plan} {now : DateTime} {before after : Site} {e : Failure}
    (failed : save path p now before = (.error e, after)) : before.tree.KeepsFileAt path.place after.tree := by
  rcases Work.bind_eq_error failed with unhashed | ⟨digest, s₁, taken, later⟩
  · cases fingerprint : p.fingerprint with
    | ok digest =>
        rw [fingerprint] at unhashed
        cases unhashed
    | error fault =>
        rw [fingerprint] at unhashed
        cases unhashed
        exact .refl _ _
  rcases Work.ofFaults_eq_ok_iff.mp taken with ⟨-, rfl⟩
  have makes := onlyMakes_ensureDirectories path.parent s₁
  rcases Work.bind_eq_error later with unmade | ⟨⟨⟩, s₂, made, later⟩
  · rw [unmade] at makes
    exact .of_onlyMakes makes
  rw [made] at makes
  rcases Work.bind_eq_error later with unreplaced | ⟨⟨⟩, s₃, -, later⟩
  · exact .trans (.of_onlyMakes makes) (keepsFileAt_of_replaceFile unreplaced)
  rcases Work.bind_eq_error later with ⟨⟨⟩⟩ | ⟨⟨⟩, s₄, -, ⟨⟩⟩

/-- The file of the path is one whole snapshot of the plan, and none is left beside it. -/
structure Holds (path : FilePath) (p : Plan) (now : DateTime) (t : Tree) : Prop where
  whole : ∃ digest, p.fingerprint = .ok digest ∧ t.read path = .ok (fileText ⟨p, .str digest, some now⟩).toUTF8
  alone : ∀ beside ∈ path.withName? (path.name ++ ".tmp"), t.exists? beside = .ok false

theorem exists_of_move {t u : Tree} {source target : FilePath} (moved : t.move source target = .ok u)
    (apart : target.place ≠ source.place) : u.exists? source = .ok false := by
  rcases Tree.moves_of_move moved with ⟨content, old, new, moves⟩
  have different : old ≠ new := by
    rw [Tree.eq_place_of_locate moves.source, Tree.eq_place_of_locate moves.target]
    exact apart.symm
  have gone : u.node? old = none := by
    rw [moves.tree, Tree.node?_put_other _ different]
    exact Tree.node?_remove_same (Tree.isGiven_eq_false moves.freeOld)
  have missing : u.find source = .error .notFound := by
    rw [Tree.find, Tree.locate_keeps moves.keepsDirectories moves.source]
    simp only [bind, Except.bind, gone]
  rw [Tree.exists?, missing]

theorem alone_of_replaceFile [Device] {path beside : FilePath} {text : String} {before after : Site}
    (replaced : replaceFile path text before = (.ok (), after))
    (named : path.withName? (path.name ++ ".tmp") = some beside) : after.tree.exists? beside = .ok false := by
  rw [replaceFile, named] at replaced
  rcases Work.bind_eq_ok_iff.mp replaced with ⟨⟨⟩, middle, -, thenMoved⟩
  rcases move_eq_ok_iff.mp thenMoved with ⟨-, tree, moved, rfl⟩
  exact exists_of_move moved (place_ne_beside named)

theorem holds_of_save [Device] {path : FilePath} {p : Plan} {now : DateTime} {before after : Site} {saved : Snapshot}
    (done : save path p now before = (.ok saved, after)) : Holds path p now after.tree := by
  refine ⟨?_, ?_⟩
  · rcases read_of_save done with ⟨digest, taken, rfl, held⟩
    exact ⟨digest, taken, held⟩
  · intro beside named
    rcases Work.bind_eq_ok_iff.mp done with ⟨digest, s₁, -, done⟩
    rcases Work.bind_eq_ok_iff.mp done with ⟨⟨⟩, s₂, -, done⟩
    rcases Work.bind_eq_ok_iff.mp done with ⟨⟨⟩, s₃, replaced, done⟩
    rcases Work.bind_eq_ok_iff.mp done with ⟨⟨⟩, s₄, ⟨⟩, ⟨⟩⟩
    have gone : s₃.tree.exists? beside = .ok false := alone_of_replaceFile replaced named
    exact gone

theorem Holds.load_eq {path : FilePath} {p : Plan} {now : DateTime} {site : Site} (holds : Holds path p now site.tree)
    (typed : p.Typed) : ∃ digest, p.fingerprint = .ok digest ∧
      load path site = (.ok (some ⟨p.stored, .str digest, some now.asRead⟩), site) := by
  rcases holds.whole with ⟨digest, taken, held⟩
  exact ⟨digest, taken, load_of_read held (read_fileText typed taken now) (ofValue_stored typed taken now)⟩

end Snapshot

end SchemaMigration
