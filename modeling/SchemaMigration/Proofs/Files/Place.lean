import SchemaMigration.Proofs.Files.Device
/-!
The place of a path, which does not depend on what there is: where a path leads anywhere, it leads there. The file at one
place is followed through all that can happen to a tree, and through the work that makes it happen.
-/
namespace SchemaMigration

def Tree.step (here : List String) (component : String) : List String :=
  if component == ".." then above here else here ++ [component]

/-- Where a path leads if directories are all along it. -/
def FilePath.place (p : FilePath) : List String :=
  p.components.foldl Tree.step (if p.root == "" then [] else Tree.rootPlace)

theorem FilePath.place_child (p : FilePath) {name : String} (ordinary : name ≠ "..") :
    (p.child name).place = p.place ++ [name] := by
  have components : (p.child name).components = p.components ++ [name] := rfl
  have root : (p.child name).root = p.root := rfl
  rw [place, components, root, List.foldl_append, List.foldl_cons, List.foldl_nil, Tree.step, if_neg (by simpa using ordinary)]
  rfl

namespace Tree
variable {t u w : Tree} {place : List String} {p : FilePath}

theorem eq_step_of_enter {here next : List String} {component : String} (entered : t.enter here component = .ok next) :
    next = step here component := by
  rw [enter] at entered
  rw [step]
  split at entered
  case isTrue up =>
    rw [if_pos up]
    exact (Except.ok.inj entered).symm
  case isFalse down =>
    rw [if_neg down]
    rcases bind_eq_ok_iff.mp entered with ⟨-, -, found⟩
    split at found
    · cases found
    · cases found
    · exact (Except.ok.inj found).symm

theorem eq_foldl_of_locateFrom {components here : List String} (located : t.locateFrom here components = .ok place) :
    place = components.foldl step here := by
  induction components generalizing here with
  | nil => exact (Except.ok.inj located).symm
  | cons component rest ih =>
      cases rest with
      | nil =>
          rw [locateFrom] at located
          rw [List.foldl_cons, List.foldl_nil, step]
          split at located
          case isTrue up =>
            rw [if_pos up]
            exact (Except.ok.inj located).symm
          case isFalse down =>
            rw [if_neg down]
            rcases bind_eq_ok_iff.mp located with ⟨-, -, ⟨⟩⟩
            rfl
      | cons second later =>
          have step : t.locateFrom here (component :: second :: later) =
              t.enter here component >>= fun next => t.locateFrom next (second :: later) := by
            rw [locateFrom]
            simp
          rw [step] at located
          rcases bind_eq_ok_iff.mp located with ⟨next, entered, further⟩
          rw [List.foldl_cons, ← eq_step_of_enter entered]
          exact ih further

theorem eq_place_of_locate (located : t.locate p = .ok place) : place = p.place := by
  unfold locate at located
  split at located
  case isTrue => cases located
  split at located
  case isTrue => cases located
  case isFalse => exact eq_foldl_of_locateFrom located

/-- What was a directory is one, and the file at the place is as it was, or missing as it was. -/
structure KeepsFileAt (place : List String) (t u : Tree) : Prop where
  directories : t.KeepsDirectories u
  file : ∀ content, u.node? place = some (.file content) ↔ t.node? place = some (.file content)

namespace KeepsFileAt

theorem refl (place : List String) (t : Tree) : t.KeepsFileAt place t := ⟨fun _ directory => directory, fun _ => Iff.rfl⟩

theorem trans (first : t.KeepsFileAt place u) (second : u.KeepsFileAt place w) : t.KeepsFileAt place w :=
  ⟨first.directories.trans second.directories, fun content => (second.file content).trans (first.file content)⟩

theorem of_onlyMakes (makes : t.OnlyMakes u) : t.KeepsFileAt place u := ⟨makes.directories, makes.files place⟩

theorem of_write {content : ByteArray} (written : t.write p content = .ok u) (elsewhere : place ≠ p.place) :
    t.KeepsFileAt place u := by
  rcases write_eq_ok_iff.mp written with ⟨other, located, free, rfl⟩
  refine ⟨keepsDirectories_put _ free, fun content => ?_⟩
  rw [node?_put_other _ (eq_place_of_locate located ▸ elsewhere)]

theorem read (keeps : t.KeepsFileAt p.place u) {content : ByteArray} (held : t.read p = .ok content) :
    u.read p = .ok content := by
  rcases find_eq_ok_iff.mp (read_eq_ok_iff.mp held) with ⟨own, located, node⟩
  rw [read_eq_ok_iff, find_eq_ok_iff]
  refine ⟨own, locate_keeps keeps.directories located, ?_⟩
  rw [eq_place_of_locate located] at node ⊢
  exact (keeps.file content).mpr node

end KeepsFileAt

/-- The file of a path is as it was: the same one, or none as before, is at its place, and a path that led there still does. -/
structure KeepsFile (p : FilePath) (t u : Tree) : Prop where
  file : ∀ content, u.node? p.place = some (.file content) ↔ t.node? p.place = some (.file content)
  path : ∀ content, t.read p = .ok content → u.read p = .ok content

theorem KeepsFileAt.keepsFile (keeps : t.KeepsFileAt p.place u) : t.KeepsFile p u := ⟨keeps.file, fun _ => keeps.read⟩

end Tree

namespace Work
variable {σ α β : Type} {treeOf : σ → Tree} {place : List String}

/-- Whatever comes of the work, the file at the place is kept in the tree that belongs to the state. -/
def KeepsFileAt (treeOf : σ → Tree) (place : List String) (x : Work σ α) : Prop :=
  x.Keeps fun before after => (treeOf before).KeepsFileAt place (treeOf after)

namespace KeepsFileAt

theorem bind_of_ok {x : Work σ α} {f : α → Work σ β} (first : x.KeepsFileAt treeOf place)
    (second : ∀ {a before middle}, x before = (.ok a, middle) → (f a).KeepsFileAt treeOf place) :
    (x >>= f).KeepsFileAt treeOf place :=
  Keeps.bind_of_ok .trans first second

theorem bind {x : Work σ α} {f : α → Work σ β} (first : x.KeepsFileAt treeOf place)
    (second : ∀ a, (f a).KeepsFileAt treeOf place) : (x >>= f).KeepsFileAt treeOf place :=
  bind_of_ok first fun _ => second _

theorem of_sameTree {x : Work σ α} (same : ∀ s, treeOf (x s).2 = treeOf s) : x.KeepsFileAt treeOf place := by
  intro s
  rw [same s]
  exact .refl place _

theorem of_onlyLooks {x : Work σ α} (looks : x.OnlyLooks) : x.KeepsFileAt treeOf place :=
  of_sameTree fun s => by rw [looks s]

theorem pure (a : α) : (Pure.pure a : Work σ α).KeepsFileAt treeOf place := of_onlyLooks (.pure a)

theorem fail (e : Failure) : (Work.fail e : Work σ α).KeepsFileAt treeOf place := of_onlyLooks (.fail e)

theorem each {f : α → Work σ β} (one : ∀ a, (f a).KeepsFileAt treeOf place) (items : List α) :
    (Work.each f items).KeepsFileAt treeOf place := by
  induction items with
  | nil => exact pure []
  | cons a rest ih => exact (one a).bind fun b => ih.bind fun bs => pure (b :: bs)

end KeepsFileAt

end Work

namespace Site
variable {place : List String}

theorem onlyMakes_ensureDirectories [Device] (p : FilePath) :
    (ensureDirectories p).Keeps fun before after => before.tree.OnlyMakes after.tree := by
  intro site
  have makes := Tree.OnlyMakes.ensureDirectories site.tree p (p.components.length + 1)
  rw [ensureDirectories]
  split <;> rename_i made <;> rwa [made] at makes

theorem keepsFileAt_writeText [Device] {p : FilePath} (text : String) (elsewhere : place ≠ p.place) :
    (writeText p text).KeepsFileAt Site.tree place := by
  intro site
  rcases tree_writeText p text site with same | ⟨content, written⟩
  · rw [same]
    exact .refl place _
  · exact .of_write written elsewhere

end Site

end SchemaMigration
