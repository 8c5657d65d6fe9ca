import SchemaMigration.Proofs.Scripts.Order
import SchemaMigration.Proofs.Scripts.Shelf
import Mathlib.Data.List.Find

namespace SchemaMigration

/-- A directory in which a file takes the place of an earlier one with its slug. -/
def ScriptDirectory.replacing (path : FilePath) : ScriptDirectory := ⟨path, true⟩

def firstOfTenDigits : Int := 1000000000

def firstOfElevenDigits : Int := 10000000000

namespace Placed

def script (d : Dialect) (p : Placed) : Script := .ofFile p.number (p.file.script d)

theorem name_ne_dots (p : Placed) : p.name ≠ ".." := (p.script .postgres).name_ne_dots

structure InOrder (shelf : List Placed) : Prop where
  growing : shelf.Pairwise fun p q => p.number < q.number
  long : ∀ p ∈ shelf, firstOfTenDigits ≤ p.number
  short : ∀ p ∈ shelf, p.number < firstOfElevenDigits
  distinct : (shelf.map (·.file.key)).Nodup

variable {shelf : List Placed}

theorem name_lt {p q : Placed} (long : firstOfTenDigits ≤ p.number) (less : p.number < q.number)
    (short : q.number < firstOfElevenDigits) : p.name < q.name := by
  have ten : ∀ n : Int, firstOfTenDigits ≤ n → n < firstOfElevenDigits → (Numeral.digits n.toNat).length = 10 := by
    intro n least most
    unfold firstOfTenDigits at least
    unfold firstOfElevenDigits at most
    have upper : (Numeral.digits n.toNat).length ≤ 10 := (Numeral.length_digits_le_iff (by decide)).mpr (by omega)
    have lower : ¬ (Numeral.digits n.toNat).length ≤ 9 := by
      rw [Numeral.length_digits_le_iff (by decide)]
      omega
    omega
  have positive : 0 ≤ p.number := (by decide : (0 : Int) ≤ firstOfTenDigits).trans long
  have same : (p.script .postgres).digitCount = (q.script .postgres).digitCount :=
    (ten p.number long (less.trans short)).trans (ten q.number (long.trans less.le) short).symm
  exact Script.name_lt_of_number_lt (a := p.script .postgres) (b := q.script .postgres) positive same less

theorem InOrder.names_growing (order : InOrder shelf) : (shelf.map (·.name)).Pairwise (· < ·) := by
  rw [List.pairwise_map]
  refine order.growing.imp_of_mem fun first second less => ?_
  exact name_lt (order.long _ first) less (order.short _ second)

theorem InOrder.sort_names (order : InOrder shelf) : Text.sort (shelf.map (·.name)) = shelf.map (·.name) :=
  (Text.sort_eq_self_iff _).mpr (order.names_growing.imp fun less => String.not_lt.mp (String.lt_asymm less))

theorem InOrder.slugOf?_name (order : InOrder shelf) {p : Placed} (member : p ∈ shelf) :
    ScriptDirectory.slugOf? p.name = some p.file.key := by
  have positive : 0 ≤ p.number := (by decide : (0 : Int) ≤ firstOfTenDigits).trans (order.long p member)
  have name : p.name = ScriptDirectory.fileName p.number.toNat (Slug.ofText p.file.slug) := by
    rw [Int.toNat_of_nonneg positive]
    rfl
  rw [name]
  exact ScriptDirectory.slugOf?_fileName p.number.toNat p.file.slug

theorem InOrder.shelve {number : Int} {f : MigrationFile} (order : InOrder shelf) (beyond : ∀ p ∈ shelf, p.number < number)
    (long : firstOfTenDigits ≤ number) (short : ∀ p ∈ shelve number f shelf, p.number < firstOfElevenDigits) :
    InOrder (shelve number f shelf) where
  growing := by
    have numbers : ((Placed.shelve number f shelf).map (·.number)).Pairwise (· < ·) := by
      have growing : (shelf.map (·.number)).Pairwise (· < ·) := List.pairwise_map.mpr order.growing
      rw [map_number_shelve]
      split
      · exact growing
      · rw [List.pairwise_append]
        refine ⟨growing, List.pairwise_singleton _ _, ?_⟩
        intro n member m only
        rcases List.mem_map.mp member with ⟨p, inside, rfl⟩
        rw [List.mem_singleton.mp only]
        exact beyond p inside
    exact List.pairwise_map.mp numbers
  long := by
    intro p member
    have number : p.number ∈ (Placed.shelve number f shelf).map (·.number) := List.mem_map_of_mem member
    have old : ∀ n ∈ shelf.map (·.number), firstOfTenDigits ≤ n := List.forall_mem_map.mpr order.long
    rw [map_number_shelve] at number
    split at number
    · exact old _ number
    · rcases List.mem_append.mp number with there | new
      · exact old _ there
      · rw [List.mem_singleton.mp new]
        exact long
  short := short
  distinct := by
    have keys := MigrationFile.map_key_putInto f (shelf.map (·.file))
    have distinct := order.distinct
    rw [← map_file_shelve number, List.map_map, List.map_map] at keys
    change (Placed.shelve number f shelf).map (·.file.key) = _ at keys
    rw [keys]
    split
    · exact distinct
    · rename_i new
      refine List.nodup_append.mpr ⟨distinct, List.nodup_singleton _, ?_⟩
      rintro k inside l only rfl
      exact new (List.mem_singleton.mp only ▸ inside)

theorem InOrder.named?_eq (order : InOrder shelf) (directory : ScriptDirectory) (slug : String) :
    directory.named? (shelf.map (·.name)) slug =
      (shelf.find? fun p => p.file.key == slug).map fun p => directory.path.child p.name := by
  have scripts : (shelf.map (·.name)).filter ScriptDirectory.isScriptFile = shelf.map (·.name) := by
    rw [List.filter_eq_self, List.forall_mem_map]
    exact fun p _ => ScriptDirectory.isScriptFile_fileName p.number p.file.key
  have slugs : (shelf.find? fun p => ScriptDirectory.slugOf? p.name == some slug) =
      shelf.find? fun p => p.file.key == slug := by
    apply List.find?_congr
    intro p member
    rw [order.slugOf?_name member]
    rfl
  rw [ScriptDirectory.named?, scripts, List.find?_map, Option.map_map]
  exact congrArg _ slugs

end Placed

open ScriptDirectory

/-- A directory at a place has the files of a shelf, in the order in which they came there, and no others. -/
structure Shelved (d : Dialect) (path : FilePath) (place : List String) (t : Tree) (shelf : List Placed) : Prop where
  located : t.locate path = .ok place
  directory : t.node? place = some .directory
  names : t.namesIn place = shelf.map (·.name)
  texts : ∀ p ∈ shelf, t.read (path.child p.name) = .ok (p.text d).toUTF8

namespace Shelved
open Placed

variable {d : Dialect} {path : FilePath} {place : List String} {t u : Tree} {shelf : List Placed}
  {f : MigrationFile} {s s' : Progress}

theorem found (held : Shelved d path place t shelf) : t.find path = .ok .directory :=
  Tree.find_eq_ok_iff.mpr ⟨place, held.located, held.directory⟩

theorem names_eq (held : Shelved d path place t shelf) (order : InOrder shelf) :
    t.names path = .ok (shelf.map (·.name)) := by
  rw [Tree.names_eq_ok_iff (Tree.isDirectory?_eq_true_iff.mpr held.found)]
  exact ⟨place, held.located, by rw [held.names, order.sort_names]⟩

theorem of_write (held : Shelved d path place t shelf) {name : String} {content : ByteArray} (ordinary : name ≠ "..")
    (written : t.write (path.child name) content = .ok u) :
    u.locate path = .ok place ∧ u.node? place = some .directory ∧
      (u.namesIn place = if name ∈ shelf.map (·.name) then shelf.map (·.name) else shelf.map (·.name) ++ [name]) ∧
      ∀ p ∈ shelf, p.name ≠ name → u.read (path.child p.name) = .ok (p.text d).toUTF8 := by
  have others : ∀ p ∈ shelf, p.name ≠ name → u.read (path.child p.name) = .ok (p.text d).toUTF8 :=
    fun p member different =>
      Tree.read_of_write_other ordinary p.name_ne_dots written (held.texts p member) different
  rcases Tree.write_eq_ok_iff.mp written with ⟨target, located, free, rfl⟩
  rcases Tree.locate_child ordinary located with ⟨directory, leads, rfl⟩
  have same : directory = place :=
    Except.ok.inj (leads.symm.trans (Tree.directoryOf_of_locate held.located held.directory))
  rw [same] at free ⊢ others
  have keeps := Tree.keepsDirectories_put (.file content) free
  exact ⟨Tree.locate_keeps keeps held.located, keeps _ held.directory, by rw [Tree.namesIn_put, held.names], others⟩

theorem append (held : Shelved d path place t shelf) {p : Placed} (new : p.file.key ∉ shelf.map (·.file.key))
    (written : t.write (path.child p.name) (p.text d).toUTF8 = .ok u) : Shelved d path place u (shelf ++ [p]) := by
  rcases held.of_write p.name_ne_dots written with ⟨located, directory, names, others⟩
  have unlike : ∀ q ∈ shelf, q.name ≠ p.name := by
    intro q member same
    exact new (List.mem_map.mpr ⟨q, member, (fileName_injective same).2⟩)
  have fresh : p.name ∉ shelf.map (·.name) := by
    intro member
    rcases List.mem_map.mp member with ⟨q, inside, same⟩
    exact unlike q inside same
  refine ⟨located, directory, ?_, ?_⟩
  · rw [List.map_append, names]
    exact if_neg fresh
  · rw [List.forall_mem_append, List.forall_mem_singleton]
    exact ⟨fun q member => others q member (unlike q member), Tree.read_of_write written⟩

theorem replace {before after : List Placed} {p q : Placed} (held : Shelved d path place t (before ++ p :: after))
    (distinct : ((before ++ p :: after).map (·.file.key)).Nodup) (kept : q.name = p.name)
    (written : t.write (path.child p.name) (q.text d).toUTF8 = .ok u) :
    Shelved d path place u (before ++ q :: after) := by
  rcases held.of_write p.name_ne_dots written with ⟨located, directory, names, others⟩
  rw [List.map_append, List.map_cons, List.nodup_middle, List.nodup_cons, ← List.map_append] at distinct
  have rest : ∀ r ∈ before ++ after, u.read (path.child r.name) = .ok (r.text d).toUTF8 := by
    intro r member
    refine others r (by simp only [List.mem_append, List.mem_cons] at member ⊢; tauto) fun same => ?_
    exact distinct.1 (List.mem_map.mpr ⟨r, member, (fileName_injective same).2⟩)
  refine ⟨located, directory, ?_, ?_⟩
  · rw [List.map_append, List.map_cons, kept, names]
    exact (if_pos (by simp)).trans (by simp)
  · rw [List.forall_mem_append] at rest ⊢
    rw [List.forall_mem_cons, kept]
    exact ⟨rest.1, Tree.read_of_write written, rest.2⟩

/-- A file that is written takes the place of the one with its key, or a new one under the next number. -/
theorem write (held : Shelved d path place s.site.tree shelf) (order : InOrder shelf) (nonempty : f.statements ≠ [])
    {r : Option FilePath} (done : (replacing path).write (f.script d) s = (.ok r, s')) :
    Shelved d path place s'.site.tree (shelve s.number f shelf) ∧
      s'.number = if f.key ∈ shelf.map (·.file.key) then s.number else s.number + 1 := by
  have filled : (f.script d).statements ≠ [] := by simpa [MigrationFile.script, MigrationFile.texts] using nonempty
  rcases write_eq_ok filled done with ⟨made, target, found, -, still, -, -, written, chosen, outcome⟩
  have there : s.site.tree.exists? path = .ok true := by rw [Tree.exists?, held.found]
  rw [still there] at written chosen
  have first : (replacing path).replaced? s.site.tree f.key =
      .ok ((shelf.find? fun p => p.file.key == f.key).map fun p => path.child p.name) := by
    change ((replacing path).named? · f.key) <$> s.site.tree.names path = _
    rw [held.names_eq order]
    exact congrArg Except.ok (order.named?_eq (replacing path) f.key)
  obtain rfl := Except.ok.inj (first.symm.trans chosen)
  rcases shelve_cases s.number f shelf with ⟨new, put⟩ | ⟨before, q, after, rfl, key, earlier, put⟩
  · have absent : (shelf.find? fun p => p.file.key == f.key) = none := by
      simpa using new
    rw [absent] at outcome
    rcases outcome with ⟨rfl, number, -⟩
    rw [put, if_neg new]
    exact ⟨held.append new written, number⟩
  · have present : ((before ++ q :: after).find? fun p => p.file.key == f.key) = .some q := by
      have skipped : (before.find? fun p => p.file.key == f.key) = none := by simpa using earlier
      rw [List.find?_append, skipped, Option.none_or, List.find?_cons, beq_iff_eq.mpr key]
    rw [present] at outcome
    rcases outcome with ⟨rfl, number, -⟩
    rw [put, if_pos (by simp [key])]
    have kept : (⟨q.number, f⟩ : Placed).name = q.name := by rw [Placed.name, Placed.name, key]
    exact ⟨held.replace order.distinct kept written, number⟩

theorem each (held : Shelved d path place s.site.tree shelf) (order : InOrder shelf) (files : List MigrationFile)
    (beyond : ∀ p ∈ shelf, p.number < s.number) (long : firstOfTenDigits ≤ s.number)
    (short : ∀ p ∈ shelveAll s.number files shelf, p.number < firstOfElevenDigits) {written : List (Option FilePath)}
    (done : Work.each (replacing path).write (files.map (·.script d)) s = (.ok written, s')) :
    Shelved d path place s'.site.tree (shelveAll s.number files shelf) ∧ InOrder (shelveAll s.number files shelf) := by
  induction files generalizing shelf s written with
  | nil =>
      cases done
      exact ⟨held, order⟩
  | cons f rest ih =>
      rcases Work.bind_eq_ok_iff.mp done with ⟨first, s₁, wrote, further⟩
      rcases Work.bind_eq_ok_iff.mp further with ⟨others, s₂, later, ⟨⟩⟩
      rw [shelveAll] at short ⊢
      by_cases empty : f.statements = []
      · have nothing : (f.script d).statements = [] := by simp [MigrationFile.script, MigrationFile.texts, empty]
        rw [write_nothing _ nothing] at wrote
        cases wrote
        rw [empty, List.isEmpty_nil, if_pos rfl] at short ⊢
        exact ih held order beyond long short later
      · rw [if_neg (by simpa using empty)] at short ⊢
        rcases held.write order empty wrote with ⟨shelved, number⟩
        rw [← number] at short ⊢
        have least : s.number ≤ s₁.number := by
          rw [number]
          split <;> omega
        have shorter := below_of_kept (numbers_kept s₁.number rest (shelve s.number f shelf)) short
        have next : ∀ p ∈ shelve s.number f shelf, p.number < s₁.number := number ▸ shelve_beyond beyond
        exact ih shelved (order.shelve beyond long shorter) next (long.trans least) short later

theorem writeScripts {before after : Site} {number : Int} (held : Shelved d path place before.tree shelf)
    (order : InOrder shelf) (files : List MigrationFile) (beyond : ∀ p ∈ shelf, p.number < number)
    (long : firstOfTenDigits ≤ number) (short : ∀ p ∈ shelveAll number files shelf, p.number < firstOfElevenDigits)
    {paths : List FilePath}
    (done : CommandLine.writeScripts (replacing path) number (files.map (·.script d)) before = (.ok paths, after)) :
    Shelved d path place after.tree (shelveAll number files shelf) ∧ InOrder (shelveAll number files shelf) := by
  rcases writeScripts_eq_ok done with ⟨written, last, all, tree⟩
  rw [tree]
  exact held.each order files beyond long short all

end Shelved
end SchemaMigration
