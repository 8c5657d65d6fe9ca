import Mathlib.Data.List.Lattice
import Mathlib.Data.List.Nodup
import Mathlib.Data.List.Pairwise
/-!
Names that are joined by an underscore, that of an owner with that of a part. Names hold underscores themselves, so
a joined name can be read in two ways: an owner whose name goes on where that of another one ends may have a part
of the same joined name.
-/
namespace SchemaMigration.Text

/--
The second owner's name goes on behind that of the first, and with what it goes on begins the name of a part of
the first whose ending names a part of the second: `a` has `b_c`, and `a_b` has `c`.
-/
def Overlaps (first : String) (names : List String) (second : String) (others : List String) : Prop :=
  ∃ rest, second = first ++ "_" ++ rest ∧ ∃ other ∈ others, rest ++ "_" ++ other ∈ names

instance (first : String) (names : List String) (second : String) (others : List String) :
    Decidable (Overlaps first names second others) :=
  decidable_of_iff (∃ rest ∈ (first ++ "_").toList.isPrefixOf? second.toList,
    ∃ other ∈ others, String.ofList rest ++ "_" ++ other ∈ names) <| by
  constructor
  · intro given
    rcases given with ⟨rest, stripped, found⟩
    refine ⟨String.ofList rest, ?_, found⟩
    rw [← String.toList_inj, String.toList_append, String.toList_ofList]
    exact (List.isPrefixOf?_eq_some_iff_append_eq.mp stripped).symm
  · intro given
    rcases given with ⟨rest, rfl, found⟩
    refine ⟨rest.toList, ?_, by rwa [String.ofList_toList]⟩
    rw [Option.mem_def, List.isPrefixOf?_eq_some_iff_append_eq, ← String.toList_append]

theorem eq_or_goes_on {first name second other : String} {between : List Char}
    (longer : second.toList = first.toList ++ between) (rest : '_' :: name.toList = between ++ '_' :: other.toList) :
    (first = second ∧ name = other) ∨ ∃ rest, second = first ++ "_" ++ rest ∧ name = rest ++ "_" ++ other := by
  cases between with
  | nil =>
      left
      rw [List.append_nil] at longer
      exact ⟨(String.toList_inj.mp longer).symm, String.toList_inj.mp (List.cons.inj rest).2⟩
  | cons c between =>
      right
      obtain ⟨rfl, ends⟩ := List.cons.inj rest
      refine ⟨String.ofList between, ?_, ?_⟩
      · simp [← String.toList_inj, longer]
      · simp [← String.toList_inj, ends]

/-- Two joined names are the same in both parts, or one owner's name goes on where the other's ends. -/
theorem joined_eq_iff (first name second other : String) :
    first ++ "_" ++ name = second ++ "_" ++ other ↔
      (first = second ∧ name = other) ∨
        (∃ rest, second = first ++ "_" ++ rest ∧ name = rest ++ "_" ++ other) ∨
          ∃ rest, first = second ++ "_" ++ rest ∧ other = rest ++ "_" ++ name := by
  constructor
  · intro same
    have texts : first.toList ++ '_' :: name.toList = second.toList ++ '_' :: other.toList := by
      simpa [String.append_assoc] using congrArg String.toList same
    rcases List.append_eq_append_iff.mp texts with ⟨between, longer, rest⟩ | ⟨between, longer, rest⟩
    · exact (eq_or_goes_on longer rest).imp_right .inl
    · rcases eq_or_goes_on longer rest with ⟨rfl, rfl⟩ | goesOn
      · exact .inl ⟨rfl, rfl⟩
      · exact .inr (.inr goesOn)
  · intro given
    rcases given with ⟨rfl, rfl⟩ | ⟨rest, rfl, rfl⟩ | ⟨rest, rfl, rfl⟩
    · rfl
    · simp only [String.append_assoc]
    · simp only [String.append_assoc]

theorem ne_goesOn (name rest : String) : name ≠ name ++ "_" ++ rest := by
  intro same
  have lengths := congrArg (·.toList.length) same
  simp at lengths

theorem Overlaps.ne {first second : String} {names others : List String} (overlap : Overlaps first names second others) :
    first ≠ second := by
  rcases overlap with ⟨rest, rfl, -⟩
  exact ne_goesOn first rest

def joined (owner : String) (parts : List String) : List String := parts.map fun name => owner ++ "_" ++ name

theorem mem_joined {owner : String} {parts : List String} {text : String} :
    text ∈ joined owner parts ↔ ∃ name ∈ parts, owner ++ "_" ++ name = text := List.mem_map

theorem nodup_joined_iff (owner : String) (parts : List String) : (joined owner parts).Nodup ↔ parts.Nodup :=
  List.nodup_map_iff fun name other same => by simpa using same

theorem disjoint_joined_iff {first second : String} (different : first ≠ second) (names others : List String) :
    (joined first names).Disjoint (joined second others) ↔
      ¬ Overlaps first names second others ∧ ¬ Overlaps second others first names := by
  constructor
  · intro disjoint
    constructor
    · intro overlap
      rcases overlap with ⟨rest, longer, other, inOthers, inNames⟩
      have same := (joined_eq_iff first (rest ++ "_" ++ other) second other).mpr (.inr (.inl ⟨rest, longer, rfl⟩))
      exact disjoint (mem_joined.mpr ⟨_, inNames, rfl⟩) (mem_joined.mpr ⟨other, inOthers, same.symm⟩)
    · intro overlap
      rcases overlap with ⟨rest, longer, name, inNames, inOthers⟩
      have same := (joined_eq_iff first name second (rest ++ "_" ++ name)).mpr (.inr (.inr ⟨rest, longer, rfl⟩))
      exact disjoint (mem_joined.mpr ⟨name, inNames, rfl⟩) (mem_joined.mpr ⟨_, inOthers, same.symm⟩)
  · intro apart text inFirst inSecond
    rcases mem_joined.mp inFirst with ⟨name, inNames, rfl⟩
    rcases mem_joined.mp inSecond with ⟨other, inOthers, same⟩
    rcases (joined_eq_iff ..).mp same.symm with ⟨equal, -⟩ | ⟨rest, longer, rfl⟩ | ⟨rest, longer, rfl⟩
    · exact different equal
    · exact apart.1 ⟨rest, longer, other, inOthers, inNames⟩
    · exact apart.2 ⟨rest, longer, name, inNames, inOthers⟩

variable {α : Type} {nameOf : α → String} {items : List α}

theorem nodup_flatMap_joined_iff (distinct : (items.map nameOf).Nodup) (parts : α → List String) :
    (items.flatMap fun a => joined (nameOf a) (parts a)).Nodup ↔
      (∀ a ∈ items, (parts a).Nodup) ∧
        ∀ a ∈ items, ∀ b ∈ items, ¬ Overlaps (nameOf a) (parts a) (nameOf b) (parts b) := by
  rw [List.nodup_flatMap]
  apply and_congr
  · exact forall₂_congr fun a _ => nodup_joined_iff (nameOf a) (parts a)
  · constructor
    · intro apart a inItems b alsoIn overlap
      have symmetric : Std.Symm (Function.onFun List.Disjoint fun a => joined (nameOf a) (parts a)) :=
        ⟨fun _ _ disjoint => List.Disjoint.symm disjoint⟩
      have different : a ≠ b := fun same => overlap.ne (congrArg nameOf same)
      have disjoint := List.Pairwise.forall apart inItems alsoIn different
      exact ((disjoint_joined_iff overlap.ne ..).mp disjoint).1 overlap
    · intro unsplit
      apply (distinct.of_map nameOf).pairwise_of_forall_ne
      intro a inItems b alsoIn different
      have names : nameOf a ≠ nameOf b := fun same => different (List.inj_on_of_nodup_map distinct inItems alsoIn same)
      exact (disjoint_joined_iff names ..).mpr ⟨unsplit a inItems b alsoIn, unsplit b alsoIn a inItems⟩

end SchemaMigration.Text
