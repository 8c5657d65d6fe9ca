import SchemaMigration.Proofs.Scripts.Writing
import SchemaMigration.Proofs.Text.Order
import SchemaMigration.Proofs.Text.Slug

namespace SchemaMigration

namespace Slug

/-- Lower-case letters, digits, underscores and dashes, of which none stands at an end. -/
structure IsSlug (slug : String) : Prop where
  nonempty : slug ≠ ""
  chars : ∀ c ∈ slug.toList, 'a' ≤ c ∧ c ≤ 'z' ∨ '0' ≤ c ∧ c ≤ '9' ∨ c = '_' ∨ c = '-'
  first : slug.toList.head? ≠ some '-'
  last : slug.toList.getLast? ≠ some '-'

theorem isSlugChar_iff (c : Char) :
    isSlugChar c ↔ 'a' ≤ c ∧ c ≤ 'z' ∨ '0' ≤ c ∧ c ≤ '9' ∨ c = '_' ∨ c = '-' := by
  have small : c.isLower ↔ 'a' ≤ c ∧ c ≤ 'z' := Identifier.isLower_iff c
  have digit : c.isDigit ↔ '0' ≤ c ∧ c ≤ '9' := by
    rw [Char.isDigit, Bool.and_eq_true, decide_eq_true_eq, decide_eq_true_eq]
    rfl
  simp only [isSlugChar, Bool.or_eq_true, small, digit, beq_iff_eq, or_assoc]

theorem ofChar_of_isSlugChar {c : Char} (good : isSlugChar c) : ofChar c = [c] := by
  have other : ∀ e : Char, isSlugChar e = false → c ≠ e := by
    rintro e bad rfl
    rw [good] at bad
    cases bad
  have small : c.isUpper = false := by
    rw [Bool.eq_false_iff]
    intro capital
    have bounds := (Identifier.isUpper_iff c).mp capital
    rcases (isSlugChar_iff c).mp good with letter | digit | rfl | rfl
    · exact absurd (Char.le_trans letter.1 bounds.2) (by decide)
    · exact absurd (Char.le_trans bounds.1 digit.2) (by decide)
    · exact absurd capital (by decide)
    · exact absurd capital (by decide)
  simp [ofChar, small, good, other ' ' rfl, other '\u0130' rfl, other '\u212a' rfl]

theorem ends_trimDashes (s : List Char) :
    (trimDashes s).head? ≠ some '-' ∧ (trimDashes s).getLast? ≠ some '-' := by
  have start : ∀ s : List Char, (s.dropWhile (· == '-')).head? ≠ some '-' := by
    intro s dash
    have stop := List.head?_dropWhile_not (· == '-') s
    rw [dash] at stop
    cases stop
  constructor
  · intro dash
    have front : trimDashes s <+: s.dropWhile (· == '-') := by
      rw [trimDashes, ← List.reverse_suffix, List.reverse_reverse]
      exact List.dropWhile_suffix _
    rcases front with ⟨rest, whole⟩
    apply start s
    rw [← whole, List.head?_append, dash]
    rfl
  · rw [trimDashes, List.getLast?_reverse]
    exact start _

theorem trimDashes_eq_self {s : List Char} (first : s.head? ≠ some '-') (last : s.getLast? ≠ some '-') :
    trimDashes s = s := by
  have keeps : ∀ {s : List Char}, s.head? ≠ some '-' → s.dropWhile (· == '-') = s := by
    intro s start
    cases s with
    | nil => rfl
    | cons c rest => exact List.dropWhile_cons_of_neg (by simpa using start)
  rw [trimDashes, keeps first, keeps (by rwa [List.head?_reverse]), List.reverse_reverse]

theorem isSlug_ofText (text : String) : IsSlug (ofText text) := by
  rcases ofText_spec text with ⟨nonempty, chars⟩
  have ends : (ofText text).toList.head? ≠ some '-' ∧ (ofText text).toList.getLast? ≠ some '-' := by
    unfold ofText
    cases kept : trimDashes (text.toList.flatMap ofChar) with
    | nil => decide
    | cons c rest =>
        rw [String.toList_ofList, ← kept]
        exact ends_trimDashes _
  exact ⟨fun empty => nonempty (by rw [empty]; rfl), fun c member => (isSlugChar_iff c).mp (chars c member), ends.1, ends.2⟩

theorem ofText_eq_self_iff (slug : String) : ofText slug = slug ↔ IsSlug slug := by
  constructor
  · intro own
    rw [← own]
    exact isSlug_ofText slug
  · intro good
    have folds : slug.toList.flatMap ofChar = slug.toList := by
      have each : ∀ c ∈ slug.toList, ofChar c = [c] :=
        fun c member => ofChar_of_isSlugChar ((isSlugChar_iff c).mpr (good.chars c member))
      rw [List.flatMap_congr each]
      exact List.flatMap_singleton' _
    have nonempty : slug.toList ≠ [] := mt String.toList_eq_nil_iff.mp good.nonempty
    rcases List.exists_cons_of_ne_nil nonempty with ⟨c, rest, text⟩
    have whole : String.ofList (c :: rest) = slug := by rw [← text, String.ofList_toList]
    rw [ofText, folds, trimDashes_eq_self good.first good.last, text]
    exact whole

end Slug

namespace FilePath

theorem splitSlashes_of_notMem {s : List Char} (plain : '/' ∉ s) : splitSlashes s = [s] := by
  induction s with
  | nil => rfl
  | cons c rest ih =>
      rw [List.mem_cons, not_or] at plain
      rw [splitSlashes, if_neg (by simpa using Ne.symm plain.1), ih plain.2]

theorem rootOf_of_notMem {s : List Char} (plain : '/' ∉ s) : rootOf s = "" := by
  unfold rootOf
  split
  · exact absurd List.mem_cons_self plain
  · exact absurd List.mem_cons_self plain
  · exact absurd List.mem_cons_self plain
  · rfl

theorem ofString_of_notMem {name : String} (plain : '/' ∉ name.toList) (nonempty : name ≠ "") (other : name ≠ ".") :
    ofString name = ⟨"", [name]⟩ := by
  rw [ofString, rootOf_of_notMem plain, splitSlashes_of_notMem plain]
  simp [nonempty, other]

end FilePath

theorem Tree.pairwise_names {t : Tree} {p : FilePath} {names : List String} (listed : t.names p = .ok names) :
    names.Pairwise (· ≤ ·) := by
  cases there : t.isDirectory? p with
  | error fault =>
      rw [Tree.names, there] at listed
      cases listed
  | ok directory =>
      cases directory with
      | false =>
          rw [Tree.names, there] at listed
          cases listed
          exact .nil
      | true =>
          rcases (names_eq_ok_iff there).mp listed with ⟨place, -, rfl⟩
          exact Text.pairwise_sortBy id _

namespace ScriptDirectory

/--
The name is a number, a dash, the slug and the ending, and a line break may follow. The slug is some characters of one
line.
-/
def Captures (name slug : String) : Prop :=
  slug ≠ "" ∧ '\n' ∉ slug.toList ∧ ∃ number last : List Char, number ≠ [] ∧ (∀ c ∈ number, Numeral.isDecimalDigit c) ∧
    (last = [] ∨ last = ['\n']) ∧ name.toList = number ++ '-' :: (slug.toList ++ ending) ++ last

theorem captures_iff {name : String} (script : isScriptFile name) (slug : String) :
    Captures name slug ↔ slugOf? name = some slug := by
  rw [slugOf?_eq_some_iff, Captures]
  apply and_congr_right'
  apply and_congr_right'
  apply exists_congr
  intro number
  constructor
  · rintro ⟨last, numbered, numeral, rfl | rfl, text⟩
    · exact ⟨numbered, numeral, by rw [text, List.append_nil]⟩
    · -- A line break would stand behind the ending.
      rw [isScriptFile, List.isSuffixOf_iff_suffix, text] at script
      rcases script with ⟨before, same⟩
      have letter : ending.getLast? = .some 'l' := rfl
      have ends := congrArg List.getLast? same
      rw [List.getLast?_append, letter, Option.some_or, List.getLast?_concat] at ends
      exact absurd ends (by decide)
  · rintro ⟨numbered, numeral, text⟩
    exact ⟨[], numbered, numeral, .inl rfl, by rw [text, List.append_nil]⟩

theorem findExisting_of_mem {directory : ScriptDirectory} {site : Site} {names : List String} {name slug : String}
    (listed : site.tree.names directory.path = .ok names) (member : name ∈ names) (named : slugOf? name = some slug) :
    ∃ found ∈ names, slugOf? found = some slug ∧ (∀ other ∈ names, slugOf? other = some slug → found ≤ other) ∧
      directory.findExisting slug site = (.ok (some (directory.path.child found)), site) := by
  have present : ((names.filter isScriptFile).find? fun name => slugOf? name == some slug).isSome := by
    rw [List.find?_isSome]
    exact ⟨name, List.mem_filter.mpr ⟨member, isScriptFile_of_slugOf? named⟩, by simpa using named⟩
  rcases Option.isSome_iff_exists.mp present with ⟨found, first⟩
  have captured : slugOf? found = .some slug := by simpa using List.find?_some first
  refine ⟨found, (List.mem_filter.mp (List.mem_of_find?_eq_some first)).1, captured, ?_, ?_⟩
  · intro other inNames captures
    have sorted := (Tree.pairwise_names listed).filter isScriptFile
    rcases List.find?_eq_some_iff_append.mp first with ⟨-, before, after, split, skipped⟩
    have there := List.mem_filter.mpr ⟨inNames, isScriptFile_of_slugOf? captures⟩
    rw [split] at there sorted
    rcases List.mem_append.mp there with earlier | later
    · simpa [captures] using skipped other earlier
    · rcases List.mem_cons.mp later with rfl | behind
      · exact String.le_refl _
      · exact (List.pairwise_cons.mp (List.pairwise_append.mp sorted).2.1).1 other behind
  · rw [findExisting_eq_ok_iff, listed]
    exact ⟨congrArg Except.ok (congrArg (Option.map directory.path.child) first), rfl⟩

theorem captures_fileName_iff (number : Nat) (text group : String) :
    Captures (fileName number (Slug.ofText text)) group ↔ group = Slug.ofText text := by
  rw [captures_iff (isScriptFile_fileName number _), slugOf?_fileName, Option.some.injEq, eq_comm]

theorem ofString_fileName (number : Nat) (text : String) :
    FilePath.ofString (fileName number (Slug.ofText text)) = ⟨"", [fileName number (Slug.ofText text)]⟩ := by
  have script := isScriptFile_fileName number (Slug.ofText text)
  have other : ∀ e : String, isScriptFile e = false → fileName number (Slug.ofText text) ≠ e := by
    intro e plain same
    rw [same, plain] at script
    cases script
  refine FilePath.ofString_of_notMem ?_ (other "" rfl) (other "." rfl)
  intro slash
  rw [toList_fileName, Numeral.ofInt_natCast, String.toList_append] at slash
  rcases List.mem_append.mp slash with digit | behind
  · exact absurd (Numeral.isDigit_of_mem_digits digit) (by decide)
  · rcases List.mem_cons.mp behind with dash | rest
    · exact absurd dash (by decide)
    · rcases List.mem_append.mp rest with inSlug | inEnding
      · exact absurd ((Slug.ofText_spec text).2 _ inSlug) (by decide)
      · exact absurd inEnding (by decide)

/--
Every text has a slug that is its own slug. It is the one that is captured from the name of a file with any number; the
file stands directly in the directory that it is written to, and among its names the first one with the slug is found.
-/
theorem slug_found_again (text : String) (number : Nat) :
    let slug := Slug.ofText text
    let name := fileName number slug
    Slug.IsSlug slug ∧ Slug.ofText slug = slug ∧ (∀ group, Captures name group ↔ group = slug) ∧
      FilePath.ofString name = ⟨"", [name]⟩ ∧
      ∀ directory : ScriptDirectory,
        (∀ (t : Tree) (place : List String), t.locate (directory.path.child name) = .ok place →
          place = directory.path.place ++ [name]) ∧
        ∀ (site : Site) (names : List String), site.tree.names directory.path = .ok names → name ∈ names →
          ∃ found ∈ names, Captures found slug ∧
            (∀ other ∈ names, isScriptFile other → Captures other slug → found ≤ other) ∧
            directory.findExisting slug site = (.ok (some (directory.path.child found)), site) := by
  intro slug name
  have dots : name ≠ ".." := Script.name_ne_dots ⟨number, slug, ""⟩
  refine ⟨Slug.isSlug_ofText text, (Slug.ofText_eq_self_iff slug).mpr (Slug.isSlug_ofText text),
    captures_fileName_iff number text, ofString_fileName number text, fun directory => ⟨?_, ?_⟩⟩
  · intro t place located
    rw [Tree.eq_place_of_locate located, FilePath.place_child _ dots]
  · intro site names listed member
    rcases findExisting_of_mem listed member (slugOf?_fileName number text) with ⟨found, inside, captured, first, done⟩
    refine ⟨found, inside, (captures_iff (isScriptFile_of_slugOf? captured) slug).mpr captured, ?_, done⟩
    intro other inNames script captures
    exact first other inNames ((captures_iff script slug).mp captures)

/-- A directory with two files whose slug looks like the name of a file. -/
def numberedScripts : Site :=
  { tree := ⟨[(["sql"], .directory), (["sql", "12-7-create-users.sql"], .file .empty),
      (["sql", "9-7-create-users.sql"], .file .empty)]⟩ }

theorem numbered_script_found :
    ∃ found, Captures found "7-create-users" ∧
      findExisting ⟨.ofString "sql", true⟩ "7-create-users" numberedScripts =
        (.ok (some ((FilePath.ofString "sql").child found)), numberedScripts) := by
  rcases slug_found_again " 7 Create Users! " 9 with ⟨-, -, -, -, inside⟩
  rcases (inside ⟨.ofString "sql", true⟩).2 numberedScripts _ rfl (by decide) with ⟨found, -, captured, -, done⟩
  exact ⟨found, captured, done⟩

end ScriptDirectory
end SchemaMigration
