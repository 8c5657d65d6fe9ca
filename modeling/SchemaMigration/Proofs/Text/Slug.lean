import SchemaMigration.Text.Slug
import SchemaMigration.Proofs.Text.Identifier
/-!
Slugs that are put together from words with dashes between them. The names of tables, columns and indexes hold no
dashes, so the words can be read off such a slug; a name itself is found there without its capital letters and line
breaks.
-/
namespace SchemaMigration

namespace Slug
open Identifier

def folded (name : String) : List Char := name.toList.flatMap ofChar

theorem folded_append (first second : String) : folded (first ++ second) = folded first ++ folded second := by
  rw [folded, String.toList_append, List.flatMap_append]
  rfl

theorem ofChar_of_isTail {c : Char} (tail : isTail c) : ofChar c = [c.toLower] := by
  have blank : c ≠ ' ' := by rintro rfl; exact absurd tail (by decide)
  -- The letters whose lower case is one of the alphabet without being a capital of it.
  have dotted : c ≠ '\u0130' := by rintro rfl; exact absurd tail (by decide)
  have kelvin : c ≠ '\u212a' := by rintro rfl; exact absurd tail (by decide)
  rw [ofChar, if_neg (by simpa using blank)]
  split
  case isTrue => rfl
  case isFalse small =>
    rw [if_neg (by simpa using dotted), if_neg (by simpa using kelvin)]
    have own : c.toLower = c := by
      unfold Char.toLower
      exact dif_neg fun bounds => small ((isUpper_iff c).mpr bounds)
    have good : isSlugChar c := by
      change (c.isUpper || c.isLower || c.isDigit || c == '_') = true at tail
      simp only [Bool.or_eq_true, small, Bool.false_eq_true, false_or] at tail
      simp only [isSlugChar, Bool.or_eq_true]
      exact .inl tail
    rw [if_pos good, own]

theorem folded_eq {name : String} (spelled : IsSpelled name) :
    folded name = (name.toList.filter (· != '\n')).map Char.toLower := by
  have all := spelled.2
  unfold folded
  generalize name.toList = text at all ⊢
  induction text with
  | nil => rfl
  | cons c rest ih =>
      rcases List.forall_mem_cons.mp all with ⟨first, others⟩
      rw [List.flatMap_cons, ih others]
      rcases first with tail | rfl
      · have kept : (c != '\n') = true := by
          rw [bne_iff_ne]
          rintro rfl
          exact absurd tail (by decide)
        rw [ofChar_of_isTail tail, List.filter_cons, if_pos kept]
        rfl
      · rfl

def IsWord (word : List Char) : Prop := word ≠ [] ∧ '-' ∉ word

instance (word : List Char) : Decidable (IsWord word) := inferInstanceAs (Decidable (_ ∧ _))

theorem isWord_folded {name : String} (spelled : IsSpelled name) : IsWord (folded name) := by
  rw [folded_eq spelled]
  rcases spelled with ⟨⟨c, inside, good⟩, all⟩
  constructor
  · have kept : c ≠ '\n' := by rintro rfl; exact absurd good (by decide)
    exact List.ne_nil_of_mem (List.mem_map_of_mem (List.mem_filter.mpr ⟨inside, by simpa using kept⟩))
  · intro dash
    rcases List.mem_map.mp dash with ⟨e, kept, same⟩
    rcases List.mem_filter.mp kept with ⟨member, other⟩
    have tail := isTail_toLower ((all e member).resolve_right (by simpa using other))
    rw [same] at tail
    exact absurd tail (by decide)

def dashed (words : List (List Char)) : List Char := ['-'].intercalate words

theorem dashed_cons_cons (first second : List Char) (rest : List (List Char)) :
    dashed (first :: second :: rest) = first ++ '-' :: dashed (second :: rest) := by
  simp [dashed, List.intercalate]

section
variable {words others : List (List Char)}

theorem dashed_inj (filled : words ≠ []) (filled' : others ≠ []) (all : ∀ word ∈ words, IsWord word)
    (each : ∀ word ∈ others, IsWord word) : dashed words = dashed others ↔ words = others := by
  refine ⟨fun same => ?_, congrArg dashed⟩
  have first : (dashed words).splitOn '-' = words :=
    List.splitOn_intercalate '-' (fun w inside => (all w inside).2) filled
  have second : (dashed others).splitOn '-' = others :=
    List.splitOn_intercalate '-' (fun w inside => (each w inside).2) filled'
  rw [← first, same, second]

theorem ends_dashed (filled : words ≠ []) (all : ∀ word ∈ words, IsWord word) :
    ∃ c rest start e, dashed words = c :: rest ∧ dashed words = start ++ [e] ∧ c ≠ '-' ∧ e ≠ '-' := by
  induction words with
  | nil => exact absurd rfl filled
  | cons first rest ih =>
      rcases List.forall_mem_cons.mp all with ⟨⟨nonempty, dashless⟩, others⟩
      rcases List.exists_cons_of_ne_nil nonempty with ⟨c, tail, head⟩
      have start : c ≠ '-' := fun dash => dashless (by rw [head, dash]; exact List.mem_cons_self)
      cases rest with
      | nil =>
          have whole : dashed [first] = first := by simp [dashed]
          rw [whole]
          have last : first.getLast nonempty ≠ '-' := fun dash => dashless (dash ▸ List.getLast_mem nonempty)
          exact ⟨c, tail, _, _, head, (List.dropLast_append_getLast nonempty).symm, start, last⟩
      | cons second more =>
          rcases ih (List.cons_ne_nil _ _) others with ⟨-, -, before, e, -, ends, -, last⟩
          rw [dashed_cons_cons, ends, head]
          exact ⟨c, _, c :: tail ++ '-' :: before, e, rfl, by simp, start, last⟩

theorem ofText_of_dashed {name : String} (filled : words ≠ []) (all : ∀ word ∈ words, IsWord word)
    (folds : folded name = dashed words) : ofText name = String.ofList (dashed words) := by
  rcases ends_dashed filled all with ⟨c, rest, start, e, head, last, first, final⟩
  have trimmed : trimDashes (dashed words) = dashed words := by
    have front : (dashed words).dropWhile (· == '-') = dashed words := by
      rw [head, List.dropWhile_cons_of_neg (by simpa using first)]
    rw [trimDashes, front, last, List.reverse_concat, List.dropWhile_cons_of_neg (by simpa using final),
      ← List.reverse_concat, List.reverse_reverse]
  have slug : trimDashes (name.toList.flatMap ofChar) = dashed words := (congrArg trimDashes folds).trans trimmed
  rw [ofText, slug, head]

end

end Slug
end SchemaMigration
