import SchemaMigration.ScriptDirectory
import SchemaMigration.Proofs.Text.Identifier
import SchemaMigration.Proofs.Text.Numeral
import Mathlib.Tactic.Positivity
import Mathlib.Tactic.Ring
/-!
The names of migration files. Number and slug can be read off a name. Names are ordered by their characters, which
is not the order of the numbers: numbers count as decimal fractions, so they keep their order only as long as they
have the same number of digits.
-/
namespace SchemaMigration

namespace Numeral

theorem ofInt_natCast (n : Nat) : ofInt n = digits n := rfl

theorem head_ofInt (n : Int) : ∃ c rest, ofInt n = c :: rest ∧ (c = '-' ↔ n < 0) := by
  cases n with
  | ofNat n =>
      cases ds : digits n with
      | nil => exact absurd ds (digits_ne_nil n)
      | cons c rest =>
          have digit : c.isDigit := isDigit_of_mem_digits (n := n) (by simp [ds])
          refine ⟨c, rest, ds, iff_of_false ?_ (by simp)⟩
          rintro rfl
          exact absurd digit (by decide)
  | negSucc n => exact ⟨'-', digits (n + 1), rfl, by simp⟩

theorem digits_append_dash {m n : Nat} {first second : List Char}
    (same : digits m ++ '-' :: first = digits n ++ '-' :: second) : m = n ∧ first = second := by
  have taken : ∀ k rest, span (digits k ++ '-' :: rest) = (digits k, '-' :: rest) := fun k rest =>
    span_append (fun c => isDigit_of_mem_digits) (by simp)
  have parts := congrArg span same
  rw [taken, taken] at parts
  have numbers := congrArg (fun p : List Char × List Char => value p.1) parts
  simp only [value_digits] at numbers
  exact ⟨numbers, (List.cons.inj (Prod.mk.inj parts).2).2⟩

theorem ofInt_append_dash {m n : Int} {first second : List Char}
    (same : ofInt m ++ '-' :: first = ofInt n ++ '-' :: second) : m = n ∧ first = second := by
  rcases head_ofInt m with ⟨c, rest, left, minus⟩
  rcases head_ofInt n with ⟨e, others, right, right'⟩
  have heads : c = e := by
    rw [left, right] at same
    exact (List.cons.inj same).1
  have signs : m < 0 ↔ n < 0 := by rw [← minus, ← right', heads]
  cases m with
  | ofNat m =>
      cases n with
      | ofNat n => exact (digits_append_dash same).imp_left (congrArg Int.ofNat)
      | negSucc n => exact absurd (signs.mpr (Int.negSucc_lt_zero n)) (by simp)
  | negSucc m =>
      cases n with
      | ofNat n => exact absurd (signs.mp (Int.negSucc_lt_zero m)) (by simp)
      | negSucc n =>
          rcases digits_append_dash (List.cons.inj same).2 with ⟨numbers, rests⟩
          exact ⟨congrArg Int.negSucc (Nat.succ.inj numbers), rests⟩

theorem dash_lt_digit {c : Char} (digit : c.isDigit) : '-' < c := by
  have least : 48 ≤ c.toNat := (digit_bounds digit).1
  rw [Char.lt_def, UInt32.lt_iff_toNat_lt]
  exact Nat.lt_of_lt_of_le (by decide) least

/-- As decimal fractions, digit by digit, the first is less; or they are equal and the first is shorter. -/
def FractionLess (ds es : List Char) : Prop :=
  value ds * 10 ^ es.length < value es * 10 ^ ds.length ∨
    value ds * 10 ^ es.length = value es * 10 ^ ds.length ∧ ds.length < es.length

theorem fractionLess_cons {c e : Char} {ds es : List Char} (numeral : ∀ x ∈ c :: ds, x.isDigit)
    (numeral' : ∀ x ∈ e :: es, x.isDigit) :
    FractionLess (c :: ds) (e :: es) ↔ value [c] < value [e] ∨ value [c] = value [e] ∧ FractionLess ds es := by
  have first := value_lt_pow (List.forall_mem_cons.mp numeral).2
  have second := value_lt_pow (List.forall_mem_cons.mp numeral').2
  have left : value ds * 10 ^ es.length < 10 ^ ds.length * 10 ^ es.length :=
    Nat.mul_lt_mul_of_pos_right first (by positivity)
  have right : value es * 10 ^ ds.length < 10 ^ ds.length * 10 ^ es.length := by
    rw [Nat.mul_comm (10 ^ ds.length)]
    exact Nat.mul_lt_mul_of_pos_right second (by positivity)
  have leads : ∀ x (xs ys : List Char), value (x :: xs) * 10 ^ (ys.length + 1) =
      10 * (value [x] * (10 ^ xs.length * 10 ^ ys.length) + value xs * 10 ^ ys.length) := by
    intro x xs ys
    rw [value_cons, Nat.pow_succ]
    ring
  have less := scaled_lt_scaled_iff (a := value [c]) (b := value [e]) left right
  have more := scaled_lt_scaled_iff (a := value [e]) (b := value [c]) right left
  rw [FractionLess, FractionLess, List.length_cons, List.length_cons, leads c ds es, leads e es ds,
    Nat.mul_comm (10 ^ es.length)]
  omega

theorem append_dash_lt_iff {ds es : List Char} (numeral : ∀ c ∈ ds, c.isDigit) (numeral' : ∀ c ∈ es, c.isDigit)
    (first second : List Char) :
    ds ++ '-' :: first < es ++ '-' :: second ↔ FractionLess ds es ∨ ds = es ∧ first < second := by
  induction ds generalizing es with
  | nil =>
      cases es with
      | nil => simp [FractionLess]
      | cons e es =>
          have longer : FractionLess [] (e :: es) := by
            simp only [FractionLess, List.length_cons, List.length_nil]
            change 0 * _ < _ ∨ 0 * _ = _ ∧ _
            omega
          have before := dash_lt_digit (numeral' e List.mem_cons_self)
          exact iff_of_true (List.cons_lt_cons_iff.mpr (.inl before)) (.inl longer)
  | cons c ds ih =>
      cases es with
      | nil =>
          have shorter : ¬ FractionLess (c :: ds) [] := by
            simp only [FractionLess, List.length_cons, List.length_nil]
            change ¬ (_ < 0 * _ ∨ _ = 0 * _ ∧ _)
            omega
          have behind := dash_lt_digit (numeral c List.mem_cons_self)
          refine iff_of_false ?_ (by simp [shorter])
          rw [List.cons_append, List.nil_append, List.cons_lt_cons_iff]
          rintro (less | ⟨rfl, -⟩)
          · exact absurd less (Char.lt_asymm behind)
          · exact absurd behind (Char.lt_irrefl _)
      | cons e es =>
          rcases List.forall_mem_cons.mp numeral with ⟨digit, others⟩
          rcases List.forall_mem_cons.mp numeral' with ⟨digit', others'⟩
          have step := ih others others'
          rw [List.cons_append, List.cons_append, List.cons_lt_cons_iff, fractionLess_cons numeral numeral',
            digit_lt_digit_iff digit digit', step, List.cons_eq_cons, ← digit_eq_digit_iff digit digit']
          tauto

/-- The order of numbers in names: like decimal fractions with their digits, a shorter one first. -/
def Precedes (m n : Nat) : Prop := FractionLess (digits m) (digits n)

instance (m n : Nat) : Decidable (Precedes m n) := inferInstanceAs (Decidable (_ ∨ _))

theorem precedes_iff (m n : Nat) : Precedes m n ↔
    m * 10 ^ (digits n).length < n * 10 ^ (digits m).length ∨
      m * 10 ^ (digits n).length = n * 10 ^ (digits m).length ∧ (digits m).length < (digits n).length := by
  rw [Precedes, FractionLess, value_digits, value_digits]

theorem precedes_iff_lt {m n : Nat} (same : (digits m).length = (digits n).length) : Precedes m n ↔ m < n := by
  rw [precedes_iff, same, Nat.mul_lt_mul_right (by positivity)]
  omega

theorem not_precedes_next {m : Nat} (longer : (digits m).length < (digits (m + 1)).length) : ¬ Precedes m (m + 1) := by
  have positive := length_digits_pos m
  have within := lt_pow_length_digits m
  have beyond : 10 ^ (digits m).length ≤ m + 1 := by
    by_contra small
    have short := (length_digits_le_iff positive).mpr (Nat.not_le.mp small)
    omega
  have power : 10 ^ (digits m).length = m + 1 := by omega
  have ten : 10 ≤ m + 1 := by
    rw [← power]
    exact Nat.le_self_pow (by omega) 10
  have more : 10 * (m + 1) ≤ 10 ^ (digits (m + 1)).length := by
    have next := Nat.pow_le_pow_right (show 0 < 10 by decide) longer
    rwa [Nat.pow_succ', power] at next
  have behind : (m + 1) * (m + 1) < m * 10 ^ (digits (m + 1)).length := by
    calc (m + 1) * (m + 1) < 10 * m * (m + 1) := Nat.mul_lt_mul_of_pos_right (by omega) (by omega)
      _ = m * (10 * (m + 1)) := by ring
      _ ≤ m * 10 ^ (digits (m + 1)).length := Nat.mul_le_mul_left m more
  rw [precedes_iff, power]
  omega

theorem precedes_trichotomy (m n : Nat) : Precedes m n ∨ m = n ∨ Precedes n m := by
  rw [precedes_iff, precedes_iff]
  rcases Nat.lt_trichotomy (digits m).length (digits n).length with less | same | more
  · omega
  · rw [same, Nat.mul_lt_mul_right (by positivity), Nat.mul_lt_mul_right (by positivity)]
    omega
  · omega

theorem precedes_asymm {m n : Nat} (first : Precedes m n) : ¬ Precedes n m := by
  rw [precedes_iff] at *
  omega

end Numeral

namespace Slug

theorem mem_of_mem_trimDashes {s : List Char} {c : Char} (member : c ∈ trimDashes s) : c ∈ s := by
  have inner := (List.dropWhile_sublist _).subset (List.mem_reverse.mp member)
  exact (List.dropWhile_sublist _).subset (List.mem_reverse.mp inner)

theorem isSlugChar_of_mem_ofChar {c x : Char} (member : x ∈ ofChar c) : isSlugChar x := by
  unfold ofChar at member
  split at member
  · rw [List.mem_singleton.mp member]
    rfl
  split at member
  case isTrue capital =>
    rw [List.mem_singleton.mp member]
    simp [isSlugChar, Identifier.isLower_toLower capital]
  split at member
  · rw [List.mem_singleton.mp member]
    rfl
  split at member
  · rw [List.mem_singleton.mp member]
    rfl
  split at member
  case isTrue good => rwa [List.mem_singleton.mp member]
  case isFalse => cases member

theorem ofText_spec (name : String) : (ofText name).toList ≠ [] ∧ ∀ c ∈ (ofText name).toList, isSlugChar c := by
  unfold ofText
  cases kept : trimDashes (name.toList.flatMap ofChar) with
  | nil => exact ⟨by decide, List.all_eq_true.mp (by decide)⟩
  | cons c rest =>
      rw [String.toList_ofList]
      refine ⟨List.cons_ne_nil c rest, fun x member => ?_⟩
      rw [← kept] at member
      rcases List.mem_flatMap.mp (mem_of_mem_trimDashes member) with ⟨source, -, made⟩
      exact isSlugChar_of_mem_ofChar made

end Slug

namespace ScriptDirectory
open Numeral

theorem toList_fileName (number : Int) (slug : String) :
    (fileName number slug).toList = ofInt number ++ '-' :: (slug ++ ".sql").toList := by
  simp [fileName]

theorem fileName_injective {m n : Int} {slug other : String} (same : fileName m slug = fileName n other) :
    m = n ∧ slug = other := by
  have texts := congrArg String.toList same
  rw [toList_fileName, toList_fileName] at texts
  refine (ofInt_append_dash texts).imp_right fun ends => ?_
  rw [String.toList_append, String.toList_append] at ends
  exact String.toList_injective (List.append_cancel_right ends)

theorem fileName_lt_iff (m n : Nat) (slug other : String) :
    fileName m slug < fileName n other ↔ Precedes m n ∨ m = n ∧ slug ++ ".sql" < other ++ ".sql" := by
  have digit : ∀ k : Nat, ∀ c ∈ digits k, c.isDigit := fun k c => isDigit_of_mem_digits
  rw [String.lt_iff, String.lt_iff, toList_fileName, toList_fileName, ofInt_natCast, ofInt_natCast,
    append_dash_lt_iff (digit m) (digit n), Precedes]
  have number : digits m = digits n ↔ m = n :=
    ⟨fun same => by rw [← value_digits m, same, value_digits], congrArg digits⟩
  rw [number]

theorem fileName_le_iff (m n : Nat) (slug other : String) :
    fileName m slug ≤ fileName n other ↔ Precedes m n ∨ m = n ∧ slug ++ ".sql" ≤ other ++ ".sql" := by
  rw [← String.not_lt, fileName_lt_iff, ← String.not_lt]
  have irrefl : ∀ k, ¬ Precedes k k := fun k first => precedes_asymm first first
  rcases precedes_trichotomy m n with first | rfl | second
  · have different : n ≠ m := by
      rintro rfl
      exact irrefl n first
    simp [first, precedes_asymm first, different]
  · simp [irrefl]
  · have different : m ≠ n := by
      rintro rfl
      exact irrefl m second
    simp [second, precedes_asymm second, different]

theorem isScriptFile_fileName (number : Int) (slug : String) : isScriptFile (fileName number slug) := by
  rw [isScriptFile, List.isSuffixOf_iff_suffix, toList_fileName, String.toList_append]
  exact ⟨ofInt number ++ '-' :: slug.toList, by simp [ending]⟩

theorem dropWhile_number {number rest : List Char} (numeral : ∀ c ∈ number, isDecimalDigit c) :
    (number ++ '-' :: rest).dropWhile isDecimalDigit = '-' :: rest := by
  rw [List.dropWhile_append_of_pos numeral, List.dropWhile_cons_of_neg (by decide)]

/-- The slug of a name stands between the dash behind its digits and the ending; it is not empty and one line. -/
theorem slugOf?_eq_some_iff {name slug : String} :
    slugOf? name = some slug ↔ slug ≠ "" ∧ '\n' ∉ slug.toList ∧ ∃ number, number ≠ [] ∧
      (∀ c ∈ number, isDecimalDigit c) ∧ name.toList = number ++ '-' :: (slug.toList ++ ending) := by
  simp only [slugOf?]
  constructor
  · intro named
    split at named
    case isFalse => cases named
    case isTrue shorter =>
      split at named
      case h_2 => cases named
      case h_1 tail rest =>
        split at named
        case isFalse => cases named
        case isTrue proper =>
          simp only [Bool.and_eq_true, List.isSuffixOf_iff_suffix] at proper
          rcases proper with ⟨⟨⟨before, rfl⟩, filled⟩, oneLine⟩
          have taken : (before ++ ending).take ((before ++ ending).length - ending.length) = before := by
            rw [List.length_append, Nat.add_sub_cancel, List.take_left]
          rw [taken] at named filled oneLine
          obtain rfl := Option.some.inj named
          have parts := List.takeWhile_append_dropWhile (p := isDecimalDigit) (l := name.toList)
          rw [rest] at parts
          refine ⟨by simpa using filled, by simpa using oneLine, name.toList.takeWhile isDecimalDigit, ?_,
            List.all_eq_true.mp List.all_takeWhile, ?_⟩
          · intro undigited
            rw [← String.length_toList, ← parts, undigited, List.nil_append] at shorter
            exact Nat.lt_irrefl _ shorter
          · rw [String.toList_ofList, parts]
  · rintro ⟨filled, oneLine, number, nonempty, numeral, text⟩
    have shorter : ('-' :: (slug.toList ++ ending)).length < name.length := by
      have positive := List.length_pos_iff.mpr nonempty
      rw [← String.length_toList, text, List.length_append]
      omega
    have ends : ending.isSuffixOf (slug.toList ++ ending) = true :=
      List.isSuffixOf_iff_suffix.mpr (List.suffix_append _ _)
    rw [text, dropWhile_number numeral, if_pos shorter]
    simp [ends, oneLine, filled]

theorem isScriptFile_of_slugOf? {name slug : String} (named : slugOf? name = some slug) : isScriptFile name := by
  rcases slugOf?_eq_some_iff.mp named with ⟨-, -, number, -, -, text⟩
  rw [isScriptFile, List.isSuffixOf_iff_suffix, text]
  exact ((List.suffix_append slug.toList ending).trans (List.suffix_cons '-' _)).trans (List.suffix_append number _)

theorem slugOf?_fileName (number : Nat) (text : String) :
    slugOf? (fileName number (Slug.ofText text)) = some (Slug.ofText text) := by
  rcases Slug.ofText_spec text with ⟨filled, chars⟩
  refine slugOf?_eq_some_iff.mpr ⟨?_, fun broken => absurd (chars _ broken) (by decide), digits number,
    digits_ne_nil number, ?_, ?_⟩
  · rintro empty
    exact filled (by rw [empty]; rfl)
  · intro c member
    simp [isDecimalDigit, isDigit_of_mem_digits member]
  · rw [toList_fileName, String.toList_append]
    rfl

end ScriptDirectory
end SchemaMigration
