import SchemaMigration.Sql.Column
import Mathlib.Data.String.Basic
/-!
How databases read the literals of a statement. Inside a literal a doubled quote stands for one quote. Where a
backslash stands for itself, every literal reads as the text that it was written for, whatever follows it. Where a
backslash starts an escape sequence, a literal does so exactly if every backslash stands where it is kept.
-/
namespace SchemaMigration.Sql

/-- The dialect reads a backslash in a literal together with the character behind it. -/
def hasEscapes : Dialect → Bool
  | .mysql => true
  | .postgres | .sqlite => false

theorem hasEscapes_iff (d : Dialect) : hasEscapes d = true ↔ d = .mysql := by
  cases d <;> decide

/-- What a backslash and the character behind it stand for. Before the marks of patterns the backslash stays. -/
def unescape : Char → List Char
  | '0' => ['\x00']
  | 'b' => ['\x08']
  | 'n' => ['\n']
  | 'r' => ['\r']
  | 't' => ['\t']
  | 'Z' => ['\x1a']
  | '%' => ['\\', '%']
  | '_' => ['\\', '_']
  | c => [c]

def prepend (cs : List Char) (found : Option (List Char × List Char)) : Option (List Char × List Char) :=
  found.map fun (s, rest) => (cs ++ s, rest)

/-- The characters up to the quote that ends a literal, and what follows it. -/
def readInside (d : Dialect) : List Char → Option (List Char × List Char)
  | [] => none
  | '\x27' :: '\x27' :: rest => prepend ['\x27'] (readInside d rest)
  | '\x27' :: rest => some ([], rest)
  | '\\' :: c :: rest =>
    if hasEscapes d then prepend (unescape c) (readInside d rest) else prepend ['\\'] (readInside d (c :: rest))
  | c :: rest => prepend [c] (readInside d rest)

def readQuoted (d : Dialect) : List Char → Option (List Char × List Char)
  | '\x27' :: rest => readInside d rest
  | _ => none

def readLiteral? (d : Dialect) (text : String) : Option (String × String) :=
  (readQuoted d text.toList).map fun (s, rest) => (String.ofList s, String.ofList rest)

section
variable {d : Dialect} {c : Char} {cs s t rest value : List Char}

theorem prepend_eq_some {found : Option (List Char × List Char)} :
    prepend cs found = some (value, rest) ↔ ∃ s, found = some (s, rest) ∧ cs ++ s = value := by
  unfold prepend
  rcases found with _ | ⟨s, t⟩
  · simp
  · simp [and_comm]

theorem exists_prepend_iff {found : Option (List Char × List Char)} :
    (∃ value, prepend cs found = some (value, rest)) ↔ ∃ value, found = some (value, rest) := by
  simp only [prepend_eq_some]
  grind

theorem readInside_doubled (d : Dialect) (rest : List Char) :
    readInside d ('\x27' :: '\x27' :: rest) = prepend ['\x27'] (readInside d rest) := rfl

theorem readInside_end (d : Dialect) (apart : t.head? ≠ some '\x27') : readInside d ('\x27' :: t) = some ([], t) := by
  rw [readInside]
  intro rest same
  subst same
  exact apart rfl

theorem readInside_escape (rest : List Char) :
    readInside .mysql ('\\' :: c :: rest) = prepend (unescape c) (readInside .mysql rest) := rfl

theorem readInside_other (quote : c ≠ '\x27') (plain : hasEscapes d = true → c ≠ '\\') :
    readInside d (c :: rest) = prepend [c] (readInside d rest) := by
  rw [readInside.eq_def]
  grind

theorem length_lt_of_readInside (found : readInside d s = some (value, rest)) : rest.length < s.length := by
  fun_induction readInside d s generalizing value with
  | case1 => cases found
  | case3 =>
      cases found
      exact Nat.lt_succ_self _
  | case2 _ ih | case4 _ _ _ ih | case5 _ _ _ ih | case6 _ _ _ _ _ ih =>
      rcases prepend_eq_some.mp found with ⟨_, inner, -⟩
      have shorter := ih inner
      simp only [List.length_cons] at shorter ⊢
      omega

theorem length_lt_of_readQuoted (found : readQuoted d s = some (value, rest)) : rest.length < s.length := by
  unfold readQuoted at found
  split at found
  · exact Nat.lt_succ_of_lt (length_lt_of_readInside found)
  · cases found

end

/-- Literals with a comma and a space between them, and what follows the last one. -/
def readSeveral (d : Dialect) (s : List Char) : Option (List (List Char) × List Char) :=
  match _ : readQuoted d s with
  | none => none
  | some (value, ',' :: ' ' :: rest) => (readSeveral d rest).map fun (values, last) => (value :: values, last)
  | some (value, rest) => some ([value], rest)
termination_by s.length
decreasing_by
  have shorter := length_lt_of_readQuoted ‹readQuoted d s = _›
  simp only [List.length_cons] at shorter
  omega

/-- The texts of a list of literals at the front, which has none unless a quote comes first, and what follows it. -/
def readLiterals? (d : Dialect) (text : String) : Option (List String × String) :=
  if text.toList.head? = some '\x27' then
    (readSeveral d text.toList).map fun (values, rest) => (values.map String.ofList, String.ofList rest)
  else some ([], text)

/-- What may follow a list of literals: nothing that reads as more of it. -/
def EndsList (text : String) : Prop := text.toList.head? ≠ some '\x27' ∧ ¬ [',', ' '] <+: text.toList

/-- Every backslash stands before a mark of patterns. -/
def keepsBackslashes : List Char → Bool
  | [] => true
  | '\\' :: c :: rest => (c == '%' || c == '_') && keepsBackslashes rest
  | c :: rest => c != '\\' && keepsBackslashes rest

section
variable {d : Dialect} {c : Char} {s t rest value : List Char}

@[simp] theorem doubleQuotes_quote (s : List Char) :
    doubleQuotes ('\x27' :: s) = '\x27' :: '\x27' :: doubleQuotes s := rfl

@[simp] theorem doubleQuotes_other (other : c ≠ '\x27') (s : List Char) :
    doubleQuotes (c :: s) = c :: doubleQuotes s := by
  simp [doubleQuotes, other]

theorem readInside_doubleQuotes_cons (plain : hasEscapes d = true → c ≠ '\\') (s rest : List Char) :
    readInside d (doubleQuotes (c :: s) ++ rest) = prepend [c] (readInside d (doubleQuotes s ++ rest)) := by
  by_cases quote : c = '\x27'
  · subst quote
    exact readInside_doubled d _
  · rw [doubleQuotes_other quote, List.cons_append, readInside_other quote plain]

theorem readInside_doubleQuotes (standard : hasEscapes d = false) (apart : t.head? ≠ some '\x27') (s : List Char) :
    readInside d (doubleQuotes s ++ '\x27' :: t) = some (s, t) := by
  induction s with
  | nil => exact readInside_end d apart
  | cons c s ih =>
      rw [readInside_doubleQuotes_cons (by simp [standard]), ih]
      rfl

theorem unescape_other (plain : c ∉ ['\\', '%', '_']) : ∃ e, unescape c = [e] ∧ e ≠ '\\' := by
  unfold unescape
  split <;> simp_all

theorem replicate_append_cons (c : Char) (k : Nat) (s : List Char) :
    List.replicate k c ++ c :: s = c :: (List.replicate k c ++ s) := by
  rw [← List.singleton_append, ← List.append_assoc, ← List.replicate_succ', List.replicate_succ, List.cons_append]

theorem readInside_escape_doubleQuotes (other : c ≠ '\x27') (s rest : List Char) :
    readInside .mysql (doubleQuotes ('\\' :: c :: s) ++ rest) =
      prepend (unescape c) (readInside .mysql (doubleQuotes s ++ rest)) := by
  rw [doubleQuotes_other (by decide), doubleQuotes_other other]
  rfl

theorem readInside_escape_quote : readInside .mysql ('\\' :: '\x27' :: s) ≠ some ('\\' :: value, rest) := by
  rw [readInside_escape, Ne, prepend_eq_some]
  simp [unescape]

/--
With escape sequences a text is read as it is only if none of its backslashes gets lost, and never with more of them in
front. The statement is about any number of these, since each pair of backslashes leaves one more to be found in the
rest.
-/
theorem readInside_eq_some_iff (apart : t.head? ≠ some '\x27') (rest : List Char) (k : Nat) :
    readInside .mysql (doubleQuotes s ++ '\x27' :: t) = some (List.replicate k '\\' ++ s, rest) ↔
      k = 0 ∧ keepsBackslashes s = true ∧ rest = t := by
  fun_induction keepsBackslashes s generalizing k with
  | case1 =>
      have ends : readInside .mysql (doubleQuotes [] ++ '\x27' :: t) = some ([], t) := readInside_end _ apart
      rw [ends]
      cases k with
      | zero => simpa using eq_comm
      | succ => simp [List.replicate_succ]
  | case2 c s ih =>
      rw [replicate_append_cons]
      by_cases quote : c = '\x27'
      · subst quote
        rw [doubleQuotes_other (by decide), doubleQuotes_quote]
        exact iff_of_false readInside_escape_quote (by simp)
      · rw [readInside_escape_doubleQuotes quote, prepend_eq_some]
        by_cases known : c ∈ ['\\', '%', '_']
        · simp only [List.mem_cons, List.not_mem_nil, or_false] at known
          rcases known with rfl | mark
          · simpa [unescape, List.replicate_succ, replicate_append_cons] using ih (k + 1)
          · have stays : unescape c = ['\\', c] := by rcases mark with rfl | rfl <;> rfl
            cases k with
            | zero => simpa [stays, mark] using ih 0
            | succ => rcases mark with rfl | rfl <;> simp [stays, List.replicate_succ]
        · rcases unescape_other known with ⟨e, single, plain⟩
          have lost : c ≠ '%' ∧ c ≠ '_' := by simp_all
          simp [single, plain, lost]
  | case3 c s notEscape ih =>
      by_cases backslash : c = '\\'
      · subst backslash
        cases s with
        | nil =>
            rw [replicate_append_cons, doubleQuotes_other (by decide)]
            exact iff_of_false readInside_escape_quote (by simp)
        | cons e s => exact absurd rfl (notEscape e s rfl)
      · rw [readInside_doubleQuotes_cons (fun _ => backslash), prepend_eq_some]
        cases k with
        | zero => simpa [backslash] using ih 0
        | succ => simp [List.replicate_succ, backslash]

/-- No backslash of the text gets lost where its literal is read. -/
def Survives (d : Dialect) (s : String) : Prop := hasEscapes d = true → keepsBackslashes s.toList = true

instance (d : Dialect) (s : String) : Decidable (Survives d s) := inferInstanceAs (Decidable (_ → _))

theorem readQuoted_literal_iff (apart : t.head? ≠ some '\x27') (s : String) (rest : List Char) :
    readQuoted d ((literal s).toList ++ t) = some (s.toList, rest) ↔ Survives d s ∧ rest = t := by
  have quoted : (literal s).toList ++ t = '\x27' :: (doubleQuotes s.toList ++ '\x27' :: t) := by
    simp [literal, literalChars]
  rw [quoted, readQuoted]
  cases escapes : hasEscapes d with
  | false =>
      rw [readInside_doubleQuotes escapes apart]
      simpa [Survives, escapes] using eq_comm
  | true =>
      obtain rfl := (hasEscapes_iff d).mp escapes
      simpa [Survives, hasEscapes] using readInside_eq_some_iff apart rest 0

theorem readSeveral_eq_some_iff {values : List (List Char)} {last : List Char} :
    readSeveral d s = some (values, last) ↔ ∃ value rest, readQuoted d s = some (value, rest) ∧
      ((¬ [',', ' '] <+: rest ∧ values = [value] ∧ last = rest) ∨
        ∃ more others, rest = ',' :: ' ' :: more ∧ readSeveral d more = some (others, last) ∧
          values = value :: others) := by
  rw [readSeveral]
  split
  case h_1 nothing => simp [nothing]
  case h_2 value more found =>
      simp only [found, Option.map_eq_some_iff]
      grind
  case h_3 value rest single found =>
      have ends : ¬ [',', ' '] <+: rest := by
        intro continued
        rcases continued with ⟨more, rfl⟩
        exact single more rfl
      simp only [found]
      grind

theorem ne_nil_of_readSeveral {values : List (List Char)} {last : List Char}
    (found : readSeveral d s = some (values, last)) : values ≠ [] := by
  rcases readSeveral_eq_some_iff.mp found with ⟨_, _, -, ⟨-, rfl, -⟩ | ⟨_, _, -, -, rfl⟩⟩ <;> exact List.cons_ne_nil _ _

theorem literals_singleton (only : String) : literals [only] = literal only := String.intercalate_singleton

theorem literals_cons (first second : String) (others : List String) :
    (literals (first :: second :: others)).toList =
      (literal first).toList ++ ',' :: ' ' :: (literals (second :: others)).toList := by
  simp [literals, String.intercalate_cons_cons]

theorem readSeveral_literals_iff {last : List Char} (apart : last.head? ≠ some '\x27') (ends : ¬ [',', ' '] <+: last)
    (first : String) (others : List String) :
    readSeveral d ((literals (first :: others)).toList ++ last) = some ((first :: others).map String.toList, last) ↔
      ∀ s ∈ first :: others, Survives d s := by
  induction others generalizing first with
  | nil =>
      rw [literals_singleton, readSeveral_eq_some_iff, List.forall_mem_singleton]
      constructor
      · intro given
        rcases given with ⟨value, rest, found, ⟨-, single, rfl⟩ | ⟨more, others, -, read, several⟩⟩
        · obtain rfl := (List.cons.inj single).1
          exact ((readQuoted_literal_iff apart first _).mp found).1
        · exact absurd (List.cons.inj several).2.symm (ne_nil_of_readSeveral read)
      · intro survives
        exact ⟨first.toList, last, (readQuoted_literal_iff apart first _).mpr ⟨survives, rfl⟩, .inl ⟨ends, rfl, rfl⟩⟩
  | cons second others ih =>
      have inner : (',' :: ' ' :: ((literals (second :: others)).toList ++ last)).head? ≠ some '\x27' := by simp
      rw [literals_cons, List.append_assoc, List.cons_append, List.cons_append, readSeveral_eq_some_iff,
        List.forall_mem_cons, ← ih second]
      constructor
      · intro given
        rcases given with ⟨value, rest, found, ⟨-, single, -⟩ | ⟨more, more', follows, read, several⟩⟩
        · cases (List.cons.inj single).2
        · obtain ⟨rfl, rfl⟩ := List.cons.inj several
          rcases (readQuoted_literal_iff inner first _).mp found with ⟨survives, rest⟩
          obtain rfl := (List.cons.inj (List.cons.inj (rest.symm.trans follows)).2).2
          exact ⟨survives, read⟩
      · intro given
        rcases given with ⟨survives, read⟩
        exact ⟨first.toList, _, (readQuoted_literal_iff inner first _).mpr ⟨survives, rfl⟩, .inr ⟨_, _, rfl, read, rfl⟩⟩

end

section
variable (d : Dialect)

theorem readLiteral?_eq_some_iff {s t : String} (apart : t.toList.head? ≠ some '\x27') (rest : String) :
    readLiteral? d (literal s ++ t) = some (s, rest) ↔ Survives d s ∧ rest = t := by
  have read := readQuoted_literal_iff (d := d) apart s rest.toList
  rw [String.toList_inj] at read
  rw [← read, readLiteral?, String.toList_append, Option.map_eq_some_iff]
  simp [String.ofList_eq]

theorem map_ofList_eq_iff {found : List (List Char)} {values : List String} :
    found.map String.ofList = values ↔ found = values.map String.toList := by
  constructor
  · intro same
    subst same
    simp [Function.comp_def]
  · intro same
    subst same
    simp [Function.comp_def]

theorem readLiterals?_eq_some_iff (values : List String) {rest : String} (ends : EndsList rest) :
    readLiterals? d (literals values ++ rest) = some (values, rest) ↔ ∀ s ∈ values, Survives d s := by
  cases values with
  | nil =>
      have empty : literals [] ++ rest = rest := String.empty_append
      simp [empty, readLiterals?, ends.1]
  | cons first others =>
      have quote : (literals (first :: others) ++ rest).toList.head? = some '\x27' := by
        cases others <;> simp [literals_singleton, literals_cons, literal, literalChars]
      rw [readLiterals?, if_pos quote, String.toList_append, ← readSeveral_literals_iff ends.1 ends.2,
        Option.map_eq_some_iff]
      simp [String.ofList_eq, map_ofList_eq_iff]

end

/--
Where a backslash stands for itself, a list of literals reads as the texts that it was written for, and a literal ends
with its own last quote: no text breaks out of its literal, whatever it is made of.
-/
theorem literals_read_back {d : Dialect} (standard : d ≠ .mysql) :
    (∀ values : List String, readLiterals? d (literals values) = some (values, "")) ∧
    (∀ (values : List String) (rest : String), EndsList rest →
      readLiterals? d (literals values ++ rest) = some (values, rest)) ∧
    ∀ s t : String, t.toList.head? ≠ some '\x27' → readLiteral? d (literal s ++ t) = some (s, t) := by
  have survives : ∀ s, Survives d s := fun s escapes => absurd ((hasEscapes_iff d).mp escapes) standard
  have several : ∀ (values : List String) (rest : String), EndsList rest →
      readLiterals? d (literals values ++ rest) = some (values, rest) :=
    fun values rest ends => (readLiterals?_eq_some_iff d values ends).mpr fun s _ => survives s
  refine ⟨fun values => ?_, several, fun s t apart => (readLiteral?_eq_some_iff d apart t).mpr ⟨survives s, rfl⟩⟩
  have nothing : EndsList "" := ⟨by decide, by decide⟩
  simpa using several values "" nothing

theorem marks_read_back : Dialect.sqlite ≠ .mysql ∧ EndsList "))" ∧
    readLiterals? .sqlite (literals ["it's", "', '", "\\", ""] ++ "))") = some (["it's", "', '", "\\", ""], "))") ∧
    readLiteral? .sqlite (literal "', 'b" ++ ", 'c'") = some ("', 'b", ", 'c'") := by
  have ends : EndsList "))" := ⟨by decide, by decide⟩
  rcases literals_read_back (show Dialect.sqlite ≠ .mysql by decide) with ⟨-, several, one⟩
  exact ⟨by decide, ends, several _ _ ends, one _ _ (by decide)⟩

/--
Where a backslash starts an escape sequence, the literal of a text reads as that text and ends where it was to end
exactly if every backslash of the text stands before a mark of patterns, as a default and as a value of an enum.
-/
theorem literals_read_back_iff (s : String) {t : String} (apart : t.toList.head? ≠ some '\x27')
    (values : List String) {rest : String} (ends : EndsList rest) :
    (readLiteral? .mysql (defaultText .mysql (.str s) ++ t) = some (s, t) ↔ keepsBackslashes s.toList = true) ∧
    (readLiterals? .mysql (literals values ++ rest) = some (values, rest) ↔
      ∀ v ∈ values, keepsBackslashes v.toList = true) := by
  have survives : ∀ s, Survives .mysql s ↔ keepsBackslashes s.toList = true := fun s => imp_iff_right rfl
  constructor
  · rw [defaultText, readLiteral?_eq_some_iff .mysql apart, survives, and_iff_left rfl]
  · rw [readLiterals?_eq_some_iff .mysql values ends]
    exact forall₂_congr fun v _ => survives v

theorem percentages_read_back : "".toList.head? ≠ some '\x27' ∧ EndsList ")" ∧
    readLiteral? .mysql (defaultText .mysql (.str "100\\% it's") ++ "") = some ("100\\% it's", "") ∧
    readLiterals? .mysql (literals ["\\%", "a\\_b"] ++ ")") = some (["\\%", "a\\_b"], ")") := by
  have apart : "".toList.head? ≠ some '\x27' := by decide
  have ends : EndsList ")" := ⟨by decide, by decide⟩
  rcases literals_read_back_iff "100\\% it's" apart ["\\%", "a\\_b"] ends with ⟨one, several⟩
  exact ⟨apart, ends, one.mpr (by decide), several.mpr (by decide)⟩

/-- The quote that is to end the literal of a backslash is taken for a part of it. -/
theorem backslash_breaks_out : ¬ ∀ s t : String, t.toList.head? ≠ some '\x27' →
    readLiteral? .mysql (defaultText .mysql (.str s) ++ t) = some (s, t) := by
  intro claimed
  exact absurd (claimed "\\" "" (by decide)) (by decide)

end SchemaMigration.Sql
