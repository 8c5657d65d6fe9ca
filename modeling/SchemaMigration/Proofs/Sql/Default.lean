import SchemaMigration.Proofs.Migration.Rendering
import SchemaMigration.Proofs.Number.Literal
import SchemaMigration.Proofs.Sql.Reading

namespace SchemaMigration

namespace Sql

def truthWords : Dialect → List String
  | .postgres => ["true", "false"]
  | .mysql | .sqlite => ["1", "0"]

/-- One literal and nothing else: a text in quotes that reads to its end, a word for a truth value, or a number. -/
inductive IsLiteral (d : Dialect) : String → Prop
  | text {literal value : String} (read : readLiteral? d literal = some (value, "")) : IsLiteral d literal
  | truth {literal : String} (word : literal ∈ truthWords d) : IsLiteral d literal
  | number {literal : String} (numeral : Numeral.IsLiteral literal.toList) : IsLiteral d literal

/-- No escape sequence takes a quote, be it one inside the text or the one behind it. -/
def leavesQuotes : List Char → Bool
  | [] => true
  | '\\' :: c :: rest => c != '\x27' && leavesQuotes rest
  | c :: rest => c != '\\' && leavesQuotes rest

section
variable {d : Dialect}

theorem readInside_quote_ne (s value : List Char) :
    readInside d ('\x27' :: (doubleQuotes s ++ ['\x27'])) ≠ some (value, []) := by
  induction s generalizing value with
  | nil =>
      intro found
      cases found
  | cons c s ih =>
      by_cases quote : c = '\x27'
      · subst quote
        rw [doubleQuotes_quote, List.cons_append, readInside_doubled, Ne, prepend_eq_some]
        intro given
        rcases given with ⟨inner, found, -⟩
        exact ih inner found
      · rw [doubleQuotes_other quote, List.cons_append, readInside_end d (by simpa using quote)]
        simp

theorem exists_readInside_iff (s : List Char) :
    (∃ value, readInside .mysql (doubleQuotes s ++ ['\x27']) = some (value, [])) ↔ leavesQuotes s = true := by
  fun_induction leavesQuotes s with
  | case1 => exact iff_of_true ⟨[], rfl⟩ rfl
  | case2 c s ih =>
      by_cases quote : c = '\x27'
      · subst quote
        rw [doubleQuotes_other (by decide), doubleQuotes_quote, List.cons_append, List.cons_append, readInside_escape,
          exists_prepend_iff]
        refine iff_of_false ?_ (by simp)
        intro given
        rcases given with ⟨value, found⟩
        exact readInside_quote_ne s value found
      · rw [readInside_escape_doubleQuotes quote, exists_prepend_iff, ih]
        simp [quote]
  | case3 c s notEscape ih =>
      by_cases backslash : c = '\\'
      · subst backslash
        cases s with
        | nil => exact iff_of_false nofun (by decide)
        | cons e s => exact absurd rfl (notEscape e s rfl)
      · rw [readInside_doubleQuotes_cons (fun _ => backslash), exists_prepend_iff, ih]
        simp [backslash]

end

/-- The literal of a text is one exactly if the quotes in it and the one behind it are left to the literal. -/
theorem exists_readLiteral?_iff (d : Dialect) (s : String) :
    (∃ value, readLiteral? d (literal s) = some (value, "")) ↔ (d = .mysql → leavesQuotes s.toList = true) := by
  by_cases mysql : d = .mysql
  · subst mysql
    rw [imp_iff_right rfl, ← exists_readInside_iff, readLiteral?]
    have quoted : (literal s).toList = '\x27' :: (doubleQuotes s.toList ++ ['\x27']) := by
      simp [literal, literalChars]
    simp only [quoted, readQuoted, Option.map_eq_some_iff]
    constructor
    · intro given
      rcases given with ⟨value, ⟨inner, rest⟩, found, read⟩
      obtain rfl : rest = [] := by simpa [String.ofList_eq] using (Prod.mk.inj read).2
      exact ⟨inner, found⟩
    · intro given
      rcases given with ⟨inner, found⟩
      exact ⟨String.ofList inner, (inner, []), found, rfl⟩
  · refine iff_of_true ⟨s, ?_⟩ fun same => absurd same mysql
    have survives : Survives d s := fun escapes => absurd ((hasEscapes_iff d).mp escapes) mysql
    simpa using (readLiteral?_eq_some_iff d (by decide) "").mpr ⟨survives, rfl⟩

section
variable {d : Dialect} {text : List Char} {whole : String}

theorem head_of_readLiteral? {found : String × String} (read : readLiteral? d whole = some found) :
    whole.toList.head? = some '\x27' := by
  unfold readLiteral? readQuoted at read
  split at read
  case h_1 rest starts => rw [starts, List.head?_cons]
  case h_2 => cases read

theorem head_of_isLiteral (numeral : Numeral.IsLiteral text) : text.head? ≠ some '\x27' := by
  rcases numeral.head with ⟨sign, signed, first, others, rfl, digit⟩
  simp only [Numeral.signs, List.mem_cons, List.not_mem_nil, or_false] at signed
  rcases signed with rfl | rfl | rfl
  case inl =>
    intro quote
    obtain rfl := Option.some.inj quote
    cases digit
  all_goals simp

theorem name_or_number_of_truth (word : whole ∈ truthWords d) :
    (whole = "true" ∨ whole = "false") ∨ Numeral.IsLiteral whole.toList := by
  have digit : ∀ n : Nat, Numeral.IsLiteral (Numeral.digits n) := fun n => Numeral.isLiteral_ofInt n
  cases d <;> simp only [truthWords, List.mem_cons, List.not_mem_nil, or_false] at word
  case postgres => exact .inl word
  case mysql | sqlite =>
    rcases word with rfl | rfl
    · exact .inr (digit 1)
    · exact .inr (digit 0)

theorem isLiteral_iff_of_quote (quote : whole.toList.head? = some '\x27') :
    IsLiteral d whole ↔ ∃ value, readLiteral? d whole = some (value, "") := by
  constructor
  · intro one
    cases one with
    | text read => exact ⟨_, read⟩
    | truth word =>
        rcases name_or_number_of_truth word with (rfl | rfl) | numeral
        · exact absurd quote (by decide)
        · exact absurd quote (by decide)
        · exact absurd quote (head_of_isLiteral numeral)
    | number numeral => exact absurd quote (head_of_isLiteral numeral)
  · intro given
    rcases given with ⟨value, read⟩
    exact .text read

theorem isLiteral_iff_of_head (heads : ∀ c ∈ whole.toList.head?, c ∉ ['\x27', 't', 'f']) :
    IsLiteral d whole ↔ Numeral.IsLiteral whole.toList := by
  constructor
  · intro one
    cases one with
    | text read => exact absurd (by simp) (heads _ (head_of_readLiteral? read))
    | truth word =>
        rcases name_or_number_of_truth word with (rfl | rfl) | numeral
        · exact absurd (by decide) (heads 't' rfl)
        · exact absurd (by decide) (heads 'f' rfl)
        · exact numeral
    | number numeral => exact numeral
  · exact .number

theorem isLiteral_ofList_iff (heads : ∀ c ∈ text.head?, c ∉ ['\x27', 't', 'f']) :
    IsLiteral d (String.ofList text) ↔ Numeral.IsLiteral text := by
  have letters : (String.ofList text).toList = text := String.toList_ofList
  rw [isLiteral_iff_of_head (by rwa [letters]), letters]

theorem isLiteral_literal_iff (d : Dialect) (s : String) :
    IsLiteral d (literal s) ↔ (d = .mysql → leavesQuotes s.toList = true) := by
  rw [isLiteral_iff_of_quote (by simp [literal, literalChars]), exists_readLiteral?_iff]

theorem doubleQuotes_eq_self (plain : ∀ c ∈ text, c ≠ '\x27') : doubleQuotes text = text := by
  induction text with
  | nil => rfl
  | cons c text ih =>
      rcases List.forall_mem_cons.mp plain with ⟨other, others⟩
      rw [doubleQuotes_other other, ih others]

theorem leavesQuotes_of_plain (plain : ∀ c ∈ text, c ≠ '\\') : leavesQuotes text = true := by
  fun_induction leavesQuotes text with
  | case1 => rfl
  | case2 => exact absurd rfl (plain _ List.mem_cons_self)
  | case3 c rest notEscape ih =>
      rcases List.forall_mem_cons.mp plain with ⟨other, others⟩
      simp [other, ih others]

theorem isLiteral_between (d : Dialect) (quotes : ∀ c ∈ text, c ≠ '\x27') (backslashes : ∀ c ∈ text, c ≠ '\\') :
    IsLiteral d ("'" ++ String.ofList text ++ "'") := by
  have same : "'" ++ String.ofList text ++ "'" = literal (String.ofList text) := by
    rw [← String.toList_inj]
    simp [literal, literalChars, doubleQuotes_eq_self quotes]
  rw [same, isLiteral_literal_iff]
  intro _
  rw [String.toList_ofList]
  exact leavesQuotes_of_plain backslashes

end

def dateMarks : List Char := ['-', 'T', ':', '.', 'Z']

theorem isLiteral_date (d : Dialect) {text : List Char} (shown : ∀ c ∈ text, c.isDigit ∨ c ∈ dateMarks) :
    IsLiteral d ("'" ++ String.ofList text ++ "'") := by
  have other : ∀ mark ∈ ['\x27', '\\'], ∀ c ∈ text, c ≠ mark := by
    intro mark listed c member same
    subst same
    simp only [List.mem_cons, List.not_mem_nil, or_false] at listed
    rcases listed with rfl | rfl <;> exact absurd (shown _ member) (by decide)
  exact isLiteral_between d (other _ (by decide)) (other _ (by decide))

end Sql

section
open Sql Calendar

theorem Numeral.padded_shown (width n : Nat) : ∀ c ∈ Numeral.padded width n, c.isDigit ∨ c ∈ dateMarks :=
  fun _ member => .inl (isDigit_of_mem_padded member)

theorem Date.text_shown (day : Date) : ∀ c ∈ day.text, c.isDigit ∨ c ∈ dateMarks := by
  have mark : '-'.isDigit ∨ '-' ∈ dateMarks := .inr (by decide)
  simp only [Date.text, List.forall_mem_append, List.forall_mem_cons]
  exact ⟨⟨Numeral.padded_shown 4 _, mark, Numeral.padded_shown 2 _⟩, mark, Numeral.padded_shown 2 _⟩

theorem Calendar.clockText_shown (clock : Nat) : ∀ c ∈ clockText clock, c.isDigit ∨ c ∈ dateMarks := by
  have mark : ':'.isDigit ∨ ':' ∈ dateMarks := .inr (by decide)
  simp only [clockText, List.forall_mem_append, List.forall_mem_cons]
  exact ⟨⟨Numeral.padded_shown 2 _, mark, Numeral.padded_shown 2 _⟩, mark, Numeral.padded_shown 2 _⟩

theorem DateTime.toMillis_shown (t : DateTime) : ∀ c ∈ t.toMillis, c.isDigit ∨ c ∈ dateMarks := by
  simp only [DateTime.toMillis, millisText, List.forall_mem_append, List.forall_mem_cons]
  exact ⟨⟨t.date.text_shown, .inr (by decide), clockText_shown _⟩, .inr (by decide), Numeral.padded_shown 3 _⟩

theorem DateTime.sqlText_shown (t : DateTime) :
    ∀ c ∈ t.sqlText?.getD t.toMillis, c.isDigit ∨ c ∈ dateMarks := by
  have mark : 'Z'.isDigit ∨ 'Z' ∈ dateMarks := .inr (by decide)
  cases found : t.sqlText? with
  | none => exact t.toMillis_shown
  | some shown =>
      unfold DateTime.sqlText? at found
      split at found
      case h_1 =>
        obtain rfl := Option.some.inj found
        exact t.toMillis_shown
      case h_2 =>
        rcases Option.map_eq_some_iff.mp found with ⟨u, -, rfl⟩
        exact List.forall_mem_append.mpr ⟨u.toMillis_shown, by simpa using mark⟩

end

namespace Value

def HasLiteral (d : Dialect) : Value → Prop
  | .str s => d = .mysql → Sql.leavesQuotes s.toList = true
  | .float (.infinite _) | .float .nan | .decimal (.infinite _) | .decimal (.nan ..) => False
  | _ => True

instance (d : Dialect) : DecidablePred (HasLiteral d)
  | .str s => inferInstanceAs (Decidable (d = .mysql → Sql.leavesQuotes s.toList = true))
  | .float (.infinite _) | .float .nan | .decimal (.infinite _) | .decimal (.nan ..) => isFalse id
  | .float (.finite ..) | .decimal (.finite ..) | .null | .bool _ | .int _ | .date _ | .datetime _ | .list _ | .tuple _
  | .dict _ | .foreign _ => isTrue trivial

theorem isLiteral_float_iff (d : Dialect) (x : Double) :
    Sql.IsLiteral d (Sql.defaultText d (.float x)) ↔ (Value.float x).HasLiteral d := by
  have text : Sql.defaultText d (.float x) = String.ofList x.text := rfl
  rw [text]
  cases x with
  | finite negative place =>
      have numeral := (Double.isLiteral_text_iff (.finite negative place)).mpr ⟨_, _, rfl⟩
      exact iff_of_true (.number (by rwa [String.toList_ofList])) trivial
  | infinite negative =>
      have heads : ∀ c ∈ (Double.infinite negative).text.head?, c ∉ ['\x27', 't', 'f'] := by
        cases negative <;> simp [Double.text]
      rw [Sql.isLiteral_ofList_iff heads, Double.isLiteral_text_iff]
      exact iff_of_false (by simp) id
  | nan =>
      have heads : ∀ c ∈ Double.nan.text.head?, c ∉ ['\x27', 't', 'f'] := by simp [Double.text]
      rw [Sql.isLiteral_ofList_iff heads, Double.isLiteral_text_iff]
      exact iff_of_false (by simp) id

theorem isLiteral_decimal_iff (d : Dialect) (x : Decimal) :
    Sql.IsLiteral d (Sql.defaultText d (.decimal x)) ↔ (Value.decimal x).HasLiteral d := by
  have text : Sql.defaultText d (.decimal x) = String.ofList x.text := rfl
  rw [text]
  cases x with
  | finite negative coefficient exponent =>
      have numeral := Decimal.isLiteral_finite negative coefficient exponent
      exact iff_of_true (.number (by rwa [String.toList_ofList])) trivial
  | infinite negative =>
      have heads : ∀ c ∈ (Decimal.infinite negative).text.head?, c ∉ ['\x27', 't', 'f'] := by
        cases negative <;> simp [Decimal.text, Decimal.signText]
      rw [Sql.isLiteral_ofList_iff heads, Decimal.isLiteral_text_iff]
      exact iff_of_false (by simp) id
  | nan negative signaling payload =>
      have heads : ∀ c ∈ (Decimal.nan negative signaling payload).text.head?, c ∉ ['\x27', 't', 'f'] := by
        cases negative <;> cases signaling <;> simp [Decimal.text, Decimal.signText]
      rw [Sql.isLiteral_ofList_iff heads, Decimal.isLiteral_text_iff]
      exact iff_of_false (by simp) id

/-- A default is written as one literal unless it is a number without a numeral or a text that takes its last quote. -/
theorem isLiteral_defaultText_iff (d : Dialect) {v : Value} (single : v.IsSingle) (given : v ≠ .null) :
    Sql.IsLiteral d (Sql.defaultText d v) ↔ v.HasLiteral d := by
  cases v with
  | null => exact absurd rfl given
  | bool b => exact iff_of_true (.truth (by cases d <;> cases b <;> decide)) trivial
  | int n =>
      have text : (Sql.defaultText d (.int n)).toList = Numeral.ofInt n := String.toList_ofList
      exact iff_of_true (.number (text ▸ Numeral.isLiteral_ofInt n)) trivial
  | float x => exact isLiteral_float_iff d x
  | str s => exact Sql.isLiteral_literal_iff d s
  | decimal x => exact isLiteral_decimal_iff d x
  | date day => exact iff_of_true (Sql.isLiteral_date d day.text_shown) trivial
  | datetime t => exact iff_of_true (Sql.isLiteral_date d t.sqlText_shown) trivial
  | list | tuple | dict => exact absurd single.leaf (by simp [isLeaf])
  | foreign kind => exact absurd rfl (single.known kind)

theorem hasLiteral_primitiveDefault (d : Dialect) (v : Value) :
    (Inference.primitiveDefault v).HasLiteral d ↔ v.HasLiteral d := by
  cases v <;> rfl

end Value

namespace Sql

def IsDefaultClause (d : Dialect) (clause : String) : Prop :=
  ∃ literal, clause = "default " ++ literal ∧ IsLiteral d literal

end Sql

namespace Column
variable {d : Dialect} {c : Column}

theorem WellFormed.defaultClause?_eq (wellFormed : c.WellFormed) (d : Dialect) :
    Sql.defaultClause? d c =
      if c.defaultValue = .null then none else some ("default " ++ Sql.defaultText d c.defaultValue) := by
  unfold Sql.defaultClause?
  cases declared : c.hasDefault with
  | false => simp [wellFormed.default declared]
  | true => simp

theorem WellFormed.defaultClause?_eq_none_iff (wellFormed : c.WellFormed) (d : Dialect) :
    Sql.defaultClause? d c = none ↔ c.defaultValue = .null := by
  simp [wellFormed.defaultClause?_eq]

theorem WellFormed.isDefaultClause_iff (wellFormed : c.WellFormed) (typed : c.Typed) :
    (∀ clause ∈ Sql.defaultClause? d c, Sql.IsDefaultClause d clause) ↔ c.defaultValue.HasLiteral d := by
  rw [wellFormed.defaultClause?_eq]
  by_cases given : c.defaultValue = .null
  · simp [given, Value.HasLiteral]
  · simp [given, Sql.IsDefaultClause, Value.isLiteral_defaultText_iff d typed.default given]

end Column

namespace Plan

/--
A column of a built plan has no default clause exactly if it has no default, and the clause can be written exactly if
the default can. It is one literal exactly if the default is neither a number without a numeral nor, in MySQL, a text
in which a backslash takes a quote.
-/
theorem defaults_literal_iff {models : ModelSet} {d : Dialect} {p : Plan} (accepted : models.Accepted)
    (built : build models d = .ok p) :
    (∀ t ∈ p.tables, ∀ c ∈ t.columns,
      (Sql.defaultClause? d c = none ↔ c.defaultValue = .null) ∧
      (Sql.defaultFaults c = [] ↔ c.defaultValue.Renderable) ∧
      ((∀ clause ∈ Sql.defaultClause? d c, Sql.IsDefaultClause d clause) ↔ c.defaultValue.HasLiteral d)) ∧
    ((∀ t ∈ p.tables, ∀ c ∈ t.columns, ∀ clause ∈ Sql.defaultClause? d c, Sql.IsDefaultClause d clause) ↔
      ∀ entry ∈ models, ∀ a ∈ entry.2.attributes, a.2.default.HasLiteral d) := by
  have now : p.Built d := ⟨models, accepted, built⟩
  have column : ∀ t ∈ p.tables, ∀ c ∈ t.columns, c.WellFormed ∧ c.Typed :=
    fun t inPlan c inTable =>
      ⟨now.wellFormed_column inPlan inTable, (now.typed.tables t inPlan).columns c inTable⟩
  have clauses : ∀ t ∈ p.tables, ∀ c ∈ t.columns,
      ((∀ clause ∈ Sql.defaultClause? d c, Sql.IsDefaultClause d clause) ↔ c.defaultValue.HasLiteral d) :=
    fun t inPlan c inTable => (column t inPlan c inTable).1.isDefaultClause_iff (column t inPlan c inTable).2
  constructor
  · intro t inPlan c inTable
    rcases column t inPlan c inTable with ⟨wellFormed, typed⟩
    have written := wellFormed.defaultFaults_eq_nil_iff typed
    exact ⟨wellFormed.defaultClause?_eq_none_iff d, written, clauses t inPlan c inTable⟩
  · rw [forall₂_congr fun t inPlan => forall₂_congr fun c inTable => clauses t inPlan c inTable]
    rcases build_eq_ok_iff.mp built with ⟨-, rfl⟩
    rw [forall_default_buildWith _ _ _ (Value.HasLiteral d)]
    simp only [Value.hasLiteral_primitiveDefault]

def measuredSamples : ModelSet :=
  [("Sample", {
      name := "Sample"
      attributes := [("id", {}), ("note", { hasDefault := true, default := .str "it's \\_ \\% \\\\" }),
        ("count", { hasDefault := true, default := .int (-12) }),
        ("kept", { hasDefault := true, default := .bool true }),
        ("level", { hasDefault := true, default := .float (.ofPlace true 1) }),
        ("price", { hasDefault := true, default := .decimal (.finite false 5 (-9)) }),
        ("day", { hasDefault := true, default := .date ⟨2024, 2, 29, by decide⟩ }),
        ("taken", {
            hasDefault := true
            default := .datetime ⟨⟨2024, 2, 29, by decide⟩, ⟨45000000000, by decide⟩, some ahead⟩ }),
        ("tags", { hasDefault := true, default := .list [.str "new"] })] })]

theorem measuredSamples_literal : measuredSamples.Accepted ∧ ∃ p, build measuredSamples .mysql = .ok p ∧
    ∀ t ∈ p.tables, ∀ c ∈ t.columns, ∀ clause ∈ Sql.defaultClause? .mysql c, Sql.IsDefaultClause .mysql clause := by
  have accepted : measuredSamples.Accepted := by decide
  have built : build measuredSamples .mysql = .ok (buildWith (.ofModels measuredSamples) measuredSamples .mysql) :=
    build_eq_ok_iff.mpr ⟨by decide, rfl⟩
  exact ⟨accepted, _, built, (defaults_literal_iff accepted built).2.mpr (by decide +kernel)⟩

def blankReadings : ModelSet :=
  [("Reading", {
      name := "Reading"
      attributes := [("id", {}), ("level", { hasDefault := true, default := .float .nan })] })]

/-- They are accepted, and their level defaults to a bare name. -/
theorem blankReadings_not_literal : ¬ ∀ (models : ModelSet) (d : Dialect) (p : Plan), models.Accepted →
    build models d = .ok p → ∀ t ∈ p.tables, ∀ c ∈ t.columns, ∀ clause ∈ Sql.defaultClause? d c,
      Sql.IsDefaultClause d clause := by
  intro claimed
  have accepted : blankReadings.Accepted := by decide
  have built := build_postgresOf blankReadings (by decide)
  have now := postgresOf_built accepted (by decide)
  have blank : ∃ t ∈ (postgresOf blankReadings).tables, ∃ c ∈ t.columns, ¬ c.defaultValue.HasLiteral .postgres := by
    decide
  rcases blank with ⟨t, inPlan, c, inTable, blank⟩
  have literal := (now.wellFormed_column inPlan inTable).isDefaultClause_iff (d := .postgres)
    ((now.typed.tables t inPlan).columns c inTable)
  exact blank (literal.mp (claimed _ _ _ accepted built t inPlan c inTable))

end Plan
end SchemaMigration
