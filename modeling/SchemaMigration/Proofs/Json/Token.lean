import SchemaMigration.Proofs.Json.Number
import SchemaMigration.Proofs.Json.Text
import SchemaMigration.Proofs.Value.Stored

namespace SchemaMigration.Json

theorem ne_of_isDigit {d : Char} (digit : d.isDigit) :
    (d ≠ '[' ∧ d ≠ ']' ∧ d ≠ '\x7b' ∧ d ≠ '\x7d' ∧ d ≠ ',' ∧ d ≠ ':' ∧ d ≠ '"') ∧
      'n' ≠ d ∧ 't' ≠ d ∧ 'f' ≠ d ∧ 'N' ≠ d ∧ 'I' ≠ d ∧ '-' ≠ d ∧ d ≠ '-' := by
  refine ⟨⟨?_, ?_, ?_, ?_, ?_, ?_, ?_⟩, ?_, ?_, ?_, ?_, ?_, ?_, ?_⟩ <;>
    · rintro rfl
      revert digit
      decide

theorem step?_digit {d : Char} (digit : d.isDigit) (tail : List Char) :
    step? (d :: tail) = number? false (d :: tail) := by
  rcases ne_of_isDigit digit with ⟨⟨_, _, _, _, _, _, _⟩, _, _, _, _, _, _, _⟩
  simp_all [step?, word?, after?]

theorem step?_minus {d : Char} (digit : d.isDigit) (tail : List Char) :
    step? ('-' :: d :: tail) = number? true (d :: tail) := by
  have notI := (ne_of_isDigit digit).2.2.2.2.2.1
  simp [step?, word?, after?, notI]

theorem isDigit_of_number? {negative : Bool} {s : List Char} {read : Token × List Char}
    (found : number? negative s = some read) : ∃ d tail, s = d :: tail ∧ d.isDigit := by
  cases s with
  | nil => cases found
  | cons d tail =>
      refine ⟨d, tail, rfl, ?_⟩
      by_contra other
      have notZero : d ≠ '0' := by
        rintro rfl
        exact other rfl
      simp [number?, integerPart, Numeral.span, other, notZero] at found

theorem step?_of_number? {negative : Bool} {s : List Char} {read : Token × List Char}
    (found : number? negative s = some read) : step? ((if negative then ['-'] else []) ++ s) = some read := by
  rcases isDigit_of_number? found with ⟨d, tail, rfl, digit⟩
  cases negative with
  | true => exact (step?_minus digit tail).trans found
  | false => exact (step?_digit digit tail).trans found

section
variable {rest : List Char} (ends : EndsNumber rest)
include ends

theorem step?_ofInt {n : Int} (short : n.natAbs < Value.integerLimit) :
    step? (Numeral.ofInt n ++ rest) = some (.leaf (.int n), rest) := by
  have fits : ∀ m : Nat, m < Value.integerLimit → (Numeral.digits m).length ≤ digitLimit := by
    intro m less
    have limit : Value.integerLimit = tenTo digitLimit := rfl
    rw [limit, tenTo_eq] at less
    exact (Numeral.length_digits_le_iff (by decide)).mpr less
  cases n with
  | ofNat m =>
      have read := number?_int (isWhole_digits m) (fits m short) ends false
      rw [Numeral.value_digits, if_neg Bool.false_ne_true] at read
      exact step?_of_number? read
  | negSucc m =>
      have read := number?_int (isWhole_digits (m + 1)) (fits (m + 1) short) ends true
      rw [Numeral.value_digits, if_pos rfl] at read
      exact step?_of_number? read

theorem step?_floatText (x : Double) : step? (floatText x ++ rest) = some (.leaf (.float x), rest) := by
  cases x with
  | nan => rfl
  | infinite negative => cases negative <;> rfl
  | finite negative place =>
      have read := step?_of_number? (number?_magnitudeText place.isLt ends negative)
      rwa [← List.append_assoc] at read

theorem step?_leafText (layout : Layout) {v : Value} (leaf : v.isLeaf) (writable : faults v = []) :
    step? (leafText layout v ++ rest) = some (.leaf v.stored, rest) := by
  rw [Value.stored_of_isLeaf leaf]
  cases v with
  | null => rfl
  | bool b => cases b <;> rfl
  | int n =>
      rw [faults] at writable
      refine step?_ofInt ends ?_
      by_contra long
      rw [if_neg long] at writable
      cases writable
  | float x => exact step?_floatText ends x
  | str s => exact step?_stringText layout.asciiOnly s rest
  | date | datetime | decimal => exact step?_stringText layout.asciiOnly _ rest
  | foreign kind => cases writable
  | list | tuple | dict => cases leaf

end

/-- Reading a text from the start gives the tokens, up to the rest. -/
def Consumes (s : List Char) (found : List Token) (rest : List Char) : Prop :=
  ∀ fuel, s.length ≤ fuel → ∃ left, rest.length ≤ left ∧ tokensFrom fuel s = found ++ tokensFrom left rest

namespace Consumes
variable {s text rest : List Char} {found : List Token}

theorem refl (s : List Char) : Consumes s [] s := fun fuel enough => ⟨fuel, enough, rfl⟩

theorem trans {middle : List Char} {later : List Token} (first : Consumes s found middle)
    (second : Consumes middle later rest) : Consumes s (found ++ later) rest := by
  intro fuel enough
  rcases first fuel enough with ⟨left, still, same⟩
  rcases second left still with ⟨last, follows, more⟩
  exact ⟨last, follows, by rw [same, more, List.append_assoc]⟩

theorem blanks (blank : ∀ c ∈ text, isBlank c) (rest : List Char) : Consumes (text ++ rest) [] rest := by
  intro fuel enough
  have skipped : (text ++ rest).dropWhile isBlank = rest.dropWhile isBlank :=
    List.dropWhile_append_of_pos blank
  refine ⟨fuel, by rw [List.length_append] at enough; omega, ?_⟩
  cases fuel with
  | zero => rfl
  | succ fuel => rw [tokensFrom, tokensFrom, skipped, List.nil_append]

theorem token {token : Token} (nonempty : text ≠ []) (read : step? (text ++ rest) = some (token, rest)) :
    Consumes (text ++ rest) [token] rest := by
  cases text with
  | nil => exact absurd rfl nonempty
  | cons c more =>
      have shown : isBlank c = false := by
        by_contra blank
        simp only [isBlank, Bool.not_eq_false, Bool.or_eq_true, beq_iff_eq] at blank
        rcases blank with ((rfl | rfl) | rfl) | rfl <;> cases read
      intro fuel enough
      cases fuel with
      | zero => cases enough
      | succ fuel =>
          refine ⟨fuel, ?_, ?_⟩
          · simp only [List.length_append, List.length_cons] at enough
            omega
          · rw [tokensFrom, List.cons_append, List.dropWhile_cons_of_neg (by simp [shown])]
            simp only [← List.cons_append, read]
            rfl

end Consumes

/-- A layout that only adds blanks to the marks between items and after keys. -/
structure Layout.Readable (layout : Layout) : Prop where
  items : ∃ blanks, layout.itemSeparator = ',' :: blanks ∧ ∀ c ∈ blanks, isBlank c
  keys : ∃ blanks, layout.keySeparator = ':' :: blanks ∧ ∀ c ∈ blanks, isBlank c

theorem Layout.compact_readable : Layout.compact.Readable :=
  ⟨⟨[], rfl, List.forall_mem_nil _⟩, ⟨[], rfl, List.forall_mem_nil _⟩⟩

theorem Layout.indented_readable : Layout.indented.Readable :=
  ⟨⟨[], rfl, List.forall_mem_nil _⟩, ⟨[' '], rfl, List.forall_mem_singleton.mpr rfl⟩⟩

theorem isBlank_of_mem_lineBreak {layout : Layout} {level : Nat} {c : Char} (member : c ∈ layout.lineBreak level) :
    isBlank c := by
  unfold Layout.lineBreak at member
  split at member
  · cases member
  · rcases List.mem_cons.mp member with rfl | blank
    · rfl
    · rw [List.eq_of_mem_replicate blank]
      rfl

theorem EndsNumber.cons {c : Char} (other : c = ',' ∨ c = ']' ∨ c = '\x7d' ∨ isBlank c) (rest : List Char) :
    EndsNumber (c :: rest) := by
  intro d head
  simp only [isBlank, Bool.or_eq_true, beq_iff_eq] at other
  cases head
  rcases other with rfl | rfl | rfl | ((rfl | rfl) | rfl) | rfl <;> decide

theorem EndsNumber.blanks {blanks rest : List Char} (blank : ∀ c ∈ blanks, isBlank c) (ends : EndsNumber rest) :
    EndsNumber (blanks ++ rest) := by
  cases blanks with
  | nil => exact ends
  | cons c more => exact .cons (.inr (.inr (.inr (blank c List.mem_cons_self)))) _

def Reads (text : List Char) (found : List Token) : Prop :=
  ∀ rest, EndsNumber rest → Consumes (text ++ rest) found rest

theorem reads_intercalate {blanks : List Char} (blank : ∀ c ∈ blanks, isBlank c) {parts : List (List Char)}
    {found : List (List Token)} (each : List.Forall₂ Reads parts found) :
    Reads (List.intercalate (',' :: blanks) parts) (List.intercalate [.comma] found) := by
  induction each with
  | nil =>
      intro rest _
      exact .refl rest
  | @cons part tokens parts found first later ih =>
      cases later with
      | nil =>
          rw [List.intercalate_singleton, List.intercalate_singleton]
          exact first
      | cons second others =>
          rw [List.intercalate_cons_cons, List.intercalate_cons_cons, List.append_assoc, List.append_assoc]
          intro rest ends
          rw [List.append_assoc, List.append_assoc]
          refine (first _ (.cons (.inl rfl) _)).trans (.trans (.token (List.cons_ne_nil ',' []) rfl) ?_)
          rw [← List.nil_append (List.intercalate _ _)]
          exact (Consumes.blanks blank _).trans (ih rest ends)

def blockTokens (first last : Token) (parts : List (List Token)) : List Token :=
  first :: (List.intercalate [.comma] parts ++ [last])

theorem reads_block {layout : Layout} (readable : layout.Readable) (level : Nat) {first last : Char}
    {opening closing : Token} (opens : ∀ s, step? (first :: s) = some (opening, s))
    (closes : ∀ s, step? (last :: s) = some (closing, s)) (ends : ∀ s, EndsNumber (last :: s))
    {parts : List (List Char)} {found : List (List Token)} (each : List.Forall₂ Reads parts found) :
    Reads (block layout level first last parts) (blockTokens opening closing found) := by
  intro rest _
  have opened : ∀ s, Consumes (first :: s) [opening] s := fun s => .token (List.cons_ne_nil first []) (opens s)
  have closed : ∀ s, Consumes (last :: s) [closing] s := fun s => .token (List.cons_ne_nil last []) (closes s)
  cases each with
  | nil => exact (opened _).trans (closed rest)
  | @cons part tokens parts found first later =>
      rcases readable.items with ⟨blanks, separator, blank⟩
      have inner : ∀ c ∈ blanks ++ layout.lineBreak (level + 1), isBlank c := by
        intro c member
        rcases List.mem_append.mp member with before | line
        · exact blank c before
        · exact isBlank_of_mem_lineBreak line
      have outer : ∀ c ∈ layout.lineBreak level, isBlank c := fun c => isBlank_of_mem_lineBreak
      rw [block, if_neg (by simp), separator]
      simp only [List.cons_append, List.append_assoc, List.nil_append]
      refine (opened _).trans ?_
      refine (Consumes.blanks (fun c => isBlank_of_mem_lineBreak) _).trans ?_
      refine .trans (reads_intercalate inner (.cons first later) _ (EndsNumber.blanks outer (ends rest))) ?_
      exact (Consumes.blanks outer _).trans (closed rest)

mutual

/-- The tokens of a value: those of its parts between marks, or one alone. -/
def valueTokens : Value → List Token
  | .list items | .tuple items => blockTokens .listOpen .listClose (itemTokens items)
  | .dict entries => blockTokens .dictOpen .dictClose (entryTokens entries)
  | v => [.leaf v.stored]

def itemTokens : List Value → List (List Token)
  | [] => []
  | v :: rest => valueTokens v :: itemTokens rest

def entryTokens : List (String × Value) → List (List Token)
  | [] => []
  | (k, v) :: rest => (.leaf (.str k) :: .colon :: valueTokens v) :: entryTokens rest

end

theorem itemTokens_eq_map (items : List Value) : itemTokens items = items.map valueTokens := by
  induction items with
  | nil => rfl
  | cons v rest ih => rw [itemTokens, ih, List.map_cons]

def entryToken (e : String × Value) : List Token := .leaf (.str e.1) :: .colon :: valueTokens e.2

theorem entryTokens_eq_map (entries : List (String × Value)) : entryTokens entries = entries.map entryToken := by
  induction entries with
  | nil => rfl
  | cons e rest ih => rw [entryTokens, ih, List.map_cons, entryToken]

theorem itemTexts_eq_map (layout : Layout) (level : Nat) (items : List Value) :
    itemTexts layout level items = items.map (valueText layout level) := by
  induction items with
  | nil => rfl
  | cons v rest ih => rw [itemTexts, ih, List.map_cons]

theorem entryTexts_eq_map (layout : Layout) (level : Nat) (entries : List (String × Value)) :
    entryTexts layout level entries = entries.map fun e =>
      stringText layout.asciiOnly e.1.toList ++ layout.keySeparator ++ valueText layout level e.2 := by
  induction entries with
  | nil => rfl
  | cons e rest ih => rw [entryTexts, ih, List.map_cons]

theorem itemFaults_eq_nil_iff {items : List Value} : itemFaults items = [] ↔ ∀ v ∈ items, faults v = [] := by
  induction items with
  | nil => exact ⟨fun _ => List.forall_mem_nil _, fun _ => rfl⟩
  | cons v rest ih => rw [itemFaults, List.append_eq_nil_iff, List.forall_mem_cons, ih]

theorem entryFaults_eq_nil_iff {entries : List (String × Value)} :
    entryFaults entries = [] ↔ ∀ e ∈ entries, faults e.2 = [] := by
  induction entries with
  | nil => exact ⟨fun _ => List.forall_mem_nil _, fun _ => rfl⟩
  | cons e rest ih => rw [entryFaults, List.append_eq_nil_iff, List.forall_mem_cons, ih]

theorem leafText_ne_nil (layout : Layout) {v : Value} (leaf : v.isLeaf) (writable : faults v = []) :
    leafText layout v ≠ [] := by
  intro empty
  have last : EndsNumber [] := fun c head => by cases head
  have read := step?_leafText last layout leaf writable
  rw [empty] at read
  cases read

theorem valueText_of_isLeaf (layout : Layout) (level : Nat) {v : Value} (leaf : v.isLeaf) :
    valueText layout level v = leafText layout v := by
  cases v <;> first | rfl | cases leaf

theorem valueTokens_of_isLeaf {v : Value} (leaf : v.isLeaf) : valueTokens v = [.leaf v.stored] := by
  cases v <;> first | rfl | cases leaf

section
variable {layout : Layout} (readable : layout.Readable)
include readable

theorem reads_entry {text : List Char} {found : List Token} (reads : Reads text found) (k : String) :
    Reads (stringText layout.asciiOnly k.toList ++ layout.keySeparator ++ text) (.leaf (.str k) :: .colon :: found) := by
  rcases readable.keys with ⟨blanks, separator, blank⟩
  intro rest ends
  rw [separator, List.append_assoc, List.append_assoc]
  refine (Consumes.token (by simp [stringText]) (step?_stringText _ k _)).trans ?_
  refine (Consumes.token (List.cons_ne_nil ':' []) rfl).trans ?_
  rw [← List.nil_append found]
  exact (Consumes.blanks blank (text ++ rest)).trans (reads rest ends)

theorem reads_valueText (v : Value) : ∀ level, faults v = [] → Reads (valueText layout level v) (valueTokens v) := by
  induction v using Value.induct with
  | leaf v leaf =>
      intro level writable rest ends
      rw [valueText_of_isLeaf layout level leaf, valueTokens_of_isLeaf leaf]
      exact .token (leafText_ne_nil layout leaf writable) (step?_leafText ends layout leaf writable)
  | list items ih | tuple items ih =>
      intro level writable
      rw [faults, itemFaults_eq_nil_iff] at writable
      rw [valueText, valueTokens, itemTexts_eq_map, itemTokens_eq_map]
      apply reads_block readable level (fun _ => rfl) (fun _ => rfl) (.cons (.inr (.inl rfl)))
      rw [List.forall₂_map_left_iff, List.forall₂_map_right_iff, List.forall₂_same]
      exact fun v member => ih v member (level + 1) (writable v member)
  | dict entries ih =>
      intro level writable
      rw [faults, entryFaults_eq_nil_iff] at writable
      rw [valueText, valueTokens, entryTexts_eq_map, entryTokens_eq_map]
      apply reads_block readable level (fun _ => rfl) (fun _ => rfl) (.cons (.inr (.inr (.inl rfl))))
      rw [List.forall₂_map_left_iff, List.forall₂_map_right_iff, List.forall₂_same]
      exact fun e member => reads_entry readable (ih e member (level + 1) (writable e member)) e.1

theorem tokens_write {v : Value} (writable : faults v = []) {blanks : List Char} (blank : ∀ c ∈ blanks, isBlank c) :
    tokens ((write layout v).toList ++ blanks) = valueTokens v := by
  have last : EndsNumber [] := fun c head => by cases head
  have ends := EndsNumber.blanks blank last
  rw [List.append_nil] at ends
  have skipped := Consumes.blanks blank []
  rw [List.append_nil] at skipped
  have reads := (reads_valueText readable v 0 writable blanks ends).trans skipped
  rcases reads _ le_rfl with ⟨left, -, same⟩
  rw [write, String.toList_ofList, tokens, same]
  cases left <;> simp [tokensFrom]

end

end SchemaMigration.Json
