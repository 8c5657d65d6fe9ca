import SchemaMigration.Text.ControlSequence
import Mathlib.Data.List.Infix

namespace SchemaMigration.Text

def IsSequence (sequence : List Char) : Prop :=
  ∃ parameters intermediates final, sequence = '\x1b' :: '[' :: (parameters ++ (intermediates ++ [final])) ∧
    (∀ c ∈ parameters, isParameter c) ∧ (∀ c ∈ intermediates, isIntermediate c) ∧ isFinal final

def HasControls (s : String) : Prop := ∃ sequence, IsSequence sequence ∧ sequence <:+: s.toList

theorem isParameter_eq_false_of_isIntermediate {c : Char} (between : isIntermediate c) : isParameter c = false := by
  simp only [isIntermediate, isBetween, Bool.and_eq_true, decide_eq_true_eq] at between
  rw [isParameter, isBetween, Bool.and_eq_false_iff, decide_eq_false_iff_not]
  exact .inl fun lower => absurd (Char.le_trans lower between.2) (by decide)

theorem isParameter_eq_false_of_isFinal {c : Char} (final : isFinal c) : isParameter c = false := by
  simp only [isFinal, isBetween, Bool.and_eq_true, decide_eq_true_eq] at final
  rw [isParameter, isBetween, Bool.and_eq_false_iff, decide_eq_false_iff_not (p := c ≤ _)]
  exact .inr fun upper => absurd (Char.le_trans final.1 upper) (by decide)

theorem isIntermediate_eq_false_of_isFinal {c : Char} (final : isFinal c) : isIntermediate c = false := by
  simp only [isFinal, isBetween, Bool.and_eq_true, decide_eq_true_eq] at final
  rw [isIntermediate, isBetween, Bool.and_eq_false_iff, decide_eq_false_iff_not (p := c ≤ _)]
  exact .inr fun upper => absurd (Char.le_trans final.1 upper) (by decide)

section
variable {p : Char → Bool} {front back : List Char} {stop : Char}

theorem drop_length_takeWhile (p : Char → Bool) (cs : List Char) : cs.drop (cs.takeWhile p).length = cs.dropWhile p := by
  induction cs with
  | nil => rfl
  | cons c rest ih => cases taken : p c <;> simp [taken, ih]

theorem takeWhile_append_stop (refused : p stop = false) : (front ++ stop :: back).takeWhile p = front.takeWhile p := by
  induction front with
  | nil => simp [refused]
  | cons c rest ih => cases taken : p c <;> simp [taken, ih]

theorem dropWhile_append_stop (refused : p stop = false) :
    (front ++ stop :: back).dropWhile p = front.dropWhile p ++ stop :: back := by
  induction front with
  | nil => simp [refused]
  | cons c rest ih => cases taken : p c <;> simp [taken, ih]

end

theorem sequenceLength_bracket (body : List Char) :
    sequenceLength ('\x1b' :: '[' :: body) =
      match (body.dropWhile isParameter).dropWhile isIntermediate with
      | c :: _ =>
        if isFinal c then (body.takeWhile isParameter).length + ((body.dropWhile isParameter).takeWhile isIntermediate).length + 3
        else 0
      | [] => 0 := by
  have parameters := drop_length_takeWhile isParameter body
  have intermediates := drop_length_takeWhile isIntermediate (body.dropWhile isParameter)
  have next : body[(body.takeWhile isParameter).length + ((body.dropWhile isParameter).takeWhile isIntermediate).length]? =
      ((body.dropWhile isParameter).dropWhile isIntermediate).head? := by
    rw [← intermediates, ← parameters, List.drop_drop, List.head?_drop]
  rw [sequenceLength]
  simp only [parameters, next]
  cases (body.dropWhile isParameter).dropWhile isIntermediate <;> rfl

theorem bracket_of_sequenceLength {cs : List Char} (positive : sequenceLength cs ≠ 0) : ∃ body, cs = '\x1b' :: '[' :: body := by
  unfold sequenceLength at positive
  split at positive
  case h_1 body => exact ⟨body, rfl⟩
  case h_2 => exact absurd rfl positive

theorem IsSequence.sequenceLength_append {sequence : List Char} (control : IsSequence sequence) (rest : List Char) :
    sequenceLength (sequence ++ rest) = sequence.length := by
  rcases control with ⟨parameters, intermediates, final, rfl, first, second, last⟩
  have notFirst := isParameter_eq_false_of_isFinal last
  have notSecond := isIntermediate_eq_false_of_isFinal last
  have others : (intermediates ++ final :: rest).takeWhile isParameter = [] ∧
      (intermediates ++ final :: rest).dropWhile isParameter = intermediates ++ final :: rest := by
    cases intermediates with
    | nil => simp [notFirst]
    | cons c more => simp [isParameter_eq_false_of_isIntermediate (second c List.mem_cons_self)]
  simp only [List.cons_append, List.append_assoc, List.nil_append]
  rw [sequenceLength_bracket, List.dropWhile_append_of_pos first, List.takeWhile_append_of_pos first, others.1, others.2,
    List.dropWhile_append_of_pos second, List.takeWhile_append_of_pos second, List.dropWhile_cons_of_neg (by simp [notSecond]),
    List.takeWhile_cons_of_neg (by simp [notSecond])]
  simp [last]
  omega

theorem isSequence_of_sequenceLength {cs : List Char} (positive : sequenceLength cs ≠ 0) :
    ∃ sequence rest, IsSequence sequence ∧ cs = sequence ++ rest := by
  rcases bracket_of_sequenceLength positive with ⟨body, rfl⟩
  rw [sequenceLength_bracket] at positive
  have whole : body = body.takeWhile isParameter ++ ((body.dropWhile isParameter).takeWhile isIntermediate ++
      (body.dropWhile isParameter).dropWhile isIntermediate) := by
    rw [List.takeWhile_append_dropWhile, List.takeWhile_append_dropWhile]
  split at positive
  case h_1 final rest left =>
    split at positive
    case isTrue last =>
      refine ⟨_, rest, ⟨body.takeWhile isParameter, (body.dropWhile isParameter).takeWhile isIntermediate, final, rfl,
        List.all_eq_true.mp List.all_takeWhile, List.all_eq_true.mp List.all_takeWhile, last⟩, ?_⟩
      rw [left] at whole
      simpa using whole
    case isFalse => exact absurd rfl positive
  case h_2 => exact absurd rfl positive

theorem sequenceLength_pos_iff (cs : List Char) :
    sequenceLength cs ≠ 0 ↔ ∃ sequence, IsSequence sequence ∧ sequence <+: cs := by
  constructor
  · intro positive
    rcases isSequence_of_sequenceLength positive with ⟨sequence, rest, control, rfl⟩
    exact ⟨sequence, control, List.prefix_append sequence rest⟩
  · intro given
    rcases given with ⟨sequence, control, rest, rfl⟩
    rw [control.sequenceLength_append]
    rcases control with ⟨_, _, _, rfl, -⟩
    exact Nat.succ_ne_zero _

theorem sequenceLength_le (cs : List Char) : sequenceLength cs ≤ cs.length := by
  by_cases plain : sequenceLength cs = 0
  · omega
  · rcases isSequence_of_sequenceLength plain with ⟨sequence, rest, control, rfl⟩
    rw [control.sequenceLength_append, List.length_append]
    omega

theorem length_showable_le (skipped : Nat) (cs : List Char) : (showable skipped cs).length ≤ cs.length := by
  induction cs generalizing skipped with
  | nil => exact Nat.le_refl 0
  | cons c rest ih =>
      unfold showable
      split
      case h_1 => exact Nat.le_succ_of_le (ih _)
      case h_2 =>
        split
        · exact Nat.succ_le_succ (ih 0)
        · exact Nat.le_succ_of_le (ih _)

theorem showable_eq_self_iff (cs : List Char) :
    showable 0 cs = cs ↔ ∀ sequence, IsSequence sequence → ¬ sequence <:+: cs := by
  induction cs with
  | nil =>
      refine iff_of_true rfl fun sequence control inside => ?_
      rcases control with ⟨_, _, _, rfl, -⟩
      exact absurd (List.infix_nil.mp inside) (List.cons_ne_nil _ _)
  | cons c rest ih =>
      have here := sequenceLength_pos_iff (c :: rest)
      simp only [List.infix_cons_iff, not_or, imp_and, forall_and, ← ih]
      rw [showable]
      cases length : sequenceLength (c :: rest) with
      | zero =>
          have unled : ∀ sequence, IsSequence sequence → ¬ sequence <+: c :: rest := by
            intro sequence control start
            exact here.mpr ⟨sequence, control, start⟩ length
          have others : (∀ sequence, IsSequence sequence → ¬ sequence <+: c :: rest) ↔ True := iff_true_intro unled
          simp only [others, true_and, List.cons.injEq]
      | succ n =>
          have shorter : showable n rest ≠ c :: rest := by
            intro same
            have bound := length_showable_le n rest
            rw [same, List.length_cons] at bound
            omega
          rcases here.mp (by simp [length]) with ⟨sequence, control, start⟩
          exact iff_of_false shorter fun given => given.1 sequence control start

theorem withoutControls_eq_self_iff (s : String) : withoutControls s = s ↔ ¬ HasControls s := by
  rw [withoutControls, ← String.toList_inj, String.toList_ofList, showable_eq_self_iff]
  simp [HasControls]

/-! Lines. -/

theorem sequenceLength_append_newline (front back : List Char) :
    sequenceLength (front ++ '\n' :: back) = sequenceLength front := by
  by_cases bracket : ∃ body, front = '\x1b' :: '[' :: body
  case pos =>
    rcases bracket with ⟨body, rfl⟩
    rw [List.cons_append, List.cons_append, sequenceLength_bracket, sequenceLength_bracket,
      dropWhile_append_stop (by decide), takeWhile_append_stop (by decide), takeWhile_append_stop (by decide),
      dropWhile_append_stop (by decide)]
    cases (body.dropWhile isParameter).dropWhile isIntermediate <;> rfl
  case neg =>
    have plain : sequenceLength front = 0 := by
      by_contra positive
      exact bracket (bracket_of_sequenceLength positive)
    rw [plain]
    by_contra positive
    rcases bracket_of_sequenceLength positive with ⟨body, same⟩
    match front with
    | [] => cases same
    | [c] => cases same
    | c :: d :: rest =>
        cases same
        exact bracket ⟨rest, rfl⟩

theorem showable_append_newline (skipped : Nat) (front back : List Char) (inside : skipped ≤ front.length) :
    showable skipped (front ++ '\n' :: back) = showable skipped front ++ '\n' :: showable 0 back := by
  induction front generalizing skipped with
  | nil =>
      obtain rfl := Nat.le_zero.mp inside
      rfl
  | cons c rest ih =>
      have within := sequenceLength_le (c :: rest)
      have line := sequenceLength_append_newline (c :: rest) back
      rw [List.cons_append] at line ⊢
      rw [List.length_cons] at inside within
      cases skipped with
      | succ more => exact ih more (by omega)
      | zero =>
          rw [showable, showable, line]
          cases length : sequenceLength (c :: rest) with
          | zero => exact congrArg (c :: ·) (ih 0 (Nat.zero_le _))
          | succ n => exact ih n (by omega)

theorem withoutControls_intercalate (lines : List String) :
    withoutControls (String.intercalate "\n" lines) = String.intercalate "\n" (lines.map withoutControls) := by
  have shown : ∀ s, (withoutControls s).toList = showable 0 s.toList := fun s => String.toList_ofList
  rw [← String.toList_inj, shown, String.toList_intercalate, String.toList_intercalate]
  induction lines with
  | nil => rfl
  | cons first rest ih =>
      cases rest with
      | nil => simp [shown]
      | cons second others =>
          have newline : ∀ back, "\n".toList ++ back = '\n' :: back := fun back => rfl
          simp only [List.map_cons, List.intercalate_cons_cons, List.append_assoc, newline] at ih ⊢
          rw [showable_append_newline 0 first.toList _ (Nat.zero_le _), ih, ← shown]

theorem showable_append_newline_eq_self_iff (front back : List Char) :
    showable 0 (front ++ '\n' :: back) = front ++ '\n' :: back ↔ showable 0 front = front ∧ showable 0 back = back := by
  rw [showable_append_newline 0 front back (Nat.zero_le _)]
  constructor
  · intro same
    have first := length_showable_le 0 front
    have second := length_showable_le 0 back
    have lengths := congrArg List.length same
    simp only [List.length_append, List.length_cons] at lengths
    rcases List.append_inj same (by omega) with ⟨fronts, backs⟩
    exact ⟨fronts, (List.cons.inj backs).2⟩
  · intro both
    rw [both.1, both.2]

theorem withoutControls_intercalate_eq_self_iff (lines : List String) :
    withoutControls (String.intercalate "\n" lines) = String.intercalate "\n" lines ↔ ∀ line ∈ lines, ¬ HasControls line := by
  have shown : ∀ s, ¬ HasControls s ↔ showable 0 s.toList = s.toList := by
    intro s
    rw [← withoutControls_eq_self_iff, withoutControls, ← String.toList_inj, String.toList_ofList]
  rw [withoutControls_eq_self_iff, shown, String.toList_intercalate]
  induction lines with
  | nil => exact iff_of_true rfl (by simp)
  | cons first rest ih =>
      cases rest with
      | nil => simp [shown]
      | cons second others =>
          have newline : ∀ back, "\n".toList ++ back = '\n' :: back := fun back => rfl
          simp only [List.map_cons, List.intercalate_cons_cons, List.append_assoc, newline] at ih ⊢
          rw [List.forall_mem_cons, showable_append_newline_eq_self_iff, ← shown]
          exact and_congr_right' ih

theorem withoutControls_append {front : String} (ordinary : '\x1b' ∉ front.toList) (back : String) :
    withoutControls (front ++ back) = front ++ withoutControls back := by
  rw [← String.toList_inj, String.toList_append, withoutControls, withoutControls, String.toList_ofList,
    String.toList_ofList, String.toList_append]
  generalize front.toList = cs at ordinary
  induction cs with
  | nil => rfl
  | cons c rest ih =>
      have later : '\x1b' ∉ rest := List.not_mem_of_not_mem_cons ordinary
      have plain : sequenceLength (c :: (rest ++ back.toList)) = 0 := by
        by_contra positive
        rcases bracket_of_sequenceLength positive with ⟨body, same⟩
        exact List.ne_of_not_mem_cons ordinary (List.cons.inj same).1.symm
      rw [List.cons_append, showable, plain, List.cons_append, ← ih later]

theorem head?_withoutControls {s : String} {c : Char} (first : s.toList.head? = some c) (ordinary : c ≠ '\x1b') :
    (withoutControls s).toList.head? = some c := by
  rcases List.head?_eq_some_iff.mp first with ⟨rest, whole⟩
  have front : s = String.ofList [c] ++ String.ofList rest := by
    rw [← String.toList_inj, String.toList_append, String.toList_ofList, String.toList_ofList, whole]
    rfl
  have shown : '\x1b' ∉ (String.ofList [c]).toList := by
    rw [String.toList_ofList, List.mem_singleton]
    exact Ne.symm ordinary
  rw [front, withoutControls_append shown, String.toList_append, String.toList_ofList]
  rfl

theorem head?_intercalate (first : String) (rest : List String) :
    (String.intercalate "\n" (first :: rest)).toList.head? = first.toList.head? ∨
      (String.intercalate "\n" (first :: rest)).toList.head? = some '\n' := by
  rw [String.toList_intercalate]
  cases rest with
  | nil => exact .inl (by simp)
  | cons second others =>
      rw [List.map_cons, List.map_cons, List.intercalate_cons_cons, List.append_assoc]
      cases first.toList with
      | nil => exact .inr rfl
      | cons c more => exact .inl rfl

theorem mem_intercalate_iff {c : Char} {separator : String} (other : c ∉ separator.toList) (lines : List String) :
    c ∈ (String.intercalate separator lines).toList ↔ ∃ line ∈ lines, c ∈ line.toList := by
  rw [String.toList_intercalate]
  induction lines with
  | nil => simp
  | cons first rest ih =>
      cases rest with
      | nil => simp
      | cons second more =>
          rw [List.map_cons] at ih
          simp only [List.map_cons, List.intercalate_cons_cons, List.mem_append, other, ih, or_false,
            List.exists_mem_cons_iff]

end SchemaMigration.Text
