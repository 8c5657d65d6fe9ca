import SchemaMigration.Calendar.DateTime

namespace SchemaMigration

namespace Calendar

/-- The number of the last day of the year 9999. -/
def lastDay : Nat := 3652059

theorem daysBeforeYear_succ (past : Nat) :
    daysBeforeYear (past + 2) = daysBeforeYear (past + 1) + if isLeap (past + 1) then 366 else 365 := by
  have ends : ∀ period, (past + 1) / period = past / period + if (past + 1) % period = 0 then 1 else 0 := by
    intro period
    simp only [Nat.succ_div, Nat.dvd_iff_mod_eq_zero]
  have four : (past + 1) % 100 = 0 → (past + 1) % 4 = 0 := by omega
  have hundred : (past + 1) % 400 = 0 → (past + 1) % 100 = 0 := by omega
  have fewer : past / 100 ≤ past / 4 := Nat.div_le_div_left (by decide) (by decide)
  have leap : isLeap (past + 1) = true ↔ (past + 1) % 4 = 0 ∧ ((past + 1) % 100 ≠ 0 ∨ (past + 1) % 400 = 0) := by
    simp [isLeap]
  have next : past + 2 - 1 = past + 1 := rfl
  simp only [daysBeforeYear, next, Nat.add_sub_cancel, ends, leap]
  generalize past / 4 = fours at fewer ⊢
  generalize past / 100 = hundreds at fewer ⊢
  generalize past / 400 = fourHundreds
  -- A year that ends 400 years also ends 100, and one that ends 100 also ends 4.
  by_cases quarter : (past + 1) % 4 = 0
  · by_cases century : (past + 1) % 100 = 0
    · by_cases cycle : (past + 1) % 400 = 0
      · simp only [quarter, century, cycle, ne_eq, not_true_eq_false, or_true, and_true, if_true]
        omega
      · simp only [quarter, century, cycle, ne_eq, not_true_eq_false, or_false, and_false, if_true, if_false]
        omega
    · have within : ¬ (past + 1) % 400 = 0 := mt hundred century
      simp only [quarter, century, within, ne_eq, not_false_eq_true, or_false, and_true, if_true, if_false]
      omega
  · have within : ¬ (past + 1) % 100 = 0 := mt four quarter
    have between : ¬ (past + 1) % 400 = 0 := mt hundred within
    simp only [quarter, within, between, false_and, if_false]
    omega

theorem daysBeforeYear_mono {year later : Nat} (before : year ≤ later) : daysBeforeYear year ≤ daysBeforeYear later := by
  induction before with
  | refl => exact Nat.le_refl _
  | @step later _ ih =>
      cases later with
      | zero => exact ih
      | succ past =>
          rw [daysBeforeYear_succ]
          exact Nat.le_trans ih (Nat.le_add_right _ _)

theorem daysBeforeYear_end : daysBeforeYear 10000 = lastDay := rfl

/-- Days from the first of a month to the end of a later one. -/
def daysFromMonth (year month : Nat) : Nat → Nat
  | 0 => monthLength year month
  | more + 1 => monthLength year month + daysFromMonth year (month + 1) more

theorem daysFromMonth_year (year : Nat) : daysFromMonth year 1 11 = if isLeap year then 366 else 365 := by
  simp only [daysFromMonth, monthLength]
  split <;> rfl

end Calendar

namespace Date
open Calendar

/-- The average length of a year leads to the year of a day or to one beside it. -/
theorem yearOf_spec (past : Nat) :
    1 ≤ yearOf past ∧ daysBeforeYear (yearOf past) ≤ past ∧ past < daysBeforeYear (yearOf past + 1) := by
  simp only [yearOf]
  split
  case isTrue early =>
    simp only [daysBeforeYear] at early ⊢
    omega
  case isFalse reached =>
    split
    case isTrue late =>
      simp only [daysBeforeYear] at late ⊢
      omega
    case isFalse within =>
      simp only [daysBeforeYear] at reached within ⊢
      omega

theorem daysBeforeYear_yearOf_succ (past : Nat) :
    daysBeforeYear (yearOf past + 1) = daysBeforeYear (yearOf past) + if isLeap (yearOf past) then 366 else 365 := by
  rcases Nat.exists_eq_add_of_le' (yearOf_spec past).1 with ⟨before, year⟩
  rw [year, daysBeforeYear_succ]

theorem yearOf_le_iff (past : Nat) : yearOf past ≤ 9999 ↔ past < lastDay := by
  rcases yearOf_spec past with ⟨-, begun, ends⟩
  rw [← daysBeforeYear_end]
  constructor
  · intro bounded
    exact Nat.lt_of_lt_of_le ends (daysBeforeYear_mono (by omega))
  · intro bounded
    by_cases after : yearOf past ≤ 9999
    · exact after
    · have late : daysBeforeYear 10000 ≤ daysBeforeYear (yearOf past) := daysBeforeYear_mono (by omega)
      omega

theorem monthFrom_spec (year month past more : Nat) (inside : past < daysFromMonth year month more) :
    let found := monthFrom year month past more
    month ≤ found.1 ∧ found.1 ≤ month + more ∧ 1 ≤ found.2 ∧ found.2 ≤ monthLength year found.1 := by
  induction more generalizing month past with
  | zero =>
      simp only [daysFromMonth] at inside
      simp only [monthFrom]
      omega
  | succ more ih =>
      simp only [daysFromMonth] at inside
      simp only [monthFrom]
      split
      case isTrue => dsimp only; omega
      case isFalse later =>
        have found := ih (month + 1) (past - monthLength year month) (by omega)
        dsimp only at found
        omega

theorem ofNumber?_isSome_iff (n : Nat) : (ofNumber? n).isSome ↔ 1 ≤ n ∧ n ≤ lastDay := by
  cases n with
  | zero => simp [ofNumber?]
  | succ past =>
      rcases yearOf_spec past with ⟨positive, begun, ends⟩
      have bounded := yearOf_le_iff past
      rw [daysBeforeYear_yearOf_succ, ← daysFromMonth_year] at ends
      have month := monthFrom_spec (yearOf past) 1 (past - daysBeforeYear (yearOf past)) 11 (by omega)
      dsimp only at month
      have fields : (ofNumber? (past + 1)).isSome ↔ yearOf past ≤ 9999 := by
        simp only [ofNumber?, ofFields?]
        split
        case isTrue given => simp [given.2.1]
        case isFalse refused =>
          simp only [Option.isSome_none, Bool.false_eq_true, false_iff]
          omega
      rw [fields, bounded]
      omega

end Date

namespace DateTime
open Calendar

/-- A point in time without an offset, or one whose instant lies in the years 1 to 9999 of UTC. -/
def InUtcCalendar (t : DateTime) : Prop := ∀ instant ∈ t.instant?, 0 ≤ instant ∧ instant < lastDay * microsPerDay

instance (t : DateTime) : Decidable t.InUtcCalendar := inferInstanceAs (Decidable (∀ instant ∈ t.instant?, _))

theorem ofLocalMicros?_isSome_iff (micros : Int) :
    (ofLocalMicros? micros).isSome ↔ 0 ≤ micros ∧ micros < lastDay * microsPerDay := by
  unfold ofLocalMicros?
  split
  case isTrue negative =>
    simp only [Option.isSome_none, Bool.false_eq_true, false_iff]
    omega
  case isFalse =>
    rw [Option.isSome_map, Date.ofNumber?_isSome_iff]
    simp only [lastDay, microsPerDay]
    omega

theorem sqlText?_isSome_iff (t : DateTime) : t.sqlText?.isSome ↔ t.InUtcCalendar := by
  unfold sqlText? InUtcCalendar inUtc? instant?
  cases t.offset with
  | none => simp
  | some o => simp [ofLocalMicros?_isSome_iff]

end DateTime
end SchemaMigration
