import SchemaMigration.Proofs.Calendar.Utc

namespace SchemaMigration

namespace Calendar

theorem daysBeforeMonth_succ (year : Nat) {month : Nat} (positive : 1 ≤ month) :
    daysBeforeMonth year (month + 1) = daysBeforeMonth year month + monthLength year month := by
  rcases Nat.exists_eq_add_of_le' positive with ⟨before, rfl⟩
  rfl

theorem daysBeforeMonth_le (year : Nat) {month later : Nat} (positive : 1 ≤ month) (less : month < later) :
    daysBeforeMonth year month + monthLength year month ≤ daysBeforeMonth year later := by
  induction less with
  | refl => exact Nat.le_of_eq (daysBeforeMonth_succ year positive).symm
  | @step later before ih =>
      rw [daysBeforeMonth_succ year (Nat.le_trans positive (Nat.le_of_succ_le before))]
      omega

theorem daysBeforeMonth_end (year : Nat) : daysBeforeMonth year 13 = if isLeap year then 366 else 365 := by
  simp only [daysBeforeMonth, monthLength]
  split <;> rfl

end Calendar

namespace Date
open Calendar

theorem daysBeforeMonth_monthFrom (year : Nat) {month : Nat} (past more : Nat) (positive : 1 ≤ month) :
    let found := monthFrom year month past more
    daysBeforeMonth year found.1 + found.2 = daysBeforeMonth year month + past + 1 := by
  induction more generalizing month past with
  | zero => rfl
  | succ more ih =>
      simp only [monthFrom]
      split
      case isTrue => rfl
      case isFalse later =>
        have found := @ih (month + 1) (past - monthLength year month) (by omega)
        rw [daysBeforeMonth_succ year positive] at found
        dsimp only at found
        omega

theorem number_of_ofNumber? {n : Nat} {d : Date} (found : ofNumber? n = some d) : d.number = n := by
  cases n with
  | zero => cases found
  | succ past =>
      have begun := (yearOf_spec past).2.1
      have adds := daysBeforeMonth_monthFrom (yearOf past) (past - daysBeforeYear (yearOf past)) 11 (Nat.le_refl 1)
      have first : daysBeforeMonth (yearOf past) 1 = 0 := rfl
      simp only [ofNumber?, ofFields?] at found
      split at found
      case isTrue =>
        obtain rfl := Option.some.inj found
        rw [first] at adds
        dsimp only at adds
        simp only [number]
        omega
      case isFalse => cases found

/-- A day belongs to its own year, between its own month and the next. -/
theorem number_bounds (d : Date) :
    daysBeforeYear d.year + daysBeforeMonth d.year d.month < d.number ∧
      d.number ≤ daysBeforeYear d.year + daysBeforeMonth d.year d.month + monthLength d.year d.month ∧
      d.number ≤ daysBeforeYear (d.year + 1) := by
  rcases d.inCalendar with ⟨year, -, month, last, day, within⟩
  have ends : daysBeforeMonth d.year d.month + monthLength d.year d.month ≤ daysBeforeMonth d.year 13 :=
    daysBeforeMonth_le d.year month (Nat.lt_succ_of_le last)
  rcases Nat.exists_eq_add_of_le' year with ⟨past, next⟩
  have whole := daysBeforeYear_succ past
  rw [daysBeforeMonth_end] at ends
  rw [← next] at whole
  have following : past + 2 = d.year + 1 := by omega
  rw [following] at whole
  rw [number]
  omega

theorem number_lt_of_year_lt {d e : Date} (less : d.year < e.year) : d.number < e.number := by
  have before := (number_bounds d).2.2
  have after := (number_bounds e).1
  have years : daysBeforeYear (d.year + 1) ≤ daysBeforeYear e.year := daysBeforeYear_mono less
  omega

theorem number_lt_of_month_lt {d e : Date} (year : d.year = e.year) (less : d.month < e.month) : d.number < e.number := by
  have before := (number_bounds d).2.1
  have after := (number_bounds e).1
  have months := daysBeforeMonth_le d.year d.inCalendar.2.2.1 less
  rw [← year] at after
  omega

theorem number_lt_iff (d e : Date) : d.number < e.number ↔
    d.year < e.year ∨ d.year = e.year ∧ (d.month < e.month ∨ d.month = e.month ∧ d.day < e.day) := by
  rcases Nat.lt_trichotomy d.year e.year with less | year | more
  · exact iff_of_true (number_lt_of_year_lt less) (.inl less)
  · rcases Nat.lt_trichotomy d.month e.month with less | month | more
    · exact iff_of_true (number_lt_of_month_lt year less) (.inr ⟨year, .inl less⟩)
    · simp only [number, year, month, Nat.lt_irrefl, false_or, true_and]
      omega
    · have greater := number_lt_of_month_lt year.symm more
      omega
  · have greater := number_lt_of_year_lt more
    omega

end Date
end SchemaMigration
