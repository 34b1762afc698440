import RelationFilter.Time.Instant

namespace RelationFilter

namespace Date

structure IsValid (d : Date) : Prop where
  month_pos : 1 ≤ d.month
  month_le : d.month ≤ 12
  day_pos : 1 ≤ d.day
  day_le : d.day ≤ daysInMonth d.year d.month

def Before (d e : Date) : Prop :=
  d.year < e.year ∨ d.year = e.year ∧ (d.month < e.month ∨ d.month = e.month ∧ d.day < e.day)

def yearLength (year : Int) : Nat := if isLeap year then 366 else 365

theorem isLeap_iff (year : Int) : isLeap year ↔ year % 4 = 0 ∧ (year % 100 ≠ 0 ∨ year % 400 = 0) := by simp [isLeap]

theorem daysBeforeYear_succ (year : Int) : daysBeforeYear (year + 1) = daysBeforeYear year + yearLength year := by
  by_cases leap : isLeap year
  · rw [yearLength, if_pos leap]
    rw [isLeap_iff] at leap
    unfold daysBeforeYear
    omega
  · rw [yearLength, if_neg leap]
    rw [isLeap_iff] at leap
    unfold daysBeforeYear
    omega

theorem daysBeforeYear_lt {y z : Int} (before : y < z) : daysBeforeYear (y + 1) ≤ daysBeforeYear z := by
  unfold daysBeforeYear
  omega

theorem daysInMonth_pos (year : Int) (month : Nat) : 1 ≤ daysInMonth year month := by
  unfold daysInMonth
  split
  · split <;> omega
  all_goals omega

theorem daysInMonth_le (year : Int) (month : Nat) : daysInMonth year month ≤ 31 := by
  unfold daysInMonth
  split
  · split <;> omega
  all_goals omega

theorem daysBeforeMonth_succ (year : Int) {month : Nat} (pos : 1 ≤ month) :
    daysBeforeMonth year (month + 1) = daysBeforeMonth year month + daysInMonth year month := by
  obtain ⟨m, rfl⟩ : ∃ m, month = m + 1 := ⟨month - 1, by omega⟩
  rfl

theorem daysBeforeMonth_last (year : Int) : daysBeforeMonth year 13 = yearLength year := by
  by_cases leap : isLeap year
  · simp [daysBeforeMonth, daysInMonth, yearLength, leap]
  · simp [daysBeforeMonth, daysInMonth, yearLength, leap]

theorem daysBeforeMonth_lt (year : Int) {m n : Nat} (pos : 1 ≤ m) (before : m < n) :
    daysBeforeMonth year (m + 1) ≤ daysBeforeMonth year n := by
  induction n with
  | zero => omega
  | succ n ih =>
    by_cases last : m = n
    · subst last
      exact Nat.le_refl _
    · have step := daysBeforeMonth_succ year (show 1 ≤ n by omega)
      have earlier := ih (by omega)
      omega

def dayOfYear (d : Date) : Nat := daysBeforeMonth d.year d.month + (d.day - 1)

theorem IsValid.toDays_eq {d : Date} (valid : d.IsValid) : d.toDays = daysBeforeYear d.year + d.dayOfYear := by
  have pos := valid.day_pos
  unfold toDays dayOfYear
  omega

theorem IsValid.dayOfYear_lt {d : Date} (valid : d.IsValid) : d.dayOfYear < yearLength d.year := by
  have step := daysBeforeMonth_succ d.year valid.month_pos
  have rest := daysBeforeMonth_lt d.year valid.month_pos (show d.month < 13 by have := valid.month_le; omega)
  rw [daysBeforeMonth_last] at rest
  have pos := valid.day_pos
  have le := valid.day_le
  unfold dayOfYear
  omega

theorem toDays_lt_of_before {d e : Date} (valid : d.IsValid) (valid' : e.IsValid) (before : d.Before e) :
    d.toDays < e.toDays := by
  rw [valid.toDays_eq, valid'.toDays_eq]
  -- What the later date has more of is at least what it takes to reach the next year, month or day.
  rcases before with year | ⟨year, month | ⟨month, day⟩⟩
  · have within := valid.dayOfYear_lt
    have step := daysBeforeYear_succ d.year
    have rest := daysBeforeYear_lt year
    omega
  · have step := daysBeforeMonth_succ d.year valid.month_pos
    have rest := daysBeforeMonth_lt d.year valid.month_pos month
    have pos := valid.day_pos
    have le := valid.day_le
    unfold dayOfYear
    rw [← year]
    omega
  · have pos := valid.day_pos
    unfold dayOfYear
    rw [year, month]
    omega

theorem before_total (d e : Date) : d.Before e ∨ d = e ∨ e.Before d := by
  obtain ⟨y, m, n⟩ := d
  obtain ⟨y', m', n'⟩ := e
  simp only [Before, mk.injEq]
  omega

theorem toDays_lt_iff {d e : Date} (valid : d.IsValid) (valid' : e.IsValid) : d.toDays < e.toDays ↔ d.Before e := by
  constructor
  · intro days
    rcases before_total d e with before | rfl | after
    · exact before
    · omega
    · have := toDays_lt_of_before valid' valid after
      omega
  · exact toDays_lt_of_before valid valid'

theorem toDays_inj {d e : Date} (valid : d.IsValid) (valid' : e.IsValid) (same : d.toDays = e.toDays) : d = e := by
  rcases before_total d e with before | same_date | after
  · have := toDays_lt_of_before valid valid' before
    omega
  · exact same_date
  · have := toDays_lt_of_before valid' valid after
    omega

theorem toDays_le_iff {d e : Date} (valid : d.IsValid) (valid' : e.IsValid) : d.toDays ≤ e.toDays ↔ ¬ e.Before d := by
  rw [← toDays_lt_iff valid' valid, Int.not_lt]

/-- The guess misses by at most one, for the days before a year are its part of the mean length of a year, give or take two. -/
theorem yearOfDay_spec (n : Int) : daysBeforeYear (yearOfDay n) ≤ n ∧ n < daysBeforeYear (yearOfDay n + 1) := by
  unfold yearOfDay
  dsimp only
  split
  · unfold daysBeforeYear at *
    omega
  · split
    · unfold daysBeforeYear at *
      omega
    · omega

/-- With no more days than the months that are left have, counting them off ends in one of these. -/
theorem monthDay_spec (year : Int) (months : Nat) {month n : Nat} (pos : 1 ≤ month)
    (within : daysBeforeMonth year month + n < daysBeforeMonth year (month + months + 1)) :
    let md := monthDay year months month n
    month ≤ md.1 ∧ md.1 ≤ month + months ∧ 1 ≤ md.2 ∧ md.2 ≤ daysInMonth year md.1 ∧
      daysBeforeMonth year md.1 + md.2 = daysBeforeMonth year month + n + 1 := by
  induction months generalizing month n with
  | zero =>
    have step := daysBeforeMonth_succ year pos
    rw [Nat.add_zero] at within
    simp only [monthDay]
    omega
  | succ months ih =>
    have step := daysBeforeMonth_succ year pos
    unfold monthDay
    split
    · dsimp only
      omega
    · have later := @ih (month + 1) (n - daysInMonth year month) (by omega)
        (by rw [show month + 1 + months + 1 = month + (months + 1) + 1 by omega]; omega)
      dsimp only at later ⊢
      omega

theorem ofDays_spec (n : Int) : (ofDays n).IsValid ∧ (ofDays n).toDays = n := by
  obtain ⟨start, rest⟩ := yearOfDay_spec n
  rw [daysBeforeYear_succ] at rest
  have whole := daysBeforeMonth_last (yearOfDay n)
  have within : daysBeforeMonth (yearOfDay n) 1 + (n - daysBeforeYear (yearOfDay n)).toNat <
      daysBeforeMonth (yearOfDay n) (1 + 11 + 1) := by
    show 0 + _ < daysBeforeMonth (yearOfDay n) 13
    omega
  have counted := monthDay_spec (yearOfDay n) 11 (Nat.le_refl 1) within
  unfold ofDays
  dsimp only at counted ⊢
  generalize monthDay (yearOfDay n) 11 1 (n - daysBeforeYear (yearOfDay n)).toNat = md at counted ⊢
  obtain ⟨first, last, pos, le, days⟩ := counted
  have valid : IsValid ⟨yearOfDay n, md.1, md.2⟩ := ⟨first, last, pos, le⟩
  have none : daysBeforeMonth (yearOfDay n) 1 = 0 := rfl
  refine ⟨valid, ?_⟩
  rw [valid.toDays_eq]
  simp only [dayOfYear]
  omega

theorem isValid_ofDays (n : Int) : (ofDays n).IsValid := (ofDays_spec n).1

theorem toDays_ofDays (n : Int) : (ofDays n).toDays = n := (ofDays_spec n).2

theorem ofDays_toDays {d : Date} (valid : d.IsValid) : ofDays d.toDays = d :=
  toDays_inj (isValid_ofDays _) valid (toDays_ofDays _)

theorem ofDays_before {m n : Int} : (ofDays m).Before (ofDays n) ↔ m < n := by
  rw [← toDays_lt_iff (isValid_ofDays m) (isValid_ofDays n), toDays_ofDays, toDays_ofDays]

def next (d : Date) : Date := if d.day < daysInMonth d.year d.month then { d with day := d.day + 1 } else Instant.nextMonth d

theorem IsValid.first {d : Date} (valid : d.IsValid) : IsValid ⟨d.year, d.month, 1⟩ :=
  ⟨valid.month_pos, valid.month_le, Nat.le_refl 1, daysInMonth_pos _ _⟩

theorem IsValid.last {d : Date} (valid : d.IsValid) : IsValid ⟨d.year, d.month, daysInMonth d.year d.month⟩ :=
  ⟨valid.month_pos, valid.month_le, daysInMonth_pos _ _, Nat.le_refl _⟩

theorem IsValid.newYear (year : Int) : IsValid ⟨year, 1, 1⟩ :=
  ⟨Nat.le_refl 1, show 1 ≤ 12 by decide, Nat.le_refl 1, daysInMonth_pos _ _⟩

theorem IsValid.december (year : Int) : IsValid ⟨year, 12, 31⟩ :=
  ⟨show 1 ≤ 12 by decide, Nat.le_refl 12, show 1 ≤ 31 by decide, Nat.le_refl 31⟩

theorem IsValid.nextMonth {d : Date} (valid : d.IsValid) : (Instant.nextMonth d).IsValid := by
  unfold Instant.nextMonth
  split
  · exact .newYear _
  · rename_i more
    exact ⟨Nat.le_add_left 1 _, show d.month + 1 ≤ 12 by have := valid.month_le; omega, Nat.le_refl 1, daysInMonth_pos _ _⟩

theorem toDays_newYear (year : Int) : toDays ⟨year, 1, 1⟩ = daysBeforeYear year := by
  rw [(IsValid.newYear year).toDays_eq]
  show daysBeforeYear year + ((0 + (1 - 1) : Nat) : Int) = _
  omega

/-- The first day of the next month follows the last one of the month. -/
theorem IsValid.toDays_nextMonth {d : Date} (valid : d.IsValid) :
    (Instant.nextMonth d).toDays = toDays ⟨d.year, d.month, daysInMonth d.year d.month⟩ + 1 := by
  have pos := daysInMonth_pos d.year d.month
  have following := valid.nextMonth
  rw [valid.last.toDays_eq]
  unfold Instant.nextMonth at following ⊢
  split
  · rename_i december
    have step : daysBeforeMonth d.year 13 = daysBeforeMonth d.year 12 + daysInMonth d.year 12 := rfl
    rw [daysBeforeMonth_last] at step
    rw [toDays_newYear, daysBeforeYear_succ]
    simp only [dayOfYear, december] at pos ⊢
    omega
  · rename_i more
    have step := daysBeforeMonth_succ d.year valid.month_pos
    rw [if_neg more] at following
    rw [following.toDays_eq]
    simp only [dayOfYear]
    omega

theorem IsValid.next {d : Date} (valid : d.IsValid) : d.next.IsValid := by
  unfold Date.next
  split
  · exact ⟨valid.month_pos, valid.month_le, Nat.le_add_left 1 _, by assumption⟩
  · exact valid.nextMonth

theorem IsValid.toDays_next {d : Date} (valid : d.IsValid) : d.next.toDays = d.toDays + 1 := by
  have following := valid.next
  have pos := valid.day_pos
  unfold Date.next at following ⊢
  split
  · rename_i more
    rw [if_pos more] at following
    rw [following.toDays_eq, valid.toDays_eq]
    simp only [dayOfYear]
    omega
  · rename_i last
    have le := valid.day_le
    have same : (⟨d.year, d.month, daysInMonth d.year d.month⟩ : Date) = d := by
      rw [show daysInMonth d.year d.month = d.day by omega]
    rw [valid.toDays_nextMonth, same]

theorem daysBeforeYear_december (year : Int) : daysBeforeYear (year + 1) = toDays ⟨year, 12, 31⟩ + 1 := by
  rw [← toDays_newYear]
  exact (IsValid.december year).toDays_nextMonth

section Around

variable {d : Date} (valid : d.IsValid)

include valid

theorem IsValid.newYear_le_first : toDays ⟨d.year, 1, 1⟩ ≤ toDays ⟨d.year, d.month, 1⟩ := by
  have pos := valid.month_pos
  rw [toDays_le_iff (.newYear _) valid.first]
  simp only [Before]
  omega

theorem IsValid.first_le : toDays ⟨d.year, d.month, 1⟩ ≤ d.toDays := by
  have pos := valid.day_pos
  rw [toDays_le_iff valid.first valid]
  simp only [Before]
  omega

theorem IsValid.le_last : d.toDays ≤ toDays ⟨d.year, d.month, daysInMonth d.year d.month⟩ := by
  have le := valid.day_le
  rw [toDays_le_iff valid valid.last]
  simp only [Before]
  omega

theorem IsValid.last_le_december : toDays ⟨d.year, d.month, daysInMonth d.year d.month⟩ ≤ toDays ⟨d.year, 12, 31⟩ := by
  have month := valid.month_le
  have day := daysInMonth_le d.year d.month
  rw [toDays_le_iff valid.last (.december _)]
  simp only [Before]
  omega

end Around

end Date
end RelationFilter
