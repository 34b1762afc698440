import RelationFilter.Proofs.Time.Written

namespace RelationFilter

namespace Instant

def later (t : Instant) (millis : Nat) : Instant :=
  ⟨t.seconds + (t.nanos + millis * 1000000) / 1000000000, (t.nanos + millis * 1000000) % 1000000000⟩

structure IsMidnight (t : Instant) (d : Date) : Prop where
  date : t.date = d
  hour : t.hour = 0
  minute : t.minute = 0
  second : t.second = 0
  nanos : t.nanos = 0

structure Denotes (t : Instant) (text : String) : Prop where
  plain : t.IsPlain
  whole : t.nanos % 1000000 = 0
  same : t.text = text

/-- A text for the last millisecond before a date. -/
def EndsBefore (text : String) (d : Date) : Prop :=
  ∃ e : Instant, (∀ u : Instant, u.Denotes text ↔ u = e) ∧ (e.later 1).IsMidnight d

theorem day_startOfDay (n : Int) : (startOfDay n).day = n := by
  simp only [day, startOfDay, secondsPerDay]
  omega

theorem day_endBeforeDay (n : Int) : (endBeforeDay n).day = n - 1 := by
  simp only [day, endBeforeDay, secondsPerDay]
  omega

theorem isMidnight_startOfDay {d : Date} (valid : d.IsValid) : (startOfDay d.toDays).IsMidnight d := by
  have begins : (startOfDay d.toDays).secondOfDay = 0 := by
    simp only [secondOfDay, startOfDay, secondsPerDay]
    omega
  refine ⟨?_, ?_, ?_, ?_, rfl⟩
  · rw [date, day_startOfDay, Date.ofDays_toDays valid]
  · rw [hour, begins]
  · rw [minute, begins]
  · rw [second, begins]

theorem later_endBeforeDay (n : Int) : (endBeforeDay n).later 1 = startOfDay n := by
  simp only [later, endBeforeDay, startOfDay, mk.injEq, and_true]
  omega

theorem isPlain_startOfDay {d : Date} (valid : d.IsValid) (from_zero : 0 ≤ d.year) (to_last : d.year ≤ 9999) :
    (startOfDay d.toDays).IsPlain := by
  have date := (isMidnight_startOfDay valid).date
  exact ⟨⟨by rw [date]; exact from_zero, by rw [date]; exact to_last, show 0 < 2000000000 by decide⟩,
    show 0 < 1000000000 by decide⟩

theorem isPlain_endBeforeDay {d : Date} (valid : d.IsValid) (from_zero : 0 ≤ d.year) (to_last : d.year ≤ 9999) :
    (endBeforeDay (d.toDays + 1)).IsPlain := by
  have date : (endBeforeDay (d.toDays + 1)).date = d := by
    rw [date, day_endBeforeDay, Int.add_sub_cancel, Date.ofDays_toDays valid]
  exact ⟨⟨by rw [date]; exact from_zero, by rw [date]; exact to_last, show 999000000 < 2000000000 by decide⟩,
    show 999000000 < 1000000000 by decide⟩

theorem endsBefore_endBeforeDay {d e : Date} (valid : d.IsValid) (from_zero : 0 ≤ d.year) (to_last : d.year ≤ 9999)
    (valid' : e.IsValid) (following : e.toDays = d.toDays + 1) : EndsBefore (endBeforeDay (d.toDays + 1)).text e := by
  have plain := isPlain_endBeforeDay valid from_zero to_last
  have whole : (endBeforeDay (d.toDays + 1)).nanos % 1000000 = 0 :=
    show 999000000 % 1000000 = 0 by decide
  refine ⟨endBeforeDay (d.toDays + 1), fun u => ⟨?_, ?_⟩, ?_⟩
  · intro denotes
    exact eq_of_text_eq denotes.plain plain denotes.whole whole denotes.same
  · rintro rfl
    exact ⟨plain, whole, rfl⟩
  · rw [later_endBeforeDay, ← following]
    exact isMidnight_startOfDay valid'

theorem startOfDay_not_earlier {m n : Int} (le : m ≤ n) : ¬ (startOfDay n).Earlier (startOfDay m) := by
  simp only [Earlier, startOfDay, secondsPerDay, shownSecond, second, secondOfDay, millis]
  omega

theorem endBeforeDay_not_earlier {m n : Int} (le : m ≤ n) : ¬ (endBeforeDay n).Earlier (endBeforeDay m) := by
  simp only [Earlier, endBeforeDay, secondsPerDay, shownSecond, second, secondOfDay, millis]
  omega

theorem not_earlier_startOfDay (t : Instant) : ¬ t.Earlier (startOfDay t.day) := by
  simp only [Earlier, startOfDay, day, secondsPerDay, shownSecond, second, secondOfDay, millis]
  omega

/-- In a leap second after the last second of its day. -/
def ClosesDay (t : Instant) : Prop := t.secondOfDay = 86399 ∧ 1000000000 ≤ t.nanos

theorem InRange.endBeforeDay_earlier_iff {t : Instant} (range : t.InRange) {n : Int} (on : t.day + 1 ≤ n) :
    (endBeforeDay n).Earlier t ↔ t.ClosesDay ∧ t.day + 1 = n := by
  have nanos := range.nanos_lt
  simp only [Earlier, ClosesDay, endBeforeDay, day, secondsPerDay, shownSecond, second, secondOfDay, millis] at on ⊢
  omega

section Text

variable {d e : Date} (valid : d.IsValid) (valid' : e.IsValid)

include valid valid'

theorem text_startOfDay_le (from_zero : 0 ≤ d.year) (to_last : e.year ≤ 9999) (same : d.year = e.year)
    (le : d.toDays ≤ e.toDays) : (startOfDay d.toDays).text ≤ (startOfDay e.toDays).text := by
  have plain := isPlain_startOfDay valid from_zero (by omega)
  have plain' := isPlain_startOfDay valid' (by omega) to_last
  rw [text_le_iff plain.toInRange plain'.toInRange]
  exact startOfDay_not_earlier le

theorem text_endBeforeDay_le (from_zero : 0 ≤ d.year) (to_last : e.year ≤ 9999) (same : d.year = e.year)
    (le : d.toDays ≤ e.toDays) : (endBeforeDay (d.toDays + 1)).text ≤ (endBeforeDay (e.toDays + 1)).text := by
  have plain := isPlain_endBeforeDay valid from_zero (by omega)
  have plain' := isPlain_endBeforeDay valid' (by omega) to_last
  rw [text_le_iff plain.toInRange plain'.toInRange]
  exact endBeforeDay_not_earlier (by omega)

end Text

/-- An end is passed in a leap second alone, and then the next day is what the end is before. -/
theorem InRange.text_le_endBeforeDay_iff {t : Instant} (range : t.InRange) {d e : Date} (valid : d.IsValid)
    (same : d.year = t.date.year) (le : t.date.toDays ≤ d.toDays) (valid' : e.IsValid)
    (following : e.toDays = d.toDays + 1) :
    t.text ≤ (endBeforeDay (d.toDays + 1)).text ↔ ¬ (t.ClosesDay ∧ t.date.next = e) := by
  have from_zero := range.from_zero
  have to_last := range.to_last
  have plain := isPlain_endBeforeDay valid (by omega) (by omega)
  have day : t.day = t.date.toDays := (Date.toDays_ofDays t.day).symm
  have tomorrow : t.date.next.toDays = t.date.toDays + 1 := t.date_valid.toDays_next
  have met : t.day + 1 = d.toDays + 1 ↔ t.date.next = e := by
    constructor
    · intro days
      exact Date.toDays_inj t.date_valid.next valid' (by omega)
    · intro here
      rw [here] at tomorrow
      omega
  rw [text_le_iff range plain.toInRange, range.endBeforeDay_earlier_iff (by omega), met]

theorem InRange.named?_monthEnd {t : Instant} (range : t.InRange) :
    t.named? "@monthEnd" = some (.string t.endOfMonth.text) := by
  have to_last := range.to_last
  apply if_neg
  unfold lastYear nextMonth
  split
  · show ¬ 262142 < t.date.year + 1
    omega
  · show ¬ 262142 < t.date.year
    omega

/-- The texts are in the order of the periods, each with an end in its last millisecond. An end stands before the text of the
instant in a leap second alone, one that closes the period. -/
theorem named_periods {t : Instant} (range : t.InRange) :
    ∃ yearStart monthStart dayStart now dayEnd monthEnd yearEnd : String,
      t.named? "@yearStart" = some (.string yearStart) ∧ t.named? "@monthStart" = some (.string monthStart) ∧
      t.named? "@todayStart" = some (.string dayStart) ∧ t.named? "@now" = some (.string now) ∧
      t.named? "@todayEnd" = some (.string dayEnd) ∧ t.named? "@monthEnd" = some (.string monthEnd) ∧
      t.named? "@yearEnd" = some (.string yearEnd) ∧
      (yearStart ≤ monthStart ∧ monthStart ≤ dayStart ∧ dayStart ≤ now) ∧ (dayEnd ≤ monthEnd ∧ monthEnd ≤ yearEnd) ∧
      (now ≤ dayEnd ↔ ¬ t.ClosesDay) ∧ (now ≤ monthEnd ↔ ¬ (t.ClosesDay ∧ t.date.next = nextMonth t.date)) ∧
      (now ≤ yearEnd ↔ ¬ (t.ClosesDay ∧ t.date.next = ⟨t.date.year + 1, 1, 1⟩)) ∧
      EndsBefore dayEnd t.date.next ∧ EndsBefore monthEnd (nextMonth t.date) ∧
      EndsBefore yearEnd ⟨t.date.year + 1, 1, 1⟩ := by
  have valid := t.date_valid
  have from_zero := range.from_zero
  have to_last := range.to_last
  have day : t.day = t.date.toDays := (Date.toDays_ofDays t.day).symm
  have month := valid.toDays_nextMonth
  have year := Date.daysBeforeYear_december t.date.year
  have newYear : Date.toDays ⟨t.date.year + 1, 1, 1⟩ = Date.toDays ⟨t.date.year, 12, 31⟩ + 1 := by
    rw [Date.toDays_newYear, year]
  have tomorrow := range.text_le_endBeforeDay_iff valid rfl le_rfl valid.next valid.toDays_next
  rw [and_iff_left rfl] at tomorrow
  refine ⟨_, _, _, _, _, _, _, rfl, rfl, rfl, rfl, rfl, range.named?_monthEnd, rfl, ⟨?_, ?_, ?_⟩, ⟨?_, ?_⟩, ?_, ?_, ?_, ?_,
    ?_, ?_⟩
  · rw [← Date.toDays_newYear]
    exact text_startOfDay_le (.newYear _) valid.first from_zero to_last rfl valid.newYear_le_first
  · rw [day]
    exact text_startOfDay_le valid.first valid from_zero to_last rfl valid.first_le
  · have first := isPlain_startOfDay valid from_zero to_last
    rw [← day] at first
    exact (text_le_iff first.toInRange range).mpr t.not_earlier_startOfDay
  · rw [day, endOfMonth, month]
    exact text_endBeforeDay_le valid valid.last from_zero to_last rfl valid.le_last
  · rw [endOfMonth, month, year]
    exact text_endBeforeDay_le valid.last (.december _) from_zero to_last rfl valid.last_le_december
  · rw [day]
    exact tomorrow
  · rw [endOfMonth, month]
    exact range.text_le_endBeforeDay_iff valid.last rfl valid.le_last valid.nextMonth month
  · rw [year]
    exact range.text_le_endBeforeDay_iff (.december _) rfl (valid.le_last.trans valid.last_le_december) (.newYear _) newYear
  · rw [day]
    exact endsBefore_endBeforeDay valid from_zero to_last valid.next valid.toDays_next
  · rw [endOfMonth, month]
    exact endsBefore_endBeforeDay valid.last from_zero to_last valid.nextMonth month
  · rw [year]
    exact endsBefore_endBeforeDay (.december _) from_zero to_last (.newYear _) newYear

/-- In the last millisecond of a leap day, which ends a month and not a year. -/
theorem named_periods_leapDay :
    let t : Instant := ⟨1709251199, 999999999⟩
    t.InRange ∧ t.named? "@todayStart" = some (.string "2024-02-29 00:00:00.000Z") ∧
      t.named? "@now" = some (.string "2024-02-29 23:59:59.999Z") ∧
      t.named? "@todayEnd" = some (.string "2024-02-29 23:59:59.999Z") ∧
      "2024-02-29 00:00:00.000Z" ≤ "2024-02-29 23:59:59.999Z" ∧ EndsBefore "2024-02-29 23:59:59.999Z" ⟨2024, 3, 1⟩ := by
  intro t
  have range : t.InRange := ⟨by decide +kernel, by decide +kernel, by decide⟩
  have start_text : t.named? "@todayStart" = some (.string "2024-02-29 00:00:00.000Z") :=
    congrArg (some ∘ Json.string) (show (startOfDay t.day).text = _ by decide +kernel)
  have now_text : t.named? "@now" = some (.string "2024-02-29 23:59:59.999Z") :=
    congrArg (some ∘ Json.string) (show t.text = _ by decide +kernel)
  have end_text : t.named? "@todayEnd" = some (.string "2024-02-29 23:59:59.999Z") :=
    congrArg (some ∘ Json.string) (show (endBeforeDay (t.day + 1)).text = _ by decide +kernel)
  obtain ⟨-, -, dayStart, now, dayEnd, -, -, -, -, starts, here, ends, -, -, ⟨-, -, begun⟩, -, -, -, -, next, -, -⟩ :=
    named_periods range
  have tomorrow : t.date.next = ⟨2024, 3, 1⟩ := by decide +kernel
  rw [start_text] at starts
  rw [now_text] at here
  rw [end_text] at ends
  cases starts
  cases here
  cases ends
  rw [tomorrow] at next
  exact ⟨range, start_text, now_text, end_text, begun, next⟩

/-- The leap second at the end of June 2015. -/
theorem not_leapSecond_le_dayEnd :
    let t : Instant := ⟨1435708799, 1500000000⟩
    t.InRange ∧ t.named? "@now" = some (.string "2015-06-30 23:59:60.500Z") ∧
      t.named? "@todayEnd" = some (.string "2015-06-30 23:59:59.999Z") ∧
      ¬ "2015-06-30 23:59:60.500Z" ≤ "2015-06-30 23:59:59.999Z" := by
  intro t
  have now_text : t.named? "@now" = some (.string "2015-06-30 23:59:60.500Z") :=
    congrArg (some ∘ Json.string) (show t.text = _ by decide +kernel)
  have end_text : t.named? "@todayEnd" = some (.string "2015-06-30 23:59:59.999Z") :=
    congrArg (some ∘ Json.string) (show (endBeforeDay (t.day + 1)).text = _ by decide +kernel)
  exact ⟨⟨by decide +kernel, by decide +kernel, by decide⟩, now_text, end_text, by decide +kernel⟩

end Instant
end RelationFilter
