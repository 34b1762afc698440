import Mathlib.Data.List.Forall2
import Mathlib.Data.Nat.Digits.Defs
import Mathlib.Data.String.Basic
import RelationFilter.Proofs.Time.Calendar

namespace RelationFilter

namespace Decimal

def padded : (places n : Nat) → List Char
  | 0, _ => []
  | places + 1, n => padded places (n / 10) ++ [Nat.digitChar (n % 10)]

theorem length_padded (places n : Nat) : (padded places n).length = places := by
  induction places generalizing n with
  | zero => rfl
  | succ places ih => rw [padded, List.length_append, ih, List.length_singleton]

theorem padded_zero (places : Nat) : padded places 0 = List.replicate places '0' := by
  induction places with
  | zero => rfl
  | succ places ih =>
    rw [padded, Nat.zero_div, ih, List.replicate_succ']
    rfl

theorem padded_toDigits {places n : Nat} (fits : n < 10 ^ (places + 1)) :
    List.replicate (places + 1 - (Nat.toDigits 10 n).length) '0' ++ Nat.toDigits 10 n = padded (places + 1) n := by
  induction places generalizing n with
  | zero =>
    rw [Nat.toDigits_of_lt_base (by simpa using fits)]
    simp only [padded]
    rw [Nat.mod_eq_of_lt (by simpa using fits)]
    rfl
  | succ places ih =>
    by_cases digit : n < 10
    · rw [Nat.toDigits_of_lt_base digit, padded, Nat.div_eq_of_lt digit, Nat.mod_eq_of_lt digit, padded_zero]
      rfl
    · have fewer : n / 10 < 10 ^ (places + 1) := by
        rw [Nat.div_lt_iff_lt_mul (by decide)]
        exact fits
      rw [Nat.toDigits_of_base_le (by decide) (Nat.not_lt.mp digit), padded, ← ih fewer, List.length_append,
        List.length_singleton, ← List.append_assoc, Nat.add_sub_add_right]

theorem length_toDigits (places : Nat) {n : Nat} (least : 10 ^ places ≤ n) (fits : n < 10 ^ (places + 1)) :
    (Nat.toDigits 10 n).length = places + 1 := by
  have base : 1 < 10 := by decide
  have most := (Nat.length_toDigits_le_iff base (Nat.succ_pos places)).mpr fits
  cases places with
  | zero =>
    have some_digit : 0 < (Nat.toDigits 10 n).length := Nat.length_toDigits_pos
    omega
  | succ places =>
    have more := (Nat.length_toDigits_le_iff base (Nat.succ_pos places)).not.mpr (Nat.not_lt.mpr least)
    omega

/-- As many zeros before a number as it lacks digits. -/
theorem zeros_append (places zeros : Nat) {n : Nat} (fits : n < 10 ^ (places + 1))
    (digits : (Nat.toDigits 10 n).length + zeros = places + 1) :
    List.replicate zeros '0' ++ (toString n).toList = padded (places + 1) n := by
  rw [← padded_toDigits fits, ← digits, Nat.add_sub_cancel_left, Nat.toString_eq_ofList_toDigits, String.toList_ofList]

theorem append_lt_append {as bs cs ds : List Char} (places : as.length = bs.length)
    (before : as < bs ∨ as = bs ∧ cs < ds) : as ++ cs < bs ++ ds := by
  induction as generalizing bs with
  | nil =>
    rw [List.eq_nil_of_length_eq_zero places.symm] at before ⊢
    simpa using before
  | cons a as ih =>
    cases bs with
    | nil => cases places
    | cons b bs =>
      rw [List.cons_lt_cons_iff, List.cons.injEq] at before
      rw [List.cons_append, List.cons_append, List.cons_lt_cons_iff]
      have same : as.length = bs.length := by simpa using places
      rcases before with (first | ⟨first, later⟩) | ⟨⟨first, rest⟩, later⟩
      · exact .inl first
      · exact .inr ⟨first, ih same (.inl later)⟩
      · exact .inr ⟨first, ih same (.inr ⟨rest, later⟩)⟩

theorem digitChar_lt : ∀ m < 10, ∀ n < 10, m < n → Nat.digitChar m < Nat.digitChar n := by decide

theorem padded_lt {places m n : Nat} (fits : n < 10 ^ places) (less : m < n) : padded places m < padded places n := by
  induction places generalizing m n with
  | zero =>
    rw [Nat.pow_zero] at fits
    omega
  | succ places ih =>
    have fewer : n / 10 < 10 ^ places := by
      rw [Nat.div_lt_iff_lt_mul (by decide)]
      exact fits
    apply append_lt_append
    · rw [length_padded, length_padded]
    · by_cases tens : m / 10 = n / 10
      · have unit := digitChar_lt (m % 10) (by omega) (n % 10) (by omega) (by omega)
        exact .inr ⟨by rw [tens], List.cons_lt_cons_iff.mpr (.inl unit)⟩
      · exact .inl (ih fewer (by omega))

def columns : List (Nat × Char) → List Nat → List Char
  | (places, sign) :: layout, n :: ns => padded places n ++ sign :: columns layout ns
  | _, _ => []

def Fits (layout : List (Nat × Char)) (ns : List Nat) : Prop := List.Forall₂ (fun column n => n < 10 ^ column.1) layout ns

theorem columns_lt {layout : List (Nat × Char)} {ns ms : List Nat} (fits : Fits layout ns) (fits' : Fits layout ms)
    (less : ns < ms) : columns layout ns < columns layout ms := by
  induction fits generalizing ms with
  | nil =>
    cases fits'
    exact absurd less (List.lt_irrefl [])
  | @cons column n layout ns fit rest ih =>
    obtain ⟨m, ms, fit', rest', rfl⟩ := List.forall₂_cons_left_iff.mp fits'
    obtain ⟨places, sign⟩ := column
    apply append_lt_append
    · rw [length_padded, length_padded]
    · rcases List.cons_lt_cons_iff.mp less with first | ⟨rfl, later⟩
      · exact .inl (padded_lt fit' first)
      · exact .inr ⟨rfl, List.cons_lt_cons_iff.mpr (.inr ⟨rfl, ih rest' later⟩)⟩

end Decimal

open Decimal

namespace Date

theorem twoDigits_eq {n : Nat} (fits : n < 100) : (twoDigits n).toList = padded 2 n := by
  unfold twoDigits
  split
  · rename_i digit
    rw [String.toList_append]
    exact zeros_append 1 1 fits (by rw [Nat.toDigits_of_lt_base digit, List.length_singleton])
  · rename_i two
    exact zeros_append 1 0 fits (length_toDigits 1 (Nat.not_lt.mp two) fits)

theorem yearText_eq {year : Int} (from_zero : 0 ≤ year) (to_last : year ≤ 9999) :
    (yearText year).toList = padded 4 year.toNat := by
  have fits : year.toNat < 10 ^ (3 + 1) := by omega
  have base : 1 < 10 := by decide
  have most := (Nat.length_toDigits_le_iff base (Nat.succ_pos 3)).mpr fits
  have length : (toString year.toNat).length = (Nat.toDigits 10 year.toNat).length := by
    rw [Nat.toString_eq_ofList_toDigits, String.length_ofList]
  unfold yearText
  rw [if_neg (Int.not_lt.mpr from_zero), if_neg (Int.not_lt.mpr to_last), String.toList_append, String.toList_ofList,
    show year.natAbs = year.toNat by omega, length]
  exact zeros_append 3 _ fits (by omega)

end Date

namespace Instant

theorem threeDigits_eq {n : Nat} (fits : n < 1000) : (threeDigits n).toList = padded 3 n := by
  unfold threeDigits
  split
  · rename_i digit
    rw [String.toList_append]
    exact zeros_append 2 2 fits (by rw [Nat.toDigits_of_lt_base digit, List.length_singleton])
  · rename_i more
    split
    · rename_i two
      rw [String.toList_append]
      exact zeros_append 2 1 fits (by rw [length_toDigits 1 (Nat.not_lt.mp more) two])
    · rename_i three
      exact zeros_append 2 0 fits (length_toDigits 2 (Nat.not_lt.mp three) fits)

/-- A year with four digits, and nanoseconds of a second or of the leap second after it. -/
structure InRange (t : Instant) : Prop where
  from_zero : 0 ≤ t.date.year
  to_last : t.date.year ≤ 9999
  nanos_lt : t.nanos < 2000000000

structure IsPlain (t : Instant) : Prop extends InRange t where
  no_leap : t.nanos < 1000000000

def layout : List (Nat × Char) := [(4, '-'), (2, '-'), (2, ' '), (2, ':'), (2, ':'), (2, '.'), (3, 'Z')]

def columns (t : Instant) : List Nat :=
  [t.date.year.toNat, t.date.month, t.date.day, t.hour, t.minute, t.shownSecond, t.millis]

theorem date_valid (t : Instant) : t.date.IsValid := Date.isValid_ofDays t.day

theorem secondOfDay_lt (t : Instant) : t.secondOfDay < 86400 := by
  unfold secondOfDay secondsPerDay
  omega

theorem column_bounds {t : Instant} (range : t.InRange) :
    t.date.year.toNat < 10000 ∧ t.date.month < 100 ∧ t.date.day < 100 ∧ t.hour < 100 ∧ t.minute < 100 ∧
      t.shownSecond < 100 ∧ t.millis < 1000 := by
  have to_last := range.to_last
  have nanos := range.nanos_lt
  have month := t.date_valid.month_le
  have day := t.date_valid.day_le
  have length := Date.daysInMonth_le t.date.year t.date.month
  have seconds := t.secondOfDay_lt
  unfold hour minute shownSecond second millis
  omega

theorem columns_fit {t : Instant} (range : t.InRange) : Fits layout t.columns := by
  obtain ⟨year, month, day, hour, minute, second, millis⟩ := column_bounds range
  exact .cons year (.cons month (.cons day (.cons hour (.cons minute (.cons second (.cons millis .nil))))))

theorem text_eq {t : Instant} (range : t.InRange) : t.text.toList = Decimal.columns layout t.columns := by
  obtain ⟨-, month, day, hour, minute, second, millis⟩ := column_bounds range
  simp only [text, Date.text, String.toList_append, Date.yearText_eq range.from_zero range.to_last, Date.twoDigits_eq month,
    Date.twoDigits_eq day, Date.twoDigits_eq hour, Date.twoDigits_eq minute, Date.twoDigits_eq second,
    threeDigits_eq millis, List.append_assoc]
  rfl

/-- By a millisecond or more, as the clock shows it: by the minute, then by the second, which may be the 60th. -/
def Earlier (t u : Instant) : Prop :=
  t.seconds / 60 < u.seconds / 60 ∨ t.seconds / 60 = u.seconds / 60 ∧
    (t.shownSecond < u.shownSecond ∨ t.shownSecond = u.shownSecond ∧ t.millis < u.millis)

theorem columns_lt_of_earlier {t u : Instant} (range : t.InRange) (range' : u.InRange) (earlier : t.Earlier u) :
    t.columns < u.columns := by
  have from_zero := range.from_zero
  have from_zero' := range'.from_zero
  simp only [columns, List.cons_lt_cons_iff, List.not_lt_nil, and_false, or_false]
  -- The first three columns decide between two days, the next two within a day, the last two within a minute.
  rcases earlier with minutes | ⟨minutes, within⟩
  · by_cases day : t.day < u.day
    · have before : t.date.Before u.date := Date.ofDays_before.mpr day
      unfold Date.Before at before
      omega
    · have same : t.day = u.day := by
        unfold Instant.day secondsPerDay at day ⊢
        omega
      have date : t.date = u.date := congrArg Date.ofDays same
      have sooner : t.secondOfDay / 60 < u.secondOfDay / 60 := by
        unfold Instant.day at same
        unfold secondOfDay secondsPerDay at *
        omega
      unfold hour minute
      rw [date]
      omega
  · have date : t.date = u.date := by
      have same : t.day = u.day := by
        unfold Instant.day secondsPerDay
        omega
      exact congrArg Date.ofDays same
    have same : t.secondOfDay / 60 = u.secondOfDay / 60 := by
      unfold secondOfDay secondsPerDay
      omega
    unfold hour minute
    rw [date]
    omega

theorem text_lt_of_earlier {t u : Instant} (range : t.InRange) (range' : u.InRange) (earlier : t.Earlier u) :
    t.text < u.text := by
  rw [String.lt_iff_toList_lt, text_eq range, text_eq range']
  exact Decimal.columns_lt (columns_fit range) (columns_fit range') (columns_lt_of_earlier range range' earlier)

theorem earlier_total (t u : Instant) :
    t.Earlier u ∨ (t.seconds / 60 = u.seconds / 60 ∧ t.shownSecond = u.shownSecond ∧ t.millis = u.millis) ∨
      u.Earlier t := by
  unfold Earlier
  omega

theorem text_eq_of_same {t u : Instant} (minutes : t.seconds / 60 = u.seconds / 60)
    (seconds : t.shownSecond = u.shownSecond) (millis : t.millis = u.millis) : t.text = u.text := by
  have day : t.day = u.day := by
    unfold day secondsPerDay
    omega
  have within : t.secondOfDay / 60 = u.secondOfDay / 60 := by
    unfold secondOfDay secondsPerDay
    omega
  have hour : t.hour = u.hour := by
    unfold hour
    omega
  simp only [text, date, minute, day, hour, within, seconds, millis]

/-- Texts are in the order of the instants. -/
theorem text_lt_iff {t u : Instant} (range : t.InRange) (range' : u.InRange) : t.text < u.text ↔ t.Earlier u := by
  constructor
  · intro less
    rcases earlier_total t u with earlier | ⟨minutes, seconds, millis⟩ | later
    · exact earlier
    · rw [text_eq_of_same minutes seconds millis] at less
      exact absurd less (String.lt_irrefl _)
    · exact absurd less (String.lt_asymm (text_lt_of_earlier range' range later))
  · exact text_lt_of_earlier range range'

theorem text_le_iff {t u : Instant} (range : t.InRange) (range' : u.InRange) : t.text ≤ u.text ↔ ¬ u.Earlier t := by
  rw [← text_lt_iff range' range, String.not_lt]

/-- Of the instants with whole milliseconds and outside leap seconds, a text denotes one. -/
theorem eq_of_text_eq {t u : Instant} (plain : t.IsPlain) (plain' : u.IsPlain) (whole : t.nanos % 1000000 = 0)
    (whole' : u.nanos % 1000000 = 0) (same : t.text = u.text) : t = u := by
  have first := text_lt_iff plain.toInRange plain'.toInRange
  have second := text_lt_iff plain'.toInRange plain.toInRange
  rw [same] at first second
  have apart := (String.lt_irrefl u.text)
  rcases earlier_total t u with earlier | ⟨minutes, seconds, millis⟩ | later
  · exact absurd (first.mpr earlier) apart
  · have no_leap := plain.no_leap
    have no_leap' := plain'.no_leap
    obtain ⟨s, n⟩ := t
    obtain ⟨s', n'⟩ := u
    simp only [shownSecond, Instant.second, secondOfDay, secondsPerDay, Instant.millis, mk.injEq] at *
    omega
  · exact absurd (second.mpr later) apart

end Instant
end RelationFilter
