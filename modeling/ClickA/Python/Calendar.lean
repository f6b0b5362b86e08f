import ClickA.Python.Decimal
import Mathlib.Algebra.Order.Ring.Int

/-!
# Dates

`time.gmtime`, for seconds before and after 1970, and the seconds that a date stands for. The
calendar repeats after 400 years, in which the centuries, the groups of four years and the years
have fixed lengths, but for the last one of each.

## Main definitions

* `leap`, `monthLengths`, `daysBefore`: the calendar
* `StructTime`, `timegm`: a date, and the seconds it stands for
* `gmtime`: the date of a second
* `zeroPadded`: a number with leading zeros

## Main results

* `daysBefore_yearOf`: the year that a day is in
* `timegm_dateOf`, `valid_dateOf`: the date of a second is one, and stands for it
* `zeroPadded_inj`: numbers of a width are told apart
-/

namespace Python

/-! ## Blocks -/

/-- Consecutive blocks: the block that something is in, and how far from its begin. -/
def locate : List ℕ → ℕ → ℕ × ℕ
  | [], n => (0, n)
  | l :: ls, n => if n < l then (0, n) else ((locate ls (n - l)).1 + 1, (locate ls (n - l)).2)

theorem sum_take_locate (ls : List ℕ) (n : ℕ) :
    (ls.take (locate ls n).1).sum + (locate ls n).2 = n := by
  induction ls generalizing n with
  | nil => exact Nat.zero_add n
  | cons l ls ih =>
    rw [locate]
    split_ifs with h
    · exact Nat.zero_add n
    · have hrest := ih (n - l)
      rw [List.take_succ_cons, List.sum_cons]
      omega

theorem locate_lt {ls : List ℕ} {n : ℕ} (h : n < ls.sum) :
    ∃ l, ls[(locate ls n).1]? = some l ∧ (locate ls n).2 < l := by
  induction ls generalizing n with
  | nil => exact absurd h (Nat.not_lt_zero n)
  | cons l ls ih =>
    rw [locate]
    split_ifs with hlt
    · exact ⟨l, rfl, hlt⟩
    · rw [List.sum_cons] at h
      exact ih (by omega)

/-! ## The calendar -/

/-- The years with a 29 February. -/
def leap (year : ℤ) : Bool := year % 4 = 0 && (year % 100 ≠ 0 || year % 400 = 0)

/-- The lengths of the months. -/
def monthLengths (leap : Bool) : List ℕ :=
  [31, if leap then 29 else 28, 31, 30, 31, 30, 31, 31, 30, 31, 30, 31]

theorem sum_monthLengths (leap : Bool) : (monthLengths leap).sum = if leap then 366 else 365 := by
  cases leap <;> rfl

/-- The days before a year, from the begin of the year 1 on. -/
def daysBefore (year : ℤ) : ℤ :=
  365 * (year - 1) + (year - 1) / 4 - (year - 1) / 100 + (year - 1) / 400

/-- The year of a day, and the day of the year. -/
def yearOf (day : ℤ) : ℤ × ℕ :=
  let n := (day % 146097).toNat
  let centuries := n / 36524
  let fours := n % 36524 / 1461
  let years := n % 36524 % 1461 / 365
  let year := 400 * (day / 146097) + (100 * centuries + 4 * fours + years : ℕ) + 1
  if years = 4 ∨ centuries = 4 then (year - 1, 365) else (year, n % 36524 % 1461 % 365)

section Years

variable {a : ℤ} {b c e : ℕ}

/-- The years of a century, in groups of four. -/
theorem daysBefore_eq (hb : b ≤ 3) (hc : c ≤ 24) (he : e ≤ 3) :
    daysBefore (400 * a + (100 * b + 4 * c + e : ℕ) + 1) =
      146097 * a + (36524 * b + 1461 * c + 365 * e : ℕ) := by
  unfold daysBefore
  push_cast
  omega

/-- The last year of a group of four has a 29 February, if it does not end a century, or ends the
last one. -/
theorem leap_iff (hb : b ≤ 3) (hc : c ≤ 24) (he : e ≤ 3) :
    leap (400 * a + (100 * b + 4 * c + e : ℕ) + 1) = true ↔ e = 3 ∧ (c ≠ 24 ∨ b = 3) := by
  simp only [leap, Bool.and_eq_true, Bool.or_eq_true, decide_eq_true_iff]
  push_cast
  omega

/-- A day of a year of a group of four. -/
theorem daysBefore_add {day : ℤ} {yday : ℕ} (hb : b ≤ 3) (hc : c ≤ 24) (he : e ≤ 3)
    (hday : day = 146097 * a + (36524 * b + 1461 * c + 365 * e + yday : ℕ))
    (hyday : yday < 365 ∨ yday = 365 ∧ e = 3 ∧ (c ≠ 24 ∨ b = 3)) :
    daysBefore (400 * a + (100 * b + 4 * c + e : ℕ) + 1) + yday = day ∧
      yday < if leap (400 * a + (100 * b + 4 * c + e : ℕ) + 1) then 366 else 365 := by
  rw [daysBefore_eq hb hc he]
  refine ⟨by omega, ?_⟩
  rcases hyday with hlt | ⟨rfl, hleap⟩
  · split <;> omega
  · rw [if_pos ((leap_iff hb hc he).mpr hleap)]
    exact Nat.lt_succ_self _

/-- **The day of the year, behind the days before the year.** -/
theorem daysBefore_yearOf (day : ℤ) : daysBefore (yearOf day).1 + (yearOf day).2 = day ∧
    (yearOf day).2 < if leap (yearOf day).1 then 366 else 365 := by
  obtain ⟨n, hn, hday, hlt⟩ : ∃ n : ℕ, (day % 146097).toNat = n ∧
      day = 146097 * (day / 146097) + n ∧ n < 146097 := ⟨_, rfl, by omega, by omega⟩
  unfold yearOf
  rw [hn]
  dsimp only
  by_cases hcentury : n / 36524 = 4
  · rw [if_pos (.inr hcentury)]
    have hyear : 400 * (day / 146097) +
        (100 * (n / 36524) + 4 * (n % 36524 / 1461) + n % 36524 % 1461 / 365 : ℕ) + 1 - 1 =
        400 * (day / 146097) + (100 * 3 + 4 * 24 + 3 : ℕ) + 1 := by omega
    dsimp only
    rw [hyear]
    exact daysBefore_add le_rfl le_rfl le_rfl (by omega) (.inr ⟨rfl, rfl, .inr rfl⟩)
  have hb : n / 36524 ≤ 3 := by omega
  by_cases hfour : n % 36524 % 1461 / 365 = 4
  · rw [if_pos (.inl hfour)]
    have hc : n % 36524 / 1461 < 24 := by omega
    have hyear : 400 * (day / 146097) +
        (100 * (n / 36524) + 4 * (n % 36524 / 1461) + n % 36524 % 1461 / 365 : ℕ) + 1 - 1 =
        400 * (day / 146097) + (100 * (n / 36524) + 4 * (n % 36524 / 1461) + 3 : ℕ) + 1 := by
      omega
    dsimp only
    rw [hyear]
    exact daysBefore_add hb hc.le le_rfl (by omega) (.inr ⟨rfl, rfl, .inl hc.ne⟩)
  · rw [if_neg (by rintro (h | h) <;> contradiction)]
    exact daysBefore_add hb (by omega) (by omega) (by omega) (.inl (by omega))

end Years

/-! ## Dates -/

/-- A date, as far as it is used. -/
structure StructTime where
  tmYear : ℤ
  tmMon : ℕ
  tmMday : ℕ
  tmHour : ℕ
  tmMin : ℕ
  tmSec : ℕ
deriving DecidableEq, Repr

namespace StructTime

/-- The date is one of the calendar, without leap seconds. -/
structure Valid (t : StructTime) : Prop where
  mon : 1 ≤ t.tmMon
  mday : 1 ≤ t.tmMday ∧ ∃ l, (monthLengths (leap t.tmYear))[t.tmMon - 1]? = some l ∧ t.tmMday ≤ l
  hour : t.tmHour < 24
  min : t.tmMin < 60
  sec : t.tmSec < 60

/-- The days from the begin of 1970 to the day. -/
def days (t : StructTime) : ℤ :=
  daysBefore t.tmYear + ((monthLengths (leap t.tmYear)).take (t.tmMon - 1)).sum +
    (t.tmMday - 1) - 719162

end StructTime

/-- `calendar.timegm`: the seconds from the begin of 1970 to the date. -/
def timegm (t : StructTime) : ℤ := 86400 * t.days + 3600 * t.tmHour + 60 * t.tmMin + t.tmSec

/-- The date of a second. -/
def dateOf (seconds : ℤ) : StructTime :=
  let (year, yday) := yearOf (seconds / 86400 + 719162)
  let (mon, mday) := locate (monthLengths (leap year)) yday
  let sec := (seconds % 86400).toNat
  ⟨year, mon + 1, mday + 1, sec / 3600, sec % 3600 / 60, sec % 60⟩

/-- `time.gmtime`, for the largest `time_t`. -/
def gmtime (maxTime : ℕ) (seconds : ℤ) : Except Exn StructTime :=
  if -maxTime - 1 ≤ seconds ∧ seconds ≤ maxTime then .ok (dateOf seconds) else .error .valueError

/-- **The date of a second stands for it.** -/
theorem timegm_dateOf (seconds : ℤ) : timegm (dateOf seconds) = seconds := by
  obtain ⟨hdays, -⟩ := daysBefore_yearOf (seconds / 86400 + 719162)
  have hmonth := sum_take_locate (monthLengths (leap (yearOf (seconds / 86400 + 719162)).1))
    (yearOf (seconds / 86400 + 719162)).2
  have hday : (dateOf seconds).days = seconds / 86400 := by
    unfold StructTime.days dateOf
    dsimp only
    rw [Nat.add_sub_cancel]
    omega
  unfold timegm
  rw [hday]
  unfold dateOf
  dsimp only
  omega

/-- **It is one of the calendar.** -/
theorem valid_dateOf (seconds : ℤ) : (dateOf seconds).Valid := by
  obtain ⟨-, hlt⟩ := daysBefore_yearOf (seconds / 86400 + 719162)
  rw [← sum_monthLengths] at hlt
  obtain ⟨l, hl, hmday⟩ := locate_lt hlt
  unfold dateOf
  exact ⟨Nat.succ_pos _, ⟨Nat.succ_pos _, l, hl, hmday⟩, by dsimp only; omega,
    by dsimp only; omega, by dsimp only; omega⟩

/-- The years of the seconds of four bytes. -/
theorem tmYear_dateOf {seconds : ℤ} (hpos : -86400 ≤ seconds) (hlt : seconds < 2 ^ 32) :
    0 ≤ (dateOf seconds).tmYear ∧ (dateOf seconds).tmYear < 10 ^ 4 := by
  have hday : -1 ≤ seconds / 86400 ∧ seconds / 86400 < 49711 := by omega
  show 0 ≤ (yearOf (seconds / 86400 + 719162)).1 ∧ (yearOf (seconds / 86400 + 719162)).1 < 10 ^ 4
  obtain ⟨hyear, hyday⟩ := daysBefore_yearOf (seconds / 86400 + 719162)
  have hle : (yearOf (seconds / 86400 + 719162)).2 < 366 := hyday.trans_le (by split <;> omega)
  unfold daysBefore at hyear
  omega

/-! ## Texts of dates -/

/-- `'%0kd' % n`. -/
def zeroPadded (k n : ℕ) : Bytes := List.replicate (k - (str n).length) 48 ++ str n

theorem length_zeroPadded {k n : ℕ} (hk : 0 < k) (h : n < 10 ^ k) :
    (zeroPadded k n).length = k := by
  have hle := (length_str_le_iff hk).mpr h
  rw [zeroPadded, List.length_append, List.length_replicate]
  omega

theorem digitsToNat_zeroPadded (k n : ℕ) : digitsToNat (zeroPadded k n) = n := by
  have hzeros (m : ℕ) : digitsToNat (List.replicate m 48) = 0 := by
    rw [digitsToNat_eq_zero_iff (by simp [isDigit])]
    exact fun b hb => List.eq_of_mem_replicate hb
  rw [zeroPadded, digitsToNat_append, hzeros, Nat.zero_mul, Nat.zero_add, digitsToNat_str]

/-- Numbers of a width are told apart, with the texts behind them. -/
theorem zeroPadded_inj {k n n' : ℕ} {rest rest' : Bytes} (hk : 0 < k) (hn : n < 10 ^ k)
    (hn' : n' < 10 ^ k) (h : zeroPadded k n ++ rest = zeroPadded k n' ++ rest') :
    n = n' ∧ rest = rest' := by
  have hlength := (length_zeroPadded hk hn).trans (length_zeroPadded hk hn').symm
  obtain ⟨hpadded, hrest⟩ := List.append_inj h hlength
  rw [← digitsToNat_zeroPadded k n, ← digitsToNat_zeroPadded k n', hpadded]
  exact ⟨rfl, hrest⟩

end Python
