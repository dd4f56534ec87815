import Mathlib.Algebra.Order.Ring.Nat
import Mathlib.Data.Nat.Find
import Mathlib.Data.List.Basic

/-!
# The Gregorian calendar

The date of a day, counted from the first day of the year 0: its year in a cycle of 400 years, which has
146097 days, and the month and the day in it from the lengths of the months. A later day has a later date
(`dateOf_lt`).
-/

namespace Calendar

def isLeap (y : Nat) : Bool := y % 4 = 0 && (y % 100 ≠ 0 || y % 400 = 0)

def yearLength (y : Nat) : Nat := if isLeap y then 366 else 365

/-- The days of the years `0` to `y - 1`. -/
def daysBeforeYear (y : Nat) : Nat := 365 * y + (y + 3) / 4 - (y + 99) / 100 + (y + 399) / 400

def monthLengths (y : Nat) : List Nat :=
  [31, if isLeap y then 29 else 28, 31, 30, 31, 30, 31, 31, 30, 31, 30, 31]

/-- The year of a day of the cycle. -/
def yearOf (e : Nat) : Nat := Nat.findGreatest (fun y => daysBeforeYear y ≤ e) (e / 365)

/-- In which of the parts with these lengths something is, and where in it. -/
def place : List Nat → Nat → Nat × Nat
  | [], d => (0, d)
  | len :: rest, d => if d < len then (0, d) else ((place rest (d - len)).1 + 1, (place rest (d - len)).2)

structure Date where
  year : Int
  month : Nat
  day : Nat
  deriving DecidableEq, Repr

/-- The day of the cycle that a day is. -/
def dayOfCycle (day : Int) : Nat := (day % 146097).toNat

/-- The day of its year that a day of the cycle is. -/
def dayOfYear (e : Nat) : Nat := e - daysBeforeYear (yearOf e)

/-- The month of a day of the cycle and the day of the month, both from 0 on. -/
def monthDayOf (e : Nat) : Nat × Nat := place (monthLengths (yearOf e)) (dayOfYear e)

def dateOf (day : Int) : Date :=
  let e := dayOfCycle day
  { year := 400 * (day / 146097) + yearOf e
    month := (monthDayOf e).1 + 1
    day := (monthDayOf e).2 + 1 }

/-! ### Years -/

theorem multiples_succ (y k : Nat) (hk : 0 < k) :
    (y + k) / k = (y + (k - 1)) / k + if y % k = 0 then 1 else 0 := by
  have hsucc : y + k = y + (k - 1) + 1 := by omega
  rw [hsucc, Nat.succ_div]
  refine congrArg _ (if_congr ?_ rfl rfl)
  rw [← hsucc, Nat.dvd_add_left (Nat.dvd_refl k), Nat.dvd_iff_mod_eq_zero]

theorem daysBeforeYear_succ (y : Nat) : daysBeforeYear (y + 1) = daysBeforeYear y + yearLength y := by
  have hfour : (y + 1 + 3) / 4 = (y + 3) / 4 + if y % 4 = 0 then 1 else 0 :=
    multiples_succ y 4 (by omega)
  have hhundred : (y + 1 + 99) / 100 = (y + 99) / 100 + if y % 100 = 0 then 1 else 0 :=
    multiples_succ y 100 (by omega)
  have hcycle : (y + 1 + 399) / 400 = (y + 399) / 400 + if y % 400 = 0 then 1 else 0 :=
    multiples_succ y 400 (by omega)
  have hle : (y + 99) / 100 ≤ (y + 3) / 4 := by omega
  have hdvd : y % 100 = 0 → y % 4 = 0 := by omega
  have hdvd' : y % 400 = 0 → y % 100 = 0 := by omega
  have hleap : isLeap y = true ↔ y % 4 = 0 ∧ (y % 100 ≠ 0 ∨ y % 400 = 0) := by
    simp [isLeap]
  unfold daysBeforeYear yearLength
  rw [hfour, hhundred, hcycle]
  generalize (y + 3) / 4 = fours, (y + 99) / 100 = hundreds, (y + 399) / 400 = cycles at hle
  by_cases h4 : y % 4 = 0
  · by_cases h100 : y % 100 = 0
    · by_cases h400 : y % 400 = 0
      · rw [if_pos (hleap.mpr ⟨h4, Or.inr h400⟩), if_pos h4, if_pos h100, if_pos h400]
        omega
      · have hcommon : ¬ isLeap y = true := fun h => (hleap.mp h).2.elim (absurd h100) h400
        rw [if_neg hcommon, if_pos h4, if_pos h100, if_neg h400]
        omega
    · rw [if_pos (hleap.mpr ⟨h4, Or.inl h100⟩), if_pos h4, if_neg h100, if_neg (mt hdvd' h100)]
      omega
  · have hcommon : ¬ isLeap y = true := fun h => h4 (hleap.mp h).1
    rw [if_neg hcommon, if_neg h4, if_neg (mt hdvd h4), if_neg (mt hdvd' (mt hdvd h4))]
    omega

theorem daysBeforeYear_yearOf (e : Nat) : daysBeforeYear (yearOf e) ≤ e := by
  have hzero : daysBeforeYear 0 ≤ e := Nat.zero_le e
  exact Nat.findGreatest_spec (P := fun y => daysBeforeYear y ≤ e) (Nat.zero_le _) hzero

theorem lt_daysBeforeYear (e : Nat) : e < daysBeforeYear (yearOf e + 1) := by
  rcases Nat.lt_or_ge (e / 365) (yearOf e + 1) with h | h
  · have hlow : 365 * (yearOf e + 1) ≤ daysBeforeYear (yearOf e + 1) := by
      unfold daysBeforeYear
      omega
    omega
  · exact not_le.mp (Nat.findGreatest_is_greatest (P := fun y => daysBeforeYear y ≤ e)
      (Nat.lt_succ_self _) h)

theorem yearOf_mono {e e' : Nat} (h : e ≤ e') : yearOf e ≤ yearOf e' :=
  Nat.findGreatest_mono (fun _ hy => le_trans hy h) (Nat.div_le_div_right h)

theorem yearOf_lt (day : Int) : yearOf (dayOfCycle day) < 400 := by
  have hle := daysBeforeYear_yearOf (dayOfCycle day)
  unfold dayOfCycle at *
  unfold daysBeforeYear at hle
  omega

theorem dayOfYear_lt (e : Nat) : dayOfYear e < yearLength (yearOf e) := by
  have hlow := daysBeforeYear_yearOf e
  have hhigh := lt_daysBeforeYear e
  rw [daysBeforeYear_succ] at hhigh
  unfold dayOfYear
  omega

/-! ### Months -/

theorem sum_monthLengths (y : Nat) : (monthLengths y).sum = yearLength y := by
  unfold monthLengths yearLength
  cases isLeap y <;> rfl

theorem monthLengths_le {y len : Nat} (h : len ∈ monthLengths y) : len ≤ 31 := by
  unfold monthLengths at h
  cases hleap : isLeap y <;> simp [hleap] at h <;> omega

theorem place_bounds {lens : List Nat} {d : Nat} (h : d < lens.sum) :
    (place lens d).1 < lens.length ∧ ∃ len ∈ lens, (place lens d).2 < len := by
  induction lens generalizing d with
  | nil => simp at h
  | cons len rest ih =>
    rw [place]
    split_ifs with hlt
    · exact ⟨by simp, len, List.mem_cons_self, hlt⟩
    · rw [List.sum_cons] at h
      obtain ⟨hindex, part, hpart, hoffset⟩ := @ih (d - len) (by omega)
      exact ⟨by simpa using hindex, part, List.mem_cons_of_mem _ hpart, hoffset⟩

theorem place_lt (lens : List Nat) {d d' : Nat} (h : d < d') :
    (place lens d).1 < (place lens d').1 ∨
      (place lens d).1 = (place lens d').1 ∧ (place lens d).2 < (place lens d').2 := by
  induction lens generalizing d d' with
  | nil => exact Or.inr ⟨rfl, h⟩
  | cons len rest ih =>
    rw [place, place]
    split_ifs with hfirst hsecond hsecond
    · exact Or.inr ⟨rfl, h⟩
    · exact Or.inl (Nat.succ_pos _)
    · omega
    · rcases @ih (d - len) (d' - len) (by omega) with hlt | ⟨heq, hlt⟩
      · exact Or.inl (Nat.succ_lt_succ hlt)
      · exact Or.inr ⟨congrArg (· + 1) heq, hlt⟩

/-! ### Dates -/

theorem month_le (day : Int) : (dateOf day).month ≤ 12 := by
  have hbounds := (place_bounds (sum_monthLengths _ ▸ dayOfYear_lt (dayOfCycle day))).1
  exact hbounds

theorem day_le (day : Int) : (dateOf day).day ≤ 31 := by
  obtain ⟨-, len, hlen, hlt⟩ :=
    place_bounds (sum_monthLengths _ ▸ dayOfYear_lt (dayOfCycle day))
  exact le_trans hlt (monthLengths_le hlen)

theorem monthDayOf_lt {e e' : Nat} (h : e < e') (hyear : yearOf e = yearOf e') :
    (monthDayOf e).1 < (monthDayOf e').1 ∨
      (monthDayOf e).1 = (monthDayOf e').1 ∧ (monthDayOf e).2 < (monthDayOf e').2 := by
  have hlow := daysBeforeYear_yearOf e
  have hdays : dayOfYear e < dayOfYear e' := by
    unfold dayOfYear
    rw [← hyear]
    omega
  unfold monthDayOf
  rw [← hyear]
  exact place_lt _ hdays

/-- A later day has a later date. -/
theorem dateOf_lt {day day' : Int} (h : day < day') :
    (dateOf day).year < (dateOf day').year ∨
      (dateOf day).year = (dateOf day').year ∧
        ((dateOf day).month < (dateOf day').month ∨
          (dateOf day).month = (dateOf day').month ∧ (dateOf day).day < (dateOf day').day) := by
  have hyear := yearOf_lt day
  have hyear' := yearOf_lt day'
  unfold dateOf
  dsimp only
  by_cases hcycle : day / 146097 < day' / 146097
  · omega
  · have hsame : day / 146097 = day' / 146097 := by omega
    have hday : dayOfCycle day < dayOfCycle day' := by
      unfold dayOfCycle
      omega
    have hmono := yearOf_mono (Nat.le_of_lt hday)
    by_cases heq : yearOf (dayOfCycle day) = yearOf (dayOfCycle day')
    · have hmonth := monthDayOf_lt hday heq
      omega
    · omega

end Calendar
