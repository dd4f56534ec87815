import Kronical.Core.Event
import Kronical.Lib.Calendar
import Kronical.Lib.OrderedText

/-!
# RFC 3339 texts

`DateTime::to_rfc3339` writes the date and the time of an instant, as many blocks of three digits of its
fraction as it needs, and the offset. Of the years 0 to 9999 the texts are ordered like the instants, also
byte by byte (`toRfc3339_lt`, `bytes_toRfc3339_lt`): where one text has left out digits that the other
shows, it goes on with the sign of the offset, which is below the dot and the digits.
-/

namespace Kronical

open OrderedText

/-! ### The text -/

/-- The days from the first day of the year 0 to the epoch. -/
def epochDay : Int := 719528

def dayOf (t : DateTime) : Int := t / 1000000000 / 86400 + epochDay

def secondOfDay (t : DateTime) : Nat := (t / 1000000000 % 86400).toNat

def subsecNanos (t : DateTime) : Nat := (t % 1000000000).toNat

/-- Four digits, or a sign and at least four digits. -/
def yearText (year : Int) : List Char :=
  if 0 ≤ year ∧ year ≤ 9999 then padded 4 year.toNat
  else
    let digits := (toString year.natAbs).toList
    (if year < 0 then '-' else '+') :: (List.replicate (4 - digits.length) '0' ++ digits)

def dateText (date : Calendar.Date) : List Char :=
  yearText date.year ++ ('-' :: padded 2 date.month ++ ('-' :: padded 2 date.day))

def timeText (second : Nat) : List Char :=
  'T' :: padded 2 (second / 3600) ++ (':' :: padded 2 (second / 60 % 60) ++ (':' :: padded 2 (second % 60)))

/-- The fraction of a second, with the fewest blocks of digits that are exact. -/
def fractionText (nanos : Nat) : List Char :=
  if nanos = 0 then []
  else if nanos % 1000000 = 0 then '.' :: padded 3 (nanos / 1000000)
  else if nanos % 1000 = 0 then '.' :: padded 6 (nanos / 1000)
  else '.' :: padded 9 nanos

/-- The offset of UTC. -/
def offsetText : List Char := ['+', '0', '0', ':', '0', '0']

def toRfc3339 (t : DateTime) : String :=
  String.ofList (dateText (Calendar.dateOf (dayOf t)) ++
    (timeText (secondOfDay t) ++ (fractionText (subsecNanos t) ++ offsetText)))

/-- The instant is in one of the years 0 to 9999. -/
def InYears (t : DateTime) : Prop :=
  0 ≤ (Calendar.dateOf (dayOf t)).year ∧ (Calendar.dateOf (dayOf t)).year ≤ 9999

instance (t : DateTime) : Decidable (InYears t) := inferInstanceAs (Decidable (_ ∧ _))

/-- A number of seconds, of milliseconds, of microseconds and of nanoseconds. -/
example : ["1970-01-01T00:00:00+00:00", "2024-04-21T12:34:56.789+00:00", "2000-02-29T00:00:00.000001+00:00",
      "1969-12-31T23:59:59.999999999+00:00"] =
    [0, 1713702896789000000, 951782400000001000, -1].map toRfc3339 := by decide +kernel

/-! ### The order of the parts -/

theorem dateText_eq {t : DateTime} (h : InYears t) :
    dateText (Calendar.dateOf (dayOf t)) = padded 4 (Calendar.dateOf (dayOf t)).year.toNat ++
      ('-' :: padded 2 (Calendar.dateOf (dayOf t)).month ++
        ('-' :: padded 2 (Calendar.dateOf (dayOf t)).day)) :=
  congrArg (· ++ _) (if_pos h)

theorem length_dateText {t : DateTime} (h : InYears t) :
    (dateText (Calendar.dateOf (dayOf t))).length = 10 := by
  rw [dateText_eq h]
  simp

theorem length_timeText (second : Nat) : (timeText second).length = 9 := by simp [timeText]

theorem dateText_lt {t t' : DateTime} (ht : InYears t) (ht' : InYears t') (h : dayOf t < dayOf t') :
    dateText (Calendar.dateOf (dayOf t)) < dateText (Calendar.dateOf (dayOf t')) := by
  have hdate := Calendar.dateOf_lt h
  have hmonth := Calendar.month_le (dayOf t')
  have hday := Calendar.day_le (dayOf t')
  rw [dateText_eq ht, dateText_eq ht']
  obtain ⟨hlow, hhigh⟩ := ht
  obtain ⟨hlow', hhigh'⟩ := ht'
  generalize Calendar.dateOf (dayOf t) = date, Calendar.dateOf (dayOf t') = date' at *
  refine append_lt_of_or (by simp) ?_
  rcases hdate with hyear | ⟨hyear, hdate⟩
  · exact Or.inl (padded_lt (by omega) (by omega))
  refine Or.inr ⟨by rw [hyear], ?_⟩
  refine append_lt_of_or (by simp) ?_
  rcases hdate with hless | ⟨hsame, hless⟩
  · exact Or.inl (List.cons_lt_cons_iff.mpr (Or.inr ⟨rfl, padded_lt hless (by omega)⟩))
  · exact Or.inr ⟨by rw [hsame], List.cons_lt_cons_iff.mpr (Or.inr ⟨rfl, padded_lt hless (by omega)⟩)⟩

theorem timeText_lt {second second' : Nat} (h : second < second') (h' : second' < 86400) :
    timeText second < timeText second' := by
  refine append_lt_of_or (by simp) ?_
  by_cases hhour : second / 3600 < second' / 3600
  · exact Or.inl (List.cons_lt_cons_iff.mpr (Or.inr ⟨rfl, padded_lt hhour (by omega)⟩))
  have hsame : second / 3600 = second' / 3600 := by omega
  refine Or.inr ⟨by rw [hsame], ?_⟩
  refine append_lt_of_or (by simp) ?_
  by_cases hminute : second / 60 % 60 < second' / 60 % 60
  · exact Or.inl (List.cons_lt_cons_iff.mpr (Or.inr ⟨rfl, padded_lt hminute (by omega)⟩))
  have hsame' : second / 60 % 60 = second' / 60 % 60 := by omega
  refine Or.inr ⟨by rw [hsame'], ?_⟩
  exact List.cons_lt_cons_iff.mpr (Or.inr ⟨rfl, padded_lt (by omega) (by omega)⟩)

theorem fractionText_eq {nanos : Nat} (h : nanos ≠ 0) : fractionText nanos = '.' :: trimmed 3 3 nanos := by
  have hmillis : trimmed 3 3 nanos = padded 3 (nanos / 1000000) ++ trimmed 3 2 (nanos % 1000000) :=
    if_neg h
  rw [fractionText, if_neg h, hmillis]
  split_ifs with hmilli hmicro
  · rw [hmilli, trimmed_zero, List.append_nil]
  · have hrest : trimmed 3 2 (nanos % 1000000) =
        padded 3 (nanos % 1000000 / 1000) ++ trimmed 3 1 (nanos % 1000000 % 1000) := if_neg hmilli
    have hnone : nanos % 1000000 % 1000 = 0 := by omega
    have hmiddle : nanos % 1000000 / 1000 = nanos / 1000 % 1000 := by omega
    have hfirst : nanos / 1000 / 1000 = nanos / 1000000 := by omega
    have hsplit : padded 6 (nanos / 1000) =
        padded 3 (nanos / 1000 / 1000) ++ padded 3 (nanos / 1000 % 1000) := padded_add 3 3 _
    rw [hrest, hnone, trimmed_zero, List.append_nil, hmiddle, hsplit, hfirst]
  · have hrest : trimmed 3 2 (nanos % 1000000) =
        padded 3 (nanos % 1000000 / 1000) ++ trimmed 3 1 (nanos % 1000000 % 1000) := if_neg hmilli
    have hsome : nanos % 1000000 % 1000 ≠ 0 := by omega
    have hlast : trimmed 3 1 (nanos % 1000000 % 1000) = padded 3 (nanos % 1000000 % 1000 / 1) ++ [] :=
      if_neg hsome
    have hsplit : padded 9 nanos = padded 3 (nanos / 1000000) ++ padded 6 (nanos % 1000000) :=
      padded_add 3 6 _
    have hsplit' : padded 6 (nanos % 1000000) =
        padded 3 (nanos % 1000000 / 1000) ++ padded 3 (nanos % 1000000 % 1000) := padded_add 3 3 _
    rw [hrest, hlast, Nat.div_one, List.append_nil, hsplit, hsplit']

theorem offsetText_lt {c : Char} (s : List Char) (hc : '0' ≤ c) : offsetText < c :: s := by
  refine List.cons_lt_cons_iff.mpr (Or.inl (lt_of_lt_of_le ?_ hc))
  decide

theorem fractionText_lt {nanos nanos' : Nat} (h : nanos < nanos') (h' : nanos' < 1000000000) :
    fractionText nanos ++ offsetText < fractionText nanos' ++ offsetText := by
  rw [fractionText_eq (show nanos' ≠ 0 by omega)]
  by_cases hzero : nanos = 0
  · -- The sign is also below the dot.
    rw [hzero]
    exact List.cons_lt_cons_iff.mpr (Or.inl (by decide))
  · rw [fractionText_eq hzero]
    exact List.cons_lt_cons_iff.mpr (Or.inr ⟨rfl, trimmed_lt (fun c s hc => offsetText_lt s hc) h h'⟩)

/-! ### The order of the texts -/

/-- Of two instants of the years 0 to 9999 the earlier one has the lesser text. -/
theorem toRfc3339_lt {t t' : DateTime} (ht : InYears t) (ht' : InYears t') (h : t < t') :
    toRfc3339 t < toRfc3339 t' := by
  have hnanos := Int.lt_iff_add_one_le.mp h
  rw [String.lt_iff_toList_lt, toRfc3339, toRfc3339, String.toList_ofList, String.toList_ofList]
  refine append_lt_of_or ((length_dateText ht).trans (length_dateText ht').symm) ?_
  by_cases hday : dayOf t < dayOf t'
  · exact Or.inl (dateText_lt ht ht' hday)
  have hsameDay : dayOf t = dayOf t' := by
    unfold dayOf at hday ⊢
    omega
  refine Or.inr ⟨by rw [hsameDay], ?_⟩
  refine append_lt_of_or ((length_timeText _).trans (length_timeText _).symm) ?_
  by_cases hsecond : secondOfDay t < secondOfDay t'
  · exact Or.inl (timeText_lt hsecond (by unfold secondOfDay; omega))
  have hsameSecond : secondOfDay t = secondOfDay t' := by
    unfold dayOf at hsameDay
    unfold secondOfDay at hsecond ⊢
    omega
  refine Or.inr ⟨by rw [hsameSecond], fractionText_lt ?_ (by unfold subsecNanos; omega)⟩
  unfold dayOf at hsameDay
  unfold secondOfDay at hsameSecond
  unfold subsecNanos
  omega

/-! ### Bytes -/

theorem isAscii_offsetText : IsAscii offsetText := by
  simp [IsAscii, offsetText]

theorem isAscii_fractionText (nanos : Nat) : IsAscii (fractionText nanos) := by
  unfold fractionText
  split_ifs
  · exact fun c hc => absurd hc List.not_mem_nil
  · exact (isAscii_padded _ _).cons (by decide)
  · exact (isAscii_padded _ _).cons (by decide)
  · exact (isAscii_padded _ _).cons (by decide)

theorem isAscii_timeText (second : Nat) : IsAscii (timeText second) :=
  ((isAscii_padded _ _).cons (by decide)).append
    (((isAscii_padded _ _).cons (by decide)).append ((isAscii_padded _ _).cons (by decide)))

theorem isAscii_dateText {t : DateTime} (h : InYears t) :
    IsAscii (dateText (Calendar.dateOf (dayOf t))) := by
  rw [dateText_eq h]
  exact (isAscii_padded _ _).append
    (((isAscii_padded _ _).cons (by decide)).append ((isAscii_padded _ _).cons (by decide)))

theorem bytes_toRfc3339_lt {t t' : DateTime} (ht : InYears t) (ht' : InYears t') (h : t < t') :
    bytes (toRfc3339 t) < bytes (toRfc3339 t') := by
  have hascii : ∀ {t : DateTime}, InYears t → IsAscii (dateText (Calendar.dateOf (dayOf t)) ++
      (timeText (secondOfDay t) ++ (fractionText (subsecNanos t) ++ offsetText))) := fun ht =>
    (isAscii_dateText ht).append ((isAscii_timeText _).append
      ((isAscii_fractionText _).append isAscii_offsetText))
  have hlt := toRfc3339_lt ht ht' h
  rw [String.lt_iff_toList_lt, toRfc3339, toRfc3339, String.toList_ofList, String.toList_ofList] at hlt
  rw [toRfc3339, toRfc3339, bytes_ofList (hascii ht), bytes_ofList (hascii ht')]
  exact map_lt_of_lt (hascii ht) (hascii ht') hlt

theorem bytes_toRfc3339_lt_iff {t t' : DateTime} (ht : InYears t) (ht' : InYears t') :
    bytes (toRfc3339 t) < bytes (toRfc3339 t') ↔ t < t' := by
  refine ⟨fun h => ?_, bytes_toRfc3339_lt ht ht'⟩
  rcases lt_trichotomy t t' with hlt | rfl | hlt
  · exact hlt
  · exact absurd h (List.lt_irrefl _)
  · exact absurd h (List.lt_asymm (bytes_toRfc3339_lt ht' ht hlt))

theorem toRfc3339_le_iff {t t' : DateTime} (ht : InYears t) (ht' : InYears t') :
    toRfc3339 t ≤ toRfc3339 t' ↔ t ≤ t' := by
  constructor
  · intro h
    by_contra hlt
    exact absurd h (not_le.mpr (toRfc3339_lt ht' ht (not_le.mp hlt)))
  · intro h
    rcases h.lt_or_eq with hlt | rfl
    · exact (toRfc3339_lt ht ht' hlt).le
    · exact le_rfl

end Kronical
