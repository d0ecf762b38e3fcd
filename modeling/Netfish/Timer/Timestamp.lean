import Netfish.Kit.Decimal
import Netfish.Kit.Periods
import Netfish.Timer.TimerQueue

/-!
# Timestamp

The text of a time as each line of the log begins with it. `gmtime_r` is the C library's, for times from 1970
on: the years and months of the Gregorian calendar, counted off from the epoch. A text is a list of characters.
-/

set_option autoImplicit false

namespace Netfish

open Kit

/-- `struct tm`, as far as it is read. -/
structure Tm where
  /-- Since 1900. -/
  tm_year : Nat
  /-- Since January. -/
  tm_mon : Nat
  tm_mday : Nat
  tm_hour : Nat
  tm_min : Nat
  tm_sec : Nat
deriving DecidableEq, Repr

/-! ## The calendar -/

def isLeap (year : Nat) : Bool := (year % 4 = 0 && year % 100 ≠ 0) || year % 400 = 0

def yearLength (year : Nat) : Nat := if isLeap year then 366 else 365

/-- The days of a month, counted from January; the months after December do not come up. -/
def monthLength (leap : Bool) : Nat → Nat
  | 1 => if leap then 29 else 28
  | 3 | 5 | 8 | 10 => 30
  | _ => 31

theorem yearLength_pos (year : Nat) : 0 < yearLength year := by
  unfold yearLength
  split <;> decide

theorem monthLength_le (leap : Bool) (month : Nat) :
    0 < monthLength leap month ∧ monthLength leap month ≤ 31 := by
  unfold monthLength
  split
  · split <;> decide
  all_goals decide

theorem monthLength_pos (leap : Bool) (month : Nat) : 0 < monthLength leap month :=
  (monthLength_le leap month).1

theorem total_monthLength (year : Nat) : total (monthLength (isLeap year)) 0 12 = yearLength year := by
  unfold yearLength
  cases isLeap year <;> rfl

/-- The year, and the day of the year from 0. -/
def yearOf (days : Nat) : Nat × Nat := locate yearLength yearLength_pos 1970 days

/-- The month, and the day of the month from 0. -/
def monthOf (leap : Bool) (yday : Nat) : Nat × Nat :=
  locate (monthLength leap) (monthLength_pos leap) 0 yday

def gmtime_r (seconds : Nat) : Tm :=
  let days := seconds / 86400
  let rem := seconds % 86400
  let year := yearOf days
  let month := monthOf (isLeap year.1) year.2
  { tm_year := year.1 - 1900
    tm_mon := month.1
    tm_mday := month.2 + 1
    tm_hour := rem / 3600
    tm_min := rem % 3600 / 60
    tm_sec := rem % 60 }

namespace Timestamp

/-- With `gmtime_r` for a time from the epoch on. -/
def toFormattedString (t : Timestamp) : List Char :=
  let seconds := (t.tdiv kMicroSecondsPerSecond).toNat
  let microseconds := (t.tmod kMicroSecondsPerSecond).toNat
  let tm_time := gmtime_r seconds
  snprintf 32 (List.leftpad 4 ' ' (Nat.toDigits 10 (tm_time.tm_year + 1900)) ++
    zeroPadded 2 (tm_time.tm_mon + 1) ++ zeroPadded 2 tm_time.tm_mday ++ ' ' ::
    zeroPadded 2 tm_time.tm_hour ++ ':' :: zeroPadded 2 tm_time.tm_min ++ ':' ::
    zeroPadded 2 tm_time.tm_sec ++ '.' :: zeroPadded 6 microseconds)

/-- The year is written with four digits. -/
def year (t : Timestamp) : Nat :=
  (yearOf (t.toNat / 1000000 / 86400)).1

/-- The numbers of the text, in their order. -/
def numbers (us : Nat) : List Nat :=
  let seconds := us / 1000000
  let tm := gmtime_r seconds
  [tm.tm_year + 1900, tm.tm_mon + 1, tm.tm_mday, tm.tm_hour, tm.tm_min, tm.tm_sec, us % 1000000]

/-- The fields of the text. -/
def fields : List (Nat × List Char) :=
  [(4, []), (2, []), (2, [' ']), (2, [':']), (2, [':']), (2, ['.']), (6, [])]

end Timestamp

theorem div_mod_lt {m n : Nat} (k : Nat) (h : m < n) : m / k < n / k ∨ m / k = n / k ∧ m % k < n % k := by
  have hle : m / k ≤ n / k := Nat.div_le_div_right (Nat.le_of_lt h)
  rcases Nat.lt_or_eq_of_le hle with hlt | heq
  · exact .inl hlt
  · refine .inr ⟨heq, ?_⟩
    have hm := Nat.div_add_mod m k
    have hn := Nat.div_add_mod n k
    rw [heq] at hm
    omega

/-- The month and the day of a day of the year. -/
def dayOf (leap : Bool) (yday : Nat) : List Nat := [(monthOf leap yday).1 + 1, (monthOf leap yday).2 + 1]

theorem dayOf_lt {leap : Bool} {d e : Nat} (h : d < e) : dayOf leap d < dayOf leap e := by
  have hmonth : (monthOf leap d).1 < (monthOf leap e).1 ∨
      (monthOf leap d).1 = (monthOf leap e).1 ∧ (monthOf leap d).2 < (monthOf leap e).2 := locate_lt h
  unfold dayOf
  rcases hmonth with hlt | ⟨heq, hlt⟩
  · exact List.cons_lt_cons_iff.mpr (.inl (Nat.succ_lt_succ hlt))
  · refine List.cons_lt_cons_iff.mpr (.inr ⟨congrArg (· + 1) heq, ?_⟩)
    exact List.cons_lt_cons_iff.mpr (.inl (Nat.succ_lt_succ hlt))

/-- The numbers of a date. -/
def dateOf (days : Nat) : List Nat :=
  (yearOf days).1 :: dayOf (isLeap (yearOf days).1) (yearOf days).2

theorem dateOf_lt {d e : Nat} (h : d < e) : dateOf d < dateOf e := by
  have hyear : (yearOf d).1 < (yearOf e).1 ∨ (yearOf d).1 = (yearOf e).1 ∧ (yearOf d).2 < (yearOf e).2 :=
    locate_lt h
  unfold dateOf
  rcases hyear with hlt | ⟨heq, hlt⟩
  · exact List.cons_lt_cons_iff.mpr (.inl hlt)
  · rw [heq]
    exact List.cons_lt_cons_iff.mpr (.inr ⟨rfl, dayOf_lt hlt⟩)

/-- The numbers of a time of day. -/
def clockOf (rem : Nat) : List Nat := [rem / 3600, rem % 3600 / 60, rem % 60]

theorem clockOf_lt {d e : Nat} (h : d < e) : clockOf d < clockOf e := by
  unfold clockOf
  rcases div_mod_lt 3600 h with hlt | ⟨heq, hlt⟩
  · exact List.cons_lt_cons_iff.mpr (.inl hlt)
  · refine List.cons_lt_cons_iff.mpr (.inr ⟨heq, ?_⟩)
    rcases div_mod_lt 60 hlt with hlt | ⟨heq', hlt⟩
    · exact List.cons_lt_cons_iff.mpr (.inl hlt)
    · refine List.cons_lt_cons_iff.mpr (.inr ⟨heq', List.cons_lt_cons_iff.mpr (.inl ?_)⟩)
      rwa [Nat.mod_mod_of_dvd d (by decide), Nat.mod_mod_of_dvd e (by decide)] at hlt

theorem yearOf_ge (days : Nat) : 1970 ≤ (yearOf days).1 := le_locate 1970 days

theorem monthOf_lt (year : Nat) {yday : Nat} (h : yday < yearLength year) :
    (monthOf (isLeap year) yday).1 < 12 := by
  rw [← total_monthLength] at h
  have hlt := @locate_lt_of_total _ (monthLength_pos (isLeap year)) _ _ _ h
  rwa [Nat.zero_add] at hlt

namespace Timestamp

theorem tm_year_eq (seconds : Nat) : (gmtime_r seconds).tm_year + 1900 = (yearOf (seconds / 86400)).1 := by
  have hge := yearOf_ge (seconds / 86400)
  show (yearOf (seconds / 86400)).1 - 1900 + 1900 = (yearOf (seconds / 86400)).1
  omega

theorem numbers_eq (us : Nat) : numbers us =
    dateOf (us / 1000000 / 86400) ++ (clockOf (us / 1000000 % 86400) ++ [us % 1000000]) := by
  unfold numbers
  generalize us / 1000000 = seconds
  generalize us % 1000000 = microseconds
  simp only [tm_year_eq]
  rfl

theorem numbers_lt {us vs : Nat} (h : us < vs) : numbers us < numbers vs := by
  rw [numbers_eq, numbers_eq]
  rcases div_mod_lt 1000000 h with hlt | ⟨heq, hlt⟩
  · rcases div_mod_lt 86400 hlt with hlt | ⟨heq, hlt⟩
    · exact append_lt_append rfl (dateOf_lt hlt)
    · rw [heq]
      exact List.append_left_lt (append_lt_append rfl (clockOf_lt hlt))
  · rw [heq]
    exact List.append_left_lt (List.append_left_lt (List.cons_lt_cons_iff.mpr (.inl hlt)))

/-- The numbers have room in their fields as long as the year has four digits. -/
theorem numbers_fit {us : Nat} (hyear : (yearOf (us / 1000000 / 86400)).1 < 10000) :
    FitsFields fields (numbers us) := by
  have hrest : (yearOf (us / 1000000 / 86400)).2 < yearLength (yearOf (us / 1000000 / 86400)).1 :=
    locate_rest 1970 _
  have hmonth := monthOf_lt _ hrest
  have hday : (monthOf (isLeap (yearOf (us / 1000000 / 86400)).1) (yearOf (us / 1000000 / 86400)).2).2 < 31 :=
    Nat.lt_of_lt_of_le (locate_rest 0 _) (monthLength_le ..).2
  have hsecond : us / 1000000 % 86400 < 86400 := Nat.mod_lt _ (by decide)
  rw [numbers_eq]
  refine .cons ⟨by decide, hyear⟩ (.cons ⟨by decide, ?_⟩ (.cons ⟨by decide, ?_⟩ (.cons ⟨by decide, ?_⟩
    (.cons ⟨by decide, ?_⟩ (.cons ⟨by decide, ?_⟩ (.cons ⟨by decide, ?_⟩ .nil))))))
  all_goals dsimp only
  all_goals omega

/-- `%4d` of a year with four digits. -/
theorem year_text {year : Nat} (hge : 1000 ≤ year) (hlt : year < 10000) :
    List.leftpad 4 ' ' (Nat.toDigits 10 year) = zeroPadded 4 year := by
  have hle := (Nat.length_toDigits_le_iff (k := 4) (by decide : 1 < 10) (by decide)).mpr hlt
  have hnot := mt (Nat.length_toDigits_le_iff (k := 3) (by decide : 1 < 10) (by decide)).mp
    (Nat.not_lt.mpr hge)
  have hlen : 4 - (Nat.toDigits 10 year).length = 0 := by omega
  rw [zeroPadded, List.leftpad, List.leftpad, hlen]
  rfl

/-- The text is the record of its numbers, and the buffer is large enough. -/
theorem toFormattedString_eq {t : Timestamp} (ht : 0 ≤ t) (hyear : t.year < 10000) :
    t.toFormattedString = render fields (numbers t.toNat) := by
  obtain ⟨us, rfl⟩ := Int.eq_ofNat_of_zero_le ht
  have hseconds : ((us : Int).tdiv kMicroSecondsPerSecond).toNat = us / 1000000 := rfl
  have hmicro : ((us : Int).tmod kMicroSecondsPerSecond).toNat = us % 1000000 := rfl
  have hfits : FitsFields fields (numbers us) := numbers_fit hyear
  have hlen : (render fields (numbers us)).length ≤ 31 := by
    rw [render_length hfits]
    decide
  have hge : 1000 ≤ (gmtime_r (us / 1000000)).tm_year + 1900 := by omega
  have hlt : (gmtime_r (us / 1000000)).tm_year + 1900 < 10000 := by
    rw [tm_year_eq]
    exact hyear
  show toFormattedString (us : Int) = render fields (numbers us)
  rw [← List.take_of_length_le hlen]
  unfold toFormattedString snprintf
  simp only [hseconds, hmicro, year_text hge hlt]
  simp only [render, fields, numbers, List.append_nil, List.append_assoc, List.cons_append, List.nil_append]

end Timestamp

/-- **The log sorts by its text.** For times from 1970 up to the year 9999, the texts of `toFormattedString` are
24 characters long and in the order of the times: one comes before another, character by character, exactly when
its time is the earlier one. -/
theorem timestamp_sorted {t u : Timestamp} (ht : 0 ≤ t)
    (hu : 0 ≤ u) (htyear : t.year < 10000) (huyear : u.year < 10000) :
    t.toFormattedString.length = 24 ∧
      (t.toFormattedString < u.toFormattedString ↔
        t < u) := by
  have htfits := Timestamp.numbers_fit htyear
  have hufits := Timestamp.numbers_fit huyear
  rw [Timestamp.toFormattedString_eq ht htyear, Timestamp.toFormattedString_eq hu huyear]
  refine ⟨render_length htfits, ?_⟩
  have horder : t < u ↔ t.toNat < u.toNat := by
    obtain ⟨ts, rfl⟩ := Int.eq_ofNat_of_zero_le ht
    obtain ⟨us, rfl⟩ := Int.eq_ofNat_of_zero_le hu
    exact Int.ofNat_lt
  rw [render_lt_iff htfits hufits, horder]
  constructor
  · intro h
    by_contra hno
    rcases Nat.lt_or_eq_of_le (Nat.le_of_not_lt hno) with hlt | heq
    · exact List.lt_irrefl _ (List.lt_trans h (Timestamp.numbers_lt hlt))
    · rw [heq] at h
      exact List.lt_irrefl _ h
  · exact Timestamp.numbers_lt

/-- The last microsecond of 1970, and the next one. -/
theorem timestamp_sorted_new_year :
    (31535999999999 : Timestamp).toFormattedString < (31536000000000 : Timestamp).toFormattedString := by
  have hold : (31535999999999 : Timestamp).year < 10000 := by
    show (locate yearLength yearLength_pos 1970 364).1 < 10000
    rw [locate_of_lt (by decide)]
    decide
  have hnew : (31536000000000 : Timestamp).year < 10000 := by
    show (locate yearLength yearLength_pos 1970 365).1 < 10000
    rw [locate_of_le (by decide), locate_of_lt (by decide)]
    decide
  exact (timestamp_sorted (by decide) (by decide) hold hnew).2.mpr (by decide)

end Netfish
