import ServiciosRed.Text
import Mathlib.Data.Nat.Find
import Mathlib.Tactic.NormNum.Basic

namespace ServiciosRed.Calendar

open Text

structure Date where
  year : ℤ
  month : ℕ
  day : ℕ
  deriving DecidableEq

def isLeap (y : ℤ) : Bool := y % 4 = 0 && (y % 100 ≠ 0 || y % 400 = 0)

/-- The day number of the first of January, counted from 1970-01-01. -/
def newYear (y : ℤ) : ℤ := 365 * (y - 1970) + (y - 1) / 4 - (y - 1) / 100 + (y - 1) / 400 - 477

def monthStart (leap : Bool) (m : ℕ) : ℤ :=
  [0, 31, 59, 90, 120, 151, 181, 212, 243, 273, 304, 334].getD (m - 1) 365 +
    if leap && 2 < m then 1 else 0

def yearOf (n : ℤ) : ℤ :=
  let y := 1970 + n * 400 / 146097
  if n < newYear y then y - 1 else if newYear (y + 1) ≤ n then y + 1 else y

def monthOf (leap : Bool) (n : ℤ) : ℕ := Nat.findGreatest (fun m ↦ monthStart leap m ≤ n) 12

def ofDayNumber (n : ℤ) : Date :=
  let y := yearOf n
  let m := monthOf (isLeap y) (n - newYear y)
  ⟨y, m, (n - newYear y - monthStart (isLeap y) m).toNat + 1⟩

def Date.dayNumber (d : Date) : ℤ := newYear d.year + monthStart (isLeap d.year) d.month + d.day - 1

def Date.Valid (d : Date) : Prop :=
  1 ≤ d.month ∧ d.month ≤ 12 ∧ 1 ≤ d.day ∧
    d.day ≤ monthStart (isLeap d.year) (d.month + 1) - monthStart (isLeap d.year) d.month

instance (d : Date) : Decidable d.Valid := inferInstanceAs (Decidable (_ ∧ _))

theorem newYear_succ (y : ℤ) : newYear (y + 1) = newYear y + if isLeap y then 366 else 365 := by
  simp only [newYear, isLeap, Bool.and_eq_true, Bool.or_eq_true, decide_eq_true_eq]
  split_ifs <;> omega

/-- The mean length of a year is 146097 / 400 days. -/
theorem newYear_bounds (y : ℤ) : 146097 * (y - 1970) - 506 ≤ 400 * newYear y ∧
    400 * newYear y ≤ 146097 * (y - 1970) + 589 := by
  simp only [newYear]
  omega

theorem newYear_yearOf (n : ℤ) : newYear (yearOf n) ≤ n ∧ n < newYear (yearOf n + 1) := by
  have hy := newYear_bounds (1970 + n * 400 / 146097)
  have hpred := newYear_bounds (1970 + n * 400 / 146097 - 1)
  have hsucc := newYear_bounds (1970 + n * 400 / 146097 + 1 + 1)
  simp only [yearOf]
  split_ifs with h h'
  · rw [Int.sub_add_cancel]
    exact ⟨by omega, h⟩
  · exact ⟨h', by omega⟩
  · exact ⟨by omega, by omega⟩

theorem monthOf_spec (leap : Bool) {n : ℤ} (h : 0 ≤ n) (h' : n < monthStart leap 13) :
    1 ≤ monthOf leap n ∧ monthOf leap n ≤ 12 ∧ monthStart leap (monthOf leap n) ≤ n ∧
      n < monthStart leap (monthOf leap n + 1) := by
  have hone : monthStart leap 1 ≤ n := by cases leap <;> exact h
  have hle : monthOf leap n ≤ 12 := Nat.findGreatest_le 12
  refine ⟨Nat.le_findGreatest (by omega) hone, hle,
    Nat.findGreatest_spec (P := fun m ↦ monthStart leap m ≤ n) (by omega : 1 ≤ 12) hone, ?_⟩
  by_contra hlast
  have hlt : monthOf leap n < monthOf leap n + 1 := by omega
  rcases Nat.lt_or_ge (monthOf leap n) 12 with hm | hm
  · exact Nat.findGreatest_is_greatest hlt hm (by omega)
  · rw [show monthOf leap n = 12 by omega] at hlast
    exact hlast h'

theorem ofDayNumber_spec (n : ℤ) : (ofDayNumber n).Valid ∧ (ofDayNumber n).dayNumber = n := by
  obtain ⟨hlow, hhigh⟩ := newYear_yearOf n
  have hlen : n - newYear (yearOf n) < monthStart (isLeap (yearOf n)) 13 := by
    rw [newYear_succ] at hhigh
    cases hl : isLeap (yearOf n) <;> simp only [hl, if_true, Bool.false_eq_true,
      if_false] at hhigh <;>
      simp [monthStart] <;> omega
  obtain ⟨hone, hle, hstart, hend⟩ := monthOf_spec (isLeap (yearOf n)) (by omega) hlen
  unfold Date.Valid Date.dayNumber ofDayNumber
  refine ⟨⟨hone, hle, Nat.le_add_left 1 _, ?_⟩, ?_⟩
  · push_cast
    omega
  · push_cast
    omega

theorem newYear_mono {y z : ℤ} (h : y ≤ z) : newYear y ≤ newYear z := by
  simp only [newYear]
  omega

theorem le_yearOf {y n : ℤ} (h : newYear y ≤ n) : y ≤ yearOf n := by
  by_contra hy
  have hmono := newYear_mono (show yearOf n + 1 ≤ y by omega)
  have hhigh := (newYear_yearOf n).2
  omega

theorem yearOf_lt {y n : ℤ} (h : n < newYear y) : yearOf n < y := by
  by_contra hy
  have hmono := newYear_mono (show y ≤ yearOf n by omega)
  have hlow := (newYear_yearOf n).1
  omega

section Text

def padded (w n : ℕ) : Texto := List.replicate (w - (decimal n).length) '0' ++ decimal n

def yearText (y : ℤ) : Texto := (if y < 0 then ['-'] else []) ++ padded 4 y.natAbs

def dateText (d : Date) : Texto :=
  yearText d.year ++ '-' :: (padded 2 d.month ++ '-' :: padded 2 d.day)

def clockText (n : ℕ) : Texto :=
  padded 2 (n / 3600) ++ ':' :: (padded 2 (n / 60 % 60) ++ ':' :: padded 2 (n % 60))

/-- `date("Y-m-d", t)`. PHP and the server are taken to read their times in UTC; a zone
with daylight saving repeats an hour. -/
def dateYmd (t : ℤ) : Texto := dateText (ofDayNumber (t / 86400))

def dateYmdHis (t : ℤ) : Texto := dateYmd t ++ ' ' :: clockText (t % 86400).toNat

def readFixed (w : ℕ) (s : Texto) : Option (ℕ × Texto) :=
  if (s.take w).length = w ∧ (s.take w).all Char.isDigit then some (valueOf (s.take w), s.drop w)
  else none

def readChar (c : Char) : Texto → Option Texto
  | [] => none
  | d :: s => if d = c then some s else none

def readDate (s : Texto) : Option (Date × Texto) := do
  let (y, s) ← readFixed 4 s
  let s ← readChar '-' s
  let (m, s) ← readFixed 2 s
  let s ← readChar '-' s
  let (d, s) ← readFixed 2 s
  if (Date.mk y m d).Valid then some (⟨y, m, d⟩, s) else none

def readClock (s : Texto) : Option (ℕ × Texto) := do
  let (h, s) ← readFixed 2 s
  let s ← readChar ':' s
  let (m, s) ← readFixed 2 s
  let s ← readChar ':' s
  let (n, s) ← readFixed 2 s
  if h < 24 ∧ m < 60 ∧ n < 60 then some (3600 * h + 60 * m + n, s) else none

theorem length_padded {w n : ℕ} (hw : 0 < w) (h : n < 10 ^ w) : (padded w n).length = w := by
  have hlen : (decimal n).length ≤ w := (Nat.length_toDigits_le_iff (by omega) hw).mpr h
  simp only [padded, List.length_append, List.length_replicate]
  omega

theorem isDigit_of_mem_padded {w n : ℕ} {c : Char} (h : c ∈ padded w n) : c.isDigit := by
  rcases List.mem_append.mp h with h | h
  · rw [List.eq_of_mem_replicate h]
    rfl
  · exact isDigit_of_mem_decimal h

theorem valueOf_padded (w n : ℕ) : valueOf (padded w n) = n := by
  rw [valueOf, padded, Nat.ofDigitChars_append, Nat.ofDigitChars_replicate_zero, Nat.mul_zero]
  exact valueOf_decimal n

theorem readFixed_padded {w n : ℕ} (hw : 0 < w) (h : n < 10 ^ w) (s : Texto) :
    readFixed w (padded w n ++ s) = some (n, s) := by
  have hlen := length_padded hw h
  have htake : (padded w n ++ s).take w = padded w n := List.take_left' hlen
  have hdrop : (padded w n ++ s).drop w = s := List.drop_left' hlen
  rw [readFixed, htake, hdrop, valueOf_padded, if_pos]
  exact ⟨hlen, List.all_eq_true.mpr (fun _ ↦ isDigit_of_mem_padded)⟩

theorem Date.Valid.day_lt {d : Date} (h : d.Valid) : d.day < 100 := by
  obtain ⟨hone, hle, -, hday⟩ := h
  have hstep : ∀ leap : Bool, ∀ m < 13, 1 ≤ m →
      monthStart leap (m + 1) - monthStart leap m ≤ 31 := by
    decide
  have := hstep (isLeap d.year) d.month (by omega) hone
  omega

theorem readDate_dateText {d : Date} (h : d.Valid) (hy : 0 ≤ d.year) (hy' : d.year < 10000)
    (s : Texto) :
    readDate (dateText d ++ s) = some (d, s) := by
  obtain ⟨y, hyear⟩ := Int.eq_ofNat_of_zero_le hy
  have hm : d.month < 10 ^ 2 := by have := h.2.1; omega
  have hcast : (⟨y, d.month, d.day⟩ : Date) = d := by rw [← hyear]
  simp only [dateText, yearText, hyear, Int.natAbs_natCast, if_neg (show ¬ (y : ℤ) < 0 by omega),
    List.nil_append, List.append_assoc, List.cons_append, readDate,
    readFixed_padded (show 0 < 4 by omega) (show y < 10 ^ 4 by omega), Option.bind_eq_bind,
    Option.bind_some, readChar, if_true, readFixed_padded (show 0 < 2 by omega) hm,
    readFixed_padded (show 0 < 2 by omega) h.day_lt, hcast, if_pos h]

theorem readDate_dateText_eq_none {d : Date} (hy : d.year < 0 ∨ 10000 ≤ d.year) (s : Texto) :
    readDate (dateText d ++ s) = none := by
  rcases hy with hy | hy
  · have hfixed (t : Texto) : readFixed 4 ('-' :: t) = none := if_neg (fun h ↦ by simp at h)
    simp only [dateText, yearText, if_pos hy, List.cons_append, List.nil_append, readDate, hfixed,
      Option.bind_eq_bind, Option.bind_none]
  · obtain ⟨y, hyear⟩ := Int.eq_ofNat_of_zero_le (show 0 ≤ d.year by omega)
    have hlen : 4 < (padded 4 y).length := by
      have hdecimal : ¬ (decimal y).length ≤ 4 := fun h ↦ by
        have := (Nat.length_toDigits_le_iff (by omega) (by omega)).mp h
        omega
      rw [padded, List.length_append]
      omega
    obtain ⟨c, t, hdrop⟩ := List.exists_cons_of_ne_nil
      (fun h ↦ absurd (List.drop_eq_nil_iff.mp h) (by omega) : (padded 4 y).drop 4 ≠ [])
    have hc : c ≠ '-' := by
      rintro rfl
      have hmem : '-' ∈ padded 4 y := List.mem_of_mem_drop (hdrop ▸ List.mem_cons_self)
      exact absurd (isDigit_of_mem_padded hmem) (by decide)
    have hread (u : Texto) : readFixed 4 (padded 4 y ++ u) = none ∨
        ∃ n, readFixed 4 (padded 4 y ++ u) = some (n, c :: (t ++ u)) := by
      rw [readFixed]
      split_ifs
      · exact Or.inr ⟨_, by rw [List.drop_append_of_le_length (by omega), hdrop, List.cons_append]⟩
      · exact Or.inl rfl
    have htext : dateText d ++ s = padded 4 y ++
        ('-' :: (padded 2 d.month ++ '-' :: padded 2 d.day) ++ s) := by
      simp only [dateText, yearText, hyear, if_neg (show ¬ (y : ℤ) < 0 by omega),
        Int.natAbs_natCast, List.nil_append, List.append_assoc]
    rw [htext, readDate]
    rcases hread ('-' :: (padded 2 d.month ++ '-' :: padded 2 d.day) ++ s) with h | ⟨n, h⟩
    · simp only [h, Option.bind_eq_bind, Option.bind_none]
    · simp only [h, readChar, if_neg hc, Option.bind_eq_bind, Option.bind_some, Option.bind_none]

theorem readClock_clockText {n : ℕ} (h : n < 86400) (s : Texto) :
    readClock (clockText n ++ s) = some (n, s) := by
  simp only [clockText, List.append_assoc, List.cons_append, readClock,
    readFixed_padded (show 0 < 2 by omega) (show n / 3600 < 10 ^ 2 by omega), Option.bind_eq_bind,
    Option.bind_some, readChar, if_true,
    readFixed_padded (show 0 < 2 by omega) (show n / 60 % 60 < 10 ^ 2 by omega),
    readFixed_padded (show 0 < 2 by omega) (show n % 60 < 10 ^ 2 by omega)]
  rw [if_pos (by omega), show 3600 * (n / 3600) + 60 * (n / 60 % 60) + n % 60 = n by omega]

end Text

/-- A value of `time()`, before the year 10000. -/
structure Reloj where
  segundo : ℤ
  rango : 1 ≤ segundo ∧ segundo < 253402300800

theorem readDate_dateYmd {t : ℤ} (h : 0 ≤ t) (h' : t < 253402300800) (s : Texto) :
    readDate (dateYmd t ++ s) = some (ofDayNumber (t / 86400), s) := by
  have hzero : newYear 0 = -719528 := by decide
  have hend : newYear 10000 = 2932897 := by decide
  refine readDate_dateText (ofDayNumber_spec _).1 (le_yearOf ?_) (yearOf_lt ?_) s <;> omega

end ServiciosRed.Calendar
