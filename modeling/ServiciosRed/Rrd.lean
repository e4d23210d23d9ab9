import ServiciosRed.Python
import Mathlib.Algebra.Order.Field.Rat
import Mathlib.Data.List.ReduceOption

namespace ServiciosRed.Rrd

open Text Php Python

structure RRD where
  step : ℕ
  minimo : ℚ
  maximo : ℚ
  /-- the rows of the archive of the failures -/
  filas : ℕ

section Update

variable (r : RRD)

/-- A GAUGE sample that comes in time: known, unknown or refused. Of what `strtod` takes,
hexadecimal texts and numbers out of range are left out. -/
def update_pdp_prep (valor : Texto) : Except Excepcion (Option ℚ) :=
  if valor.head? = some 'U' then .ok none
  else
    match numeric valor with
    | none => .error .RrdtoolError
    | some x =>
      let rate : ℚ := (if x.negative then -1 else 1) * x.numerator / x.denominator
      .ok (if r.maximo < rate ∨ rate < r.minimo then none else some rate)

theorem isOk_update_pdp_prep {valor : Texto} :
    (update_pdp_prep r valor).isOk ↔ valor.head? = some 'U' ∨ (numeric valor).isSome := by
  unfold update_pdp_prep
  split_ifs with h
  · simp [h, Except.isOk, Except.toBool]
  · cases numeric valor with
    | none => simp [h, Except.isOk, Except.toBool]
    | some x => simp [Except.isOk, Except.toBool]

theorem numeric_intText (z : ℤ) : numeric (intText z) = some ⟨decide (z < 0), z.natAbs, 0⟩ := by
  have hdigits : ∀ c ∈ decimal z.natAbs, c.isDigit := fun c hc ↦ isDigit_of_mem_decimal hc
  have hnil : ([] : Texto).takeWhile Char.isDigit = [] := rfl
  have htake := Impreso.takeWhile_digits hdigits hnil
  have hdrop := Impreso.dropWhile_digits hdigits hnil
  simp only [numeric, readNumeral, intText_eq, dropWhile_signText, readSign_signText, htake, hdrop,
    decimal_ne_nil, readFraction, readExponent, false_and, if_false]
  rw [List.append_nil, valueOf_decimal]
  rfl

/-- A whole number is known exactly inside the limits of its source. -/
theorem update_pdp_prep_intText (z : ℤ) :
    update_pdp_prep r (intText z) =
      .ok (if r.maximo < z ∨ (z : ℚ) < r.minimo then none else some (z : ℚ)) := by
  have hhead : (intText z).head? ≠ some 'U' := by
    rw [← Impreso.texto_ofInt]
    exact Impreso.head?_texto _
  have hrate : (if decide (z < 0) then -1 else 1 : ℚ) * (z.natAbs * 10 ^ 0 : ℕ) / (10 ^ 0 : ℕ) =
      z := by
    rcases lt_or_ge z 0 with h | h
    · obtain ⟨n, rfl⟩ := Int.eq_negSucc_of_lt_zero h
      simp
    · obtain ⟨n, rfl⟩ := Int.eq_ofNat_of_zero_le h
      simp
  rw [update_pdp_prep, if_neg hhead, numeric_intText]
  simp only [Numeral.numerator, Numeral.denominator, Int.toNat_zero, neg_zero, hrate]

end Update

section Graph

/-- A file after an update: its time and the row that ends at each step. -/
structure Archivo where
  last_update : ℕ
  failures : ℕ → Option ℕ

/-- The rows from `start` to `fin`, widened to whole steps. Only the last rows are kept. -/
def rrd_fetch (r : RRD) (a : Archivo) (start fin : ℕ) : List (Option ℕ) :=
  (List.range' (start / r.step + 1) (fin / r.step + 1 - start / r.step)).map fun n ↦
    if a.last_update / r.step < n + r.filas ∧ n ≤ a.last_update / r.step then a.failures n else none

inductive CF
  | MIN | MAX | LAST

def CF.combine : CF → ℕ → ℕ → ℕ
  | MIN, p, v => min p v
  | MAX, p, v => max p v
  | LAST, _, v => v

/-- PRINT: the unknown values are passed over, and the first known one starts. -/
def print_calc (cf : CF) (data : List (Option ℕ)) : Option ℕ :=
  data.foldl (fun printval x ↦
    match printval, x with
    | printval, none => printval
    | none, some v => some v
    | some p, some v => some (cf.combine p v)) none

theorem foldl_print_calc (cf : CF) (p : ℕ) (data : List (Option ℕ)) :
    data.foldl (fun printval x ↦
      match printval, x with
      | printval, none => printval
      | none, some v => some v
      | some p, some v =>
        some (cf.combine p v)) (some p) = some (data.reduceOption.foldl cf.combine p) := by
  induction data generalizing p with
  | nil => rfl
  | cons x data ih =>
    cases x with
    | none =>
      rw [List.reduceOption_cons_of_none, List.foldl_cons]
      exact ih p
    | some v =>
      rw [List.reduceOption_cons_of_some, List.foldl_cons, List.foldl_cons]
      exact ih (cf.combine p v)

theorem print_calc_of_reduceOption {cf : CF} {data : List (Option ℕ)} {v : ℕ} {vs : List ℕ}
    (h : data.reduceOption = v :: vs) : print_calc cf data = some (vs.foldl cf.combine v) := by
  induction data with
  | nil => cases h
  | cons x data ih =>
    cases x with
    | none =>
      rw [List.reduceOption_cons_of_none] at h
      exact ih h
    | some u =>
      rw [List.reduceOption_cons_of_some] at h
      cases h
      exact foldl_print_calc cf v data

variable {data : List (Option ℕ)} {u : ℕ}

theorem print_calc_min (hu : u ∈ data.reduceOption) :
    ∃ m ∈ data.reduceOption, print_calc .MIN data = some m ∧ ∀ v ∈ data.reduceOption, m ≤ v := by
  obtain ⟨v, vs, h⟩ := List.exists_cons_of_ne_nil (List.ne_nil_of_mem hu)
  have hmin : (v :: vs).min? = some (vs.foldl min v) := rfl
  obtain ⟨hm, hle⟩ := List.min?_eq_some_iff.1 hmin
  rw [h]
  exact ⟨_, hm, print_calc_of_reduceOption h, hle⟩

theorem print_calc_max (hu : u ∈ data.reduceOption) :
    ∃ m ∈ data.reduceOption, print_calc .MAX data = some m ∧ ∀ v ∈ data.reduceOption, v ≤ m := by
  obtain ⟨v, vs, h⟩ := List.exists_cons_of_ne_nil (List.ne_nil_of_mem hu)
  have hmax : (v :: vs).max? = some (vs.foldl max v) := rfl
  obtain ⟨hm, hle⟩ := List.max?_eq_some_iff.1 hmax
  rw [h]
  exact ⟨_, hm, print_calc_of_reduceOption h, hle⟩

theorem print_calc_last (h : data.reduceOption.getLast? = some u) :
    print_calc .LAST data = some u := by
  obtain ⟨vs, hvs⟩ := List.getLast?_eq_some_iff.1 h
  cases vs with
  | nil => exact print_calc_of_reduceOption hvs
  | cons v vs =>
    rw [List.cons_append] at hvs
    rw [print_calc_of_reduceOption hvs, List.foldl_append]
    rfl

/-- The least and the greatest known value are the same exactly when all of them are. -/
theorem print_calc_min_eq_max (hu : u ∈ data.reduceOption) :
    print_calc .MIN data = print_calc .MAX data ↔ ∀ v ∈ data.reduceOption, v = u := by
  obtain ⟨m, hm, hmin, hle⟩ := print_calc_min hu
  obtain ⟨M, hM, hmax, hge⟩ := print_calc_max hu
  rw [hmin, hmax, Option.some.injEq]
  constructor
  · intro h v hv
    have h1 := hle v hv
    have h2 := hge v hv
    have h3 := hle u hu
    have h4 := hge u hu
    omega
  · intro h
    rw [h m hm, h M hM]

end Graph

end ServiciosRed.Rrd
