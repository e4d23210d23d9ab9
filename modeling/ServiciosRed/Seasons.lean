import ServiciosRed.Doubles
import ServiciosRed.RoundRobin
import Mathlib.Algebra.Order.Field.Basic

namespace ServiciosRed.Seasons

open Doubles Double RoundRobin

structure Hw_coefs where
  CDP_hw_intercept : Double
  CDP_hw_last_intercept : Double
  CDP_hw_slope : Double
  CDP_hw_last_slope : Double
  CDP_null_count : ℕ
  CDP_last_null_count : ℕ

/-- The scratch area of SEASONAL; DEVSEASONAL has its deviations in the same places. -/
structure Seasonal_cdp where
  CDP_hw_seasonal : Double
  CDP_hw_last_seasonal : Double

structure Hw_functions where
  predict : Double → Double → ℕ → Double → Double
  intercept : ℚ → Double → Double → Hw_coefs → Double
  slope : ℚ → Hw_coefs → Double
  seasonality : ℚ → Double → Double → Double → Double
  init_seasonality : Double → Double → Double
  seasonal_deviation : ℚ → Double → Double → Double → Double
  init_seasonal_deviation : Double → Double → Double

section Math

variable (hw_alpha hw_beta hw_gamma : ℚ)

def hw_additive_calculate_prediction (intercept slope : Double) (null_count : ℕ)
    (seasonal_coef : Double) : Double :=
  intercept + slope * num null_count + seasonal_coef

def hw_additive_calculate_intercept (observed seasonal_coef : Double) (coefs : Hw_coefs) : Double :=
  num hw_alpha * (observed - seasonal_coef) +
    num (1 - hw_alpha) * (coefs.CDP_hw_intercept + coefs.CDP_hw_slope * num coefs.CDP_null_count)

def hw_additive_calculate_seasonality (observed intercept seasonal_coef : Double) : Double :=
  num hw_gamma * (observed - intercept) + num (1 - hw_gamma) * seasonal_coef

def hw_additive_init_seasonality (seasonal_coef intercept : Double) : Double :=
  seasonal_coef - intercept

def hw_multiplicative_calculate_prediction (intercept slope : Double) (null_count : ℕ)
    (seasonal_coef : Double) :
    Double :=
  (intercept + slope * num null_count) * seasonal_coef

def noPositivo (x : Double) : Bool := !x.isnan && !lt (num 0) x

def hw_multiplicative_calculate_intercept (observed seasonal_coef : Double) (coefs : Hw_coefs) :
    Double :=
  if noPositivo seasonal_coef then nan
  else num hw_alpha * (observed / seasonal_coef) +
    num (1 - hw_alpha) * (coefs.CDP_hw_intercept + coefs.CDP_hw_slope * num coefs.CDP_null_count)

def hw_multiplicative_calculate_seasonality (observed intercept seasonal_coef : Double) : Double :=
  if noPositivo intercept then nan
  else num hw_gamma * (observed / intercept) + num (1 - hw_gamma) * seasonal_coef

def hw_multiplicative_init_seasonality (seasonal_coef intercept : Double) : Double :=
  if noPositivo intercept then nan else seasonal_coef / intercept

def hw_calculate_slope (coefs : Hw_coefs) : Double :=
  num hw_beta * (coefs.CDP_hw_intercept - coefs.CDP_hw_last_intercept) + num (1 - hw_beta) *
    coefs.CDP_hw_slope

def hw_calculate_seasonal_deviation (prediction observed last : Double) : Double :=
  num hw_gamma * abs (prediction - observed) + num (1 - hw_gamma) * last

def hw_init_seasonal_deviation (prediction observed : Double) : Double :=
  abs (prediction - observed)

end Math

def hw_additive_functions : Hw_functions where
  predict := hw_additive_calculate_prediction
  intercept := hw_additive_calculate_intercept
  slope := hw_calculate_slope
  seasonality := hw_additive_calculate_seasonality
  init_seasonality := hw_additive_init_seasonality
  seasonal_deviation := hw_calculate_seasonal_deviation
  init_seasonal_deviation := hw_init_seasonal_deviation

def hw_multiplicative_functions : Hw_functions where
  predict := hw_multiplicative_calculate_prediction
  intercept := hw_multiplicative_calculate_intercept
  slope := hw_calculate_slope
  seasonality := hw_multiplicative_calculate_seasonality
  init_seasonality := hw_multiplicative_init_seasonality
  seasonal_deviation := hw_calculate_seasonal_deviation
  init_seasonal_deviation := hw_init_seasonal_deviation

inductive Hw_cf
  | HWPREDICT | MHWPREDICT

def Hw_cf.functions : Hw_cf → Hw_functions
  | HWPREDICT => hw_additive_functions
  | MHWPREDICT => hw_multiplicative_functions

/-- The archives that go with a HWPREDICT or a MHWPREDICT, of a period below 40 rows:
`apply_smoother`, which is left out, does nothing there. -/
structure Hw_def where
  cf_nam : Hw_cf
  hw_alpha : ℚ
  hw_beta : ℚ
  seasonal_gamma : ℚ
  delta_pos : ℚ
  delta_neg : ℚ
  failure_threshold : ℕ
  window_len : ℕ
  row_cnt : ℕ
  period : ℕ
  gamma_pos : 0 < seasonal_gamma
  gamma_lt : seasonal_gamma < 1
  window_len_pos : 0 < window_len
  row_cnt_pos : 0 < row_cnt
  period_pos : 0 < period
  no_smoothing : period < 40

def Hw_def.functions (d : Hw_def) : Hw_functions := d.cf_nam.functions

theorem Hw_def.functions_eq (d : Hw_def) (hf : d.cf_nam = .HWPREDICT) :
    d.functions = hw_additive_functions := by
  rw [Hw_def.functions, hf, Hw_cf.functions]

def create_hw_contingent_rras (cf_nam : Hw_cf) (hw_alpha hw_beta : ℚ) (row_cnt period : ℕ)
    (alpha_pos : 0 < hw_alpha) (alpha_lt : hw_alpha < 1) (row_cnt_pos : 0 < row_cnt)
    (period_pos : 0 < period)
    (no_smoothing : period < 40) : Hw_def where
  cf_nam := cf_nam
  hw_alpha := hw_alpha
  hw_beta := hw_beta
  seasonal_gamma := hw_alpha
  delta_pos := 2
  delta_neg := 2
  failure_threshold := 7
  window_len := 9
  row_cnt := row_cnt
  period := period
  gamma_pos := alpha_pos
  gamma_lt := alpha_lt
  window_len_pos := Nat.succ_pos 8
  row_cnt_pos := row_cnt_pos
  period_pos := period_pos
  no_smoothing := no_smoothing

theorem lt_forty {n : ℕ} (h : n ≤ 3) : n < 40 := Nat.lt_of_le_of_lt h (by decide)

theorem medio_pos : (0 : ℚ) < 1 / 2 := one_half_pos

theorem medio_lt_one : (1 / 2 : ℚ) < 1 := one_half_lt_one

def create_rrd_hw : Hw_def :=
  create_hw_contingent_rras .HWPREDICT (1 / 2) (1 / 10) 2016 3 medio_pos medio_lt_one
    (Nat.succ_pos _)
    (Nat.succ_pos _) (lt_forty le_rfl)

section Update

def init_slope_intercept (x : Double) (coefs : Hw_coefs) : Hw_coefs :=
  { coefs with
    CDP_hw_intercept := x
    CDP_hw_last_intercept := x
    CDP_hw_slope := num 0
    CDP_hw_last_slope := num 0
    CDP_null_count := 1
    CDP_last_null_count := 1 }

def hw_is_violation (observed prediction deviation : Double) (delta_pos delta_neg : ℚ) : Bool :=
  lt (prediction + num delta_pos * deviation) observed ||
    lt observed (prediction - num delta_neg * deviation)

/-- SEASONAL is after HWPREDICT in the file, so its coefficient is still the current one. -/
def update_hwpredict (d : Hw_def) (seasonal_coef x : Double) (c : Hw_coefs) : Double × Hw_coefs :=
  let coefs := { c with
    CDP_hw_last_intercept := c.CDP_hw_intercept
    CDP_hw_last_slope := c.CDP_hw_slope
    CDP_last_null_count := c.CDP_null_count }
  if coefs.CDP_hw_intercept.isnan || coefs.CDP_hw_slope.isnan || seasonal_coef.isnan then
    if coefs.CDP_hw_intercept.isnan && !x.isnan then (nan, init_slope_intercept x coefs)
    else (nan, coefs)
  else
    let prediction := d.functions.predict coefs.CDP_hw_intercept coefs.CDP_hw_slope
      coefs.CDP_null_count seasonal_coef
    if x.isnan then (prediction, { coefs with CDP_null_count := coefs.CDP_null_count + 1 })
    else
      let coefs :=
        { coefs with CDP_hw_intercept := d.functions.intercept d.hw_alpha x seasonal_coef coefs }
      let coefs := { coefs with CDP_hw_slope := d.functions.slope d.hw_beta coefs }
      (prediction, { coefs with CDP_null_count := 1 })

/-- The coefficients are those of HWPREDICT after its update. -/
def update_seasonal (d : Hw_def) (coefs : Hw_coefs) (seasonal_coef x : Double) (s : Seasonal_cdp) :
    Double × Seasonal_cdp :=
  let seasonal := s.CDP_hw_seasonal
  let s' : Seasonal_cdp := ⟨seasonal_coef, seasonal⟩
  if x.isnan then (seasonal, s')
  else if coefs.CDP_hw_last_intercept.isnan || coefs.CDP_hw_last_slope.isnan then (nan, s')
  else if seasonal.isnan then (d.functions.init_seasonality x coefs.CDP_hw_last_intercept, s')
  else (d.functions.seasonality d.seasonal_gamma x coefs.CDP_hw_intercept seasonal, s')

/-- The prediction that DEVSEASONAL and FAILURES compare with, once HWPREDICT and SEASONAL
are updated. -/
def prediccion (d : Hw_def) (coefs : Hw_coefs) (s : Seasonal_cdp) : Double :=
  d.functions.predict coefs.CDP_hw_last_intercept coefs.CDP_hw_last_slope coefs.CDP_last_null_count
    s.CDP_hw_last_seasonal

def update_devseasonal (d : Hw_def) (coefs : Hw_coefs) (s : Seasonal_cdp) (seasonal_dev x : Double)
    (v : Seasonal_cdp) : Double × Seasonal_cdp :=
  let last := v.CDP_hw_seasonal
  let v' : Seasonal_cdp := ⟨seasonal_dev, last⟩
  if coefs.CDP_hw_last_intercept.isnan || coefs.CDP_hw_last_slope.isnan ||
      s.CDP_hw_last_seasonal.isnan then
    (nan, v')
  else if x.isnan then (last, v')
  else if last.isnan then (d.functions.init_seasonal_deviation (prediccion d coefs s) x, v')
  else (d.functions.seasonal_deviation d.seasonal_gamma (prediccion d coefs s) x last, v')

def update_devpredict (v : Seasonal_cdp) : Double := v.CDP_hw_last_seasonal

/-- Whether a value is counted: unknown values are, once there is a deviation. -/
def violacion (d : Hw_def) (coefs : Hw_coefs) (s v : Seasonal_cdp) (x : Double) : Bool :=
  if v.CDP_hw_last_seasonal.isnan then false
  else if x.isnan then true
  else hw_is_violation x (prediccion d coefs s) v.CDP_hw_last_seasonal d.delta_pos d.delta_neg

/-- The violations are kept with the last one first. -/
def update_failures (d : Hw_def) (violation : Bool) (violations_array : List Bool) :
    Double × List Bool :=
  let violations_array := violation :: violations_array.take (d.window_len - 1)
  (if violations_array.count true < d.failure_threshold then num 0 else num 1, violations_array)

end Update

section Group

structure Filas where
  hwpredict : Double
  seasonal : Double
  devseasonal : Double
  devpredict : Double
  failures : Double

structure Grupo where
  coefs : Hw_coefs
  seasonal : Seasonal_cdp
  devseasonal : Seasonal_cdp
  violations_array : List Bool
  primary : Filas
  secondary : Filas

/-- One pass of `update_aberrant_cdps` over the five archives. -/
def Grupo.update_aberrant_CF (d : Hw_def) (g : Grupo) (seasonal_coef seasonal_dev x : Double) :
    Filas × Grupo :=
  let hw := update_hwpredict d g.seasonal.CDP_hw_seasonal x g.coefs
  let s := update_seasonal d hw.2 seasonal_coef x g.seasonal
  let v := update_devseasonal d hw.2 s.2 seasonal_dev x g.devseasonal
  let f := update_failures d (violacion d hw.2 s.2 v.2 x) g.violations_array
  (⟨hw.1, s.1, v.1, update_devpredict v.2, f.1⟩,
    { g with coefs := hw.2, seasonal := s.2, devseasonal := v.2, violations_array := f.2 })

/-- After more than two steps at once nothing is learnt. `lookup_seasonal` reads ahead in
the rows of SEASONAL and DEVSEASONAL. -/
def Grupo.reset_cdp (d : Hw_def) (g : Grupo) (elapsed_pdp_st : ℕ) (lookup_s lookup_v : ℕ → Double) :
    Grupo :=
  { coefs := { g.coefs with
      CDP_null_count := g.coefs.CDP_null_count + elapsed_pdp_st
      CDP_last_null_count := g.coefs.CDP_last_null_count + (elapsed_pdp_st - 1) }
    seasonal := ⟨lookup_s (elapsed_pdp_st + 1), lookup_s elapsed_pdp_st⟩
    devseasonal := ⟨lookup_v (elapsed_pdp_st + 1), lookup_v elapsed_pdp_st⟩
    violations_array := List.replicate d.window_len false
    primary := { g.primary with hwpredict := nan, devpredict := nan, failures := num 0 }
    secondary := { g.secondary with hwpredict := nan, devpredict := nan, failures := num 0 } }

def Grupo.update (d : Hw_def) (g : Grupo) (elapsed_pdp_st : ℕ) (x : Double)
    (lookup_s lookup_v : ℕ → Double) :
    Grupo :=
  if elapsed_pdp_st > 2 then g.reset_cdp d elapsed_pdp_st lookup_s lookup_v
  else if elapsed_pdp_st = 2 then
    let p := g.update_aberrant_CF d (lookup_s 3) (lookup_v 3) x
    let p' := p.2.update_aberrant_CF d (lookup_s 4) (lookup_v 4) x
    { p'.2 with primary := p.1, secondary := p'.1 }
  else if elapsed_pdp_st = 1 then
    let p := g.update_aberrant_CF d (lookup_s 2) (lookup_v 2) x
    { p.2 with primary := p.1 }
  else g

/-- What `init_hwpredict_cdp` and `init_seasonal_cdp` leave. -/
def Grupo.crea (d : Hw_def) : Grupo where
  coefs := ⟨nan, nan, nan, nan, 1, 1⟩
  seasonal := ⟨nan, nan⟩
  devseasonal := ⟨nan, nan⟩
  violations_array := List.replicate d.window_len false
  primary := ⟨num 0, num 0, num 0, num 0, num 0⟩
  secondary := ⟨num 0, num 0, num 0, num 0, num 0⟩

end Group

end ServiciosRed.Seasons
