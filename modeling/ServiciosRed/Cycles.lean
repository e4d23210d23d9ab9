import ServiciosRed.Seasons

namespace ServiciosRed.Cycles

open Doubles Double RoundRobin Seasons

section Passes

variable {d : Hw_def} {g : Grupo} (ss vv : Double)

def fueraDeBanda (d : Hw_def) (hwpredict devpredict x : Double) : Bool :=
  if devpredict.isnan then false
  else if x.isnan then true
  else hw_is_violation x hwpredict devpredict d.delta_pos d.delta_neg

theorem pasada_sin_base (hf : d.cf_nam = .HWPREDICT) (ha : g.coefs.CDP_hw_intercept = nan)
    (hs : g.seasonal.CDP_hw_seasonal = nan) (hv : g.devseasonal.CDP_hw_seasonal = nan)
    (x : Option ℚ) :
    let r := g.update_aberrant_CF d ss vv (ofOption x)
    let p := update_failures d false g.violations_array
    r.1 = ⟨nan, ofOption (x.map fun _ ↦ 0), nan, nan, p.1⟩ ∧
      r.2 = { g with
        coefs :=
          x.elim ⟨nan, nan, g.coefs.CDP_hw_slope, g.coefs.CDP_hw_slope, g.coefs.CDP_null_count,
            g.coefs.CDP_null_count⟩ fun q ↦ ⟨num q, num q, num 0, num 0, 1, 1⟩
        seasonal := ⟨ss, nan⟩
        devseasonal := ⟨vv, nan⟩
        violations_array := p.2 } := by
  cases x with
  | none =>
    simp [Grupo.update_aberrant_CF, update_hwpredict, update_seasonal, update_devseasonal,
      update_devpredict, violacion, ha, hs, hv]
  | some q =>
    simp [Grupo.update_aberrant_CF, update_hwpredict, update_seasonal, update_devseasonal,
      update_devpredict, violacion, init_slope_intercept, d.functions_eq hf, hw_additive_functions,
      hw_additive_init_seasonality, ha, hs, hv]

theorem pasada_sin_estacion (hf : d.cf_nam = .HWPREDICT) {a b : ℚ}
    (ha : g.coefs.CDP_hw_intercept = num a) (hb : g.coefs.CDP_hw_slope = num b)
    (hs : g.seasonal.CDP_hw_seasonal = nan) (hv : g.devseasonal.CDP_hw_seasonal = nan)
    (x : Option ℚ) :
    let r := g.update_aberrant_CF d ss vv (ofOption x)
    let p := update_failures d false g.violations_array
    r.1 = ⟨nan, ofOption (x.map (· - a)), nan, nan, p.1⟩ ∧
      r.2 = { g with
        coefs := ⟨num a, num a, num b, num b, g.coefs.CDP_null_count, g.coefs.CDP_null_count⟩
        seasonal := ⟨ss, nan⟩
        devseasonal := ⟨vv, nan⟩
        violations_array := p.2 } := by
  cases x with
  | none =>
    simp [Grupo.update_aberrant_CF, update_hwpredict, update_seasonal, update_devseasonal,
      update_devpredict, violacion, ha, hb, hs, hv]
  | some q =>
    simp [Grupo.update_aberrant_CF, update_hwpredict, update_seasonal, update_devseasonal,
      update_devpredict, violacion, d.functions_eq hf, hw_additive_functions,
      hw_additive_init_seasonality, ha, hb, hs, hv]

def aprende (d : Hw_def) (a b σ q : ℚ) (null_count : ℕ) : ℚ × ℚ :=
  let a' := d.hw_alpha * (q - σ) + (1 - d.hw_alpha) * (a + b * null_count)
  (a', d.hw_beta * (a' - a) + (1 - d.hw_beta) * b)

def desvia (d : Hw_def) (pred q : ℚ) (δ : Option ℚ) : ℚ :=
  δ.elim |pred - q| fun t ↦ d.seasonal_gamma * |pred - q| + (1 - d.seasonal_gamma) * t

theorem pasada_completa (hf : d.cf_nam = .HWPREDICT) {a b σ : ℚ} {δ : Option ℚ}
    (ha : g.coefs.CDP_hw_intercept = num a) (hb : g.coefs.CDP_hw_slope = num b)
    (hs : g.seasonal.CDP_hw_seasonal = num σ) (hv : g.devseasonal.CDP_hw_seasonal = ofOption δ)
    (x : Option ℚ) :
    let r := g.update_aberrant_CF d ss vv (ofOption x)
    let pred := a + b * g.coefs.CDP_null_count + σ
    let p :=
      update_failures d (fueraDeBanda d (num pred) (ofOption δ) (ofOption x)) g.violations_array
    r.1 = ⟨num pred,
      num (x.elim σ fun q ↦ d.seasonal_gamma * (q - (aprende d a b σ q g.coefs.CDP_null_count).1) +
        (1 - d.seasonal_gamma) * σ), x.elim (ofOption δ) fun q ↦ num (desvia d pred q δ),
        ofOption δ, p.1⟩ ∧
      r.2 = { g with
        coefs := x.elim ⟨num a, num a, num b, num b, g.coefs.CDP_null_count + 1,
          g.coefs.CDP_null_count⟩ fun q ↦
          ⟨num (aprende d a b σ q g.coefs.CDP_null_count).1, num a,
            num (aprende d a b σ q g.coefs.CDP_null_count).2, num b, 1, g.coefs.CDP_null_count⟩
        seasonal := ⟨ss, num σ⟩
        devseasonal := ⟨vv, ofOption δ⟩
        violations_array := p.2 } := by
  cases x with
  | none =>
    simp [Grupo.update_aberrant_CF, update_hwpredict, update_seasonal, update_devseasonal,
      update_devpredict, violacion, fueraDeBanda, d.functions_eq hf, hw_additive_functions,
      hw_additive_calculate_prediction, ha, hb, hs, hv]
  | some q =>
    cases δ with
    | none =>
      simp [Grupo.update_aberrant_CF, update_hwpredict, update_seasonal, update_devseasonal,
        update_devpredict, violacion, fueraDeBanda, prediccion, d.functions_eq hf,
        hw_additive_functions, hw_additive_calculate_prediction, hw_additive_calculate_intercept,
        hw_calculate_slope, hw_additive_calculate_seasonality, hw_init_seasonal_deviation, aprende,
        desvia, ha, hb, hs, hv]
    | some t =>
      simp [Grupo.update_aberrant_CF, update_hwpredict, update_seasonal, update_devseasonal,
        update_devpredict, violacion, fueraDeBanda, prediccion, d.functions_eq hf,
        hw_additive_functions, hw_additive_calculate_prediction, hw_additive_calculate_intercept,
        hw_calculate_slope, hw_additive_calculate_seasonality, hw_calculate_seasonal_deviation,
        aprende, desvia, ha, hb, hs, hv]

end Passes

section Cycle

/-- The five archives with the rows of SEASONAL and DEVSEASONAL, which are read again. -/
structure Ciclo (d : Hw_def) where
  grupo : Grupo
  seasonal : Wheel Double
  devseasonal : Wheel Double
  length_seasonal : seasonal.rows.length = d.period
  length_devseasonal : devseasonal.rows.length = d.period

/-- The rows of an archive of the seasons: those of several steps at once are skipped. -/
def escribe (w : Wheel Double) (rra_step_cnt : ℕ) (primary_val : Double) : Wheel Double :=
  if rra_step_cnt > 1 then Wheel.skip^[rra_step_cnt] w
  else if rra_step_cnt = 1 then w.push primary_val
  else w

theorem length_escribe (w : Wheel Double) (n : ℕ) (x : Double) :
    (escribe w n x).rows.length = w.rows.length := by
  have hskip : ∀ m, (Wheel.skip^[m] w).rows.length = w.rows.length := by
    intro m
    induction m with
    | zero => rfl
    | succ m ih =>
      rw [Function.iterate_succ_apply']
      exact ih
  unfold escribe
  split_ifs
  · exact hskip n
  · exact Wheel.length_push _ _
  · rfl

def Ciclo.avanza {d : Hw_def} (c : Ciclo d) (elapsed_pdp_st : ℕ) (x : Double) : Ciclo d where
  grupo := c.grupo.update d elapsed_pdp_st x c.seasonal.ahead c.devseasonal.ahead
  seasonal := escribe c.seasonal elapsed_pdp_st
    (c.grupo.update d elapsed_pdp_st x c.seasonal.ahead c.devseasonal.ahead).primary.seasonal
  devseasonal := escribe c.devseasonal elapsed_pdp_st
    (c.grupo.update d elapsed_pdp_st x c.seasonal.ahead c.devseasonal.ahead).primary.devseasonal
  length_seasonal := (length_escribe _ _ _).trans c.length_seasonal
  length_devseasonal := (length_escribe _ _ _).trans c.length_devseasonal

/-- The rows are all unknown, and the first of them is any. -/
structure Ciclo.Nuevo {d : Hw_def} (c : Ciclo d) : Prop where
  grupo : c.grupo = Grupo.crea d
  seasonal : ∀ k, c.seasonal.ahead k = nan
  devseasonal : ∀ k, c.devseasonal.ahead k = nan

def Ciclo.crea (d : Hw_def) : Ciclo d where
  grupo := Grupo.crea d
  seasonal := Wheel.replicate d.period_pos nan
  devseasonal := Wheel.replicate d.period_pos nan
  length_seasonal := List.length_replicate
  length_devseasonal := List.length_replicate

theorem nuevo_crea (d : Hw_def) : (Ciclo.crea d).Nuevo :=
  ⟨rfl, Wheel.ahead_replicate d.period_pos nan, Wheel.ahead_replicate d.period_pos nan⟩

variable {d : Hw_def} {c : Ciclo d}

theorem avanza_uno (x : Double) :
    let p := c.grupo.update_aberrant_CF d (c.seasonal.ahead 2) (c.devseasonal.ahead 2) x
    c.avanza 1 x = ⟨{ p.2 with primary := p.1 }, c.seasonal.push p.1.seasonal,
      c.devseasonal.push p.1.devseasonal, (Wheel.length_push _ _).trans c.length_seasonal,
      (Wheel.length_push _ _).trans c.length_devseasonal⟩ := rfl

theorem avanza_dos (x : Double) :
    let p := c.grupo.update_aberrant_CF d (c.seasonal.ahead 3) (c.devseasonal.ahead 3) x
    let p' := p.2.update_aberrant_CF d (c.seasonal.ahead 4) (c.devseasonal.ahead 4) x
    (c.avanza 2 x).grupo = { p'.2 with primary := p.1, secondary := p'.1 } ∧
      (c.avanza 2 x).seasonal = Wheel.skip^[2] c.seasonal ∧
      (c.avanza 2 x).devseasonal = Wheel.skip^[2] c.devseasonal := ⟨rfl, rfl, rfl⟩

theorem avanza_mas {e : ℕ} (he : 2 < e) (x : Double) :
    (c.avanza e x).grupo = c.grupo.reset_cdp d e c.seasonal.ahead c.devseasonal.ahead ∧
      (c.avanza e x).seasonal = Wheel.skip^[e] c.seasonal ∧
      (c.avanza e x).devseasonal = Wheel.skip^[e] c.devseasonal := by
  have hone : e > 1 := by omega
  refine ⟨?_, ?_, ?_⟩
  · exact if_pos he
  · exact if_pos hone
  · exact if_pos hone

def Ciclo.corre (c : Ciclo d) (l : List (ℕ × Double)) : Ciclo d :=
  l.foldl (fun c m ↦ c.avanza m.1 m.2) c

theorem corre_concat (l : List (ℕ × Double)) (m : ℕ × Double) :
    c.corre (l ++ [m]) = (c.corre l).avanza m.1 m.2 := by
  rw [Ciclo.corre, Ciclo.corre, List.foldl_concat]

end Cycle

section Alignment

variable {d : Hw_def} {c : Ciclo d}

@[simp] theorem update_seasonal_snd (coefs : Hw_coefs) (ss x : Double) (s : Seasonal_cdp) :
    (update_seasonal d coefs ss x s).2 = ⟨ss, s.CDP_hw_seasonal⟩ := by
  unfold update_seasonal
  dsimp only
  split_ifs <;> rfl

@[simp] theorem update_devseasonal_snd (coefs : Hw_coefs) (s : Seasonal_cdp) (vv x : Double)
    (v : Seasonal_cdp) :
    (update_devseasonal d coefs s vv x v).2 = ⟨vv, v.CDP_hw_seasonal⟩ := by
  unfold update_devseasonal
  dsimp only
  split_ifs <;> rfl

/-- How many rows after the last one the coefficients at hand are from. -/
def adelanto (l : List (ℕ × Double)) : ℕ :=
  l.foldl (fun k m ↦ if m.1 = 0 then k else if m.1 = 2 then 2 else 1) 1

theorem adelanto_concat (l : List (ℕ × Double)) (m : ℕ × Double) :
    adelanto (l ++ [m]) = if m.1 = 0 then adelanto l else if m.1 = 2 then 2 else 1 := by
  rw [adelanto, List.foldl_concat]
  rfl

/-- The coefficients at hand are those of the row that comes next, except after an update
of exactly two steps, when they are those of the row after it. -/
theorem corre_alineado (hperiod : 2 ≤ d.period) (hc : c.Nuevo) (l : List (ℕ × Double)) :
    (c.corre l).grupo.seasonal.CDP_hw_seasonal = (c.corre l).seasonal.ahead (adelanto l) ∧
      (c.corre l).grupo.devseasonal.CDP_hw_seasonal =
        (c.corre l).devseasonal.ahead (adelanto l) := by
  induction l using List.reverseRecOn with
  | nil =>
    have hcorre : c.corre [] = c := rfl
    rw [hcorre, hc.grupo, hc.seasonal, hc.devseasonal]
    exact ⟨rfl, rfl⟩
  | append_singleton l m ih =>
    rw [corre_concat, adelanto_concat]
    generalize c.corre l = c at ih ⊢
    obtain ⟨e, x⟩ := m
    have hs : 1 % c.seasonal.rows.length ≠ 0 := by
      rw [c.length_seasonal, Nat.mod_eq_of_lt hperiod]
      exact one_ne_zero
    have hv : 1 % c.devseasonal.rows.length ≠ 0 := by
      rw [c.length_devseasonal, Nat.mod_eq_of_lt hperiod]
      exact one_ne_zero
    obtain rfl | rfl | rfl | he : e = 0 ∨ e = 1 ∨ e = 2 ∨ 2 < e := by omega
    · exact ih
    · have hk : (if 1 = 0 then adelanto l else if 1 = 2 then 2 else 1) = 1 := rfl
      rw [avanza_uno]
      dsimp only
      rw [hk, Wheel.ahead_push, Wheel.ahead_push, if_neg hs, if_neg hv]
      simp [Grupo.update_aberrant_CF]
    · obtain ⟨hg, hrs, hrv⟩ := avanza_dos (c := c) x
      dsimp only
      rw [hg, hrs, hrv, Wheel.ahead_skip_iterate, Wheel.ahead_skip_iterate]
      simp [Grupo.update_aberrant_CF]
    · obtain ⟨hg, hrs, hrv⟩ := avanza_mas (c := c) he x
      have h0 : e ≠ 0 := by omega
      have h2 : e ≠ 2 := he.ne'
      dsimp only
      rw [hg, hrs, hrv, Wheel.ahead_skip_iterate, Wheel.ahead_skip_iterate, if_neg h0, if_neg h2,
        Nat.add_comm 1]
      exact ⟨rfl, rfl⟩

theorem corre_alineado_dos :
    let c := (Ciclo.crea create_rrd_hw).corre [(1, num 5), (2, num 6)]
    c.grupo.seasonal.CDP_hw_seasonal = c.seasonal.ahead 2 ∧
      c.grupo.devseasonal.CDP_hw_seasonal = c.devseasonal.ahead 2 :=
  corre_alineado (Nat.le_succ 2) (nuevo_crea _) [(1, num 5), (2, num 6)]

end Alignment

section Deviations

variable {d : Hw_def} {c : Ciclo d} {x y : Double}

def NoNegativo (x : Double) : Prop := lt x (num 0) = false

theorem NoNegativo.add (hx : NoNegativo x) (hy : NoNegativo y) : NoNegativo (x + y) := by
  unfold NoNegativo at *
  cases x with
  | nan => rfl
  | negInf => cases hx
  | num p =>
    cases y with
    | nan => rfl
    | negInf => cases hy
    | num q =>
      rw [num_lt, decide_eq_false_iff_not, not_lt] at hx hy
      rw [num_add, num_lt, decide_eq_false_iff_not, not_lt]
      exact add_nonneg hx hy
    | inf => rfl
  | inf =>
    cases y with
    | negInf => cases hy
    | nan => rfl
    | num q => rfl
    | inf => rfl

theorem NoNegativo.mul {q : ℚ} (hq : 0 < q) (hx : NoNegativo x) : NoNegativo (num q * x) := by
  unfold NoNegativo at *
  cases x with
  | nan => rfl
  | negInf => cases hx
  | num p =>
    rw [num_lt, decide_eq_false_iff_not, not_lt] at hx
    rw [num_mul, num_lt, decide_eq_false_iff_not, not_lt]
    exact mul_nonneg hq.le hx
  | inf =>
    have hmul : num q * inf = infinite ((num q).sgn * 1) := rfl
    rw [hmul, sgn, if_neg hq.le.not_gt, if_pos hq]
    rfl

theorem noNegativo_abs (x : Double) : NoNegativo (abs x) := by
  cases x with
  | nan => rfl
  | negInf => rfl
  | num q =>
    unfold NoNegativo
    rw [abs_num, num_lt, decide_eq_false_iff_not, not_lt]
    exact abs_nonneg q
  | inf => rfl

theorem noNegativo_update_devseasonal (coefs : Hw_coefs) (s : Seasonal_cdp) (vv x : Double)
    {v : Seasonal_cdp} (hv : NoNegativo v.CDP_hw_seasonal) :
    NoNegativo (update_devseasonal d coefs s vv x v).1 := by
  have hinit : d.functions.init_seasonal_deviation = hw_init_seasonal_deviation := by
    unfold Hw_def.functions
    cases d.cf_nam <;> rfl
  have hdev : d.functions.seasonal_deviation = hw_calculate_seasonal_deviation := by
    unfold Hw_def.functions
    cases d.cf_nam <;> rfl
  unfold update_devseasonal
  dsimp only
  split_ifs
  · rfl
  · exact hv
  · rw [hinit]
    exact noNegativo_abs _
  · rw [hdev]
    exact ((noNegativo_abs _).mul d.gamma_pos).add (hv.mul (sub_pos.2 d.gamma_lt))

structure Desviaciones (c : Ciclo d) : Prop where
  mano : NoNegativo c.grupo.devseasonal.CDP_hw_seasonal
  filas : ∀ k, NoNegativo (c.devseasonal.ahead k)
  primary : NoNegativo c.grupo.primary.devpredict
  secondary : NoNegativo c.grupo.secondary.devpredict

/-- No deviation is ever negative. -/
theorem corre_desviaciones (hc : c.Nuevo) (l : List (ℕ × Double)) : Desviaciones (c.corre l) := by
  induction l using List.reverseRecOn with
  | nil =>
    have hcorre : c.corre [] = c := rfl
    rw [hcorre]
    constructor
    · rw [hc.grupo]
      rfl
    · intro k
      rw [hc.devseasonal]
      rfl
    · rw [hc.grupo]
      rfl
    · rw [hc.grupo]
      rfl
  | append_singleton l m ih =>
    rw [corre_concat]
    generalize c.corre l = c at ih ⊢
    obtain ⟨e, x⟩ := m
    obtain rfl | rfl | rfl | he : e = 0 ∨ e = 1 ∨ e = 2 ∨ 2 < e := by omega
    · exact ⟨ih.mano, ih.filas, ih.primary, ih.secondary⟩
    · rw [avanza_uno]
      constructor
      · dsimp only [Grupo.update_aberrant_CF]
        rw [update_devseasonal_snd]
        exact ih.filas 2
      · intro k
        dsimp only
        rw [Wheel.ahead_push]
        split_ifs
        · exact noNegativo_update_devseasonal _ _ _ _ ih.mano
        · exact ih.filas _
      · dsimp only [Grupo.update_aberrant_CF, update_devpredict]
        rw [update_devseasonal_snd]
        exact ih.mano
      · exact ih.secondary
    · obtain ⟨hg, hrs, hrv⟩ := avanza_dos (c := c) x
      constructor
      · rw [hg]
        dsimp only [Grupo.update_aberrant_CF]
        rw [update_devseasonal_snd]
        exact ih.filas 4
      · intro k
        rw [hrv, Wheel.ahead_skip_iterate]
        exact ih.filas _
      · rw [hg]
        dsimp only [Grupo.update_aberrant_CF, update_devpredict]
        rw [update_devseasonal_snd]
        exact ih.mano
      · rw [hg]
        dsimp only [Grupo.update_aberrant_CF, update_devpredict]
        rw [update_devseasonal_snd, update_devseasonal_snd]
        exact ih.filas 3
    · obtain ⟨hg, hrs, hrv⟩ := avanza_mas (c := c) he x
      constructor
      · rw [hg]
        exact ih.filas _
      · intro k
        rw [hrv, Wheel.ahead_skip_iterate]
        exact ih.filas _
      · rw [hg]
        rfl
      · rw [hg]
        rfl

theorem corre_desviaciones_dos :
    Desviaciones ((Ciclo.crea create_rrd_hw).corre [(1, num 5), (2, num 6)]) :=
  corre_desviaciones (nuevo_crea _) _

end Deviations

end ServiciosRed.Cycles
