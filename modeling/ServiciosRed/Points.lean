import ServiciosRed.Doubles
import ServiciosRed.Signals
import Mathlib.Data.Rat.Floor

namespace ServiciosRed.Points

open Doubles Double Signals

structure Momento where
  sec : ℕ
  usec : ℕ
  usec_lt : usec < 1000000

namespace Momento

variable (m : Momento)

def value : ℚ := m.sec + m.usec / 1000000

theorem sec_le_value : (m.sec : ℚ) ≤ m.value := by
  have h : (0 : ℚ) ≤ m.usec / 1000000 := by positivity
  rw [value]
  linarith

theorem value_lt : m.value < m.sec + 1 := by
  have hlt : (m.usec : ℚ) < 1000000 := by exact_mod_cast m.usec_lt
  have h : (m.usec : ℚ) / 1000000 < 1 := by
    rw [div_lt_one (by norm_num)]
    exact hlt
  rw [value]
  linarith

end Momento

/-- `get_time_from_reading` refuses a time that is not after the last one. -/
def posterior (last now : Momento) : Bool :=
  !(now.sec < last.sec || (now.sec = last.sec && now.usec ≤ last.usec))

theorem posterior_iff {last now : Momento} : posterior last now ↔ last.value < now.value := by
  have h1 := last.sec_le_value
  have h2 := last.value_lt
  have h3 := now.sec_le_value
  have h4 := now.value_lt
  have hlt : ∀ {m n : ℕ}, m < n → (m : ℚ) + 1 ≤ n := fun h ↦ by exact_mod_cast h
  simp only [posterior, Bool.not_eq_true', Bool.or_eq_false_iff, Bool.and_eq_false_iff,
    decide_eq_false_iff_not, not_lt, not_le]
  rcases Nat.lt_trichotomy last.sec now.sec with h | h | h
  · have hsec := hlt h
    constructor
    · intro
      linarith
    · intro
      exact ⟨h.le, Or.inl (by omega)⟩
  · have hval : last.value < now.value ↔ last.usec < now.usec := by
      rw [Momento.value, Momento.value, h, add_lt_add_iff_left,
        div_lt_div_iff_of_pos_right (by norm_num)]
      exact Nat.cast_lt
    rw [hval]
    constructor
    · intro hp
      exact hp.2.resolve_left (by omega)
    · intro hu
      exact ⟨h.le, Or.inr hu⟩
  · have hsec := hlt h
    constructor
    · intro hp
      omega
    · intro
      linarith

structure Ds_def where
  mrhb_cnt : ℕ
  min_val : Double
  max_val : Double

structure Pdp_prep where
  PDP_val : Double
  PDP_unkn_sec_cnt : ℕ

/-- A GAUGE reading: `U`, or what `strtod` makes of it. -/
abbrev Lectura := Option Double

section Update

def intervalo (last now : Momento) : ℚ :=
  ((now.sec - last.sec : ℤ) : ℚ) + ((now.usec - last.usec : ℤ) : ℚ) / 1000000

theorem intervalo_eq (last now : Momento) : intervalo last now = now.value - last.value := by
  rw [intervalo, Momento.value, Momento.value]
  push_cast
  ring

def update_pdp_prep (ds : Ds_def) (updval : Lectura) (interval : ℚ) : Double :=
  match updval with
  | none => nan
  | some x =>
    if interval ≤ ds.mrhb_cnt then
      let pdp_new := x * num interval
      let rate := pdp_new / num interval
      if !rate.isnan && ((!ds.max_val.isnan && lt ds.max_val rate) ||
        (!ds.min_val.isnan && lt rate ds.min_val)) then
        nan
      else pdp_new
    else nan

/-- How the time since the last update falls to the steps. -/
structure Pasos where
  pre_int : ℚ
  post_int : ℚ
  proc_pdp_cnt : ℕ
  elapsed : ℕ

def calculate_elapsed_steps (step : ℕ) (last now : Momento) (interval : ℚ) : Pasos :=
  let proc_pdp_age := last.sec % step
  let proc_pdp_st := last.sec - proc_pdp_age
  let occu_pdp_age := now.sec % step
  let occu_pdp_st := now.sec - occu_pdp_age
  let elapsed := (occu_pdp_st - proc_pdp_st) / step
  if occu_pdp_st > proc_pdp_st then
    ⟨((occu_pdp_st - last.sec : ℤ) : ℚ) - last.usec / 1000000, occu_pdp_age + now.usec / 1000000,
      proc_pdp_st / step, elapsed⟩
  else ⟨interval, 0, proc_pdp_st / step, elapsed⟩

def simple_update (interval : ℚ) (pdp_new : Double) (p : Pdp_prep) : Pdp_prep :=
  if pdp_new.isnan then { p with PDP_unkn_sec_cnt := p.PDP_unkn_sec_cnt + ⌊interval⌋₊ }
  else if p.PDP_val.isnan then { p with PDP_val := pdp_new }
  else { p with PDP_val := p.PDP_val + pdp_new }

def process_pdp_st (step mrhb : ℕ) (interval pre_int post_int : ℚ) (diff_pdp_st : ℕ)
    (pdp_new : Double) (p : Pdp_prep) : Double × Pdp_prep :=
  let pre_unknown : ℚ := if pdp_new.isnan then pre_int else 0
  let val := if pdp_new.isnan then p.PDP_val
    else ifnan p.PDP_val (num 0) + pdp_new / num interval * num pre_int
  let pdp_temp := if interval > mrhb ∨ (step : ℚ) / 2 < p.PDP_unkn_sec_cnt then nan
    else val / num ((diff_pdp_st - p.PDP_unkn_sec_cnt : ℤ) - pre_unknown)
  let next : Pdp_prep := if pdp_new.isnan then ⟨nan, ⌊post_int⌋₊⟩
    else ⟨pdp_new / num interval * num post_int, 0⟩
  (pdp_temp, next)

section Cases

variable (step mrhb diff_pdp_st : ℕ) {interval : ℚ} (pre_int post_int : ℚ) (p : Pdp_prep)

theorem process_pdp_st_nan : process_pdp_st step mrhb interval pre_int post_int diff_pdp_st nan p =
    (if interval > mrhb ∨ (step : ℚ) / 2 < p.PDP_unkn_sec_cnt then nan
      else p.PDP_val / num ((diff_pdp_st - p.PDP_unkn_sec_cnt : ℤ) - pre_int),
        ⟨nan, ⌊post_int⌋₊⟩) := by
  simp only [process_pdp_st, isnan_nan, if_true]

theorem process_pdp_st_num (hne : interval ≠ 0) (q : ℚ) :
    process_pdp_st step mrhb interval pre_int post_int diff_pdp_st (num (q * interval)) p =
      (if interval > mrhb ∨ (step : ℚ) / 2 < p.PDP_unkn_sec_cnt then nan
        else (ifnan p.PDP_val (num 0) + num (q * pre_int)) /
          num (diff_pdp_st - p.PDP_unkn_sec_cnt : ℤ),
        ⟨num (q * post_int), 0⟩) := by
  have hrate : num (q * interval) / num interval = num q := by
    rw [num_div hne, mul_div_cancel_right₀ _ hne]
  simp only [process_pdp_st, isnan_num, Bool.false_eq_true, if_false, hrate, num_mul, sub_zero]

end Cases

end Update

section Source

/-- One data source: when it was updated last and what its step has so far. -/
structure Fuente where
  last : Momento
  prep : Pdp_prep

/-- `rrd_create_fn` counts the start of the step as unknown. -/
def Fuente.crea (step last_up : ℕ) : Fuente :=
  ⟨⟨last_up, 0, by norm_num⟩, ⟨num 0, last_up % step⟩⟩

/-- A reading at a time: how many steps are over with it, and their value. -/
def Fuente.recibe (step : ℕ) (ds : Ds_def) (s : Fuente) (now : Momento) (updval : Lectura) :
    Option ((ℕ × Double) × Fuente) :=
  if posterior s.last now then
    let interval := intervalo s.last now
    let pdp_new := update_pdp_prep ds updval interval
    let t := calculate_elapsed_steps step s.last now interval
    if t.elapsed = 0 then some ((0, nan), ⟨now, simple_update interval pdp_new s.prep⟩)
    else
      let r := process_pdp_st step ds.mrhb_cnt interval t.pre_int t.post_int (t.elapsed * step)
        pdp_new s.prep
      some ((t.elapsed, r.1), ⟨now, r.2⟩)
  else none

end Source

section Steps

variable {step : ℕ} {last now : Momento}

def frontera (step : ℕ) (m : Momento) : ℕ := step * (m.sec / step)

theorem sub_mod_eq_frontera (m : Momento) : m.sec - m.sec % step = frontera step m := by
  have h := Nat.div_add_mod m.sec step
  rw [frontera]
  omega

theorem frontera_le (m : Momento) : (frontera step m : ℚ) ≤ m.value := by
  have h : frontera step m ≤ m.sec := Nat.mul_div_le _ _
  have hq : (frontera step m : ℚ) ≤ m.sec := by exact_mod_cast h
  exact hq.trans m.sec_le_value

theorem lt_frontera (hstep : 0 < step) (m : Momento) : m.value < frontera step m + step := by
  have h : m.sec < step * (m.sec / step) + step := Nat.lt_mul_div_succ m.sec hstep
  have hq : (m.sec : ℚ) + 1 ≤ frontera step m + step := by
    rw [frontera]
    exact_mod_cast h
  have hval := m.value_lt
  linarith

theorem frontera_mono (h : last.value < now.value) : frontera step last ≤ frontera step now := by
  have hsec : last.sec ≤ now.sec := by
    by_contra hlt
    have hq : (now.sec : ℚ) + 1 ≤ last.sec := by exact_mod_cast not_le.1 hlt
    have h1 := last.sec_le_value
    have h2 := now.value_lt
    linarith
  exact Nat.mul_le_mul_left _ (Nat.div_le_div_right hsec)

theorem calculate_elapsed_steps_of_eq (interval : ℚ) (h : frontera step now = frontera step last) :
    (calculate_elapsed_steps step last now interval).elapsed = 0 := by
  simp only [calculate_elapsed_steps, sub_mod_eq_frontera, h, gt_iff_lt, lt_irrefl, if_false,
    Nat.sub_self, Nat.zero_div]

theorem calculate_elapsed_steps_of_lt (hstep : 0 < step) (interval : ℚ)
    (h : frontera step last < frontera step now) :
    let t := calculate_elapsed_steps step last now interval
    0 < t.elapsed ∧ frontera step now = frontera step last + t.elapsed * step ∧
      t.pre_int = frontera step now - last.value ∧ t.post_int = now.value - frontera step now ∧
      t.proc_pdp_cnt = last.sec / step := by
  have hdvd : ∃ e, 0 < e ∧ frontera step now = frontera step last + e * step := by
    refine ⟨now.sec / step - last.sec / step, ?_, ?_⟩
    · exact Nat.sub_pos_of_lt (lt_of_mul_lt_mul_left h (Nat.zero_le step))
    · have hle : last.sec / step ≤ now.sec / step := (lt_of_mul_lt_mul_left h (Nat.zero_le step)).le
      rw [frontera, frontera, Nat.mul_comm _ step, ← Nat.mul_add, Nat.add_sub_of_le hle]
  obtain ⟨e, he, hfront⟩ := hdvd
  have helapsed : (frontera step now - frontera step last) / step = e := by
    rw [hfront, Nat.add_sub_cancel_left, Nat.mul_div_cancel _ hstep]
  have hcnt : frontera step last / step = last.sec / step := Nat.mul_div_cancel_left _ hstep
  have hage : (now.sec : ℚ) = frontera step now + (now.sec % step : ℕ) := by
    rw [frontera]
    exact_mod_cast (Nat.div_add_mod now.sec step).symm
  simp only [calculate_elapsed_steps, sub_mod_eq_frontera, gt_iff_lt, h, if_true, helapsed, hcnt]
  refine ⟨he, hfront, ?_, ?_, trivial⟩
  · rw [Momento.value]
    push_cast
    ring
  · rw [Momento.value, hage]
    ring

end Steps

section Readings

structure Ds_def.Limitada (ds : Ds_def) (lo hi : ℚ) : Prop where
  min_val : ds.min_val = num lo
  max_val : ds.max_val = num hi

def Ds_def.tasa (ds : Ds_def) (updval : Lectura) (interval : ℚ) : Option ℚ :=
  match updval with
  | some (num q) =>
    if interval ≤ ds.mrhb_cnt ∧ !lt ds.max_val (num q) ∧ !lt (num q) ds.min_val then some q
    else none
  | _ => none

variable {ds : Ds_def} {lo hi interval : ℚ}

theorem update_pdp_prep_eq (hds : ds.Limitada lo hi) (hpos : 0 < interval) (updval : Lectura) :
    update_pdp_prep ds updval interval =
      ofOption ((ds.tasa updval interval).map (· * interval)) := by
  cases updval with
  | none => rfl
  | some x =>
    have hne : interval ≠ 0 := hpos.ne'
    have hneg : ¬ interval < 0 := hpos.le.not_gt
    have hsgn : (num interval).sgn = 1 := by
      rw [sgn, if_neg hneg, if_pos hpos]
    by_cases hle : interval ≤ ds.mrhb_cnt
    · cases x with
      | nan => simp [update_pdp_prep, Ds_def.tasa, isnan]
      | negInf =>
        have hmul : negInf * num interval = infinite (-1 * (num interval).sgn) := rfl
        have hdiv : negInf / num interval = if interval < 0 then negInf.neg else negInf := rfl
        rw [hsgn] at hmul
        rw [if_neg hneg] at hdiv
        simp [update_pdp_prep, Ds_def.tasa, hle, hmul, hdiv, hds.min_val, hds.max_val, infinite]
      | inf =>
        have hmul : inf * num interval = infinite (1 * (num interval).sgn) := rfl
        have hdiv : inf / num interval = if interval < 0 then inf.neg else inf := rfl
        rw [hsgn] at hmul
        rw [if_neg hneg] at hdiv
        simp [update_pdp_prep, Ds_def.tasa, hle, hmul, hdiv, hds.min_val, hds.max_val, infinite]
      | num q =>
        have hrate : num (q * interval) / num interval = num q := by
          rw [num_div hne, mul_div_cancel_right₀ _ hne]
        rcases lt_or_ge hi q with hmax | hmax
        · simp [update_pdp_prep, Ds_def.tasa, hle, hrate, hds.min_val, hds.max_val, hmax]
        · rcases lt_or_ge q lo with hmin | hmin
          · simp [update_pdp_prep, Ds_def.tasa, hle, hrate, hds.min_val, hds.max_val, hmin]
          · simp [update_pdp_prep, Ds_def.tasa, hle, hrate, hds.min_val, hds.max_val, hmax, hmin]
    · cases x <;> simp [update_pdp_prep, Ds_def.tasa, hle]

end Readings

section Runs

theorem lt_frontera_of_elapsed {step e : ℕ} {last now : Momento} (hstep : 0 < step) (he : 0 < e)
    (hfront : frontera step now = frontera step last + e * step) :
    last.value < frontera step now := by
  have h := lt_frontera hstep last
  have hmul : step ≤ e * step := Nat.le_mul_of_pos_left _ he
  have hq : (frontera step last : ℚ) + step ≤ frontera step now := by
    rw [hfront]
    exact_mod_cast Nat.add_le_add_left hmul _
  linarith

theorem floor_of_whole {p : Piece ℚ} (hle : p.start ≤ p.stop)
    (h : ∃ m n : ℕ, p.start = m ∧ p.stop = n) :
    (⌊p.stop - p.start⌋₊ : ℚ) = p.stop - p.start := by
  obtain ⟨m, n, hm, hn⟩ := h
  rw [hm, hn] at hle ⊢
  have hmn : m ≤ n := by exact_mod_cast hle
  rw [← Nat.cast_sub hmn, Nat.floor_natCast]

variable {step t₀ : ℕ} {ds : Ds_def} {lo hi : ℚ} {s s' : Fuente} {σ : List (Piece ℚ)}
  {now : Momento} {updval : Lectura} {out : ℕ × Double}

theorem recibe_cases (hstep : 0 < step) (h : s.recibe step ds now updval = some (out, s')) :
    s.last.value < now.value ∧
      ((frontera step now = frontera step s.last ∧ out = (0, nan) ∧
          s' = ⟨now, simple_update (now.value - s.last.value)
            (update_pdp_prep ds updval (now.value - s.last.value)) s.prep⟩) ∨
        ∃ e r, 0 < e ∧ frontera step now = frontera step s.last + e * step ∧
          r = process_pdp_st step ds.mrhb_cnt (now.value - s.last.value)
          (frontera step now - s.last.value)
            (now.value - frontera step now) (e * step)
            (update_pdp_prep ds updval (now.value - s.last.value)) s.prep ∧
          out = (e, r.1) ∧ s' = ⟨now, r.2⟩) := by
  unfold Fuente.recibe at h
  split_ifs at h with hpost
  have hlt := posterior_iff.1 hpost
  refine ⟨hlt, ?_⟩
  rw [intervalo_eq] at h
  rcases (frontera_mono hlt).eq_or_lt with heq | hlt'
  · rw [if_pos (calculate_elapsed_steps_of_eq _ heq.symm), Option.some.injEq, Prod.mk.injEq] at h
    exact Or.inl ⟨heq.symm, h.1.symm, h.2.symm⟩
  · obtain ⟨hpos, hfront, hpre, hpost', -⟩ :=
      calculate_elapsed_steps_of_lt hstep (now.value - s.last.value) hlt'
    rw [if_neg hpos.ne', Option.some.injEq, Prod.mk.injEq, hpre, hpost'] at h
    exact Or.inr ⟨_, _, hpos, hfront, rfl, h.1.symm, h.2.symm⟩

def Fuente.pieza (s : Fuente) (ds : Ds_def) (now : Momento) (updval : Lectura) : Piece ℚ :=
  ⟨s.last.value, now.value, ds.tasa updval (now.value - s.last.value)⟩

/-- The states of a source since it was made, each with what it has been told. -/
inductive Alcanza (step : ℕ) (ds : Ds_def) (t₀ : ℕ) : Fuente → List (Piece ℚ) → Prop
  | crea : Alcanza step ds t₀ (Fuente.crea step t₀) []
  | recibe {s s' : Fuente} {σ : List (Piece ℚ)} {now : Momento} {updval : Lectura}
    {out : ℕ × Double} :
      Alcanza step ds t₀ s σ → s.recibe step ds now updval = some (out, s') →
        Alcanza step ds t₀ s' (s.pieza ds now updval :: σ)

/-- The unfinished step has the area of what was known of it, and of the rest the
whole seconds of each unknown piece. -/
structure Inv (step t₀ : ℕ) (s : Fuente) (σ : List (Piece ℚ)) : Prop where
  chain : Chain (t₀ : ℚ) s.last.value σ
  val : ifnan s.prep.PDP_val (num 0) = num (area σ (frontera step s.last) s.last.value)
  known_zero : s.prep.PDP_val = nan → known σ (frontera step s.last) s.last.value = 0
  le : known σ (frontera step s.last) s.last.value + s.prep.PDP_unkn_sec_cnt ≤
    s.last.value - frontera step s.last
  ge : s.last.value - frontera step s.last ≤
    known σ (frontera step s.last) s.last.value + s.prep.PDP_unkn_sec_cnt +
      gaps σ (frontera step s.last)
  whole : Whole σ → s.last.value - frontera step s.last =
    known σ (frontera step s.last) s.last.value + s.prep.PDP_unkn_sec_cnt

theorem inv_crea : Inv step t₀ (Fuente.crea step t₀) [] := by
  have hval : (Fuente.crea step t₀).last.value = t₀ := by
    simp [Fuente.crea, Momento.value]
  have hrest : (t₀ : ℚ) - frontera step (Fuente.crea step t₀).last = (t₀ % step : ℕ) := by
    have h : (t₀ : ℚ) = frontera step (Fuente.crea step t₀).last + (t₀ % step : ℕ) := by
      exact_mod_cast (Nat.div_add_mod t₀ step).symm
    linarith
  constructor
  · rw [hval]
    exact .nil _
  · rfl
  · intro
    rfl
  · rw [hval, hrest, known, zero_add]
    exact le_rfl
  · rw [hval, hrest, known, gaps, zero_add, Nat.cast_zero, add_zero]
    exact le_rfl
  · intro
    rw [hval, hrest, known, zero_add]
    rfl

theorem Inv.val_cases (h : Inv step t₀ s σ) :
    s.prep.PDP_val = nan ∧ area σ (frontera step s.last) s.last.value = 0 ∨
      s.prep.PDP_val = num (area σ (frontera step s.last) s.last.value) := by
  have hval := h.val
  cases hv : s.prep.PDP_val with
  | nan =>
    rw [hv, nan_ifnan, num.injEq] at hval
    exact Or.inl ⟨rfl, hval.symm⟩
  | negInf =>
    rw [hv] at hval
    cases hval
  | num q =>
    rw [hv, num_ifnan] at hval
    exact Or.inr hval
  | inf =>
    rw [hv] at hval
    cases hval

theorem Inv.simple_update (hds : ds.Limitada lo hi) (h : Inv step t₀ s σ)
    (hlt : s.last.value < now.value) (hfront : frontera step now = frontera step s.last) :
    Inv step t₀ ⟨now, simple_update (now.value - s.last.value)
      (update_pdp_prep ds updval (now.value - s.last.value)) s.prep⟩
        (s.pieza ds now updval :: σ) := by
  have hb : (frontera step s.last : ℚ) ≤ s.last.value := frontera_le _
  have hpos : 0 < now.value - s.last.value := sub_pos.2 hlt
  have hle := h.le
  have hge := h.ge
  rw [update_pdp_prep_eq hds hpos, Fuente.pieza]
  generalize ds.tasa updval (now.value - s.last.value) = rate
  have hknown := h.chain.known_cons hb hlt.le le_rfl rate
  have harea := h.chain.area_cons hb hlt.le le_rfl rate
  have hfloor := Nat.floor_le hpos.le
  have hfloor' := Nat.lt_floor_add_one (now.value - s.last.value)
  cases rate with
  | none =>
    have hgaps : gaps (⟨s.last.value, now.value, none⟩ :: σ) (frontera step s.last : ℚ) =
        1 + gaps σ (frontera step s.last : ℚ) := by
      rw [gaps, if_pos ⟨rfl, hb.trans_lt hlt⟩]
    rw [Option.isSome_none, if_neg Bool.false_ne_true, zero_add] at hknown
    rw [Option.getD_none, zero_mul, zero_add] at harea
    constructor
    · exact h.chain.cons none hlt.le
    · rw [hfront, harea]
      exact h.val
    · rw [hfront, hknown]
      exact h.known_zero
    · rw [hfront, hknown]
      simp only [Points.simple_update, Option.map_none, ofOption_none, isnan_nan, if_true]
      push_cast
      linarith
    · rw [hfront, hknown, hgaps]
      simp only [Points.simple_update, Option.map_none, ofOption_none, isnan_nan, if_true]
      push_cast
      linarith
    · intro hwhole
      have hrest := h.whole fun p hp ↦ hwhole p (List.mem_cons_of_mem _ hp)
      have hlen := floor_of_whole hlt.le (hwhole _ List.mem_cons_self rfl)
      rw [hfront, hknown]
      simp only [Points.simple_update, Option.map_none, ofOption_none, isnan_nan, if_true]
      push_cast
      linarith
  | some q =>
    have hgaps : gaps (⟨s.last.value, now.value, some q⟩ :: σ) (frontera step s.last : ℚ) =
        gaps σ (frontera step s.last : ℚ) := by
      rw [gaps, if_neg fun hp ↦ Bool.false_ne_true hp.1, zero_add]
    rw [Option.isSome_some, if_pos rfl] at hknown
    rw [Option.getD_some] at harea
    have hval : (Points.simple_update (now.value - s.last.value)
        (ofOption ((some q).map (· * (now.value - s.last.value)))) s.prep) =
        ⟨num (area (⟨s.last.value, now.value, some q⟩ :: σ) (frontera step s.last) now.value),
          s.prep.PDP_unkn_sec_cnt⟩ := by
      rw [harea]
      rcases h.val_cases with hv | hv
      · simp [Points.simple_update, hv.1, hv.2]
      · simp [Points.simple_update, hv, add_comm]
    rw [hval]
    constructor
    · exact h.chain.cons (some q) hlt.le
    · rw [hfront]
      rfl
    · intro hnan
      cases hnan
    · rw [hfront, hknown]
      linarith
    · rw [hfront, hknown, hgaps]
      linarith
    · intro hwhole
      have hrest := h.whole fun p hp ↦ hwhole p (List.mem_cons_of_mem _ hp)
      rw [hfront, hknown]
      linarith

theorem Inv.process_pdp_st (hstep : 0 < step) (hds : ds.Limitada lo hi) (h : Inv step t₀ s σ)
    (hlt : s.last.value < now.value) {e : ℕ} (he : 0 < e)
    (hfront : frontera step now = frontera step s.last + e * step) :
    Inv step t₀ ⟨now, (process_pdp_st step ds.mrhb_cnt (now.value - s.last.value)
      (frontera step now - s.last.value) (now.value - frontera step now) (e * step)
      (update_pdp_prep ds updval (now.value - s.last.value)) s.prep).2⟩
        (s.pieza ds now updval :: σ) := by
  have hpos : 0 < now.value - s.last.value := sub_pos.2 hlt
  have hlast : s.last.value ≤ frontera step now := (lt_frontera_of_elapsed hstep he hfront).le
  have hnow : (frontera step now : ℚ) ≤ now.value := frontera_le _
  have hpost : 0 ≤ now.value - frontera step now := sub_nonneg.2 hnow
  rw [update_pdp_prep_eq hds hpos, Fuente.pieza]
  generalize ds.tasa updval (now.value - s.last.value) = rate
  have hknown := h.chain.known_cut hlast hnow rate
  have harea := h.chain.area_cut hlast hnow rate
  have hfloor := Nat.floor_le hpost
  have hfloor' := Nat.lt_floor_add_one (now.value - frontera step now)
  have hgaps := h.chain.gaps_of_le hlast
  cases rate with
  | none =>
    rw [Option.isSome_none, if_neg Bool.false_ne_true] at hknown
    rw [Option.getD_none, zero_mul] at harea
    rw [Option.map_none, ofOption_none, process_pdp_st_nan]
    constructor
    · exact h.chain.cons none hlt.le
    · rw [harea]
      rfl
    · intro
      exact hknown
    · rw [hknown, zero_add]
      exact hfloor
    · rw [hknown, zero_add]
      dsimp only
      rcases hnow.eq_or_lt with heq | hlt'
      · rw [← heq, sub_self, Nat.floor_zero, Nat.cast_zero, zero_add]
        exact Nat.cast_nonneg _
      · rw [gaps, hgaps, if_pos ⟨rfl, hlt'⟩, Nat.cast_one]
        exact hfloor'.le
    · intro hwhole
      obtain ⟨m, n, -, hn⟩ := hwhole _ List.mem_cons_self rfl
      have hlen := floor_of_whole (p := ⟨frontera step now, now.value, none⟩) hnow ⟨_, n, rfl, hn⟩
      rw [hknown, zero_add]
      exact hlen.symm
  | some q =>
    rw [Option.isSome_some, if_pos rfl] at hknown
    rw [Option.getD_some] at harea
    rw [Option.map_some, ofOption_some, process_pdp_st_num _ _ _ _ _ _ hpos.ne']
    have hrest : (0 : ℚ) ≤ gaps (⟨s.last.value, now.value, some q⟩ :: σ) (frontera step now : ℚ) :=
      Nat.cast_nonneg _
    constructor
    · exact h.chain.cons (some q) hlt.le
    · rw [harea, num_ifnan]
    · intro hnan
      cases hnan
    · rw [hknown, Nat.cast_zero, add_zero]
    · rw [hknown, Nat.cast_zero, add_zero]
      exact le_add_of_nonneg_right hrest
    · intro
      rw [hknown, Nat.cast_zero, add_zero]

/-- The value of the steps that are over is the area of all of them, divided by the
time that is known and what the whole seconds leave out of the unknown pieces. -/
theorem Inv.pdp_temp (hstep : 0 < step) (hds : ds.Limitada lo hi) (h : Inv step t₀ s σ)
    (hlt : s.last.value < now.value) {e : ℕ} (he : 0 < e)
    (hfront : frontera step now = frontera step s.last + e * step) (updval : Lectura) :
    let σ' := s.pieza ds now updval :: σ
    let b : ℚ := frontera step s.last
    let b' : ℚ := frontera step now
    ∃ val D, (Points.process_pdp_st step ds.mrhb_cnt (now.value - s.last.value) (b' - s.last.value)
        (now.value - b') (e * step)
          (update_pdp_prep ds updval (now.value - s.last.value)) s.prep).1 =
        (if now.value - s.last.value > ds.mrhb_cnt ∨ (step : ℚ) / 2 < s.prep.PDP_unkn_sec_cnt then
          nan
        else val / num D) ∧
      (val = nan ∧ known σ' b b' = 0 ∨ val = num (area σ' b b')) ∧
      known σ' b b' ≤ D ∧ D ≤ known σ' b b' + gaps σ b ∧ (Whole σ → D = known σ' b b') := by
  have hpos : 0 < now.value - s.last.value := sub_pos.2 hlt
  have hb : (frontera step s.last : ℚ) ≤ s.last.value := frontera_le _
  have hlast : s.last.value ≤ frontera step now := (lt_frontera_of_elapsed hstep he hfront).le
  have hnow : (frontera step now : ℚ) ≤ now.value := frontera_le _
  have hsteps : (e : ℚ) * step = frontera step now - frontera step s.last := by
    rw [hfront]
    push_cast
    ring
  have hle := h.le
  have hge := h.ge
  dsimp only
  rw [update_pdp_prep_eq hds hpos, Fuente.pieza]
  generalize ds.tasa updval (now.value - s.last.value) = rate
  rw [h.chain.known_cons hb hlast hnow rate, h.chain.area_cons hb hlast hnow rate]
  cases rate with
  | none =>
    rw [Option.map_none, ofOption_none, process_pdp_st_nan, Option.isSome_none,
      if_neg Bool.false_ne_true, Option.getD_none, zero_mul, zero_add, zero_add]
    refine ⟨_, _, rfl, ?_, ?_, ?_, ?_⟩
    · rcases h.val_cases with hv | hv
      · exact Or.inl ⟨hv.1, h.known_zero hv.1⟩
      · exact Or.inr hv
    · push_cast
      linarith
    · push_cast
      linarith
    · intro hwhole
      have hrest := h.whole hwhole
      push_cast
      linarith
  | some q =>
    rw [Option.map_some, ofOption_some, process_pdp_st_num _ _ _ _ _ _ hpos.ne',
      Option.isSome_some, if_pos rfl, Option.getD_some]
    refine ⟨_, _, rfl, ?_, ?_, ?_, ?_⟩
    · rw [h.val, num_add, add_comm]
      exact Or.inr rfl
    · push_cast
      linarith
    · push_cast
      linarith
    · intro hwhole
      have hrest := h.whole hwhole
      push_cast
      linarith

theorem Alcanza.inv (hstep : 0 < step) (hds : ds.Limitada lo hi) (h : Alcanza step ds t₀ s σ) :
    Inv step t₀ s σ := by
  induction h with
  | crea => exact inv_crea
  | recibe h hr ih =>
    obtain ⟨hlt, hcase | hcase⟩ := recibe_cases hstep hr
    · obtain ⟨hfront, -, rfl⟩ := hcase
      exact ih.simple_update hds hlt hfront
    · obtain ⟨e, r, he, hfront, rfl, -, rfl⟩ := hcase
      exact ih.process_pdp_st hstep hds hlt he hfront

section Values

variable {e : ℕ} {x : Double}

theorem recibe_pasos (hstep : 0 < step) (hr : s.recibe step ds now updval = some ((e, x), s')) :
    s'.last = now ∧ s'.last.sec / step = s.last.sec / step + e := by
  have hdiv : ∀ m : Momento, frontera step m / step = m.sec / step :=
    fun m ↦ Nat.mul_div_cancel_left _ hstep
  obtain ⟨-, hcase | hcase⟩ := recibe_cases hstep hr
  · obtain ⟨hfront, hout, rfl⟩ := hcase
    cases hout
    rw [← hdiv s.last, ← hdiv now, hfront]
    exact ⟨rfl, rfl⟩
  · obtain ⟨e', p, he, hfront, -, hout, rfl⟩ := hcase
    cases hout
    refine ⟨rfl, ?_⟩
    rw [← hdiv s.last, ← hdiv now, hfront, Nat.add_mul_div_right _ _ hstep]

theorem recibe_elapsed (hstep : 0 < step) (hr : s.recibe step ds now updval = some ((e, x), s'))
    (he : 0 < e) :
    s.last.value < now.value ∧ frontera step now = frontera step s.last + e * step ∧
      x =
        (process_pdp_st step ds.mrhb_cnt (now.value - s.last.value)
        (frontera step now - s.last.value)
        (now.value - frontera step now) (e * step)
        (update_pdp_prep ds updval (now.value - s.last.value)) s.prep).1 := by
  obtain ⟨hlt, hcase | hcase⟩ := recibe_cases hstep hr
  · obtain ⟨-, hout, -⟩ := hcase
    cases hout
    exact absurd he (lt_irrefl 0)
  · obtain ⟨e', r, -, hfront, rfl, hout, -⟩ := hcase
    cases hout
    exact ⟨hlt, hfront, rfl⟩

/-- Where every unknown piece has whole seconds, the steps that an update ends get the
mean of the time that is known, unless the reading is late or more than half a step
before it was unknown. -/
theorem value_of_whole (hstep : 0 < step) (hds : ds.Limitada lo hi) (h : Alcanza step ds t₀ s σ)
    (hr : s.recibe step ds now updval = some ((e, x), s')) (he : 0 < e) (hwhole : Whole σ) :
    let σ' := s.pieza ds now updval :: σ
    let b : ℚ := frontera step s.last
    let b' : ℚ := frontera step now
    b' = b + e * step ∧
      x = if ds.mrhb_cnt < now.value - s.last.value ∨
          (step : ℚ) / 2 < s.last.value - b - known σ b s.last.value ∨ known σ' b b' = 0 then nan
        else num (area σ' b b' / known σ' b b') := by
  obtain ⟨hlt, hfront, hx⟩ := recibe_elapsed hstep hr he
  have hinv := h.inv hstep hds
  obtain ⟨val, D, htemp, hval, -, -, hD⟩ := hinv.pdp_temp hstep hds hlt he hfront updval
  have hunkn := hinv.whole hwhole
  dsimp only at htemp hval hD ⊢
  refine ⟨by rw [hfront]; push_cast; rfl, ?_⟩
  have hcnt : (s.prep.PDP_unkn_sec_cnt : ℚ) =
      s.last.value - frontera step s.last -
        known σ (frontera step s.last) s.last.value := by linarith
  rw [hx, htemp, hD hwhole, hcnt]
  split_ifs with hstale hzero hzero
  · rfl
  · exact absurd (hstale.imp_right Or.inl) hzero
  · have hknown := (or_assoc.2 hzero).resolve_left hstale
    rcases hval with hv | hv
    · rw [hv.1, nan_div]
    · rw [hv, area_of_known_zero hknown, hknown, zero_div_zero]
  · have hknown := fun hk ↦ hzero (Or.inr (Or.inr hk))
    rcases hval with hv | hv
    · exact absurd hv.2 hknown
    · rw [hv, num_div hknown]

theorem value_of_whole_quince :
    let ds : Ds_def := ⟨600, num 0, num 100⟩
    let tres : Momento := ⟨3, 0, Nat.succ_pos _⟩
    let quince : Momento := ⟨15, 0, Nat.succ_pos _⟩
    let s : Fuente := ⟨tres, ⟨num 0, 3⟩⟩
    let σ := [(Fuente.crea 10 0).pieza ds tres none]
    let σ' := s.pieza ds quince (some (num 5)) :: σ
    num 5 = if ((600 : ℕ) : ℚ) < quince.value - tres.value ∨
        ((10 : ℕ) : ℚ) / 2 < tres.value - frontera 10 tres - known σ (frontera 10 tres) tres.value ∨
        known σ' (frontera 10 tres) (frontera 10 quince) = 0 then nan
      else num (area σ' (frontera 10 tres) (frontera 10 quince) /
        known σ' (frontera 10 tres) (frontera 10 quince)) := by
  intro ds tres quince s σ σ'
  have hwhole : Whole σ := by
    intro p hp _
    rw [List.mem_singleton.1 hp]
    refine ⟨0, 3, ?_, ?_⟩
    · norm_num [Fuente.pieza, Fuente.crea, Momento.value]
    · norm_num [Fuente.pieza, tres, Momento.value]
  have htres : (Fuente.crea 10 0).recibe 10 ds tres none = some ((0, nan), s) := by
    norm_num [Fuente.recibe, Fuente.crea, posterior, s, tres, calculate_elapsed_steps, intervalo,
      update_pdp_prep, simple_update]
  have hquince : s.recibe 10 ds quince (some (num 5)) =
      some ((1, num 5), ⟨quince, ⟨num 25, 0⟩⟩) := by
    norm_num [Fuente.recibe, posterior, s, tres, quince, ds, calculate_elapsed_steps, intervalo,
      update_pdp_prep, process_pdp_st, num_div]
  exact (value_of_whole (Nat.succ_pos 9) ⟨rfl, rfl⟩ (.recibe .crea htres) hquince
    Nat.one_pos hwhole).2

/-- With parts of seconds the divisor is more than what is known, by less than a second
for each unknown piece that ended before. -/
theorem value_cases (hstep : 0 < step) (hds : ds.Limitada lo hi) (h : Alcanza step ds t₀ s σ)
    (hr : s.recibe step ds now updval = some ((e, x), s')) (he : 0 < e) :
    let σ' := s.pieza ds now updval :: σ
    let b : ℚ := frontera step s.last
    let b' : ℚ := frontera step now
    x = nan ∨ ∃ D, 0 < D ∧ known σ' b b' ≤ D ∧ D ≤ known σ' b b' + gaps σ b ∧
      x = num (area σ' b b' / D) := by
  obtain ⟨hlt, hfront, hx⟩ := recibe_elapsed hstep hr he
  obtain ⟨val, D, htemp, hval, hle, hge, -⟩ :=
    (h.inv hstep hds).pdp_temp hstep hds hlt he hfront updval
  dsimp only at htemp hval hle hge ⊢
  rw [hx, htemp]
  split_ifs with hstale
  · exact Or.inl rfl
  · rcases hval with hv | hv
    · rw [hv.1, nan_div]
      exact Or.inl rfl
    · rcases (known_nonneg.trans hle).eq_or_lt with hD | hD
      · have hknown : known (s.pieza ds now updval :: σ) (frontera step s.last : ℚ)
          (frontera step now) = 0 :=
          le_antisymm (hle.trans hD.ge) known_nonneg
        rw [hv, area_of_known_zero hknown, ← hD, zero_div_zero]
        exact Or.inl rfl
      · rw [hv, num_div hD.ne']
        exact Or.inr ⟨D, hD, hle, hge, rfl⟩

theorem tasa_bounds (hds : ds.Limitada lo hi) {interval q : ℚ}
    (h : ds.tasa updval interval = some q) :
    lo ≤ q ∧ q ≤ hi := by
  unfold Ds_def.tasa at h
  split at h
  · split_ifs at h with hin
    cases h
    simpa [hds.min_val, hds.max_val, and_comm] using hin.2
  · cases h

theorem Alcanza.rates (hds : ds.Limitada lo hi) (h : Alcanza step ds t₀ s σ) :
    ∀ p ∈ σ, ∀ q, p.rate = some q → lo ≤ q ∧ q ≤ hi := by
  induction h with
  | crea =>
    intro p hp
    cases hp
  | recibe h hr ih =>
    intro p hp q hq
    rcases List.mem_cons.1 hp with rfl | hp
    · exact tasa_bounds hds hq
    · exact ih p hp q hq

theorem value_bounds (hstep : 0 < step) (hds : ds.Limitada lo hi) (hlo : lo ≤ 0) (hhi : 0 ≤ hi)
    (h : Alcanza step ds t₀ s σ) (hr : s.recibe step ds now updval = some ((e, x), s'))
    (he : 0 < e) :
    x = nan ∨ ∃ q, x = num q ∧ lo ≤ q ∧ q ≤ hi := by
  rcases value_cases hstep hds h hr he with hx | ⟨D, hD, hle, -, hx⟩
  · exact Or.inl hx
  · have hrates := (h.recibe hr).rates hds
    obtain ⟨hlow, hhigh⟩ :=
      area_bounds (a := (frontera step s.last : ℚ)) (b := frontera step now) hrates
    refine Or.inr ⟨_, hx, ?_, ?_⟩
    · rw [le_div_iff₀ hD]
      exact (mul_le_mul_of_nonpos_left hle hlo).trans hlow
    · rw [div_le_iff₀ hD]
      exact hhigh.trans (mul_le_mul_of_nonneg_left hle hhi)

end Values

end Runs

end ServiciosRed.Points
