import Mathlib.Data.Rat.Cast.Order
import Mathlib.Algebra.Order.Ring.Rat
import ServiciosRed.LeastSquares

namespace ServiciosRed.Trend

open LeastSquares hiding slope Normal

abbrev Dato := Option ℚ

abbrev Serie := List Dato

section Calculator

/-- The operators of `rpn_calc` that the graph uses. A VDEF stands as its value. -/
inductive Op
  | number (val : Dato)
  | var (data : Serie)
  | count
  | exc
  | pop
  | mul
  | add
  | limit

/-- Values outside the bounds become unknown. -/
def limit : Dato → Dato → Dato → Dato
  | some x, some low, some high => if x < low then none else if high < x then none else some x
  | _, _, _ => none

def Op.aplica (output_idx : ℕ) : Op → List Dato → Option (List Dato)
  | number val, s => some (val :: s)
  | var data, s => some (data[output_idx]?.join :: s)
  | count, s => some (some (output_idx + 1) :: s)
  | exc, b :: a :: s => some (a :: b :: s)
  | pop, _ :: s => some s
  | mul, b :: a :: s => some (Option.map₂ (· * ·) a b :: s)
  | add, b :: a :: s => some (Option.map₂ (· + ·) a b :: s)
  | limit, high :: low :: x :: s => some (Trend.limit x low high :: s)
  | _, _ => none

/-- The stack must not run empty, and one value is left on it. -/
def rpn_calc (rpnp : List Op) (output_idx : ℕ) : Option Dato := do
  let s ← rpnp.foldlM (fun s op ↦ op.aplica output_idx s) []
  match s with
  | [x] => some x
  | _ => none

/-- A CDEF: the calculator at every step. -/
def data_calc (rpnp : List Op) (steps : ℕ) : Option Serie := (List.range steps).mapM (rpn_calc rpnp)

theorem mapM_eq_some {α β : Type} {f : α → Option β} {g : α → β} (h : ∀ a, f a = some (g a))
    (l : List α) :
    l.mapM f = some (l.map g) := by
  induction l with
  | nil => rfl
  | cons a l ih => simp [h, ih]

theorem data_calc_eq {rpnp : List Op} {f : ℕ → Dato} (h : ∀ k, rpn_calc rpnp k = some (f k))
    (steps : ℕ) :
    data_calc rpnp steps = some ((List.range steps).map f) :=
  mapM_eq_some h _

end Calculator

section Definitions

/-- The sums of `vdef_calc` over the known values. -/
structure Sumas where
  cnt : ℕ
  SUMx : ℚ
  SUMy : ℚ
  SUMxy : ℚ
  SUMxx : ℚ

def suma : ℕ → Serie → Sumas → Sumas
  | _, [], s => s
  | step, none :: data, s => suma (step + 1) data s
  | step, some y :: data, s =>
    suma (step + 1) data ⟨s.cnt + 1, s.SUMx + step, s.SUMy + y, s.SUMxy + step * y,
      s.SUMxx + step * step⟩

/-- A quotient by zero is not known. -/
def entre (a b : ℚ) : Dato := if b = 0 then none else some (a / b)

def lslslope (data : Serie) : Dato :=
  let s := suma 0 data ⟨0, 0, 0, 0, 0⟩
  if s.cnt = 0 then none
  else entre (s.SUMx * s.SUMy - s.cnt * s.SUMxy) (s.SUMx * s.SUMx - s.cnt * s.SUMxx)

def lslint (data : Serie) : Dato :=
  let s := suma 0 data ⟨0, 0, 0, 0, 0⟩
  if s.cnt = 0 then none else (lslslope data).bind fun slope ↦ entre (s.SUMy - slope * s.SUMx) s.cnt

/-- `vf.when` of VDEF_FIRST -/
def first (start step : ℤ) (data : Serie) : ℤ :=
  let n := data.findIdx Option.isSome
  if n = data.length then 0 else start + n * step

end Definitions

section Graph

/-- The time range of a graph, which does not start before 1980, and what the file has for its
steps. -/
structure Grafica where
  start : ℤ
  step : ℤ
  obs : Serie
  start_pos : 0 < start
  step_pos : 0 < step

/-- `CDEF:scaledobs=obs,8,*` -/
def scaledobs (obs : Serie) : Option Serie :=
  data_calc [.var obs, .number (some 8), .mul] obs.length

/-- `VDEF:slm=scaledobs,LSLSLOPE`, `VDEF:slb=scaledobs,LSLINT` and
`CDEF:ls=scaledobs,COUNT,EXC,POP,slm,*,slb,+` -/
def ls (obs : Serie) : Option Serie := do
  let scaledobs ← scaledobs obs
  let slm := lslslope scaledobs
  let slb := lslint scaledobs
  data_calc [.var scaledobs, .count, .exc, .pop, .number slm, .mul, .number slb, .add] obs.length

/-- `CDEF:limite=ls,0,1000,LIMIT` -/
def limite (obs : Serie) : Option Serie := do
  let ls ← ls obs
  data_calc [.var ls, .number (some 0), .number (some 1000), .limit] obs.length

/-- `VDEF:minabc2=limite,FIRST`, whose time `gen_image` returns. -/
def minabc2 (g : Grafica) : Option ℤ := (limite g.obs).map (first g.start g.step)

end Graph

section Values

def dato (data : Serie) (k : ℕ) : Dato := data[k]?.join

def conocidos (data : Serie) : Finset ℕ :=
  (Finset.range data.length).filter fun k ↦ (dato data k).isSome

def valor (data : Serie) (k : ℕ) : ℚ := (dato data k).getD 0

theorem mem_conocidos {data : Serie} {k : ℕ} :
    k ∈ conocidos data ↔ k < data.length ∧ (dato data k).isSome := by
  simp [conocidos]

theorem dato_map (g : ℚ → ℚ) (data : Serie) (k : ℕ) :
    dato (data.map (Option.map g)) k = (dato data k).map g := by
  unfold dato
  rw [List.getElem?_map]
  cases data[k]? <;> rfl

theorem conocidos_map (g : ℚ → ℚ) (data : Serie) :
    conocidos (data.map (Option.map g)) = conocidos data := by
  simp [conocidos, dato_map]

theorem valor_mul (c : ℚ) (data : Serie) (k : ℕ) :
    valor (data.map (Option.map (· * c))) k = c * valor data k := by
  unfold valor
  rw [dato_map]
  cases dato data k with
  | none => simp
  | some x => exact mul_comm x c

theorem dato_range_map {n k : ℕ} (f : ℕ → Dato) (hk : k < n) :
    dato ((List.range n).map f) k = f k := by
  simp [dato, hk]

theorem sum_conocidos_cons {M : Type} [AddCommMonoid M] (d : Dato) (data : Serie) (f : ℕ → M) :
    ∑ k ∈ conocidos (d :: data), f k = (∑ k ∈ conocidos data, f (k + 1)) +
      if d.isSome then f 0 else 0 := by
  have hdato : ∀ k, dato (d :: data) (k + 1) = dato data k := fun k ↦ by simp [dato]
  have hcero : dato (d :: data) 0 = d := by simp [dato]
  rw [conocidos, conocidos, Finset.sum_filter, Finset.sum_filter, List.length_cons,
    Finset.sum_range_succ']
  simp only [hdato, hcero]

def recta (data : Serie) (k : ℚ) : ℚ := line (conocidos data) (fun k ↦ (k : ℚ)) (valor data) k

def pendiente (data : Serie) : ℚ :=
  LeastSquares.slope (conocidos data) (fun k ↦ (k : ℚ)) (valor data)

def ordenada (data : Serie) : ℚ := intercept (conocidos data) (fun k ↦ (k : ℚ)) (valor data)

theorem recta_eq (data : Serie) (k : ℚ) : recta data k = pendiente data * k + ordenada data := rfl

end Values

section Sums

theorem card_conocidos_cons (d : Dato) (data : Serie) :
    (conocidos (d :: data)).card = (conocidos data).card + if d.isSome then 1 else 0 := by
  simp only [Finset.card_eq_sum_ones, sum_conocidos_cons]

theorem valor_cons (d : Dato) (data : Serie) (k : ℕ) :
    valor (d :: data) (k + 1) = valor data k := by
  simp [valor, dato]

theorem valor_cons_zero (y : ℚ) (data : Serie) : valor (some y :: data) 0 = y := by
  simp [valor, dato]

/-- The loop sums over the known steps, which it counts from `step` on. -/
theorem suma_eq (data : Serie) (step : ℕ) (s : Sumas) :
    suma step data s =
      ⟨s.cnt + (conocidos data).card, s.SUMx + ∑ k ∈ conocidos data, ((step + k : ℕ) : ℚ),
      s.SUMy + ∑ k ∈ conocidos data, valor data k,
      s.SUMxy + ∑ k ∈ conocidos data, ((step + k : ℕ) : ℚ) * valor data k,
      s.SUMxx + ∑ k ∈ conocidos data, ((step + k : ℕ) : ℚ) * ((step + k : ℕ) : ℚ)⟩ := by
  induction data generalizing step s with
  | nil => simp [suma, conocidos]
  | cons d data ih =>
    have hpaso : ∀ k, step + 1 + k = step + (k + 1) := fun k ↦ by omega
    cases d with
    | none =>
      rw [suma, ih]
      simp [card_conocidos_cons, sum_conocidos_cons, valor_cons, hpaso]
    | some y =>
      rw [suma, ih]
      simp only [card_conocidos_cons, sum_conocidos_cons, valor_cons, valor_cons_zero, hpaso,
        Option.isSome_some, if_true, Nat.add_zero, Sumas.mk.injEq]
      refine ⟨by omega, by ring, by ring, by ring, by ring⟩

theorem suma_zero (data : Serie) :
    suma 0 data ⟨0, 0, 0, 0, 0⟩ = ⟨(conocidos data).card, ∑ k ∈ conocidos data, (k : ℚ),
      ∑ k ∈ conocidos data, valor data k, ∑ k ∈ conocidos data, (k : ℚ) * valor data k,
      ∑ k ∈ conocidos data, (k : ℚ) * k⟩ := by
  rw [suma_eq]
  simp

end Sums

section Fit

variable {data obs : Serie}

theorem spread_conocidos (h : 2 ≤ (conocidos data).card) :
    0 < spread (conocidos data) fun k ↦ (k : ℚ) := by
  obtain ⟨i, hi, j, hj, hij⟩ := Finset.one_lt_card.mp h
  exact spread_pos hi hj (Nat.cast_injective.ne hij)

theorem normal_recta (h : 2 ≤ (conocidos data).card) :
    LeastSquares.Normal (conocidos data) (fun k ↦ (k : ℚ)) (valor data) (pendiente data)
      (ordenada data) := by
  apply normal_line
  · exact_mod_cast (show (conocidos data).card ≠ 0 by omega)
  · exact (spread_conocidos h).ne'

/-- Both differences of the quotient have the other sign. -/
theorem lslslope_eq (h : 2 ≤ (conocidos data).card) : lslslope data = some (pendiente data) := by
  have hcnt : (conocidos data).card ≠ 0 := by omega
  have hspread := spread_conocidos h
  have hxx : ∑ k ∈ conocidos data, (k : ℚ) * k = ∑ k ∈ conocidos data, (k : ℚ) ^ 2 :=
    Finset.sum_congr rfl fun k _ ↦ by ring
  rw [spread] at hspread
  rw [lslslope, suma_zero]
  simp only [if_neg hcnt, entre, hxx]
  rw [if_neg (by linarith), pendiente, LeastSquares.slope, spread, ← neg_div_neg_eq]
  congr 2 <;> ring

theorem lslint_eq (h : 2 ≤ (conocidos data).card) : lslint data = some (ordenada data) := by
  have hcnt : (conocidos data).card ≠ 0 := by omega
  have hcast : ((conocidos data).card : ℚ) ≠ 0 := by exact_mod_cast hcnt
  rw [lslint, lslslope_eq h, suma_zero]
  simp only [if_neg hcnt, entre, if_neg hcast, Option.bind_some, ordenada, intercept, pendiente]

theorem scaledobs_eq (obs : Serie) : scaledobs obs = some (obs.map (Option.map (· * 8))) := by
  have hpaso : ∀ k, rpn_calc [.var obs, .number (some 8), .mul] k =
      some ((dato obs k).map (· * 8)) := by
    intro k
    simp only [rpn_calc, List.foldlM, Op.aplica, dato, Option.pure_def, Option.bind_eq_bind,
      Option.bind_some]
    cases obs[k]?.join <;> rfl
  rw [scaledobs, data_calc_eq hpaso]
  apply congrArg some
  apply List.ext_getElem
  · simp
  · intro k hk hk'
    simp at hk
    simp [dato, hk]

theorem recta_scaledobs (obs : Serie) (k : ℚ) :
    recta (obs.map (Option.map (· * 8))) k = 8 * recta obs k := by
  have hvalor : valor (obs.map (Option.map (· * 8))) = fun k ↦ 8 * valor obs k :=
    funext (valor_mul 8 obs)
  rw [recta, recta, conocidos_map, hvalor, line, line, slope_mul, intercept_mul]
  ring

theorem ls_eq (h : 2 ≤ (conocidos obs).card) :
    ls obs = some ((List.range obs.length).map fun k : ℕ ↦ some (8 * recta obs (k + 1))) := by
  have hcard : 2 ≤ (conocidos (obs.map (Option.map (· * 8)))).card := by rwa [conocidos_map]
  have hpaso : ∀ k, rpn_calc [.var (obs.map (Option.map (· * 8))), .count, .exc, .pop,
      .number (lslslope (obs.map (Option.map (· * 8)))), .mul,
      .number (lslint (obs.map (Option.map (· * 8)))),
      .add] k = some (some (8 * recta obs (k + 1))) := by
    intro k
    rw [lslslope_eq hcard, lslint_eq hcard, ← recta_scaledobs, recta_eq]
    simp only [rpn_calc, List.foldlM, Op.aplica, Option.pure_def, Option.bind_eq_bind,
      Option.bind_some, Option.map₂_some_some, mul_comm]
  rw [ls, scaledobs_eq]
  exact data_calc_eq hpaso _

end Fit

section LeastSquaresLine

variable {obs : Serie}

/-- The graph's `ls` is the fitted line of `scaledobs` at every step, and no line has a smaller
sum of squared differences from the known values. -/
def Ajustada (obs : Serie) : Prop :=
  ∃ scaled trend, scaledobs obs = some scaled ∧ ls obs = some trend ∧ trend.length = scaled.length ∧
    (∀ k < scaled.length, dato trend k = some (recta scaled k)) ∧
    ∀ a b, ∑ k ∈ conocidos scaled, (valor scaled k - valor trend k) ^ 2 ≤
      cost (conocidos scaled) (fun k ↦ (k : ℚ)) (valor scaled) a b

def Plana (obs : Serie) : Prop :=
  (conocidos obs).card * ∑ k ∈ conocidos obs, (k : ℚ) * valor obs k =
    (∑ k ∈ conocidos obs, (k : ℚ)) * ∑ k ∈ conocidos obs, valor obs k

instance (obs : Serie) : Decidable (Plana obs) := inferInstanceAs (Decidable (_ = _))

theorem pendiente_eq_zero_iff (h : 2 ≤ (conocidos obs).card) : pendiente obs = 0 ↔ Plana obs := by
  rw [pendiente, LeastSquares.slope, div_eq_zero_iff, or_iff_left (spread_conocidos h).ne',
    sub_eq_zero, Plana]

theorem recta_succ (obs : Serie) (k : ℚ) : recta obs (k + 1) = recta obs k + pendiente obs := by
  rw [recta_eq, recta_eq]
  ring

theorem Ajustada.plana (h : 2 ≤ (conocidos obs).card) (hajustada : Ajustada obs) : Plana obs := by
  obtain ⟨j, hj⟩ : ∃ j, j ∈ conocidos obs := Finset.card_pos.mp (by omega)
  have hlength : 0 < obs.length := Nat.zero_lt_of_lt (mem_conocidos.mp hj).1
  obtain ⟨scaled, trend, hscaled, htrend, -, hline, -⟩ := hajustada
  rw [scaledobs_eq, Option.some_inj] at hscaled
  rw [ls_eq h, Option.some_inj] at htrend
  subst hscaled htrend
  have hcero := hline 0 (by simpa using hlength)
  rw [dato_range_map _ hlength, recta_scaledobs, Option.some_inj, recta_succ] at hcero
  rw [← pendiente_eq_zero_iff h]
  linarith

theorem Plana.ajustada (h : 2 ≤ (conocidos obs).card) (hplana : Plana obs) : Ajustada obs := by
  have hcard : 2 ≤ (conocidos (obs.map (Option.map (· * 8)))).card := by rwa [conocidos_map]
  have hpendiente := (pendiente_eq_zero_iff h).mpr hplana
  have hpaso : ∀ k : ℕ, 8 * recta obs (k + 1) = recta (obs.map (Option.map (· * 8))) k := by
    intro k
    rw [recta_scaledobs, recta_succ, hpendiente, add_zero]
  refine ⟨_, _, scaledobs_eq obs, ls_eq h, by simp, ?_, ?_⟩
  · intro k hk
    rw [dato_range_map _ (by simpa using hk), hpaso]
  · intro a b
    refine le_of_eq_of_le ?_ ((normal_recta hcard).cost_le a b)
    apply Finset.sum_congr rfl
    intro k hk
    rw [conocidos_map] at hk
    rw [valor, valor, dato_range_map _ (mem_conocidos.mp hk).1, hpaso]
    rfl

theorem ajustada_iff (obs : Serie) (h : 2 ≤ (conocidos obs).card) : Ajustada obs ↔ Plana obs :=
  ⟨Ajustada.plana h, Plana.ajustada h⟩

theorem ajustada_constante : Ajustada [some 40, none, some 40] :=
  (ajustada_iff _ (by decide)).mpr (by decide +kernel)

theorem not_ajustada : ¬ ∀ obs : Serie, 2 ≤ (conocidos obs).card → Ajustada obs := by
  intro h
  have hplana := Ajustada.plana (by decide) (h [some 0, some 10] (by decide))
  exact absurd hplana (by decide +kernel)

end LeastSquaresLine

section First

variable {P : ℕ → Prop} {n : ℕ} {o o' : Option ℕ}

def Primero (P : ℕ → Prop) (n : ℕ) : Option ℕ → Prop
  | some k => k < n ∧ P k ∧ ∀ j < k, ¬ P j
  | none => ∀ k < n, ¬ P k

theorem exists_primero (P : ℕ → Prop) (n : ℕ) : ∃ o, Primero P n o := by
  classical
  by_cases h : ∃ k, k < n ∧ P k
  · refine ⟨some (Nat.find h), (Nat.find_spec h).1, (Nat.find_spec h).2, ?_⟩
    intro j hj hP
    exact Nat.find_min h hj ⟨hj.trans (Nat.find_spec h).1, hP⟩
  · exact ⟨none, fun k hk hP ↦ h ⟨k, hk, hP⟩⟩

theorem Primero.unique (h : Primero P n o) (h' : Primero P n o') : o = o' := by
  cases o with
  | none =>
    cases o' with
    | none => rfl
    | some k => exact absurd h'.2.1 (h k h'.1)
  | some k =>
    cases o' with
    | none => exact absurd h.2.1 (h' k h.1)
    | some k' =>
      rcases Nat.lt_trichotomy k k' with hlt | heq | hlt
      · exact absurd h.2.1 (h'.2.2 k hlt)
      · rw [heq]
      · exact absurd h'.2.1 (h.2.2 k' hlt)

def Grafica.fecha (g : Grafica) : Option ℕ → ℤ
  | some k => g.start + k * g.step
  | none => 0

theorem Grafica.fecha_injective (g : Grafica) : Function.Injective g.fecha := by
  have hpos : ∀ k : ℕ, 0 < g.start + k * g.step := by
    intro k
    have := mul_nonneg (Int.natCast_nonneg k) g.step_pos.le
    have := g.start_pos
    omega
  intro o o' h
  cases o with
  | none =>
    cases o' with
    | none => rfl
    | some k => exact absurd h (hpos k).ne
  | some k =>
    cases o' with
    | none => exact absurd h (hpos k).ne'
    | some k' =>
      have hmul : (k : ℤ) * g.step = k' * g.step := add_left_cancel h
      have hk := mul_right_cancel₀ g.step_pos.ne' hmul
      rw [Int.ofNat_inj.mp hk]

theorem first_eq (g : Grafica) {f : ℕ → Dato} (h : Primero (fun k ↦ (f k).isSome) n o) :
    first g.start g.step ((List.range n).map f) = g.fecha o := by
  have hlength : ((List.range n).map f).length = n := by simp
  cases o with
  | none =>
    have hnone : ∀ k < n, ¬ (f k).isSome := h
    have hidx : ((List.range n).map f).findIdx Option.isSome = n := by
      refine (List.findIdx_eq_length_of_false ?_).trans hlength
      simpa using hnone
    simp [first, hidx, Grafica.fecha]
  | some k =>
    obtain ⟨hk, hsome, hnone⟩ := h
    have hidx : ((List.range n).map f).findIdx Option.isSome = k := by
      rw [List.findIdx_eq (by rwa [hlength])]
      refine ⟨by simpa using hsome, ?_⟩
      intro j hj
      simpa using hnone j hj
    simp only [first, hidx, hlength, if_neg hk.ne, Grafica.fecha]

end First

section Reach

variable {g : Grafica} {obs : Serie} {o : Option ℕ}

/-- The trend reaches 90 percent at the step whose time is printed, and nowhere if there is
none. -/
def Alcanza (g : Grafica) : Prop :=
  ∃ o, Primero (fun k ↦ 90 ≤ recta g.obs k) g.obs.length o ∧ minabc2 g = some (g.fecha o)

theorem isSome_limit {x low high : ℚ} :
    (limit (some x) (some low) (some high)).isSome ↔ low ≤ x ∧ x ≤ high := by
  unfold limit
  by_cases hlow : x < low
  · simp [hlow]
  · by_cases hhigh : high < x
    · simp [hlow, hhigh]
    · simp [hlow, hhigh, not_lt.mp hlow, not_lt.mp hhigh]

theorem limite_eq (h : 2 ≤ (conocidos obs).card) :
    limite obs = some ((List.range obs.length).map fun k : ℕ ↦
      limit (dato ((List.range obs.length).map fun k : ℕ ↦ some (8 * recta obs (k + 1))) k) (some 0)
        (some 1000)) := by
  have hpaso : ∀ (ls : Serie) (k : ℕ),
    rpn_calc [.var ls, .number (some 0), .number (some 1000), .limit] k =
      some (limit (dato ls k) (some 0) (some 1000)) := by
    intro ls k
    rfl
  rw [limite, ls_eq h]
  exact data_calc_eq (hpaso _) _

theorem minabc2_eq (h : 2 ≤ (conocidos g.obs).card)
    (ho : Primero (fun k ↦ 0 ≤ recta g.obs (k + 1) ∧ recta g.obs (k + 1) ≤ 125) g.obs.length o) :
    minabc2 g = some (g.fecha o) := by
  have hknown : ∀ k < g.obs.length, ((limit (dato ((List.range g.obs.length).map fun k : ℕ ↦
      some (8 * recta g.obs (k + 1))) k) (some 0) (some 1000)).isSome ↔
        0 ≤ recta g.obs (k + 1) ∧ recta g.obs (k + 1) ≤ 125) := by
    intro k hk
    rw [dato_range_map _ hk, isSome_limit]
    constructor
    · intro h
      exact ⟨by linarith, by linarith⟩
    · intro h
      exact ⟨by linarith, by linarith⟩
  rw [minabc2, limite_eq h, Option.map_some, first_eq g]
  cases o with
  | none => exact fun k hk hsome ↦ ho k hk ((hknown k hk).mp hsome)
  | some k =>
    obtain ⟨hk, hP, hnot⟩ := ho
    exact ⟨hk, (hknown k hk).mpr hP, fun j hj hsome ↦ hnot j hj ((hknown j (hj.trans hk)).mp hsome)⟩

theorem alcanza_primero_iff (h : 2 ≤ (conocidos g.obs).card) :
    Alcanza g ↔ ∃ o, Primero (fun k ↦ 90 ≤ recta g.obs k) g.obs.length o ∧
      Primero (fun k ↦ 0 ≤ recta g.obs (k + 1) ∧ recta g.obs (k + 1) ≤ 125) g.obs.length o := by
  constructor
  · intro halcanza
    obtain ⟨o, ho, hminabc2⟩ := halcanza
    obtain ⟨o', ho'⟩ :=
      exists_primero (fun k ↦ 0 ≤ recta g.obs (k + 1) ∧ recta g.obs (k + 1) ≤ 125) g.obs.length
    rw [minabc2_eq h ho', Option.some_inj] at hminabc2
    have heq := g.fecha_injective hminabc2
    subst heq
    exact ⟨o', ho, ho'⟩
  · intro hprimero
    obtain ⟨o, ho, ho'⟩ := hprimero
    exact ⟨o, ho, minabc2_eq h ho'⟩

/-- The step where a line first reaches 90 and the step before which it enters the band from 0 to
125 are one only if both are the first one, as a line which enters the band from below is under 90
there, and one that stays under 90 is in it. -/
theorem primero_iff {a b : ℚ} (hn : 2 ≤ n) (hfalling : a ≤ 0 → 0 ≤ a * 1 + b)
    (hrising : 0 ≤ a → 0 ≤ a * ((n - 1 : ℕ) : ℚ) + b) :
    (∃ o, Primero (fun k ↦ 90 ≤ a * k + b) n o ∧
      Primero (fun k ↦ 0 ≤ a * (k + 1) + b ∧ a * (k + 1) + b ≤ 125) n o) ↔ 90 ≤ b ∧
      a + b ≤ 125 := by
  constructor
  · rintro ⟨o, ho, ho'⟩
    cases o with
    | none =>
      exfalso
      have hunder : ∀ k < n, a * k + b < 90 := fun k hk ↦ not_le.mp (ho k hk)
      have hcero := hunder 0 (by omega)
      rw [Nat.cast_zero, mul_zero, zero_add] at hcero
      rcases le_total a 0 with ha | ha
      · -- a falling line is in the band at the step 1
        refine ho' 0 (by omega) ⟨?_, ?_⟩
        · simpa using hfalling ha
        · rw [Nat.cast_zero]
          linarith
      · -- a rising one is in it at the last step
        have hlast := hunder (n - 1) (by omega)
        have hstep : ((n - 2 : ℕ) : ℚ) + 1 = ((n - 1 : ℕ) : ℚ) := by
          exact_mod_cast (show n - 2 + 1 = n - 1 by omega)
        refine ho' (n - 2) (by omega) ⟨?_, ?_⟩
        · rw [hstep]
          exact hrising ha
        · rw [hstep]
          linarith
    | some k =>
      obtain ⟨hk, hreach, hbefore⟩ := ho
      obtain ⟨-, hband, hout⟩ := ho'
      cases k with
      | zero =>
        rw [Nat.cast_zero] at hreach hband
        exact ⟨by linarith, by linarith [hband.2]⟩
      | succ j =>
        exfalso
        have hunder : a * j + b < 90 := not_le.mp (hbefore j (Nat.lt_succ_self j))
        push_cast at hreach hband
        refine hout j (Nat.lt_succ_self j) ⟨by linarith, ?_⟩
        linarith [hband.2]
  · intro h
    obtain ⟨hreach, hband⟩ := h
    have hnot : ∀ {P : ℕ → Prop}, ∀ j < 0, ¬ P j := fun j hj ↦ absurd hj (Nat.not_lt_zero j)
    refine ⟨some 0, ⟨by omega, by simpa using hreach, hnot⟩, ⟨by omega, ⟨?_, ?_⟩, hnot⟩⟩
    · rcases le_total a 0 with ha | ha
      · simpa using hfalling ha
      · rw [Nat.cast_zero]
        linarith
    · simpa using hband

def EnRango (obs : Serie) : Prop := ∀ k ∈ conocidos obs, 0 ≤ valor obs k ∧ valor obs k ≤ 100

instance (obs : Serie) : Decidable (EnRango obs) := inferInstanceAs (Decidable (∀ _ ∈ _, _))

theorem recta_nonneg_of_falling (h : 2 ≤ (conocidos obs).card) (hrango : EnRango obs)
    (ha : pendiente obs ≤ 0) : 0 ≤ pendiente obs * 1 + ordenada obs := by
  apply (normal_recta h).nonneg_of_falling ha
  · intro k _
    cases k with
    | zero => simp
    | succ k =>
      push_cast
      rw [add_sub_cancel_right]
      positivity
  · intro k hk
    exact mul_nonneg (Nat.cast_nonneg k) (hrango k hk).1
  · obtain ⟨i, hi, j, hj, hij⟩ := Finset.one_lt_card.mp h
    apply Finset.sum_pos' fun k _ ↦ Nat.cast_nonneg k
    rcases Nat.eq_zero_or_pos i with hi0 | hpos
    · exact ⟨j, hj, Nat.cast_pos.mpr (by omega)⟩
    · exact ⟨i, hi, Nat.cast_pos.mpr hpos⟩

theorem recta_nonneg_of_rising (h : 2 ≤ (conocidos obs).card) (hrango : EnRango obs)
    (ha : 0 ≤ pendiente obs) : 0 ≤ pendiente obs * ((obs.length - 1 : ℕ) : ℚ) + ordenada obs := by
  apply (normal_recta h).nonneg_of_rising ha
  · intro k hk
    have hk := (mem_conocidos.mp hk).1
    exact Nat.cast_le.mpr (by omega)
  · exact fun k hk ↦ (hrango k hk).1
  · exact Finset.card_pos.mp (by omega)

theorem two_le_length (h : 2 ≤ (conocidos obs).card) : 2 ≤ obs.length := by
  calc 2 ≤ (conocidos obs).card := h
    _ ≤ (Finset.range obs.length).card := Finset.card_filter_le _ _
    _ = obs.length := Finset.card_range _

def YaAlcanzado (obs : Serie) : Prop := 90 ≤ recta obs 0 ∧ recta obs 1 ≤ 125

instance (obs : Serie) : Decidable (YaAlcanzado obs) := inferInstanceAs (Decidable (_ ∧ _))

theorem primero_recta_iff (h : 2 ≤ (conocidos obs).card) (hrango : EnRango obs) :
    (∃ o, Primero (fun k ↦ 90 ≤ recta obs k) obs.length o ∧
      Primero (fun k ↦ 0 ≤ recta obs (k + 1) ∧ recta obs (k + 1) ≤ 125) obs.length o) ↔
      YaAlcanzado obs := by
  have hiff := primero_iff (two_le_length h) (recta_nonneg_of_falling h hrango)
    (recta_nonneg_of_rising h hrango)
  rw [YaAlcanzado, recta_eq, recta_eq, mul_zero, zero_add, mul_one]
  exact hiff

theorem alcanza_iff (g : Grafica) (h : 2 ≤ (conocidos g.obs).card) (hrango : EnRango g.obs) :
    Alcanza g ↔ YaAlcanzado g.obs := by
  rw [alcanza_primero_iff h, primero_recta_iff h hrango]

theorem alcanza_constante :
    Alcanza ⟨1500000000, 300, [some 95, none, some 95], by decide, by decide⟩ :=
  (alcanza_iff _ (by decide) (by decide +kernel)).mpr (by decide +kernel)

theorem not_alcanza : ¬ ∀ g : Grafica, 2 ≤ (conocidos g.obs).card → EnRango g.obs → Alcanza g := by
  intro h
  have halcanza :=
    h ⟨1500000000, 300, [some 10, some 20], by decide, by decide⟩ (by decide) (by decide +kernel)
  rw [alcanza_primero_iff (by decide),
    primero_recta_iff (by decide) (by decide +kernel)] at halcanza
  exact absurd halcanza (by decide +kernel)

end Reach

end ServiciosRed.Trend
