import ServiciosRed.Cycles
import Mathlib.Data.Nat.Periodic

namespace ServiciosRed.Bands

open Doubles Double RoundRobin Seasons Cycles

section Pass

variable {d : Hw_def} {g : Grupo}

def Base (coefs : Hw_coefs) : Prop :=
  coefs.CDP_hw_intercept = nan ∧ coefs.CDP_hw_slope = nan ∨
    ∃ a b, coefs.CDP_hw_intercept = num a ∧ coefs.CDP_hw_slope = num b

/-- A row of the seasons: where there is a deviation there is a seasonal coefficient, and
where there is one of these there is a level. -/
structure Par (coefs : Hw_coefs) (s v : Double) : Prop where
  seasonal : ∃ σ, s = ofOption σ
  deviation : ∃ δ, v = ofOption δ
  known : v ≠ nan → s ≠ nan
  level : s ≠ nan → coefs.CDP_hw_intercept ≠ nan

theorem par_nan (coefs : Hw_coefs) : Par coefs nan nan :=
  ⟨⟨none, rfl⟩, ⟨none, rfl⟩, id, fun h ↦ absurd rfl h⟩

theorem Par.mono {coefs coefs' : Hw_coefs} {s v : Double} (h : Par coefs s v)
    (hc : coefs.CDP_hw_intercept ≠ nan → coefs'.CDP_hw_intercept ≠ nan) : Par coefs' s v :=
  ⟨h.seasonal, h.deviation, h.known, fun hs ↦ hc (h.level hs)⟩

structure Pasada (d : Hw_def) (g : Grupo) (ss vv : Double) (x : Option ℚ) : Prop where
  base : Base (g.update_aberrant_CF d ss vv (ofOption x)).2.coefs
  mono : g.coefs.CDP_hw_intercept ≠ nan →
    (g.update_aberrant_CF d ss vv (ofOption x)).2.coefs.CDP_hw_intercept ≠ nan
  fila : Par (g.update_aberrant_CF d ss vv (ofOption x)).2.coefs
    (g.update_aberrant_CF d ss vv (ofOption x)).1.seasonal
      (g.update_aberrant_CF d ss vv (ofOption x)).1.devseasonal
  cuenta : ((g.update_aberrant_CF d ss vv (ofOption x)).1.failures,
      (g.update_aberrant_CF d ss vv (ofOption x)).2.violations_array) =
    update_failures d (fueraDeBanda d (g.update_aberrant_CF d ss vv (ofOption x)).1.hwpredict
      (g.update_aberrant_CF d ss vv (ofOption x)).1.devpredict (ofOption x)) g.violations_array

theorem pasada (hf : d.cf_nam = .HWPREDICT) (hbase : Base g.coefs)
    (hpar : Par g.coefs g.seasonal.CDP_hw_seasonal g.devseasonal.CDP_hw_seasonal) (ss vv : Double)
    (x : Option ℚ) :
    Pasada d g ss vv x := by
  obtain ⟨σ, hs⟩ := hpar.seasonal
  obtain ⟨δ, hv⟩ := hpar.deviation
  have hsnan : g.seasonal.CDP_hw_seasonal = nan → g.devseasonal.CDP_hw_seasonal = nan := by
    intro h
    by_contra hne
    exact hpar.known hne h
  rcases hbase with ⟨ha, hb⟩ | ⟨a, b, ha, hb⟩
  · have hs' : g.seasonal.CDP_hw_seasonal = nan := by
      by_contra hne
      exact hpar.level hne ha
    obtain ⟨h1, h2⟩ := pasada_sin_base ss vv hf ha hs' (hsnan hs') x
    constructor
    · rw [h2]
      cases x with
      | none => exact Or.inl ⟨rfl, hb⟩
      | some q => exact Or.inr ⟨q, 0, rfl, rfl⟩
    · intro h
      exact absurd ha h
    · rw [h1, h2]
      cases x with
      | none => exact par_nan _
      | some q => exact ⟨⟨some 0, rfl⟩, ⟨none, rfl⟩, fun h ↦ absurd rfl h, fun _ ↦ num_ne_nan⟩
    · rw [h1, h2]
      rfl
  · cases σ with
    | none =>
      obtain ⟨h1, h2⟩ := pasada_sin_estacion ss vv hf ha hb hs (hsnan hs) x
      constructor
      · rw [h2]
        exact Or.inr ⟨a, b, rfl, rfl⟩
      · intro
        rw [h2]
        exact num_ne_nan
      · rw [h1, h2]
        exact ⟨⟨_, rfl⟩, ⟨none, rfl⟩, fun h ↦ absurd rfl h, fun _ ↦ num_ne_nan⟩
      · rw [h1, h2]
        rfl
    | some σ =>
      obtain ⟨h1, h2⟩ := pasada_completa ss vv hf ha hb hs hv x
      constructor
      · rw [h2]
        cases x with
        | none => exact Or.inr ⟨_, _, rfl, rfl⟩
        | some q => exact Or.inr ⟨_, _, rfl, rfl⟩
      · intro
        rw [h2]
        cases x <;> exact num_ne_nan
      · rw [h1, h2]
        cases x with
        | none => exact ⟨⟨some σ, rfl⟩, ⟨δ, rfl⟩, fun _ ↦ num_ne_nan, fun _ ↦ num_ne_nan⟩
        | some q => exact ⟨⟨some _, rfl⟩, ⟨some _, rfl⟩, fun _ ↦ num_ne_nan, fun _ ↦ num_ne_nan⟩
      · rw [h1, h2]

end Pass

section Runs

variable {d : Hw_def} {c : Ciclo d} {h : List (Filas × Option ℚ)}

/-- The rows since the violations were erased, the last one first, each with the value
that was observed. The values are finite or unknown, as those of a source with two limits. -/
inductive Alcanza (d : Hw_def) : Ciclo d → List (Filas × Option ℚ) → Prop
  | nuevo {c : Ciclo d} : c.Nuevo → Alcanza d c []
  | uno {c : Ciclo d} {h : List (Filas × Option ℚ)} (x : Option ℚ) :
      Alcanza d c h →
        Alcanza d (c.avanza 1 (ofOption x)) (((c.avanza 1 (ofOption x)).grupo.primary, x) :: h)
  | dos {c : Ciclo d} {h : List (Filas × Option ℚ)} (x : Option ℚ) :
      Alcanza d c h → Alcanza d (c.avanza 2 (ofOption x))
        (((c.avanza 2 (ofOption x)).grupo.secondary, x) ::
          ((c.avanza 2 (ofOption x)).grupo.primary, x) :: h)
  | mas {c : Ciclo d} {h : List (Filas × Option ℚ)} (x : Option ℚ) {e : ℕ} :
      2 < e → Alcanza d c h → Alcanza d (c.avanza e (ofOption x)) []

def marca (d : Hw_def) (p : Filas × Option ℚ) : Bool :=
  fueraDeBanda d p.1.hwpredict p.1.devpredict (ofOption p.2)

def falla (d : Hw_def) (h : List (Filas × Option ℚ)) : Double :=
  if (h.take d.window_len).countP (marca d) < d.failure_threshold then num 0 else num 1

def ventana (d : Hw_def) (h : List (Filas × Option ℚ)) : List Bool :=
  (h.map (marca d) ++ List.replicate d.window_len false).take d.window_len

theorem count_ventana (d : Hw_def) (h : List (Filas × Option ℚ)) :
    (ventana d h).count true = (h.take d.window_len).countP (marca d) := by
  have hrest : ∀ n, (List.replicate n false).count true = 0 :=
    fun n ↦ List.count_replicate.trans (if_neg (by simp))
  rw [ventana, List.take_append, List.count_append, List.take_replicate, hrest, Nat.add_zero,
    ← List.map_take, List.count_eq_countP, List.countP_map]
  apply List.countP_congr
  intro p _
  simp

theorem update_failures_ventana (d : Hw_def) (p : Filas × Option ℚ) (h : List (Filas × Option ℚ)) :
    update_failures d (marca d p) (ventana d h) = (falla d (p :: h), ventana d (p :: h)) := by
  have hcons : marca d p :: (ventana d h).take (d.window_len - 1) = ventana d (p :: h) := by
    obtain ⟨w, hw⟩ := Nat.exists_eq_succ_of_ne_zero d.window_len_pos.ne'
    rw [ventana, ventana, hw, List.map_cons, List.cons_append, List.take_succ_cons,
      Nat.succ_sub_one, List.take_take, Nat.min_eq_left (Nat.le_succ w)]
  rw [update_failures, hcons, count_ventana, falla]

structure Banda (g : Grupo) (h : List (Filas × Option ℚ)) : Prop where
  base : Base g.coefs
  mano : Par g.coefs g.seasonal.CDP_hw_seasonal g.devseasonal.CDP_hw_seasonal
  violations : g.violations_array = ventana d h
  fallas : ∀ h₁ p h₂, h = h₁ ++ p :: h₂ → p.1.failures = falla d (p :: h₂)

theorem Banda.pasada (hf : d.cf_nam = .HWPREDICT) {g : Grupo} (hg : Banda (d := d) g h)
    {ss vv : Double} (hnext : Par g.coefs ss vv) (x : Option ℚ) :
    Banda (d := d) (g.update_aberrant_CF d ss vv (ofOption x)).2
      (((g.update_aberrant_CF d ss vv (ofOption x)).1, x) :: h) := by
  have hp := Bands.pasada hf hg.base hg.mano ss vv x
  have hcuenta := hp.cuenta
  rw [hg.violations] at hcuenta
  have hmarca :=
    hcuenta.trans (update_failures_ventana d ((g.update_aberrant_CF d ss vv (ofOption x)).1, x) h)
  rw [Prod.mk.injEq] at hmarca
  constructor
  · exact hp.base
  · simp only [Grupo.update_aberrant_CF, update_seasonal_snd, update_devseasonal_snd]
    exact hnext.mono hp.mono
  · exact hmarca.2
  · intro h₁ p h₂ heq
    cases h₁ with
    | nil =>
      cases heq
      exact hmarca.1
    | cons q h₁ =>
      cases heq
      exact hg.fallas h₁ p h₂ rfl

structure Bandas (c : Ciclo d) (h : List (Filas × Option ℚ)) : Prop where
  grupo : Banda (d := d) c.grupo h
  filas : ∀ k, Par c.grupo.coefs (c.seasonal.ahead k) (c.devseasonal.ahead k)

theorem bandas_nuevo (hc : c.Nuevo) : Bandas c [] := by
  constructor
  · constructor
    · rw [hc.grupo]
      exact Or.inl ⟨rfl, rfl⟩
    · rw [hc.grupo]
      exact par_nan _
    · rw [hc.grupo, ventana, List.map_nil, List.nil_append, List.take_replicate, Nat.min_self]
      rfl
    · intro h₁ p h₂ heq
      cases h₁ <;> cases heq
  · intro k
    rw [hc.seasonal, hc.devseasonal]
    exact par_nan _

theorem Alcanza.bandas (hf : d.cf_nam = .HWPREDICT) (hr : Alcanza d c h) : Bandas c h := by
  induction hr with
  | nuevo hc => exact bandas_nuevo hc
  | @uno c h x hr ih =>
    have hlen : c.devseasonal.rows.length = c.seasonal.rows.length :=
      c.length_devseasonal.trans c.length_seasonal.symm
    have hp :=
      Bands.pasada hf ih.grupo.base ih.grupo.mano (c.seasonal.ahead 2) (c.devseasonal.ahead 2) x
    have hg := ih.grupo.pasada hf (ih.filas 2) x
    rw [avanza_uno]
    refine ⟨⟨hg.base, hg.mano, hg.violations, hg.fallas⟩, fun k ↦ ?_⟩
    exact c.seasonal.forall_ahead_push (n := 0) (P := fun _ s v ↦ Par _ s v) hlen (fun _ _ _ ↦ rfl)
      (fun k ↦ (ih.filas k).mono hp.mono) hp.fila k
  | @dos c h x hr ih =>
    obtain ⟨hgrupo, hrs, hrv⟩ := avanza_dos (c := c) (ofOption x)
    have hp :=
      Bands.pasada hf ih.grupo.base ih.grupo.mano (c.seasonal.ahead 3) (c.devseasonal.ahead 3) x
    have hg := ih.grupo.pasada hf (ih.filas 3) x
    have hnext := (ih.filas 4).mono hp.mono
    have hp' := Bands.pasada hf hg.base hg.mano (c.seasonal.ahead 4) (c.devseasonal.ahead 4) x
    have hg' := hg.pasada hf hnext x
    rw [hgrupo]
    refine ⟨?_, fun k ↦ ?_⟩
    · rw [hgrupo]
      exact ⟨hg'.base, hg'.mano, hg'.violations, hg'.fallas⟩
    · rw [hgrupo, hrs, hrv, Wheel.ahead_skip_iterate, Wheel.ahead_skip_iterate]
      exact ((ih.filas _).mono hp.mono).mono hp'.mono
  | @mas c h x e he hr ih =>
    obtain ⟨hgrupo, hrs, hrv⟩ := avanza_mas (c := c) he (ofOption x)
    refine ⟨?_, fun k ↦ ?_⟩
    · rw [hgrupo]
      refine ⟨ih.grupo.base, (ih.filas _).mono id, ?_, ?_⟩
      · rw [ventana, List.map_nil, List.nil_append, List.take_replicate, Nat.min_self]
        rfl
      · intro h₁ p h₂ heq
        cases h₁ <;> cases heq
    · rw [hgrupo, hrs, hrv, Wheel.ahead_skip_iterate, Wheel.ahead_skip_iterate]
      exact (ih.filas _).mono id

end Runs

section Periodic

variable {d : Hw_def} {f : ℕ → ℚ} {c : Ciclo d} {h : List (Filas × Option ℚ)} {n : ℕ} {L : ℚ}

/-- The rows of a run that only sees the values of `f`, with holes: one step at a time, or
more than two steps that are not learnt. The rows are numbered. -/
inductive Periodica (d : Hw_def) (f : ℕ → ℚ) : ℕ → Ciclo d → List (Filas × Option ℚ) → Prop
  | nuevo {c : Ciclo d} (n : ℕ) : c.Nuevo → Periodica d f n c []
  | uno {c : Ciclo d} {h : List (Filas × Option ℚ)} {n : ℕ} (x : Option ℚ) :
      Periodica d f n c h → (∀ q, x = some q → q = f (n + 1)) →
        Periodica d f (n + 1) (c.avanza 1 (ofOption x))
        (((c.avanza 1 (ofOption x)).grupo.primary, x) :: h)
  | mas {c : Ciclo d} {h : List (Filas × Option ℚ)} {n : ℕ} (x : Option ℚ) {e : ℕ} :
      2 < e → Periodica d f n c h → Periodica d f (n + e) (c.avanza e (ofOption x)) []

theorem Periodica.alcanza (hr : Periodica d f n c h) : Alcanza d c h := by
  induction hr with
  | nuevo n hc => exact .nuevo hc
  | uno x hr hx ih => exact .uno x ih
  | mas x he hr ih => exact .mas x he ih

/-- A row of the seasons of a series that is exactly periodic, over the level `L`. -/
structure Fiel (f : ℕ → ℚ) (L : ℚ) (n : ℕ) (s v : Double) : Prop where
  seasonal : s = nan ∨ s = num (f n - L)
  deviation : v = nan ∨ v = num 0

def Nivel (L : ℚ) (coefs : Hw_coefs) : Prop :=
  coefs.CDP_hw_intercept = nan ∧ coefs.CDP_hw_slope = nan ∨
    coefs.CDP_hw_intercept = num L ∧ coefs.CDP_hw_slope = num 0

theorem exacto_no_fuera {δ : Option ℚ} (hδ : ∀ t, δ = some t → t = 0) (q : ℚ) :
    fueraDeBanda d (num q) (ofOption δ) (ofOption (some q)) = false := by
  cases δ with
  | none => rfl
  | some t =>
    rw [hδ t rfl]
    simp [fueraDeBanda, hw_is_violation]

theorem pasada_fiel (hf : d.cf_nam = .HWPREDICT) {g : Grupo} (hL : Nivel L g.coefs)
    (hpar : Par g.coefs g.seasonal.CDP_hw_seasonal g.devseasonal.CDP_hw_seasonal)
    (hfiel : Fiel f L (n + 1) g.seasonal.CDP_hw_seasonal g.devseasonal.CDP_hw_seasonal)
    (ss vv : Double)
    {x : Option ℚ} (hx : ∀ q, x = some q → q = f (n + 1)) :
    let r := g.update_aberrant_CF d ss vv (ofOption x)
    ∃ L', (g.coefs.CDP_hw_intercept ≠ nan → L' = L) ∧ Nivel L' r.2.coefs ∧
      Fiel f L' (n + 1) r.1.seasonal r.1.devseasonal ∧ (marca d (r.1, x) → x = none) := by
  have hsnan : g.seasonal.CDP_hw_seasonal = nan → g.devseasonal.CDP_hw_seasonal = nan := by
    intro h
    by_contra hne
    exact hpar.known hne h
  dsimp only
  rcases hL with ⟨ha, hb⟩ | ⟨ha, hb⟩
  · have hs : g.seasonal.CDP_hw_seasonal = nan := by
      by_contra hne
      exact hpar.level hne ha
    obtain ⟨h1, h2⟩ := pasada_sin_base ss vv hf ha hs (hsnan hs) x
    rw [h1, h2]
    refine ⟨x.getD L, fun h ↦ absurd ha h, ?_, ?_, fun h ↦ ?_⟩
    · cases x with
      | none => exact Or.inl ⟨rfl, hb⟩
      | some q => exact Or.inr ⟨rfl, rfl⟩
    · cases x with
      | none => exact ⟨Or.inl rfl, Or.inl rfl⟩
      | some q =>
        refine ⟨Or.inr ?_, Or.inl rfl⟩
        rw [Option.getD_some, hx q rfl, sub_self]
        rfl
    · cases h
  · rcases hfiel.seasonal with hs | hs
    · obtain ⟨h1, h2⟩ := pasada_sin_estacion ss vv hf ha hb hs (hsnan hs) x
      rw [h1, h2]
      refine ⟨L, fun _ ↦ rfl, Or.inr ⟨rfl, rfl⟩, ?_, fun h ↦ ?_⟩
      · cases x with
        | none => exact ⟨Or.inl rfl, Or.inl rfl⟩
        | some q =>
          refine ⟨Or.inr ?_, Or.inl rfl⟩
          rw [hx q rfl]
          rfl
      · cases h
    · obtain ⟨δ, hδ, hv⟩ : ∃ δ : Option ℚ, (∀ t, δ = some t → t = 0) ∧
          g.devseasonal.CDP_hw_seasonal = ofOption δ := by
        rcases hfiel.deviation with hv | hv
        · refine ⟨none, ?_, hv⟩
          intro t ht
          cases ht
        · exact ⟨some 0, fun t ht ↦ (Option.some.inj ht).symm, hv⟩
      obtain ⟨h1, h2⟩ := pasada_completa ss vv hf ha hb hs hv x
      rw [zero_mul, add_zero, add_sub_cancel] at h1 h2
      have hlevel : ∀ k, aprende d L 0 (f (n + 1) - L) (f (n + 1)) k = (L, 0) := by
        intro k
        rw [aprende, zero_mul, add_zero, sub_sub_cancel, ← add_mul, add_sub_cancel, one_mul,
          sub_self, mul_zero, mul_zero, add_zero]
      have hdev : desvia d (f (n + 1)) (f (n + 1)) δ = 0 := by
        cases δ with
        | none => rw [desvia, Option.elim_none, sub_self, abs_zero]
        | some t =>
          rw [desvia, Option.elim_some, hδ t rfl, sub_self, abs_zero, mul_zero, mul_zero, add_zero]
      rw [h1, h2]
      refine ⟨L, fun _ ↦ rfl, ?_, ?_, ?_⟩
      · cases x with
        | none => exact Or.inr ⟨rfl, rfl⟩
        | some q =>
          rw [hx q rfl, Option.elim_some, hlevel]
          exact Or.inr ⟨rfl, rfl⟩
      · cases x with
        | none =>
          refine ⟨Or.inr rfl, ?_⟩
          cases δ with
          | none => exact Or.inl rfl
          | some t =>
            rw [hδ t rfl]
            exact Or.inr rfl
        | some q =>
          rw [hx q rfl]
          refine ⟨Or.inr ?_, Or.inr ?_⟩
          · rw [Option.elim_some, hlevel, ← add_mul, add_sub_cancel, one_mul]
          · exact congrArg num hdev
      · intro hmarca
        cases x with
        | none => rfl
        | some q =>
          rw [marca, hx q rfl, exacto_no_fuera hδ] at hmarca
          cases hmarca

theorem Fiel.renueva {coefs : Hw_coefs} {L' : ℚ} {i : ℕ} {s v : Double} (hfiel : Fiel f L i s v)
    (hpar : Par coefs s v) (hL : coefs.CDP_hw_intercept ≠ nan → L' = L) : Fiel f L' i s v := by
  by_cases hs : s = nan
  · refine ⟨Or.inl hs, Or.inl ?_⟩
    by_contra hne
    exact hpar.known hne hs
  · rw [hL (hpar.level hs)]
    exact hfiel

structure Serie (f : ℕ → ℚ) (L : ℚ) (n : ℕ) (c : Ciclo d) (h : List (Filas × Option ℚ)) : Prop where
  nivel : Nivel L c.grupo.coefs
  mano : Fiel f L (n + 1) c.grupo.seasonal.CDP_hw_seasonal c.grupo.devseasonal.CDP_hw_seasonal
  filas : ∀ k, Fiel f L (n + k) (c.seasonal.ahead k) (c.devseasonal.ahead k)
  marcas : ∀ p ∈ h, marca d p → p.2 = none

theorem Periodica.serie (hf : d.cf_nam = .HWPREDICT) (hper : Function.Periodic f d.period)
    (hr : Periodica d f n c h) : ∃ L, Serie f L n c h := by
  induction hr with
  | nuevo n hc =>
    refine ⟨0, ?_, ?_, ?_, ?_⟩
    · rw [hc.grupo]
      exact Or.inl ⟨rfl, rfl⟩
    · rw [hc.grupo]
      exact ⟨Or.inl rfl, Or.inl rfl⟩
    · intro k
      rw [hc.seasonal, hc.devseasonal]
      exact ⟨Or.inl rfl, Or.inl rfl⟩
    · intro p hp
      cases hp
  | @uno c h n x hr hx ih =>
    obtain ⟨L, ih⟩ := ih
    have hb := hr.alcanza.bandas hf
    have hlen : c.devseasonal.rows.length = c.seasonal.rows.length :=
      c.length_devseasonal.trans c.length_seasonal.symm
    have hmod : ∀ i j, i % c.seasonal.rows.length = j % c.seasonal.rows.length →
        ∀ L, Fiel f L i = Fiel f L j := by
      intro i j hij L
      have hfij : f i = f j := by
        rw [← hper.map_mod_nat i, ← hper.map_mod_nat j, ← c.length_seasonal, hij]
      funext s v
      apply propext
      constructor
      · intro h
        exact ⟨hfij ▸ h.seasonal, h.deviation⟩
      · intro h
        exact ⟨hfij ▸ h.seasonal, h.deviation⟩
    obtain ⟨L', hL', hnivel, hfila, hmarca⟩ :=
      pasada_fiel hf ih.nivel hb.grupo.mano ih.mano (c.seasonal.ahead 2)
      (c.devseasonal.ahead 2) hx
    rw [avanza_uno]
    refine ⟨L', hnivel, ?_, ?_, ?_⟩
    · dsimp only [Grupo.update_aberrant_CF]
      rw [update_seasonal_snd, update_devseasonal_snd]
      exact (ih.filas 2).renueva (hb.filas 2) hL'
    · intro k
      exact c.seasonal.forall_ahead_push (P := Fiel f L') hlen (fun i j hij ↦ hmod i j hij L')
        (fun k ↦ (ih.filas k).renueva (hb.filas k) hL') hfila k
    · intro p hp
      rcases List.mem_cons.1 hp with rfl | hp
      · exact hmarca
      · exact ih.marcas p hp
  | @mas c h n x e he hr ih =>
    obtain ⟨L, ih⟩ := ih
    obtain ⟨hgrupo, hrs, hrv⟩ := avanza_mas (c := c) he (ofOption x)
    refine ⟨L, ?_, ?_, ?_, ?_⟩
    · rw [hgrupo]
      exact ih.nivel
    · rw [hgrupo]
      exact ih.filas (e + 1)
    · intro k
      rw [hrs, hrv]
      exact c.seasonal.forall_ahead_skip (P := Fiel f L) ih.filas k
    · intro p hp
      cases hp

end Periodic

end ServiciosRed.Bands
