import ServiciosRed.Hosts
import ServiciosRed.Window

namespace ServiciosRed.Aberration

open Python Rrd Hosts Window

/-- The times of the updates, one in each step. Times before 1980 are refused. -/
structure Serie (r : RRD) where
  base : ℕ
  tiempo : ℕ → ℕ
  paso : ∀ t, tiempo t / r.step = base + t
  reciente : ∀ t, 315360000 < tiempo t

namespace Serie

variable {r : RRD} (s : Serie r) (ind : ℕ → Bool)

def archivo (t : ℕ) : Archivo where
  last_update := s.tiempo t
  failures := fun n ↦ if s.base ≤ n ∧ n ≤ s.base + t then some (ind (n - s.base)).toNat else none

def ventana (t : ℕ) : List (Option ℕ) :=
  rrd_fetch r (s.archivo ind t) (s.tiempo t - r.step * 100 - 1) (s.tiempo t)

variable {s ind}

theorem step_pos (s : Serie r) : 0 < r.step := by
  by_contra h
  have hz : r.step = 0 := by omega
  have h1 := s.paso 1
  rw [hz, Nat.div_zero] at h1
  omega

theorem inicio_le (hr : r.step * 100 < 315360000) (t : ℕ) :
    (s.tiempo t - r.step * 100 - 1) / r.step + 100 ≤ s.base + t := by
  have hlt := s.reciente t
  have hpaso := s.paso t
  have hstep := s.step_pos
  have hdiv : (s.tiempo t - r.step * 100 - 1) / r.step ≤ (s.tiempo t - r.step * 100) / r.step :=
    Nat.div_le_div_right (by omega)
  have hsub : (s.tiempo t - r.step * 100) / r.step = s.tiempo t / r.step - 100 := by
    rw [Nat.sub_mul_div_of_le]
    omega
  have hge : 100 ≤ s.tiempo t / r.step := by
    rw [Nat.le_div_iff_mul_le hstep]
    omega
  omega

theorem mem_ventana (hr : r.step * 100 < 315360000) (hfilas : r.filas ≤ 100) {t v : ℕ} :
    v ∈ (s.ventana ind t).reduceOption ↔ ∃ u ≤ t, t < u + r.filas ∧ v = (ind u).toNat := by
  have hinicio := s.inicio_le hr t
  have hpaso := s.paso t
  simp only [ventana, rrd_fetch, archivo, List.reduceOption_mem_iff, List.mem_map,
    List.mem_range'_1, hpaso]
  constructor
  · intro h
    obtain ⟨n, -, hn⟩ := h
    split_ifs at hn with h1 h2
    · refine ⟨n - s.base, by omega, by omega, ?_⟩
      exact (Option.some.inj hn).symm
  · intro h
    obtain ⟨u, hut, htu, rfl⟩ := h
    refine ⟨s.base + u, by omega, ?_⟩
    rw [if_pos (by omega), if_pos (by omega), Nat.add_sub_cancel_left]

theorem getLast?_ventana (hr : r.step * 100 < 315360000) (hpos : 0 < r.filas) (t : ℕ) :
    (s.ventana ind t).reduceOption.getLast? = some (ind t).toNat := by
  have hinicio := s.inicio_le hr t
  have hpaso := s.paso t
  simp only [ventana, rrd_fetch, archivo, hpaso]
  generalize (s.tiempo t - r.step * 100 - 1) / r.step = i at hinicio
  obtain ⟨k, hk⟩ : ∃ k, s.base + t + 1 - i = k + 1 + 1 := ⟨s.base + t - i - 1, by omega⟩
  have hlast : i + 1 + k = s.base + t := by omega
  rw [hk, List.range'_1_concat, List.range'_1_concat, hlast]
  have hnext : i + 1 + (k + 1) = s.base + t + 1 := by omega
  rw [hnext, List.map_append, List.map_append, List.map_singleton, List.map_singleton,
    if_pos (by omega), if_pos (by omega), if_neg (by omega), Nat.add_sub_cancel_left,
    List.reduceOption_append, List.reduceOption_append, List.reduceOption_singleton,
    List.reduceOption_singleton, Option.toList_none, Option.toList_some, List.append_nil,
    List.getLast?_concat]

theorem toNat_inj {b c : Bool} : b.toNat = c.toNat ↔ b = c := by
  cases b <;> cases c <;> simp

/-- The status says whether the kept rows vary, and what the last one is. -/
theorem check_aberration_eq (hr : r.step * 100 < 315360000) (hpos : 0 < r.filas)
    (hfilas : r.filas ≤ 100) (t : ℕ) :
    check_aberration r (s.archivo ind t) =
      .ok (if Varies ind r.filas t then (if ind t then 1 else 2) else 0) := by
  have hventana : (s.ventana ind t).reduceOption.getLast? = some (ind t).toNat :=
    getLast?_ventana hr hpos t
  have hlast := print_calc_last hventana
  have hmem : (ind t).toNat ∈ (s.ventana ind t).reduceOption := List.mem_of_getLast? hventana
  obtain ⟨m, -, hmin, -⟩ := print_calc_min hmem
  obtain ⟨M, -, hmax, -⟩ := print_calc_max hmem
  have hsame : m = M ↔ ¬ Varies ind r.filas t := by
    have h := print_calc_min_eq_max hmem
    rw [hmin, hmax, Option.some.injEq] at h
    rw [h]
    constructor
    · intro hall hv
      obtain ⟨u, hut, htu, hne⟩ := hv
      have hu := hall _ ((mem_ventana hr hfilas).2 ⟨u, hut, htu, rfl⟩)
      exact hne (toNat_inj.1 hu)
    · intro hno v hv
      obtain ⟨u, hut, htu, rfl⟩ := (mem_ventana hr hfilas).1 hv
      by_contra hne
      exact hno ⟨u, hut, htu, fun heq ↦ hne (toNat_inj.2 heq)⟩
  have hcheck : check_aberration r (s.archivo ind t) =
      .ok (if m ≠ M then (if (ind t).toNat = 1 then 1 else 2) else 0) := by
    simp only [ventana] at hlast hmin hmax
    simp only [check_aberration, archivo] at hlast hmin hmax ⊢
    rw [hmin, hmax, hlast]
    rfl
  rw [hcheck]
  by_cases hv : Varies ind r.filas t
  · have hne : m ≠ M := fun h ↦ hsame.1 h hv
    rw [if_pos hne, if_pos hv]
    cases ind t <;> rfl
  · rw [if_neg (not_not.2 (hsame.2 hv)), if_neg hv]

end Serie

def esperado (ind : ℕ → Bool) : ℕ → ℕ
  | 0 => 0
  | t + 1 => if ind (t + 1) = ind t then 0 else if ind (t + 1) then 1 else 2

theorem esperado_eq_zero_iff {ind : ℕ → Bool} {t : ℕ} : esperado ind t = 0 ↔ ¬ Changes ind t := by
  cases t with
  | zero => exact iff_of_true rfl not_changes_zero
  | succ t =>
    rw [changes_succ, not_not, esperado]
    split_ifs <;> simp_all

theorem esperado_of_changes {ind : ℕ → Bool} {t : ℕ} (h : Changes ind t) :
    esperado ind t = if ind t then 1 else 2 := by
  cases t with
  | zero => exact absurd h not_changes_zero
  | succ t => rw [esperado, if_neg (changes_succ.1 h)]

theorem status_eq_esperado_iff {ind : ℕ → Bool} {w t : ℕ} :
    (if Varies ind w t then (if ind t then 1 else 2) else 0) = esperado ind t ↔
      (Varies ind w t ↔ Changes ind t) := by
  have hpos : (if ind t then 1 else 2) ≠ 0 := by
    split_ifs <;> omega
  by_cases hc : Changes ind t
  · rw [esperado_of_changes hc]
    by_cases hv : Varies ind w t
    · simp only [hv, hc, if_true]
    · simp only [hv, hc, if_false, iff_true, hpos.symm]
  · rw [esperado_eq_zero_iff.2 hc]
    by_cases hv : Varies ind w t
    · simp only [hv, hc, if_true, iff_false, hpos]
      simp
    · simp only [hv, hc, if_false]

/-- `check_aberration` after each of the first `n` updates tells exactly the begins and
the ends of the aberrations when no indicator is repeated after the first change. -/
theorem check_aberration_iff (s : Serie create_rrd) (ind : ℕ → Bool) (n : ℕ) :
    (∀ t < n, check_aberration create_rrd (s.archivo ind t) = .ok (esperado ind t)) ↔
      ∀ u t, u < t → t < n → Changes ind u → Changes ind t := by
  have hfilas : 3 ≤ create_rrd.filas := le_rfl
  rw [← varies_iff_changes_forall hfilas]
  have hcheck (t : ℕ) : check_aberration create_rrd (s.archivo ind t) =
      .ok (if Varies ind create_rrd.filas t then (if ind t then 1 else 2) else 0) :=
    s.check_aberration_eq (by decide) (by decide) (by decide) t
  simp only [hcheck, Except.ok.injEq, status_eq_esperado_iff]

def cincoMinutos : Serie create_rrd where
  base := 1051201
  tiempo := fun t ↦ 300 * (1051201 + t)
  paso := fun t ↦ Nat.mul_div_cancel_left _ (by decide)
  reciente := fun t ↦ by omega

/-- An aberration that begins at the second update and lasts is told as beginning twice. -/
theorem check_aberration_not_esperado :
    ¬ ∀ (ind : ℕ → Bool), ∀ t < 3,
      check_aberration create_rrd (cincoMinutos.archivo ind t) = .ok (esperado ind t) := by
  intro h
  have htwo := h (fun t ↦ decide (t ≠ 0)) 2 (by decide)
  have hone : check_aberration create_rrd (cincoMinutos.archivo (fun t ↦ decide (t ≠ 0)) 2) =
      .ok 1 := by
    decide +kernel
  rw [hone] at htwo
  cases htwo

end ServiciosRed.Aberration
