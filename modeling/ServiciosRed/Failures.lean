import ServiciosRed.Bands
import ServiciosRed.Histories

namespace ServiciosRed.Failures

open Doubles Double Seasons Cycles Bands Histories

section Rows

variable {d : Hw_def}

/-- The rows of the five archives in a run, one for each step, with the value of the step. -/
def pasadas : Ciclo d → List (ℕ × Option ℚ) → List (Filas × Option ℚ)
  | _, [] => []
  | c, m :: l =>
    Archives.escritas m.1 ((c.avanza m.1 (ofOption m.2)).grupo.primary, m.2)
      ((c.avanza m.1 (ofOption m.2)).grupo.secondary, m.2) ++
        pasadas (c.avanza m.1 (ofOption m.2)) l

theorem emitidas_eq (campo : Filas → Double) (c : Ciclo d) (l : List (ℕ × Option ℚ)) :
    emitidas campo c (valores l) = (pasadas c l).map fun p ↦ campo p.1 := by
  induction l generalizing c with
  | nil => rfl
  | cons m l ih =>
    rw [pasadas, List.map_append, ← ih, Archives.map_escritas]
    rfl

theorem pasadas_concat (c : Ciclo d) (l : List (ℕ × Option ℚ)) (m : ℕ × Option ℚ) :
    pasadas c (l ++ [m]) = pasadas c l ++
      Archives.escritas m.1 (((c.corre (valores l)).avanza m.1 (ofOption m.2)).grupo.primary, m.2)
        (((c.corre (valores l)).avanza m.1 (ofOption m.2)).grupo.secondary, m.2) := by
  induction l generalizing c with
  | nil => exact List.append_nil _
  | cons m' l ih =>
    rw [List.cons_append, pasadas, pasadas, ih, List.append_assoc]
    rfl

theorem map_snd_pasadas (c : Ciclo d) (l : List (ℕ × Option ℚ)) :
    (pasadas c l).map Prod.snd = pasos l := by
  induction l generalizing c with
  | nil => rfl
  | cons m l ih =>
    rw [pasadas, List.map_append, ih, Archives.map_escritas, Archives.escritas_self]
    rfl

end Rows

section Reports

variable {d : Hw_def} {c : Ciclo d} {ps qs : List (Filas × Option ℚ)}

def Fundada (d : Hw_def) (ps : List (Filas × Option ℚ)) : Prop :=
  ∀ ps₁ p ps₂, ps = ps₁ ++ p :: ps₂ → p.1.failures = num 1 →
    d.failure_threshold ≤ ((p :: ps₂).take d.window_len).countP (marca d)

theorem Fundada.cons {p : Filas × Option ℚ} (h : Fundada d ps)
    (hp : p.1.failures = num 1 →
    d.failure_threshold ≤ ((p :: ps).take d.window_len).countP (marca d)) :
    Fundada d (p :: ps) := by
  intro ps₁ q ps₂ heq hq
  cases ps₁ with
  | nil =>
    cases heq
    exact hp hq
  | cons _ ps₁ =>
    cases heq
    exact h ps₁ q ps₂ rfl hq

theorem Fundada.replicate (h : Fundada d ps) {p : Filas × Option ℚ}
    (hp : p.1.failures = num 0) (n : ℕ) :
    Fundada d (List.replicate n p ++ ps) := by
  induction n with
  | zero => exact h
  | succ n ih =>
    apply ih.cons
    intro hone
    rw [hp] at hone
    cases hone

theorem countP_take_append (ps qs : List (Filas × Option ℚ)) (n : ℕ) (f : Filas × Option ℚ → Bool) :
    (ps.take n).countP f ≤ ((ps ++ qs).take n).countP f := by
  rw [List.take_append, List.countP_append]
  exact Nat.le_add_right _ _

theorem Fundada.append {h : List (Filas × Option ℚ)} (hps : Fundada d ps)
    (hfalla : ∀ h₁ p h₂, h = h₁ ++ p :: h₂ → p.1.failures = falla d (p :: h₂)) :
    Fundada d (h ++ ps) := by
  induction h with
  | nil => exact hps
  | cons p h ih =>
    apply (ih fun h₁ q h₂ heq ↦ hfalla (p :: h₁) q h₂ (congrArg (p :: ·) heq)).cons
    intro hone
    have hcount := hfalla [] p h rfl
    rw [hone, falla] at hcount
    split_ifs at hcount with hlt
    · cases hcount
    · exact (not_lt.1 hlt).trans (countP_take_append (p :: h) ps _ _)

/-- A failure is only reported where enough of the last rows are violations. -/
theorem fundada_pasadas (hf : d.cf_nam = .HWPREDICT) (hc : c.Nuevo) (l : List (ℕ × Option ℚ)) :
    Fundada d (pasadas c l).reverse := by
  have hrun : ∃ h ps, (pasadas c l).reverse = h ++ ps ∧ Bands.Alcanza d (c.corre (valores l)) h ∧
      Fundada d ps := by
    induction l using List.reverseRecOn with
    | nil =>
      refine ⟨[], [], rfl, .nuevo hc, ?_⟩
      intro ps₁ p ps₂ heq
      cases ps₁ <;> cases heq
    | append_singleton l m ih =>
      obtain ⟨h, ps, hrows, hreach, hps⟩ := ih
      obtain ⟨e, x⟩ := m
      have hcorre : c.corre (valores (l ++ [(e, x)])) =
          (c.corre (valores l)).avanza e (ofOption x) := by
        rw [valores, List.map_append]
        exact corre_concat _ _
      rw [hcorre, pasadas_concat, List.reverse_append, hrows]
      dsimp only
      generalize c.corre (valores l) = c' at hreach
      obtain rfl | rfl | rfl | he : e = 0 ∨ e = 1 ∨ e = 2 ∨ 2 < e := by omega
      · exact ⟨h, ps, rfl, hreach, hps⟩
      · exact ⟨_, ps, rfl, .uno x hreach, hps⟩
      · exact ⟨_, ps, rfl, .dos x hreach, hps⟩
      · have hall := hps.append (hreach.bandas hf).grupo.fallas
        have hmas := (avanza_mas (c := c') he (ofOption x)).1
        obtain ⟨n, rfl⟩ := Nat.exists_eq_succ_of_ne_zero (Nat.ne_zero_of_lt he)
        refine ⟨[], List.replicate n ((c'.avanza (n + 1) (ofOption x)).grupo.secondary, x) ++
          ((c'.avanza (n + 1) (ofOption x)).grupo.primary, x) :: (h ++ ps), ?_,
          .mas x he hreach, ?_⟩
        · rw [Archives.escritas, List.reverse_cons, List.reverse_replicate, List.append_assoc]
          rfl
        · apply Fundada.replicate
          · apply hall.cons
            intro hone
            rw [hmas] at hone
            cases hone
          · rw [hmas]
            rfl
  obtain ⟨h, ps, hrows, hreach, hps⟩ := hrun
  rw [hrows]
  exact hps.append (hreach.bandas hf).grupo.fallas

theorem failures_pasadas (c : Ciclo d) (l : List (ℕ × Option ℚ)) :
    ∀ p ∈ pasadas c l, p.1.failures = num 0 ∨ p.1.failures = num 1 := by
  have hfallas : ∀ (g : Grupo) ss vv x,
      (g.update_aberrant_CF d ss vv x).1.failures = num 0 ∨
      (g.update_aberrant_CF d ss vv x).1.failures = num 1 := by
    intro g ss vv x
    dsimp only [Grupo.update_aberrant_CF, update_failures]
    split_ifs
    · exact Or.inl rfl
    · exact Or.inr rfl
  induction l generalizing c with
  | nil =>
    intro p hp
    cases hp
  | cons m l ih =>
    obtain ⟨e, x⟩ := m
    intro p hp
    rw [pasadas] at hp
    rcases List.mem_append.1 hp with hp | hp
    · obtain rfl | rfl | rfl | he : e = 0 ∨ e = 1 ∨ e = 2 ∨ 2 < e := by omega
      · cases hp
      · rw [List.mem_singleton.1 hp]
        exact hfallas _ _ _ _
      · obtain ⟨hg, -, -⟩ := avanza_dos (c := c) (ofOption x)
        dsimp only [Archives.escritas] at hp
        rw [hg] at hp
        rcases List.mem_cons.1 hp with rfl | hp
        · exact hfallas _ _ _ _
        · rw [List.mem_singleton.1 hp]
          exact hfallas _ _ _ _
      · obtain ⟨hg, -, -⟩ := avanza_mas (c := c) he (ofOption x)
        obtain ⟨n, rfl⟩ := Nat.exists_eq_succ_of_ne_zero (Nat.ne_zero_of_lt he)
        dsimp only at hp hg
        rw [Archives.escritas, hg] at hp
        rcases List.mem_cons.1 hp with rfl | hp
        · exact Or.inl rfl
        · rw [List.eq_of_mem_replicate hp]
          exact Or.inl rfl
    · exact ih _ p hp

end Reports

section Periodic

variable {d : Hw_def} {f : ℕ → ℚ} {c : Ciclo d} {h : List (Filas × Option ℚ)} {n : ℕ}
  {l : List (ℕ × Option ℚ)}

/-- The steps after `n` have the values of `f` or none, and no update ends exactly two of
them. Nothing is learnt of more than two. -/
inductive Sigue (f : ℕ → ℚ) : ℕ → List (ℕ × Option ℚ) → Prop
  | nil (n : ℕ) : Sigue f n []
  | uno {n : ℕ} {x : Option ℚ} {l : List (ℕ × Option ℚ)} :
      (∀ q, x = some q → q = f (n + 1)) → Sigue f (n + 1) l → Sigue f n ((1, x) :: l)
  | mas {n e : ℕ} {x : Option ℚ} {l : List (ℕ × Option ℚ)} :
      2 < e → Sigue f (n + e) l → Sigue f n ((e, x) :: l)

/-- The only violations of a series that repeats itself are values that are missing. -/
theorem marca_pasadas (hf : d.cf_nam = .HWPREDICT) (hper : Function.Periodic f d.period)
    (hr : Periodica d f n c h) (hl : Sigue f n l) : ∀ p ∈ pasadas c l, marca d p → p.2 = none := by
  induction hl generalizing c h with
  | nil n =>
    intro p hp
    cases hp
  | @uno n x l hx hl ih =>
    have hnext := hr.uno x hx
    obtain ⟨L, hserie⟩ := hnext.serie hf hper
    intro p hp
    rw [pasadas] at hp
    rcases List.mem_append.1 hp with hp | hp
    · rw [List.mem_singleton.1 hp]
      exact hserie.marcas _ List.mem_cons_self
    · exact ih hnext p hp
  | @mas n e x l he hl ih =>
    intro p hp
    rw [pasadas] at hp
    rcases List.mem_append.1 hp with hp | hp
    · obtain ⟨hg, -, -⟩ := avanza_mas (c := c) he (ofOption x)
      obtain ⟨k, rfl⟩ := Nat.exists_eq_succ_of_ne_zero (Nat.ne_zero_of_lt he)
      dsimp only at hp hg
      rw [Archives.escritas, hg] at hp
      intro hmarca
      rcases List.mem_cons.1 hp with rfl | hp
      · cases hmarca
      · rw [List.eq_of_mem_replicate hp] at hmarca
        cases hmarca
    · exact ih (hr.mas x he) p hp

theorem ausentes_pasadas (hf : d.cf_nam = .HWPREDICT) (hper : Function.Periodic f d.period)
    (hc : c.Nuevo) (hl : Sigue f n l) {ps₁ ps₂ : List (Filas × Option ℚ)} {p : Filas × Option ℚ}
    (hsplit : (pasadas c l).reverse = ps₁ ++ p :: ps₂) (hp : p.1.failures = num 1) :
    d.failure_threshold ≤ ((p :: ps₂).take d.window_len).countP fun p ↦ p.2.isNone := by
  refine (fundada_pasadas hf hc l ps₁ p ps₂ hsplit hp).trans (List.countP_mono_left ?_)
  intro q hq hmarca
  have hmem : q ∈ pasadas c l := by
    rw [← List.mem_reverse, hsplit]
    exact List.mem_append_right _ (List.mem_of_mem_take hq)
  rw [marca_pasadas hf hper (.nuevo n hc) hl q hmem hmarca]
  rfl

end Periodic

end ServiciosRed.Failures
