import Mathlib

namespace ServiciosRed.Choices

inductive cf_en
  | AVERAGE | MINIMUM | MAXIMUM | LAST
  | HWPREDICT | MHWPREDICT | SEASONAL | DEVSEASONAL | DEVPREDICT | FAILURES
  deriving DecidableEq

structure Cabecera where
  cf_nam : cf_en
  pdp_cnt : ℕ
  row_cnt : ℕ

/-- What a fetch asks for, of a file that was updated last at `last_up`. -/
structure Peticion where
  pdp_step : ℕ
  last_up : ℕ
  cf_idx : cf_en
  start : ℕ
  fin : ℕ
  step : ℕ

section Choose

def Peticion.inicio (q : Peticion) (pdp_cnt row_cnt : ℕ) : ℤ :=
  (q.last_up - q.last_up % (pdp_cnt * q.pdp_step) : ℕ) - (pdp_cnt * row_cnt * q.pdp_step : ℕ)

def Peticion.diferencia (q : Peticion) (pdp_cnt : ℕ) : ℤ :=
  |(q.step : ℤ) - (q.pdp_step * pdp_cnt : ℕ)|

variable (q : Peticion) (a : Cabecera)

def Peticion.cal_start : ℤ := q.inicio a.pdp_cnt a.row_cnt

def Peticion.tmp_step_diff : ℤ := q.diferencia a.pdp_cnt

def Peticion.tmp_match : ℤ :=
  if q.cal_start a > q.start then ((q.fin : ℤ) - q.start) -
    (q.cal_start a - q.start) else (q.fin : ℤ) - q.start

/-- The best archives so far, each with its number: one that has all of the time, and one
that has some of it. -/
structure Mejores where
  full : Option (ℕ × ℤ)
  part : Option (ℕ × ℤ × ℤ)

def Peticion.considera (m : Mejores) (i : ℕ) : Mejores :=
  if a.cf_nam = q.cf_idx then
    if q.cal_start a ≤ q.start then
      match m.full with
      | none => { m with full := some (i, q.tmp_step_diff a) }
      | some (_, best_full_step_diff) =>
        if q.tmp_step_diff a < best_full_step_diff then
          { m with full := some (i, q.tmp_step_diff a) }
        else m
    else
      match m.part with
      | none => { m with part := some (i, q.tmp_match a, q.tmp_step_diff a) }
      | some (_, best_match, best_part_step_diff) =>
        if best_match < q.tmp_match a ∨
            best_match = q.tmp_match a ∧ q.tmp_step_diff a < best_part_step_diff then
          { m with part := some (i, q.tmp_match a, q.tmp_step_diff a) }
        else m
  else m

def Peticion.busca (as : List Cabecera) : Mejores :=
  as.zipIdx.foldl (fun m p ↦ q.considera p.1 m p.2) ⟨none, none⟩

def Mejores.chosen_rra (m : Mejores) : Option ℕ :=
  match m.full with
  | some (i, _) => some i
  | none => m.part.map Prod.fst

end Choose

section Order

variable {q : Peticion}

/-- An archive that has all of the time is better than one that has not; then the one that
begins earlier, and then the one with the nearest step. -/
def Peticion.rango (q : Peticion) (pdp_cnt row_cnt : ℕ) : ℕ ×ₗ ℤ ×ₗ ℤ :=
  if q.inicio pdp_cnt row_cnt ≤ q.start then toLex (0, toLex (0, q.diferencia pdp_cnt))
  else toLex (1, toLex (q.inicio pdp_cnt row_cnt, q.diferencia pdp_cnt))

def Peticion.orden (q : Peticion) (p : Cabecera × ℕ) : ℕ ×ₗ ℤ ×ₗ ℤ :=
  q.rango p.1.pdp_cnt p.1.row_cnt

theorem orden_of_le {a : Cabecera} (h : q.cal_start a ≤ q.start) (i : ℕ) :
    q.orden (a, i) = toLex (0, toLex (0, q.tmp_step_diff a)) := if_pos h

theorem orden_of_not_le {a : Cabecera} (h : ¬ q.cal_start a ≤ q.start) (i : ℕ) :
    q.orden (a, i) = toLex (1, toLex (q.cal_start a, q.tmp_step_diff a)) := if_neg h

inductive Mejores.De (q : Peticion) (m : Mejores) (ps : List (Cabecera × ℕ)) : Prop
  | full {a : Cabecera} {i : ℕ} : q.cal_start a ≤ q.start → ps.argmin q.orden = some (a, i) →
      m.full = some (i, q.tmp_step_diff a) → De q m ps
  | part {a : Cabecera} {i : ℕ} : ¬ q.cal_start a ≤ q.start → ps.argmin q.orden = some (a, i) →
      m.full = none → m.part = some (i, q.tmp_match a, q.tmp_step_diff a) → De q m ps
  | nada : ps = [] → m = ⟨none, none⟩ → De q m ps

theorem tmp_match_eq {a : Cabecera} (h : ¬ q.cal_start a ≤ q.start) :
    q.tmp_match a = q.fin - q.cal_start a := by
  rw [Peticion.tmp_match, if_pos (not_le.1 h)]
  ring

theorem Mejores.De.considera {m : Mejores} {ps : List (Cabecera × ℕ)} (h : m.De q ps) {a : Cabecera}
    (hcf : a.cf_nam = q.cf_idx) (i : ℕ) : (q.considera a m i).De q (ps ++ [(a, i)]) := by
  unfold Peticion.considera
  rw [if_pos hcf]
  by_cases hfull : q.cal_start a ≤ q.start
  · rw [if_pos hfull]
    cases h with
    | @full b j hb hmin hm =>
      rw [hm]
      dsimp only
      have hlt : q.orden (a, i) < q.orden (b, j) ↔ q.tmp_step_diff a < q.tmp_step_diff b := by
        rw [orden_of_le hfull, orden_of_le hb]
        simp [Prod.Lex.toLex_lt_toLex]
      have hnext : (ps ++ [(a, i)]).argmin q.orden =
          if q.orden (a, i) < q.orden (b, j) then some (a, i) else some (b, j) := by
        rw [List.argmin_concat, hmin]
      split_ifs with hdiff
      · rw [if_pos (hlt.2 hdiff)] at hnext
        exact .full hfull hnext rfl
      · rw [if_neg fun h ↦ hdiff (hlt.1 h)] at hnext
        exact .full hb hnext hm
    | @part b j hb hmin hm hp =>
      have hlt : q.orden (a, i) < q.orden (b, j) := by
        rw [orden_of_le hfull, orden_of_not_le hb]
        simp [Prod.Lex.toLex_lt_toLex]
      have hnext : (ps ++ [(a, i)]).argmin q.orden = some (a, i) := by
        rw [List.argmin_concat, hmin]
        exact if_pos hlt
      rw [hm]
      exact .full hfull hnext rfl
    | nada hps hm =>
      rw [hps, hm]
      exact .full hfull rfl rfl
  · rw [if_neg hfull]
    cases h with
    | @full b j hb hmin hm =>
      have hlt : ¬ q.orden (a, i) < q.orden (b, j) := by
        rw [orden_of_not_le hfull, orden_of_le hb]
        simp [Prod.Lex.toLex_lt_toLex]
      have hnext : (ps ++ [(a, i)]).argmin q.orden = some (b, j) := by
        rw [List.argmin_concat, hmin]
        exact if_neg hlt
      refine .full hb hnext ?_
      split
      · exact hm
      · split_ifs
        · exact hm
        · exact hm
    | @part b j hb hmin hm hp =>
      rw [hp]
      dsimp only
      have hlt : q.orden (a, i) < q.orden (b, j) ↔
          q.tmp_match b < q.tmp_match a ∨ q.tmp_match b = q.tmp_match a ∧ q.tmp_step_diff a <
            q.tmp_step_diff b := by
        rw [tmp_match_eq hfull, tmp_match_eq hb, orden_of_not_le hfull, orden_of_not_le hb]
        simp only [Prod.Lex.toLex_lt_toLex, lt_irrefl, true_and, false_or]
        constructor
        · intro h
          omega
        · intro h
          omega
      have hnext : (ps ++ [(a, i)]).argmin q.orden =
          if q.orden (a, i) < q.orden (b, j) then some (a, i) else some (b, j) := by
        rw [List.argmin_concat, hmin]
      split_ifs with hdiff
      · rw [if_pos (hlt.2 hdiff)] at hnext
        exact .part hfull hnext hm rfl
      · rw [if_neg fun h ↦ hdiff (hlt.1 h)] at hnext
        exact .part hb hnext hm hp
    | nada hps hm =>
      rw [hps, hm]
      exact .part hfull rfl rfl rfl

/-- The archive that a fetch reads is the best of those with its function, and the first of them
where several are. -/
theorem chosen_rra_eq (q : Peticion) (as : List Cabecera) :
    (q.busca as).chosen_rra =
      ((as.zipIdx.filter fun p ↦ p.1.cf_nam = q.cf_idx).argmin q.orden).map Prod.snd := by
  have hde : ∀ ps : List (Cabecera × ℕ),
    (ps.foldl (fun m p ↦ q.considera p.1 m p.2) ⟨none, none⟩).De q
      (ps.filter fun p ↦ p.1.cf_nam = q.cf_idx) := by
    intro ps
    induction ps using List.reverseRecOn with
    | nil => exact .nada rfl rfl
    | append_singleton ps p ih =>
      obtain ⟨a, i⟩ := p
      rw [List.foldl_concat, List.filter_append]
      by_cases hcf : a.cf_nam = q.cf_idx
      · have hone : [(a, i)].filter (fun p ↦ p.1.cf_nam = q.cf_idx) = [(a, i)] :=
          List.filter_cons_of_pos (decide_eq_true hcf)
        rw [hone]
        exact ih.considera hcf i
      · have hone : [(a, i)].filter (fun p ↦ p.1.cf_nam = q.cf_idx) = [] :=
          List.filter_cons_of_neg (by simpa using hcf)
        have hsame : ∀ m, q.considera a m i = m := by
          intro m
          unfold Peticion.considera
          exact if_neg hcf
        rw [hone, List.append_nil, hsame]
        exact ih
  rw [Peticion.busca, Mejores.chosen_rra]
  cases hde as.zipIdx with
  | full hcal hmin hm =>
    rw [hm, hmin]
    rfl
  | part hcal hmin hm hp =>
    rw [hm, hp, hmin]
    rfl
  | nada hps hm =>
    rw [hm, hps]
    rfl

theorem mem_of_chosen_rra {as : List Cabecera} {i : ℕ} (h : (q.busca as).chosen_rra = some i) :
    ∃ a, as[i]? = some a ∧ a.cf_nam = q.cf_idx ∧
      ∀ b ∈ as, b.cf_nam = q.cf_idx → q.rango a.pdp_cnt a.row_cnt ≤
        q.rango b.pdp_cnt b.row_cnt := by
  rw [chosen_rra_eq, Option.map_eq_some_iff] at h
  obtain ⟨⟨a, j⟩, hmin, rfl⟩ := h
  obtain ⟨hmem, hcf⟩ := List.mem_filter.1 (List.argmin_mem hmin)
  refine ⟨a, List.mk_mem_zipIdx_iff_getElem?.1 hmem, of_decide_eq_true hcf, fun b hb hbcf ↦ ?_⟩
  obtain ⟨k, hk⟩ := List.mem_iff_getElem?.1 hb
  have hin : (b, k) ∈ as.zipIdx.filter fun p ↦ p.1.cf_nam = q.cf_idx :=
    List.mem_filter.2 ⟨List.mk_mem_zipIdx_iff_getElem?.2 hk, decide_eq_true hbcf⟩
  exact List.le_of_mem_argmin hin hmin

theorem chosen_rra_eq_none {as : List Cabecera} :
    (q.busca as).chosen_rra = none ↔ ∀ a ∈ as, a.cf_nam ≠ q.cf_idx := by
  rw [chosen_rra_eq, Option.map_eq_none_iff, List.argmin_eq_none, List.filter_eq_nil_iff]
  constructor
  · intro h a ha hcf
    obtain ⟨i, hi⟩ := List.mem_iff_getElem?.1 ha
    exact h (a, i) (List.mk_mem_zipIdx_iff_getElem?.2 hi) (decide_eq_true hcf)
  · intro h p hp hcf
    exact h p.1 (List.mem_of_getElem? (List.mk_mem_zipIdx_iff_getElem?.1 hp))
      (of_decide_eq_true hcf)

end Order

end ServiciosRed.Choices
