import ServiciosRed.Failures
import ServiciosRed.Hosts
import ServiciosRed.Retrieval

namespace ServiciosRed.Reports

open Python Doubles Double Archives Points Seasons Cycles Storage Histories Signals Files Choices
  Retrieval Failures

section Fetch

variable {rrd_random : ℕ → ℕ} {step t₀ : ℕ} {ds : Ds_def} {rras : List Definicion} {r : Rrd}
  {σ : List (Piece ℚ)} {l : List (ℕ × Option ℚ)} {lo hi : ℚ} {i start fin res : ℕ} {c : Cabecera}

theorem length_pasadas {d : Hw_def} (c : Ciclo d) (l : List (ℕ × Option ℚ)) :
    (pasadas c l).length = (pasos l).length := by
  rw [← map_snd_pasadas c l, List.length_map]

/-- The file as it is seen by its readers: the failure of each step. -/
def archivo (last_update n₀ : ℕ) (ps : List (Filas × Option ℚ)) : Rrd.Archivo where
  last_update := last_update
  failures := fun n ↦
    if n₀ < n then (ps[n - n₀ - 1]?).map fun p ↦ if p.1.failures = num 1 then 1 else 0 else none

theorem fila_failures (d : Hw_def) (last_update n₀ n : ℕ) :
    fila n₀ (emite_filas d Filas.failures l) n =
      ((archivo last_update n₀ (pasadas (Ciclo.crea d) l)).failures n).elim nan fun v ↦ num v := by
  rw [fila, emite_filas, emitidas_eq]
  dsimp only [archivo]
  split_ifs with h
  · rw [List.getD_eq_getElem?_getD, List.getElem?_map]
    cases hp : (pasadas (Ciclo.crea d) l)[n - n₀ - 1]? with
    | none => rfl
    | some p =>
      rw [Option.map_some, Option.map_some, Option.getD_some, Option.elim_some]
      rcases failures_pasadas _ l p (List.mem_of_getElem? hp) with h0 | h1
      · rw [h0, if_neg (by intro h; cases h)]
        rfl
      · rw [h1, if_pos rfl]
        rfl
  · rfl

theorem predice_of_mem {n₀ : ℕ} {c : Cabecera × (ℕ → Double)} {df : Definicion}
    (hc : c ∈ contenidos n₀ l df) (hcf : c.1.cf_nam = .FAILURES) :
    ∃ d, df = .predice d ∧
      c = (⟨.FAILURES, 1, d.period⟩, fila n₀ (emite_filas d Filas.failures l)) := by
  cases df with
  | consolida d =>
    rw [List.mem_singleton.1 hc] at hcf
    exact absurd hcf (by cases d.cf_nam <;> intro h <;> cases h)
  | predice d =>
    simp only [contenidos, List.mem_cons, List.not_mem_nil, or_false] at hc
    rcases hc with rfl | rfl | rfl | rfl | rfl
    · exact absurd hcf (by cases d.cf_nam <;> intro h <;> cases h)
    · cases hcf
    · cases hcf
    · cases hcf
    · exact ⟨d, rfl, rfl⟩

/-- A fetch of the failures reads the file as its readers see it. -/
theorem rrd_fetch_fn_failures (hstep : 0 < step) (hds : ds.Limitada lo hi)
    (h : Files.Alcanza rrd_random step t₀ ds rras r σ l) (hle : start ≤ fin) (res : ℕ) :
    (rrd_fetch_fn r .FAILURES start fin res = none ∧ ∀ d, .predice d ∉ rras) ∨
      ∃ d, .predice d ∈ rras ∧
        rrd_fetch_fn r .FAILURES start fin res = some (step, fin / step + 1 - start / step + 1,
          (Rrd.rrd_fetch ⟨step, lo, hi, d.period⟩
            (archivo r.fuente.last.sec (t₀ / step) (pasadas (Ciclo.crea d) l)) start fin).map
              fun o ↦ o.elim nan fun v ↦ num v) := by
  rw [rrd_fetch_fn_eq hstep hds h _ hle]
  unfold fetch_serie
  dsimp only
  cases hch : ((⟨step, r.fuente.last.sec, .FAILURES, start, fin, res⟩ : Peticion).busca
      ((rras.flatMap (contenidos (t₀ / step) l)).map Prod.fst)).chosen_rra with
  | none =>
    refine Or.inl ⟨rfl, fun d hd ↦ ?_⟩
    have hmem : (⟨.FAILURES, 1, d.period⟩, fila (t₀ / step) (emite_filas d Filas.failures l)) ∈
        rras.flatMap (contenidos (t₀ / step) l) :=
      List.mem_flatMap.2 ⟨_, hd, by simp [contenidos]⟩
    exact chosen_rra_eq_none.1 hch _ (List.mem_map.2 ⟨_, hmem, rfl⟩) rfl
  | some i =>
    obtain ⟨a, ha, hcf, -⟩ := mem_of_chosen_rra hch
    rw [List.getElem?_map, Option.map_eq_some_iff] at ha
    obtain ⟨c, hc, rfl⟩ := ha
    obtain ⟨df, hdf, hmem⟩ := List.mem_flatMap.1 (List.mem_of_getElem? hc)
    obtain ⟨d, rfl, rfl⟩ := predice_of_mem hmem hcf
    refine Or.inr ⟨d, hdf, ?_⟩
    rw [Option.bind_eq_bind, Option.bind_some, hc, Option.bind_eq_bind, Option.bind_some,
      Nat.mul_one, Rrd.rrd_fetch, List.map_map]
    congr 4
    funext n
    have hlu : (archivo r.fuente.last.sec (t₀ / step) (pasadas (Ciclo.crea d) l)).last_update =
        r.fuente.last.sec := rfl
    dsimp only [Function.comp_apply]
    rw [fila_failures d r.fuente.last.sec, hlu]
    split_ifs
    · rfl
    · rfl

end Fetch

section Aberration

theorem print_calc_eq_none {cf : Rrd.CF} {data : List (Option ℕ)} (h : data.reduceOption = []) :
    Rrd.print_calc cf data = none := by
  induction data with
  | nil => rfl
  | cons x data ih =>
    cases x with
    | none =>
      rw [List.reduceOption_cons_of_none] at h
      exact ih h
    | some v =>
      rw [List.reduceOption_cons_of_some] at h
      cases h

theorem getLast?_of_print_calc {data : List (Option ℕ)} {v : ℕ}
    (h : Rrd.print_calc .LAST data = some v) :
    data.reduceOption.getLast? = some v := by
  cases hlast : data.reduceOption.getLast? with
  | none =>
    rw [print_calc_eq_none (List.getLast?_eq_none_iff.1 hlast)] at h
    cases h
  | some u =>
    rw [Rrd.print_calc_last hlast] at h
    exact h

theorem intPrint_eq_ok {o : Option ℕ} {v : ℕ} (h : Hosts.intPrint o = .ok v) : o = some v := by
  cases o with
  | none => cases h
  | some u =>
    cases h
    rfl

theorem last_of_check_aberration {r : Rrd.RRD} {a : Rrd.Archivo}
    (h : Hosts.check_aberration r a = .ok 1) :
    (Rrd.rrd_fetch r a (a.last_update - r.step * 100 - 1) a.last_update).reduceOption.getLast? =
      some 1 := by
  unfold Hosts.check_aberration at h
  obtain ⟨fmin, -, h⟩ := bind_eq_ok_iff.1 h
  obtain ⟨fmax, -, h⟩ := bind_eq_ok_iff.1 h
  obtain ⟨flast, hlast, h⟩ := bind_eq_ok_iff.1 h
  have hstatus : (if fmin ≠ fmax then (if flast = 1 then 1 else 2) else 0) = 1 := Except.ok.inj h
  split_ifs at hstatus with hne hone
  · rw [getLast?_of_print_calc (intPrint_eq_ok hlast), hone]
  · cases hstatus

theorem ultima_of_check_aberration {r : Rrd.RRD} {a : Rrd.Archivo} (n₀ : ℕ) (hfilas : 0 < r.filas)
    (hnone : ∀ n ≤ n₀, a.failures n = none)
    (hsome : ∀ n, n₀ < n → n ≤ a.last_update / r.step → (a.failures n).isSome)
    (h : Hosts.check_aberration r a = .ok 1) : a.failures (a.last_update / r.step) = some 1 := by
  have hlast := last_of_check_aberration h
  have hmem := List.reduceOption_mem_iff.1 (List.mem_of_getLast? hlast)
  rw [Rrd.rrd_fetch] at hlast hmem
  generalize (a.last_update - r.step * 100 - 1) / r.step = i at hlast hmem
  generalize a.last_update / r.step = n at hlast hmem hsome ⊢
  obtain ⟨m, hm, hfail⟩ := List.mem_map.1 hmem
  rw [List.mem_range'_1] at hm
  split_ifs at hfail with hin
  have hn₀ : n₀ < m := by
    by_contra hle
    rw [hnone m (not_lt.1 hle)] at hfail
    cases hfail
  obtain ⟨v, hv⟩ := Option.isSome_iff_exists.1 (hsome n (hn₀.trans_le hin.2) le_rfl)
  -- the row after the last one is the end of what is read
  obtain ⟨k, hk⟩ : ∃ k, n + 1 - i = k + 1 + 1 := ⟨n - i - 1, by omega⟩
  have hrow : i + 1 + k = n := by omega
  have hnext : i + 1 + (k + 1) = n + 1 := by omega
  rw [hk, List.range'_1_concat, List.range'_1_concat, hrow, hnext, List.map_append, List.map_append,
    List.map_singleton, List.map_singleton, if_pos (by omega), if_neg (by omega), hv,
    List.reduceOption_append, List.reduceOption_append, List.reduceOption_singleton,
    List.reduceOption_singleton, Option.toList_none, Option.toList_some, List.append_nil,
    List.getLast?_concat] at hlast
  rw [hv, hlast]

variable {step n₀ last : ℕ} {l : List (ℕ × Option ℚ)} {d : Hw_def} {c₀ : Ciclo d} {lo hi : ℚ}

theorem exists_ultima (hlast : last / step = n₀ + (pasos l).length)
    (hcheck : Hosts.check_aberration ⟨step, lo, hi, d.period⟩ (archivo last n₀ (pasadas c₀ l)) =
      .ok 1) :
    ∃ p ps, (pasadas c₀ l).reverse = p :: ps ∧ p.1.failures = num 1 := by
  have hlen : (pasadas c₀ l).length = (pasos l).length := length_pasadas c₀ l
  have hone := ultima_of_check_aberration (a := archivo last n₀ (pasadas c₀ l)) n₀ d.period_pos
    (fun n hn ↦ if_neg (not_lt.2 hn)) (fun n hn hle ↦ ?known) hcheck
  case known =>
    have hle : n ≤ last / step := hle
    have hin : n - n₀ - 1 < (pasadas c₀ l).length := by omega
    dsimp only [archivo]
    rw [if_pos hn, List.getElem?_eq_getElem hin]
    rfl
  have hdiv : (archivo last n₀ (pasadas c₀ l)).failures (last / step) = some 1 := hone
  dsimp only [archivo] at hdiv
  split_ifs at hdiv with hpos
  · have hidx : last / step - n₀ - 1 = (pasadas c₀ l).length - 1 := by omega
    rw [hidx, ← List.getLast?_eq_getElem?, Option.map_eq_some_iff] at hdiv
    obtain ⟨p, hp, hfail⟩ := hdiv
    obtain ⟨ps, hps⟩ := List.getLast?_eq_some_iff.1 hp
    refine ⟨p, ps.reverse, by rw [hps, List.reverse_concat], ?_⟩
    split_ifs at hfail with h
    · exact h

end Aberration

section System

variable {rrd_random : ℕ → ℕ} {step t₀ : ℕ} {ds : Ds_def} {rras : List Definicion} {r : Rrd}
  {σ : List (Piece ℚ)} {l : List (ℕ × Option ℚ)} {lo hi : ℚ}

def corta : Hw_def :=
  ⟨.HWPREDICT, 1 / 2, 1 / 10, 1 / 2, 2, 2, 1, 1, 5, 2, medio_pos, medio_lt_one, Nat.succ_pos _,
    Nat.succ_pos _, Nat.succ_pos _, lt_forty (Nat.le_succ 2)⟩

end System

end ServiciosRed.Reports
