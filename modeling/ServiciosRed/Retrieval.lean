import ServiciosRed.Choices
import ServiciosRed.Fetching
import ServiciosRed.Files

namespace ServiciosRed.Retrieval

open Doubles Double RoundRobin Archives Points Consolidation Seasons Cycles Storage Blocks Histories
  Signals Files
open Fetching Choices

section Fetch

def cf_conv : CF → cf_en
  | .AVERAGE => .AVERAGE
  | .MINIMUM => .MINIMUM
  | .MAXIMUM => .MAXIMUM
  | .LAST => .LAST

def hw_conv : Hw_cf → cf_en
  | .HWPREDICT => .HWPREDICT
  | .MHWPREDICT => .MHWPREDICT

def cabeceras : Archivo → List (Cabecera × Rra_ptr)
  | .consolida a => [(⟨cf_conv a.rra_def.cf_nam, a.rra_def.pdp_cnt, a.rra_def.row_cnt⟩, a.rra_ptr)]
  | .predice h =>
    [(⟨hw_conv h.hw_def.cf_nam, 1, h.hw_def.row_cnt⟩, h.hwpredict),
      (⟨.SEASONAL, 1, h.hw_def.period⟩, h.seasonal), (⟨.DEVSEASONAL, 1, h.hw_def.period⟩,
        h.devseasonal), (⟨.DEVPREDICT, 1, h.hw_def.row_cnt⟩, h.devpredict),
      (⟨.FAILURES, 1, h.hw_def.period⟩, h.failures)]

/-- The step of the rows, how many are allocated and the rows that are read; none when the
file has no archive for the function. -/
def rrd_fetch_fn (r : Rrd) (cf_idx : cf_en) (start fin step : ℕ) :
    Option (ℕ × ℕ × List Double) := do
  let rras := r.archivos.flatMap cabeceras
  let q : Peticion := ⟨r.pdp_step, r.fuente.last.sec, cf_idx, start, fin, step⟩
  let chosen_rra ← (q.busca (rras.map Prod.fst)).chosen_rra
  let a ← rras[chosen_rra]?
  let rra_base := ((rras.take chosen_rra).map fun a ↦ a.1.row_cnt).sum
  let step := r.pdp_step * a.1.pdp_cnt
  return (step, fetch_rra ⟨rra_base, step, a.2, r.fuente.last.sec⟩ r.datos start fin)

end Fetch

section Rows

variable {b n₀ : ℕ} {p : Rra_ptr} {datos xs : List Double}

def fila (n₀ : ℕ) (xs : List Double) (n : ℕ) : Double :=
  if n₀ < n then xs.getD (n - n₀ - 1) nan else nan

theorem getD_ultimas {n k : ℕ} (hlt : n₀ + xs.length < n + k) :
    (ultimas k xs).getD (n + k - (n₀ + xs.length) - 1) nan = fila n₀ xs n := by
  have hidx : xs.length + (n + k - (n₀ + xs.length) - 1) = n + k - n₀ - 1 := by omega
  rw [ultimas, List.getD_eq_getElem?_getD, List.getElem?_drop, hidx, fila]
  split_ifs with h
  · have hout : k ≤ n + k - n₀ - 1 := by omega
    rw [List.getElem?_append_right (by rwa [List.length_replicate]), List.length_replicate,
      List.getD_eq_getElem?_getD]
    congr 2
    omega
  · have hin : n + k - n₀ - 1 < k := by omega
    rw [List.getElem?_append_left (by rwa [List.length_replicate]),
      List.getElem?_replicate_of_lt hin, Option.getD_some]

end Rows

section Consolidated

variable {n₀ : ℕ} {l : List (ℕ × Option ℚ)} {d : Rra_def}

def pdp (n₀ : ℕ) (l : List (ℕ × Option ℚ)) (k : ℕ) : Option ℚ :=
  if n₀ < k then (pasos l).getD (k - n₀ - 1) none else none

def bloque (m n : ℕ) : List ℕ := List.range' ((n - 1) * m + 1) m

theorem length_filas (d : Rra_def) (n₀ : ℕ) (l : List (ℕ × Option ℚ)) :
    n₀ / d.pdp_cnt + (filas d n₀ l).length = (n₀ + (pasos l).length) / d.pdp_cnt := by
  have hsplit : n₀ + (pasos l).length = n₀ % d.pdp_cnt + (pasos l).length + d.pdp_cnt *
      (n₀ / d.pdp_cnt) := by
    have h := Nat.div_add_mod n₀ d.pdp_cnt
    omega
  rw [filas, List.length_map, length_blocks, List.length_append, List.length_replicate, hsplit,
    Nat.add_mul_div_left _ _ d.pdp_cnt_pos, Nat.add_comm]

theorem pdp_eq_getD {m i t : ℕ} :
    pdp n₀ l ((n₀ / m + i) * m + 1 + t) =
      (List.replicate (n₀ % m) none ++ pasos l).getD (i * m + t) none := by
  have hn₀ := Nat.div_add_mod' n₀ m
  rw [pdp, Nat.add_mul, List.getD_eq_getElem?_getD, List.getD_eq_getElem?_getD]
  split_ifs with h
  · have hidx : n₀ / m * m + i * m + 1 + t - n₀ - 1 = i * m + t - n₀ % m := by omega
    rw [List.getElem?_append_right (by rw [List.length_replicate]; omega),
      List.length_replicate, hidx]
  · have hlt : i * m + t < n₀ % m := by omega
    rw [List.getElem?_append_left (by rwa [List.length_replicate]),
      List.getElem?_replicate_of_lt hlt, Option.getD_some]

theorem fila_filas {n : ℕ} (hpos : 0 < n) (hle : n ≤ (n₀ + (pasos l).length) / d.pdp_cnt) :
    fila (n₀ / d.pdp_cnt) (filas d n₀ l) n =
      ofOption (consolida d ((bloque d.pdp_cnt n).map (pdp n₀ l))) := by
  have hm := d.pdp_cnt_pos
  have hlen := length_filas d n₀ l
  rw [fila]
  split_ifs with hlt
  · obtain ⟨i, hi⟩ := Nat.exists_eq_add_of_lt hlt
    have hblock : i < (List.replicate (n₀ % d.pdp_cnt) none ++ pasos l).length / d.pdp_cnt := by
      rw [filas, List.length_map, length_blocks] at hlen
      omega
    have hidx : n - n₀ / d.pdp_cnt - 1 = i := by omega
    have hpred : n - 1 = n₀ / d.pdp_cnt + i := by omega
    rw [hidx, filas, List.getD_eq_getElem?_getD, List.getElem?_map,
      blocks_getElem?_eq_range' hblock none, Option.map_some, Option.getD_some, bloque, hpred,
      List.range'_eq_map_range, List.range'_eq_map_range, List.map_map, List.map_map]
    congr 2
    apply List.map_congr_left
    intro t _
    exact pdp_eq_getD.symm
  · have hnone : (bloque d.pdp_cnt n).map (pdp n₀ l) = List.replicate d.pdp_cnt none := by
      apply List.eq_replicate_iff.2
      constructor
      · rw [List.length_map, bloque, List.length_range']
      · intro v hv
        obtain ⟨k, hk, rfl⟩ := List.mem_map.1 hv
        obtain ⟨t, ht, rfl⟩ := List.mem_range'.1 hk
        have hmul : n * d.pdp_cnt ≤ n₀ :=
          (Nat.mul_le_mul_right _ (not_lt.1 hlt)).trans (Nat.div_mul_le_self _ _)
        have hpred : (n - 1) * d.pdp_cnt + d.pdp_cnt = n * d.pdp_cnt := by
          rw [← Nat.succ_mul]
          congr 1
          omega
        rw [pdp, if_neg (by omega)]
    rw [hnone, consolida_replicate]
    rfl

end Consolidated

section Contents

variable {n₀ b : ℕ} {l : List (ℕ × Option ℚ)} {datos : List Double} {df : Definicion} {a : Archivo}

/-- The rows of the archives of a definition, by their numbers, after the steps of `l`. The rows
of the seasons are those of the last period. -/
def contenidos (n₀ : ℕ) (l : List (ℕ × Option ℚ)) : Definicion → List (Cabecera × (ℕ → Double))
  | .consolida d =>
    [(⟨cf_conv d.cf_nam, d.pdp_cnt, d.row_cnt⟩,
      fun n ↦ ofOption (consolida d ((bloque d.pdp_cnt n).map (pdp n₀ l))))]
  | .predice d =>
    let desde n := n + d.period - (n₀ + (pasos l).length) - 1
    [(⟨hw_conv d.cf_nam, 1, d.row_cnt⟩, fila n₀ (emite_filas d Filas.hwpredict l)),
      (⟨.SEASONAL, 1, d.period⟩, fun n ↦ (ciclo d l).seasonal.view.getD (desde n) nan),
      (⟨.DEVSEASONAL, 1, d.period⟩, fun n ↦ (ciclo d l).devseasonal.view.getD (desde n) nan),
      (⟨.DEVPREDICT, 1, d.row_cnt⟩, fila n₀ (emite_filas d Filas.devpredict l)),
      (⟨.FAILURES, 1, d.period⟩, fila n₀ (emite_filas d Filas.failures l))]

structure Contiene (n₀ : ℕ) (l : List (ℕ × Option ℚ)) (datos : List Double) (b : ℕ)
    (c : Cabecera × (ℕ → Double)) (a : Cabecera × Rra_ptr) : Prop where
  cabecera : c.1 = a.1
  row_cnt : a.2.row_cnt = c.1.row_cnt
  fin : b + a.2.row_cnt ≤ datos.length
  rows : ∀ n, 0 < n → (n₀ + (pasos l).length) / c.1.pdp_cnt < n + c.1.row_cnt →
    n ≤ (n₀ + (pasos l).length) / c.1.pdp_cnt →
      (vista b a.2 datos).getD (n + c.1.row_cnt - (n₀ + (pasos l).length) / c.1.pdp_cnt - 1) nan =
        c.2 n

theorem length_ultimas (n : ℕ) (xs : List Double) : (ultimas n xs).length = n := by
  rw [ultimas, List.length_drop, List.length_append, List.length_replicate,
    Nat.add_sub_cancel_right]

theorem contiene_ultimas {cf : cf_en} {k : ℕ} {p : Rra_ptr} {xs : List Double}
    (hlen : xs.length = (pasos l).length) (hfin : b + p.row_cnt ≤ datos.length)
    (hrows : vista b p datos = ultimas k xs) :
    Contiene n₀ l datos b (⟨cf, 1, k⟩, fila n₀ xs) (⟨cf, 1, k⟩, p) := by
  refine ⟨rfl, ?_, hfin, fun n _ hlt _ ↦ ?_⟩
  · rw [← length_vista hfin, hrows, length_ultimas]
  · dsimp only at hlt ⊢
    rw [Nat.div_one, ← hlen] at hlt ⊢
    rw [hrows]
    exact getD_ultimas hlt

theorem length_emite_filas (d : Hw_def) (campo : Filas → Double) (l : List (ℕ × Option ℚ)) :
    (emite_filas d campo l).length = (pasos l).length := by
  unfold emite_filas
  generalize Ciclo.crea d = c
  induction l generalizing c with
  | nil => rfl
  | cons m l ih =>
    have hcons : valores (m :: l) = (m.1, ofOption m.2) :: valores l := rfl
    have hpasos : pasos (m :: l) = List.replicate m.1 m.2 ++ pasos l := rfl
    rw [hcons, hpasos, emitidas, List.length_append, length_escritas, ih, List.length_append,
      List.length_replicate]

theorem contiene_item (hg : Guarda n₀ l datos b df a) :
    Each (fun c : Cabecera × (ℕ → Double) ↦ c.1.row_cnt) (Contiene n₀ l datos) b
      (contenidos n₀ l df)
      (cabeceras a) := by
  have hfin := hg.fin
  cases hg.item with
  | @consolida x hx =>
    refine .cons ⟨rfl, hx.row_cnt, hfin, fun n hpos hlt hle ↦ ?_⟩ (.nil _)
    dsimp only at hlt hle ⊢
    rw [hx.rows, ← fila_filas hpos hle]
    rw [← length_filas] at hlt ⊢
    exact getD_ultimas hlt
  | @predice h hx =>
    simp only [Archivo.row_cnt] at hfin
    have hwheel : ∀ {b p} {w : Wheel Double} (cf : cf_en), b + p.row_cnt ≤ datos.length →
        vista b p datos = w.view → w.rows.length = h.hw_def.period →
        p.row_cnt = h.hw_def.period ∧ Contiene n₀ l datos b (⟨cf, 1, h.hw_def.period⟩, fun n ↦
          w.view.getD (n + h.hw_def.period - (n₀ + (pasos l).length) - 1) nan)
            (⟨cf, 1, h.hw_def.period⟩, p) := by
      intro b p w cf hp hview hlen
      have hrow : p.row_cnt = h.hw_def.period := by
        rw [← length_vista hp, hview, Wheel.length_view, hlen]
      refine ⟨hrow, rfl, hrow, hp, fun n _ _ _ ↦ ?_⟩
      dsimp only
      rw [Nat.div_one, hview]
    have hs := hx.seasonal
    have hv := hx.devseasonal
    have hd := hx.devpredict
    have hf := hx.failures
    have c₁ : Contiene n₀ l datos b (⟨hw_conv h.hw_def.cf_nam, 1, h.hw_def.row_cnt⟩, _) (_,
      h.hwpredict) :=
      contiene_ultimas (length_emite_filas _ _ _) (by omega) hx.hwpredict
    have hr₁ : h.hwpredict.row_cnt = h.hw_def.row_cnt := c₁.row_cnt
    rw [hr₁] at hs hv hd hf hfin
    obtain ⟨hr₂, c₂⟩ := hwheel .SEASONAL (by omega) hs (ciclo h.hw_def l).length_seasonal
    rw [hr₂] at hv hd hf hfin
    obtain ⟨hr₃, c₃⟩ := hwheel .DEVSEASONAL (by omega) hv (ciclo h.hw_def l).length_devseasonal
    rw [hr₃] at hd hf hfin
    have c₄ : Contiene n₀ l datos _ (⟨.DEVPREDICT, 1, h.hw_def.row_cnt⟩, _) (_, h.devpredict) :=
      contiene_ultimas (length_emite_filas _ _ _) (by omega) hd
    have hr₄ : h.devpredict.row_cnt = h.hw_def.row_cnt := c₄.row_cnt
    rw [hr₄] at hf hfin
    have c₅ : Contiene n₀ l datos _ (⟨.FAILURES, 1, h.hw_def.period⟩, _) (_, h.failures) :=
      contiene_ultimas (length_emite_filas _ _ _) (by omega) hf
    exact .cons c₁ (.cons c₂ (.cons c₃ (.cons c₄ (.cons c₅ (.nil _)))))

theorem sum_contenidos (n₀ : ℕ) (l : List (ℕ × Option ℚ)) (df : Definicion) :
    ((contenidos n₀ l df).map fun c ↦ c.1.row_cnt).sum = df.row_cnt := by
  cases df with
  | consolida d => rfl
  | predice d => simp [contenidos, Definicion.row_cnt, Nat.add_assoc]

theorem pdp_cnt_contenidos {c : Cabecera × (ℕ → Double)} (hc : c ∈ contenidos n₀ l df) :
    0 < c.1.pdp_cnt := by
  cases df with
  | consolida d =>
    rw [List.mem_singleton.1 hc]
    exact d.pdp_cnt_pos
  | predice d =>
    simp only [contenidos, List.mem_cons, List.not_mem_nil, or_false] at hc
    rcases hc with rfl | rfl | rfl | rfl | rfl <;> exact Nat.one_pos

end Contents

section Refinement

/-- A fetch as it should be: it knows the definitions and the values of the steps, and nothing
of the places in the file or of how many steps each update ended. -/
def fetch_serie (rras : List Definicion) (pdp_step last_up n₀ : ℕ) (l : List (ℕ × Option ℚ))
    (cf_idx : cf_en) (start fin step : ℕ) : Option (ℕ × ℕ × List Double) := do
  let as := rras.flatMap (contenidos n₀ l)
  let q : Peticion := ⟨pdp_step, last_up, cf_idx, start, fin, step⟩
  let chosen_rra ← (q.busca (as.map Prod.fst)).chosen_rra
  let a ← as[chosen_rra]?
  let s := pdp_step * a.1.pdp_cnt
  return (s, fin / s + 1 - start / s + 1,
    (List.range' (start / s + 1) (fin / s + 1 - start / s)).map fun n ↦
      if last_up / s < n + a.1.row_cnt ∧ n ≤ last_up / s then a.2 n else nan)

variable {rrd_random : ℕ → ℕ} {step t₀ : ℕ} {ds : Ds_def} {rras : List Definicion} {r : Rrd}
  {σ : List (Piece ℚ)} {l : List (ℕ × Option ℚ)} {lo hi : ℚ} {start fin res : ℕ}

/-- A fetch from the file is the fetch as it should be. -/
theorem rrd_fetch_fn_eq (hstep : 0 < step) (hds : ds.Limitada lo hi)
    (h : Files.Alcanza rrd_random step t₀ ds rras r σ l) (cf_idx : cf_en) (hle : start ≤ fin) :
    rrd_fetch_fn r cf_idx start fin res =
      fetch_serie rras step r.fuente.last.sec (t₀ / step) l cf_idx start fin res := by
  have hinv := h.inv hstep hds
  have heach := hinv.archivos.flatMap (sum_contenidos (t₀ / step) l) fun b df a hg ↦
    contiene_item hg
  have hcab := heach.map_eq fun b c a hc ↦ hc.cabecera
  unfold rrd_fetch_fn fetch_serie
  dsimp only
  rw [hinv.pdp_step, ← hcab]
  cases ((⟨step, r.fuente.last.sec, cf_idx, start, fin, res⟩ : Peticion).busca
      ((rras.flatMap (contenidos (t₀ / step) l)).map Prod.fst)).chosen_rra with
  | none => rfl
  | some i =>
    rw [Option.bind_eq_bind, Option.bind_eq_bind, Option.bind_some, Option.bind_some]
    cases hc : (rras.flatMap (contenidos (t₀ / step) l))[i]? with
    | none =>
      have hnone : (r.archivos.flatMap cabeceras)[i]? = none := by
        have hlen := congrArg (fun cs ↦ cs[i]?) hcab
        simp only [List.getElem?_map, hc, Option.map_none] at hlen
        exact Option.map_eq_none_iff.1 hlen.symm
      rw [hnone]
      rfl
    | some c =>
      obtain ⟨a, ha, hcont⟩ := heach.get hc
      have hpos : 0 < c.1.pdp_cnt := by
        obtain ⟨df, -, hmem⟩ := List.mem_flatMap.1 (List.mem_of_getElem? hc)
        exact pdp_cnt_contenidos hmem
      have hbase : ((r.archivos.flatMap cabeceras).take i).map (fun a ↦ a.1.row_cnt) =
          ((rras.flatMap (contenidos (t₀ / step) l)).take i).map fun c ↦ c.1.row_cnt := by
        have htake := congrArg (fun cs ↦ (cs.take i).map Cabecera.row_cnt) hcab
        simp only [← List.map_take, List.map_map] at htake
        exact htake.symm
      have hlast : r.fuente.last.sec / (step * c.1.pdp_cnt) =
          (t₀ / step + (pasos l).length) / c.1.pdp_cnt := by
        rw [← hinv.pasos, Nat.div_div_eq_div_mul]
      have hfin := hcont.fin
      rw [Nat.zero_add] at hcont hfin
      rw [ha, Option.bind_some, Option.bind_eq_bind, Option.bind_some, hbase, ← hcont.cabecera]
      congr 2
      rw [fetch_rra_eq (Nat.mul_pos hstep hpos) hfin hle]
      congr 1
      apply List.map_congr_left
      intro n hn
      have hn₀ : 0 < n := (Nat.succ_pos _).trans_le (List.left_le_of_mem_range' hn)
      dsimp only
      rw [hcont.row_cnt]
      split_ifs with hwin
      · have hrow := hcont.rows n hn₀
        rw [← hlast] at hrow
        exact hrow hwin.1 hwin.2
      · rfl

end Refinement

section Consequences

variable {rrd_random rrd_random' : ℕ → ℕ} {step t₀ t₀' : ℕ} {ds ds' : Ds_def}
  {rras : List Definicion} {r r' : Rrd} {σ σ' : List (Piece ℚ)} {l l' : List (ℕ × Option ℚ)}
    {lo hi lo' hi' : ℚ} {n₀ last start fin res : ℕ}

theorem cf_conv_injective : Function.Injective cf_conv := by
  intro cf cf' h
  cases cf <;> cases cf' <;> first | rfl | cases h

theorem hw_conv_ne_cf_conv (hw : Hw_cf) (cf : CF) : hw_conv hw ≠ cf_conv cf := by
  cases hw <;> cases cf <;> intro h <;> cases h

theorem consolida_of_mem {c : Cabecera × (ℕ → Double)} {df : Definicion} {cf : CF}
    (hc : c ∈ contenidos n₀ l df) (hcf : c.1.cf_nam = cf_conv cf) :
    ∃ d, df = .consolida d ∧ d.cf_nam = cf ∧ c = (⟨cf_conv cf, d.pdp_cnt, d.row_cnt⟩,
      fun n ↦ ofOption (consolida d ((bloque d.pdp_cnt n).map (pdp n₀ l)))) := by
  cases df with
  | consolida d =>
    have hc := List.mem_singleton.1 hc
    rw [hc] at hcf
    have hcf := cf_conv_injective hcf
    exact ⟨d, rfl, hcf, by rw [hc, hcf]⟩
  | predice d =>
    simp only [contenidos, List.mem_cons, List.not_mem_nil, or_false] at hc
    rcases hc with rfl | rfl | rfl | rfl | rfl
    · exact absurd hcf (hw_conv_ne_cf_conv _ _)
    all_goals cases cf <;> cases hcf

theorem fetch_serie_cases (rras : List Definicion) (step last n₀ : ℕ) (l : List (ℕ × Option ℚ))
    (start fin res : ℕ) (cf : CF) :
    (fetch_serie rras step last n₀ l (cf_conv cf) start fin res = none ∧ ∀ d, .consolida d ∈ rras →
      d.cf_nam ≠ cf) ∨ ∃ d, .consolida d ∈ rras ∧ d.cf_nam = cf ∧
        (let q : Peticion := ⟨step, last, cf_conv cf, start, fin, res⟩
          ∀ d', .consolida d' ∈ rras → d'.cf_nam = cf → q.rango d.pdp_cnt d.row_cnt ≤
            q.rango d'.pdp_cnt d'.row_cnt) ∧
        (let s := step * d.pdp_cnt;
          fetch_serie rras step last n₀ l (cf_conv cf) start fin res =
            some (s, fin / s + 1 - start / s + 1,
              (List.range' (start / s + 1) (fin / s + 1 - start / s)).map fun n ↦
              if last / s < n + d.row_cnt ∧ n ≤ last / s then
                ofOption (consolida d ((bloque d.pdp_cnt n).map (pdp n₀ l)))
              else nan)) := by
  have hcab : ∀ d, .consolida d ∈ rras → ⟨cf_conv d.cf_nam, d.pdp_cnt, d.row_cnt⟩ ∈
      (rras.flatMap (contenidos n₀ l)).map Prod.fst := by
    intro d hd
    exact List.mem_map.2 ⟨_, List.mem_flatMap.2 ⟨_, hd, List.mem_cons_self⟩, rfl⟩
  unfold fetch_serie
  dsimp only
  cases hch : ((⟨step, last, cf_conv cf, start, fin, res⟩ : Peticion).busca
      ((rras.flatMap (contenidos n₀ l)).map Prod.fst)).chosen_rra with
  | none =>
    refine Or.inl ⟨rfl, fun d hd hcf ↦ ?_⟩
    exact chosen_rra_eq_none.1 hch _ (hcab d hd) (congrArg cf_conv hcf)
  | some i =>
    obtain ⟨a, ha, hcf, hbest⟩ := mem_of_chosen_rra hch
    rw [List.getElem?_map, Option.map_eq_some_iff] at ha
    obtain ⟨c, hc, rfl⟩ := ha
    obtain ⟨df, hdf, hmem⟩ := List.mem_flatMap.1 (List.mem_of_getElem? hc)
    obtain ⟨d, rfl, hd, rfl⟩ := consolida_of_mem hmem hcf
    refine Or.inr ⟨d, hdf, hd, fun d' hd' hcf' ↦ ?_, ?_⟩
    · have hle := hbest _ (hcab d' hd') (congrArg cf_conv hcf')
      exact hle
    · rw [Option.bind_eq_bind, Option.bind_some, hc]
      rfl

/-- A fetch of an archive that consolidates gives for each of its last rows what the steps of the
row are consolidated to, and allocates room for one more. There is nothing for other rows.
The archive is the best of those with the function for what is asked. -/
theorem rrd_fetch_fn_consolidado (hstep : 0 < step) (hds : ds.Limitada lo hi)
    (h : Files.Alcanza rrd_random step t₀ ds rras r σ l) (cf : CF) (hle : start ≤ fin) :
    let last := r.fuente.last.sec
    (rrd_fetch_fn r (cf_conv cf) start fin res = none ∧ ∀ d, .consolida d ∈ rras → d.cf_nam ≠ cf) ∨
      ∃ d, .consolida d ∈ rras ∧ d.cf_nam = cf ∧
        (let q : Peticion := ⟨step, last, cf_conv cf, start, fin, res⟩
          ∀ d', .consolida d' ∈ rras → d'.cf_nam = cf → q.rango d.pdp_cnt d.row_cnt ≤
            q.rango d'.pdp_cnt d'.row_cnt) ∧
        (let s := step * d.pdp_cnt;
          rrd_fetch_fn r (cf_conv cf) start fin res = some (s, fin / s + 1 - start / s + 1,
            (List.range' (start / s + 1) (fin / s + 1 - start / s)).map fun n ↦
              if last / s < n + d.row_cnt ∧ n ≤ last / s then
                ofOption (consolida d ((bloque d.pdp_cnt n).map (pdp (t₀ / step) l)))
              else nan)) := by
  dsimp only
  rw [rrd_fetch_fn_eq hstep hds h _ hle]
  exact fetch_serie_cases _ _ _ _ _ _ _ _ cf

theorem rrd_fetch_fn_consolidado_create_rrd :
    ∃ r σ l, Files.Alcanza (fun _ ↦ 1) 300 0 create_rrd_ds create_rrd_rras r σ l ∧
      rrd_fetch_fn r .AVERAGE 0 3600 1 = some (3600, 3, (List.range' 1 2).map fun n ↦
        if r.fuente.last.sec / 3600 < n + 168 ∧ n ≤ r.fuente.last.sec / 3600 then
          ofOption (consolida (create_rrd_rra .AVERAGE) ((bloque 12 n).map (pdp 0 l)))
        else nan) := by
  obtain ⟨r, σ, l, h⟩ : ∃ r σ l,
    Files.Alcanza (fun _ ↦ 1) 300 0 create_rrd_ds create_rrd_rras r σ l :=
    ⟨_, _, _, .acepta ⟨600, 0, Nat.succ_pos _⟩ (some (num 7)) .crea rfl⟩
  refine ⟨r, σ, l, h, ?_⟩
  rcases rrd_fetch_fn_consolidado (Nat.succ_pos _) ⟨rfl, rfl⟩ h .AVERAGE (Nat.zero_le 3600) with
    ⟨-, hnone⟩ | ⟨d, hd, hcf, -, hfetch⟩
  · exact absurd rfl (hnone (create_rrd_rra .AVERAGE) List.mem_cons_self)
  · have hd : d = create_rrd_rra .AVERAGE := by
      simp only [create_rrd_rras, List.mem_cons, List.not_mem_nil, Definicion.consolida.injEq,
        reduceCtorEq, or_false] at hd
      rcases hd with rfl | rfl | rfl
      · rfl
      · cases hcf
      · cases hcf
    rw [hd] at hfetch
    exact hfetch

def consolidates : cf_en → Bool
  | .AVERAGE | .MINIMUM | .MAXIMUM | .LAST => true
  | _ => false

theorem consolidates_cf_conv (cf : CF) : consolidates (cf_conv cf) := by
  cases cf <;> rfl

def visible (c : Cabecera × (ℕ → Double)) : Cabecera × (ℕ → Double) :=
  (c.1, if consolidates c.1.cf_nam then c.2 else fun _ ↦ nan)

theorem visible_contenidos (hpasos : pasos l = pasos l') (df : Definicion) :
    (contenidos n₀ l df).map visible = (contenidos n₀ l' df).map visible := by
  cases df with
  | consolida d =>
    have hpdp : pdp n₀ l = pdp n₀ l' := by
      funext k
      rw [pdp, pdp, hpasos]
    simp only [contenidos, hpdp]
  | predice d =>
    cases hcf : d.cf_nam <;> simp [contenidos, visible, consolidates, hw_conv, hcf]

/-- Two files of the same definitions, whose steps have the same values, are not told apart by a
fetch: not by the rows where their archives begin, and not by how many steps each update ended. -/
theorem rrd_fetch_fn_congr (hstep : 0 < step) (hds : ds.Limitada lo hi)
    (hds' : ds'.Limitada lo' hi') (h : Files.Alcanza rrd_random step t₀ ds rras r σ l)
    (h' : Files.Alcanza rrd_random' step t₀' ds' rras r' σ' l')
    (hpasos : pasos l = pasos l') (ht₀ : t₀ / step = t₀' / step)
    (hlast : r.fuente.last.sec = r'.fuente.last.sec)
    (cf : CF) (hle : start ≤ fin) :
    rrd_fetch_fn r (cf_conv cf) start fin res = rrd_fetch_fn r' (cf_conv cf) start fin res := by
  rw [rrd_fetch_fn_eq hstep hds h _ hle, rrd_fetch_fn_eq hstep hds' h' _ hle, ← hlast, ← ht₀]
  generalize r.fuente.last.sec = last
  generalize t₀ / step = n₀
  have hmap : (rras.flatMap (contenidos n₀ l)).map visible =
      (rras.flatMap (contenidos n₀ l')).map visible := by
    rw [List.map_flatMap, List.map_flatMap]
    exact congrArg (rras.flatMap ·) (funext (visible_contenidos hpasos))
  have hcab : (rras.flatMap (contenidos n₀ l)).map Prod.fst =
      (rras.flatMap (contenidos n₀ l')).map Prod.fst := by
    have hfst := congrArg (List.map Prod.fst) hmap
    have hcomp : Prod.fst ∘ visible = Prod.fst := rfl
    rwa [List.map_map, List.map_map, hcomp] at hfst
  unfold fetch_serie
  dsimp only
  rw [← hcab]
  cases hch : ((⟨step, last, cf_conv cf, start, fin, res⟩ : Peticion).busca
      ((rras.flatMap (contenidos n₀ l)).map Prod.fst)).chosen_rra with
  | none => rw [Option.bind_eq_bind, Option.bind_eq_bind, Option.bind_none, Option.bind_none]
  | some i =>
    obtain ⟨a, ha, hcf, -⟩ := mem_of_chosen_rra hch
    rw [List.getElem?_map, Option.map_eq_some_iff] at ha
    obtain ⟨c, hc, rfl⟩ := ha
    have hget := congrArg (fun cs ↦ cs[i]?) hmap
    simp only [List.getElem?_map, hc, Option.map_some] at hget
    obtain ⟨c', hc', hvis⟩ := Option.map_eq_some_iff.1 hget.symm
    have hfst : c'.1 = c.1 := congrArg (fun v ↦ v.1) hvis
    have hsnd : c'.2 = c.2 := by
      have hrows := congrArg (fun v ↦ v.2) hvis
      have hyes : consolidates c.1.cf_nam := by
        rw [hcf]
        exact consolidates_cf_conv cf
      simp only [visible, hfst, hyes, if_true] at hrows
      exact hrows
    rw [Option.bind_eq_bind, Option.bind_some, Option.bind_eq_bind, Option.bind_some, hc, hc',
      Prod.ext hfst hsnd]

/-- An update that ends four steps, and four updates, in archives that begin in other rows. -/
theorem rrd_fetch_fn_congr_cuatro :
    ∃ r σ l r' σ' l', Files.Alcanza (fun _ ↦ 1) 10 0 create_rrd_ds create_rrd_rras r σ l ∧
      Files.Alcanza (fun _ ↦ 5) 10 0 create_rrd_ds create_rrd_rras r' σ' l' ∧
      rrd_fetch_fn r .AVERAGE 0 40 1 = rrd_fetch_fn r' .AVERAGE 0 40 1 := by
  obtain ⟨r, σ, l, h, hlast, hpasos⟩ :
    ∃ r σ l, Files.Alcanza (fun _ ↦ 1) 10 0 create_rrd_ds create_rrd_rras r σ l ∧
      r.fuente.last.sec = 40 ∧ pasos l = List.replicate 4 (some 7) :=
    ⟨_, _, _, .acepta ⟨40, 0, Nat.succ_pos _⟩ (some (num 7)) .crea rfl, rfl,
      by decide +kernel⟩
  obtain ⟨r', σ', l', h', hlast', hpasos'⟩ :
      ∃ r σ l, Files.Alcanza (fun _ ↦ 5) 10 0 create_rrd_ds create_rrd_rras r σ l ∧
        r.fuente.last.sec = 40 ∧ pasos l = List.replicate 4 (some 7) :=
    ⟨_, _, _,
      .acepta ⟨40, 0, Nat.succ_pos _⟩ (some (num 7)) (.acepta ⟨30, 0, Nat.succ_pos _⟩ (some (num 7))
      (.acepta ⟨20, 0, Nat.succ_pos _⟩ (some (num 7))
      (.acepta ⟨10, 0, Nat.succ_pos _⟩ (some (num 7)) .crea rfl) rfl)
      rfl) rfl, rfl, by decide +kernel⟩
  exact ⟨r, σ, l, r', σ', l', h, h', rrd_fetch_fn_congr (Nat.succ_pos _) ⟨rfl, rfl⟩ ⟨rfl, rfl⟩ h h'
    (hpasos.trans hpasos'.symm) rfl (hlast.trans hlast'.symm) .AVERAGE (Nat.zero_le _)⟩

end Consequences

section Limits

variable {rrd_random : ℕ → ℕ} {step t₀ : ℕ} {ds : Ds_def} {rras : List Definicion} {r : Rrd}
  {σ : List (Piece ℚ)} {l : List (ℕ × Option ℚ)} {lo hi : ℚ} {start fin res : ℕ}

def Limitado (lo hi : ℚ) (v : Option ℚ) : Prop := ∀ q, v = some q → lo ≤ q ∧ q ≤ hi

theorem limitado_none : Limitado lo hi none := by
  intro q hq
  cases hq

theorem limitado_consolida {d : Rra_def} {bloque : List (Option ℚ)}
    (hlen : bloque.length = d.pdp_cnt) (h : ∀ v ∈ bloque, Limitado lo hi v) :
    Limitado lo hi (consolida d bloque) := by
  have hknown : ∀ k ∈ bloque.reduceOption, lo ≤ k ∧ k ≤ hi :=
    fun k hk ↦ h _ (List.reduceOption_mem_iff.1 hk) k rfl
  unfold consolida
  split_ifs with hxff
  · exact limitado_none
  · have hne : bloque.reduceOption.length ≠ 0 := by
      have hcount := count_none_add_length bloque
      have hm : (0 : ℚ) < d.pdp_cnt := by exact_mod_cast d.pdp_cnt_pos
      have hlt := mul_lt_mul_of_pos_left d.xff_lt hm
      rw [mul_one] at hlt
      have hsome : bloque.count none < d.pdp_cnt := by exact_mod_cast (not_lt.1 hxff).trans_lt hlt
      omega
    intro q hq
    cases hcf : d.cf_nam with
    | AVERAGE =>
      rw [hcf] at hq
      cases hq
      have hpos : (0 : ℚ) < bloque.reduceOption.length := by exact_mod_cast Nat.pos_of_ne_zero hne
      rw [le_div_iff₀ hpos, div_le_iff₀ hpos, mul_comm, mul_comm hi, ← nsmul_eq_mul, ← nsmul_eq_mul]
      exact ⟨List.card_nsmul_le_sum _ _ fun k hk ↦ (hknown k hk).1,
        List.sum_le_card_nsmul _ _ fun k hk ↦ (hknown k hk).2⟩
    | MINIMUM =>
      rw [hcf] at hq
      exact hknown q (List.min?_mem hq)
    | MAXIMUM =>
      rw [hcf] at hq
      exact hknown q (List.max?_mem hq)
    | LAST =>
      rw [hcf] at hq
      have hlast : bloque.getLast? = some (some q) := Option.join_eq_some_iff.1 hq
      exact h _ (List.mem_of_getLast? hlast) q rfl

theorem limitado_pasos (hstep : 0 < step) (hds : ds.Limitada lo hi) (hlo : lo ≤ 0) (hhi : 0 ≤ hi)
    (h : Files.Alcanza rrd_random step t₀ ds rras r σ l) : ∀ m ∈ l, Limitado lo hi m.2 := by
  induction h with
  | crea =>
    intro m hm
    cases hm
  | @acepta r r' σ l now updval h hr ih =>
    have hinv := h.inv hstep hds
    intro m hm
    rcases List.mem_append.1 hm with hm | hm
    · exact ih m hm
    · unfold emite at hm
      rw [hinv.pdp_step, hinv.ds_def] at hm
      split at hm
      · rename_i e x s' hrec
        rw [List.mem_singleton.1 hm]
        intro q hq
        rcases value_bounds hstep hds hlo hhi hinv.fuente hrec (Nat.succ_pos e) with rfl | ⟨p, rfl,
          hp⟩
        · cases hq
        · cases hq
          exact hp
      · cases hm

theorem limitado_pdp (h : ∀ m ∈ l, Limitado lo hi m.2) (n₀ k : ℕ) :
    Limitado lo hi (pdp n₀ l k) := by
  rw [pdp]
  split_ifs
  · rw [List.getD_eq_getElem?_getD]
    cases hp : (pasos l)[k - n₀ - 1]? with
    | none => exact limitado_none
    | some v =>
      obtain ⟨m, hm, hv⟩ := List.mem_flatMap.1 (List.mem_of_getElem? hp)
      rw [Option.getD_some, List.eq_of_mem_replicate hv]
      exact h m hm
  · exact limitado_none

/-- A fetch gives no number out of the limits of the source, whatever the file has been told. -/
theorem rrd_fetch_fn_limits (hstep : 0 < step) (hds : ds.Limitada lo hi) (hlo : lo ≤ 0)
    (hhi : 0 ≤ hi) (h : Files.Alcanza rrd_random step t₀ ds rras r σ l) (cf : CF)
    (hle : start ≤ fin) {s n : ℕ} {xs : List Double}
    (hfetch : rrd_fetch_fn r (cf_conv cf) start fin res = some (s, n, xs)) :
    ∀ x ∈ xs, x = nan ∨ ∃ q, x = num q ∧ lo ≤ q ∧ q ≤ hi := by
  rw [rrd_fetch_fn_eq hstep hds h _ hle] at hfetch
  rcases fetch_serie_cases rras step r.fuente.last.sec (t₀ / step) l start fin res cf with ⟨hnone,
    -⟩ | ⟨d, -, -, -, hsome⟩
  · rw [hnone] at hfetch
    cases hfetch
  · dsimp only at hsome
    rw [hsome, Option.some.injEq, Prod.mk.injEq, Prod.mk.injEq] at hfetch
    obtain ⟨-, -, rfl⟩ := hfetch
    intro x hx
    obtain ⟨k, -, rfl⟩ := List.mem_map.1 hx
    split_ifs
    · have hlimits :
          Limitado lo hi (consolida d ((bloque d.pdp_cnt k).map (pdp (t₀ / step) l))) := by
        apply limitado_consolida
        · rw [List.length_map, bloque, List.length_range']
        · intro v hv
          obtain ⟨i, -, rfl⟩ := List.mem_map.1 hv
          exact limitado_pdp (limitado_pasos hstep hds hlo hhi h) _ i
      cases hv : consolida d ((bloque d.pdp_cnt k).map (pdp (t₀ / step) l)) with
      | none => exact Or.inl rfl
      | some q => exact Or.inr ⟨q, rfl, hlimits q hv⟩
    · exact Or.inl rfl

theorem rrd_fetch_fn_limits_create_rrd :
    ∃ r σ l s n xs, Files.Alcanza (fun _ ↦ 1) 300 0 create_rrd_ds create_rrd_rras r σ l ∧
      rrd_fetch_fn r .AVERAGE 0 3600 1 = some (s, n, xs) ∧
        ∀ x ∈ xs, x = nan ∨ ∃ q, x = num q ∧ 0 ≤ q ∧ q ≤ 100 := by
  obtain ⟨r, σ, l, h, hsome⟩ :
    ∃ r σ l, Files.Alcanza (fun _ ↦ 1) 300 0 create_rrd_ds create_rrd_rras r σ l ∧
      (rrd_fetch_fn r .AVERAGE 0 3600 1).isSome :=
    ⟨_, _, _, .acepta ⟨600, 0, Nat.succ_pos _⟩ (some (num 7)) .crea rfl, rfl⟩
  obtain ⟨⟨s, n, xs⟩, hfetch⟩ := Option.isSome_iff_exists.1 hsome
  exact ⟨r, σ, l, s, n, xs, h, hfetch,
    rrd_fetch_fn_limits (Nat.succ_pos _) ⟨rfl, rfl⟩ le_rfl (by norm_num) h .AVERAGE
      (Nat.zero_le _) hfetch⟩

end Limits

end ServiciosRed.Retrieval
