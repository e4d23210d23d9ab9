import ServiciosRed.Storage
import ServiciosRed.Bands

namespace ServiciosRed.Histories

open Doubles Double RoundRobin Archives Points Consolidation Seasons Cycles Storage Blocks

section Rows

def pasos (l : List (ℕ × Option ℚ)) : List (Option ℚ) := l.flatMap fun m ↦ List.replicate m.1 m.2

theorem pasos_concat (l : List (ℕ × Option ℚ)) (m : ℕ × Option ℚ) :
    pasos (l ++ [m]) = pasos l ++ List.replicate m.1 m.2 := by
  simp only [pasos, List.flatMap_append, List.flatMap_cons, List.flatMap_nil, List.append_nil]

/-- The last `n` values, with unknown ones before the first of them. -/
def ultimas (n : ℕ) (xs : List Double) : List Double := (List.replicate n nan ++ xs).drop xs.length

theorem ultimas_append (n : ℕ) (xs ys : List Double) :
    ultimas n (xs ++ ys) = (ultimas n xs ++ ys).drop ys.length := by
  have hle : xs.length ≤ (List.replicate n nan ++ xs).length := by
    rw [List.length_append]
    omega
  rw [ultimas, ultimas, ← List.drop_append_of_le_length hle, List.drop_drop, List.append_assoc,
    List.length_append]

def filas (d : Rra_def) (n₀ : ℕ) (l : List (ℕ × Option ℚ)) : List Double :=
  (blocks d.pdp_cnt (List.replicate (n₀ % d.pdp_cnt) none ++ pasos l)).map fun b ↦
    ofOption (consolida d b)

def valores (l : List (ℕ × Option ℚ)) : List (ℕ × Double) := l.map fun m ↦ (m.1, ofOption m.2)

def emitidas {d : Hw_def} (campo : Filas → Double) : Ciclo d → List (ℕ × Double) → List Double
  | _, [] => []
  | c, m :: l =>
    Archives.escritas m.1 (campo (c.avanza m.1 m.2).grupo.primary)
      (campo (c.avanza m.1 m.2).grupo.secondary) ++ emitidas campo (c.avanza m.1 m.2) l

theorem emitidas_concat {d : Hw_def} (campo : Filas → Double) (c : Ciclo d) (l : List (ℕ × Double))
    (m : ℕ × Double) :
    emitidas campo c (l ++ [m]) = emitidas campo c l ++
      Archives.escritas m.1 (campo ((c.corre l).avanza m.1 m.2).grupo.primary)
        (campo ((c.corre l).avanza m.1 m.2).grupo.secondary) := by
  induction l generalizing c with
  | nil => exact List.append_nil _
  | cons m' l ih =>
    rw [List.cons_append, emitidas, emitidas, ih, List.append_assoc]
    rfl

end Rows

section Items

variable {n₀ b e proc : ℕ} {l : List (ℕ × Option ℚ)} {datos datos' : List Double} {v : Option ℚ}

structure Consolidado (n₀ : ℕ) (l : List (ℕ × Option ℚ)) (datos : List Double) (b : ℕ) (a : Rra) :
    Prop where
  inv : Inv a.rra_def (rest a.rra_def.pdp_cnt (List.replicate (n₀ % a.rra_def.pdp_cnt) none ++
    pasos l)) a.cdp_prep
  row_cnt : a.rra_ptr.row_cnt = a.rra_def.row_cnt
  rows : vista b a.rra_ptr datos = ultimas a.rra_def.row_cnt (filas a.rra_def n₀ l)

theorem Consolidado.paso {a : Rra} {cdp : Cdp_prep} {p : Rra_ptr} (h : Consolidado n₀ l datos b a)
    (he : 0 < e) (hproc : proc = n₀ + (pasos l).length)
    (hcdp : cdp = update_rra a.rra_def (ofOption v) e proc a.cdp_prep)
    (hrow : p.row_cnt = a.rra_ptr.row_cnt)
    (hvista : vista b p datos' = (vista b a.rra_ptr datos ++
      Consolidation.escritas (rra_step_cnt a.rra_def e (start_pdp_offset a.rra_def proc)) cdp).drop
        (rra_step_cnt a.rra_def e (start_pdp_offset a.rra_def proc))) :
    Consolidado n₀ (l ++ [(e, v)]) datos' b ⟨a.rra_def, cdp, p⟩ := by
  have hm := a.rra_def.pdp_cnt_pos
  have hlen : proc % a.rra_def.pdp_cnt =
      (rest a.rra_def.pdp_cnt (List.replicate (n₀ % a.rra_def.pdp_cnt) none ++
        pasos l)).length := by
    rw [length_rest, List.length_append, List.length_replicate, hproc, Nat.mod_add_mod]
  obtain ⟨hinv, hrows⟩ := h.inv.update_rra v he hlen
  have hsplit : List.replicate (n₀ % a.rra_def.pdp_cnt) none ++ pasos (l ++ [(e, v)]) =
      (List.replicate (n₀ % a.rra_def.pdp_cnt) none ++ pasos l) ++ List.replicate e v := by
    rw [pasos_concat, List.append_assoc]
  have hfilas : filas a.rra_def n₀ (l ++ [(e, v)]) = filas a.rra_def n₀ l ++
      Consolidation.escritas (rra_step_cnt a.rra_def e (start_pdp_offset a.rra_def proc)) cdp := by
    rw [filas, hsplit, blocks_append hm, List.map_append, hcdp, hrows]
    rfl
  have hcnt : (Consolidation.escritas (rra_step_cnt a.rra_def e (start_pdp_offset a.rra_def proc))
    cdp).length =
      rra_step_cnt a.rra_def e (start_pdp_offset a.rra_def proc) := length_escritas _ _ _
  constructor
  · rw [hsplit, rest_append hm, hcdp]
    exact hinv
  · exact hrow.trans h.row_cnt
  · rw [hfilas, ultimas_append, ← h.rows, hcnt]
    exact hvista

theorem lookup_seasonal_eq {p : Rra_ptr} {w : Wheel Double} (hlen : b + p.row_cnt ≤ datos.length)
    (hw : vista b p datos = w.view) : lookup_seasonal b p datos = w.ahead := by
  have hview : (anillo p hlen).view = w.view := hw
  rw [← Wheel.ahead_eq_of_view hview]
  funext k
  symm
  have hrows : (anillo p hlen).rows.length = p.row_cnt := length_region hlen
  have hlt : (p.cur_row + k) % p.row_cnt < p.row_cnt :=
    Nat.mod_lt _ (Nat.zero_lt_of_lt p.cur_row_lt)
  have hmod : (if p.cur_row + k ≥ p.row_cnt then (p.cur_row + k) % p.row_cnt else p.cur_row + k) =
      (p.cur_row + k) % p.row_cnt := by
    split_ifs with hge
    · rfl
    · rw [Nat.mod_eq_of_lt (not_le.1 hge)]
  apply (anillo p hlen).ahead_eq_iff.2
  have hregion : (region datos b p.row_cnt)[(p.cur_row + k) % p.row_cnt]? =
      datos[b + (p.cur_row + k) % p.row_cnt]? := region_getElem? hlt
  have hin : b + (p.cur_row + k) % p.row_cnt < datos.length := by omega
  rw [hrows]
  refine hregion.trans ?_
  rw [lookup_seasonal, hmod, List.getD_eq_getElem?_getD, List.getElem?_eq_getElem hin,
    Option.getD_some]

def ciclo (d : Hw_def) (l : List (ℕ × Option ℚ)) : Ciclo d := (Ciclo.crea d).corre (valores l)

def emite_filas (d : Hw_def) (campo : Filas → Double) (l : List (ℕ × Option ℚ)) : List Double :=
  emitidas campo (Ciclo.crea d) (valores l)

structure Predicho (l : List (ℕ × Option ℚ)) (datos : List Double) (b : ℕ) (h : Hw) : Prop where
  grupo : h.grupo = (ciclo h.hw_def l).grupo
  seasonal : vista (b + h.hwpredict.row_cnt) h.seasonal datos = (ciclo h.hw_def l).seasonal.view
  devseasonal : vista (b + h.hwpredict.row_cnt + h.seasonal.row_cnt) h.devseasonal datos =
    (ciclo h.hw_def l).devseasonal.view
  hwpredict : vista b h.hwpredict datos =
    ultimas h.hw_def.row_cnt (emite_filas h.hw_def Filas.hwpredict l)
  devpredict : vista (b + h.hwpredict.row_cnt + h.seasonal.row_cnt + h.devseasonal.row_cnt)
    h.devpredict datos = ultimas h.hw_def.row_cnt (emite_filas h.hw_def Filas.devpredict l)
  failures : vista (b + h.hwpredict.row_cnt + h.seasonal.row_cnt + h.devseasonal.row_cnt +
    h.devpredict.row_cnt)
    h.failures datos = ultimas h.hw_def.period (emite_filas h.hw_def Filas.failures l)

theorem vista_escribe {p p' : Rra_ptr} {w : Wheel Double} {x y : Double} (he : 0 < e)
    (hw : vista b p datos = w.view) (hp : Escrito datos datos' b ⟨p, e, e > 1, x, y⟩ p') :
    vista b p' datos' = (escribe w e x).view := by
  have hrows := hp.2
  rw [Trabajo.filas, hw] at hrows
  rw [hrows, escribe]
  by_cases hone : e > 1
  · rw [if_pos (decide_eq_true hone), if_pos hone, Wheel.view_skip_iterate]
  · have he1 : e = 1 := by omega
    subst he1
    rw [if_neg (by simp), if_neg hone, if_pos rfl, Wheel.view_push]
    have hne : w.view ≠ [] := by
      apply List.ne_nil_of_length_pos
      rw [Wheel.length_view]
      exact Nat.zero_lt_of_lt w.cur_lt
    obtain ⟨v, vs, hv⟩ := List.exists_cons_of_ne_nil hne
    rw [hv]
    rfl

theorem ciclo_concat (d : Hw_def) (l : List (ℕ × Option ℚ)) (m : ℕ × Option ℚ) :
    ciclo d (l ++ [m]) = (ciclo d l).avanza m.1 (ofOption m.2) := by
  rw [ciclo, valores, List.map_append]
  exact corre_concat _ _

theorem vista_emitida {d : Hw_def} {campo : Filas → Double} {p p' : Rra_ptr} {n : ℕ}
    (hrows : vista b p datos = ultimas n (emite_filas d campo l))
    (hp : Escrito datos datos' b ⟨p, e, false,
      campo ((ciclo d l).avanza e (ofOption v)).grupo.primary,
      campo ((ciclo d l).avanza e (ofOption v)).grupo.secondary⟩ p') :
    vista b p' datos' = ultimas n (emite_filas d campo (l ++ [(e, v)])) := by
  have hnew := hp.2
  rw [Trabajo.filas, if_neg Bool.false_ne_true, hrows] at hnew
  have hconcat : emite_filas d campo (l ++ [(e, v)]) = emite_filas d campo l ++
      Archives.escritas e (campo ((ciclo d l).avanza e (ofOption v)).grupo.primary)
        (campo ((ciclo d l).avanza e (ofOption v)).grupo.secondary) := by
    rw [emite_filas, valores, List.map_append]
    exact emitidas_concat _ _ _ _
  rw [hconcat, ultimas_append, length_escritas]
  exact hnew

theorem Predicho.paso {h : Hw} {g : Grupo} {p₁ p₂ p₃ p₄ p₅ : Rra_ptr}
    (hh : Predicho l datos b h) (he : 0 < e) (hlen : b + (Archivo.predice h).row_cnt ≤ datos.length)
    (hg : g = h.grupo.update h.hw_def e (ofOption v)
    (lookup_seasonal (b + h.hwpredict.row_cnt) h.seasonal datos)
      (lookup_seasonal (b + h.hwpredict.row_cnt + h.seasonal.row_cnt) h.devseasonal datos))
    (h₁ : Escrito datos datos' b ⟨h.hwpredict, e, false, g.primary.hwpredict,
      g.secondary.hwpredict⟩ p₁)
    (h₂ : Escrito datos datos' (b + h.hwpredict.row_cnt)
      ⟨h.seasonal, e, e > 1, g.primary.seasonal, g.secondary.seasonal⟩ p₂)
    (h₃ : Escrito datos datos' (b + h.hwpredict.row_cnt + h.seasonal.row_cnt)
      ⟨h.devseasonal, e, e > 1, g.primary.devseasonal, g.secondary.devseasonal⟩ p₃)
    (h₄ : Escrito datos datos' (b + h.hwpredict.row_cnt + h.seasonal.row_cnt +
      h.devseasonal.row_cnt)
      ⟨h.devpredict, e, false, g.primary.devpredict, g.secondary.devpredict⟩ p₄)
    (h₅ : Escrito datos datos'
      (b + h.hwpredict.row_cnt + h.seasonal.row_cnt + h.devseasonal.row_cnt + h.devpredict.row_cnt)
      ⟨h.failures, e, false, g.primary.failures, g.secondary.failures⟩ p₅) :
    Predicho (l ++ [(e, v)]) datos' b ⟨h.hw_def, g, p₁, p₂, p₃, p₄, p₅⟩ := by
  simp only [Archivo.row_cnt] at hlen
  have hs := lookup_seasonal_eq (by omega) hh.seasonal
  have hd := lookup_seasonal_eq (by omega) hh.devseasonal
  have hgrupo : g = ((ciclo h.hw_def l).avanza e (ofOption v)).grupo := by
    rw [hg, hs, hd, hh.grupo]
    rfl
  have hr₁ : p₁.row_cnt = h.hwpredict.row_cnt := h₁.1
  have hr₂ : p₂.row_cnt = h.seasonal.row_cnt := h₂.1
  have hr₃ : p₃.row_cnt = h.devseasonal.row_cnt := h₃.1
  have hr₄ : p₄.row_cnt = h.devpredict.row_cnt := h₄.1
  rw [hgrupo] at h₁ h₂ h₃ h₄ h₅
  constructor
  · rw [ciclo_concat]
    exact hgrupo
  · rw [ciclo_concat, hr₁]
    exact vista_escribe he hh.seasonal h₂
  · rw [ciclo_concat, hr₁, hr₂]
    exact vista_escribe he hh.devseasonal h₃
  · exact vista_emitida hh.hwpredict h₁
  · rw [hr₁, hr₂, hr₃]
    exact vista_emitida hh.devpredict h₄
  · rw [hr₁, hr₂, hr₃, hr₄]
    exact vista_emitida hh.failures h₅

inductive Item (n₀ : ℕ) (l : List (ℕ × Option ℚ)) (datos : List Double) (b : ℕ) :
    Definicion → Archivo → Prop
  | consolida {a : Rra} : Consolidado n₀ l datos b a →
    Item n₀ l datos b (.consolida a.rra_def) (.consolida a)
  | predice {h : Hw} : Predicho l datos b h → Item n₀ l datos b (.predice h.hw_def) (.predice h)

theorem Item.paso {df : Definicion} {a a' : Archivo} (h : Item n₀ l datos b df a) (he : 0 < e)
    (hproc : proc = n₀ + (pasos l).length) (hlen : b + a.row_cnt ≤ datos.length)
    (hp : Paso datos datos' e proc (ofOption v) b a a') : Item n₀ (l ++
      [(e, v)]) datos' b df a' := by
  cases hp with
  | consolida hcdp hrow hvista =>
    cases h with
    | consolida h => exact .consolida (h.paso he hproc hcdp hrow hvista)
  | predice hg h₁ h₂ h₃ h₄ h₅ =>
    cases h with
    | predice h => exact .predice (Predicho.paso h he hlen hg h₁ h₂ h₃ h₄ h₅)

theorem row_cnt_paso {a a' : Archivo} {x : Double} (hp : Paso datos datos' e proc x b a a') :
    a'.row_cnt = a.row_cnt := by
  cases hp with
  | consolida hcdp hrow hvista => exact hrow
  | predice hg h₁ h₂ h₃ h₄ h₅ =>
    have hr₁ := h₁.1
    have hr₂ := h₂.1
    have hr₃ := h₃.1
    have hr₄ := h₄.1
    have hr₅ := h₅.1
    simp only [Archivo.row_cnt] at *
    rw [hr₁, hr₂, hr₃, hr₄, hr₅]

end Items

section Create

variable {b n : ℕ} {datos : List Double}

theorem vista_replicate {p : Rra_ptr} {k : ℕ} (hp : p.row_cnt = k) (h : b + p.row_cnt ≤ n) :
    vista b p (List.replicate n nan) = ultimas k [] := by
  have hnil : ultimas k [] = List.replicate k nan := List.append_nil _
  rw [hnil, vista, region, List.drop_replicate, List.take_replicate, List.rotate_replicate,
    Nat.min_eq_left (by omega), hp]

theorem Consolidado.crea (d : Rra_def) {pdp_step last_up : ℕ} (hstep : 0 < pdp_step) {p : Rra_ptr}
    (hp : p.row_cnt = d.row_cnt) (hlen : b + d.row_cnt ≤ n) :
    Consolidado (last_up / pdp_step) [] (List.replicate n nan) b
      ⟨d, ⟨nan, (last_up - last_up % pdp_step) % (pdp_step * d.pdp_cnt) / pdp_step, num 0, num 0⟩,
        p⟩ := by
  have hm := d.pdp_cnt_pos
  have hunkn : (last_up - last_up % pdp_step) % (pdp_step * d.pdp_cnt) / pdp_step =
      last_up / pdp_step % d.pdp_cnt := by
    have hsub : last_up - last_up % pdp_step = pdp_step * (last_up / pdp_step) := by
      have h := Nat.div_add_mod last_up pdp_step
      omega
    rw [hsub, Nat.mul_mod_mul_left, Nat.mul_div_cancel_left _ hstep]
  have hlt : (List.replicate (last_up / pdp_step % d.pdp_cnt) (none : Option ℚ) ++
      pasos []).length < d.pdp_cnt := by
    rw [List.length_append, List.length_replicate]
    exact Nat.mod_lt _ hm
  have hnil : pasos [] = [] := rfl
  constructor
  · rw [rest_of_length_lt hlt, hunkn]
    rw [hnil, List.append_nil] at hlt ⊢
    refine ⟨hlt, ?_, ?_⟩
    · rw [List.count_replicate_self]
    · rw [List.reduceOption_replicate_none]
      cases d.cf_nam <;> trivial
  · exact hp
  · rw [filas, blocks_of_length_lt hlt, List.map_nil]
    rw [← hp] at hlen
    exact vista_replicate hp hlen

theorem Predicho.crea (d : Hw_def) {p₁ p₂ p₃ p₄ p₅ : Rra_ptr} (h₁ : p₁.row_cnt = d.row_cnt)
    (h₂ : p₂.row_cnt = d.period) (h₃ : p₃.row_cnt = d.period) (h₄ : p₄.row_cnt = d.row_cnt)
    (h₅ : p₅.row_cnt = d.period) (hlen : b + (Definicion.predice d).row_cnt ≤ n) :
    Predicho [] (List.replicate n nan) b ⟨d, Grupo.crea d, p₁, p₂, p₃, p₄, p₅⟩ := by
  have hview : ultimas d.period [] = (Wheel.replicate d.period_pos nan).view := by
    rw [Wheel.view_replicate]
    exact List.append_nil _
  rw [Definicion.row_cnt] at hlen
  constructor
  · rfl
  · exact (vista_replicate h₂ (by dsimp only; omega)).trans hview
  · exact (vista_replicate h₃ (by dsimp only; omega)).trans hview
  · exact vista_replicate h₁ (by dsimp only; omega)
  · exact vista_replicate h₄ (by dsimp only; omega)
  · exact vista_replicate h₅ (by dsimp only; omega)

theorem Item.crea (rrd_random : ℕ → ℕ) {pdp_step last_up : ℕ} (hstep : 0 < pdp_step) (i : ℕ)
    (df : Definicion) (hlen : b + df.row_cnt ≤ n) :
    Item (last_up / pdp_step) [] (List.replicate n nan) b df
      (df.crea rrd_random pdp_step last_up i) := by
  cases df with
  | consolida d => exact .consolida (Consolidado.crea d hstep rfl hlen)
  | predice d => exact .predice (Predicho.crea d rfl rfl rfl rfl rfl hlen)

end Create

end ServiciosRed.Histories
