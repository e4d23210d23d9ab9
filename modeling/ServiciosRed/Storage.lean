import ServiciosRed.Consolidation
import ServiciosRed.Cycles
import ServiciosRed.Points

namespace ServiciosRed.Storage

open Doubles Double RoundRobin Archives Points Consolidation Seasons Cycles

structure Rra where
  rra_def : Rra_def
  cdp_prep : Cdp_prep
  rra_ptr : Rra_ptr

structure Hw where
  hw_def : Hw_def
  grupo : Grupo
  hwpredict : Rra_ptr
  seasonal : Rra_ptr
  devseasonal : Rra_ptr
  devpredict : Rra_ptr
  failures : Rra_ptr

inductive Archivo
  | consolida (a : Rra)
  | predice (h : Hw)

/-- The file: its header, the source, the archives and the data after them. -/
structure Rrd where
  pdp_step : ℕ
  ds_def : Ds_def
  fuente : Fuente
  archivos : List Archivo
  datos : List Double

inductive Definicion
  | consolida (d : Rra_def)
  | predice (d : Hw_def)

section Create

/-- `rrd_random` has a number for each archive. -/
def rrd_select_initial_row (rrd_random : ℕ) {row_cnt : ℕ} (h : 0 < row_cnt) : Rra_ptr :=
  ⟨row_cnt, rrd_random % row_cnt, Nat.mod_lt _ h⟩

def Definicion.crea (rrd_random : ℕ → ℕ) (pdp_step last_up i : ℕ) : Definicion → Archivo
  | consolida d =>
    .consolida ⟨d,
      ⟨nan, (last_up - last_up % pdp_step) % (pdp_step * d.pdp_cnt) / pdp_step, num 0, num 0⟩,
      rrd_select_initial_row (rrd_random i) d.row_cnt_pos⟩
  | predice d =>
    .predice ⟨d, Grupo.crea d, rrd_select_initial_row (rrd_random i) d.row_cnt_pos,
      rrd_select_initial_row (rrd_random (i + 1)) d.period_pos,
      rrd_select_initial_row (rrd_random (i + 2)) d.period_pos,
      rrd_select_initial_row (rrd_random (i + 3)) d.row_cnt_pos,
      rrd_select_initial_row (rrd_random (i + 4)) d.period_pos⟩

def Definicion.rra_cnt : Definicion → ℕ
  | consolida _ => 1
  | predice _ => 5

def Definicion.row_cnt : Definicion → ℕ
  | consolida d => d.row_cnt
  | predice d => d.row_cnt + d.period + d.period + d.row_cnt + d.period

def crea_archivos (rrd_random : ℕ → ℕ) (pdp_step last_up : ℕ) : ℕ → List Definicion → List Archivo
  | _, [] => []
  | i, d :: ds =>
    d.crea rrd_random pdp_step last_up i ::
      crea_archivos rrd_random pdp_step last_up (i + d.rra_cnt) ds

def rrd_create_fn (rrd_random : ℕ → ℕ) (pdp_step last_up : ℕ) (ds_def : Ds_def)
    (rras : List Definicion) : Rrd where
  pdp_step := pdp_step
  ds_def := ds_def
  fuente := Fuente.crea pdp_step last_up
  archivos := crea_archivos rrd_random pdp_step last_up 0 rras
  datos := List.replicate (rras.map Definicion.row_cnt).sum nan

def create_rrd_ds : Ds_def := ⟨600, num 0, num 100⟩

theorem medio_nonneg : (0 : ℚ) ≤ 1 / 2 := medio_pos.le

def create_rrd_rra (cf_nam : CF) : Rra_def :=
  ⟨cf_nam, 12, 168, 1 / 2, Nat.succ_pos _, Nat.succ_pos _, medio_nonneg, medio_lt_one⟩

def create_rrd_rras : List Definicion :=
  [.consolida (create_rrd_rra .AVERAGE), .consolida (create_rrd_rra .MAXIMUM),
    .consolida (create_rrd_rra .MINIMUM), .predice create_rrd_hw]

end Create

section Update

def Archivo.row_cnt : Archivo → ℕ
  | consolida a => a.rra_ptr.row_cnt
  | predice h =>
    h.hwpredict.row_cnt + h.seasonal.row_cnt + h.devseasonal.row_cnt + h.devpredict.row_cnt +
      h.failures.row_cnt

/-- `lookup_seasonal`: the row `offset` rows after the last one of an archive. -/
def lookup_seasonal (rra_start : ℕ) (p : Rra_ptr) (datos : List Double) (offset : ℕ) : Double :=
  let row_idx := p.cur_row + offset
  let row_idx := if row_idx ≥ p.row_cnt then row_idx % p.row_cnt else row_idx
  datos.getD (rra_start + row_idx) nan

/-- `update_all_cdp_prep` and `update_aberrant_cdps` for the archives of an item. -/
def Archivo.update (rra_start elapsed_pdp_st proc_pdp_cnt : ℕ) (pdp_temp : Double)
    (datos : List Double) : Archivo → Archivo
  | consolida a =>
    consolida
      { a with cdp_prep := update_rra a.rra_def pdp_temp elapsed_pdp_st proc_pdp_cnt a.cdp_prep }
  | predice h =>
    let lookup_s := lookup_seasonal (rra_start + h.hwpredict.row_cnt) h.seasonal datos
    let lookup_v :=
      lookup_seasonal (rra_start + h.hwpredict.row_cnt + h.seasonal.row_cnt) h.devseasonal datos
    predice { h with grupo := h.grupo.update h.hw_def elapsed_pdp_st pdp_temp lookup_s lookup_v }

def update_all (elapsed_pdp_st proc_pdp_cnt : ℕ) (pdp_temp : Double) (datos : List Double) :
    ℕ → List Archivo → List Archivo
  | _, [] => []
  | rra_start, a :: as =>
    a.update rra_start elapsed_pdp_st proc_pdp_cnt pdp_temp datos ::
      update_all elapsed_pdp_st proc_pdp_cnt pdp_temp datos (rra_start + a.row_cnt) as

def Archivo.trabajos (elapsed_pdp_st proc_pdp_cnt : ℕ) : Archivo → List Trabajo
  | consolida a =>
    [⟨a.rra_ptr, rra_step_cnt a.rra_def elapsed_pdp_st (start_pdp_offset a.rra_def proc_pdp_cnt),
      false, a.cdp_prep.CDP_primary_val, a.cdp_prep.CDP_secondary_val⟩]
  | predice h =>
    let p := h.grupo.primary
    let s := h.grupo.secondary
    [⟨h.hwpredict, elapsed_pdp_st, false, p.hwpredict, s.hwpredict⟩,
      ⟨h.seasonal, elapsed_pdp_st, elapsed_pdp_st > 1, p.seasonal, s.seasonal⟩,
      ⟨h.devseasonal, elapsed_pdp_st, elapsed_pdp_st > 1, p.devseasonal, s.devseasonal⟩,
      ⟨h.devpredict, elapsed_pdp_st, false, p.devpredict, s.devpredict⟩,
      ⟨h.failures, elapsed_pdp_st, false, p.failures, s.failures⟩]

/-- The archives with the pointers that `write_to_rras` leaves. -/
def reparte : List Archivo → List Rra_ptr → List Archivo
  | .consolida a :: as, p :: ps => .consolida { a with rra_ptr := p } :: reparte as ps
  | .predice h :: as, p₁ :: p₂ :: p₃ :: p₄ :: p₅ :: ps =>
    .predice
      { h with hwpredict := p₁, seasonal := p₂, devseasonal := p₃, devpredict := p₄,
               failures := p₅ } ::
      reparte as ps
  | as, _ => as

/-- One argument of an update; none when it is refused. -/
def process_arg (r : Rrd) (current_time : Momento) (updval : Lectura) : Option Rrd :=
  match r.fuente.recibe r.pdp_step r.ds_def current_time updval with
  | none => none
  | some ((elapsed_pdp_st, pdp_temp), fuente) =>
    if elapsed_pdp_st = 0 then some { r with fuente := fuente }
    else
      let t := calculate_elapsed_steps r.pdp_step r.fuente.last current_time
        (intervalo r.fuente.last current_time)
      let archivos := update_all elapsed_pdp_st t.proc_pdp_cnt pdp_temp r.datos 0 r.archivos
      let w :=
        write_to_rras 0 (archivos.flatMap (Archivo.trabajos elapsed_pdp_st t.proc_pdp_cnt)) r.datos
      some { r with fuente := fuente, archivos := reparte archivos w.1, datos := w.2 }

/-- The loop of `_rrd_update`: it stops at the first argument that is refused. -/
def rrd_update : Rrd → List (Momento × Lectura) → Rrd × Bool
  | r, [] => (r, true)
  | r, (current_time, updval) :: args =>
    match process_arg r current_time updval with
    | none => (r, false)
    | some r' => rrd_update r' args

end Update

section Items

def Escrito (datos datos' : List Double) (b : ℕ) (t : Trabajo) (p : Rra_ptr) : Prop :=
  p.row_cnt = t.ptr.row_cnt ∧ vista b p datos' = t.filas (vista b t.ptr datos)

inductive Paso (datos datos' : List Double) (e proc : ℕ) (x : Double) (b : ℕ) :
    Archivo → Archivo → Prop
  | consolida {a : Rra} {cdp : Cdp_prep} {p : Rra_ptr} :
      cdp = update_rra a.rra_def x e proc a.cdp_prep → p.row_cnt = a.rra_ptr.row_cnt →
      vista b p datos' = (vista b a.rra_ptr datos ++
        Consolidation.escritas (rra_step_cnt a.rra_def e (start_pdp_offset a.rra_def proc))
          cdp).drop
          (rra_step_cnt a.rra_def e (start_pdp_offset a.rra_def proc)) →
      Paso datos datos' e proc x b (.consolida a) (.consolida ⟨a.rra_def, cdp, p⟩)
  | predice {h : Hw} {g : Grupo} {p₁ p₂ p₃ p₄ p₅ : Rra_ptr} :
      g = h.grupo.update h.hw_def e x (lookup_seasonal (b + h.hwpredict.row_cnt) h.seasonal datos)
        (lookup_seasonal (b + h.hwpredict.row_cnt + h.seasonal.row_cnt) h.devseasonal datos) →
      Escrito datos datos' b ⟨h.hwpredict, e, false, g.primary.hwpredict,
        g.secondary.hwpredict⟩ p₁ →
      Escrito datos datos' (b + h.hwpredict.row_cnt)
        ⟨h.seasonal, e, e > 1, g.primary.seasonal, g.secondary.seasonal⟩ p₂ →
      Escrito datos datos' (b + h.hwpredict.row_cnt + h.seasonal.row_cnt)
        ⟨h.devseasonal, e, e > 1, g.primary.devseasonal, g.secondary.devseasonal⟩ p₃ →
      Escrito datos datos' (b + h.hwpredict.row_cnt + h.seasonal.row_cnt + h.devseasonal.row_cnt)
        ⟨h.devpredict, e, false, g.primary.devpredict, g.secondary.devpredict⟩ p₄ →
      Escrito datos datos' (b + h.hwpredict.row_cnt + h.seasonal.row_cnt + h.devseasonal.row_cnt +
        h.devpredict.row_cnt)
        ⟨h.failures, e, false, g.primary.failures, g.secondary.failures⟩ p₅ →
      Paso datos datos' e proc x b (.predice h) (.predice ⟨h.hw_def, g, p₁, p₂, p₃, p₄, p₅⟩)

variable {datos datos' : List Double} {e proc : ℕ} {x : Double}

theorem reparte_each (as : List Archivo) {b : ℕ} {ps : List Rra_ptr}
    (h : Each (fun t : Trabajo ↦ t.ptr.row_cnt) (Escrito datos datos') b
      ((update_all e proc x datos b as).flatMap (Archivo.trabajos e proc)) ps) :
    Each Archivo.row_cnt (Paso datos datos' e proc x) b as
      (reparte (update_all e proc x datos b as) ps) := by
  induction as generalizing b ps with
  | nil => exact .nil b
  | cons a as ih =>
    cases a with
    | consolida a =>
      cases h with
      | cons hp h => exact .cons (.consolida rfl hp.1 hp.2) (ih h)
    | predice w =>
      cases h with
      | cons h₁ h =>
        cases h with
        | cons h₂ h =>
          cases h with
          | cons h₃ h =>
            cases h with
            | cons h₄ h =>
              cases h with
              | cons h₅ h =>
                have hbase : b + (Archivo.predice w).row_cnt =
                    b + w.hwpredict.row_cnt + w.seasonal.row_cnt + w.devseasonal.row_cnt +
                      w.devpredict.row_cnt + w.failures.row_cnt := by
                  simp only [Archivo.row_cnt, Nat.add_assoc]
                refine .cons (.predice rfl h₁ h₂ h₃ h₄ h₅) (ih ?_)
                rw [hbase] at h ⊢
                exact h

theorem sum_trabajos (e proc e' proc' : ℕ) (x : Double) (datos : List Double) (as : List Archivo)
    (b : ℕ) :
    (((update_all e proc x datos b as).flatMap (Archivo.trabajos e' proc')).map fun t ↦
      t.ptr.row_cnt).sum = (as.map Archivo.row_cnt).sum := by
  induction as generalizing b with
  | nil => rfl
  | cons a as ih =>
    rw [update_all, List.flatMap_cons, List.map_append, List.sum_append, ih, List.map_cons,
      List.sum_cons]
    congr 1
    cases a with
    | consolida a => rfl
    | predice w =>
      simp only [Archivo.update, Archivo.trabajos, Archivo.row_cnt, List.map_cons, List.map_nil,
        List.sum_cons, List.sum_nil, Nat.add_zero, Nat.add_assoc]

end Items

section Process

variable {r r' : Rrd} {now : Momento} {updval : Lectura}

/-- What an accepted argument does: inside of a step only the source changes, and at the
end of some steps every archive takes its value. -/
theorem process_arg_cases (hstep : 0 < r.pdp_step)
    (hlen : (r.archivos.map Archivo.row_cnt).sum ≤ r.datos.length)
    (h : process_arg r now updval = some r') :
    ∃ e x, r.fuente.recibe r.pdp_step r.ds_def now updval = some ((e, x), r'.fuente) ∧
      r'.pdp_step = r.pdp_step ∧ r'.ds_def = r.ds_def ∧ r'.datos.length = r.datos.length ∧
      (e = 0 ∧ r'.archivos = r.archivos ∧ r'.datos = r.datos ∨
        0 < e ∧ Each Archivo.row_cnt (Paso r.datos r'.datos e (r.fuente.last.sec / r.pdp_step) x) 0
          r.archivos r'.archivos) := by
  unfold process_arg at h
  split at h
  · cases h
  · rename_i e x fuente hr
    split_ifs at h with he
    · cases h
      exact ⟨e, x, hr, rfl, rfl, rfl, Or.inl ⟨he, rfl, rfl⟩⟩
    · obtain ⟨hlt, hcase⟩ := recibe_cases hstep hr
      have hfront : frontera r.pdp_step r.fuente.last < frontera r.pdp_step now := by
        rcases hcase with ⟨-, hout, -⟩ | ⟨e', p, he', hfront, -⟩
        · cases hout
          exact absurd rfl he
        · rw [hfront]
          exact Nat.lt_add_of_pos_right (Nat.mul_pos he' hstep)
      obtain ⟨-, -, -, -, hproc⟩ :=
        calculate_elapsed_steps_of_lt hstep (intervalo r.fuente.last now) hfront
      dsimp only at h
      rw [hproc] at h
      cases h
      refine ⟨e, x, hr, rfl, rfl, length_write_to_rras _ _ _, Or.inr ⟨Nat.pos_of_ne_zero he, ?_⟩⟩
      apply reparte_each
      apply write_to_rras_each
      rw [sum_trabajos, Nat.zero_add]
      exact hlen

end Process

end ServiciosRed.Storage
