import ServiciosRed.Histories

namespace ServiciosRed.Files

open Doubles Double RoundRobin Archives Points Consolidation Seasons Cycles Storage Blocks
  Histories Signals

section Run

def emite (r : Rrd) (now : Momento) (updval : Lectura) : List (ℕ × Option ℚ) :=
  match r.fuente.recibe r.pdp_step r.ds_def now updval with
  | some ((e + 1, x), _) => [(e + 1, x.toOption)]
  | _ => []

/-- The states of a file since it was made, each with what its source has been told and
the steps that are over. An argument that is refused leaves the state as it is. -/
inductive Alcanza (rrd_random : ℕ → ℕ) (step t₀ : ℕ) (ds : Ds_def) (rras : List Definicion) :
    Rrd → List (Piece ℚ) → List (ℕ × Option ℚ) → Prop
  | crea : Alcanza rrd_random step t₀ ds rras (rrd_create_fn rrd_random step t₀ ds rras) [] []
  | acepta {r r' : Rrd} {σ : List (Piece ℚ)} {l : List (ℕ × Option ℚ)} (now : Momento)
    (updval : Lectura) :
      Alcanza rrd_random step t₀ ds rras r σ l → process_arg r now updval = some r' →
        Alcanza rrd_random step t₀ ds rras r' (r.fuente.pieza ds now updval :: σ) (l ++
          emite r now updval)

variable {rrd_random : ℕ → ℕ} {step t₀ : ℕ} {ds : Ds_def} {rras : List Definicion} {r r' : Rrd}
  {σ : List (Piece ℚ)} {l : List (ℕ × Option ℚ)} {now : Momento} {updval : Lectura} {lo hi : ℚ}

/-- Calls of `rrd_update` only go to such states, with any arguments. -/
theorem Alcanza.rrd_update (h : Alcanza rrd_random step t₀ ds rras r σ l)
    (args : List (Momento × Lectura)) :
    ∃ σ' l', Alcanza rrd_random step t₀ ds rras (rrd_update r args).1 (σ' ++ σ) (l ++ l') := by
  induction args generalizing r σ l with
  | nil => exact ⟨[], [], by rwa [List.append_nil]⟩
  | cons a args ih =>
    obtain ⟨now, updval⟩ := a
    unfold Storage.rrd_update
    cases hr : process_arg r now updval with
    | none => exact ⟨[], [], by rwa [List.append_nil]⟩
    | some r' =>
      obtain ⟨σ', l', h'⟩ := ih (h.acepta now updval hr)
      refine ⟨σ' ++ [r.fuente.pieza ds now updval], emite r now updval ++ l', ?_⟩
      rw [List.append_assoc, ← List.append_assoc l]
      exact h'

end Run

section Invariant

variable {rrd_random : ℕ → ℕ} {step t₀ : ℕ} {ds : Ds_def} {rras : List Definicion} {r r' : Rrd}
  {σ : List (Piece ℚ)} {l : List (ℕ × Option ℚ)} {now : Momento} {updval : Lectura} {lo hi : ℚ}

structure Guarda (n₀ : ℕ) (l : List (ℕ × Option ℚ)) (datos : List Double) (b : ℕ) (df : Definicion)
    (a : Archivo) :
    Prop where
  row_cnt : a.row_cnt = df.row_cnt
  fin : b + a.row_cnt ≤ datos.length
  item : Item n₀ l datos b df a

structure Inv (step t₀ : ℕ) (ds : Ds_def) (rras : List Definicion) (r : Rrd) (σ : List (Piece ℚ))
    (l : List (ℕ × Option ℚ)) : Prop where
  pdp_step : r.pdp_step = step
  ds_def : r.ds_def = ds
  fuente : Points.Alcanza step ds t₀ r.fuente σ
  pasos : r.fuente.last.sec / step = t₀ / step + (pasos l).length
  datos : r.datos.length = (rras.map Definicion.row_cnt).sum
  archivos : Each Definicion.row_cnt (Guarda (t₀ / step) l r.datos) 0 rras r.archivos

theorem row_cnt_crea (rrd_random : ℕ → ℕ) (step t₀ i : ℕ) (df : Definicion) :
    (df.crea rrd_random step t₀ i).row_cnt = df.row_cnt := by
  cases df <;> rfl

theorem guarda_crea (rrd_random : ℕ → ℕ) (hstep : 0 < step) (t₀ : ℕ) {n : ℕ}
    (rras : List Definicion) {b : ℕ} (i : ℕ) (hn : b + (rras.map Definicion.row_cnt).sum ≤ n) :
    Each Definicion.row_cnt (Guarda (t₀ / step) [] (List.replicate n nan)) b rras
      (crea_archivos rrd_random step t₀ i rras) := by
  induction rras generalizing b i with
  | nil => exact .nil b
  | cons df rras ih =>
    rw [List.map_cons, List.sum_cons] at hn
    refine .cons ⟨row_cnt_crea _ _ _ _ _, ?_, Item.crea rrd_random hstep i df (by omega)⟩
      (ih _ (by omega))
    rw [row_cnt_crea, List.length_replicate]
    omega

theorem inv_crea (rrd_random : ℕ → ℕ) (hstep : 0 < step) (t₀ : ℕ) (ds : Ds_def)
    (rras : List Definicion) :
    Inv step t₀ ds rras (rrd_create_fn rrd_random step t₀ ds rras) [] [] := by
  constructor
  · rfl
  · rfl
  · exact .crea
  · rfl
  · exact List.length_replicate
  · exact guarda_crea rrd_random hstep t₀ rras 0 (Nat.zero_add _).le

theorem ofOption_of_recibe (hstep : 0 < step) (hds : ds.Limitada lo hi) {s s' : Fuente}
    (h : Points.Alcanza step ds t₀ s σ) {e : ℕ} {x : Double}
    (hr : s.recibe step ds now updval = some ((e, x), s'))
    (he : 0 < e) : ofOption x.toOption = x := by
  apply ofOption_toOption
  rcases value_cases hstep hds h hr he with hx | ⟨D, -, -, -, hx⟩
  · exact Or.inl hx
  · exact Or.inr ⟨_, hx⟩

theorem Inv.process_arg (hstep : 0 < step) (hds : ds.Limitada lo hi) (h : Inv step t₀ ds rras r σ l)
    (hr : process_arg r now updval = some r') :
    Inv step t₀ ds rras r' (r.fuente.pieza ds now updval :: σ) (l ++ emite r now updval) := by
  have hstep' : 0 < r.pdp_step := by rwa [h.pdp_step]
  have hsum := congrArg List.sum (h.archivos.map_eq fun b df a hg ↦ hg.row_cnt.symm)
  obtain ⟨e, x, hrec, hpdp, hdef, hlen, hcase⟩ :=
    process_arg_cases hstep' (hsum.symm.trans h.datos.symm).le hr
  have hemite : emite r now updval = if e = 0 then [] else [(e, x.toOption)] := by
    rw [emite, hrec]
    cases e <;> rfl
  rw [h.pdp_step] at hrec hpdp hcase
  rw [h.ds_def] at hrec hdef
  have hfuente := h.fuente.recibe hrec
  have hsec := (recibe_pasos hstep hrec).2
  rw [hemite]
  rcases hcase with ⟨rfl, harch, hdatos⟩ | ⟨he, heach⟩
  · rw [if_pos rfl, List.append_nil]
    refine ⟨hpdp, hdef, hfuente, hsec.trans h.pasos, hlen.trans h.datos, ?_⟩
    rw [harch, hdatos]
    exact h.archivos
  · have hx := ofOption_of_recibe hstep hds h.fuente hrec he
    rw [if_neg he.ne']
    refine ⟨hpdp, hdef, hfuente, ?_, hlen.trans h.datos, ?_⟩
    · rw [hsec, h.pasos, pasos_concat, List.length_append, List.length_replicate, Nat.add_assoc]
    · refine h.archivos.comp heach (fun b df a hg ↦ hg.row_cnt) fun b df a a' hg hp ↦ ?_
      have hrow := row_cnt_paso hp
      refine ⟨hrow.trans hg.row_cnt, ?_, ?_⟩
      · rw [hrow, hlen]
        exact hg.fin
      · rw [← hx] at hp
        exact hg.item.paso he h.pasos hg.fin hp

theorem Alcanza.inv (hstep : 0 < step) (hds : ds.Limitada lo hi)
    (h : Alcanza rrd_random step t₀ ds rras r σ l) :
    Inv step t₀ ds rras r σ l := by
  induction h with
  | crea => exact inv_crea rrd_random hstep t₀ ds rras
  | acepta now updval h hr ih => exact ih.process_arg hstep hds hr

end Invariant

end ServiciosRed.Files
