import ServiciosRed.Actualiza
import ServiciosRed.Baselines

namespace ServiciosRed.Consumers

open Text Php Python Rrd Hosts Schema Calendar Baselines

section Events

variable {dibuja : Dibuja} {l : LineaFila} {v : Campo → Texto} {direccionIP : Texto} {b : Baseline}
  {valores : List Texto}

section Metric

variable {i : ℕ} {c : Campo} (h : campos[i]? = some c)
include h

theorem conversions_of_dentro {d : Bool} (hd : dentro (baselineDe l) (campos.map v) i = .ok d) :
    (c ≠ .ping → (int (minimo l c)).isOk) ∧ (int (some (v c))).isOk ∧
      (d = true → (int (maximo l c)).isOk) := by
  by_cases hc : c = .ping
  · rw [baselineDe, dentro_ping h hc, bind_eq_ok_iff] at hd
    obtain ⟨valor, hvalor, hd⟩ := hd
    obtain ⟨m, hm, -⟩ := bind_eq_ok_iff.1 hd
    exact ⟨fun hne ↦ absurd hc hne, isOk_iff_exists.2 ⟨valor, hvalor⟩,
      fun _ ↦ isOk_iff_exists.2 ⟨m, hm⟩⟩
  · rw [baselineDe, dentro_of_ne h hc, bind_eq_ok_iff] at hd
    obtain ⟨minimo, hminimo, hd⟩ := hd
    obtain ⟨valor, hvalor, hd⟩ := bind_eq_ok_iff.1 hd
    refine ⟨fun _ ↦ isOk_iff_exists.2 ⟨minimo, hminimo⟩, isOk_iff_exists.2 ⟨valor, hvalor⟩,
      fun htrue ↦ ?_⟩
    split_ifs at hd
    · obtain ⟨m, hm, -⟩ := bind_eq_ok_iff.1 hd
      exact isOk_iff_exists.2 ⟨m, hm⟩
    · rw [htrue] at hd
      cases hd

theorem isOk_dentro (hmin : c ≠ .ping → (int (minimo l c)).isOk) (hvalor : (int (some (v c))).isOk)
    (hmax : (int (maximo l c)).isOk) : (dentro (baselineDe l) (campos.map v) i).isOk := by
  obtain ⟨valor, hvalor⟩ := isOk_iff_exists.1 hvalor
  obtain ⟨m, hm⟩ := isOk_iff_exists.1 hmax
  by_cases hc : c = .ping
  · rw [baselineDe, dentro_ping h hc, hvalor, hm]
    rfl
  · obtain ⟨minimo, hminimo⟩ := isOk_iff_exists.1 (hmin hc)
    rw [baselineDe, dentro_of_ne h hc, hminimo, hvalor, hm]
    by_cases hlt : minimo < valor <;> simp [bind, Except.bind, hlt, pure, Except.pure, Except.isOk,
      Except.toBool]

theorem isOk_evento_iff (hdibuja : ∀ fname u, '%' ∈ dibuja fname u) :
    (evento dibuja (baselineDe l) (campos.map v) direccionIP c i).isOk ↔
      (c ≠ .ping → (int (minimo l c)).isOk) ∧ (int (some (v c))).isOk ∧
      (int (maximo l c)).isOk := by
  have hmaxi : item (baselineDe l).maxi i = .ok (maximo l c) := item_campos _ h
  have hfecha (u : ℤ) : ∃ t, item (explode '%' (dibuja c.texto u)) 1 = .ok t := by
    apply isOk_iff_exists.1
    apply isOk_item_iff.2
    have hcount := List.count_pos_iff.2 (hdibuja c.texto u)
    rw [length_explode]
    omega
  rw [evento, isOk_bind_iff, hmaxi, item_campos v h]
  constructor
  · intro hok
    obtain ⟨d, hd, hrest⟩ := hok
    obtain ⟨hmin, hvalor, hmax⟩ := conversions_of_dentro h hd
    refine ⟨hmin, hvalor, ?_⟩
    cases d with
    | true => exact hmax rfl
    | false =>
      obtain ⟨_, hM, hrest⟩ := isOk_bind_iff.1 hrest
      cases hM
      obtain ⟨t, ht, -⟩ := isOk_bind_iff.1 hrest
      obtain ⟨m, hm, -⟩ := bind_eq_ok_iff.1 ht
      exact isOk_iff_exists.2 ⟨m, hm⟩
  · intro hok
    obtain ⟨hmin, hvalor, hmax⟩ := hok
    obtain ⟨d, hd⟩ := isOk_iff_exists.1 (isOk_dentro h hmin hvalor hmax)
    refine ⟨d, hd, ?_⟩
    cases d with
    | true => rfl
    | false =>
      obtain ⟨m, hm⟩ := isOk_iff_exists.1 hmax
      obtain ⟨t, ht⟩ := hfecha (m * 10)
      simp [bind, Except.bind, gen_image, hm, ht, pure, Except.pure, Except.isOk, Except.toBool]

end Metric

theorem isOk_recorreEventos_iff (cs : List Campo) (i : ℕ) :
    (recorreEventos dibuja b valores direccionIP cs i).isOk ↔
      ∀ j c, cs[j]? = some c → (evento dibuja b valores direccionIP c (i + j)).isOk := by
  induction cs generalizing i with
  | nil => simp [recorreEventos, Except.isOk, Except.toBool]
  | cons d cs ih =>
    rw [recorreEventos, isOk_bind_iff]
    constructor
    · intro hok j c hj
      obtain ⟨comando, hcomando, hrest⟩ := hok
      obtain ⟨comandos, hcomandos, -⟩ := isOk_bind_iff.1 hrest
      cases j with
      | zero =>
        cases hj
        exact isOk_iff_exists.2 ⟨comando, hcomando⟩
      | succ j =>
        have hnext := (ih (i + 1)).1 (isOk_iff_exists.2 ⟨comandos, hcomandos⟩) j c hj
        have hindex : i + 1 + j = i + (j + 1) := by omega
        rwa [hindex] at hnext
    · intro hall
      obtain ⟨comando, hcomando⟩ := isOk_iff_exists.1 (hall 0 d rfl)
      have hrest : (recorreEventos dibuja b valores direccionIP cs (i + 1)).isOk := by
        rw [ih]
        intro j c hj
        have hnext := hall (j + 1) c hj
        have hindex : i + 1 + j = i + (j + 1) := by omega
        rwa [hindex]
      obtain ⟨comandos, hcomandos⟩ := isOk_iff_exists.1 hrest
      refine ⟨comando, hcomando, ?_⟩
      rw [hcomandos]
      rfl

theorem isOk_check_event_iff (hdibuja : ∀ fname u, '%' ∈ dibuja fname u) (x : FilaDispositivo)
    (rest : List Registro) :
    (check_event dibuja (registro x :: rest) (campos.map v) direccionIP).isOk ↔
      ∀ c, (c ≠ .ping → (int (minimo x.linea c)).isOk) ∧ (int (some (v c))).isOk ∧
      (int (maximo x.linea c)).isOk := by
  have hrun : check_event dibuja (registro x :: rest) (campos.map v) direccionIP =
      recorreEventos dibuja (baselineDe x.linea) (campos.map v) direccionIP campos 0 := by
    rw [check_event, unpack_registro]
    rfl
  rw [hrun, isOk_recorreEventos_iff]
  constructor
  · intro hall c
    obtain ⟨i, hi⟩ := List.getElem?_of_mem (mem_campos c)
    have hevento := hall i c hi
    rw [Nat.zero_add] at hevento
    exact (isOk_evento_iff hi hdibuja).1 hevento
  · intro hall i c hi
    rw [Nat.zero_add]
    exact (isOk_evento_iff hi hdibuja).2 (hall c)

end Events

section Samples

/-- A sample on the command line: a number, or `'u'` while it is unknown. -/
abbrev Muestra := Option Impreso

def texto (m : Muestra) : Texto := (m.map Impreso.texto).getD ['u']

def rechaza : Fallas := fun _ valor ↦
  match update_pdp_prep create_rrd valor with
  | .error e => some e
  | .ok _ => none

theorem rechaza_eq_none_iff {archivo valor : Texto} :
    rechaza archivo valor = none ↔ (update_pdp_prep create_rrd valor).isOk := by
  unfold rechaza
  cases update_pdp_prep create_rrd valor with
  | error e => simp [Except.isOk, Except.toBool]
  | ok x => simp [Except.isOk, Except.toBool]

def Guarda : Muestra → Prop
  | none => update_pdp_prep create_rrd (texto none) = .ok none
  | some x => (update_pdp_prep create_rrd x.texto).isOk ∧ x.texto.head? ≠ some 'U'

theorem not_guarda_none : ¬ Guarda none := by
  intro h
  have hu : update_pdp_prep create_rrd (texto none) = .error .RrdtoolError := by decide
  rw [Guarda, hu] at h
  cases h

theorem guarda_some (x : Impreso) : Guarda (some x) :=
  ⟨(isOk_update_pdp_prep _).2 (Or.inr x.isSome_numeric_texto), x.head?_texto⟩

theorem isOk_int_texto {m : Muestra} :
    (int (some (texto m))).isOk ↔ ∃ x, m = some x ∧ x.fraccion = [] ∧ x.exponente = none := by
  rw [int_eq_ok_iff]
  cases m with
  | none =>
    constructor
    · intro h
      cases h
    · intro h
      obtain ⟨x, hx, -⟩ := h
      cases hx
  | some x =>
    simp [texto, x.isWhole_texto]

end Samples

section Limits

/-- `check_event` takes the sample of the metric for a normal one. -/
def Normal (l : LineaFila) (c : Campo) (v : ℤ) : Prop :=
  dentro (baselineDe l) (campos.map fun _ ↦ intText v) (campos.idxOf c) = .ok true ∧
    (c = .ping → 0 ≤ v)

def Bajo (l : LineaFila) (c : Campo) : Prop :=
  ∀ m M, int (minimo l c) = .ok m → int (maximo l c) = .ok M → M ≤ 101 ∨ c ≠ .ping ∧ M ≤ m + 1

theorem getElem?_idxOf (c : Campo) : campos[campos.idxOf c]? = some c := by
  cases c <;> decide

theorem normal_iff {l : LineaFila} {c : Campo} {v : ℤ} :
    Normal l c v ↔ ∃ M, int (maximo l c) = .ok M ∧ v < M ∧
      if c = .ping then 0 ≤ v else ∃ m, int (minimo l c) = .ok m ∧ m < v := by
  by_cases hc : c = .ping
  · rw [Normal, baselineDe, dentro_ping (getElem?_idxOf c) hc, int_intText]
    simp only [hc, if_true, forall_true_left, bind_eq_ok_iff, Except.ok.injEq, pure, Except.pure,
      exists_eq_left', decide_eq_true_eq]
    constructor
    · intro h
      obtain ⟨⟨M, hM, hlt⟩, hpos⟩ := h
      exact ⟨M, hM, hlt, hpos⟩
    · intro h
      obtain ⟨M, hM, hlt, hpos⟩ := h
      exact ⟨⟨M, hM, hlt⟩, hpos⟩
  · rw [Normal, baselineDe, dentro_of_ne (getElem?_idxOf c) hc, int_intText, if_neg hc]
    simp only [bind_eq_ok_iff, Except.ok.injEq, exists_eq_left']
    constructor
    · intro h
      obtain ⟨⟨m, hm, hd⟩, -⟩ := h
      split_ifs at hd with hlt
      · obtain ⟨M, hM, hd⟩ := bind_eq_ok_iff.1 hd
        have hv : v < M := of_decide_eq_true (Except.ok.inj hd)
        exact ⟨M, hM, hv, m, hm, hlt⟩
      · cases hd
    · intro h
      obtain ⟨M, hM, hv, m, hm, hlt⟩ := h
      refine ⟨⟨m, hm, ?_⟩, fun h ↦ absurd h hc⟩
      rw [if_pos hlt, hM]
      exact congrArg Except.ok (decide_eq_true hv)

theorem update_pdp_prep_create_rrd (v : ℤ) :
    update_pdp_prep create_rrd (intText v) = .ok (some (v : ℚ)) ↔ 0 ≤ v ∧ v ≤ 100 := by
  rw [update_pdp_prep_intText]
  have hmax : create_rrd.maximo < (v : ℚ) ↔ 100 < v := by
    have hcast : create_rrd.maximo = ((100 : ℤ) : ℚ) := rfl
    rw [hcast, Int.cast_lt]
  have hmin : (v : ℚ) < create_rrd.minimo ↔ v < 0 := by
    have hcast : create_rrd.minimo = ((0 : ℤ) : ℚ) := rfl
    rw [hcast, Int.cast_lt]
  simp only [hmax, hmin]
  split_ifs with h
  · simp
    omega
  · simp
    omega

end Limits

section Accepted

variable [MySQL.Engine] {ahora : Reloj} {a : Dispositivo.Argumentos} {x : FilaDispositivo}

/-- Nothing that reads the samples and the baseline of a device raises. -/
structure Completa (dibuja : Dibuja) (direccionIP : Texto) (valores : Campo → Muestra)
    (x : FilaDispositivo) (p : Proceso) : Prop where
  actualiza :
    (actualiza rechaza (cambia direccionIP) (campos.map fun c ↦ texto (valores c)) p).1.isOk
  guarda : ∀ c, Guarda (valores c)
  check_event :
    (check_event dibuja [registro x] (campos.map fun c ↦ texto (valores c)) direccionIP).isOk
  gen_image : ∀ c, (gen_image dibuja c.texto (maximo x.linea c)).isOk

def Entera (valores : Campo → Muestra) (l : LineaFila) : Prop :=
  (∀ c, ∃ m, valores c = some m ∧ m.fraccion = [] ∧ m.exponente = none) ∧
    (∀ c, c ≠ .ping → minimo l c ≠ none ∧ maximo l c ≠ none) ∧
    ∃ t, maximo l .ping = some t ∧ isWhole t

/-- With an accepted baseline, everything that reads the samples completes exactly when
they are whole numbers and so is the baseline, without a NULL. -/
theorem completa_iff (h : Aceptada ahora a x) (dibuja : Dibuja)
    (hdibuja : ∀ fname u, '%' ∈ dibuja fname u) (direccionIP : Texto) (valores : Campo → Muestra)
    (p : Proceso)
    (hexiste : p.existe (p.cwd ++ '/' :: cambia direccionIP)) :
    Completa dibuja direccionIP valores x p ↔ Entera valores x.linea := by
  have hcolumna {c : Campo} (hc : c ≠ .ping) :
      ((int (minimo x.linea c)).isOk ↔ minimo x.linea c ≠ none) ∧
        ((int (maximo x.linea c)).isOk ↔ maximo x.linea c ≠ none) := by
    obtain ⟨hmax, hmin⟩ := h.columnas hc
    constructor
    · rcases hmin with hmin | ⟨z, -, hmin⟩
      · simp [hmin, int_none, Except.isOk, Except.toBool]
      · simp [hmin, int_intText, Except.isOk, Except.toBool]
    · rcases hmax with hmax | ⟨z, -, hmax⟩
      · simp [hmax, int_none, Except.isOk, Except.toBool]
      · simp [hmax, int_intText, Except.isOk, Except.toBool]
  constructor
  · intro hcompleta
    have hevent := (isOk_check_event_iff hdibuja x []).1 hcompleta.check_event
    refine ⟨fun c ↦ isOk_int_texto.1 (hevent c).2.1, fun c hc ↦ ⟨?_, ?_⟩, ?_⟩
    · exact (hcolumna hc).1.1 ((hevent c).1 hc)
    · exact (hcolumna hc).2.1 (hevent c).2.2
    · exact isOk_int_iff.1 (hevent .ping).2.2
  · intro hentera
    obtain ⟨hvalores, hlimites, hping⟩ := hentera
    have hguarda : ∀ c, Guarda (valores c) := by
      intro c
      obtain ⟨m, hm, -⟩ := hvalores c
      rw [hm]
      exact guarda_some m
    have hmaximo : ∀ c, (int (maximo x.linea c)).isOk := by
      intro c
      by_cases hc : c = .ping
      · rw [hc]
        exact isOk_int_iff.2 hping
      · exact (hcolumna hc).2.2 (hlimites c hc).2
    refine ⟨?_, hguarda, ?_, ?_⟩
    · have hok : ∀ c, rechaza (Actualiza.rrd (p.cwd ++ '/' :: cambia direccionIP) c)
          (texto (valores c)) = none := by
        intro c
        obtain ⟨m, hm, -⟩ := hvalores c
        rw [rechaza_eq_none_iff, hm]
        exact (guarda_some m).1
      obtain ⟨q, hq, -⟩ := Actualiza.actualiza_ok hexiste rfl hok
      rw [hq]
      rfl
    · rw [isOk_check_event_iff hdibuja]
      intro c
      exact ⟨fun hc ↦ (hcolumna hc).1.2 (hlimites c hc).1, isOk_int_texto.2 (hvalores c), hmaximo c⟩
    · intro c
      exact isOk_gen_image_iff.2 (hmaximo c)

/-- The files of an accepted device keep all its normal samples exactly when none is above 100. -/
theorem normal_known_iff (h : Aceptada ahora a x) (c : Campo) :
    (∀ v, Normal x.linea c v → update_pdp_prep create_rrd (intText v) = .ok (some (v : ℚ))) ↔
      Bajo x.linea c := by
  simp only [normal_iff, update_pdp_prep_create_rrd]
  constructor
  · intro hall m M hm hM
    by_contra hno
    rw [not_or, not_and] at hno
    obtain ⟨hhigh, hfar⟩ := hno
    have hv : M - 1 ≤ 100 := by
      refine (hall (M - 1) ⟨M, hM, by omega, ?_⟩).2
      split_ifs with hc
      · omega
      · have hgap := hfar hc
        exact ⟨m, hm, by omega⟩
    omega
  · intro hbajo v hv
    obtain ⟨M, hM, hlt, hv⟩ := hv
    by_cases hc : c = .ping
    · rw [if_pos hc] at hv
      have hmin : minimo x.linea c = maximo x.linea c := by
        rw [hc]
        rfl
      rcases hbajo M M (hmin ▸ hM) hM with hle | ⟨hne, -⟩
      · omega
      · exact absurd hc hne
    · rw [if_neg hc] at hv
      obtain ⟨m, hm, hlow⟩ := hv
      have hpos : 0 < m := by
        rcases (h.columnas hc).2 with hnone | ⟨z, hz, hsome⟩
        · rw [hnone] at hm
          cases hm
        · rw [hsome, int_intText] at hm
          cases hm
          exact hz
      have hhigh := hbajo m M hm hM
      omega

end Accepted

section Host

def enHosts : Proceso where
  cwd := "/Hosts".toList
  existe := fun ruta ↦ ruta = "/Hosts".toList ∨ ruta = "/Hosts/10_0_0_1_24".toList
  recibidos := fun _ ↦ []
  cwd_existe := by decide

theorem completa_iff_equipo :
    Completa (fun _ _ ↦ ['%']) "10.0.0.1/24".toList (fun _ ↦ some (.ofInt 40)) filaEquipo enHosts ↔
      Entera (fun _ ↦ some (.ofInt 40)) filaEquipo.linea :=
  completa_iff aceptada_equipo (fun _ _ ↦ ['%']) (fun _ _ ↦ List.mem_singleton_self _) _ _
    _ (by decide)

/-- A probe that fails makes the first consumer raise. -/
theorem completa_not_unknown :
    ¬ ∀ (ahora : Reloj) (a : Dispositivo.Argumentos) (x : FilaDispositivo) (dibuja : Dibuja)
      (direccionIP : Texto) (valores : Campo → Muestra) (p : Proceso),
      Aceptada ahora a x → (∀ fname u, '%' ∈ dibuja fname u) →
      p.existe (p.cwd ++ '/' :: cambia direccionIP) → Completa dibuja direccionIP valores x p := by
  intro h
  have hcompleta :=
    h _ _ _ (fun _ _ ↦ ['%']) "10.0.0.1/24".toList (fun _ ↦ none) enHosts aceptada_equipo
    (fun _ _ ↦ List.mem_singleton_self _) (by decide)
  exact not_guarda_none (hcompleta.guarda .cpu)

theorem normal_known_iff_temp :
    (∀ v, Normal filaEquipo.linea .temp v → update_pdp_prep create_rrd (intText v) =
      .ok (some (v : ℚ))) ↔ Bajo filaEquipo.linea .temp :=
  normal_known_iff aceptada_equipo .temp

/-- A normal temperature of 110 is stored as unknown. -/
theorem normal_not_known :
    ¬ ∀ (ahora : Reloj) (a : Dispositivo.Argumentos) (x : FilaDispositivo) (c : Campo) (v : ℤ),
      Aceptada ahora a x → Normal x.linea c v → update_pdp_prep create_rrd (intText v) =
        .ok (some (v : ℚ)) := by
  intro h
  have hnormal : Normal filaEquipo.linea .temp 110 := by
    constructor
    · decide
    · intro hc
      cases hc
  have hknown := h _ _ _ _ 110 aceptada_equipo hnormal
  rw [update_pdp_prep_create_rrd] at hknown
  omega

end Host

end ServiciosRed.Consumers
