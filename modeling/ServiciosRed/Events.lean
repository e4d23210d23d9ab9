import ServiciosRed.Hosts
import ServiciosRed.Listeners

namespace ServiciosRed.Events

open Text Php Filters Python Hosts Schema Calendar Fields Requests Listeners

def llamada (direccionIP : Texto) (campo : Campo) (maximo : Option Texto)
    (fechaPrediccion valor : Texto) : Llamada where
  direccionIP := (explode '/' direccionIP).headD []
  campoMonitorizacion := campo.texto
  valorAnticipacion := maximo
  tipoValorAnticipacion := "min".toList
  fechaSuceso := "CURRENT_TIMESTAMP".toList
  fechaPrediccion := fechaPrediccion
  valorCapturado := valor

/-- How the shell splits a command into words. The first two are the interpreter and the
script. -/
abbrev Shell := Texto → Option (List Texto)

def peticion (sh : Shell) (c : Llamada) : Option Peticion :=
  (sh (insert_event c)).bind fun palabras ↦ escuchaBitacoraSucesos (palabras.drop 2)

/-- The listener decodes the values of the call, and the address and the metric are valid. -/
def Decodificada (sh : Shell) (ahora : Reloj) (c : Llamada) : Prop :=
  ∃ a : BitacoraSucesos.Argumentos, peticion sh c = some (.bitacoraSucesos a .insertar) ∧
    a.dirIP = some c.direccionIP ∧ a.campoMon = some c.campoMonitorizacion ∧
    a.valorAntic = some (str c.valorAnticipacion) ∧ a.tipoValorAntic =
      some c.tipoValorAnticipacion ∧
    a.valorCap = some c.valorCapturado ∧
    let errores := (BitacoraSucesos.construct ahora .insertar a).erroresBitacoraSucesos .insertar
    columnaValida errores "direccionIP" ∧ columnaValida errores "campoMonitorizacion"

section Columns

variable {b : BitacoraSucesos} {oper : Operacion}

theorem columnaValida_direccion (b : BitacoraSucesos) (oper : Operacion) :
    columnaValida (b.erroresBitacoraSucesos oper) "direccionIP" = direccionValida b.ip b.msk := by
  change (columna "direccionIP" (direccionValida b.ip b.msk) 1).2.isSome = _
  rw [← Option.not_isNone, isNone_columna, Bool.not_not]

theorem columnaValida_campo (b : BitacoraSucesos) (oper : Operacion) :
    columnaValida (b.erroresBitacoraSucesos oper) "campoMonitorizacion" =
      inArray b.campoMonitorizacion camposMonitorizacion := by
  change (columna "campoMonitorizacion" (inArray b.campoMonitorizacion camposMonitorizacion)
    2).2.isSome = _
  rw [← Option.not_isNone, isNone_columna, Bool.not_not]

/-- The names of the metrics have no `min_` or `max_` in front. -/
theorem not_inArray_campo (c : Campo) : inArray (some c.texto) camposMonitorizacion = false := by
  cases c <;> decide

/-- An address without a mask has the mask 0, which does not count as a number. -/
theorem not_direccionValida {ip : Texto} (h : '/' ∉ ip) :
    direccionValida (ipDe (some ip)) (mskDe (some ip)) = false := by
  have hmsk : mskDe (some ip) = 0 := by
    rw [mskDe, strval, Option.getD_some, explode_of_notMem h]
    rfl
  have hzero : validInt (some (intText 0)) = false := by decide
  rw [direccionValida, hmsk, hzero]
  simp

end Columns

section Alignment

variable {dibuja : Dibuja} {direccionIP : Texto}

/-- Six values and a baseline, whose texts are whole numbers. -/
structure Captura where
  valor : Campo → Texto
  maximo : Campo → Texto
  minimo : Campo → Texto
  valor_entero (c : Campo) : isWhole (valor c)
  maximo_entero (c : Campo) : isWhole (maximo c)
  minimo_entero (c : Campo) : isWhole (minimo c)

def entero (s : Texto) : ℤ := (int (some s)).toOption.getD 0

theorem int_eq_entero {s : Texto} (h : isWhole s) : int (some s) = .ok (entero s) := by
  rw [entero, int, if_pos h]
  rfl

namespace Captura

variable (k : Captura)

def valores : List Texto := campos.map k.valor

def baseline : Baseline :=
  ⟨campos.map fun c ↦ some (k.maximo c), campos.map fun c ↦ some (k.minimo c)⟩

/-- The value of the metric is within its baseline, which has no minimum for the ping. -/
def Dentro (c : Campo) : Prop :=
  (c ≠ .ping → entero (k.minimo c) < entero (k.valor c)) ∧ entero (k.valor c) < entero (k.maximo c)

instance (c : Campo) : Decidable (k.Dentro c) := inferInstanceAs (Decidable (_ ∧ _))

/-- What the graph of the metric prints after the first percent sign. -/
def fecha (dibuja : Dibuja) (c : Campo) : Texto :=
  ((explode '%' (dibuja c.texto (entero (k.maximo c) * 10)))[1]?).getD []

def llamada (dibuja : Dibuja) (direccionIP : Texto) (c : Campo) : Llamada :=
  Events.llamada direccionIP c (some (k.maximo c)) (k.fecha dibuja c) (k.valor c)

theorem dentro_eq {i : ℕ} {c : Campo} (h : campos[i]? = some c) :
    dentro k.baseline k.valores i = .ok (decide (k.Dentro c)) := by
  have hvalor := int_eq_entero (k.valor_entero c)
  have hmaximo := int_eq_entero (k.maximo_entero c)
  have hminimo := int_eq_entero (k.minimo_entero c)
  by_cases hc : c = .ping
  · have hdentro : decide (k.Dentro c) = decide (entero (k.valor c) < entero (k.maximo c)) :=
      decide_eq_decide.2 (by simp [Dentro, hc])
    rw [baseline, valores, dentro_ping h hc, hvalor, hmaximo, hdentro]
    rfl
  · rw [baseline, valores, dentro_of_ne h hc, hvalor, hmaximo, hminimo]
    by_cases hlow : entero (k.minimo c) < entero (k.valor c)
    · have hdentro : decide (k.Dentro c) = decide (entero (k.valor c) < entero (k.maximo c)) :=
        decide_eq_decide.2 (by simp [Dentro, hlow])
      rw [hdentro]
      simp [hlow, bind, Except.bind, pure, Except.pure]
    · have hdentro : ¬ k.Dentro c := fun hd ↦ hlow (hd.1 hc)
      simp [hlow, hdentro, bind, Except.bind, pure, Except.pure]

theorem item_fecha (hdibuja : ∀ fname u, '%' ∈ dibuja fname u) (c : Campo) :
    item (explode '%' (dibuja c.texto (entero (k.maximo c) * 10))) 1 = .ok (k.fecha dibuja c) := by
  have hcount := List.count_pos_iff.2 (hdibuja c.texto (entero (k.maximo c) * 10))
  have hlength : 1 < (explode '%' (dibuja c.texto (entero (k.maximo c) * 10))).length := by
    rw [length_explode]
    omega
  rw [item, fecha, List.getElem?_eq_getElem hlength]
  rfl

theorem evento_eq (hdibuja : ∀ fname u, '%' ∈ dibuja fname u) {i : ℕ} {c : Campo}
    (h : campos[i]? = some c) :
    evento dibuja k.baseline k.valores direccionIP c i =
      .ok (if k.Dentro c then none else some (k.llamada dibuja direccionIP c)) := by
  have hmaximo : item k.baseline.maxi i = .ok (some (k.maximo c)) :=
    item_campos (fun c ↦ some (k.maximo c)) h
  have hvalor : item k.valores i = .ok (k.valor c) := item_campos k.valor h
  have hgraph : gen_image dibuja c.texto (some (k.maximo c)) =
      .ok (dibuja c.texto (entero (k.maximo c) * 10)) := by
    rw [gen_image, int_eq_entero (k.maximo_entero c)]
    rfl
  rw [evento, k.dentro_eq h, hmaximo, hvalor]
  by_cases hdentro : k.Dentro c
  · simp [hdentro, bind, Except.bind, pure, Except.pure]
  · simp only [hdentro, bind, Except.bind, hgraph, k.item_fecha hdibuja, decide_false,
      Bool.false_eq_true, if_false]
    rfl

/-- The counter of the loop stays at the place of the metric. -/
theorem recorreEventos_eq (hdibuja : ∀ fname u, '%' ∈ dibuja fname u) (cs : List Campo) (i : ℕ)
    (hcs : campos.drop i = cs) :
    recorreEventos dibuja k.baseline k.valores direccionIP cs i =
      .ok ((cs.filter fun c ↦ ¬ k.Dentro c).map (k.llamada dibuja direccionIP)) := by
  induction cs generalizing i with
  | nil => rfl
  | cons c cs ih =>
    have hc : campos[i]? = some c := by
      rw [← List.head?_drop, hcs]
      rfl
    have hnext : campos.drop (i + 1) = cs := by
      rw [← List.tail_drop, hcs]
      rfl
    rw [recorreEventos, k.evento_eq hdibuja hc, ih (i + 1) hnext]
    by_cases hdentro : k.Dentro c
    · simp [hdentro, bind, Except.bind, pure, Except.pure]
    · simp [hdentro, bind, Except.bind, pure, Except.pure]

end Captura

/-- `check_event` makes one call for each metric out of its baseline, in the order of the
metrics. -/
theorem check_event_fuera (k : Captura) (dibuja : Dibuja)
    (hdibuja : ∀ fname u, '%' ∈ dibuja fname u) (result : List Registro)
    (hresult : unpack result = .ok k.baseline) (direccionIP : Texto) :
    check_event dibuja result k.valores direccionIP =
      .ok ((campos.filter fun c ↦ ¬ k.Dentro c).map (k.llamada dibuja direccionIP)) := by
  rw [check_event, hresult]
  exact k.recorreEventos_eq hdibuja campos 0 rfl

def alterada : Captura where
  valor c :=
    if c = .volt then "10".toList
    else if c = .hdd ∨ c = .ping then "95".toList
    else "50".toList
  maximo _ := "90".toList
  minimo c := if c = .ping then "90".toList else "10".toList
  valor_entero c := by cases c <;> decide
  maximo_entero _ := by decide
  minimo_entero c := by cases c <;> decide

def filaAlterada : Registro :=
  let limites : Registro := [some "10".toList, some "90".toList, some "50".toList]
  List.replicate 7 none ++ (limites ++ limites ++ limites ++ limites ++ limites) ++
    [some "90".toList]

theorem check_event_alterada :
    check_event (fun _ _ ↦ "Reach  90%  Thu Jan  1 00:00:00 2026".toList) [filaAlterada]
      alterada.valores "10.0.0.1/24".toList =
        .ok (([.hdd, .volt, .ping] : List Campo).map fun c ↦
          llamada "10.0.0.1/24".toList c (some "90".toList) "  Thu Jan  1 00:00:00 2026".toList
            (alterada.valor c)) := by
  have hfuera : campos.filter (fun c ↦ ¬ alterada.Dentro c) = [.hdd, .volt, .ping] := by decide
  rw [check_event_fuera alterada _ (fun _ _ ↦ by decide) [filaAlterada] (by decide), hfuera]
  rfl

end Alignment

theorem columnas_llamada (ahora : Reloj) {direccionIP : Texto} {campo : Campo}
    {a : BitacoraSucesos.Argumentos} (hip : a.dirIP = some ((explode '/' direccionIP).headD []))
    (hcampo : a.campoMon = some campo.texto) :
    let errores := (BitacoraSucesos.construct ahora .insertar a).erroresBitacoraSucesos .insertar
    columnaValida errores "direccionIP" = false ∧
      columnaValida errores "campoMonitorizacion" = false := by
  obtain ⟨ip, ips, hparts⟩ := List.exists_cons_of_ne_nil (explode_ne_nil '/' direccionIP)
  have hslash : '/' ∉ ip := by
    apply notMem_of_mem_explode (s := direccionIP)
    rw [hparts]
    exact List.mem_cons_self
  rw [hparts] at hip
  constructor
  · rw [columnaValida_direccion]
    simp only [BitacoraSucesos.construct, hip]
    exact not_direccionValida hslash
  · rw [columnaValida_campo]
    simp only [BitacoraSucesos.construct, hcampo]
    exact not_inArray_campo campo

/-- However the shell splits the command, no call of `check_event` is decoded as an event. -/
theorem insert_event_not_decoded (sh : Shell) (ahora : Reloj) (direccionIP : Texto) (campo : Campo)
    (maximo : Option Texto) (fechaPrediccion valor : Texto) :
    ¬ Decodificada sh ahora (llamada direccionIP campo maximo fechaPrediccion valor) := by
  intro h
  obtain ⟨a, -, hip, hcampo, -, -, -, hvalida, -⟩ := h
  rw [(columnas_llamada ahora hip hcampo).1] at hvalida
  cases hvalida

def palabras : Shell := fun s ↦ some ((explode ' ' s).filter fun p ↦ p ≠ [])

/-- The listener takes the date of a prediction for more words, and makes no request. -/
theorem insert_event_not_request :
    ¬ ∀ (sh : Shell) (ahora : Reloj) (direccionIP : Texto) (campo : Campo) (maximo : Option Texto)
      (fechaPrediccion valor : Texto),
      Decodificada sh ahora (llamada direccionIP campo maximo fechaPrediccion valor) := by
  intro h
  obtain ⟨a, ha, -⟩ := h palabras reloj "10.0.0.1/24".toList .cpu (some "90".toList)
    "  Thu Jan  1 00:00:00 2026".toList "95".toList
  have hnone : peticion palabras (llamada "10.0.0.1/24".toList .cpu (some "90".toList)
      "  Thu Jan  1 00:00:00 2026".toList "95".toList) = none := by
    decide
  rw [hnone] at ha
  cases ha

end ServiciosRed.Events
