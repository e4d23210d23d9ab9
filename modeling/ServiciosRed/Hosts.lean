import ServiciosRed.Rrd

namespace ServiciosRed.Hosts

open Text Php Python Rrd

inductive Campo
  | cpu | ram | hdd | temp | volt | ping
  deriving DecidableEq

def campos : List Campo := [.cpu, .ram, .hdd, .temp, .volt, .ping]

def Campo.texto : Campo → Texto
  | cpu => "cpu".toList
  | ram => "ram".toList
  | hdd => "hdd".toList
  | temp => "temp".toList
  | volt => "volt".toList
  | ping => "ping".toList

/-- `campo + ".rrd"` -/
def Campo.archivo (c : Campo) : Texto := c.texto ++ ".rrd".toList

/-- `l[i]` -/
def item {α : Type} (l : List α) (i : ℕ) : Except Excepcion α :=
  match l[i]? with
  | some x => .ok x
  | none => .error .IndexError

theorem isOk_item_iff {α : Type} {l : List α} {i : ℕ} : (item l i).isOk ↔ i < l.length := by
  unfold item
  rcases Nat.lt_or_ge i l.length with h | h
  · simp [h, Except.isOk, Except.toBool]
  · simp [h, Except.isOk, Except.toBool]

theorem item_campos {α : Type} (f : Campo → α) {i : ℕ} {c : Campo} (h : campos[i]? = some c) :
    item (campos.map f) i = .ok (f c) := by
  rw [item, List.getElem?_map, h]
  rfl

theorem mem_campos (c : Campo) : c ∈ campos := by cases c <;> decide

theorem campos_nodup : campos.Nodup := by decide

/-- DS:GAUGE:600:0:100 and RRA:HWPREDICT:2016:0.5:0.1:3. The period of the
prediction is also the number of rows that the failures get. -/
def create_rrd : RRD := ⟨300, 0, 100, 3⟩

def cambia (ip : Texto) : Texto := ip.map fun i ↦ if i = '.' ∨ i = '/' then '_' else i

section Update

structure Proceso where
  cwd : Texto
  existe : Texto → Bool
  recibidos : Texto → List Texto
  cwd_existe : existe cwd

def Proceso.en (p : Proceso) (ruta : Texto) (h : p.existe ruta) : Proceso :=
  { p with cwd := ruta, cwd_existe := h }

def chdir (ruta : Texto) (p : Proceso) : Except Excepcion Unit × Proceso :=
  if h : p.existe ruta then (.ok (), p.en ruta h) else (.error .OSError, p)

/-- How `rrdtool.update` of a file with a sample fails, if it does. -/
abbrev Fallas := Texto → Texto → Option Excepcion

def update (falla : Fallas) (nameRRD valor : Texto) (p : Proceso) :
    Except Excepcion Unit × Proceso :=
  let archivo := p.cwd ++ '/' :: nameRRD
  match falla archivo valor with
  | some e => (.error e, p)
  | none =>
    (.ok (),
      { p with recibidos := Function.update p.recibidos archivo (p.recibidos archivo ++ [valor]) })

/-- The loop of `actualiza`, from the metric number `j` on. -/
def recorre (falla : Fallas) (valores : List Texto) :
    List Campo → ℕ → Proceso → Except Excepcion Unit × Proceso
  | [], _, p => (.ok (), p)
  | i :: is, j, p =>
    match item valores j with
    | .error e => (.error e, p)
    | .ok valor =>
      match update falla i.archivo valor p with
      | (.error e, p) => (.error e, p)
      | (.ok (), p) => recorre falla valores is (j + 1) p

def actualiza (falla : Fallas) (dirName : Texto) (valores : List Texto) (p : Proceso) :
    Except Excepcion Unit × Proceso :=
  let path := p.cwd
  match chdir (path ++ '/' :: dirName) p with
  | (.error e, p) => (.error e, p)
  | (.ok (), p) =>
    match recorre falla valores campos 0 p with
    | (.error e, p) => (.error e, p)
    | (.ok (), p) => chdir path p

end Update

section Aberration

/-- `int(values[2][k])` -/
def intPrint : Option ℕ → Except Excepcion ℕ
  | some v => .ok v
  | none => .error .ValueError

def check_aberration (r : RRD) (a : Archivo) : Except Excepcion ℕ := do
  let previosupdate := a.last_update - r.step * 100 - 1
  let values := rrd_fetch r a previosupdate a.last_update
  let fmin ← intPrint (print_calc .MIN values)
  let fmax ← intPrint (print_calc .MAX values)
  let flast ← intPrint (print_calc .LAST values)
  return if fmin ≠ fmax then (if flast = 1 then 1 else 2) else 0

end Aberration

section Baseline

abbrev Registro := List (Option Texto)

/-- `maxi` and `mini` -/
structure Baseline where
  maxi : List (Option Texto)
  mini : List (Option Texto)
  deriving DecidableEq

/-- The loop returns in its first round. After no round the function returns None. -/
def getbaseline (result : List Registro) : Except Excepcion (Option Baseline) :=
  match result with
  | [] => .ok none
  | registro :: _ => do
    let min_cpu ← item registro 7
    let max_cpu ← item registro 8
    let min_ram ← item registro 10
    let max_ram ← item registro 11
    let min_hdd ← item registro 13
    let max_hdd ← item registro 14
    let min_temp ← item registro 16
    let max_temp ← item registro 17
    let min_volt ← item registro 19
    let max_volt ← item registro 20
    let ping_promedio ← item registro 22
    return some
      { maxi := [max_cpu, max_ram, max_hdd, max_temp, max_volt, ping_promedio]
        mini := [min_cpu, min_ram, min_hdd, min_temp, min_volt, ping_promedio] }

/-- `maxi, mini = getbaseline(...)` -/
def unpack (result : List Registro) : Except Excepcion Baseline := do
  match ← getbaseline result with
  | some b => return b
  | none => .error .TypeError

end Baseline

section Events

/-- What the graph of a file with a threshold prints. -/
abbrev Dibuja := Texto → ℤ → Texto

def gen_image (dibuja : Dibuja) (fname : Texto) (campo : Option Texto) :
    Except Excepcion Texto := do
  let umbral_esc ← int campo
  return dibuja fname (umbral_esc * 10)

theorem isOk_gen_image_iff {dibuja : Dibuja} {fname : Texto} {campo : Option Texto} :
    (gen_image dibuja fname campo).isOk ↔ (int campo).isOk := by
  rw [gen_image, isOk_bind_iff, isOk_iff_exists]
  simp [pure, Except.pure, Except.isOk, Except.toBool]

/-- `str(x)` -/
def str (x : Option Texto) : Texto := x.getD "None".toList

structure Llamada where
  direccionIP : Texto
  campoMonitorizacion : Texto
  valorAnticipacion : Option Texto
  tipoValorAnticipacion : Texto
  fechaSuceso : Texto
  fechaPrediccion : Texto
  valorCapturado : Texto

def insert_event (c : Llamada) : Texto :=
  "php /home/gabs/Documents/Proyecto/Redes/escuchaBitacoraSucesos.php".toList ++ ' ' ::
    (c.direccionIP ++ ' ' :: (c.campoMonitorizacion ++ ' ' :: (str c.valorAnticipacion ++ ' ' ::
      (c.tipoValorAnticipacion ++ ' ' ::
        (c.fechaSuceso ++ c.fechaPrediccion ++ ' ' :: c.valorCapturado)))))

/-- The test of the metric number `i`. The second comparison is made after the first holds. -/
def dentro (b : Baseline) (valores : List Texto) (i : ℕ) : Except Excepcion Bool := do
  if i ≠ 5 then
    let minimo ← int (← item b.mini i)
    let valor ← int (some (← item valores i))
    if minimo < valor then
      let maximo ← int (← item b.maxi i)
      return decide (valor < maximo)
    else return false
  else
    let valor ← int (some (← item valores i))
    let maximo ← int (← item b.maxi i)
    return decide (valor < maximo)

theorem index_ping {i : ℕ} {c : Campo} (h : campos[i]? = some c) : i = 5 ↔ c = .ping := by
  constructor
  · intro hi
    subst hi
    cases h
    rfl
  · intro hc
    subst hc
    have hlast : campos[5]? = some .ping := rfl
    exact ((List.getElem?_inj (i := 5) (by decide) campos_nodup).1 (hlast.trans h.symm)).symm

section Metric

variable {maximo minimo : Campo → Option Texto} {v : Campo → Texto} {i : ℕ} {c : Campo}
  (h : campos[i]? = some c)
include h

theorem dentro_ping (hc : c = .ping) :
    dentro ⟨campos.map maximo, campos.map minimo⟩ (campos.map v) i = do
      let valor ← int (some (v c))
      let maximo ← int (maximo c)
      return decide (valor < maximo) := by
  have hi : ¬ i ≠ 5 := not_not.2 ((index_ping h).2 hc)
  rw [dentro, if_neg hi, item_campos v h, item_campos maximo h]
  rfl

theorem dentro_of_ne (hc : c ≠ .ping) :
    dentro ⟨campos.map maximo, campos.map minimo⟩ (campos.map v) i = do
      let minimo ← int (minimo c)
      let valor ← int (some (v c))
      if minimo < valor then do
        let maximo ← int (maximo c)
        return decide (valor < maximo)
      else return false := by
  have hi : i ≠ 5 := fun hi ↦ hc ((index_ping h).1 hi)
  rw [dentro, if_pos hi, item_campos v h, item_campos minimo h, item_campos maximo h]
  rfl

end Metric

/-- The body of the loop of `check_event`: the call for a value outside. -/
def evento (dibuja : Dibuja) (b : Baseline) (valores : List Texto) (direccionIP : Texto)
    (campo : Campo) (i : ℕ) :
    Except Excepcion (Option Llamada) := do
  if ← dentro b valores i then return none
  else
    let maximo ← item b.maxi i
    let prediccion ← gen_image dibuja campo.texto maximo
    let fechaPrediccion ← item (explode '%' prediccion) 1
    return some ⟨(explode '/' direccionIP).headD [], campo.texto, maximo, "min".toList,
      "CURRENT_TIMESTAMP".toList, fechaPrediccion, ← item valores i⟩

def recorreEventos (dibuja : Dibuja) (b : Baseline) (valores : List Texto) (direccionIP : Texto) :
    List Campo → ℕ → Except Excepcion (List Llamada)
  | [], _ => .ok []
  | campo :: cs, i => do
    let llamada ← evento dibuja b valores direccionIP campo i
    return llamada.toList ++ (← recorreEventos dibuja b valores direccionIP cs (i + 1))

/-- The calls of `insert_event`, in their order. `result` is what the SELECT of `getbaseline`
finds. -/
def check_event (dibuja : Dibuja) (result : List Registro) (valores : List Texto)
    (direccionIP : Texto) :
    Except Excepcion (List Llamada) := do
  recorreEventos dibuja (← unpack result) valores direccionIP campos 0

end Events

section Fails

/-- The first loop of `fails.py`: the calls of `gen_image` with the files and maxima. -/
def generaImagenes (dibuja : Dibuja) (result : List Registro) :
    List Texto → ℕ → Except Excepcion (List (Texto × Option Texto))
  | [], _ => .ok []
  | fname :: fs, i => do
    if fname ≠ [] ∧ fname ≠ "imagen".toList then
      let b ← unpack result
      let maximo ← item b.maxi i
      let _ ← gen_image dibuja ((explode '.' fname).headD []) maximo
      return (fname, maximo) :: (← generaImagenes dibuja result fs (i + 1))
    else generaImagenes dibuja result fs i

end Fails

end ServiciosRed.Hosts
