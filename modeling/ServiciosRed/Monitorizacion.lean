import ServiciosRed.Php
import ServiciosRed.Regex
import Mathlib.Algebra.Order.Field.Rat
import Mathlib.Tactic.Linarith
import Mathlib.Tactic.FieldSimp
import Mathlib.Tactic.Ring

namespace ServiciosRed

open Text Php

/-- What a command gives back: its exit status and the lines of its output. -/
structure Resultado where
  estado : ℕ
  salida : List Texto
  deriving DecidableEq

namespace Monitorizacion

structure Fila where
  direccionIP : Texto
  versionSNMP : Texto
  comunidadSNMP : Texto
  deriving DecidableEq

/-- A measure is `'u'` while it is unknown. -/
abbrev Medida := Option ℚ

structure Dispositivo where
  direccionIP : Texto
  versionSNMP : Texto
  comunidadSNMP : Texto
  ping_promedio : Medida
  cpu : Medida
  ram : Medida
  hdd : Medida
  temp : Medida
  volt : Medida
  deriving DecidableEq

def Fila.dispositivo (f : Fila) : Dispositivo :=
  ⟨f.direccionIP, f.versionSNMP, f.comunidadSNMP, none, none, none, none, none, none⟩

structure Sondeo where
  ping : Resultado
  health : Resultado
  sensors : Resultado
  deriving DecidableEq

inductive Orden
  | ping (ip : Texto)
  | snmpwalk (version comunidad ip oid archivo : Texto)
  | rm (archivo : Texto)
  | upRRD (direccionIP : Texto) (cpu ram hdd temp volt ping_promedio : Medida)
  | predicciones (direccionIP : Texto)
  deriving DecidableEq

/-- The files of the working directory, the commands so far and the number of
divisions by zero that PHP has warned of. -/
structure Entorno where
  archivos : Texto → Option (List Texto)
  ordenes : List Orden
  avisos : ℕ

namespace Entorno

def manda (o : Orden) (e : Entorno) : Entorno := { e with ordenes := e.ordenes ++ [o] }

def escribe (archivo : Texto) (lineas : List Texto) (e : Entorno) : Entorno :=
  { e with archivos := Function.update e.archivos archivo (some lineas) }

def borra (archivo : Texto) (e : Entorno) : Entorno :=
  { e with archivos := Function.update e.archivos archivo none }

def lee (archivo : Texto) (e : Entorno) : List Texto := (e.archivos archivo).getD []

end Entorno

section Ping

/-- `$arreglo[count($arreglo) - $k]` -/
def desdeElFinal (arreglo : List Texto) (k : ℕ) : Texto :=
  if k ≤ arreglo.length then (arreglo[arreglo.length - k]?).getD [] else []

/-- `(float) $s`, without the rounding of doubles -/
def floatval (s : Texto) : ℚ :=
  match readNumeral (s.dropWhile isSpace) with
  | some (x, _) => (if x.negative then -1 else 1) * x.numerator / x.denominator
  | none => 0

def ipDe (d : Dispositivo) : Texto := (explode '/' d.direccionIP).headD []

def obtenerPing (r : Resultado) (d : Dispositivo) (e : Entorno) : Dispositivo × Entorno :=
  let tiemposPING := explode '/' (desdeElFinal r.salida 1)
  (if r.estado = 0 then { d with ping_promedio := some (floatval (desdeElFinal tiemposPING 3)) }
    else d,
    e.manda (.ping (ipDe d)))

end Ping

section SNMP

inductive Objeto
  | ssCpuRawUser | ssCpuRawNice | ssCpuRawSystem | ssCpuRawIdle | ssCpuRawWait | ssCpuRawKernel
  | ssCpuRawInterrupt | memAvailReal | memTotalReal | dskUsed | dskTotal
  | tempertureSensorValue | voltageSensorValue
  deriving DecidableEq

def Objeto.oid : Objeto → String
  | ssCpuRawUser => "iso.3.6.1.4.1.2021.11.50"
  | ssCpuRawNice => "iso.3.6.1.4.1.2021.11.51"
  | ssCpuRawSystem => "iso.3.6.1.4.1.2021.11.52"
  | ssCpuRawIdle => "iso.3.6.1.4.1.2021.11.53"
  | ssCpuRawWait => "iso.3.6.1.4.1.2021.11.54"
  | ssCpuRawKernel => "iso.3.6.1.4.1.2021.11.55"
  | ssCpuRawInterrupt => "iso.3.6.1.4.1.2021.11.56"
  | memAvailReal => "iso.3.6.1.4.1.2021.4.6"
  | memTotalReal => "iso.3.6.1.4.1.2021.4.5"
  | dskUsed => "iso.3.6.1.4.1.2021.9.1.8.1"
  | dskTotal => "iso.3.6.1.4.1.2021.9.1.6.1"
  | tempertureSensorValue => "iso.3.6.1.4.1.2620.1.6.7.8.1.1.3"
  | voltageSensorValue => "iso.3.6.1.4.1.2620.1.6.7.8.3.1.3"

def Objeto.nombre : Objeto → String
  | ssCpuRawUser => "ssCpuRawUser"
  | ssCpuRawNice => "ssCpuRawNice"
  | ssCpuRawSystem => "ssCpuRawSystem"
  | ssCpuRawIdle => "ssCpuRawIdle"
  | ssCpuRawWait => "ssCpuRawWait"
  | ssCpuRawKernel => "ssCpuRawKernel"
  | ssCpuRawInterrupt => "ssCpuRawInterrupt"
  | memAvailReal => "memAvailReal"
  | memTotalReal => "memTotalReal"
  | dskUsed => "dskUsed"
  | dskTotal => "dskTotal"
  | tempertureSensorValue => "tempertureSensorValue"
  | voltageSensorValue => "voltageSensorValue"

/-- A text as a regular expression of awk, where a dot stands for any character. -/
def patron (s : String) : Regex :=
  s.toList.foldr (fun c r ↦ .seq (.char fun d ↦ c = '.' || d = c) r) .eps

def campos (linea : Texto) : List Texto :=
  (linea.splitOnP fun c ↦ c = ' ' || c = '\t').filter (· ≠ [])

/-- `awk '/oid/||/nombre/{ print $4 }'` -/
def awk (o : Objeto) (lineas : List Texto) : List Texto :=
  (lineas.filter fun l ↦ (patron o.oid).matchesIn l || (patron o.nombre).matchesIn l).map
    fun l ↦ ((campos l)[3]?).getD []

def obtenerValor (arreglo : List Texto) : Option ℤ :=
  match arreglo with
  | [] | [] :: _ => none
  | s :: _ => some (intval s)

def valor (o : Objeto) (lineas : List Texto) : Option ℤ := obtenerValor (awk o lineas)

variable (lineas : List Texto)

def contadores : List Objeto :=
  [.ssCpuRawUser, .ssCpuRawNice, .ssCpuRawSystem, .ssCpuRawIdle, .ssCpuRawWait, .ssCpuRawKernel,
    .ssCpuRawInterrupt]

/-- A missing counter is taken as zero. -/
def contador (o : Objeto) : ℤ := (valor o lineas).getD 0

def totalTicks : ℤ := (contadores.map fun o ↦ contador lineas o).sum

/-- The quotients are taken exactly, without the rounding of doubles. -/
def cpu (d : Dispositivo) : Medida :=
  if totalTicks lineas ≠ 0 ∧ contador lineas .ssCpuRawIdle ≠ 0 then
    some ((contador lineas .ssCpuRawIdle / totalTicks lineas : ℚ) * 100)
  else d.cpu

def ram (d : Dispositivo) : Medida :=
  match valor .memTotalReal lineas, valor .memAvailReal lineas with
  | some memTotalReal, some memAvailReal =>
    if memTotalReal ≠ 0 then some ((100 * (memTotalReal - memAvailReal)).tdiv memTotalReal : ℤ)
    else d.ram
  | _, _ => d.ram

/-- The division by zero gives a value that `(int)` turns into zero. -/
def hdd (d : Dispositivo) : Medida × ℕ :=
  match valor .dskTotal lineas, valor .dskUsed lineas with
  | some dskTotal, some dskUsed =>
    if dskTotal = 0 then (some ((100 * dskUsed).tdiv dskTotal : ℤ), 1) else (d.hdd, 0)
  | _, _ => (d.hdd, 0)

end SNMP

section Matching

def encaja : Texto → Texto → Bool
  | [], _ => true
  | _ :: _, [] => false
  | p :: ps, c :: t => (p = '.' || c = p) && encaja ps t

def aparece (p t : Texto) : Bool := t.tails.any (encaja p)

theorem rests_patron (p t : Texto) :
    (¬ ((p.foldr (fun c r ↦ Regex.seq (.char fun d ↦ c = '.' || d = c) r) .eps).rests
      [t]).isEmpty) = encaja p t := by
  induction p generalizing t with
  | nil => simp [Regex.rests, encaja]
  | cons p ps ih =>
    cases t with
    | nil => simp [Regex.rests, Regex.rests_nil, encaja]
    | cons c t =>
      rw [encaja, List.foldr_cons, Regex.rests]
      by_cases h : (p = '.' || c = p) = true
      · have hstep : (Regex.char fun d ↦ p = '.' || d = p).rests [c :: t] = [t] := by
          simp only [Regex.rests, List.filterMap_cons, List.filterMap_nil, if_pos h]
        rw [hstep, h, Bool.true_and]
        exact ih t
      · have hstep : (Regex.char fun d ↦ p = '.' || d = p).rests [c :: t] = [] := by
          simp only [Regex.rests, List.filterMap_cons, List.filterMap_nil, if_neg h]
        rw [hstep, Regex.rests_nil]
        simp [h]

theorem matchesIn_patron (s : String) (t : Texto) :
    (patron s).matchesIn t = aparece s.toList t := by
  rw [aparece, Regex.matchesIn]
  congr 1
  funext u
  have h := rests_patron s.toList u
  rw [Bool.eq_iff_iff, decide_eq_true_iff]
  exact iff_of_eq h

/-- What is read from an answer, without the regular expressions. -/
theorem valor_eq (o : Objeto) (lineas : List Texto) :
    valor o lineas =
      obtenerValor ((lineas.filter fun l ↦ aparece o.oid.toList l || aparece o.nombre.toList l).map
      fun l ↦ ((campos l)[3]?).getD []) := by
  rw [valor, awk]
  simp only [matchesIn_patron]

end Matching

section Estado

def medida (v : Option ℤ) : Medida := v.map Int.cast

def salud (archivo : Texto) (d : Dispositivo) (e : Entorno) : Dispositivo × Entorno :=
  let lineas := e.lee archivo
  ({ d with cpu := cpu lineas d, ram := ram lineas d, hdd := (hdd lineas d).1 },
    ({ e with avisos := e.avisos + (hdd lineas d).2 }.borra archivo).manda (.rm archivo))

def sensores (archivo : Texto) (d : Dispositivo) (e : Entorno) : Dispositivo × Entorno :=
  let lineas := e.lee archivo
  ({ d with temp := medida (valor .tempertureSensorValue lineas),
            volt := medida (valor .voltageSensorValue lineas) },
    (e.borra archivo).manda (.rm archivo))

def snmp_health (ip : Texto) : Texto := "snmp_health_".toList ++ ip

def snmp_sensors (ip : Texto) : Texto := "snmp_sensors_".toList ++ ip

def version (d : Dispositivo) : Texto :=
  if d.versionSNMP = ['2'] then "2c".toList else d.versionSNMP

/-- `snmpwalk -v .. -c .. ip oid > archivo` -/
def snmpwalk (oid : String) (archivo : Texto) (r : Resultado) (d : Dispositivo) (e : Entorno) :
    Entorno :=
  (e.escribe archivo r.salida).manda
    (.snmpwalk (version d) d.comunidadSNMP (ipDe d) oid.toList archivo)

def obtenerSNMP (s : Sondeo) (d : Dispositivo) (e : Entorno) : Dispositivo × Entorno :=
  let ip := ipDe d
  let e := snmpwalk "1.3.6.1.4.1.2021" (snmp_health ip) s.health d e
  let e := snmpwalk "1.3.6.1.4.1.2620" (snmp_sensors ip) s.sensors d e
  let t := if s.health.estado = 0 then salud (snmp_health ip) d e else (d, e)
  if s.sensors.estado = 0 then sensores (snmp_sensors ip) t.1 t.2 else t

def actualizarRRD (d : Dispositivo) (e : Entorno) : Entorno :=
  e.manda (.upRRD d.direccionIP d.cpu d.ram d.hdd d.temp d.volt d.ping_promedio)

def prediccionRRD (d : Dispositivo) (e : Entorno) : Entorno := e.manda (.predicciones d.direccionIP)

def turno (s : Sondeo) (d : Dispositivo) (e : Entorno) : Entorno :=
  let t := obtenerPing s.ping d e
  let t := obtenerSNMP s t.1 t.2
  prediccionRRD t.1 (actualizarRRD t.1 t.2)

def turnos (o : ℕ → Sondeo) : ℕ → List Dispositivo → Entorno → Entorno
  | _, [], e => e
  | i, d :: ds, e => turnos o (i + 1) ds (turno (o i) d e)

def construct (filas : List Fila) (o : ℕ → Sondeo) (archivos : Texto → Option (List Texto)) :
    Entorno :=
  turnos o 0 (filas.map Fila.dispositivo) ⟨archivos, [], 0⟩

end Estado

section Independencia

variable {s : Sondeo} {d : Dispositivo} {e : Entorno} {archivo otro : Texto} {lineas : List Texto}

def Orden.esUpRRD : Orden → Bool
  | .upRRD _ _ _ _ _ _ _ => true
  | _ => false

def upRRDs (e : Entorno) : List Orden := e.ordenes.filter Orden.esUpRRD

def conPing (r : Resultado) (d : Dispositivo) : Dispositivo :=
  if r.estado = 0 then
    { d with
      ping_promedio := some (floatval (desdeElFinal (explode '/' (desdeElFinal r.salida 1)) 3)) }
  else d

def conSalud (r : Resultado) (d : Dispositivo) : Dispositivo :=
  if r.estado = 0 then
    { d with cpu := cpu r.salida d, ram := ram r.salida d, hdd := (hdd r.salida d).1 }
  else d

def conSensores (r : Resultado) (d : Dispositivo) : Dispositivo :=
  if r.estado = 0 then
    { d with
      temp := medida (valor .tempertureSensorValue r.salida),
      volt := medida (valor .voltageSensorValue r.salida) }
  else d

/-- What a device comes to by its own probes. -/
def lecturas (s : Sondeo) (d : Dispositivo) : Dispositivo :=
  conSensores s.sensors (conSalud s.health (conPing s.ping d))

def muestra (s : Sondeo) (d : Dispositivo) : Orden :=
  .upRRD d.direccionIP (lecturas s d).cpu (lecturas s d).ram (lecturas s d).hdd (lecturas s d).temp
    (lecturas s d).volt
    (lecturas s d).ping_promedio

theorem upRRDs_manda (o : Orden) :
    upRRDs (e.manda o) = upRRDs e ++ if o.esUpRRD then [o] else [] := by
  rw [upRRDs, Entorno.manda, List.filter_append]
  cases h : o.esUpRRD <;> simp [h, upRRDs]

theorem lee_escribe : (e.escribe archivo lineas).lee archivo = lineas := by
  simp only [Entorno.lee, Entorno.escribe, Function.update_self, Option.getD_some]

theorem lee_escribe_of_ne (h : archivo ≠ otro) :
    (e.escribe otro lineas).lee archivo = e.lee archivo := by
  simp only [Entorno.lee, Entorno.escribe, Function.update_of_ne h]

theorem lee_borra_of_ne (h : archivo ≠ otro) : (e.borra otro).lee archivo = e.lee archivo := by
  simp only [Entorno.lee, Entorno.borra, Function.update_of_ne h]

theorem snmpwalk_spec (oid : String) (archivo : Texto) (r : Resultado) (d : Dispositivo)
    (e : Entorno) :
    upRRDs (snmpwalk oid archivo r d e) = upRRDs e ∧
      (snmpwalk oid archivo r d e).avisos = e.avisos ∧
      (snmpwalk oid archivo r d e).lee archivo = r.salida ∧
      ∀ otro, otro ≠ archivo → (snmpwalk oid archivo r d e).lee otro = e.lee otro := by
  refine ⟨?_, rfl, lee_escribe, fun otro h ↦ lee_escribe_of_ne h⟩
  rw [snmpwalk, upRRDs_manda]
  exact List.append_nil _

theorem salud_spec (archivo : Texto) (d : Dispositivo) (e : Entorno) :
    upRRDs (salud archivo d e).2 = upRRDs e ∧
      (salud archivo d e).2.avisos = e.avisos + (hdd (e.lee archivo) d).2 ∧
      (∀ otro, otro ≠ archivo → (salud archivo d e).2.lee otro = e.lee otro) ∧
      (salud archivo d e).1 = conSalud ⟨0, e.lee archivo⟩ d := by
  refine ⟨?_, rfl, fun otro h ↦ lee_borra_of_ne h, ?_⟩
  · rw [salud, upRRDs_manda]
    exact List.append_nil _
  · simp only [salud, conSalud, if_true]

theorem sensores_spec (archivo : Texto) (d : Dispositivo) (e : Entorno) :
    upRRDs (sensores archivo d e).2 = upRRDs e ∧ (sensores archivo d e).2.avisos = e.avisos ∧
      (sensores archivo d e).1 = conSensores ⟨0, e.lee archivo⟩ d := by
  refine ⟨?_, rfl, ?_⟩
  · rw [sensores, upRRDs_manda]
    exact List.append_nil _
  · simp only [sensores, conSensores, if_true]

theorem snmp_sensors_ne_health (ip : Texto) : snmp_sensors ip ≠ snmp_health ip := fun h ↦
  absurd (List.append_cancel_right h) (by decide)

def avisosDe (r : Resultado) (d : Dispositivo) : ℕ := if r.estado = 0 then (hdd r.salida d).2 else 0

/-- A file is only read after the probe of the same turn has written it anew. -/
theorem obtenerSNMP_spec (s : Sondeo) (d : Dispositivo) (e : Entorno) :
    upRRDs (obtenerSNMP s d e).2 = upRRDs e ∧
      (obtenerSNMP s d e).2.avisos = e.avisos + avisosDe s.health d ∧
      (obtenerSNMP s d e).1 = conSensores s.sensors (conSalud s.health d) := by
  have hne := snmp_sensors_ne_health (ipDe d)
  dsimp only [obtenerSNMP]
  generalize snmp_health (ipDe d) = health at hne ⊢
  generalize snmp_sensors (ipDe d) = sensors at hne ⊢
  obtain ⟨hordenes, havisos, hhealth, -⟩ := snmpwalk_spec "1.3.6.1.4.1.2021" health s.health d e
  generalize snmpwalk "1.3.6.1.4.1.2021" health s.health d e = e₁ at hordenes havisos hhealth ⊢
  obtain ⟨hordenes₂, havisos₂, hsensors, hotros⟩ :=
    snmpwalk_spec "1.3.6.1.4.1.2620" sensors s.sensors d e₁
  generalize snmpwalk "1.3.6.1.4.1.2620" sensors s.sensors d e₁ =
    e₂ at hordenes₂ havisos₂ hsensors hotros ⊢
  have hhealth : e₂.lee health = s.health.salida := (hotros health hne.symm).trans hhealth
  have ht : ∃ t, (if s.health.estado = 0 then salud health d e₂ else (d, e₂)) = t ∧
    upRRDs t.2 = upRRDs e ∧
      t.2.avisos = e.avisos + avisosDe s.health d ∧ t.2.lee sensors = s.sensors.salida ∧
      t.1 = conSalud s.health d := by
    refine ⟨_, rfl, ?_⟩
    obtain ⟨hs, ha, hl, hd⟩ := salud_spec health d e₂
    rw [hhealth] at ha hd
    split_ifs with h
    · refine ⟨hs.trans (hordenes₂.trans hordenes), ?_, (hl sensors hne).trans hsensors, hd.trans ?_⟩
      · rw [ha, havisos₂, havisos, avisosDe, if_pos h]
      · rw [conSalud, conSalud, if_pos rfl, if_pos h]
    · refine ⟨hordenes₂.trans hordenes, ?_, hsensors, (if_neg h).symm⟩
      rw [havisos₂, havisos, avisosDe, if_neg h, Nat.add_zero]
  obtain ⟨t, ht, hs, ha, hl, hd⟩ := ht
  rw [ht]
  obtain ⟨hs', ha', hd'⟩ := sensores_spec sensors t.1 t.2
  split_ifs with h
  · refine ⟨hs'.trans hs, ha'.trans ha, hd'.trans ?_⟩
    rw [hl, hd, conSensores, conSensores, if_pos rfl, if_pos h]
  · exact ⟨hs, ha, hd.trans (if_neg h).symm⟩

theorem direccionIP_lecturas (s : Sondeo) (d : Dispositivo) :
    (lecturas s d).direccionIP = d.direccionIP := by
  unfold lecturas conSensores conSalud conPing
  split_ifs <;> rfl

end Independencia

section Uso

variable {lineas : List Texto} {d : Dispositivo}

def usoCpu (lineas : List Texto) : Medida :=
  if totalTicks lineas = 0 then none
  else some (100 * (totalTicks lineas - contador lineas .ssCpuRawIdle) / totalTicks lineas)

def porcentaje (parte total : Option ℤ) : Medida :=
  match parte, total with
  | some p, some t => if t = 0 then none else some (100 * p / t : ℤ)
  | _, _ => none

def usoRam (lineas : List Texto) : Medida :=
  porcentaje
    ((valor .memTotalReal lineas).bind fun t ↦ (valor .memAvailReal lineas).map fun a ↦ t - a)
    (valor .memTotalReal lineas)

def usoHdd (lineas : List Texto) : Medida :=
  porcentaje (valor .dskUsed lineas) (valor .dskTotal lineas)

structure Respuesta (lineas : List Texto) : Prop where
  noNegativo : ∀ o n, valor o lineas = some n → 0 ≤ n
  mem : ∀ a t, valor .memAvailReal lineas = some a → valor .memTotalReal lineas = some t → a ≤ t
  dsk : ∀ u t, valor .dskUsed lineas = some u → valor .dskTotal lineas = some t → u ≤ t

def EnRango (m : Medida) : Prop := ∀ q ∈ m, 0 ≤ q ∧ q ≤ 100

/-- The three shares are those of the answer, and no division by zero was done. -/
structure UsoCorrecto (lineas : List Texto) (d : Dispositivo) (antes despues : ℕ) : Prop where
  cpu : d.cpu = usoCpu lineas
  ram : d.ram = usoRam lineas
  hdd : d.hdd = usoHdd lineas
  rango : EnRango d.cpu ∧ EnRango d.ram ∧ EnRango d.hdd
  avisos : despues = antes

theorem cpu_eq_iff (hd : d.cpu = none) :
    cpu lineas d = usoCpu lineas ↔ totalTicks lineas = 0 ∨ 2 * contador lineas .ssCpuRawIdle =
      totalTicks lineas := by
  rw [cpu, usoCpu, hd]
  by_cases ht : totalTicks lineas = 0
  · simp [ht]
  · by_cases hi : contador lineas .ssCpuRawIdle = 0
    · simpa [ht, hi] using Ne.symm ht
    · have ht' : (totalTicks lineas : ℚ) ≠ 0 := Int.cast_ne_zero.mpr ht
      simp only [ht, hi, ne_eq, not_false_eq_true, and_self, if_true, if_false, false_or,
        Option.some.injEq]
      constructor
      · intro h
        field_simp at h
        have h : (2 * contador lineas .ssCpuRawIdle : ℚ) = totalTicks lineas := by linarith
        exact_mod_cast h
      · intro h
        have h : (2 * contador lineas .ssCpuRawIdle : ℚ) = totalTicks lineas := by exact_mod_cast h
        rw [← h]
        ring

theorem ram_eq (h : Respuesta lineas) (hd : d.ram = none) : ram lineas d = usoRam lineas := by
  rw [ram, usoRam, hd]
  cases ht : valor .memTotalReal lineas with
  | none => rfl
  | some t =>
    cases ha : valor .memAvailReal lineas with
    | none => rfl
    | some a =>
      have hle : 0 ≤ 100 * (t - a) := by linarith [h.mem a t ha ht]
      simp only [porcentaje, Option.map_some, Option.bind_some, ne_eq, ite_not]
      rw [Int.tdiv_eq_ediv_of_nonneg hle]

theorem hdd_iff (hd : d.hdd = none) :
    ((hdd lineas d).1 = usoHdd lineas ∧ (hdd lineas d).2 = 0) ↔
      valor .dskUsed lineas = none ∨ valor .dskTotal lineas = none := by
  rw [hdd, usoHdd, hd]
  cases hu : valor .dskUsed lineas with
  | none => cases ht : valor .dskTotal lineas <;> simp [porcentaje]
  | some u =>
    cases ht : valor .dskTotal lineas with
    | none => simp [porcentaje]
    | some t => by_cases h0 : t = 0 <;> simp [porcentaje, h0]

section Rango

theorem enRango_none : EnRango none := fun _ h ↦ nomatch h

theorem enRango_porcentaje {p t : Option ℤ} (h : ∀ u ∈ p, ∀ v ∈ t, 0 ≤ u ∧ u ≤ v) :
    EnRango (porcentaje p t) := by
  cases p with
  | none => exact enRango_none
  | some u =>
    cases t with
    | none => exact enRango_none
    | some v =>
      obtain ⟨hu, huv⟩ := h u rfl v rfl
      by_cases hv : v = 0
      · rw [porcentaje, if_pos hv]
        exact enRango_none
      · rw [porcentaje, if_neg hv]
        rintro q ⟨⟩
        have hpos : 0 < v := by omega
        have hlow : 0 ≤ 100 * u / v := Int.ediv_nonneg (by omega) hpos.le
        have hhigh : 100 * u / v ≤ 100 := Int.ediv_le_of_le_mul hpos (by nlinarith)
        exact ⟨by exact_mod_cast hlow, by exact_mod_cast hhigh⟩

theorem contador_nonneg (h : Respuesta lineas) (o : Objeto) : 0 ≤ contador lineas o := by
  rw [contador]
  cases hv : valor o lineas with
  | none => exact le_rfl
  | some n => exact h.noNegativo o n hv

theorem idle_le_totalTicks (h : Respuesta lineas) :
    contador lineas .ssCpuRawIdle ≤ totalTicks lineas := by
  have hn := contador_nonneg h
  simp only [totalTicks, contadores, List.map_cons, List.map_nil, List.sum_cons, List.sum_nil]
  linarith [hn .ssCpuRawUser, hn .ssCpuRawNice, hn .ssCpuRawSystem, hn .ssCpuRawWait,
    hn .ssCpuRawKernel, hn .ssCpuRawInterrupt]

theorem enRango_usoCpu (h : Respuesta lineas) : EnRango (usoCpu lineas) := by
  rw [usoCpu]
  split_ifs with ht
  · exact enRango_none
  · rintro q ⟨⟩
    have hidle : (0 : ℚ) ≤
      contador lineas .ssCpuRawIdle := by exact_mod_cast contador_nonneg h .ssCpuRawIdle
    have hle : (contador lineas .ssCpuRawIdle : ℚ) ≤
      totalTicks lineas := by exact_mod_cast idle_le_totalTicks h
    have hpos : (0 : ℚ) < totalTicks lineas :=
      lt_of_le_of_ne (hidle.trans hle) (Ne.symm (Int.cast_ne_zero.mpr ht))
    constructor
    · exact div_nonneg (by linarith) hpos.le
    · rw [div_le_iff₀ hpos]
      linarith

theorem enRango_usoRam (h : Respuesta lineas) : EnRango (usoRam lineas) := by
  refine enRango_porcentaje (fun u hu v hv ↦ ?_)
  obtain ⟨t, ht, hu⟩ := Option.bind_eq_some_iff.mp hu
  obtain ⟨a, ha, rfl⟩ := Option.map_eq_some_iff.mp hu
  cases ht.symm.trans hv
  have hle := h.mem a v ha hv
  have hnonneg := h.noNegativo .memAvailReal a ha
  omega

theorem enRango_usoHdd (h : Respuesta lineas) : EnRango (usoHdd lineas) :=
  enRango_porcentaje (fun u hu v hv ↦ ⟨h.noNegativo .dskUsed u hu, h.dsk u v hu hv⟩)

end Rango

/-- The three shares come out right exactly when the idle ticks are half of all
of them, or there are none, and one of the two sizes of the disk is missing. -/
theorem obtenerSNMP_uso_iff (f : Fila) (s : Sondeo) (e : Entorno) (hestado : s.health.estado = 0)
    (h : Respuesta s.health.salida) :
    UsoCorrecto s.health.salida (obtenerSNMP s (conPing s.ping f.dispositivo) e).1 e.avisos
        (obtenerSNMP s (conPing s.ping f.dispositivo) e).2.avisos ↔
      (totalTicks s.health.salida = 0 ∨
        2 * contador s.health.salida .ssCpuRawIdle = totalTicks s.health.salida) ∧
      (valor .dskUsed s.health.salida = none ∨ valor .dskTotal s.health.salida = none) := by
  have hfresh : (conPing s.ping f.dispositivo).cpu = none ∧
    (conPing s.ping f.dispositivo).ram = none ∧
      (conPing s.ping f.dispositivo).hdd = none := by
    rw [conPing]
    split_ifs <;> exact ⟨rfl, rfl, rfl⟩
  generalize conPing s.ping f.dispositivo = d at hfresh ⊢
  obtain ⟨hcpu, hram, hhdd⟩ := hfresh
  obtain ⟨-, ha, hd⟩ := obtenerSNMP_spec s d e
  rw [ha, hd, avisosDe, if_pos hestado]
  have hsalud : conSalud s.health d = { d with
      cpu := cpu s.health.salida d, ram := ram s.health.salida d,
      hdd := (hdd s.health.salida d).1 } := if_pos hestado
  have hcampos : (conSensores s.sensors (conSalud s.health d)).cpu = cpu s.health.salida d ∧
      (conSensores s.sensors (conSalud s.health d)).ram = ram s.health.salida d ∧
      (conSensores s.sensors (conSalud s.health d)).hdd = (hdd s.health.salida d).1 := by
    rw [hsalud, conSensores]
    split_ifs <;> exact ⟨rfl, rfl, rfl⟩
  generalize conSensores s.sensors (conSalud s.health d) = r at hcampos ⊢
  obtain ⟨hrcpu, hrram, hrhdd⟩ := hcampos
  rw [← cpu_eq_iff hcpu, ← hdd_iff hhdd]
  constructor
  · intro hr
    exact ⟨hrcpu.symm.trans hr.cpu, hrhdd.symm.trans hr.hdd, Nat.add_eq_left.mp hr.avisos⟩
  · rintro ⟨h1, h2, h3⟩
    have h1 := hrcpu.trans h1
    have h2 := hrhdd.trans h2
    have hr := hrram.trans (ram_eq h hram)
    refine ⟨h1, hr, h2, ⟨?_, ?_, ?_⟩, Nat.add_eq_left.mpr h3⟩
    · rw [h1]
      exact enRango_usoCpu h
    · rw [hr]
      exact enRango_usoRam h
    · rw [h2]
      exact enRango_usoHdd h

section Ejemplo

def respuesta : List Texto :=
  ["iso.3.6.1.4.1.2021.11.50.0 = Counter32: 25", "iso.3.6.1.4.1.2021.11.53.0 = Counter32: 75",
    "iso.3.6.1.4.1.2021.9.1.6.1 = INTEGER: 0", "iso.3.6.1.4.1.2021.9.1.8.1 = INTEGER: 0"].map
      String.toList

def mitad : List Texto :=
  ["iso.3.6.1.4.1.2021.11.50.0 = Counter32: 50", "iso.3.6.1.4.1.2021.11.53.0 = Counter32: 50"].map
    String.toList

def unaFila : Fila := ⟨"10.0.0.1/24".toList, ['2'], "public".toList⟩

def sondeo (lineas : List Texto) : Sondeo := ⟨⟨1, []⟩, ⟨0, lineas⟩, ⟨1, []⟩⟩

def vacio : Entorno := ⟨fun _ ↦ none, [], 0⟩

theorem cpu_sondeo (lineas : List Texto) (d : Dispositivo) :
    (conSensores (sondeo lineas).sensors (conSalud (sondeo lineas).health d)).cpu = cpu lineas d :=
      rfl

theorem avisosDe_sondeo (lineas : List Texto) (d : Dispositivo) :
    avisosDe (sondeo lineas).health d = (hdd lineas d).2 := rfl

theorem valor_mitad (o : Objeto) :
    valor o mitad = if o = .ssCpuRawUser ∨ o = .ssCpuRawIdle then some 50 else none := by
  rw [valor_eq]
  cases o <;> decide

theorem valor_respuesta (o : Objeto) :
    valor o respuesta = if o = .ssCpuRawUser then some 25 else if o = .ssCpuRawIdle then some 75
      else if o = .dskTotal ∨ o = .dskUsed then some 0 else none := by
  rw [valor_eq]
  cases o <;> decide

theorem respuesta_mitad : Respuesta mitad where
  noNegativo o n h := by
    rw [valor_mitad] at h
    split_ifs at h
    cases h
    decide
  mem a t ha := by
    rw [valor_mitad] at ha
    cases ha
  dsk u t hu := by
    rw [valor_mitad] at hu
    cases hu

theorem obtenerSNMP_uso_mitad :
    UsoCorrecto mitad (obtenerSNMP (sondeo mitad) (conPing ⟨1, []⟩ unaFila.dispositivo) vacio).1 0
      (obtenerSNMP (sondeo mitad) (conPing ⟨1, []⟩ unaFila.dispositivo) vacio).2.avisos := by
  have hidle : 2 * contador mitad .ssCpuRawIdle = totalTicks mitad := by
    simp only [totalTicks, contadores, contador, valor_mitad]
    decide
  have hdsk : valor .dskUsed mitad = none := valor_mitad .dskUsed
  have huso (lineas : List Texto) (h : Respuesta lineas) :=
    obtenerSNMP_uso_iff unaFila (sondeo lineas) vacio rfl h
  exact (huso mitad respuesta_mitad).mpr ⟨Or.inr hidle, Or.inl hdsk⟩

theorem respuesta_respuesta : Respuesta respuesta where
  noNegativo o n h := by
    rw [valor_respuesta] at h
    split_ifs at h <;> cases h <;> decide
  mem a t ha := by
    rw [valor_respuesta] at ha
    cases ha
  dsk u t hu ht := by
    rw [valor_respuesta] at hu ht
    cases hu
    cases ht
    exact le_rfl

/-- The idle share is stored for the used one, and the empty disk divides by zero. -/
theorem obtenerSNMP_not_uso :
    Respuesta respuesta ∧
      (obtenerSNMP (sondeo respuesta) (conPing ⟨1, []⟩ unaFila.dispositivo) vacio).1.cpu = some 75 ∧
      usoCpu respuesta = some 25 ∧
      ¬ UsoCorrecto respuesta
        (obtenerSNMP (sondeo respuesta) (conPing ⟨1, []⟩ unaFila.dispositivo) vacio).1 0
        (obtenerSNMP (sondeo respuesta) (conPing ⟨1, []⟩ unaFila.dispositivo) vacio).2.avisos := by
  have hticks : totalTicks respuesta = 100 := by
    simp only [totalTicks, contadores, contador, valor_respuesta]
    decide
  have hidle : contador respuesta .ssCpuRawIdle = 75 := by
    rw [contador, valor_respuesta]
    rfl
  obtain ⟨-, havisos, hd⟩ :=
    obtenerSNMP_spec (sondeo respuesta) (conPing ⟨1, []⟩ unaFila.dispositivo) vacio
  have hdsk : avisosDe (sondeo respuesta).health (conPing ⟨1, []⟩ unaFila.dispositivo) = 1 := by
    have htotal : valor .dskTotal respuesta = some 0 := valor_respuesta .dskTotal
    have hused : valor .dskUsed respuesta = some 0 := valor_respuesta .dskUsed
    rw [avisosDe_sondeo, hdd, htotal, hused]
    rfl
  refine ⟨respuesta_respuesta, ?_, ?_, fun h ↦ ?_⟩
  · rw [hd, cpu_sondeo, cpu, hticks, hidle]
    decide +kernel
  · rw [usoCpu, hticks, hidle]
    decide +kernel
  · rw [havisos, hdsk] at h
    cases h.avisos

end Ejemplo

end Uso

end Monitorizacion

end ServiciosRed
