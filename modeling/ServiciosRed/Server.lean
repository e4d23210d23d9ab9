import ServiciosRed.Procedures
import ServiciosRed.Statements
import ServiciosRed.Calendar

namespace ServiciosRed.Server

open Text Php MySQL Schema Interleaving Lexer Statements Calendar Procedures

inductive Literal
  | text (s : Texto)
  | int (z : ℤ)
  | real (s : Texto)
  | null
  deriving DecidableEq

section Literals

variable [Engine]

def withoutZeros (s : Texto) : Texto :=
  match s.dropWhile (· = '0') with
  | [] => ['0']
  | s => s

/-- The text that a decimal number has as a string, with all its decimals. -/
def decimalText (s : Texto) : Texto :=
  let f := readFraction (s.dropWhile Char.isDigit)
  withoutZeros (s.takeWhile Char.isDigit) ++ if f.1 = [] then [] else '.' :: f.1

def numberLiteral (negative : Bool) (s : Texto) : Literal :=
  let sign := if negative then ['-'] else []
  if s.all Char.isDigit then .int (signed negative (valueOf s))
  else if s.any isExponentMark then .real (Engine.doubleText (sign ++ s))
  else .real (sign ++ decimalText s)

def literalOf : List Token → Option Literal
  | [.str s] => some (.text s)
  | [.number s] => some (numberLiteral false s)
  | [.symbol '+', .number s] => some (numberLiteral false s)
  | [.symbol '-', .number s] => some (numberLiteral true s)
  | [.word s] => if s.map Char.toUpper = "NULL".toList then some .null else none
  | _ => none

end Literals

section Types

/-- Blanks in excess of the length of a column are dropped, other characters are refused. -/
def fit (n : ℕ) (s : Texto) : Option (Varchar n) :=
  if (s.drop n).all (· = ' ') then some ⟨s.take n, List.length_take_le n s⟩ else none

def varchar (n : ℕ) : Literal → Option (Option (Varchar n))
  | .null => some none
  | .text s | .real s => (fit n s).map some
  | .int z => (fit n (intText z)).map some

def varcharNotNull (n : ℕ) (l : Literal) : Option (Varchar n) := (varchar n l).join

def readInt (s : Texto) : Option ℤ :=
  let t := readSign (Filters.trimmed s)
  if t.2 ≠ [] ∧ t.2.all Char.isDigit then some (signed t.1 (valueOf t.2)) else none

def toSmallint (z : ℤ) : Option Smallint :=
  if h : -32768 ≤ z ∧ z ≤ 32767 then some ⟨z, h⟩ else none

def smallint : Literal → Option Smallint
  | .int z => toSmallint z
  | .text s => (readInt s).bind toSmallint
  | _ => none

def named {α : Type} (members : List (String × α)) (s : Texto) : Option α :=
  (members.find? fun m ↦ m.1.toList = s).map Prod.snd

/-- A member of an enumeration, or the number of one. -/
def enum {α : Type} (members : List (String × α)) : Literal → Option α
  | .text s =>
    (named members s).orElse fun _ ↦
      match readInt s with
      | some (.ofNat (i + 1)) => members[i]?.map Prod.snd
      | _ => none
  | _ => none

def bandera : Literal → Option Bandera := enum Bandera.miembros

def tipoDispositivo : Literal → Option TipoDispositivo := enum TipoDispositivo.miembros

def versionSNMP : Literal → Option VersionSNMP := enum VersionSNMP.miembros

def campoMonitorizacion : Literal → Option CampoMonitorizacion := enum CampoMonitorizacion.miembros

def tipoValorAnticipacion : Literal → Option TipoValorAnticipacion :=
  enum TipoValorAnticipacion.miembros

def fecha : Literal → Option Fecha
  | .text s =>
    match readDate s with
    | some (d, []) =>
      if h : -354285 ≤ d.dayNumber ∧ d.dayNumber ≤ 2932896 then some ⟨d.dayNumber, h⟩ else none
    | _ => none
  | _ => none

def readDateTime (s : Texto) : Option ℤ := do
  let (d, s) ← readDate s
  let s ← readChar ' ' s
  let (n, s) ← readClock s
  if s = [] then some (86400 * d.dayNumber + n) else none

def toMarca (z : ℤ) : Option Marca := if h : 1 ≤ z ∧ z ≤ 2147483647 then some ⟨z, h⟩ else none

def marca : Literal → Option Marca
  | .text s => (readDateTime s).bind toMarca
  | _ => none

def lineaFila (l : LineaBase Literal Literal Literal) : Option LineaFila :=
  l.mapOption (varchar 3) (varchar 4) (varchar 5)

end Types

inductive Procedimiento
  | insertarDispositivo | actualizarDispositivo | eliminarDispositivo
  | insertarAdministrador | actualizarAdministrador | eliminarAdministrador
  | insertarPermisosAdministracion | actualizarPermisosAdministracion
  | eliminarPermisosAdministracion
  | insertarRestriccion | actualizarRestriccion | eliminarRestriccion
  | insertarBitacoraSucesos | eliminarBitacoraSucesos
  deriving DecidableEq

def Procedimiento.nombre : Procedimiento → String
  | insertarDispositivo => "insertarDispositivo"
  | actualizarDispositivo => "actualizarDispositivo"
  | eliminarDispositivo => "eliminarDispositivo"
  | insertarAdministrador => "insertarAdministrador"
  | actualizarAdministrador => "actualizarAdministrador"
  | eliminarAdministrador => "eliminarAdministrador"
  | insertarPermisosAdministracion => "insertarPermisosAdministracion"
  | actualizarPermisosAdministracion => "actualizarPermisosAdministracion"
  | eliminarPermisosAdministracion => "eliminarPermisosAdministracion"
  | insertarRestriccion => "insertarRestriccion"
  | actualizarRestriccion => "actualizarRestriccion"
  | eliminarRestriccion => "eliminarRestriccion"
  | insertarBitacoraSucesos => "insertarBitacoraSucesos"
  | eliminarBitacoraSucesos => "eliminarBitacoraSucesos"

/-- `"CALL p (" . $a . "," . $b . ")"` -/
def call (p : Procedimiento) (args : List Arg) (fin : String) : Statement where
  head := "CALL ".toList ++ (p.nombre.toList ++ " (".toList)
  parts := args.dropLast.map (fun a ↦ (a, [','])) ++
    args.getLast?.toList.map (fun a ↦ (a, fin.toList))

/-- `"SELECT * FROM t WHERE c = " . $a . " AND d = " . $b . ";"` -/
def select (table : String) : List (String × Arg) → Statement
  | [] => ⟨("SELECT * FROM " ++ table ++ ";").toList, []⟩
  | (c, a) :: l => ⟨("SELECT * FROM " ++ table ++ " WHERE " ++ c ++ " = ").toList, conditions a l⟩
where
  conditions (a : Arg) : List (String × Arg) → List (Arg × Texto)
    | [] => [(a, [';'])]
    | (d, b) :: l => (a, (" AND " ++ d ++ " = ").toList) :: conditions b l

section Calls

variable [Engine]

/-- A call binds every argument to the type of its parameter, or is refused. -/
def invoke : Procedimiento → List Literal → Option (List (Step BD))
  | .insertarDispositivo,
    [ip, f, monit, tipo, ver, com, ruta, min_cpu, max_cpu, avg_cpu, min_ram, max_ram, avg_ram,
      min_hdd, max_hdd, avg_hdd, min_temp, max_temp, avg_temp, min_volt, max_volt, avg_volt,
      ping_promedio] => do
    return insertarDispositivo (← varcharNotNull 18 ip) (← fecha f) (← bandera monit)
      (← tipoDispositivo tipo)
      (← versionSNMP ver) (← varcharNotNull 64 com) (← varcharNotNull 255 ruta)
      (← lineaFila ⟨min_cpu, max_cpu, avg_cpu, min_ram, max_ram, avg_ram, min_hdd, max_hdd, avg_hdd,
        min_temp, max_temp, avg_temp, min_volt, max_volt, avg_volt, ping_promedio⟩)
  | .actualizarDispositivo, [ip, monit, tipo, ver, com, min_cpu, max_cpu, avg_cpu, min_ram, max_ram,
      avg_ram, min_hdd, max_hdd, avg_hdd, min_temp, max_temp, avg_temp, min_volt,
      max_volt, avg_volt,
      ping_promedio] => do
    return actualizarDispositivo (← varcharNotNull 18 ip) (← bandera monit) (← tipoDispositivo tipo)
      (← versionSNMP ver) (← varcharNotNull 64 com)
      (← lineaFila ⟨min_cpu, max_cpu, avg_cpu, min_ram, max_ram, avg_ram, min_hdd, max_hdd, avg_hdd,
        min_temp, max_temp, avg_temp, min_volt, max_volt, avg_volt, ping_promedio⟩)
  | .eliminarDispositivo, [ip] => do return eliminarDispositivo (← varcharNotNull 18 ip)
  | .insertarAdministrador, [l, d, pass, f, logueo] => do
    return insertarAdministrador (← varcharNotNull 255 l) (← varcharNotNull 64 d)
      (← varcharNotNull 32 pass)
      (← fecha f) (← bandera logueo)
  | .actualizarAdministrador, [l, d, pass, logueo] => do
    return actualizarAdministrador (← varcharNotNull 255 l) (← varcharNotNull 64 d)
      (← varcharNotNull 32 pass) (← bandera logueo)
  | .eliminarAdministrador, [l, d] => do
    return eliminarAdministrador (← varcharNotNull 255 l) (← varcharNotNull 64 d)
  | .insertarPermisosAdministracion, [l, d, ip, permiso] => do
    return insertarPermisosAdministracion (← varcharNotNull 18 ip) (← varcharNotNull 255 l)
      (← varcharNotNull 64 d) (← bandera permiso)
  | .actualizarPermisosAdministracion, [l, d, ip, permiso] => do
    return actualizarPermisosAdministracion (← varcharNotNull 18 ip) (← varcharNotNull 255 l)
      (← varcharNotNull 64 d) (← bandera permiso)
  | .eliminarPermisosAdministracion, [l, d, ip] => do
    return eliminarPermisosAdministracion (← varcharNotNull 18 ip) (← varcharNotNull 255 l)
      (← varcharNotNull 64 d)
  | .insertarRestriccion, [ip, campo, valor, tipo, alerta] => do
    return insertarRestriccion (← varcharNotNull 18 ip) (← campoMonitorizacion campo)
      (← smallint valor)
      (← tipoValorAnticipacion tipo) (← bandera alerta)
  | .actualizarRestriccion, [ip, campo, valor, tipo, alerta] => do
    return actualizarRestriccion (← varcharNotNull 18 ip) (← campoMonitorizacion campo)
      (← smallint valor)
      (← tipoValorAnticipacion tipo) (← bandera alerta)
  | .eliminarRestriccion, [ip, campo, valor, tipo] => do
    return eliminarRestriccion (← varcharNotNull 18 ip) (← campoMonitorizacion campo)
      (← smallint valor)
      (← tipoValorAnticipacion tipo)
  | .insertarBitacoraSucesos, [ip, campo, valor, tipo, suceso, prediccion, captura] => do
    return insertarBitacoraSucesos (← varcharNotNull 18 ip) (← campoMonitorizacion campo)
      (← smallint valor) (← tipoValorAnticipacion tipo) (← marca suceso) (← marca prediccion)
      (← varcharNotNull 4 captura)
  | .eliminarBitacoraSucesos, [ip, campo, valor, tipo, suceso, prediccion] => do
    return eliminarBitacoraSucesos (← varcharNotNull 18 ip) (← campoMonitorizacion campo)
      (← smallint valor) (← tipoValorAnticipacion tipo) (← marca suceso) (← marca prediccion)
  | _, _ => none

def literal : Arg → Option Literal
  | .quoted v => some (.text v)
  | .bare v => literalOf (bareTokens v)

def rechazada : List (Step BD) := [fun _ ↦ none]

def ejecuta (p : Procedimiento) (args : List Arg) : List (Step BD) :=
  ((args.mapM literal).bind (invoke p)).getD rechazada

end Calls

section Checks

variable [Engine]

/-- The condition of a SELECT names a key of the table, or matches no row. -/
def Finds {ρ κ : Type} [DecidableEq ρ] [DecidableEq κ] {key : ρ → κ} (T : Relational.Table key) :
    Option κ → Prop
  | none => False
  | some k => T.Has k

instance {ρ κ : Type} [DecidableEq ρ] [DecidableEq κ] {key : ρ → κ} (T : Relational.Table key) :
    (k : Option κ) → Decidable (Finds T k)
  | none => inferInstanceAs (Decidable False)
  | some k => inferInstanceAs (Decidable (T.Has k))

def claveAdministrador (l d : Texto) : ClaveAdministrador := (sortKey l, sortKey d)

def clavePermiso (l d ip : Texto) : ClavePermiso := (claveAdministrador l d, sortKey ip)

def claveRestriccion (ip campo valor tipo : Texto) : Option ClaveRestriccion :=
  match named CampoMonitorizacion.miembros campo, literal (.bare valor),
    named TipoValorAnticipacion.miembros tipo with
  | some c, some (.int z), some t => some (sortKey ip, c, z, t)
  | _, _, _ => none

def claveSuceso (restriccion : Option ClaveRestriccion) (suceso prediccion : Texto) :
    Option ClaveSuceso :=
  match restriccion, readDateTime suceso, readDateTime prediccion with
  | some k, some s, some p => some (k, s, p)
  | _, _, _ => none

def existeDispositivo (ip : Texto) : Step BD := guard fun bd ↦ bd.dispositivo.Has (sortKey ip)

def noExisteDispositivo (ip : Texto) : Step BD := guard fun bd ↦ ¬ bd.dispositivo.Has (sortKey ip)

def existeAdministrador (l d : Texto) : Step BD :=
  guard fun bd ↦ bd.administrador.Has (claveAdministrador l d)

def noExisteAdministrador (l d : Texto) : Step BD :=
  guard fun bd ↦ ¬ bd.administrador.Has (claveAdministrador l d)

def existePermiso (l d ip : Texto) : Step BD :=
  guard fun bd ↦ bd.permisosAdministracion.Has (clavePermiso l d ip)

def existeRestriccion (k : Option ClaveRestriccion) : Step BD :=
  guard fun bd ↦ Finds bd.restricciones k

def noExisteRestriccion (k : Option ClaveRestriccion) : Step BD :=
  guard fun bd ↦ ¬ Finds bd.restricciones k

def existeSuceso (k : Option ClaveSuceso) : Step BD := guard fun bd ↦ Finds bd.bitacoraSucesos k

end Checks

end ServiciosRed.Server
