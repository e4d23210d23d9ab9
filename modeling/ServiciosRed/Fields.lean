import ServiciosRed.Server
import ServiciosRed.Filters
import ServiciosRed.Calendar

namespace ServiciosRed.Fields

open Text Php Filters Regex Schema

/-- The strings that the constructors compare `$oper` with. -/
inductive Operacion
  | insertar | actualizar | eliminar | otra
  deriving DecidableEq

def Operacion.of (oper : Valor) : Operacion :=
  if oper = some "insertar".toList then insertar
  else if oper = some "actualizar".toList then actualizar
  else if oper = some "eliminar".toList then eliminar
  else otra

/-- The columns of `$arregloErrores`: the code of a column that is valid, else NULL. -/
abbrev ArregloErrores := List (String × Option ℕ)

def columna (nombre : String) (valida : Bool) (codigo : ℕ) : String × Option ℕ :=
  (nombre, if valida then some codigo else none)

def contadorNulos (a : ArregloErrores) : ℕ := a.countP fun e ↦ e.2.isNone

def columnaValida (a : ArregloErrores) (nombre : String) : Bool := (a.lookup nombre).join.isSome

theorem isNone_columna {nombre : String} {valida : Bool} {codigo : ℕ} :
    (columna nombre valida codigo).2.isNone = !valida := by
  cases valida <;> rfl

section Direccion

/-- `explode("/", $dirIP)[0]` -/
def ipDe (dirIP : Valor) : Texto := (explode '/' (strval dirIP)).headD []

/-- `(int) explode("/", $dirIP)[1]` -/
def mskDe (dirIP : Valor) : ℤ := intval ((explode '/' (strval dirIP))[1]?.getD [])

def direccionValida (ip : Texto) (msk : ℤ) : Bool :=
  validIp ip && (validInt (some (intText msk)) && 0 ≤ msk && msk ≤ 32)

end Direccion

section Email

/-- `explode("@", $email)[0]` -/
def localDe (email : Valor) : Texto := (explode '@' (strval email)).headD []

/-- `explode("@", $email)[1]` -/
def dominioDe (email : Valor) : Texto := (explode '@' (strval email))[1]?.getD []

def emailValido (l d : Texto) : Bool := validEmail (l ++ '@' :: d)

end Email

section Expresiones

def digit : Regex := char Char.isDigit

/-- `/(\d{4})-(\d{2})-(\d{2})/` -/
def expresionRegularFecha : Regex :=
  seq (rep 4 digit) (seq (char (· = '-')) (seq (rep 2 digit) (seq (char (· = '-')) (rep 2 digit))))

/-- `/(\d{4})-(\d{2})-(\d{2}) (\d{2}):(\d{2}):(\d{2})/` -/
def expresionRegularTimeStamp : Regex :=
  seq expresionRegularFecha (seq (char (· = ' ')) (seq (rep 2 digit)
    (seq (char (· = ':')) (seq (rep 2 digit) (seq (char (· = ':')) (rep 2 digit))))))

/-- `/^[a-f0-9]{32}$/i` -/
def expresionRegularMd5 : Regex :=
  seq (rep 32 (char isHex)) (seq (opt (char (· = '\n'))) stop)

end Expresiones

def enteroONulo (v : Valor) : Bool := (positive v && validInt v) || v = some "NULL".toList

def flotanteONulo (v : Valor) : Bool := (positive v && validFloat v) || v = some "NULL".toList

def opcionesBandera : List String := ["0", "1"]

def camposMonitorizacion : List String :=
  ["min_cpu", "max_cpu", "min_ram", "max_ram", "min_hdd", "max_hdd", "min_temp",
    "max_temp", "min_volt", "max_volt"]

def tiposValorMonitorizacion : List String := ["seg", "min", "hor", "dia", "sem", "mes"]

end ServiciosRed.Fields
