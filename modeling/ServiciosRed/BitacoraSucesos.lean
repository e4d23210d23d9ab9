import ServiciosRed.Fields

namespace ServiciosRed

open Text Php Filters MySQL Schema Calendar Interleaving Statements Server Fields

structure BitacoraSucesos where
  ip : Texto
  msk : ℤ
  direccionIP : Texto
  campoMonitorizacion : Valor
  valorAnticipacion : Valor
  tipoValorAnticipacion : Valor
  fechaSuceso : Valor
  fechaPrediccion : Valor
  valorCapturado : Valor

namespace BitacoraSucesos

structure Argumentos where
  dirIP : Valor
  campoMon : Valor
  valorAntic : Valor
  tipoValorAntic : Valor
  fechaSuc : Valor
  fechaPred : Valor
  valorCap : Valor
  deriving DecidableEq

/-- The factors of the units of time, as the `switch` multiplies by them. -/
def factores (tipo : Valor) : Option (List ℤ) :=
  [("seg", []), ("min", [60]), ("hor", [60, 60]), ("dia", [60, 60, 24]), ("sem", [60, 60, 24, 7]),
    ("mes", [60, 60, 24, 30])].findSome? fun t ↦ if strval tipo = t.1.toList then some t.2 else none

/-- The step ahead. Under an unknown unit it is not set, which counts as zero. -/
def aumento (valor tipo : Valor) : Numero :=
  match factores tipo with
  | none => .ofInt 0
  | some l => l.foldl (fun x k ↦ x.lift (· * ·) (.ofInt k)) (.ofInt (intval (strval valor)))

/-- `$ahora + $aumento`, where `date` takes it as a time. -/
def despues (ahora : Reloj) (valor tipo : Valor) : Option ℤ :=
  ((Numero.ofInt ahora.segundo).lift (· + ·) (aumento valor tipo)).toInt

/-- The constructor sets the dates of an insertion itself, in UTC as the server reads them. -/
def construct (ahora : Reloj) (oper : Operacion) (a : Argumentos) : BitacoraSucesos where
  ip := ipDe a.dirIP
  msk := mskDe a.dirIP
  direccionIP := strval a.dirIP
  campoMonitorizacion := a.campoMon
  valorAnticipacion := a.valorAntic
  tipoValorAnticipacion := a.tipoValorAntic
  fechaSuceso := if oper = .insertar then some (dateYmdHis ahora.segundo) else a.fechaSuc
  fechaPrediccion :=
    if oper = .insertar then (despues ahora a.valorAntic a.tipoValorAntic).map dateYmdHis
    else a.fechaPred
  valorCapturado := if oper = .insertar then a.valorCap else none

def erroresBitacoraSucesos (b : BitacoraSucesos) (oper : Operacion) : ArregloErrores :=
  [columna "direccionIP" (direccionValida b.ip b.msk) 1,
    columna "campoMonitorizacion" (inArray b.campoMonitorizacion camposMonitorizacion) 2,
    columna "valorAnticipacion" (validInt b.valorAnticipacion) 3,
    columna "tipoValorAnticipacion" (inArray b.tipoValorAnticipacion tiposValorMonitorizacion) 4,
    columna "fechaSuceso" (expresionRegularTimeStamp.matchesIn (strval b.fechaSuceso)) 5,
    columna "fechaPrediccion" (expresionRegularTimeStamp.matchesIn (strval b.fechaPrediccion)) 6,
    columna "valorCapturado" (oper = .insertar && validInt b.valorCapturado) 7]

/-- A deletion passes over the seventh column, the captured value. The
constructor does not know other operations. -/
def validarCamposBitacoraSucesos (b : BitacoraSucesos) (oper : Operacion) : Bool :=
  match oper with
  | .insertar => contadorNulos (b.erroresBitacoraSucesos oper) = 0
  | .eliminar => contadorNulos ((b.erroresBitacoraSucesos oper).eraseIdx 6) = 0
  | .actualizar | .otra => false

def argumentosEliminar (b : BitacoraSucesos) : List Arg :=
  [.quoted b.direccionIP, .quoted (strval b.campoMonitorizacion),
    .quoted (strval b.valorAnticipacion), .quoted (strval b.tipoValorAnticipacion),
    .quoted (strval b.fechaSuceso),
    .quoted (strval b.fechaPrediccion)]

def argumentosInsertar (b : BitacoraSucesos) : List Arg :=
  b.argumentosEliminar ++ [.quoted (strval b.valorCapturado)]

def condiciones (b : BitacoraSucesos) : List (String × Arg) :=
  [("direccionIP", .quoted b.direccionIP),
    ("campoMonitorizacion", .quoted (strval b.campoMonitorizacion)),
    ("valorAnticipacion", .bare (strval b.valorAnticipacion)),
    ("tipoValorAnticipacion", .quoted (strval b.tipoValorAnticipacion))]

def consultas (b : BitacoraSucesos) (oper : Operacion) : List Statement :=
  let comprobarExistenciaRestriccion := select "restricciones" b.condiciones
  let comprobarExistenciaSuceso := select "bitacoraSucesos"
    (b.condiciones ++ [("fechaSuceso", .quoted (strval b.fechaSuceso)),
      ("fechaPrediccion", .quoted (strval b.fechaPrediccion))])
  match oper with
  | .insertar =>
    [comprobarExistenciaRestriccion, call .insertarBitacoraSucesos b.argumentosInsertar ")"]
  | .eliminar => [comprobarExistenciaSuceso, call .eliminarBitacoraSucesos b.argumentosEliminar ")"]
  | .actualizar | .otra => []

variable [Engine]

def restriccion (b : BitacoraSucesos) : Option ClaveRestriccion :=
  claveRestriccion b.direccionIP (strval b.campoMonitorizacion) (strval b.valorAnticipacion)
    (strval b.tipoValorAnticipacion)

def clave (b : BitacoraSucesos) : Option ClaveSuceso :=
  claveSuceso b.restriccion (strval b.fechaSuceso) (strval b.fechaPrediccion)

def pasos (b : BitacoraSucesos) (oper : Operacion) : List (Step BD) :=
  if b.validarCamposBitacoraSucesos oper then
    match oper with
    | .insertar => existeRestriccion b.restriccion ::
        ejecuta .insertarBitacoraSucesos b.argumentosInsertar
    | .eliminar => existeSuceso b.clave :: ejecuta .eliminarBitacoraSucesos b.argumentosEliminar
    | .actualizar | .otra => rechazada
  else rechazada

end BitacoraSucesos

end ServiciosRed
