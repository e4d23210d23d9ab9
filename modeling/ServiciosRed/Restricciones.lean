import ServiciosRed.Fields

namespace ServiciosRed

open Text Php Filters MySQL Schema Interleaving Statements Server Fields

structure Restricciones where
  ip : Texto
  msk : ℤ
  direccionIP : Texto
  campoMonitorizacion : Valor
  valorAnticipacion : Valor
  tipoValorAnticipacion : Valor
  alertaActiva : Valor

namespace Restricciones

structure Argumentos where
  dirIP : Valor
  campoMonit : Valor
  valorAntic : Valor
  tipoValAntic : Valor
  alertaActiv : Valor
  deriving DecidableEq

def construct (a : Argumentos) : Restricciones where
  ip := ipDe a.dirIP
  msk := mskDe a.dirIP
  direccionIP := strval a.dirIP
  campoMonitorizacion := a.campoMonit
  valorAnticipacion := a.valorAntic
  tipoValorAnticipacion := a.tipoValAntic
  alertaActiva := a.alertaActiv

/-- A deletion asks for the string NULL, not for the value. -/
def alertaValida (r : Restricciones) : Operacion → Bool
  | .insertar | .actualizar => inArray r.alertaActiva opcionesBandera
  | .eliminar => r.alertaActiva = some "NULL".toList
  | .otra => false

def erroresRestricciones (r : Restricciones) (oper : Operacion) : ArregloErrores :=
  [columna "direccionIP" (direccionValida r.ip r.msk) 1,
    columna "campoMonitorizacion" (inArray r.campoMonitorizacion camposMonitorizacion) 2,
    columna "valorAnticipacion" (validInt r.valorAnticipacion) 3,
    columna "tipoValorAnticipacion" (inArray r.tipoValorAnticipacion tiposValorMonitorizacion) 4,
    columna "alertaActiva" (r.alertaValida oper) 5]

def validarCamposRestricciones (r : Restricciones) (oper : Operacion) : Bool :=
  contadorNulos (r.erroresRestricciones oper) = 0

def argumentosEliminar (r : Restricciones) : List Arg :=
  [.quoted r.direccionIP, .quoted (strval r.campoMonitorizacion),
    .bare (strval r.valorAnticipacion), .quoted (strval r.tipoValorAnticipacion)]

def argumentosInsertar (r : Restricciones) : List Arg :=
  r.argumentosEliminar ++ [.quoted (strval r.alertaActiva)]

def argumentosActualizar (r : Restricciones) : List Arg := r.argumentosInsertar

def condiciones (r : Restricciones) : List (String × Arg) :=
  [("direccionIP", .quoted r.direccionIP),
    ("campoMonitorizacion", .quoted (strval r.campoMonitorizacion)),
    ("valorAnticipacion", .bare (strval r.valorAnticipacion)),
    ("tipoValorAnticipacion", .quoted (strval r.tipoValorAnticipacion))]

def consultas (r : Restricciones) (oper : Operacion) : List Statement :=
  let comprobarExistenciaDispositivo :=
    select "dispositivo" [("direccionIP", .quoted r.direccionIP)]
  let comprobarExistenciaRestriccion := select "restricciones" r.condiciones
  match oper with
  | .insertar => [comprobarExistenciaRestriccion, comprobarExistenciaDispositivo,
      call .insertarRestriccion r.argumentosInsertar ");"]
  | .actualizar =>
    [comprobarExistenciaRestriccion, call .actualizarRestriccion r.argumentosActualizar ");"]
  | .eliminar =>
    [comprobarExistenciaRestriccion, call .eliminarRestriccion r.argumentosEliminar ");"]
  | .otra => []

variable [Engine]

def clave (r : Restricciones) : Option ClaveRestriccion :=
  claveRestriccion r.direccionIP (strval r.campoMonitorizacion) (strval r.valorAnticipacion)
    (strval r.tipoValorAnticipacion)

def pasos (r : Restricciones) (oper : Operacion) : List (Step BD) :=
  if r.validarCamposRestricciones oper then
    match oper with
    | .insertar => noExisteRestriccion r.clave :: existeDispositivo r.direccionIP ::
        ejecuta .insertarRestriccion r.argumentosInsertar
    | .actualizar =>
      existeRestriccion r.clave :: ejecuta .actualizarRestriccion r.argumentosActualizar
    | .eliminar => existeRestriccion r.clave :: ejecuta .eliminarRestriccion r.argumentosEliminar
    | .otra => rechazada
  else rechazada

end Restricciones

end ServiciosRed
