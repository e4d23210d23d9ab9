import ServiciosRed.Fields

namespace ServiciosRed

open Text Php MySQL Schema Interleaving Statements Server Fields

structure PermisosAdministracion where
  ip : Texto
  msk : ℤ
  localEmailContacto : Texto
  dominioEmailContacto : Texto
  direccionIP : Texto
  permisoActivo : Valor

namespace PermisosAdministracion

structure Argumentos where
  email : Valor
  dirIP : Valor
  permiso : Valor
  deriving DecidableEq

def construct (a : Argumentos) : PermisosAdministracion where
  ip := ipDe a.dirIP
  msk := mskDe a.dirIP
  localEmailContacto := localDe a.email
  dominioEmailContacto := dominioDe a.email
  -- the text as it was given
  direccionIP := strval a.dirIP
  permisoActivo := a.permiso

/-- Only an insertion or an update sets the column of the permission. -/
def erroresPermisosAdministracion (p : PermisosAdministracion) (oper : Operacion) :
    ArregloErrores :=
  [columna "localEmailContacto" (emailValido p.localEmailContacto p.dominioEmailContacto) 1,
    columna "dominioEmailContacto" (emailValido p.localEmailContacto p.dominioEmailContacto) 2,
    columna "direccionIP" (direccionValida p.ip p.msk) 3,
    columna "permisoActivo"
      ((oper = .insertar || oper = .actualizar) && inArray p.permisoActivo opcionesBandera) 4]

def validarCamposPermisosAdministracion (p : PermisosAdministracion) (oper : Operacion) : Bool :=
  match oper with
  | .insertar | .actualizar => contadorNulos (p.erroresPermisosAdministracion oper) = 0
  | .eliminar => columnaValida (p.erroresPermisosAdministracion oper) "localEmailContacto" &&
      columnaValida (p.erroresPermisosAdministracion oper) "dominioEmailContacto" &&
      columnaValida (p.erroresPermisosAdministracion oper) "direccionIP"
  | .otra => false

def argumentosInsertar (p : PermisosAdministracion) : List Arg :=
  [.quoted p.localEmailContacto, .quoted p.dominioEmailContacto, .quoted p.direccionIP,
    .quoted (strval p.permisoActivo)]

def argumentosActualizar (p : PermisosAdministracion) : List Arg := p.argumentosInsertar

def argumentosEliminar (p : PermisosAdministracion) : List Arg :=
  [.quoted p.localEmailContacto, .quoted p.dominioEmailContacto, .quoted p.direccionIP]

def consultas (p : PermisosAdministracion) (oper : Operacion) : List Statement :=
  let comprobarExistenciaDispositivo :=
    select "dispositivo" [("direccionIP", .quoted p.direccionIP)]
  let comprobarExistenciaAdministrador := select "administrador"
    [("localEmailContacto", .quoted p.localEmailContacto),
      ("dominioEmailContacto", .quoted p.dominioEmailContacto)]
  let comprobarExistenciaPermisosAdministracion := select "permisosAdministracion"
    [("localEmailContacto", .quoted p.localEmailContacto),
      ("dominioEmailContacto", .quoted p.dominioEmailContacto),
      ("direccionIP", .quoted p.direccionIP)]
  match oper with
  | .insertar => [comprobarExistenciaAdministrador, comprobarExistenciaDispositivo,
      call .insertarPermisosAdministracion p.argumentosInsertar ");"]
  | .actualizar => [comprobarExistenciaPermisosAdministracion,
      call .actualizarPermisosAdministracion p.argumentosActualizar ");"]
  | .eliminar => [comprobarExistenciaPermisosAdministracion,
      call .eliminarPermisosAdministracion p.argumentosEliminar ");"]
  | .otra => []

variable [Engine]

/-- An insertion tests a property `comprobarExistenciaPermisosAdministracion` that the
object does not have, where it means the method, so that test always passes. -/
def pasos (p : PermisosAdministracion) (oper : Operacion) : List (Step BD) :=
  if p.validarCamposPermisosAdministracion oper then
    match oper with
    | .insertar =>
      existeAdministrador p.localEmailContacto p.dominioEmailContacto ::
        existeDispositivo p.direccionIP ::
        ejecuta .insertarPermisosAdministracion p.argumentosInsertar
    | .actualizar =>
      existePermiso p.localEmailContacto p.dominioEmailContacto p.direccionIP ::
        ejecuta .actualizarPermisosAdministracion p.argumentosActualizar
    | .eliminar =>
      existePermiso p.localEmailContacto p.dominioEmailContacto p.direccionIP ::
        ejecuta .eliminarPermisosAdministracion p.argumentosEliminar
    | .otra => rechazada
  else rechazada

end PermisosAdministracion

end ServiciosRed
