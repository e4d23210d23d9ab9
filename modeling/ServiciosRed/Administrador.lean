import ServiciosRed.Fields
import ServiciosRed.Digest

namespace ServiciosRed

open Text Php MySQL Schema Calendar Interleaving Statements Server Fields

structure Administrador where
  localEmailContacto : Texto
  dominioEmailContacto : Texto
  contrasenia : Texto
  fechaRegistroAdministrador : Texto
  logueoActivo : Valor

namespace Administrador

structure Argumentos where
  email : Valor
  pass : Valor
  logueo : Valor
  deriving DecidableEq

def construct (ahora : Reloj) (a : Argumentos) : Administrador where
  localEmailContacto := localDe a.email
  dominioEmailContacto := dominioDe a.email
  contrasenia := Digest.md5 (strval a.pass)
  fechaRegistroAdministrador := dateYmd ahora.segundo
  logueoActivo := a.logueo

def erroresAdministrador (a : Administrador) : ArregloErrores :=
  [columna "localEmailContacto" (emailValido a.localEmailContacto a.dominioEmailContacto) 1,
    columna "dominioEmailContacto" (emailValido a.localEmailContacto a.dominioEmailContacto) 2,
    columna "contrasenia" (expresionRegularMd5.matchesIn a.contrasenia) 3,
    columna "fechaRegistroAdministrador"
      (expresionRegularFecha.matchesIn a.fechaRegistroAdministrador) 4,
    columna "logueoActivo" (inArray a.logueoActivo opcionesBandera) 5]

def validarCamposAdministrador (a : Administrador) (oper : Operacion) : Bool :=
  match oper with
  | .insertar | .actualizar => contadorNulos a.erroresAdministrador = 0
  | .eliminar => columnaValida a.erroresAdministrador "localEmailContacto" &&
      columnaValida a.erroresAdministrador "dominioEmailContacto"
  | .otra => false

def argumentosInsertar (a : Administrador) : List Arg :=
  [.quoted a.localEmailContacto, .quoted a.dominioEmailContacto, .quoted a.contrasenia,
    .quoted a.fechaRegistroAdministrador, .quoted (strval a.logueoActivo)]

def argumentosActualizar (a : Administrador) : List Arg :=
  [.quoted a.localEmailContacto, .quoted a.dominioEmailContacto, .quoted a.contrasenia,
    .quoted (strval a.logueoActivo)]

def argumentosEliminar (a : Administrador) : List Arg :=
  [.quoted a.localEmailContacto, .quoted a.dominioEmailContacto]

def consultas (a : Administrador) (oper : Operacion) : List Statement :=
  let comprobarExistenciaAdministrador := select "administrador"
    [("localEmailContacto", .quoted a.localEmailContacto),
      ("dominioEmailContacto", .quoted a.dominioEmailContacto)]
  match oper with
  | .insertar =>
    [comprobarExistenciaAdministrador, call .insertarAdministrador a.argumentosInsertar ")"]
  | .actualizar =>
    [comprobarExistenciaAdministrador, call .actualizarAdministrador a.argumentosActualizar ");"]
  | .eliminar =>
    [comprobarExistenciaAdministrador, call .eliminarAdministrador a.argumentosEliminar ");"]
  | .otra => []

variable [Engine]

def pasos (a : Administrador) (oper : Operacion) : List (Step BD) :=
  if a.validarCamposAdministrador oper then
    match oper with
    | .insertar =>
      noExisteAdministrador a.localEmailContacto a.dominioEmailContacto ::
        ejecuta .insertarAdministrador a.argumentosInsertar
    | .actualizar =>
      existeAdministrador a.localEmailContacto a.dominioEmailContacto ::
        ejecuta .actualizarAdministrador a.argumentosActualizar
    | .eliminar =>
      existeAdministrador a.localEmailContacto a.dominioEmailContacto ::
        ejecuta .eliminarAdministrador a.argumentosEliminar
    | .otra => rechazada
  else rechazada

end Administrador

end ServiciosRed
