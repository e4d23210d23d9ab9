import ServiciosRed.Dispositivo
import ServiciosRed.Administrador
import ServiciosRed.PermisosAdministracion
import ServiciosRed.Restricciones
import ServiciosRed.BitacoraSucesos

namespace ServiciosRed.Requests

open Text Php Schema Calendar Interleaving Statements Server Fields

/-- A request: the arguments of the constructor of one of the five classes. -/
inductive Peticion
  | dispositivo (a : Dispositivo.Argumentos) (oper : Operacion)
  | administrador (a : Administrador.Argumentos) (oper : Operacion)
  | permisosAdministracion (a : PermisosAdministracion.Argumentos) (oper : Operacion)
  | restricciones (a : Restricciones.Argumentos) (oper : Operacion)
  | bitacoraSucesos (a : BitacoraSucesos.Argumentos) (oper : Operacion)
  deriving DecidableEq

def reloj : Reloj := ⟨1700000000, by decide⟩

namespace Peticion

def operacion : Peticion → Operacion
  | dispositivo _ oper | administrador _ oper | permisosAdministracion _ oper | restricciones _ oper
  | bitacoraSucesos _ oper => oper

/-- `registroValido` -/
def aceptada (ahora : Reloj) : Peticion → Bool
  | dispositivo a oper => (Dispositivo.construct ahora a).validarCamposDispositivo oper
  | administrador a oper => (Administrador.construct ahora a).validarCamposAdministrador oper
  | permisosAdministracion a oper =>
    (PermisosAdministracion.construct a).validarCamposPermisosAdministracion oper
  | restricciones a oper => (Restricciones.construct a).validarCamposRestricciones oper
  | bitacoraSucesos a oper =>
    (BitacoraSucesos.construct ahora oper a).validarCamposBitacoraSucesos oper

def consultas (ahora : Reloj) : Peticion → List Statement
  | dispositivo a oper => (Dispositivo.construct ahora a).consultas oper
  | administrador a oper => (Administrador.construct ahora a).consultas oper
  | permisosAdministracion a oper => (PermisosAdministracion.construct a).consultas oper
  | restricciones a oper => (Restricciones.construct a).consultas oper
  | bitacoraSucesos a oper => (BitacoraSucesos.construct ahora oper a).consultas oper

/-- The values that reach a quoted literal without a test that could keep a quote out. -/
def sueltos : Peticion → List Texto
  | dispositivo a oper =>
    if oper = .insertar ∨ oper = .actualizar then [strval a.comSNMP] else []
  | administrador a _ => [localDe a.email, dominioDe a.email]
  | permisosAdministracion a _ => [localDe a.email, dominioDe a.email, strval a.dirIP]
  | restricciones a _ => [strval a.dirIP]
  | bitacoraSucesos a oper =>
    if oper = .insertar then [strval a.dirIP] else [strval a.dirIP, strval a.fechaSuc,
      strval a.fechaPred]

def Limpia (p : Peticion) : Prop := ∀ v ∈ p.sueltos, Lexer.isClean v

instance (p : Peticion) : Decidable p.Limpia := inferInstanceAs (Decidable (∀ v ∈ p.sueltos, _))

def altaRestriccion (dirIP tipo : String) : Peticion :=
  .restricciones ⟨some dirIP.toList, some "max_cpu".toList, some "5".toList,
    some tipo.toList, some ['1']⟩ .insertar

def bajaDispositivo (dirIP : String) : Peticion :=
  .dispositivo ⟨some dirIP.toList, none, none, none, none, none, none, none, none, none, none,
    none, none, none, none, none, none, none, none, none, none⟩ .eliminar

variable [MySQL.Engine]

def pasos (ahora : Reloj) : Peticion → List (Step BD)
  | dispositivo a oper => (Dispositivo.construct ahora a).pasos oper
  | administrador a oper => (Administrador.construct ahora a).pasos oper
  | permisosAdministracion a oper => (PermisosAdministracion.construct a).pasos oper
  | restricciones a oper => (Restricciones.construct a).pasos oper
  | bitacoraSucesos a oper => (BitacoraSucesos.construct ahora oper a).pasos oper

end Peticion

end ServiciosRed.Requests
