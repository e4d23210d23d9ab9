import ServiciosRed.Requests

namespace ServiciosRed.Listeners

open Text Php Fields Requests

/-- `$_POST`, where a name that is not set reads as NULL. -/
abbrev Post := String → Valor

def eliminar : Valor := some "eliminar".toList

/-- The listeners act on a POST with an operation they know. -/
def conOperacion (post : Post) (borra : Peticion) (escribe : Operacion → Peticion) :
    Option Peticion :=
  match Operacion.of (post "operacion") with
  | .eliminar => some borra
  | .insertar => some (escribe .insertar)
  | .actualizar => some (escribe .actualizar)
  | .otra => none

section Dispositivo

def soloDireccion (dirIP : Valor) : Dispositivo.Argumentos :=
  ⟨dirIP, none, none, none, none, none, none, none, none, none, none, none, none, none, none,
    none, none, none, none, none, none⟩

def escuchaDispositivoPost (post : Post) : Option Peticion :=
  conOperacion post (.dispositivo (soloDireccion (post "email")) .eliminar) fun oper ↦
    .dispositivo
      { dirIP := post "dirIP"
        monitActiv := post "monitActiv"
        tipoDisp := post "tipoDisp"
        verSNMP := post "verSNMP"
        comSNMP := post "comSNMP"
        minCPU := post "minCPU"
        maxCPU := post "maxCPU"
        avgCPU := post "avgCPU"
        minRAM := post "minRAM"
        maxRAM := post "maxRAM"
        avgRAM := post "avgRAM"
        minHDD := post "minHDD"
        maxHDD := post "maxHDD"
        avgHDD := post "avgHDD"
        minTEMP := post "minTEMP"
        maxTEMP := post "maxTEMP"
        avgTEMP := post "avgTEMP"
        minVOLT := post "minVOLT"
        maxVOLT := post "maxVOLT"
        avgVOLT := post "avgVOLT"
        ping := post "ping_promedio" } oper

def escuchaDispositivo : List Texto → Option Peticion
  | [dirIP] => some (.dispositivo (soloDireccion (some dirIP)) .eliminar)
  | [a1, a2, a3, a4, a5, a6, a7, a8, a9, a10, a11, a12, a13, a14, a15, a16, a17, a18, a19, a20,
    a21, oper] =>
    some (.dispositivo ⟨some a1, some a2, some a3, some a4, some a5, some a6, some a7, some a8,
      some a9, some a10, some a11, some a12, some a13, some a14, some a15, some a16, some a17,
      some a18, some a19, some a20,
      some a21⟩ (.of (some oper)))
  | _ => none

end Dispositivo

section Administrador

def escuchaAdministradorPost (post : Post) : Option Peticion :=
  conOperacion post (.administrador ⟨post "email", none, none⟩ .eliminar) fun oper ↦
    .administrador ⟨post "email", post "pass", post "logueo"⟩ oper

def escuchaAdministrador : List Texto → Option Peticion
  | [email] => some (.administrador ⟨some email, none, none⟩ .eliminar)
  | [email, pass, logueo, oper] =>
    some (.administrador ⟨some email, some pass, some logueo⟩ (.of (some oper)))
  | _ => none

end Administrador

section PermisosAdministracion

def escuchaPermisosAdministracionPost (post : Post) : Option Peticion :=
  conOperacion post (.permisosAdministracion ⟨post "email", post "dirIP", none⟩ .eliminar)
    fun oper ↦
    .permisosAdministracion ⟨post "email", post "dirIP", post "permiso"⟩ oper

def escuchaPermisosAdministracion : List Texto → Option Peticion
  | [email, dirIP] => some (.permisosAdministracion ⟨some email, some dirIP, none⟩ .eliminar)
  | [email, dirIP, permiso, oper] =>
    some (.permisosAdministracion ⟨some email, some dirIP, some permiso⟩ (.of (some oper)))
  | _ => none

end PermisosAdministracion

section Restricciones

def escuchaRestriccionesPost (post : Post) : Option Peticion :=
  conOperacion post
    (.restricciones ⟨post "dirIP", post "campoMonit", post "valorAntic", post "tipoValAntic",
      none⟩ .eliminar)
      fun oper ↦
    .restricciones ⟨post "dirIP", post "campoMonit", post "valorAntic", post "tipoValAntic",
      post "alertaActiv"⟩ oper

def escuchaRestricciones : List Texto → Option Peticion
  | [dirIP, campoMonit, valorAntic, tipoValAntic] =>
    some (.restricciones ⟨some dirIP, some campoMonit, some valorAntic, some tipoValAntic,
      none⟩ .eliminar)
  | [dirIP, campoMonit, valorAntic, tipoValAntic, alertaActiv, oper] =>
    some (.restricciones ⟨some dirIP, some campoMonit, some valorAntic, some tipoValAntic,
      some alertaActiv⟩
      (.of (some oper)))
  | _ => none

end Restricciones

section BitacoraSucesos

/-- Five words are an insertion, and a sixth makes it a deletion. -/
def escuchaBitacoraSucesos : List Texto → Option Peticion
  | [dirIP, campoMon, valorAntic, tipoValorAntic, valorCap] =>
    some (.bitacoraSucesos ⟨some dirIP, some campoMon, some valorAntic, some tipoValorAntic,
      some [], some [], some valorCap⟩ .insertar)
  | [dirIP, campoMon, valorAntic, tipoValorAntic, fechaSuc, fechaPred] =>
    some (.bitacoraSucesos ⟨some dirIP, some campoMon, some valorAntic, some tipoValorAntic,
      some fechaSuc, some fechaPred, some ['0']⟩ .eliminar)
  | _ => none

end BitacoraSucesos

end ServiciosRed.Listeners
