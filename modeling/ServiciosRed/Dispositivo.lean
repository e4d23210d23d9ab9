import ServiciosRed.Fields

namespace ServiciosRed

open Text Php MySQL Schema Calendar Interleaving Statements Server Fields

structure Dispositivo where
  ip : Texto
  msk : ℤ
  direccionIP : Texto
  fechaRegistroHost : Texto
  monitorizacionActiva : Valor
  tipoDispositivo : Valor
  versionSNMP : Valor
  comunidadSNMP : Valor
  ruta : Texto
  linea : LineaBase Valor Valor Valor

namespace Dispositivo

/-- The parameters of the constructor, but for `$oper`. -/
structure Argumentos where
  dirIP : Valor
  monitActiv : Valor
  tipoDisp : Valor
  verSNMP : Valor
  comSNMP : Valor
  minCPU : Valor
  maxCPU : Valor
  avgCPU : Valor
  minRAM : Valor
  maxRAM : Valor
  avgRAM : Valor
  minHDD : Valor
  maxHDD : Valor
  avgHDD : Valor
  minTEMP : Valor
  maxTEMP : Valor
  avgTEMP : Valor
  minVOLT : Valor
  maxVOLT : Valor
  avgVOLT : Valor
  ping : Valor
  deriving DecidableEq

def raiz : Texto := "/home/vsalmean/Redes/Hosts/".toList

/-- `$cadena . '_' . $this->msk`, with the dots of the address replaced. -/
def nombreDirectorio (ip : Texto) (msk : ℤ) : Texto := strReplace '.' '_' ip ++ '_' :: intText msk

def construct (ahora : Reloj) (a : Argumentos) : Dispositivo where
  ip := ipDe a.dirIP
  msk := mskDe a.dirIP
  direccionIP := ipDe a.dirIP ++ '/' :: intText (mskDe a.dirIP)
  fechaRegistroHost := dateYmd ahora.segundo
  monitorizacionActiva := a.monitActiv
  tipoDispositivo := a.tipoDisp
  versionSNMP := a.verSNMP
  comunidadSNMP := a.comSNMP
  ruta := raiz ++ nombreDirectorio (ipDe a.dirIP) (mskDe a.dirIP)
  linea :=
    { min_cpu := a.minCPU
      max_cpu := a.maxCPU
      avg_cpu := a.avgCPU
      min_ram := a.minRAM
      max_ram := a.maxRAM
      avg_ram := a.avgRAM
      min_hdd := a.minHDD
      max_hdd := a.maxHDD
      avg_hdd := a.avgHDD
      min_temp := a.minTEMP
      max_temp := a.maxTEMP
      avg_temp := a.avgTEMP
      min_volt := a.minVOLT
      max_volt := a.maxVOLT
      -- the constructor assigns the maximum here
      avg_volt := a.maxVOLT
      ping_promedio := a.ping }

def erroresDispositivo (d : Dispositivo) : ArregloErrores :=
  [columna "direccionIP" (direccionValida d.ip d.msk) 1,
    columna "fechaRegistroHost" (expresionRegularFecha.matchesIn d.fechaRegistroHost) 2,
    columna "monitorizacionActiva" (inArray d.monitorizacionActiva opcionesBandera) 3,
    columna "tipoDispositivo"
      (inArray d.tipoDispositivo ["Host", "Router", "Switch", "Firewall"]) 4,
    columna "versionSNMP" true 4,
    -- the test of the version sets the column of the community
    columna "comunidadSNMP" (inArray d.versionSNMP ["0", "1", "2", "3"]) 4,
    columna "min_cpu" (enteroONulo d.linea.min_cpu) 5,
    columna "max_cpu" (enteroONulo d.linea.max_cpu) 6,
    columna "avg_cpu" (enteroONulo d.linea.avg_cpu) 7,
    columna "min_ram" (enteroONulo d.linea.min_ram) 8,
    columna "max_ram" (enteroONulo d.linea.max_ram) 9,
    columna "avg_ram" (enteroONulo d.linea.avg_ram) 10,
    columna "min_hdd" (enteroONulo d.linea.min_hdd) 11,
    columna "max_hdd" (enteroONulo d.linea.max_hdd) 12,
    columna "avg_hdd" (enteroONulo d.linea.avg_hdd) 13,
    columna "min_temp" (enteroONulo d.linea.min_temp) 14,
    columna "max_temp" (enteroONulo d.linea.max_temp) 15,
    columna "avg_temp" (enteroONulo d.linea.avg_temp) 16,
    columna "min_volt" (enteroONulo d.linea.min_volt) 17,
    columna "max_volt" (enteroONulo d.linea.max_volt) 18,
    columna "avg_volt" (enteroONulo d.linea.avg_volt) 19,
    columna "ping_promedio" (flotanteONulo d.linea.ping_promedio) 20]

/-- `registroValido` -/
def validarCamposDispositivo (d : Dispositivo) (oper : Operacion) : Bool :=
  match oper with
  | .insertar | .actualizar => contadorNulos (erroresDispositivo d) = 0
  | .eliminar => columnaValida (erroresDispositivo d) "direccionIP"
  | .otra => true

def argumentosLinea (d : Dispositivo) : List Arg :=
  (d.linea.map strval strval strval).toList.map Arg.bare

def argumentosInsertar (d : Dispositivo) : List Arg :=
  [.quoted d.direccionIP, .quoted d.fechaRegistroHost, .quoted (strval d.monitorizacionActiva),
    .quoted (strval d.tipoDispositivo), .quoted (strval d.versionSNMP),
    .quoted (strval d.comunidadSNMP),
    .quoted d.ruta] ++ d.argumentosLinea

def argumentosActualizar (d : Dispositivo) : List Arg :=
  [.quoted d.direccionIP, .quoted (strval d.monitorizacionActiva),
    .quoted (strval d.tipoDispositivo), .quoted (strval d.versionSNMP),
    .quoted (strval d.comunidadSNMP)] ++ d.argumentosLinea

def argumentosEliminar (d : Dispositivo) : List Arg := [.quoted d.direccionIP]

def consultas (d : Dispositivo) (oper : Operacion) : List Statement :=
  let comprobarExistenciaDispositivo :=
    select "dispositivo" [("direccionIP", .quoted d.direccionIP)]
  match oper with
  | .insertar =>
    [comprobarExistenciaDispositivo, call .insertarDispositivo d.argumentosInsertar ")"]
  | .actualizar =>
    [comprobarExistenciaDispositivo, call .actualizarDispositivo d.argumentosActualizar ")"]
  | .eliminar =>
    [comprobarExistenciaDispositivo, call .eliminarDispositivo d.argumentosEliminar ");"]
  | .otra => []

variable [Engine]

def pasos (d : Dispositivo) (oper : Operacion) : List (Step BD) :=
  if d.validarCamposDispositivo oper then
    match oper with
    | .insertar =>
      noExisteDispositivo d.direccionIP :: ejecuta .insertarDispositivo d.argumentosInsertar
    | .actualizar =>
      existeDispositivo d.direccionIP :: ejecuta .actualizarDispositivo d.argumentosActualizar
    | .eliminar =>
      existeDispositivo d.direccionIP :: ejecuta .eliminarDispositivo d.argumentosEliminar
    | .otra => rechazada
  else rechazada

end Dispositivo

end ServiciosRed
