import ServiciosRed.MySQL
import ServiciosRed.Relational

namespace ServiciosRed.Schema

open Text MySQL Relational

structure Varchar (n : ℕ) where
  texto : Texto
  cabe : texto.length ≤ n
  deriving DecidableEq

structure Smallint where
  valor : ℤ
  rango : -32768 ≤ valor ∧ valor ≤ 32767
  deriving DecidableEq

/-- A `date`, as the number of days from 1970-01-01. -/
structure Fecha where
  dia : ℤ
  rango : -354285 ≤ dia ∧ dia ≤ 2932896
  deriving DecidableEq

/-- A `timestamp`, as the number of seconds from the start of 1970. -/
structure Marca where
  segundo : ℤ
  rango : 1 ≤ segundo ∧ segundo ≤ 2147483647
  deriving DecidableEq

/-- `enum('0','1')` -/
inductive Bandera
  | cero | uno
  deriving DecidableEq

inductive TipoDispositivo
  | host | router | switch | firewall
  deriving DecidableEq

inductive VersionSNMP
  | v0 | v1 | v2 | v3
  deriving DecidableEq

inductive CampoMonitorizacion
  | min_cpu | max_cpu | min_ram | max_ram | min_hdd | max_hdd
  | min_temp | max_temp | min_volt | max_volt | ping_promedio
  deriving DecidableEq

inductive TipoValorAnticipacion
  | min | hor | dia | sem | mes
  deriving DecidableEq

def Bandera.miembros : List (String × Bandera) := [("0", cero), ("1", uno)]

def TipoDispositivo.miembros : List (String × TipoDispositivo) :=
  [("Host", host), ("Router", router), ("Switch", switch), ("Firewall", firewall)]

def VersionSNMP.miembros : List (String × VersionSNMP) :=
  [("0", v0), ("1", v1), ("2", v2), ("3", v3)]

def CampoMonitorizacion.miembros : List (String × CampoMonitorizacion) :=
  [("min_cpu", min_cpu), ("max_cpu", max_cpu), ("min_ram", min_ram), ("max_ram", max_ram),
    ("min_hdd", min_hdd), ("max_hdd", max_hdd), ("min_temp", min_temp), ("max_temp", max_temp),
    ("min_volt", min_volt), ("max_volt", max_volt), ("ping_promedio", ping_promedio)]

def TipoValorAnticipacion.miembros : List (String × TipoValorAnticipacion) :=
  [("min", min), ("hor", hor), ("dia", dia), ("sem", sem), ("mes", mes)]

/-- The sixteen baseline columns of a device. The three types are those of
the percentages and voltages, of the temperatures and of the ping time. -/
structure LineaBase (α β γ : Type) where
  min_cpu : α
  max_cpu : α
  avg_cpu : α
  min_ram : α
  max_ram : α
  avg_ram : α
  min_hdd : α
  max_hdd : α
  avg_hdd : α
  min_temp : β
  max_temp : β
  avg_temp : β
  min_volt : α
  max_volt : α
  avg_volt : α
  ping_promedio : γ
  deriving DecidableEq

namespace LineaBase

variable {α β γ α' β' γ' : Type}

def map (f : α → α') (g : β → β') (h : γ → γ') (l : LineaBase α β γ) : LineaBase α' β' γ' :=
  ⟨f l.min_cpu, f l.max_cpu, f l.avg_cpu, f l.min_ram, f l.max_ram, f l.avg_ram, f l.min_hdd,
    f l.max_hdd, f l.avg_hdd, g l.min_temp, g l.max_temp, g l.avg_temp, f l.min_volt, f l.max_volt,
    f l.avg_volt,
    h l.ping_promedio⟩

def mapOption (f : α → Option α') (g : β → Option β') (h : γ → Option γ') (l : LineaBase α β γ) :
    Option (LineaBase α' β' γ') := do
  return ⟨← f l.min_cpu, ← f l.max_cpu, ← f l.avg_cpu, ← f l.min_ram, ← f l.max_ram, ← f l.avg_ram,
    ← f l.min_hdd, ← f l.max_hdd, ← f l.avg_hdd, ← g l.min_temp, ← g l.max_temp, ← g l.avg_temp,
    ← f l.min_volt, ← f l.max_volt, ← f l.avg_volt, ← h l.ping_promedio⟩

def toList (l : LineaBase α α α) : List α :=
  [l.min_cpu, l.max_cpu, l.avg_cpu, l.min_ram, l.max_ram, l.avg_ram, l.min_hdd,
    l.max_hdd, l.avg_hdd, l.min_temp, l.max_temp, l.avg_temp, l.min_volt, l.max_volt, l.avg_volt,
    l.ping_promedio]

def All (p : α → Prop) (q : β → Prop) (r : γ → Prop) (l : LineaBase α β γ) : Prop :=
  ∀ x ∈ (l.map p q r).toList, x

theorem isSome_mapOption {f : α → Option α'} {g : β → Option β'} {h : γ → Option γ'}
    {l : LineaBase α β γ}
    (hl : l.All (fun a ↦ (f a).isSome) (fun b ↦ (g b).isSome) (fun c ↦ (h c).isSome)) :
    (l.mapOption f g h).isSome := by
  simp only [All, map, toList, List.forall_mem_cons, Option.isSome_iff_exists] at hl
  obtain ⟨⟨_, h1⟩, ⟨_, h2⟩, ⟨_, h3⟩, ⟨_, h4⟩, ⟨_, h5⟩, ⟨_, h6⟩, ⟨_, h7⟩, ⟨_, h8⟩, ⟨_, h9⟩,
    ⟨_, h10⟩, ⟨_, h11⟩, ⟨_, h12⟩, ⟨_, h13⟩, ⟨_, h14⟩, ⟨_, h15⟩, ⟨_, h16⟩, -⟩ := hl
  simp only [mapOption, h1, h2, h3, h4, h5, h6, h7, h8, h9, h10, h11, h12, h13, h14, h15, h16,
    Option.bind_eq_bind, Option.bind_some, Option.pure_def, Option.isSome_some]

theorem map_of_mapOption {f : α → Option α'} {g : β → Option β'} {h : γ → Option γ'}
    {l : LineaBase α β γ} {m : LineaBase α' β' γ'} (hm : l.mapOption f g h = some m) :
    l.map f g h = m.map some some some := by
  obtain ⟨_, h1, hm⟩ := Option.bind_eq_some_iff.1 hm
  obtain ⟨_, h2, hm⟩ := Option.bind_eq_some_iff.1 hm
  obtain ⟨_, h3, hm⟩ := Option.bind_eq_some_iff.1 hm
  obtain ⟨_, h4, hm⟩ := Option.bind_eq_some_iff.1 hm
  obtain ⟨_, h5, hm⟩ := Option.bind_eq_some_iff.1 hm
  obtain ⟨_, h6, hm⟩ := Option.bind_eq_some_iff.1 hm
  obtain ⟨_, h7, hm⟩ := Option.bind_eq_some_iff.1 hm
  obtain ⟨_, h8, hm⟩ := Option.bind_eq_some_iff.1 hm
  obtain ⟨_, h9, hm⟩ := Option.bind_eq_some_iff.1 hm
  obtain ⟨_, h10, hm⟩ := Option.bind_eq_some_iff.1 hm
  obtain ⟨_, h11, hm⟩ := Option.bind_eq_some_iff.1 hm
  obtain ⟨_, h12, hm⟩ := Option.bind_eq_some_iff.1 hm
  obtain ⟨_, h13, hm⟩ := Option.bind_eq_some_iff.1 hm
  obtain ⟨_, h14, hm⟩ := Option.bind_eq_some_iff.1 hm
  obtain ⟨_, h15, hm⟩ := Option.bind_eq_some_iff.1 hm
  obtain ⟨_, h16, hm⟩ := Option.bind_eq_some_iff.1 hm
  cases hm
  simp only [map, h1, h2, h3, h4, h5, h6, h7, h8, h9, h10, h11, h12, h13, h14, h15, h16]

end LineaBase

abbrev LineaFila := LineaBase (Option (Varchar 3)) (Option (Varchar 4)) (Option (Varchar 5))

structure FilaDispositivo where
  direccionIP : Varchar 18
  fechaRegistroHost : Fecha
  monitorizacionActiva : Bandera
  tipoDispositivo : TipoDispositivo
  versionSNMP : VersionSNMP
  comunidadSNMP : Varchar 64
  ruta : Varchar 255
  linea : LineaFila
  deriving DecidableEq

structure FilaAdministrador where
  localEmailContacto : Varchar 255
  dominioEmailContacto : Varchar 64
  contrasenia : Varchar 32
  fechaRegistroAdministrador : Fecha
  logueoActivo : Bandera
  deriving DecidableEq

structure FilaPermiso where
  localEmailContacto : Varchar 255
  dominioEmailContacto : Varchar 64
  direccionIP : Varchar 18
  permisoActivo : Bandera
  deriving DecidableEq

structure FilaRestriccion where
  direccionIP : Varchar 18
  campoMonitorizacion : CampoMonitorizacion
  valorAnticipacion : Smallint
  tipoValorAnticipacion : TipoValorAnticipacion
  alertaActiva : Bandera
  deriving DecidableEq

structure FilaSuceso where
  direccionIP : Varchar 18
  campoMonitorizacion : CampoMonitorizacion
  valorAnticipacion : Smallint
  tipoValorAnticipacion : TipoValorAnticipacion
  fechaSuceso : Marca
  fechaPrediccion : Marca
  valorCapturado : Varchar 4
  deriving DecidableEq

abbrev ClaveDispositivo := List ℕ
abbrev ClaveAdministrador := List ℕ × List ℕ
abbrev ClavePermiso := ClaveAdministrador × ClaveDispositivo
abbrev ClaveRestriccion := ClaveDispositivo × CampoMonitorizacion × ℤ × TipoValorAnticipacion
abbrev ClaveSuceso := ClaveRestriccion × ℤ × ℤ

variable [Engine]

def FilaDispositivo.clave (r : FilaDispositivo) : ClaveDispositivo := sortKey r.direccionIP.texto

def FilaAdministrador.clave (r : FilaAdministrador) : ClaveAdministrador :=
  (sortKey r.localEmailContacto.texto, sortKey r.dominioEmailContacto.texto)

def FilaPermiso.administrador (r : FilaPermiso) : ClaveAdministrador :=
  (sortKey r.localEmailContacto.texto, sortKey r.dominioEmailContacto.texto)

def FilaPermiso.dispositivo (r : FilaPermiso) : ClaveDispositivo := sortKey r.direccionIP.texto

def FilaPermiso.clave (r : FilaPermiso) : ClavePermiso := (r.administrador, r.dispositivo)

def FilaRestriccion.dispositivo (r : FilaRestriccion) : ClaveDispositivo :=
  sortKey r.direccionIP.texto

def FilaRestriccion.clave (r : FilaRestriccion) : ClaveRestriccion :=
  (r.dispositivo, r.campoMonitorizacion, r.valorAnticipacion.valor, r.tipoValorAnticipacion)

def FilaSuceso.restriccion (r : FilaSuceso) : ClaveRestriccion :=
  (sortKey r.direccionIP.texto, r.campoMonitorizacion, r.valorAnticipacion.valor,
    r.tipoValorAnticipacion)

def FilaSuceso.clave (r : FilaSuceso) : ClaveSuceso :=
  (r.restriccion, r.fechaSuceso.segundo, r.fechaPrediccion.segundo)

@[ext]
structure BD where
  dispositivo : Table FilaDispositivo.clave
  administrador : Table FilaAdministrador.clave
  permisosAdministracion : Table FilaPermiso.clave
  restricciones : Table FilaRestriccion.clave
  bitacoraSucesos : Table FilaSuceso.clave
  deriving DecidableEq

def BD.vacia : BD := ⟨.empty, .empty, .empty, .empty, .empty⟩

/-- UNIQUE KEY `ruta` -/
def RutaUnica (T : Table FilaDispositivo.clave) : Prop :=
  ∀ r ∈ T, ∀ s ∈ T, sortKey r.ruta.texto = sortKey s.ruta.texto → r = s

/-- The declared constraints that are not part of the types: the unique key
of `dispositivo` and the four foreign keys. -/
structure BD.Integra (bd : BD) : Prop where
  ruta : RutaUnica bd.dispositivo
  emailPermisosAdministracion :
    References FilaPermiso.administrador bd.permisosAdministracion bd.administrador
  ipPermisosAdministracion : References FilaPermiso.dispositivo bd.permisosAdministracion
    bd.dispositivo
  ipAlertas : References FilaRestriccion.dispositivo bd.restricciones bd.dispositivo
  alertaBitacoraSucesos : References FilaSuceso.restriccion bd.bitacoraSucesos bd.restricciones

theorem BD.integra_vacia : BD.vacia.Integra := by
  constructor
  · exact fun r hr ↦ absurd hr (Table.not_mem_empty r)
  all_goals exact fun c hc ↦ absurd hc (Table.not_mem_empty c)

end ServiciosRed.Schema
