import ServiciosRed.Deletion
import ServiciosRed.Domains

namespace ServiciosRed.Programs

open Text Php Filters MySQL Relational Schema Calendar Interleaving Statements Procedures
  Server Binding
  Deletion Fields Requests Domains

inductive Clave
  | dispositivo (k : ClaveDispositivo)
  | administrador (k : ClaveAdministrador)
  | permiso (k : ClavePermiso)
  | restriccion (k : ClaveRestriccion)
  | suceso (k : ClaveSuceso)

/-- A row under the first key points at the record under the second. -/
def Clave.Refiere : Clave → Clave → Prop
  | permiso k, dispositivo d => k.2 = d
  | permiso k, administrador a => k.1 = a
  | restriccion k, dispositivo d => k.1 = d
  | suceso k, dispositivo d => k.1.1 = d
  | suceso k, restriccion r => k.1 = r
  | _, _ => False

variable [Engine]

def Mira (g : Step BD) : Prop := ∀ s s', g s = some s' → s' = s

inductive Programa
  | rechazo (gs : List (Step BD)) (h : ∀ g ∈ gs, Mira g)
  | altaDispositivo (x : FilaDispositivo)
  | altaAdministrador (x : FilaAdministrador)
  | altaPermiso (x : FilaPermiso)
  | altaRestriccion (x : FilaRestriccion)
  | altaSuceso (x : FilaSuceso)
  | cambioDispositivo (k : ClaveDispositivo) (f : Update FilaDispositivo.clave)
    (hf : ∀ r, (f.1 r).ruta = r.ruta)
  | cambioAdministrador (k : ClaveAdministrador) (f : Update FilaAdministrador.clave)
  | cambioPermiso (k : ClavePermiso) (f : Update FilaPermiso.clave)
  | cambioRestriccion (k : ClaveRestriccion) (f : Update FilaRestriccion.clave)
  | bajaPermiso (k : ClavePermiso)
  | bajaSuceso (k : ClaveSuceso)
  | baja (e : Eliminacion)

def Eliminado : Eliminacion → Clave
  | .dispositivo ip => .dispositivo (sortKey ip.texto)
  | .administrador l d => .administrador (sortKey l.texto, sortKey d.texto)
  | .restriccion ip campo valor tipo => .restriccion (sortKey ip.texto, campo, valor.valor, tipo)

def Existe (bd : BD) : Clave → Prop
  | .dispositivo k => bd.dispositivo.Has k
  | .administrador k => bd.administrador.Has k
  | .permiso k => bd.permisosAdministracion.Has k
  | .restriccion k => bd.restricciones.Has k
  | .suceso k => bd.bitacoraSucesos.Has k

instance (bd : BD) : DecidablePred (Existe bd)
  | .dispositivo k => inferInstanceAs (Decidable (bd.dispositivo.Has k))
  | .administrador k => inferInstanceAs (Decidable (bd.administrador.Has k))
  | .permiso k => inferInstanceAs (Decidable (bd.permisosAdministracion.Has k))
  | .restriccion k => inferInstanceAs (Decidable (bd.restricciones.Has k))
  | .suceso k => inferInstanceAs (Decidable (bd.bitacoraSucesos.Has k))

def existe (k : Clave) : Step BD := guard fun bd ↦ Existe bd k

def noExiste (k : Clave) : Step BD := guard fun bd ↦ ¬ Existe bd k

namespace Programa

def pasos : Programa → List (Step BD)
  | rechazo gs _ => gs ++ rechazada
  | altaDispositivo x => [noExiste (.dispositivo x.clave), insertDispositivo x]
  | altaAdministrador x => [noExiste (.administrador x.clave), insertAdministrador x]
  | altaPermiso x =>
    [existe (.administrador x.administrador), existe (.dispositivo x.dispositivo), insertPermisos x]
  | altaRestriccion x =>
    [noExiste (.restriccion x.clave), existe (.dispositivo x.dispositivo), insertRestricciones x]
  | altaSuceso x => [existe (.restriccion x.restriccion), insertBitacora x]
  | cambioDispositivo k f _ => [existe (.dispositivo k), updateDispositivo k f]
  | cambioAdministrador k f => [existe (.administrador k), updateAdministrador k f]
  | cambioPermiso k f => [existe (.permiso k), updatePermisos k f]
  | cambioRestriccion k f => [existe (.restriccion k), updateRestricciones k f]
  | bajaPermiso k => [existe (.permiso k), deletePermisos (· = k)]
  | bajaSuceso k => [existe (.suceso k), deleteBitacora (· = k)]
  | baja e => existe (Eliminado e) :: e.procedimiento

def clave : Programa → Option Clave
  | rechazo _ _ => none
  | altaDispositivo x => some (.dispositivo x.clave)
  | altaAdministrador x => some (.administrador x.clave)
  | altaPermiso x => some (.permiso x.clave)
  | altaRestriccion x => some (.restriccion x.clave)
  | altaSuceso x => some (.suceso x.clave)
  | cambioDispositivo k _ _ => some (.dispositivo k)
  | cambioAdministrador k _ => some (.administrador k)
  | cambioPermiso k _ => some (.permiso k)
  | cambioRestriccion k _ => some (.restriccion k)
  | bajaPermiso k => some (.permiso k)
  | bajaSuceso k => some (.suceso k)
  | baja e => some (Eliminado e)

def operacion : Programa → Operacion
  | rechazo _ _ => .otra
  | altaDispositivo _ | altaAdministrador _ | altaPermiso _ | altaRestriccion _ | altaSuceso _ =>
    .insertar
  | cambioDispositivo _ _ _ | cambioAdministrador _ _ | cambioPermiso _ _ | cambioRestriccion _ _ =>
    .actualizar
  | bajaPermiso _ | bajaSuceso _ | baja _ => .eliminar

end Programa

section Guards

theorem mira_guard {G : BD → Prop} [DecidablePred G] : Mira (guard G) := fun _ _ h ↦
  (guard_eq_some.mp h).2.symm

variable (ip l d : Texto)

theorem existeDispositivo_eq : existeDispositivo ip = existe (.dispositivo (sortKey ip)) := rfl

theorem noExisteDispositivo_eq : noExisteDispositivo ip = noExiste (.dispositivo (sortKey ip)) :=
  rfl

theorem existeAdministrador_eq :
    existeAdministrador l d = existe (.administrador (claveAdministrador l d)) := rfl

theorem noExisteAdministrador_eq :
    noExisteAdministrador l d = noExiste (.administrador (claveAdministrador l d)) := rfl

theorem existePermiso_eq : existePermiso l d ip = existe (.permiso (clavePermiso l d ip)) := rfl

theorem existeRestriccion_eq (k : ClaveRestriccion) :
    existeRestriccion (some k) = existe (.restriccion k) := rfl

theorem noExisteRestriccion_eq (k : ClaveRestriccion) :
    noExisteRestriccion (some k) = noExiste (.restriccion k) := rfl

theorem existeSuceso_eq (k : ClaveSuceso) : existeSuceso (some k) = existe (.suceso k) := rfl

end Guards

section Values

variable (d : Dispositivo)

def numeros (l : LineaBase Valor Valor Valor) : LineaBase Literal Literal Literal :=
  l.map (fun v ↦ numero (strval v)) (fun v ↦ numero (strval v)) (fun v ↦ numero (strval v))

theorem literales_insertar : d.argumentosInsertar.mapM literal =
    some ([.text d.direccionIP, .text d.fechaRegistroHost, .text (strval d.monitorizacionActiva),
      .text (strval d.tipoDispositivo), .text (strval d.versionSNMP),
      .text (strval d.comunidadSNMP), .text d.ruta] ++ (numeros d.linea).toList) := by
  simp only [Dispositivo.argumentosInsertar, Dispositivo.argumentosLinea, numeros, LineaBase.map,
    LineaBase.toList, List.map_cons, List.map_nil, List.cons_append, List.nil_append,
    List.mapM_cons, List.mapM_nil, literal_quoted, literal_bare, Option.pure_def,
    Option.bind_eq_bind, Option.bind_some]

theorem literales_actualizar : d.argumentosActualizar.mapM literal =
    some ([.text d.direccionIP, .text (strval d.monitorizacionActiva),
      .text (strval d.tipoDispositivo), .text (strval d.versionSNMP),
      .text (strval d.comunidadSNMP)] ++ (numeros d.linea).toList) := by
  simp only [Dispositivo.argumentosActualizar, Dispositivo.argumentosLinea, numeros, LineaBase.map,
    LineaBase.toList, List.map_cons, List.map_nil, List.cons_append, List.nil_append,
    List.mapM_cons, List.mapM_nil, literal_quoted, literal_bare, Option.pure_def,
    Option.bind_eq_bind, Option.bind_some]

def FilaDe (x : FilaDispositivo) : Prop :=
  Fila (.text d.direccionIP) (.text d.fechaRegistroHost) (.text (strval d.monitorizacionActiva))
    (.text (strval d.tipoDispositivo)) (.text (strval d.versionSNMP))
      (.text (strval d.comunidadSNMP))
    (.text d.ruta) (numeros d.linea) x

variable {d}

theorem FilaDe.clave {x : FilaDispositivo} (h : FilaDe d x) : x.clave = sortKey d.direccionIP :=
  sortKey_varcharNotNull h.direccionIP

end Values

section Rows

structure FilaDeAdministrador (a : Administrador) (x : FilaAdministrador) : Prop where
  localEmailContacto : varcharNotNull 255 (.text a.localEmailContacto) = some x.localEmailContacto
  dominioEmailContacto : varcharNotNull 64 (.text a.dominioEmailContacto) =
    some x.dominioEmailContacto
  contrasenia : varcharNotNull 32 (.text a.contrasenia) = some x.contrasenia
  fechaRegistroAdministrador : fecha (.text a.fechaRegistroAdministrador) =
    some x.fechaRegistroAdministrador
  logueoActivo : bandera (.text (strval a.logueoActivo)) = some x.logueoActivo

structure FilaDePermiso (p : PermisosAdministracion) (x : FilaPermiso) : Prop where
  localEmailContacto : varcharNotNull 255 (.text p.localEmailContacto) = some x.localEmailContacto
  dominioEmailContacto : varcharNotNull 64 (.text p.dominioEmailContacto) =
    some x.dominioEmailContacto
  direccionIP : varcharNotNull 18 (.text p.direccionIP) = some x.direccionIP
  permisoActivo : bandera (.text (strval p.permisoActivo)) = some x.permisoActivo

structure FilaDeRestriccion (r : Restricciones) (x : FilaRestriccion) : Prop where
  direccionIP : varcharNotNull 18 (.text r.direccionIP) = some x.direccionIP
  campoMonitorizacion : campoMonitorizacion (.text (strval r.campoMonitorizacion)) =
    some x.campoMonitorizacion
  valorAnticipacion : smallint (numero (strval r.valorAnticipacion)) = some x.valorAnticipacion
  tipoValorAnticipacion :
    tipoValorAnticipacion (.text (strval r.tipoValorAnticipacion)) = some x.tipoValorAnticipacion
  alertaActiva : bandera (.text (strval r.alertaActiva)) = some x.alertaActiva

structure FilaDeSuceso (b : BitacoraSucesos) (x : FilaSuceso) : Prop where
  direccionIP : varcharNotNull 18 (.text b.direccionIP) = some x.direccionIP
  campoMonitorizacion : campoMonitorizacion (.text (strval b.campoMonitorizacion)) =
    some x.campoMonitorizacion
  valorAnticipacion : smallint (.text (strval b.valorAnticipacion)) = some x.valorAnticipacion
  tipoValorAnticipacion :
    tipoValorAnticipacion (.text (strval b.tipoValorAnticipacion)) = some x.tipoValorAnticipacion
  fechaSuceso : marca (.text (strval b.fechaSuceso)) = some x.fechaSuceso
  fechaPrediccion : marca (.text (strval b.fechaPrediccion)) = some x.fechaPrediccion
  valorCapturado : varcharNotNull 4 (.text (strval b.valorCapturado)) = some x.valorCapturado

end Rows

section Requests

/-- What a request to a class asks the server for, with its values as the columns take them. -/
inductive PideDispositivo (d : Dispositivo) : Operacion → Programa → Prop
  | alta {x : FilaDispositivo} (h : FilaDe d x) : PideDispositivo d .insertar (.altaDispositivo x)
  | cambio {ip : Varchar 18} {m : Bandera} {t : TipoDispositivo} {v : VersionSNMP} {c : Varchar 64}
    {b : LineaFila}
      (hip : varcharNotNull 18 (.text d.direccionIP) = some ip)
      (hm : bandera (.text (strval d.monitorizacionActiva)) = some m)
      (ht : tipoDispositivo (.text (strval d.tipoDispositivo)) = some t)
      (hv : versionSNMP (.text (strval d.versionSNMP)) = some v)
      (hc : varcharNotNull 64 (.text (strval d.comunidadSNMP)) = some c)
      (hb : lineaFila (numeros d.linea) = some b) :
      PideDispositivo d .actualizar
        (.cambioDispositivo (sortKey ip.texto) (setDispositivo m t v c b) (fun _ ↦ rfl))
  | baja {ip : Varchar 18} (hip : varcharNotNull 18 (.text d.direccionIP) = some ip) :
      PideDispositivo d .eliminar (.baja (.dispositivo ip))

inductive PideAdministrador (a : Administrador) : Operacion → Programa → Prop
  | alta {x : FilaAdministrador} (h : FilaDeAdministrador a x) : PideAdministrador a .insertar
    (.altaAdministrador x)
  | cambio {l : Varchar 255} {d : Varchar 64} {c : Varchar 32} {m : Bandera}
      (hl : varcharNotNull 255 (.text a.localEmailContacto) = some l)
      (hd : varcharNotNull 64 (.text a.dominioEmailContacto) = some d)
      (hc : varcharNotNull 32 (.text a.contrasenia) = some c)
      (hm : bandera (.text (strval a.logueoActivo)) = some m) :
      PideAdministrador a .actualizar (.cambioAdministrador (sortKey l.texto, sortKey d.texto)
        ⟨fun r ↦ { r with contrasenia := c, logueoActivo := m }, fun _ ↦ rfl⟩)
  | baja {l : Varchar 255} {d : Varchar 64} (hl : varcharNotNull 255 (.text a.localEmailContacto) =
    some l)
      (hd : varcharNotNull 64 (.text a.dominioEmailContacto) = some d) :
      PideAdministrador a .eliminar (.baja (.administrador l d))

inductive PidePermiso (p : PermisosAdministracion) : Operacion → Programa → Prop
  | alta {x : FilaPermiso} (h : FilaDePermiso p x) : PidePermiso p .insertar (.altaPermiso x)
  | cambio {x : FilaPermiso} (h : FilaDePermiso p x) : PidePermiso p .actualizar
      (.cambioPermiso x.clave ⟨fun r ↦ { r with permisoActivo := x.permisoActivo }, fun _ ↦ rfl⟩)
  | baja {l : Varchar 255} {d : Varchar 64} {ip : Varchar 18}
      (hl : varcharNotNull 255 (.text p.localEmailContacto) = some l)
      (hd : varcharNotNull 64 (.text p.dominioEmailContacto) = some d)
      (hip : varcharNotNull 18 (.text p.direccionIP) = some ip) :
      PidePermiso p .eliminar (.bajaPermiso ((sortKey l.texto, sortKey d.texto), sortKey ip.texto))

inductive PideRestriccion (r : Restricciones) : Operacion → Programa → Prop
  | alta {x : FilaRestriccion} (h : FilaDeRestriccion r x) : PideRestriccion r .insertar
    (.altaRestriccion x)
  | cambio {x : FilaRestriccion} (h : FilaDeRestriccion r x) : PideRestriccion r .actualizar
      (.cambioRestriccion x.clave ⟨fun r ↦ { r with alertaActiva := x.alertaActiva }, fun _ ↦ rfl⟩)
  | baja {ip : Varchar 18} {c : CampoMonitorizacion} {v : Smallint} {t : TipoValorAnticipacion}
      (hip : varcharNotNull 18 (.text r.direccionIP) = some ip)
      (hc : campoMonitorizacion (.text (strval r.campoMonitorizacion)) = some c)
      (hv : smallint (numero (strval r.valorAnticipacion)) = some v)
      (ht : tipoValorAnticipacion (.text (strval r.tipoValorAnticipacion)) = some t) :
      PideRestriccion r .eliminar (.baja (.restriccion ip c v t))

inductive PideSuceso (b : BitacoraSucesos) : Operacion → Programa → Prop
  | alta {x : FilaSuceso} (h : FilaDeSuceso b x) : PideSuceso b .insertar (.altaSuceso x)
  | baja {ip : Varchar 18} {c : CampoMonitorizacion} {v : Smallint} {t : TipoValorAnticipacion}
    {s p : Marca}
      (hip : varcharNotNull 18 (.text b.direccionIP) = some ip)
      (hc : campoMonitorizacion (.text (strval b.campoMonitorizacion)) = some c)
      (hv : smallint (.text (strval b.valorAnticipacion)) = some v)
      (ht : tipoValorAnticipacion (.text (strval b.tipoValorAnticipacion)) = some t)
      (hs : marca (.text (strval b.fechaSuceso)) = some s)
      (hp : marca (.text (strval b.fechaPrediccion)) = some p) :
      PideSuceso b .eliminar (.bajaSuceso ((sortKey ip.texto, c, v.valor, t), s.segundo, p.segundo))

def Pide (ahora : Reloj) : Peticion → Programa → Prop
  | .dispositivo a oper => PideDispositivo (Dispositivo.construct ahora a) oper
  | .administrador a oper => PideAdministrador (Administrador.construct ahora a) oper
  | .permisosAdministracion a oper => PidePermiso (PermisosAdministracion.construct a) oper
  | .restricciones a oper => PideRestriccion (Restricciones.construct a) oper
  | .bitacoraSucesos a oper => PideSuceso (BitacoraSucesos.construct ahora oper a) oper

end Requests

def Rechaza (pasos : List (Step BD)) : Prop := ∃ gs, (∀ g ∈ gs, Mira g) ∧ pasos = gs ++ rechazada

section Calls

variable {p : Procedimiento} {args : List Arg} {ls : List Literal}

theorem rechaza_nada : Rechaza rechazada := ⟨[], fun _ hg ↦ absurd hg List.not_mem_nil, rfl⟩

theorem rechaza_of_invoke {gs : List (Step BD)} (hgs : ∀ g ∈ gs, Mira g)
    (hls : args.mapM literal = some ls) (h : ∀ q, invoke p ls ≠ some q) :
    Rechaza (gs ++ ejecuta p args) := by
  rcases ejecuta_cases p hls with hnone | hinvoke
  · exact ⟨gs, hgs, congrArg (gs ++ ·) hnone⟩
  · exact absurd hinvoke (h _)

theorem mira_one {g : Step BD} (hg : Mira g) : ∀ f ∈ [g], Mira f := List.forall_mem_singleton.mpr hg

theorem mira_two {f g : Step BD} (hf : Mira f) (hg : Mira g) : ∀ e ∈ [f, g], Mira e :=
  List.forall_mem_cons.mpr ⟨hf, mira_one hg⟩

end Calls

section Restriccion

variable {ip campo valor tipo : Texto} {i : Varchar 18} {c : CampoMonitorizacion}
  {t : TipoValorAnticipacion}
variable {v : Smallint} {z : ℤ}

theorem claveRestriccion_eq (hi : varcharNotNull 18 (.text ip) = some i)
    (hc : named CampoMonitorizacion.miembros campo = some c) (hz : filterValidateInt valor = some z)
    (hv : v.valor = z) (ht : named TipoValorAnticipacion.miembros tipo = some t) :
    claveRestriccion ip campo valor tipo = some (sortKey i.texto, c, v.valor, t) := by
  rw [claveRestriccion, hc, literal_bare, numero_of_filterValidateInt hz, ht,
    sortKey_varcharNotNull hi, hv]

end Restriccion

section Keys

theorem claveAdministrador_eq {l d : Texto} {l' : Varchar 255} {d' : Varchar 64}
    (hl : varcharNotNull 255 (.text l) = some l') (hd : varcharNotNull 64 (.text d) = some d') :
    (sortKey l'.texto, sortKey d'.texto) = claveAdministrador l d :=
  Prod.ext (sortKey_varcharNotNull hl) (sortKey_varcharNotNull hd)

theorem FilaDeAdministrador.clave {a : Administrador} {x : FilaAdministrador}
    (h : FilaDeAdministrador a x) :
    claveAdministrador a.localEmailContacto a.dominioEmailContacto = x.clave :=
  Prod.ext (sortKey_varcharNotNull h.localEmailContacto).symm
    (sortKey_varcharNotNull h.dominioEmailContacto).symm

theorem clavePermiso_eq {l d ip : Texto} {l' : Varchar 255} {d' : Varchar 64} {ip' : Varchar 18}
    (hl : varcharNotNull 255 (.text l) = some l') (hd : varcharNotNull 64 (.text d) = some d')
    (hip : varcharNotNull 18 (.text ip) = some ip') :
    ((sortKey l'.texto, sortKey d'.texto), sortKey ip'.texto) = clavePermiso l d ip :=
  Prod.ext (claveAdministrador_eq hl hd) (sortKey_varcharNotNull hip)

section Permiso

variable {p : PermisosAdministracion} {x : FilaPermiso}

theorem FilaDePermiso.administrador (h : FilaDePermiso p x) :
    claveAdministrador p.localEmailContacto p.dominioEmailContacto = x.administrador :=
  Prod.ext (sortKey_varcharNotNull h.localEmailContacto).symm
    (sortKey_varcharNotNull h.dominioEmailContacto).symm

theorem FilaDePermiso.dispositivo (h : FilaDePermiso p x) : sortKey p.direccionIP = x.dispositivo :=
  (sortKey_varcharNotNull h.direccionIP).symm

theorem FilaDePermiso.clave (h : FilaDePermiso p x) :
    clavePermiso p.localEmailContacto p.dominioEmailContacto p.direccionIP = x.clave :=
  Prod.ext h.administrador h.dispositivo

end Permiso

section Restriccion

variable {ip : Varchar 18} {c : CampoMonitorizacion} {v : Smallint} {t : TipoValorAnticipacion}

theorem clave_restriccion {r : Restricciones} (hr : r.Valido)
    (hip : varcharNotNull 18 (.text r.direccionIP) = some ip)
    (hc : campoMonitorizacion (.text (strval r.campoMonitorizacion)) = some c)
    (hv : smallint (numero (strval r.valorAnticipacion)) = some v)
    (ht : tipoValorAnticipacion (.text (strval r.tipoValorAnticipacion)) = some t) :
    r.clave = some (sortKey ip.texto, c, v.valor, t) := by
  obtain ⟨z, hz, -⟩ := validInt_cases hr.valorAnticipacion
  rw [numero_of_filterValidateInt hz] at hv
  exact claveRestriccion_eq hip (named_of_enum (campo_mem hr.campoMonitorizacion) hc) hz
    (valor_of_toSmallint hv)
    (named_tipo hr.tipoValorAnticipacion ht)

theorem restriccion_suceso {b : BitacoraSucesos} (hb : b.Valido)
    (hip : varcharNotNull 18 (.text b.direccionIP) = some ip)
    (hc : campoMonitorizacion (.text (strval b.campoMonitorizacion)) = some c)
    (hv : smallint (.text (strval b.valorAnticipacion)) = some v)
    (ht : tipoValorAnticipacion (.text (strval b.tipoValorAnticipacion)) = some t) :
    b.restriccion = some (sortKey ip.texto, c, v.valor, t) := by
  obtain ⟨z, hz, -⟩ := validInt_cases hb.valorAnticipacion
  rw [smallint, readInt_of_filterValidateInt hz] at hv
  exact claveRestriccion_eq hip (named_of_enum (campo_mem hb.campoMonitorizacion) hc) hz
    (valor_of_toSmallint hv)
    (named_tipo hb.tipoValorAnticipacion ht)

theorem clave_suceso {b : BitacoraSucesos} {k : ClaveRestriccion} {s p : Marca}
    (hk : b.restriccion = some k) (hs : marca (.text (strval b.fechaSuceso)) = some s)
    (hp : marca (.text (strval b.fechaPrediccion)) = some p) :
    b.clave = some (k, s.segundo, p.segundo) := by
  obtain ⟨m, hm, hs⟩ := Option.bind_eq_some_iff.mp hs
  obtain ⟨n, hn, hp⟩ := Option.bind_eq_some_iff.mp hp
  simp only [BitacoraSucesos.clave, claveSuceso, hk, hm, hn, segundo_of_toMarca hs,
    segundo_of_toMarca hp]

theorem FilaDeRestriccion.clave {r : Restricciones} (hr : r.Valido) {x : FilaRestriccion}
    (h : FilaDeRestriccion r x) :
    r.clave = some x.clave :=
  clave_restriccion hr h.direccionIP h.campoMonitorizacion h.valorAnticipacion
    h.tipoValorAnticipacion

end Restriccion

end Keys

section Administrador

variable {a : Administrador} {oper : Operacion}

theorem pasos_administrador (h : a.validarCamposAdministrador oper) {P : Programa}
    (hP : PideAdministrador a oper P) :
    a.pasos oper = P.pasos := by
  cases hP with
  | @alta x hx =>
    have hcall : ejecuta .insertarAdministrador a.argumentosInsertar = [insertAdministrador x] :=
      ejecuta_of_invoke rfl (invoke_insertarAdministrador.mpr ⟨_, hx.localEmailContacto, _,
        hx.dominioEmailContacto, _, hx.contrasenia, _, hx.fechaRegistroAdministrador, _,
        hx.logueoActivo, rfl⟩)
    rw [Administrador.pasos, if_pos h, hcall, noExisteAdministrador_eq, hx.clave]
    rfl
  | @cambio l d c m hl hd hc hm =>
    have hcall : ejecuta .actualizarAdministrador a.argumentosActualizar =
      actualizarAdministrador l d c m :=
      ejecuta_of_invoke rfl (invoke_actualizarAdministrador.mpr ⟨l, hl, d, hd, c, hc, m, hm, rfl⟩)
    rw [Administrador.pasos, if_pos h, hcall, existeAdministrador_eq, ← claveAdministrador_eq hl hd]
    rfl
  | @baja l d hl hd =>
    have hcall : ejecuta .eliminarAdministrador a.argumentosEliminar = eliminarAdministrador l d :=
      ejecuta_of_invoke rfl (invoke_eliminarAdministrador.mpr ⟨l, hl, d, hd, rfl⟩)
    rw [Administrador.pasos, if_pos h, hcall, existeAdministrador_eq, ← claveAdministrador_eq hl hd]
    rfl

theorem PideAdministrador.registro {P : Programa} (hP : PideAdministrador a oper P) :
    P.operacion = oper ∧ P.clave =
      some (.administrador (claveAdministrador a.localEmailContacto a.dominioEmailContacto)) := by
  cases hP with
  | alta hx => exact ⟨rfl, congrArg (some ∘ Clave.administrador) hx.clave.symm⟩
  | cambio hl hd | baja hl hd =>
    exact ⟨rfl, congrArg (some ∘ Clave.administrador) (claveAdministrador_eq hl hd)⟩

theorem rechaza_administrador (h : a.validarCamposAdministrador oper)
    (hnot : ∀ P, ¬ PideAdministrador a oper P) :
    Rechaza (a.pasos oper) := by
  cases oper with
  | insertar =>
    rw [Administrador.pasos, if_pos h]
    refine rechaza_of_invoke (mira_one mira_guard) rfl (fun q hq ↦ ?_)
    obtain ⟨l, hl, d, hd, c, hc, f, hf, m, hm, -⟩ := invoke_insertarAdministrador.mp hq
    exact hnot (.altaAdministrador ⟨l, d, c, f, m⟩) (.alta ⟨hl, hd, hc, hf, hm⟩)
  | actualizar =>
    rw [Administrador.pasos, if_pos h]
    refine rechaza_of_invoke (mira_one mira_guard) rfl (fun q hq ↦ ?_)
    obtain ⟨l, hl, d, hd, c, hc, m, hm, -⟩ := invoke_actualizarAdministrador.mp hq
    exact hnot _ (.cambio hl hd hc hm)
  | eliminar =>
    rw [Administrador.pasos, if_pos h]
    refine rechaza_of_invoke (mira_one mira_guard) rfl (fun q hq ↦ ?_)
    obtain ⟨l, hl, d, hd, -⟩ := invoke_eliminarAdministrador.mp hq
    exact hnot _ (.baja hl hd)
  | otra =>
    rw [Administrador.pasos, if_pos h]
    exact rechaza_nada

end Administrador

section Permiso

variable {p : PermisosAdministracion} {oper : Operacion}

theorem pasos_permiso (h : p.validarCamposPermisosAdministracion oper) {P : Programa}
    (hP : PidePermiso p oper P) :
    p.pasos oper = P.pasos := by
  cases hP with
  | @alta x hx =>
    have hcall : ejecuta .insertarPermisosAdministracion p.argumentosInsertar =
      [insertPermisos x] :=
      ejecuta_of_invoke rfl
        (invoke_insertarPermisos.mpr ⟨_, hx.direccionIP, _, hx.localEmailContacto, _,
          hx.dominioEmailContacto, _, hx.permisoActivo, rfl⟩)
    rw [PermisosAdministracion.pasos, if_pos h, hcall, existeAdministrador_eq, existeDispositivo_eq,
      hx.administrador, hx.dispositivo]
    rfl
  | @cambio x hx =>
    have hcall : ejecuta .actualizarPermisosAdministracion p.argumentosActualizar =
        actualizarPermisosAdministracion x.direccionIP x.localEmailContacto x.dominioEmailContacto
          x.permisoActivo :=
      ejecuta_of_invoke rfl
        (invoke_actualizarPermisos.mpr ⟨_, hx.direccionIP, _, hx.localEmailContacto, _,
          hx.dominioEmailContacto, _, hx.permisoActivo, rfl⟩)
    rw [PermisosAdministracion.pasos, if_pos h, hcall, existePermiso_eq, hx.clave]
    rfl
  | @baja l d ip hl hd hip =>
    have hcall : ejecuta .eliminarPermisosAdministracion p.argumentosEliminar =
      eliminarPermisosAdministracion ip l d :=
      ejecuta_of_invoke rfl (invoke_eliminarPermisos.mpr ⟨ip, hip, l, hl, d, hd, rfl⟩)
    rw [PermisosAdministracion.pasos, if_pos h, hcall, existePermiso_eq,
      ← clavePermiso_eq hl hd hip]
    rfl

theorem PidePermiso.registro {P : Programa} (hP : PidePermiso p oper P) : P.operacion = oper ∧
    P.clave =
      some (.permiso (clavePermiso p.localEmailContacto p.dominioEmailContacto p.direccionIP)) := by
  cases hP with
  | alta hx | cambio hx => exact ⟨rfl, congrArg (some ∘ Clave.permiso) hx.clave.symm⟩
  | baja hl hd hip => exact ⟨rfl, congrArg (some ∘ Clave.permiso) (clavePermiso_eq hl hd hip)⟩

theorem rechaza_permiso (h : p.validarCamposPermisosAdministracion oper)
    (hnot : ∀ P, ¬ PidePermiso p oper P) :
    Rechaza (p.pasos oper) := by
  cases oper with
  | insertar =>
    rw [PermisosAdministracion.pasos, if_pos h]
    refine rechaza_of_invoke (mira_two mira_guard mira_guard) rfl (fun q hq ↦ ?_)
    obtain ⟨i, hi, l, hl, d, hd, m, hm, -⟩ := invoke_insertarPermisos.mp hq
    exact hnot (.altaPermiso ⟨l, d, i, m⟩) (.alta ⟨hl, hd, hi, hm⟩)
  | actualizar =>
    rw [PermisosAdministracion.pasos, if_pos h]
    refine rechaza_of_invoke (mira_one mira_guard) rfl (fun q hq ↦ ?_)
    obtain ⟨i, hi, l, hl, d, hd, m, hm, -⟩ := invoke_actualizarPermisos.mp hq
    exact hnot _ (.cambio (x := ⟨l, d, i, m⟩) ⟨hl, hd, hi, hm⟩)
  | eliminar =>
    rw [PermisosAdministracion.pasos, if_pos h]
    refine rechaza_of_invoke (mira_one mira_guard) rfl (fun q hq ↦ ?_)
    obtain ⟨i, hi, l, hl, d, hd, -⟩ := invoke_eliminarPermisos.mp hq
    exact hnot _ (.baja hl hd hi)
  | otra =>
    rw [PermisosAdministracion.pasos, if_pos h]
    exact rechaza_nada

end Permiso

section Restriccion

variable {r : Restricciones} {oper : Operacion}

theorem literales_bajaRestriccion (r : Restricciones) : r.argumentosEliminar.mapM literal =
    some [.text r.direccionIP, .text (strval r.campoMonitorizacion),
      numero (strval r.valorAnticipacion), .text (strval r.tipoValorAnticipacion)] := by
  simp only [Restricciones.argumentosEliminar, List.mapM_cons, List.mapM_nil, literal_quoted,
    literal_bare, Option.pure_def, Option.bind_eq_bind, Option.bind_some]

theorem literales_restriccion (r : Restricciones) : r.argumentosInsertar.mapM literal =
    some [.text r.direccionIP, .text (strval r.campoMonitorizacion),
      numero (strval r.valorAnticipacion), .text (strval r.tipoValorAnticipacion),
      .text (strval r.alertaActiva)] := by
  rw [Restricciones.argumentosInsertar, List.mapM_append, literales_bajaRestriccion]
  rfl

theorem pasos_restriccion (h : r.validarCamposRestricciones oper) {P : Programa}
    (hP : PideRestriccion r oper P) :
    r.pasos oper = P.pasos := by
  have hvalido := (Restricciones.validarCamposRestricciones_iff.mp h).1
  cases hP with
  | @alta x hx =>
    have hcall : ejecuta .insertarRestriccion r.argumentosInsertar = [insertRestricciones x] :=
      ejecuta_of_invoke (literales_restriccion r)
        (invoke_insertarRestriccion.mpr ⟨_, hx.direccionIP, _, hx.campoMonitorizacion, _,
          hx.valorAnticipacion, _, hx.tipoValorAnticipacion, _, hx.alertaActiva, rfl⟩)
    rw [Restricciones.pasos, if_pos h, hcall, hx.clave hvalido, noExisteRestriccion_eq,
      existeDispositivo_eq, ← sortKey_varcharNotNull hx.direccionIP]
    rfl
  | @cambio x hx =>
    have hcall : ejecuta .actualizarRestriccion r.argumentosActualizar =
      actualizarRestriccion x.direccionIP
        x.campoMonitorizacion x.valorAnticipacion x.tipoValorAnticipacion x.alertaActiva :=
      ejecuta_of_invoke (literales_restriccion r)
        (invoke_actualizarRestriccion.mpr ⟨_, hx.direccionIP, _, hx.campoMonitorizacion, _,
          hx.valorAnticipacion, _, hx.tipoValorAnticipacion, _, hx.alertaActiva, rfl⟩)
    rw [Restricciones.pasos, if_pos h, hcall, hx.clave hvalido, existeRestriccion_eq]
    rfl
  | @baja ip c v t hip hc hv ht =>
    have hcall : ejecuta .eliminarRestriccion r.argumentosEliminar = eliminarRestriccion ip c v t :=
      ejecuta_of_invoke (literales_bajaRestriccion r)
        (invoke_eliminarRestriccion.mpr ⟨ip, hip, c, hc, v, hv, t, ht, rfl⟩)
    rw [Restricciones.pasos, if_pos h, hcall, clave_restriccion hvalido hip hc hv ht,
      existeRestriccion_eq]
    rfl

theorem PideRestriccion.registro (h : r.validarCamposRestricciones oper) {P : Programa}
    (hP : PideRestriccion r oper P) : P.operacion = oper ∧ P.clave = r.clave.map .restriccion := by
  have hvalido := (Restricciones.validarCamposRestricciones_iff.mp h).1
  cases hP with
  | alta hx | cambio hx =>
    rw [hx.clave hvalido]
    exact ⟨rfl, rfl⟩
  | baja hip hc hv ht =>
    rw [clave_restriccion hvalido hip hc hv ht]
    exact ⟨rfl, rfl⟩

theorem rechaza_restriccion (h : r.validarCamposRestricciones oper)
    (hnot : ∀ P, ¬ PideRestriccion r oper P) :
    Rechaza (r.pasos oper) := by
  cases oper with
  | insertar =>
    rw [Restricciones.pasos, if_pos h]
    refine rechaza_of_invoke (mira_two mira_guard mira_guard) (literales_restriccion r)
      (fun q hq ↦ ?_)
    obtain ⟨i, hi, c, hc, v, hv, t, ht, m, hm, -⟩ := invoke_insertarRestriccion.mp hq
    exact hnot (.altaRestriccion ⟨i, c, v, t, m⟩) (.alta ⟨hi, hc, hv, ht, hm⟩)
  | actualizar =>
    rw [Restricciones.pasos, if_pos h]
    refine rechaza_of_invoke (mira_one mira_guard) (literales_restriccion r) (fun q hq ↦ ?_)
    obtain ⟨i, hi, c, hc, v, hv, t, ht, m, hm, -⟩ := invoke_actualizarRestriccion.mp hq
    exact hnot _ (.cambio (x := ⟨i, c, v, t, m⟩) ⟨hi, hc, hv, ht, hm⟩)
  | eliminar =>
    rw [Restricciones.pasos, if_pos h]
    refine rechaza_of_invoke (mira_one mira_guard) (literales_bajaRestriccion r) (fun q hq ↦ ?_)
    obtain ⟨i, hi, c, hc, v, hv, t, ht, -⟩ := invoke_eliminarRestriccion.mp hq
    exact hnot _ (.baja hi hc hv ht)
  | otra =>
    rw [Restricciones.pasos, if_pos h]
    exact rechaza_nada

end Restriccion

section Suceso

variable {b : BitacoraSucesos} {oper : Operacion}

theorem pasos_suceso (h : b.validarCamposBitacoraSucesos oper) {P : Programa}
    (hP : PideSuceso b oper P) :
    b.pasos oper = P.pasos := by
  cases hP with
  | @alta x hx =>
    have hvalido : b.Valido := (BitacoraSucesos.validarCamposBitacoraSucesos_iff.mp h).1
    have hcall : ejecuta .insertarBitacoraSucesos b.argumentosInsertar = [insertBitacora x] :=
      ejecuta_of_invoke rfl
        (invoke_insertarBitacora.mpr ⟨_, hx.direccionIP, _, hx.campoMonitorizacion, _,
          hx.valorAnticipacion, _, hx.tipoValorAnticipacion, _, hx.fechaSuceso, _,
          hx.fechaPrediccion, _,
        hx.valorCapturado, rfl⟩)
    have hclave :=
      restriccion_suceso hvalido hx.direccionIP hx.campoMonitorizacion hx.valorAnticipacion
      hx.tipoValorAnticipacion
    rw [BitacoraSucesos.pasos, if_pos h, hcall, hclave, existeRestriccion_eq]
    rfl
  | @baja ip c v t s p hip hc hv ht hs hp =>
    have hvalido : b.Valido := BitacoraSucesos.validarCamposBitacoraSucesos_iff.mp h
    have hcall : ejecuta .eliminarBitacoraSucesos b.argumentosEliminar =
      eliminarBitacoraSucesos ip c v t s p :=
      ejecuta_of_invoke rfl
        (invoke_eliminarBitacora.mpr ⟨ip, hip, c, hc, v, hv, t, ht, s, hs, p, hp, rfl⟩)
    rw [BitacoraSucesos.pasos, if_pos h, hcall,
      clave_suceso (restriccion_suceso hvalido hip hc hv ht) hs hp, existeSuceso_eq]
    rfl

theorem PideSuceso.registro (h : b.validarCamposBitacoraSucesos oper) {P : Programa}
    (hP : PideSuceso b oper P) :
    P.operacion = oper ∧ P.clave = b.clave.map .suceso := by
  cases hP with
  | alta hx =>
    have hvalido : b.Valido := (BitacoraSucesos.validarCamposBitacoraSucesos_iff.mp h).1
    have hclave :=
      restriccion_suceso hvalido hx.direccionIP hx.campoMonitorizacion hx.valorAnticipacion
      hx.tipoValorAnticipacion
    rw [clave_suceso hclave hx.fechaSuceso hx.fechaPrediccion]
    exact ⟨rfl, rfl⟩
  | baja hip hc hv ht hs hp =>
    have hvalido : b.Valido := BitacoraSucesos.validarCamposBitacoraSucesos_iff.mp h
    rw [clave_suceso (restriccion_suceso hvalido hip hc hv ht) hs hp]
    exact ⟨rfl, rfl⟩

theorem rechaza_suceso (h : b.validarCamposBitacoraSucesos oper)
    (hnot : ∀ P, ¬ PideSuceso b oper P) :
    Rechaza (b.pasos oper) := by
  cases oper with
  | insertar =>
    rw [BitacoraSucesos.pasos, if_pos h]
    refine rechaza_of_invoke (mira_one mira_guard) rfl (fun q hq ↦ ?_)
    obtain ⟨i, hi, c, hc, v, hv, t, ht, s, hs, p, hp, x, hx, -⟩ := invoke_insertarBitacora.mp hq
    exact hnot (.altaSuceso ⟨i, c, v, t, s, p, x⟩) (.alta ⟨hi, hc, hv, ht, hs, hp, hx⟩)
  | eliminar =>
    rw [BitacoraSucesos.pasos, if_pos h]
    refine rechaza_of_invoke (mira_one mira_guard) rfl (fun q hq ↦ ?_)
    obtain ⟨i, hi, c, hc, v, hv, t, ht, s, hs, p, hp, -⟩ := invoke_eliminarBitacora.mp hq
    exact hnot _ (.baja hi hc hv ht hs hp)
  | actualizar =>
    rw [BitacoraSucesos.pasos, if_pos h]
    exact rechaza_nada
  | otra =>
    rw [BitacoraSucesos.pasos, if_pos h]
    exact rechaza_nada

end Suceso

section Dispositivo

variable {d : Dispositivo} {oper : Operacion}

theorem pasos_dispositivo (h : d.validarCamposDispositivo oper) {P : Programa}
    (hP : PideDispositivo d oper P) :
    d.pasos oper = P.pasos := by
  cases hP with
  | @alta x hx =>
    have hcall : ejecuta .insertarDispositivo d.argumentosInsertar = [insertDispositivo x] :=
      ejecuta_of_invoke (literales_insertar d) (invoke_insertarDispositivo.mpr ⟨x, hx, rfl⟩)
    rw [Dispositivo.pasos, if_pos h, hcall, noExisteDispositivo_eq, ← hx.clave]
    rfl
  | @cambio ip m t v c b hip hm ht hv hc hb =>
    have hcall : ejecuta .actualizarDispositivo d.argumentosActualizar =
        [updateDispositivo (sortKey ip.texto) (setDispositivo m t v c b)] :=
      ejecuta_of_invoke (literales_actualizar d)
        (invoke_actualizarDispositivo.mpr ⟨ip, m, t, v, c, b, hip, hm, ht, hv, hc, hb, rfl⟩)
    rw [Dispositivo.pasos, if_pos h, hcall, existeDispositivo_eq, ← sortKey_varcharNotNull hip]
    rfl
  | @baja ip hip =>
    have hcall : ejecuta .eliminarDispositivo d.argumentosEliminar = eliminarDispositivo ip :=
      ejecuta_of_invoke rfl (invoke_eliminarDispositivo.mpr ⟨ip, hip, rfl⟩)
    rw [Dispositivo.pasos, if_pos h, hcall, existeDispositivo_eq, ← sortKey_varcharNotNull hip]
    rfl

theorem PideDispositivo.registro {P : Programa} (hP : PideDispositivo d oper P) :
    P.operacion = oper ∧ P.clave = some (.dispositivo (sortKey d.direccionIP)) := by
  cases hP with
  | alta hx => exact ⟨rfl, congrArg (some ∘ Clave.dispositivo) hx.clave⟩
  | cambio hip | baja hip =>
    exact ⟨rfl, congrArg (some ∘ Clave.dispositivo) (sortKey_varcharNotNull hip)⟩

theorem rechaza_dispositivo (h : d.validarCamposDispositivo oper)
    (hnot : ∀ P, ¬ PideDispositivo d oper P) :
    Rechaza (d.pasos oper) := by
  cases oper with
  | insertar =>
    rw [Dispositivo.pasos, if_pos h]
    refine rechaza_of_invoke (mira_one mira_guard) (literales_insertar d) (fun q hq ↦ ?_)
    obtain ⟨x, hx, -⟩ := invoke_insertarDispositivo.mp hq
    exact hnot _ (.alta hx)
  | actualizar =>
    rw [Dispositivo.pasos, if_pos h]
    refine rechaza_of_invoke (mira_one mira_guard) (literales_actualizar d) (fun q hq ↦ ?_)
    obtain ⟨i, m, t, v, c, b, hi, hm, ht, hv, hc, hb, -⟩ := invoke_actualizarDispositivo.mp hq
    exact hnot _ (.cambio hi hm ht hv hc hb)
  | eliminar =>
    rw [Dispositivo.pasos, if_pos h]
    refine rechaza_of_invoke (mira_one mira_guard) rfl (fun q hq ↦ ?_)
    obtain ⟨i, hi, -⟩ := Option.bind_eq_some_iff.mp hq
    exact hnot _ (.baja hi)
  | otra =>
    rw [Dispositivo.pasos, if_pos h]
    exact rechaza_nada

end Dispositivo

section Programs

variable {ahora : Reloj} {p : Peticion}

theorem pasos_of_pide (h : p.aceptada ahora) {P : Programa} (hP : Pide ahora p P) :
    p.pasos ahora = P.pasos := by
  cases p with
  | dispositivo a oper => exact pasos_dispositivo h hP
  | administrador a oper => exact pasos_administrador h hP
  | permisosAdministracion a oper => exact pasos_permiso h hP
  | restricciones a oper => exact pasos_restriccion h hP
  | bitacoraSucesos a oper => exact pasos_suceso h hP

theorem rechaza_of_not_pide (h : p.aceptada ahora) (hnot : ∀ P, ¬ Pide ahora p P) :
    Rechaza (p.pasos ahora) := by
  cases p with
  | dispositivo a oper => exact rechaza_dispositivo h hnot
  | administrador a oper => exact rechaza_administrador h hnot
  | permisosAdministracion a oper => exact rechaza_permiso h hnot
  | restricciones a oper => exact rechaza_restriccion h hnot
  | bitacoraSucesos a oper => exact rechaza_suceso h hnot

end Programs

section Results

/-- The steps of a request: it comes to nothing, or it does one thing to the record under `k`. -/
def Resulta (pasos : List (Step BD)) (oper : Operacion) (k : Option Clave) : Prop :=
  (∃ gs h, pasos = (Programa.rechazo gs h).pasos) ∨
    ∃ P : Programa, pasos = P.pasos ∧ P.operacion = oper ∧ P.clave = k

theorem resulta_rechazada {oper : Operacion} {k : Option Clave} : Resulta rechazada oper k :=
  Or.inl ⟨[], fun _ hg ↦ absurd hg List.not_mem_nil, rfl⟩

theorem resulta_of_pide {R : Programa → Prop} {pasos : List (Step BD)} {oper : Operacion}
    {k : Option Clave} (hpasos : ∀ P, R P → pasos = P.pasos)
    (hrechaza : (∀ P, ¬ R P) → Rechaza pasos)
    (hregistro : ∀ P, R P → P.operacion = oper ∧ P.clave = k) : Resulta pasos oper k := by
  by_cases h : ∃ P, R P
  · obtain ⟨P, hP⟩ := h
    exact Or.inr ⟨P, hpasos P hP, hregistro P hP⟩
  · obtain ⟨gs, hgs, he⟩ := hrechaza (fun P hP ↦ h ⟨P, hP⟩)
    exact Or.inl ⟨gs, hgs, he⟩

theorem dispositivo_resulta {d : Dispositivo} (oper : Operacion) :
    Resulta (d.pasos oper) oper (some (.dispositivo (sortKey d.direccionIP))) := by
  by_cases h : d.validarCamposDispositivo oper
  · exact resulta_of_pide (fun P ↦ pasos_dispositivo h) (rechaza_dispositivo h)
      (fun P ↦ PideDispositivo.registro)
  · have hpasos : d.pasos oper = rechazada := if_neg h
    exact hpasos ▸ resulta_rechazada

def clavePeticion (ahora : Reloj) : Peticion → Option Clave
  | .dispositivo a _ => some (.dispositivo (sortKey (Dispositivo.construct ahora a).direccionIP))
  | .administrador a _ =>
    some (.administrador (claveAdministrador (localDe a.email) (dominioDe a.email)))
  | .permisosAdministracion a _ =>
    some (.permiso (clavePermiso (localDe a.email) (dominioDe a.email) (strval a.dirIP)))
  | .restricciones a _ => (Restricciones.construct a).clave.map .restriccion
  | .bitacoraSucesos a oper => (BitacoraSucesos.construct ahora oper a).clave.map .suceso

theorem registro_of_pide {ahora : Reloj} {p : Peticion} (h : p.aceptada ahora) {P : Programa}
    (hP : Pide ahora p P) :
    P.operacion = p.operacion ∧ P.clave = clavePeticion ahora p := by
  cases p with
  | dispositivo a oper => exact PideDispositivo.registro hP
  | administrador a oper => exact PideAdministrador.registro hP
  | permisosAdministracion a oper => exact PidePermiso.registro hP
  | restricciones a oper => exact PideRestriccion.registro h hP
  | bitacoraSucesos a oper => exact PideSuceso.registro h hP

theorem pasos_of_not_aceptada {ahora : Reloj} {p : Peticion} (h : ¬ p.aceptada ahora) :
    p.pasos ahora = rechazada := by
  cases p with
  | dispositivo | administrador | permisosAdministracion | restricciones | bitacoraSucesos =>
    exact if_neg h

theorem peticion_resulta (ahora : Reloj) (p : Peticion) :
    Resulta (p.pasos ahora) p.operacion (clavePeticion ahora p) := by
  by_cases h : p.aceptada ahora
  · exact resulta_of_pide (fun P ↦ pasos_of_pide h) (rechaza_of_not_pide h)
      (fun P ↦ registro_of_pide h)
  · rw [pasos_of_not_aceptada h]
    exact resulta_rechazada

end Results

theorem exists_programa (ahora : Reloj) (p : Peticion) :
    ∃ P : Programa, p.pasos ahora = P.pasos := by
  rcases peticion_resulta ahora p with ⟨gs, h, hp⟩ | ⟨P, hp, -, -⟩
  · exact ⟨_, hp⟩
  · exact ⟨P, hp⟩

section Integridad

variable {f : Step BD} {bd bd' : BD}

theorem integra_of_mira (hf : Mira f) (h : bd.Integra) (hs : f bd = some bd') : bd'.Integra := by
  rw [hf bd bd' hs]
  exact h

theorem integra_procedimiento {e : Eliminacion} (hf : f ∈ e.procedimiento) (h : bd.Integra)
    (hs : f bd = some bd') : bd'.Integra := by
  cases e with
  | dispositivo ip =>
    simp only [Eliminacion.procedimiento, eliminarDispositivo, List.mem_cons, List.not_mem_nil,
      or_false] at hf
    rcases hf with rfl | rfl | rfl | rfl
    · exact deleteBitacora_integra h hs
    · exact deleteRestricciones_integra h hs
    · exact deletePermisos_integra h hs
    · exact deleteDispositivo_integra h hs
  | administrador l d =>
    simp only [Eliminacion.procedimiento, eliminarAdministrador, List.mem_cons, List.not_mem_nil,
      or_false] at hf
    rcases hf with rfl | rfl
    · exact deletePermisos_integra h hs
    · exact deleteAdministrador_integra h hs
  | restriccion ip c v t =>
    simp only [Eliminacion.procedimiento, eliminarRestriccion, List.mem_cons, List.not_mem_nil,
      or_false] at hf
    rcases hf with rfl | rfl
    · exact deleteBitacora_integra h hs
    · exact deleteRestricciones_integra h hs

/-- No statement of a request breaks a constraint. -/
theorem integra_paso (P : Programa) (hf : f ∈ P.pasos) (h : bd.Integra) (hs : f bd = some bd') :
    bd'.Integra := by
  cases P with
  | rechazo gs hgs =>
    rcases List.mem_append.mp hf with hf | hf
    · exact integra_of_mira (hgs f hf) h hs
    · rw [List.mem_singleton.mp hf] at hs
      cases hs
  | baja e =>
    rcases List.mem_cons.mp hf with rfl | hf
    · exact integra_of_mira mira_guard h hs
    · exact integra_procedimiento hf h hs
  | altaPermiso x =>
    simp only [Programa.pasos, List.mem_cons, List.not_mem_nil, or_false] at hf
    rcases hf with rfl | rfl | rfl
    · exact integra_of_mira mira_guard h hs
    · exact integra_of_mira mira_guard h hs
    · exact insertPermisos_integra h hs
  | altaRestriccion x =>
    simp only [Programa.pasos, List.mem_cons, List.not_mem_nil, or_false] at hf
    rcases hf with rfl | rfl | rfl
    · exact integra_of_mira mira_guard h hs
    · exact integra_of_mira mira_guard h hs
    · exact insertRestricciones_integra h hs
  | altaDispositivo x =>
    rcases List.mem_pair.mp hf with rfl | rfl
    · exact integra_of_mira mira_guard h hs
    · exact insertDispositivo_integra h hs
  | altaAdministrador x =>
    rcases List.mem_pair.mp hf with rfl | rfl
    · exact integra_of_mira mira_guard h hs
    · exact insertAdministrador_integra h hs
  | altaSuceso x =>
    rcases List.mem_pair.mp hf with rfl | rfl
    · exact integra_of_mira mira_guard h hs
    · exact insertBitacora_integra h hs
  | cambioDispositivo k f hf' =>
    rcases List.mem_pair.mp hf with rfl | rfl
    · exact integra_of_mira mira_guard h hs
    · exact updateDispositivo_integra hf' h hs
  | cambioAdministrador k f =>
    rcases List.mem_pair.mp hf with rfl | rfl
    · exact integra_of_mira mira_guard h hs
    · exact updateAdministrador_integra h hs
  | cambioPermiso k f =>
    rcases List.mem_pair.mp hf with rfl | rfl
    · exact integra_of_mira mira_guard h hs
    · exact updatePermisos_integra h hs
  | cambioRestriccion k f =>
    rcases List.mem_pair.mp hf with rfl | rfl
    · exact integra_of_mira mira_guard h hs
    · exact updateRestricciones_integra h hs
  | bajaPermiso k =>
    rcases List.mem_pair.mp hf with rfl | rfl
    · exact integra_of_mira mira_guard h hs
    · exact deletePermisos_integra h hs
  | bajaSuceso k =>
    rcases List.mem_pair.mp hf with rfl | rfl
    · exact integra_of_mira mira_guard h hs
    · exact deleteBitacora_integra h hs

theorem integra_pasos {ahora : Reloj} {p : Peticion} (hf : f ∈ p.pasos ahora) (h : bd.Integra)
    (hs : f bd = some bd') : bd'.Integra := by
  obtain ⟨P, hP⟩ := exists_programa ahora p
  exact integra_paso P (hP ▸ hf) h hs

end Integridad

end ServiciosRed.Programs
