import ServiciosRed.Addresses
import ServiciosRed.Effects

namespace ServiciosRed.Routes

open Text Php MySQL Relational Schema Calendar Interleaving Statements Procedures Fields Server
  Binding Deletion
  Programs Requests Listeners Paths Reachability Addresses Collation Effects

inductive Registro
  | dispositivo (x : FilaDispositivo)
  | administrador (x : FilaAdministrador)
  | permiso (x : FilaPermiso)
  | restriccion (x : FilaRestriccion)

inductive Ruta
  | argv
  | post

def nombre {α : Type} [DecidableEq α] (miembros : List (String × α)) (x : α) : Texto :=
  (Baselines.nombreDe miembros x).getD []

def correo (l : Varchar 255) (d : Varchar 64) : Texto := l.texto ++ '@' :: d.texto

namespace Registro

/-- The key fields, under the names that the listener reads for an insertion. -/
def campos : Registro → List (String × Texto)
  | dispositivo x => [("dirIP", x.direccionIP.texto)]
  | administrador x => [("email", correo x.localEmailContacto x.dominioEmailContacto)]
  | permiso x =>
    [("email", correo x.localEmailContacto x.dominioEmailContacto), ("dirIP", x.direccionIP.texto)]
  | restriccion x => [("dirIP", x.direccionIP.texto),
      ("campoMonit", nombre CampoMonitorizacion.miembros x.campoMonitorizacion),
      ("valorAntic", intText x.valorAnticipacion.valor),
      ("tipoValAntic", nombre TipoValorAnticipacion.miembros x.tipoValorAnticipacion)]

def argv (r : Registro) : List Texto := r.campos.map Prod.snd

def post (r : Registro) : Post :=
  fun campo ↦ (("operacion", "eliminar".toList) :: r.campos).lookup campo

def escucha : Registro → List Texto → Option Peticion
  | dispositivo _ => escuchaDispositivo
  | administrador _ => escuchaAdministrador
  | permiso _ => escuchaPermisosAdministracion
  | restriccion _ => escuchaRestricciones

def escuchaPost : Registro → Post → Option Peticion
  | dispositivo _ => escuchaDispositivoPost
  | administrador _ => escuchaAdministradorPost
  | permiso _ => escuchaPermisosAdministracionPost
  | restriccion _ => escuchaRestriccionesPost

def peticion (r : Registro) : Ruta → Option Peticion
  | .argv => r.escucha r.argv
  | .post => r.escuchaPost r.post

/-- A restriction never passes the test of `alertaActiva`, and the POST form for
a device reads its address under another name. -/
def Alcanza : Registro → Ruta → Prop
  | restriccion _, _ => False
  | dispositivo _, .post => False
  | _, _ => True

end Registro

def bajaDirecta : Registro → Peticion
  | .dispositivo x => .dispositivo (soloDireccion (some x.direccionIP.texto)) .eliminar
  | .administrador x =>
    .administrador ⟨some (correo x.localEmailContacto x.dominioEmailContacto), none, none⟩ .eliminar
  | .permiso x =>
    .permisosAdministracion
      ⟨some (correo x.localEmailContacto x.dominioEmailContacto), some x.direccionIP.texto, none⟩
      .eliminar
  | .restriccion x =>
    .restricciones ⟨some x.direccionIP.texto,
      some (nombre CampoMonitorizacion.miembros x.campoMonitorizacion),
      some (intText x.valorAnticipacion.valor),
      some (nombre TipoValorAnticipacion.miembros x.tipoValorAnticipacion), none⟩ .eliminar

theorem peticion_argv (r : Registro) : r.peticion .argv = some (bajaDirecta r) := by
  cases r with
  | dispositivo x | administrador x | permiso x | restriccion x => rfl

theorem conOperacion_post (r : Registro) (borra : Peticion) (escribe : Operacion → Peticion) :
    conOperacion r.post borra escribe = some borra := by
  have hpost : r.post "operacion" = eliminar := rfl
  have hoper : Operacion.of eliminar = .eliminar := by decide
  rw [conOperacion, hpost, hoper]

theorem peticion_post_dispositivo (x : FilaDispositivo) : (Registro.dispositivo x).peticion .post =
    some (.dispositivo (soloDireccion none) .eliminar) := by
  rw [Registro.peticion, Registro.escuchaPost, escuchaDispositivoPost, conOperacion_post]
  rfl

theorem peticion_post {r : Registro} (h : ∀ x, r ≠ .dispositivo x) :
    r.peticion .post = some (bajaDirecta r) := by
  cases r with
  | dispositivo x => exact absurd rfl (h x)
  | administrador x =>
    rw [Registro.peticion, Registro.escuchaPost, escuchaAdministradorPost, conOperacion_post]
    rfl
  | permiso x =>
    rw [Registro.peticion, Registro.escuchaPost, escuchaPermisosAdministracionPost,
      conOperacion_post]
    rfl
  | restriccion x =>
    rw [Registro.peticion, Registro.escuchaPost, escuchaRestriccionesPost, conOperacion_post]
    rfl

section Engines

variable [Engine] {bd bd' : BD} {k : Clave}

inductive Fila
  | dispositivo (x : FilaDispositivo)
  | administrador (x : FilaAdministrador)
  | permiso (x : FilaPermiso)
  | restriccion (x : FilaRestriccion)
  | suceso (x : FilaSuceso)

namespace Fila

def clave : Fila → Clave
  | dispositivo x => .dispositivo x.clave
  | administrador x => .administrador x.clave
  | permiso x => .permiso x.clave
  | restriccion x => .restriccion x.clave
  | suceso x => .suceso x.clave

def En (bd : BD) : Fila → Prop
  | dispositivo x => x ∈ bd.dispositivo
  | administrador x => x ∈ bd.administrador
  | permiso x => x ∈ bd.permisosAdministracion
  | restriccion x => x ∈ bd.restricciones
  | suceso x => x ∈ bd.bitacoraSucesos

end Fila

def Registro.fila : Registro → Fila
  | dispositivo x => .dispositivo x
  | administrador x => .administrador x
  | permiso x => .permiso x
  | restriccion x => .restriccion x

def Retira (k : Clave) (bd bd' : BD) : Prop :=
  ∀ x : Fila, x.En bd' ↔ x.En bd ∧ x.clave ≠ k ∧ ¬ x.clave.Refiere k

theorem retira_sin (e : Eliminacion) (bd : BD) : Retira (Eliminado e) bd (e.sin bd) := by
  intro x
  cases x with
  | dispositivo x =>
    refine (Table.mem_deleteWhere _ _ x).trans (and_congr_right (fun _ ↦ ?_))
    cases e <;> simp [Fila.clave, Eliminado, Clave.Refiere, Eliminacion.MencionaDispositivo]
  | administrador x =>
    refine (Table.mem_deleteWhere _ _ x).trans (and_congr_right (fun _ ↦ ?_))
    cases e <;> simp [Fila.clave, Eliminado, Clave.Refiere, Eliminacion.MencionaAdministrador]
  | permiso x =>
    refine (Table.mem_deleteWhere _ _ x).trans (and_congr_right (fun _ ↦ ?_))
    cases e <;> simp [Fila.clave, Eliminado, Clave.Refiere, Eliminacion.MencionaPermiso]
  | restriccion x =>
    refine (Table.mem_deleteWhere _ _ x).trans (and_congr_right (fun _ ↦ ?_))
    cases e <;> simp [Fila.clave, Eliminado, Clave.Refiere, Eliminacion.MencionaRestriccion]
  | suceso x =>
    refine (Table.mem_deleteWhere _ _ x).trans (and_congr_right (fun _ ↦ ?_))
    cases e <;> simp [Fila.clave, Eliminado, Clave.Refiere, Eliminacion.MencionaSuceso,
      Eliminacion.MencionaRestriccion]

theorem retira_permiso (j : ClavePermiso) (bd : BD) : Retira (.permiso j) bd
    { bd with permisosAdministracion := bd.permisosAdministracion.deleteWhere (· = j) } := by
  intro x
  cases x with
  | permiso x =>
    refine (Table.mem_deleteWhere _ _ x).trans (and_congr_right (fun _ ↦ ?_))
    simp [Fila.clave, Clave.Refiere]
  | dispositivo x | administrador x | restriccion x | suceso x =>
    simp [Fila.En, Fila.clave, Clave.Refiere]

theorem retira_suceso (j : ClaveSuceso) (bd : BD) : Retira (.suceso j) bd
    { bd with bitacoraSucesos := bd.bitacoraSucesos.deleteWhere (· = j) } := by
  intro x
  cases x with
  | suceso x =>
    refine (Table.mem_deleteWhere _ _ x).trans (and_congr_right (fun _ ↦ ?_))
    simp [Fila.clave, Clave.Refiere]
  | dispositivo x | administrador x | permiso x | restriccion x =>
    simp [Fila.En, Fila.clave, Clave.Refiere]

section Deletions

variable {P : Programa}

theorem retira_of_cambia (hoper : P.operacion = .eliminar) (hk : P.clave = some k)
    (h : Cambia bd bd' P) :
    Retira k bd bd' := by
  cases P with
  | baja e =>
    obtain rfl := Option.some.inj hk
    rw [h.2]
    exact retira_sin e bd
  | bajaPermiso j =>
    obtain rfl := Option.some.inj hk
    rw [h.2]
    exact retira_permiso j bd
  | bajaSuceso j =>
    obtain rfl := Option.some.inj hk
    rw [h.2]
    exact retira_suceso j bd
  | rechazo | altaDispositivo | altaAdministrador | altaPermiso | altaRestriccion | altaSuceso
  | cambioDispositivo | cambioAdministrador | cambioPermiso | cambioRestriccion => cases hoper

theorem puede_of_existe (hoper : P.operacion = .eliminar) (hk : P.clave = some k)
    (h : Existe bd k) : Puede bd P := by
  cases P with
  | baja | bajaPermiso | bajaSuceso =>
    obtain rfl := Option.some.inj hk
    exact h
  | rechazo | altaDispositivo | altaAdministrador | altaPermiso | altaRestriccion | altaSuceso
  | cambioDispositivo | cambioAdministrador | cambioPermiso | cambioRestriccion => cases hoper

end Deletions

/-- The request is accepted, its texts keep to their literals, and it removes the record. -/
structure Borra (ahora : Reloj) (p : Peticion) (k : Clave) (bd : BD) : Prop where
  aceptada : p.aceptada ahora
  limpia : p.Limpia
  retira : ∃ bd', solo (p.pasos ahora) bd = (bd', true) ∧ Retira k bd bd'

variable {ahora : Reloj}

theorem Fila.En.existe {x : Fila} (h : x.En bd) : Existe bd x.clave := by
  cases x with
  | dispositivo x | administrador x | permiso x | restriccion x | suceso x => exact ⟨x, h, rfl⟩

/-- A deletion takes a stored row away exactly when the server reads the key of the row in it. -/
theorem borra_iff {p : Peticion} {x : Fila} (hx : x.En bd) (hoper : p.operacion = .eliminar)
    (hclase : ∀ k, clavePeticion ahora p = some k → ¬ x.clave.Refiere k) :
    Borra ahora p x.clave bd ↔
      p.aceptada ahora ∧ p.Limpia ∧ ∃ P, Pide ahora p P ∧ P.clave = some x.clave := by
  constructor
  · rintro ⟨haceptada, hlimpia, bd', hsolo, hretira⟩
    obtain ⟨P, hP, -, hcambia⟩ := (solo_peticion_iff haceptada).mp hsolo
    obtain ⟨hop, hclave⟩ := registro_of_pide haceptada hP
    refine ⟨haceptada, hlimpia, P, hP, ?_⟩
    have hgone : ¬ x.En bd' := fun h ↦ ((hretira x).mp h).2.1 rfl
    cases hk : P.clave with
    | none =>
      cases P with
      | rechazo => exact hcambia.elim
      | _ => cases hk
    | some k =>
      have htaken := (retira_of_cambia (hop.trans hoper) hk hcambia x).not.mp hgone
      by_contra hne
      have hne : x.clave ≠ k := fun he ↦ hne (congrArg some he.symm)
      exact htaken ⟨hx, hne, hclase k (hclave.symm.trans hk)⟩
  · rintro ⟨haceptada, hlimpia, P, hP, hk⟩
    have hop := (registro_of_pide haceptada hP).1.trans hoper
    have hpuede := puede_of_existe hop hk hx.existe
    obtain ⟨bd', hcambia⟩ := exists_cambia hpuede
    exact ⟨haceptada, hlimpia, bd', (solo_peticion_iff haceptada).mpr ⟨P, hP, hpuede, hcambia⟩,
      retira_of_cambia hop hk hcambia⟩

section Keys

omit [Engine] in
theorem varcharNotNull_texto {n : ℕ} (v : Varchar n) :
    varcharNotNull n (.text v.texto) = some v := by
  rw [varcharNotNull, varchar, fit_of_length v.cabe]
  rfl

theorem weight_at : Engine.weight '@' ≠ Engine.weight ' ' := by
  intro h
  have hupper := (Engine.weight_ascii '@' ' ' (by decide) (by decide)).mp h
  exact absurd hupper (by decide)

theorem notMem_of_sortKey {s : Texto} (h : sortKey ((explode '@' s).headD []) = sortKey s) :
    '@' ∉ s := by
  intro hmem
  obtain ⟨l, r, rfl, hl⟩ := List.eq_append_cons_of_mem hmem
  have hhead : (explode '@' (l ++ '@' :: r)).headD [] = l := by
    rw [explode_append hl]
    rfl
  have hlt := lt_length_sortKey weight_at l r
  rw [hhead] at h
  rw [← h] at hlt
  exact absurd (length_sortKey_le l) (Nat.not_le.mpr hlt)

theorem correo_notMem {l : Varchar 255} {d : Varchar 64}
    (h : claveAdministrador (localDe (some (correo l d))) (dominioDe (some (correo l d))) =
      claveAdministrador l.texto d.texto) : '@' ∉ l.texto ∧ '@' ∉ d.texto := by
  obtain ⟨hl, hd⟩ := Prod.ext_iff.mp h
  have hlocal : '@' ∉ l.texto := by
    by_cases hmem : '@' ∈ l.texto
    · obtain ⟨p, r, hp, hfree⟩ := List.eq_append_cons_of_mem hmem
      have hcut : localDe (some (correo l d)) = (explode '@' l.texto).headD [] := by
        rw [correo, hp, List.append_assoc, List.cons_append, localDe_append hfree,
          explode_append hfree]
        rfl
      rw [hcut] at hl
      exact notMem_of_sortKey hl
    · exact hmem
  refine ⟨hlocal, notMem_of_sortKey ?_⟩
  have hcut : dominioDe (some (correo l d)) = (explode '@' d.texto).headD [] := by
    rw [dominioDe, correo, strval, Option.getD_some, explode_append hlocal]
    cases explode '@' d.texto <;> rfl
  rw [← hcut]
  exact hd

omit [Engine] in
theorem correo_partes {l : Varchar 255} {d : Varchar 64} (hl : '@' ∉ l.texto) (hd : '@' ∉ d.texto) :
    localDe (some (correo l d)) = l.texto ∧ dominioDe (some (correo l d)) = d.texto :=
  ⟨localDe_append hl _, dominioDe_append hl hd⟩

end Keys

/-- The address of a device is valid and comes back as the same key when the
constructor takes it apart. -/
structure DireccionGuardada (t : Texto) : Prop where
  valida : direccionValida (ipDe (some t)) (mskDe (some t))
  clave : sortKey (direccion (ipDe (some t)) (mskDe (some t))) = sortKey t

def Registro.Legible : Registro → Prop
  | dispositivo x => DireccionGuardada x.direccionIP.texto
  | administrador x => EmailRegistrado x.localEmailContacto.texto x.dominioEmailContacto.texto
  | permiso x => EmailRegistrado x.localEmailContacto.texto x.dominioEmailContacto.texto ∧
      DireccionRegistrada x.direccionIP.texto
  | restriccion _ => True

theorem borra_dispositivo_iff {x : FilaDispositivo} (hx : x ∈ bd.dispositivo) :
    Borra ahora (bajaDirecta (.dispositivo x)) (.dispositivo x.clave) bd ↔
      DireccionGuardada x.direccionIP.texto := by
  have hdir : (Dispositivo.construct ahora (soloDireccion (some x.direccionIP.texto))).direccionIP =
      direccion (ipDe (some x.direccionIP.texto)) (mskDe (some x.direccionIP.texto)) :=
        direccionIP_construct rfl
  have haceptada : (bajaDirecta (.dispositivo x)).aceptada ahora ↔
      direccionValida (ipDe (some x.direccionIP.texto)) (mskDe (some x.direccionIP.texto)) :=
    @Dispositivo.validarCamposDispositivo_iff
      (Dispositivo.construct ahora (soloDireccion (some x.direccionIP.texto))) .eliminar
  refine (borra_iff (x := .dispositivo x) hx rfl ?_).trans ?_
  · rintro k h
    cases h
    exact id
  rw [haceptada]
  constructor
  · rintro ⟨hvalida, -, P, hP, hk⟩
    refine ⟨hvalida, ?_⟩
    have hclave := (PideDispositivo.registro hP).2.symm.trans hk
    rw [hdir] at hclave
    exact Clave.dispositivo.inj (Option.some.inj hclave)
  · rintro ⟨hvalida, hclave⟩
    have hlength : (direccion (ipDe (some x.direccionIP.texto))
        (mskDe (some x.direccionIP.texto))).length ≤ 18 := by
      have hle := length_sortKey_le x.direccionIP.texto
      rw [← hclave, (numbered_direccion hvalida).sortKey_eq, List.length_map] at hle
      exact hle.trans x.direccionIP.cabe
    have hip : varcharNotNull 18 (.text (Dispositivo.construct ahora
        (soloDireccion (some x.direccionIP.texto))).direccionIP) = some ⟨_, hlength⟩ := by
      rw [hdir]
      exact varcharNotNull_texto ⟨_, hlength⟩
    exact ⟨hvalida, fun v hv ↦ absurd hv List.not_mem_nil, _, .baja hip,
      congrArg (some ∘ Clave.dispositivo) hclave⟩

theorem borra_administrador_iff {x : FilaAdministrador} (hx : x ∈ bd.administrador) :
    Borra ahora (bajaDirecta (.administrador x)) (.administrador x.clave) bd ↔
      EmailRegistrado x.localEmailContacto.texto x.dominioEmailContacto.texto := by
  have haceptada : (bajaDirecta (.administrador x)).aceptada ahora ↔
      emailValido (localDe (some (correo x.localEmailContacto x.dominioEmailContacto)))
        (dominioDe (some (correo x.localEmailContacto x.dominioEmailContacto))) :=
    @Administrador.validarCamposAdministrador_iff
      (Administrador.construct ahora ⟨some (correo x.localEmailContacto x.dominioEmailContacto),
        none, none⟩) .eliminar
  refine (borra_iff (x := .administrador x) hx rfl ?_).trans ?_
  · rintro k h
    cases h
    exact id
  rw [haceptada]
  constructor
  · rintro ⟨hvalido, hlimpia, P, hP, hk⟩
    have hclave := (PideAdministrador.registro hP).2.symm.trans hk
    obtain ⟨hl, hd⟩ := correo_notMem (Clave.administrador.inj (Option.some.inj hclave))
    obtain ⟨hlocal, hdominio⟩ := correo_partes hl hd
    have hlimpio := hlimpia
    simp only [bajaDirecta, Peticion.Limpia, Peticion.sueltos, hlocal, hdominio,
      List.forall_mem_cons] at hlimpio
    rw [hlocal, hdominio] at hvalido
    exact ⟨hvalido, hl, hd, hlimpio.1, hlimpio.2.1⟩
  · rintro ⟨hvalido, hl, hd, hlimpio⟩
    obtain ⟨hlocal, hdominio⟩ := correo_partes hl hd
    refine ⟨?_, ?_, _, .baja (l := x.localEmailContacto) (d := x.dominioEmailContacto) ?_ ?_, rfl⟩
    · rw [hlocal, hdominio]
      exact hvalido
    · simp only [bajaDirecta, Peticion.Limpia, Peticion.sueltos, hlocal, hdominio,
        List.forall_mem_cons]
      exact ⟨hlimpio.1, hlimpio.2, fun v hv ↦ absurd hv List.not_mem_nil⟩
    · simp only [Administrador.construct, hlocal]
      exact varcharNotNull_texto _
    · simp only [Administrador.construct, hdominio]
      exact varcharNotNull_texto _

theorem borra_permiso_iff {x : FilaPermiso} (hx : x ∈ bd.permisosAdministracion) :
    Borra ahora (bajaDirecta (.permiso x)) (.permiso x.clave) bd ↔
      EmailRegistrado x.localEmailContacto.texto x.dominioEmailContacto.texto ∧
        DireccionRegistrada x.direccionIP.texto := by
  have haceptada : (bajaDirecta (.permiso x)).aceptada ahora ↔
      emailValido (localDe (some (correo x.localEmailContacto x.dominioEmailContacto)))
          (dominioDe (some (correo x.localEmailContacto x.dominioEmailContacto))) ∧
        direccionValida (ipDe (some x.direccionIP.texto)) (mskDe (some x.direccionIP.texto)) :=
    @PermisosAdministracion.validarCamposPermisosAdministracion_iff
      (PermisosAdministracion.construct ⟨some (correo x.localEmailContacto x.dominioEmailContacto),
        some x.direccionIP.texto, none⟩) .eliminar
  refine (borra_iff (x := .permiso x) hx rfl ?_).trans ?_
  · rintro k h
    cases h
    exact id
  rw [haceptada]
  constructor
  · rintro ⟨⟨hvalido, hvalida⟩, hlimpia, P, hP, hk⟩
    have hclave := Clave.permiso.inj (Option.some.inj ((PidePermiso.registro hP).2.symm.trans hk))
    obtain ⟨hl, hd⟩ := correo_notMem (congrArg Prod.fst hclave)
    obtain ⟨hlocal, hdominio⟩ := correo_partes hl hd
    have hlimpio := hlimpia
    simp only [bajaDirecta, Peticion.Limpia, Peticion.sueltos, hlocal, hdominio,
      List.forall_mem_cons] at hlimpio
    rw [hlocal, hdominio] at hvalido
    exact ⟨⟨hvalido, hl, hd, hlimpio.1, hlimpio.2.1⟩, hvalida, hlimpio.2.2.1⟩
  · rintro ⟨⟨hvalido, hl, hd, hlimpio⟩, hvalida, hlimpia⟩
    obtain ⟨hlocal, hdominio⟩ := correo_partes hl hd
    have hip : varcharNotNull 18 (.text (strval (some x.direccionIP.texto))) =
        some x.direccionIP := varcharNotNull_texto _
    refine ⟨⟨?_, hvalida⟩, ?_, _, .baja (l := x.localEmailContacto) (d := x.dominioEmailContacto)
      ?_ ?_ hip, rfl⟩
    · rw [hlocal, hdominio]
      exact hvalido
    · simp only [bajaDirecta, Peticion.Limpia, Peticion.sueltos, hlocal, hdominio,
        List.forall_mem_cons]
      exact ⟨hlimpio.1, hlimpio.2, hlimpia, fun v hv ↦ absurd hv List.not_mem_nil⟩
    · simp only [PermisosAdministracion.construct, hlocal]
      exact varcharNotNull_texto _
    · simp only [PermisosAdministracion.construct, hdominio]
      exact varcharNotNull_texto _

/-- Clean requests store nothing but records that can be named. -/
theorem legible_of_alcanzable (hbd : Alcanzable bd) {r : Registro} (hr : r.fila.En bd) :
    r.Legible := by
  have hordenada := hbd.ordenada
  cases r with
  | dispositivo x =>
    obtain ⟨ip, msk, hd⟩ := hordenada.dispositivos x hr
    obtain ⟨hip, hmsk⟩ := direccion_parts hd.valida
    rw [← hd.direccionIP] at hip hmsk
    refine ⟨?_, ?_⟩
    · rw [hip, hmsk]
      exact hd.valida
    · rw [hip, hmsk, hd.direccionIP]
  | administrador x => exact hordenada.administradores x hr
  | permiso x => exact hordenada.permisos x hr
  | restriccion x => trivial

omit [Engine] in
theorem not_aceptada_restriccion (x : FilaRestriccion) :
    ¬ (bajaDirecta (.restriccion x)).aceptada ahora := by
  intro h
  have hnull : decide ((none : Valor) = some "NULL".toList) :=
    (Restricciones.validarCamposRestricciones_iff.mp h).2
  exact absurd hnull (by decide)

omit [Engine] in
theorem not_aceptada_sinDireccion :
    ¬ (Peticion.dispositivo (soloDireccion none) .eliminar).aceptada ahora := by
  intro h
  have h : (Dispositivo.construct ahora (soloDireccion none)).validarCamposDispositivo .eliminar :=
    h
  have hvalida : direccionValida (ipDe none) (mskDe none) :=
    Dispositivo.validarCamposDispositivo_iff.mp h
  exact absurd hvalida (by decide)

def Elimina (ahora : Reloj) (r : Registro) (ruta : Ruta) (bd : BD) : Prop :=
  ∃ p, r.peticion ruta = some p ∧ Borra ahora p r.fila.clave bd

theorem elimina_iff {r : Registro} {ruta : Ruta} {p : Peticion} (h : r.peticion ruta = some p) :
    Elimina ahora r ruta bd ↔ Borra ahora p r.fila.clave bd := by
  rw [Elimina, h]
  simp only [Option.some.injEq, exists_eq_left']

theorem not_elimina_restriccion (x : FilaRestriccion) (ruta : Ruta) :
    ¬ Elimina ahora (.restriccion x) ruta bd := by
  have hpeticion : (Registro.restriccion x).peticion ruta =
      some (bajaDirecta (.restriccion x)) := by
    cases ruta with
    | argv => exact peticion_argv _
    | post => exact peticion_post (fun _ h ↦ nomatch h)
  rintro ⟨p, hp, hborra⟩
  rw [hpeticion, Option.some.injEq] at hp
  subst hp
  exact not_aceptada_restriccion x hborra.aceptada

theorem exists_not_elimina (h : bd.restricciones.rows.Nonempty) :
    ∃ x ∈ bd.restricciones, ∀ ruta, ¬ Elimina ahora (.restriccion x) ruta bd := by
  obtain ⟨x, hx⟩ := h
  exact ⟨x, hx, not_elimina_restriccion x⟩

theorem en_dispositivo {x : FilaDispositivo} (h : x ∈ bd.dispositivo.rows) :
    (Registro.dispositivo x).fila.En bd := h

theorem not_elimina_post (x : FilaDispositivo) : ¬ Elimina ahora (.dispositivo x) .post bd := by
  rintro ⟨p, hp, hborra⟩
  rw [peticion_post_dispositivo, Option.some.injEq] at hp
  subst hp
  exact not_aceptada_sinDireccion hborra.aceptada

/-- A route of a deletion works for a stored record exactly when it is no restriction
and no device that is named in a POST, and its key fields can be read back. They can
wherever clean requests have stored them. -/
theorem eliminar_alcanza_iff (ahora : Reloj) (bd : BD) (r : Registro) (hr : r.fila.En bd)
    (ruta : Ruta) :
    (Elimina ahora r ruta bd ↔ r.Alcanza ruta ∧ r.Legible) ∧ (Alcanzable bd → r.Legible) := by
  refine ⟨?_, fun hbd ↦ legible_of_alcanzable hbd hr⟩
  cases r with
  | dispositivo x =>
    cases ruta with
    | argv =>
      exact (elimina_iff (peticion_argv _)).trans
        ((borra_dispositivo_iff hr).trans (and_iff_right True.intro).symm)
    | post => exact iff_of_false (not_elimina_post x) (fun h ↦ h.1)
  | administrador x =>
    have hpeticion : (Registro.administrador x).peticion ruta =
        some (bajaDirecta (.administrador x)) := by
      cases ruta with
      | argv => exact peticion_argv _
      | post => exact peticion_post (fun _ h ↦ nomatch h)
    exact (elimina_iff hpeticion).trans
      ((borra_administrador_iff hr).trans (and_iff_right True.intro).symm)
  | permiso x =>
    have hpeticion : (Registro.permiso x).peticion ruta = some (bajaDirecta (.permiso x)) := by
      cases ruta with
      | argv => exact peticion_argv _
      | post => exact peticion_post (fun _ h ↦ nomatch h)
    exact (elimina_iff hpeticion).trans
      ((borra_permiso_iff hr).trans (and_iff_right True.intro).symm)
  | restriccion x => exact iff_of_false (not_elimina_restriccion x ruta) (fun h ↦ h.1)

end Engines

section Ejemplo

@[irreducible]
def vigilado : BD :=
  tras reloj (.altaRestriccion "10.0.0.1/24" "min") (tras reloj Baselines.altaEquipo BD.vacia)

theorem alcanzable_vigilado : Alcanzable vigilado := by
  unfold vigilado
  exact (Alcanzable.vacia.tras reloj (by decide)).tras reloj (by decide)

def registroEquipo : Registro := .dispositivo Baselines.filaEquipo

theorem registroEquipo_en : registroEquipo.fila.En vigilado := en_dispositivo (by decide +kernel)

theorem eliminar_alcanza_equipo : Elimina reloj registroEquipo .argv vigilado := by
  obtain ⟨helimina, hlegible⟩ :=
    eliminar_alcanza_iff reloj vigilado registroEquipo registroEquipo_en .argv
  exact helimina.mpr ⟨True.intro, hlegible alcanzable_vigilado⟩

/-- The restriction of the device is stored, and neither route deletes it. -/
theorem not_alcanza_restriccion : Alcanzable vigilado ∧
    ∃ x ∈ vigilado.restricciones, ∀ ruta, ¬ Elimina reloj (.restriccion x) ruta vigilado :=
  ⟨alcanzable_vigilado, exists_not_elimina (by decide +kernel)⟩

end Ejemplo

end ServiciosRed.Routes
