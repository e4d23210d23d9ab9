import ServiciosRed.Procedures

namespace ServiciosRed.Deletion

open MySQL Relational Schema Interleaving Procedures

/-- A call of one of the three procedures that delete a record together with the
rows that depend on it. -/
inductive Eliminacion
  | dispositivo (_direccionIP : Varchar 18)
  | administrador (_localEmailContacto : Varchar 255) (_dominioEmailContacto : Varchar 64)
  | restriccion (_direccionIP : Varchar 18) (_campoMonitorizacion : CampoMonitorizacion)
      (_valorAnticipacion : Smallint) (_tipoValorAnticipacion : TipoValorAnticipacion)

section Procedures

variable [Engine]

namespace Eliminacion

def procedimiento : Eliminacion → List (Step BD)
  | dispositivo ip => eliminarDispositivo ip
  | administrador l d => eliminarAdministrador l d
  | restriccion ip campo valor tipo => eliminarRestriccion ip campo valor tipo

def MencionaDispositivo : Eliminacion → ClaveDispositivo → Prop
  | dispositivo ip, k => k = sortKey ip.texto
  | _, _ => False

def MencionaAdministrador : Eliminacion → ClaveAdministrador → Prop
  | administrador l d, k => k = (sortKey l.texto, sortKey d.texto)
  | _, _ => False

def MencionaPermiso : Eliminacion → ClavePermiso → Prop
  | dispositivo ip, k => k.2 = sortKey ip.texto
  | administrador l d, k => k.1 = (sortKey l.texto, sortKey d.texto)
  | restriccion _ _ _ _, _ => False

def MencionaRestriccion : Eliminacion → ClaveRestriccion → Prop
  | dispositivo ip, k => k.1 = sortKey ip.texto
  | administrador _ _, _ => False
  | restriccion ip campo valor tipo, k => k = (sortKey ip.texto, campo, valor.valor, tipo)

def MencionaSuceso (e : Eliminacion) (k : ClaveSuceso) : Prop := e.MencionaRestriccion k.1

instance : (e : Eliminacion) → DecidablePred e.MencionaDispositivo
  | dispositivo ip => fun k ↦ inferInstanceAs (Decidable (k = sortKey ip.texto))
  | administrador _ _ | restriccion _ _ _ _ => fun _ ↦ inferInstanceAs (Decidable False)

instance : (e : Eliminacion) → DecidablePred e.MencionaAdministrador
  | administrador l d =>
    fun k ↦ inferInstanceAs (Decidable (k = (sortKey l.texto, sortKey d.texto)))
  | dispositivo _ | restriccion _ _ _ _ => fun _ ↦ inferInstanceAs (Decidable False)

instance : (e : Eliminacion) → DecidablePred e.MencionaPermiso
  | dispositivo ip => fun k ↦ inferInstanceAs (Decidable (k.2 = sortKey ip.texto))
  | administrador l d => fun k ↦
    inferInstanceAs (Decidable (k.1 = (sortKey l.texto, sortKey d.texto)))
  | restriccion _ _ _ _ => fun _ ↦ inferInstanceAs (Decidable False)

instance : (e : Eliminacion) → DecidablePred e.MencionaRestriccion
  | dispositivo ip => fun k ↦ inferInstanceAs (Decidable (k.1 = sortKey ip.texto))
  | administrador _ _ => fun _ ↦ inferInstanceAs (Decidable False)
  | restriccion ip campo valor tipo => fun k ↦
    inferInstanceAs (Decidable (k = (sortKey ip.texto, campo, valor.valor, tipo)))

instance (e : Eliminacion) : DecidablePred e.MencionaSuceso := fun k ↦
  inferInstanceAs (Decidable (e.MencionaRestriccion k.1))

def sin (e : Eliminacion) (bd : BD) : BD where
  dispositivo := bd.dispositivo.deleteWhere e.MencionaDispositivo
  administrador := bd.administrador.deleteWhere e.MencionaAdministrador
  permisosAdministracion := bd.permisosAdministracion.deleteWhere e.MencionaPermiso
  restricciones := bd.restricciones.deleteWhere e.MencionaRestriccion
  bitacoraSucesos := bd.bitacoraSucesos.deleteWhere e.MencionaSuceso

end Eliminacion

variable {bd : BD}

theorem deleteBitacora_accepted {p : ClaveSuceso → Prop} [DecidablePred p] :
    deleteBitacora p bd = some { bd with bitacoraSucesos := bd.bitacoraSucesos.deleteWhere p } :=
      rfl

theorem deletePermisos_accepted {p : ClavePermiso → Prop} [DecidablePred p] :
    deletePermisos p bd =
      some { bd with permisosAdministracion := bd.permisosAdministracion.deleteWhere p } := rfl

theorem deleteRestricciones_accepted {p : ClaveRestriccion → Prop} [DecidablePred p]
    (h : Unreferenced FilaSuceso.restriccion bd.bitacoraSucesos p) :
    deleteRestricciones p bd = some { bd with restricciones := bd.restricciones.deleteWhere p } :=
  if_pos h

theorem deleteDispositivo_accepted {p : ClaveDispositivo → Prop} [DecidablePred p]
    (h : Unreferenced FilaPermiso.dispositivo bd.permisosAdministracion p)
    (h' : Unreferenced FilaRestriccion.dispositivo bd.restricciones p) :
    deleteDispositivo p bd = some { bd with dispositivo := bd.dispositivo.deleteWhere p } :=
  if_pos ⟨h, h'⟩

theorem deleteAdministrador_accepted {p : ClaveAdministrador → Prop} [DecidablePred p]
    (h : Unreferenced FilaPermiso.administrador bd.permisosAdministracion p) :
    deleteAdministrador p bd = some { bd with administrador := bd.administrador.deleteWhere p } :=
  if_pos h

variable (bd)

theorem solo_eliminarDispositivo (ip : Varchar 18) :
    solo (eliminarDispositivo ip) bd = ((Eliminacion.dispositivo ip).sin bd, true) := by
  unfold eliminarDispositivo
  rw [solo_cons_some deleteBitacora_accepted, solo_cons_some (deleteRestricciones_accepted ?_),
    solo_cons_some deletePermisos_accepted, solo_cons_some (deleteDispositivo_accepted ?_ ?_)]
  · refine Prod.ext (BD.ext rfl ?_ rfl rfl rfl) rfl
    exact (Table.deleteWhere_of_forall _ _ (fun _ ↦ id)).symm
  all_goals exact unreferenced_deleteWhere (fun _ ↦ id)

theorem solo_eliminarAdministrador (l : Varchar 255) (d : Varchar 64) :
    solo (eliminarAdministrador l d) bd = ((Eliminacion.administrador l d).sin bd, true) := by
  unfold eliminarAdministrador
  rw [solo_cons_some deletePermisos_accepted, solo_cons_some (deleteAdministrador_accepted ?_)]
  · refine Prod.ext (BD.ext ?_ rfl rfl ?_ ?_) rfl
    all_goals exact (Table.deleteWhere_of_forall _ _ (fun _ ↦ id)).symm
  · exact unreferenced_deleteWhere (fun _ ↦ id)

theorem solo_eliminarRestriccion (ip : Varchar 18) (campo : CampoMonitorizacion) (valor : Smallint)
    (tipo : TipoValorAnticipacion) :
    solo (eliminarRestriccion ip campo valor tipo) bd =
      ((Eliminacion.restriccion ip campo valor tipo).sin bd, true) := by
  unfold eliminarRestriccion
  rw [solo_cons_some deleteBitacora_accepted, solo_cons_some (deleteRestricciones_accepted ?_)]
  · refine Prod.ext (BD.ext ?_ ?_ ?_ rfl rfl) rfl
    all_goals exact (Table.deleteWhere_of_forall _ _ (fun _ ↦ id)).symm
  · exact unreferenced_deleteWhere (fun _ ↦ id)

theorem solo_procedimiento (e : Eliminacion) : solo e.procedimiento bd = (e.sin bd, true) := by
  cases e with
  | dispositivo ip => exact solo_eliminarDispositivo bd ip
  | administrador l d => exact solo_eliminarAdministrador bd l d
  | restriccion ip campo valor tipo => exact solo_eliminarRestriccion bd ip campo valor tipo

variable {bd}

theorem sin_integra (e : Eliminacion) (h : bd.Integra) : (e.sin bd).Integra where
  ruta := fun r hr s hs ↦ h.ruta r ((Table.mem_deleteWhere _ _ r).mp hr).1 s
    ((Table.mem_deleteWhere _ _ s).mp hs).1
  emailPermisosAdministracion := by
    refine (h.emailPermisosAdministracion.deleteChild _).deleteParent _
      (unreferenced_deleteWhere (fun c hc ↦ ?_))
    cases e with
    | administrador => exact hc
    | dispositivo | restriccion => exact hc.elim
  ipPermisosAdministracion := by
    refine (h.ipPermisosAdministracion.deleteChild _).deleteParent _
      (unreferenced_deleteWhere (fun c hc ↦ ?_))
    cases e with
    | dispositivo => exact hc
    | administrador | restriccion => exact hc.elim
  ipAlertas := by
    refine (h.ipAlertas.deleteChild _).deleteParent _ (unreferenced_deleteWhere (fun c hc ↦ ?_))
    cases e with
    | dispositivo => exact hc
    | administrador | restriccion => exact hc.elim
  alertaBitacoraSucesos := (h.alertaBitacoraSucesos.deleteChild _).deleteParent _
    (unreferenced_deleteWhere (fun _ ↦ id))

/-- Alone, each of the three procedures runs to its end and leaves exactly the
rows that do not mention the key it deletes. -/
theorem eliminar_procedure_correct (e : Eliminacion) (bd : BD) (h : bd.Integra) :
    ∃ bd', solo e.procedimiento bd = (bd', true) ∧ bd'.Integra ∧
      (∀ r, r ∈ bd'.dispositivo ↔ r ∈ bd.dispositivo ∧ ¬ e.MencionaDispositivo r.clave) ∧
      (∀ r, r ∈ bd'.administrador ↔ r ∈ bd.administrador ∧ ¬ e.MencionaAdministrador r.clave) ∧
      (∀ r, r ∈ bd'.permisosAdministracion ↔
        r ∈ bd.permisosAdministracion ∧ ¬ e.MencionaPermiso r.clave) ∧
      (∀ r, r ∈ bd'.restricciones ↔ r ∈ bd.restricciones ∧ ¬ e.MencionaRestriccion r.clave) ∧
      ∀ r, r ∈ bd'.bitacoraSucesos ↔ r ∈ bd.bitacoraSucesos ∧ ¬ e.MencionaSuceso r.clave :=
  ⟨e.sin bd, solo_procedimiento bd e, sin_integra e h, Table.mem_deleteWhere _ _,
    Table.mem_deleteWhere _ _, Table.mem_deleteWhere _ _, Table.mem_deleteWhere _ _,
    Table.mem_deleteWhere _ _⟩

end Procedures

section Ejemplo

def host : FilaDispositivo where
  direccionIP := ⟨"127.0.0.1/24".toList, by decide⟩
  fechaRegistroHost := ⟨17000, by decide⟩
  monitorizacionActiva := .uno
  tipoDispositivo := .host
  versionSNMP := .v1
  comunidadSNMP := ⟨"public".toList, by decide⟩
  ruta := ⟨"/home/vsalmean/Redes/Hosts/127_0_0_1_24".toList, by decide⟩
  linea :=
    { min_cpu := none, max_cpu := some ⟨"90".toList, by decide⟩, avg_cpu := none, min_ram := none,
      max_ram := none, avg_ram := none, min_hdd := none, max_hdd := none, avg_hdd := none,
      min_temp := none, max_temp := none, avg_temp := none, min_volt := none, max_volt := none,
      avg_volt := none, ping_promedio := none }

def admin : FilaAdministrador where
  localEmailContacto := ⟨"admin".toList, by decide⟩
  dominioEmailContacto := ⟨"red.mx".toList, by decide⟩
  contrasenia := ⟨"5f4dcc3b5aa765d61d8327deb882cf99".toList, by decide⟩
  fechaRegistroAdministrador := ⟨17000, by decide⟩
  logueoActivo := .cero

def permiso : FilaPermiso where
  localEmailContacto := admin.localEmailContacto
  dominioEmailContacto := admin.dominioEmailContacto
  direccionIP := host.direccionIP
  permisoActivo := .uno

def alerta : FilaRestriccion where
  direccionIP := host.direccionIP
  campoMonitorizacion := .max_volt
  valorAnticipacion := ⟨5, by decide⟩
  tipoValorAnticipacion := .hor
  alertaActiva := .uno

def suceso : FilaSuceso where
  direccionIP := alerta.direccionIP
  campoMonitorizacion := alerta.campoMonitorizacion
  valorAnticipacion := alerta.valorAnticipacion
  tipoValorAnticipacion := alerta.tipoValorAnticipacion
  fechaSuceso := ⟨1468800000, by decide⟩
  fechaPrediccion := ⟨1468818000, by decide⟩
  valorCapturado := ⟨"8".toList, by decide⟩

def unaDeCada : BD :=
  ⟨.single host, .single admin, .single permiso, .single alerta, .single suceso⟩

theorem integra_unaDeCada : unaDeCada.Integra where
  ruta r hr s hs _ := (Table.mem_single.mp hr).trans (Table.mem_single.mp hs).symm
  emailPermisosAdministracion c hc := by
    rw [Table.mem_single.mp hc]
    exact ⟨admin, Table.mem_single.mpr rfl, rfl⟩
  ipPermisosAdministracion c hc := by
    rw [Table.mem_single.mp hc]
    exact ⟨host, Table.mem_single.mpr rfl, rfl⟩
  ipAlertas c hc := by
    rw [Table.mem_single.mp hc]
    exact ⟨host, Table.mem_single.mpr rfl, rfl⟩
  alertaBitacoraSucesos c hc := by
    rw [Table.mem_single.mp hc]
    exact ⟨alerta, Table.mem_single.mpr rfl, rfl⟩

theorem eliminar_procedure_correct_host :
    ∃ bd', solo (Eliminacion.dispositivo host.direccionIP).procedimiento unaDeCada = (bd', true) ∧
      bd'.Integra ∧ admin ∈ bd'.administrador ∧ host ∉ bd'.dispositivo ∧
      permiso ∉ bd'.permisosAdministracion ∧ suceso ∉ bd'.bitacoraSucesos := by
  obtain ⟨bd', hs, hi, hd, ha, hp, -, hb⟩ :=
    eliminar_procedure_correct (.dispositivo host.direccionIP) unaDeCada integra_unaDeCada
  refine ⟨bd', hs, hi, (ha admin).mpr ⟨Table.mem_single.mpr rfl, id⟩, ?_, ?_, ?_⟩
  · exact fun h ↦ ((hd host).mp h).2 rfl
  · exact fun h ↦ ((hp permiso).mp h).2 rfl
  · exact fun h ↦ ((hb suceso).mp h).2 rfl

end Ejemplo

end ServiciosRed.Deletion
