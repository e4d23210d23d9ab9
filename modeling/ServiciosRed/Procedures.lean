import ServiciosRed.Schema
import ServiciosRed.Interleaving

namespace ServiciosRed.Procedures

open MySQL Relational Schema Interleaving

variable [Engine]

def deleteBitacora (p : ClaveSuceso → Prop) [DecidablePred p] : Step BD := fun bd ↦
  some { bd with bitacoraSucesos := bd.bitacoraSucesos.deleteWhere p }

def deleteRestricciones (p : ClaveRestriccion → Prop) [DecidablePred p] : Step BD := fun bd ↦
  if Unreferenced FilaSuceso.restriccion bd.bitacoraSucesos p then
    some { bd with restricciones := bd.restricciones.deleteWhere p }
  else none

def deletePermisos (p : ClavePermiso → Prop) [DecidablePred p] : Step BD := fun bd ↦
  some { bd with permisosAdministracion := bd.permisosAdministracion.deleteWhere p }

def deleteDispositivo (p : ClaveDispositivo → Prop) [DecidablePred p] : Step BD := fun bd ↦
  if Unreferenced FilaPermiso.dispositivo bd.permisosAdministracion p ∧
      Unreferenced FilaRestriccion.dispositivo bd.restricciones p then
    some { bd with dispositivo := bd.dispositivo.deleteWhere p }
  else none

def deleteAdministrador (p : ClaveAdministrador → Prop) [DecidablePred p] : Step BD := fun bd ↦
  if Unreferenced FilaPermiso.administrador bd.permisosAdministracion p then
    some { bd with administrador := bd.administrador.deleteWhere p }
  else none

def insertDispositivo (x : FilaDispositivo) : Step BD := fun bd ↦
  if ∃ r ∈ bd.dispositivo.rows, sortKey r.ruta.texto = sortKey x.ruta.texto then none
  else (bd.dispositivo.insert? x).map (fun T ↦ { bd with dispositivo := T })

def insertAdministrador (x : FilaAdministrador) : Step BD := fun bd ↦
  (bd.administrador.insert? x).map (fun T ↦ { bd with administrador := T })

def insertPermisos (x : FilaPermiso) : Step BD := fun bd ↦
  if bd.administrador.Has x.administrador ∧ bd.dispositivo.Has x.dispositivo then
    (bd.permisosAdministracion.insert? x).map (fun T ↦ { bd with permisosAdministracion := T })
  else none

def insertRestricciones (x : FilaRestriccion) : Step BD := fun bd ↦
  if bd.dispositivo.Has x.dispositivo then
    (bd.restricciones.insert? x).map (fun T ↦ { bd with restricciones := T })
  else none

def insertBitacora (x : FilaSuceso) : Step BD := fun bd ↦
  if bd.restricciones.Has x.restriccion then
    (bd.bitacoraSucesos.insert? x).map (fun T ↦ { bd with bitacoraSucesos := T })
  else none

def updateDispositivo (k : ClaveDispositivo) (f : Update FilaDispositivo.clave) : Step BD :=
  total fun bd ↦ { bd with dispositivo := bd.dispositivo.modify k f }

def updateAdministrador (k : ClaveAdministrador) (f : Update FilaAdministrador.clave) : Step BD :=
  total fun bd ↦ { bd with administrador := bd.administrador.modify k f }

def updatePermisos (k : ClavePermiso) (f : Update FilaPermiso.clave) : Step BD :=
  total fun bd ↦ { bd with permisosAdministracion := bd.permisosAdministracion.modify k f }

def updateRestricciones (k : ClaveRestriccion) (f : Update FilaRestriccion.clave) : Step BD :=
  total fun bd ↦ { bd with restricciones := bd.restricciones.modify k f }

section Procedimientos

variable (_direccionIP : Varchar 18) (_localEmailContacto : Varchar 255)
  (_dominioEmailContacto : Varchar 64)
variable (_campoMonitorizacion : CampoMonitorizacion) (_valorAnticipacion : Smallint)
variable (_tipoValorAnticipacion : TipoValorAnticipacion)

def insertarDispositivo (_fechaRegistroHost : Fecha) (_monitorizacionActiva : Bandera)
    (_tipoDispositivo : TipoDispositivo) (_versionSNMP : VersionSNMP) (_comunidadSNMP : Varchar 64)
    (_ruta : Varchar 255) (_linea : LineaFila) : List (Step BD) :=
  [insertDispositivo
    { direccionIP := _direccionIP, fechaRegistroHost := _fechaRegistroHost,
      monitorizacionActiva := _monitorizacionActiva, tipoDispositivo := _tipoDispositivo,
      versionSNMP := _versionSNMP, comunidadSNMP := _comunidadSNMP, ruta := _ruta,
      linea := _linea }]

def setDispositivo (_monitorizacionActiva : Bandera) (_tipoDispositivo : TipoDispositivo)
    (_versionSNMP : VersionSNMP) (_comunidadSNMP : Varchar 64) (_linea : LineaFila) :
    Update FilaDispositivo.clave :=
  ⟨fun r ↦ { r with
    monitorizacionActiva := _monitorizacionActiva, tipoDispositivo := _tipoDispositivo,
    versionSNMP := _versionSNMP, comunidadSNMP := _comunidadSNMP, linea := _linea }, fun _ ↦ rfl⟩

def actualizarDispositivo (_monitorizacionActiva : Bandera) (_tipoDispositivo : TipoDispositivo)
    (_versionSNMP : VersionSNMP) (_comunidadSNMP : Varchar 64) (_linea : LineaFila) :
    List (Step BD) :=
  [updateDispositivo (sortKey _direccionIP.texto)
    (setDispositivo _monitorizacionActiva _tipoDispositivo _versionSNMP _comunidadSNMP _linea)]

def eliminarDispositivo : List (Step BD) :=
  [deleteBitacora (fun k ↦ k.1.1 = sortKey _direccionIP.texto),
    deleteRestricciones (fun k ↦ k.1 = sortKey _direccionIP.texto),
    deletePermisos (fun k ↦ k.2 = sortKey _direccionIP.texto),
    deleteDispositivo (fun k ↦ k = sortKey _direccionIP.texto)]

def insertarAdministrador (_contrasenia : Varchar 32) (_fechaRegistroAdministrador : Fecha)
    (_logueoActivo : Bandera) : List (Step BD) :=
  [insertAdministrador
    { localEmailContacto := _localEmailContacto, dominioEmailContacto := _dominioEmailContacto,
      contrasenia := _contrasenia, fechaRegistroAdministrador := _fechaRegistroAdministrador,
      logueoActivo := _logueoActivo }]

def actualizarAdministrador (_contrasenia : Varchar 32) (_logueoActivo : Bandera) :
    List (Step BD) :=
  [updateAdministrador (sortKey _localEmailContacto.texto, sortKey _dominioEmailContacto.texto)
    ⟨fun r ↦ { r with contrasenia := _contrasenia, logueoActivo := _logueoActivo }, fun _ ↦ rfl⟩]

def eliminarAdministrador : List (Step BD) :=
  [deletePermisos
      (fun k ↦ k.1 = (sortKey _localEmailContacto.texto, sortKey _dominioEmailContacto.texto)),
    deleteAdministrador
      (fun k ↦ k = (sortKey _localEmailContacto.texto, sortKey _dominioEmailContacto.texto))]

def insertarPermisosAdministracion (_permisoActivo : Bandera) : List (Step BD) :=
  [insertPermisos
    { localEmailContacto := _localEmailContacto, dominioEmailContacto := _dominioEmailContacto,
      direccionIP := _direccionIP, permisoActivo := _permisoActivo }]

def actualizarPermisosAdministracion (_permisoActivo : Bandera) : List (Step BD) :=
  [updatePermisos ((sortKey _localEmailContacto.texto, sortKey _dominioEmailContacto.texto),
      sortKey _direccionIP.texto)
    ⟨fun r ↦ { r with permisoActivo := _permisoActivo }, fun _ ↦ rfl⟩]

def eliminarPermisosAdministracion : List (Step BD) :=
  [deletePermisos (fun k ↦ k =
    ((sortKey _localEmailContacto.texto, sortKey _dominioEmailContacto.texto),
    sortKey _direccionIP.texto))]

def insertarRestriccion (_alertaActiva : Bandera) : List (Step BD) :=
  [insertRestricciones
    { direccionIP := _direccionIP, campoMonitorizacion := _campoMonitorizacion,
      valorAnticipacion := _valorAnticipacion, tipoValorAnticipacion := _tipoValorAnticipacion,
      alertaActiva := _alertaActiva }]

def actualizarRestriccion (_alertaActiva : Bandera) : List (Step BD) :=
  [updateRestricciones (sortKey _direccionIP.texto, _campoMonitorizacion, _valorAnticipacion.valor,
      _tipoValorAnticipacion)
    ⟨fun r ↦ { r with alertaActiva := _alertaActiva }, fun _ ↦ rfl⟩]

def eliminarRestriccion : List (Step BD) :=
  [deleteBitacora (fun k ↦ k.1 = (sortKey _direccionIP.texto, _campoMonitorizacion,
      _valorAnticipacion.valor, _tipoValorAnticipacion)),
    deleteRestricciones (fun k ↦ k = (sortKey _direccionIP.texto, _campoMonitorizacion,
      _valorAnticipacion.valor, _tipoValorAnticipacion))]

def insertarBitacoraSucesos (_fechaSuceso _fechaPrediccion : Marca) (_valorCapturado : Varchar 4) :
    List (Step BD) :=
  [insertBitacora
    { direccionIP := _direccionIP, campoMonitorizacion := _campoMonitorizacion,
      valorAnticipacion := _valorAnticipacion, tipoValorAnticipacion := _tipoValorAnticipacion,
      fechaSuceso := _fechaSuceso, fechaPrediccion := _fechaPrediccion,
      valorCapturado := _valorCapturado }]

def eliminarBitacoraSucesos (_fechaSuceso _fechaPrediccion : Marca) : List (Step BD) :=
  [deleteBitacora (fun k ↦ k = ((sortKey _direccionIP.texto, _campoMonitorizacion,
    _valorAnticipacion.valor, _tipoValorAnticipacion), _fechaSuceso.segundo,
    _fechaPrediccion.segundo))]

end Procedimientos

section Integridad

variable {bd bd' : BD}

theorem deleteBitacora_integra {p : ClaveSuceso → Prop} [DecidablePred p] (h : bd.Integra)
    (hs : deleteBitacora p bd = some bd') : bd'.Integra := by
  cases hs
  exact { h with alertaBitacoraSucesos := h.alertaBitacoraSucesos.deleteChild p }

theorem deleteRestricciones_integra {p : ClaveRestriccion → Prop} [DecidablePred p] (h : bd.Integra)
    (hs : deleteRestricciones p bd = some bd') : bd'.Integra := by
  unfold deleteRestricciones at hs
  split_ifs at hs with hp
  cases hs
  exact { h with
    ipAlertas := h.ipAlertas.deleteChild p
    alertaBitacoraSucesos := h.alertaBitacoraSucesos.deleteParent p hp }

theorem deletePermisos_integra {p : ClavePermiso → Prop} [DecidablePred p] (h : bd.Integra)
    (hs : deletePermisos p bd = some bd') : bd'.Integra := by
  cases hs
  exact { h with
    emailPermisosAdministracion := h.emailPermisosAdministracion.deleteChild p
    ipPermisosAdministracion := h.ipPermisosAdministracion.deleteChild p }

theorem deleteDispositivo_integra {p : ClaveDispositivo → Prop} [DecidablePred p] (h : bd.Integra)
    (hs : deleteDispositivo p bd = some bd') : bd'.Integra := by
  unfold deleteDispositivo at hs
  split_ifs at hs with hp
  cases hs
  exact { h with
    ruta := fun r hr s hs ↦ h.ruta r ((Table.mem_deleteWhere _ p r).mp hr).1 s
      ((Table.mem_deleteWhere _ p s).mp hs).1
    ipPermisosAdministracion := h.ipPermisosAdministracion.deleteParent p hp.1
    ipAlertas := h.ipAlertas.deleteParent p hp.2 }

theorem deleteAdministrador_integra {p : ClaveAdministrador → Prop} [DecidablePred p]
    (h : bd.Integra) (hs : deleteAdministrador p bd = some bd') : bd'.Integra := by
  unfold deleteAdministrador at hs
  split_ifs at hs with hp
  cases hs
  exact { h with emailPermisosAdministracion := h.emailPermisosAdministracion.deleteParent p hp }

theorem insertDispositivo_cases {x : FilaDispositivo} (hs : insertDispositivo x bd = some bd') :
    (∀ r ∈ bd.dispositivo, sortKey r.ruta.texto ≠ sortKey x.ruta.texto) ∧
      ∃ T, bd.dispositivo.insert? x = some T ∧ bd' = { bd with dispositivo := T } := by
  unfold insertDispositivo at hs
  split_ifs at hs with hx
  obtain ⟨T, hT, rfl⟩ := Option.map_eq_some_iff.mp hs
  exact ⟨fun r hr he ↦ hx ⟨r, hr, he⟩, T, hT, rfl⟩

theorem rutaUnica_insert? {T U : Table FilaDispositivo.clave} {x : FilaDispositivo}
    (h : RutaUnica T) (hU : T.insert? x = some U)
    (hx : ∀ r ∈ T, sortKey r.ruta.texto ≠ sortKey x.ruta.texto) :
    RutaUnica U := by
  intro r hr s hs he
  rcases (Table.mem_insert? hU).mp hr with rfl | hr <;>
    rcases (Table.mem_insert? hU).mp hs with rfl | hs
  · rfl
  · exact absurd he.symm (hx s hs)
  · exact absurd he (hx r hr)
  · exact h r hr s hs he

theorem insertDispositivo_integra {x : FilaDispositivo} (h : bd.Integra)
    (hs : insertDispositivo x bd = some bd') : bd'.Integra := by
  obtain ⟨hx, T, hT, rfl⟩ := insertDispositivo_cases hs
  exact { h with
    ruta := rutaUnica_insert? h.ruta hT hx
    ipPermisosAdministracion := h.ipPermisosAdministracion.insertParent hT
    ipAlertas := h.ipAlertas.insertParent hT }

theorem insertAdministrador_integra {x : FilaAdministrador} (h : bd.Integra)
    (hs : insertAdministrador x bd = some bd') : bd'.Integra := by
  obtain ⟨T, hT, rfl⟩ := Option.map_eq_some_iff.mp hs
  exact { h with emailPermisosAdministracion := h.emailPermisosAdministracion.insertParent hT }

theorem insertPermisos_integra {x : FilaPermiso} (h : bd.Integra)
    (hs : insertPermisos x bd = some bd') : bd'.Integra := by
  unfold insertPermisos at hs
  split_ifs at hs with hx
  obtain ⟨T, hT, rfl⟩ := Option.map_eq_some_iff.mp hs
  exact { h with
    emailPermisosAdministracion := h.emailPermisosAdministracion.insertChild hT hx.1
    ipPermisosAdministracion := h.ipPermisosAdministracion.insertChild hT hx.2 }

theorem insertRestricciones_integra {x : FilaRestriccion} (h : bd.Integra)
    (hs : insertRestricciones x bd = some bd') : bd'.Integra := by
  unfold insertRestricciones at hs
  split_ifs at hs with hx
  obtain ⟨T, hT, rfl⟩ := Option.map_eq_some_iff.mp hs
  exact { h with
    ipAlertas := h.ipAlertas.insertChild hT hx
    alertaBitacoraSucesos := h.alertaBitacoraSucesos.insertParent hT }

theorem insertBitacora_integra {x : FilaSuceso} (h : bd.Integra)
    (hs : insertBitacora x bd = some bd') : bd'.Integra := by
  unfold insertBitacora at hs
  split_ifs at hs with hx
  obtain ⟨T, hT, rfl⟩ := Option.map_eq_some_iff.mp hs
  exact { h with alertaBitacoraSucesos := h.alertaBitacoraSucesos.insertChild hT hx }

theorem updateDispositivo_integra {k : ClaveDispositivo} {f : Update FilaDispositivo.clave}
    (hf : ∀ r, (f.1 r).ruta = r.ruta) (h : bd.Integra) (hs : updateDispositivo k f bd = some bd') :
    bd'.Integra := by
  cases hs
  refine { h with
    ruta := fun r hr s hs he ↦ ?_
    ipPermisosAdministracion := h.ipPermisosAdministracion.modifyParent k f
    ipAlertas := h.ipAlertas.modifyParent k f }
  obtain ⟨r, hr', rfl⟩ := (Table.mem_modify _ k f _).mp hr
  obtain ⟨s, hs', rfl⟩ := (Table.mem_modify _ k f _).mp hs
  have hruta (x : FilaDispositivo) : (if x.clave = k then f.1 x else x).ruta = x.ruta := by
    split_ifs
    · exact hf x
    · rfl
  rw [hruta, hruta] at he
  rw [h.ruta r hr' s hs' he]

theorem updateAdministrador_integra {k : ClaveAdministrador} {f : Update FilaAdministrador.clave}
    (h : bd.Integra) (hs : updateAdministrador k f bd = some bd') : bd'.Integra := by
  cases hs
  exact { h with emailPermisosAdministracion := h.emailPermisosAdministracion.modifyParent k f }

theorem updatePermisos_integra {k : ClavePermiso} {f : Update FilaPermiso.clave} (h : bd.Integra)
    (hs : updatePermisos k f bd = some bd') : bd'.Integra := by
  cases hs
  exact { h with
    emailPermisosAdministracion :=
      h.emailPermisosAdministracion.modifyChild k f (fun r ↦ congrArg Prod.fst (f.2 r))
    ipPermisosAdministracion :=
      h.ipPermisosAdministracion.modifyChild k f (fun r ↦ congrArg Prod.snd (f.2 r)) }

theorem updateRestricciones_integra {k : ClaveRestriccion} {f : Update FilaRestriccion.clave}
    (h : bd.Integra) (hs : updateRestricciones k f bd = some bd') : bd'.Integra := by
  cases hs
  exact { h with
    ipAlertas := h.ipAlertas.modifyChild k f (fun r ↦ congrArg Prod.fst (f.2 r))
    alertaBitacoraSucesos := h.alertaBitacoraSucesos.modifyParent k f }

end Integridad

end ServiciosRed.Procedures
