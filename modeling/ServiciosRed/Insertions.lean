import ServiciosRed.Reachability
import ServiciosRed.Baselines
import ServiciosRed.Transmission

namespace ServiciosRed.Insertions

open Text Php Filters MySQL Relational Schema Calendar Interleaving Statements Procedures Fields
  Server Binding Programs
  Requests Domains Commutation Paths Reachability Transmission

section Engines

variable [Engine] {ahora : Reloj} {bd : BD}

def comprobaciones (ahora : Reloj) : Peticion → List (Step BD)
  | .dispositivo a _ => [noExisteDispositivo (Dispositivo.construct ahora a).direccionIP]
  | .administrador a _ => [noExisteAdministrador (localDe a.email) (dominioDe a.email)]
  | .permisosAdministracion a _ =>
    [existeAdministrador (localDe a.email) (dominioDe a.email), existeDispositivo (strval a.dirIP)]
  | .restricciones a _ =>
    [noExisteRestriccion (Restricciones.construct a).clave, existeDispositivo (strval a.dirIP)]
  | .bitacoraSucesos a _ =>
    [existeRestriccion (BitacoraSucesos.construct ahora .insertar a).restriccion]

theorem pasos_insertar {p : Peticion} (hoper : p.operacion = .insertar) (h : p.aceptada ahora) :
    p.pasos ahora = comprobaciones ahora p ++
      ejecuta (insercion ahora p).1 (insercion ahora p).2 := by
  cases p with
  | dispositivo a oper | administrador a oper | permisosAdministracion a oper | restricciones a oper
  | bitacoraSucesos a oper =>
    obtain rfl : oper = .insertar := hoper
    exact if_pos h

omit [Engine] in
theorem aceptada_administrador {a : Administrador.Argumentos}
    (h : (Administrador.construct ahora a).Valido) :
    (Peticion.administrador a .insertar).aceptada ahora := by
  change (Administrador.construct ahora a).validarCamposAdministrador .insertar
  exact Administrador.validarCamposAdministrador_iff.mpr h

omit [Engine] in
theorem aceptada_permiso {a : PermisosAdministracion.Argumentos}
    (h : (PermisosAdministracion.construct a).Valido) :
    (Peticion.permisosAdministracion a .insertar).aceptada ahora := by
  change (PermisosAdministracion.construct a).validarCamposPermisosAdministracion .insertar
  exact PermisosAdministracion.validarCamposPermisosAdministracion_iff.mpr h

def Pasan (gs : List (Step BD)) (bd : BD) : Prop := ∀ g ∈ gs, g bd = some bd

inductive Agrega (bd : BD) : Clave → BD → Prop
  | dispositivo {x : FilaDispositivo} {T : Table FilaDispositivo.clave}
    (h : bd.dispositivo.insert? x = some T) :
      Agrega bd (.dispositivo x.clave) { bd with dispositivo := T }
  | administrador {x : FilaAdministrador} {T : Table FilaAdministrador.clave}
      (h : bd.administrador.insert? x = some T) : Agrega bd (.administrador x.clave)
        { bd with administrador := T }
  | permiso {x : FilaPermiso} {T : Table FilaPermiso.clave}
    (h : bd.permisosAdministracion.insert? x = some T) :
      Agrega bd (.permiso x.clave) { bd with permisosAdministracion := T }
  | restriccion {x : FilaRestriccion} {T : Table FilaRestriccion.clave}
    (h : bd.restricciones.insert? x = some T) :
      Agrega bd (.restriccion x.clave) { bd with restricciones := T }

/-- An accepted request looks and calls. Where the looks pass the INSERT meets every
key and adds the row asked for; where one fails nothing is called. -/
structure Cumple (s : Servidor) (ahora : Reloj) (p : Peticion) (bd : BD) : Prop where
  mira : p.aceptada ahora → ∃ llamada, s.pasos ahora p = comprobaciones ahora p ++ llamada
  pasan : p.aceptada ahora → Pasan (comprobaciones ahora p) bd →
    ∃ k bd', clavePeticion ahora p = some k ∧ solo (s.pasos ahora p) bd = (bd', true) ∧
    Agrega bd k bd'
  rechazan : ¬ p.aceptada ahora → s.pasos ahora p = rechazada
  fallan : ¬ Pasan (comprobaciones ahora p) bd →
    ∀ llamada, solo (comprobaciones ahora p ++ llamada) bd = (bd, false)

section Looks

variable {gs q : List (Step BD)}

theorem mira_comprobaciones (p : Peticion) : ∀ g ∈ comprobaciones ahora p, Mira g := by
  cases p with
  | dispositivo | administrador | bitacoraSucesos => exact List.forall_mem_singleton.mpr mira_guard
  | permisosAdministracion | restricciones =>
    exact List.forall_mem_cons.mpr ⟨mira_guard, List.forall_mem_singleton.mpr mira_guard⟩

theorem solo_of_pasan (h : Pasan gs bd) : solo (gs ++ q) bd = solo q bd := by
  induction gs with
  | nil => rfl
  | cons g gs ih =>
    obtain ⟨hg, hgs⟩ := List.forall_mem_cons.mp h
    rw [List.cons_append, solo_cons_some hg]
    exact ih hgs

theorem solo_of_not_pasan (hgs : ∀ g ∈ gs, Mira g) (h : ¬ Pasan gs bd) :
    solo (gs ++ q) bd = (bd, false) := by
  induction gs with
  | nil => exact absurd (fun g hg ↦ absurd hg List.not_mem_nil) h
  | cons g gs ih =>
    obtain ⟨hg, hrest⟩ := List.forall_mem_cons.mp hgs
    rw [List.cons_append]
    cases hlook : g bd with
    | none => exact solo_cons_none hlook
    | some bd' =>
      obtain rfl := hg bd bd' hlook
      rw [solo_cons_some hlook]
      exact ih hrest (fun hall ↦ h (List.forall_mem_cons.mpr ⟨hlook, hall⟩))

theorem solo_single_some {m : Step BD} {bd' : BD} (h : m bd = some bd') :
    solo [m] bd = (bd', true) :=
  solo_cons_some h

theorem solo_single_none {m : Step BD} (h : m bd = none) : solo [m] bd = (bd, false) :=
  solo_cons_none h

end Looks

section Calls

theorem ejecuta_dispositivo {a : Dispositivo.Argumentos} {oper : Operacion}
    (h : (Dispositivo.construct ahora a).Valido) (hcabe : Cabe ahora (.dispositivo a oper)) :
    ∃ x, FilaDe (Dispositivo.construct ahora a) x ∧
      ejecuta .insertarDispositivo (Dispositivo.construct ahora a).argumentosInsertar =
        [insertDispositivo x] := by
  obtain ⟨ls, hls, hinvoke⟩ := ejecuta_of_admitidos ((admitidos_dispositivo h).mpr hcabe)
  rw [literales_insertar, Option.some.injEq] at hls
  rw [← hls, invoke_insertarDispositivo] at hinvoke
  exact hinvoke

theorem ejecuta_administrador {a : Administrador.Argumentos} {oper : Operacion}
    (hcabe : Cabe ahora (.administrador a oper)) :
    ∃ x : FilaAdministrador, x.clave = claveAdministrador (localDe a.email) (dominioDe a.email) ∧
      ejecuta .insertarAdministrador (Administrador.construct ahora a).argumentosInsertar =
        [insertAdministrador x] := by
  obtain ⟨ls, hls, hinvoke⟩ := ejecuta_of_admitidos (admitidos_administrador.mpr hcabe)
  have hvalues : ls =
    [.text (localDe a.email), .text (dominioDe a.email), .text (Digest.md5 (strval a.pass)),
      .text (dateYmd ahora.segundo), .text (strval a.logueo)] := (Option.some.inj hls).symm
  rw [hvalues] at hinvoke
  obtain ⟨l, hl, d, hd, c, -, f, -, m, -, hpasos⟩ := invoke_insertarAdministrador.mp hinvoke
  refine ⟨⟨l, d, c, f, m⟩, ?_, hpasos.symm⟩
  exact claveAdministrador_eq hl hd

theorem ejecuta_permiso {a : PermisosAdministracion.Argumentos} {oper : Operacion}
    (hcabe : Cabe ahora (.permisosAdministracion a oper)) :
    ∃ x : FilaPermiso, x.clave =
      clavePermiso (localDe a.email) (dominioDe a.email) (strval a.dirIP) ∧ ejecuta
        .insertarPermisosAdministracion (PermisosAdministracion.construct a).argumentosInsertar =
          [insertPermisos x] := by
  obtain ⟨ls, hls, hinvoke⟩ := ejecuta_of_admitidos (admitidos_permiso.mpr hcabe)
  have hvalues : ls = [.text (localDe a.email), .text (dominioDe a.email), .text (strval a.dirIP),
      .text (strval a.permiso)] := (Option.some.inj hls).symm
  rw [hvalues] at hinvoke
  obtain ⟨i, hi, l, hl, d, hd, m, -, hpasos⟩ := invoke_insertarPermisos.mp hinvoke
  refine ⟨⟨l, d, i, m⟩, ?_, hpasos.symm⟩
  exact clavePermiso_eq hl hd hi

theorem ejecuta_restriccion {a : Restricciones.Argumentos} {oper : Operacion}
    (h : (Restricciones.construct a).Valido) (hcabe : Cabe ahora (.restricciones a oper)) :
    ∃ x : FilaRestriccion, (Restricciones.construct a).clave = some x.clave ∧
      x.dispositivo = sortKey (strval a.dirIP) ∧ ejecuta .insertarRestriccion
        (Restricciones.construct a).argumentosInsertar = [insertRestricciones x] := by
  obtain ⟨z, hz, -⟩ := validInt_cases h.valorAnticipacion
  have hz : filterValidateInt (strval a.valorAntic) = some z := hz
  obtain ⟨ls, hls, hinvoke⟩ := ejecuta_of_admitidos ((admitidos_restriccion h).mpr hcabe)
  have hvalues : ls =
    [.text (strval a.dirIP), .text (strval a.campoMonit), .int z, .text (strval a.tipoValAntic),
      .text (strval a.alertaActiv)] := by
    simp only [Restricciones.argumentosInsertar, Restricciones.argumentosEliminar,
      Restricciones.construct, List.cons_append, List.nil_append, List.mapM_cons, List.mapM_nil,
      literal_quoted, literal_bare, numero_of_filterValidateInt hz, Option.pure_def,
      Option.bind_eq_bind, Option.bind_some, Option.some.injEq] at hls
    exact hls.symm
  rw [hvalues] at hinvoke
  obtain ⟨i, hi, c, hc, v, hv, t, ht, m, -, hpasos⟩ := invoke_insertarRestriccion.mp hinvoke
  refine ⟨⟨i, c, v, t, m⟩, ?_, sortKey_varcharNotNull hi, hpasos.symm⟩
  exact claveRestriccion_eq hi (named_of_enum (campo_mem h.campoMonitorizacion) hc) hz
    (valor_of_toSmallint hv)
    (named_tipo h.tipoValorAnticipacion ht)

end Calls

section Claims

def Repetido (ahora : Reloj) (bd : BD) : Peticion → Prop
  | .permisosAdministracion a oper => (Peticion.permisosAdministracion a oper).aceptada ahora ∧
      Existe bd (.permiso (clavePermiso (localDe a.email) (dominioDe a.email) (strval a.dirIP)))
  | _ => False

/-- The path of a device that is new is that of another one. -/
def RutaTomada (ahora : Reloj) (bd : BD) : Peticion → Prop
  | .dispositivo a _ => (Peticion.dispositivo a .insertar).aceptada ahora ∧
      ¬ bd.dispositivo.Has (sortKey (Dispositivo.construct ahora a).direccionIP) ∧
      ∃ r ∈ bd.dispositivo, sortKey r.ruta.texto = sortKey (Dispositivo.construct ahora a).ruta
  | _ => False

variable {s : Servidor} {p : Peticion}

theorem cumple_of_insert (hoper : p.operacion = .insertar) (hlimpia : p.Limpia)
    (h : p.aceptada ahora → Pasan (comprobaciones ahora p) bd → ∃ m k bd', m bd = some bd' ∧
      clavePeticion ahora p = some k ∧ Agrega bd k bd' ∧
      ejecuta (insercion ahora p).1 (insercion ahora p).2 = [m]) :
    Cumple s ahora p bd where
  mira hp := by
    rw [pasos_of_limpia hlimpia, pasos_insertar hoper hp]
    exact ⟨_, rfl⟩
  pasan hp hpasan := by
    obtain ⟨m, k, bd', hm, hk, hagrega, hejecuta⟩ := h hp hpasan
    refine ⟨k, bd', hk, ?_, hagrega⟩
    rw [pasos_of_limpia hlimpia, pasos_insertar hoper hp, solo_of_pasan hpasan, hejecuta]
    exact solo_single_some hm
  rechazan hp := (pasos_of_limpia hlimpia).trans (pasos_of_not_aceptada hp)
  fallan hpasan _ := solo_of_not_pasan (mira_comprobaciones p) hpasan

/-- Where the looks pass and the INSERT is refused, the request is not carried out. -/
theorem not_cumple_of_refused (hoper : p.operacion = .insertar) (hlimpia : p.Limpia)
    (hp : p.aceptada ahora) (hpasan : Pasan (comprobaciones ahora p) bd) {m : Step BD}
    (hejecuta : ejecuta (insercion ahora p).1 (insercion ahora p).2 = [m]) (hm : m bd = none) :
    ¬ Cumple s ahora p bd := by
  intro h
  obtain ⟨k, bd', -, hsolo, -⟩ := h.pasan hp hpasan
  rw [pasos_of_limpia hlimpia, pasos_insertar hoper hp, solo_of_pasan hpasan, hejecuta,
    solo_single_none hm] at hsolo
  cases hsolo

theorem not_rutaTomada (hbd : Ordenada bd) (ahora : Reloj) (p : Peticion) :
    ¬ RutaTomada ahora bd p := by
  cases p with
  | dispositivo a oper =>
    rintro ⟨hp, hnew, r, hr, he⟩
    have hp : (Dispositivo.construct ahora a).validarCamposDispositivo .insertar := hp
    exact (encaminada_of_derivadas hbd.dispositivos hbd.integra.ruta).libre ahora a
      (Dispositivo.validarCamposDispositivo_iff.mp hp).direccion hnew r hr he
  | administrador | permisosAdministracion | restricciones | bitacoraSucesos => exact id

theorem cumple_dispositivo_iff {a : Dispositivo.Argumentos}
    (hlimpia : (Peticion.dispositivo a .insertar).Limpia)
    (hcabe : Cabe ahora (.dispositivo a .insertar)) :
    Cumple s ahora (.dispositivo a .insertar) bd ↔
      ¬ RutaTomada ahora bd (.dispositivo a .insertar) := by
  constructor
  · rintro hcumple ⟨hp, hnew, r, hr, he⟩
    have hvalida : (Dispositivo.construct ahora a).validarCamposDispositivo .insertar := hp
    have hvalido := Dispositivo.validarCamposDispositivo_iff.mp hvalida
    obtain ⟨x, hx, hejecuta⟩ := ejecuta_dispositivo hvalido hcabe
    have hpasan : Pasan (comprobaciones ahora (.dispositivo a .insertar)) bd :=
      List.forall_mem_singleton.mpr (guard_eq_some.mpr ⟨hnew, rfl⟩)
    have htaken : ∃ r ∈ bd.dispositivo.rows, sortKey r.ruta.texto = sortKey x.ruta.texto := by
      rw [(derivada_of_fila hvalido hx).ruta]
      exact ⟨r, hr, he⟩
    exact not_cumple_of_refused rfl hlimpia hp hpasan hejecuta (if_pos htaken) hcumple
  intro hnot
  refine cumple_of_insert rfl hlimpia (fun hp hpasan ↦ ?_)
  have haceptada := hp
  have hp : (Dispositivo.construct ahora a).validarCamposDispositivo .insertar := hp
  have hvalido : (Dispositivo.construct ahora a).Valido :=
    Dispositivo.validarCamposDispositivo_iff.mp hp
  obtain ⟨x, hx, hejecuta⟩ := ejecuta_dispositivo hvalido hcabe
  have hlook : noExisteDispositivo (Dispositivo.construct ahora a).direccionIP bd = some bd :=
    hpasan _ List.mem_cons_self
  have hnew := (guard_eq_some.mp hlook).1
  have hfree : ¬ ∃ r ∈ bd.dispositivo.rows, sortKey r.ruta.texto = sortKey x.ruta.texto := by
    rintro ⟨r, hr, he⟩
    rw [(derivada_of_fila hvalido hx).ruta] at he
    exact hnot ⟨haceptada, hnew, r, hr, he⟩
  obtain ⟨T, hT⟩ : ∃ T, bd.dispositivo.insert? x = some T := Table.exists_insert? (hx.clave ▸ hnew)
  have hclave : clavePeticion ahora (.dispositivo a .insertar) = some (.dispositivo x.clave) :=
    congrArg (some ∘ Clave.dispositivo) hx.clave.symm
  refine ⟨insertDispositivo x, _, { bd with dispositivo := T }, ?_, hclave,
    .dispositivo hT, hejecuta⟩
  rw [insertDispositivo, if_neg hfree, hT]
  rfl

theorem cumple_administrador {a : Administrador.Argumentos}
    (hlimpia : (Peticion.administrador a .insertar).Limpia)
    (hcabe : Cabe ahora (.administrador a .insertar)) :
    Cumple s ahora (.administrador a .insertar) bd := by
  refine cumple_of_insert rfl hlimpia (fun hp hpasan ↦ ?_)
  obtain ⟨x, hx, hejecuta⟩ := ejecuta_administrador hcabe
  have hlook : noExisteAdministrador (localDe a.email) (dominioDe a.email) bd = some bd :=
    hpasan _ List.mem_cons_self
  have hnew := (guard_eq_some.mp hlook).1
  obtain ⟨T, hT⟩ : ∃ T, bd.administrador.insert? x = some T := Table.exists_insert? (hx ▸ hnew)
  have hclave : clavePeticion ahora (.administrador a .insertar) = some (.administrador x.clave) :=
    congrArg (some ∘ Clave.administrador) hx.symm
  refine ⟨insertAdministrador x, _, { bd with administrador := T }, ?_, hclave,
    .administrador hT, hejecuta⟩
  rw [insertAdministrador, hT]
  rfl

theorem cumple_restriccion {a : Restricciones.Argumentos}
    (hlimpia : (Peticion.restricciones a .insertar).Limpia)
    (hcabe : Cabe ahora (.restricciones a .insertar)) :
    Cumple s ahora (.restricciones a .insertar) bd := by
  refine cumple_of_insert rfl hlimpia (fun hp hpasan ↦ ?_)
  have hp : (Restricciones.construct a).validarCamposRestricciones .insertar := hp
  have hvalido := (Restricciones.validarCamposRestricciones_iff.mp hp).1
  obtain ⟨x, hx, hdispositivo, hejecuta⟩ := ejecuta_restriccion hvalido hcabe
  have hlook : noExisteRestriccion (Restricciones.construct a).clave bd = some bd :=
    hpasan _ List.mem_cons_self
  have hdevice : existeDispositivo (strval a.dirIP) bd = some bd :=
    hpasan _ (List.mem_cons_of_mem _ List.mem_cons_self)
  rw [hx] at hlook
  have hnew := (guard_eq_some.mp hlook).1
  have hdevice := (guard_eq_some.mp hdevice).1
  obtain ⟨T, hT⟩ : ∃ T, bd.restricciones.insert? x = some T := Table.exists_insert? hnew
  have hclave : clavePeticion ahora (.restricciones a .insertar) = some (.restriccion x.clave) :=
    congrArg (Option.map Clave.restriccion) hx
  refine ⟨insertRestricciones x, _, { bd with restricciones := T }, ?_, hclave,
    .restriccion hT, hejecuta⟩
  rw [insertRestricciones, if_pos (hdispositivo ▸ hdevice), hT]
  rfl

theorem cumple_permiso_iff (h : bd.Integra) {a : PermisosAdministracion.Argumentos}
    (hlimpia : (Peticion.permisosAdministracion a .insertar).Limpia)
    (hcabe : Cabe ahora (.permisosAdministracion a .insertar)) :
    Cumple s ahora (.permisosAdministracion a .insertar) bd ↔
      ¬ Repetido ahora bd (.permisosAdministracion a .insertar) := by
  obtain ⟨x, hx, hejecuta⟩ := ejecuta_permiso hcabe
  have hkeys : x.administrador = claveAdministrador (localDe a.email) (dominioDe a.email) ∧
      x.dispositivo = sortKey (strval a.dirIP) := Prod.ext_iff.mp hx
  have hlooks : Pasan (comprobaciones ahora (.permisosAdministracion a .insertar)) bd ↔
      bd.administrador.Has x.administrador ∧ bd.dispositivo.Has x.dispositivo := by
    rw [hkeys.1, hkeys.2]
    simp only [Pasan, comprobaciones, existeAdministrador, existeDispositivo, List.forall_mem_cons,
      guard_eq_some, and_true, List.not_mem_nil, false_imp_iff, implies_true]
  constructor
  · rintro hcumple ⟨hp, hhas⟩
    obtain ⟨r, hr, hkey⟩ : bd.permisosAdministracion.Has x.clave := hx ▸ hhas
    have hadmin : r.administrador = x.administrador := congrArg Prod.fst hkey
    have hdevice : r.dispositivo = x.dispositivo := congrArg Prod.snd hkey
    have hpasan := hlooks.mpr ⟨hadmin ▸ h.emailPermisosAdministracion r hr,
      hdevice ▸ h.ipPermisosAdministracion r hr⟩
    have hnone : insertPermisos x bd = none := by
      rw [insertPermisos, if_pos (hlooks.mp hpasan), Table.insert?_eq_none.mpr ⟨r, hr, hkey⟩]
      rfl
    exact not_cumple_of_refused rfl hlimpia hp hpasan hejecuta hnone hcumple
  · intro hnot
    refine cumple_of_insert rfl hlimpia (fun hp hpasan ↦ ?_)
    have hnew : ¬ bd.permisosAdministracion.Has x.clave := by
      rw [hx]
      exact fun hhas ↦ hnot ⟨hp, hhas⟩
    obtain ⟨T, hT⟩ := Table.exists_insert? hnew
    have hclave : clavePeticion ahora (.permisosAdministracion a .insertar) =
      some (.permiso x.clave) :=
      congrArg (some ∘ Clave.permiso) hx.symm
    refine ⟨insertPermisos x, _, { bd with permisosAdministracion := T }, ?_, hclave,
      .permiso hT, hejecuta⟩
    rw [insertPermisos, if_pos (hlooks.mp hpasan), hT]
    rfl

/-- The looks of an insertion whose values keep to their literals stand in for the keys
of its table, unless a permission is granted twice or the path of a new device is taken,
which clean requests never lead to. -/
theorem insertar_cumple_iff (s : Servidor) (h : bd.Integra) (ahora : Reloj) (p : Peticion)
    (hoper : p.operacion = .insertar) (hclase : ∀ a oper, p ≠ .bitacoraSucesos a oper)
    (hlimpia : p.Limpia) (hcabe : Cabe ahora p) :
    (Cumple s ahora p bd ↔ ¬ Repetido ahora bd p ∧ ¬ RutaTomada ahora bd p) ∧
      (Alcanzable bd → ¬ RutaTomada ahora bd p) := by
  refine ⟨?_, fun hbd ↦ not_rutaTomada hbd.ordenada ahora p⟩
  cases p with
  | dispositivo a oper =>
    obtain rfl : oper = .insertar := hoper
    rw [cumple_dispositivo_iff hlimpia hcabe]
    exact (and_iff_right id).symm
  | administrador a oper =>
    obtain rfl : oper = .insertar := hoper
    exact iff_of_true (cumple_administrador hlimpia hcabe) ⟨id, id⟩
  | permisosAdministracion a oper =>
    obtain rfl : oper = .insertar := hoper
    rw [cumple_permiso_iff h hlimpia hcabe]
    exact (and_iff_left id).symm
  | restricciones a oper =>
    obtain rfl : oper = .insertar := hoper
    exact iff_of_true (cumple_restriccion hlimpia hcabe) ⟨id, id⟩
  | bitacoraSucesos a oper => exact absurd rfl (hclase a oper)

theorem Agrega.existe_iff {k j : Clave} {bd' : BD} (h : Agrega bd k bd') :
    Existe bd' j ↔ k = j ∨ Existe bd j := by
  cases h with
  | dispositivo h | administrador h | permiso h | restriccion h =>
    cases j with
    | dispositivo j | administrador j | permiso j | restriccion j | suceso j =>
      simp [Existe, Table.has_insert? _ h]

theorem Cumple.existe_iff {k : Clave} (h : Cumple s ahora p bd) (hlimpia : p.Limpia)
    (hp : p.aceptada ahora) (hpasan : Pasan (comprobaciones ahora p) bd) :
    Existe (tras ahora p bd) k ↔ clavePeticion ahora p = some k ∨ Existe bd k := by
  obtain ⟨j, bd', hj, hsolo, hagrega⟩ := h.pasan hp hpasan
  rw [pasos_of_limpia hlimpia] at hsolo
  rw [tras, hsolo, hj, Option.some.injEq]
  exact hagrega.existe_iff

theorem not_cumple_of_repetido (hbd : Alcanzable bd) (hoper : p.operacion = .insertar)
    (hlimpia : p.Limpia) (hcabe : Cabe ahora p) (h : Repetido ahora bd p) :
    ¬ Cumple s ahora p bd := by
  cases p with
  | permisosAdministracion a oper =>
    obtain rfl : oper = .insertar := hoper
    exact fun hcumple ↦ (cumple_permiso_iff hbd.ordenada.integra hlimpia hcabe).mp hcumple h
  | dispositivo | administrador | restricciones | bitacoraSucesos => exact absurd h id

end Claims

end Engines

section Ejemplo

def altaAdministrador : Peticion :=
  .administrador ⟨some "a@b.mx".toList, some "secreto".toList, some ['1']⟩ .insertar

def altaPermiso : Peticion :=
  .permisosAdministracion ⟨some "a@b.mx".toList, some "10.0.0.1/24".toList, some ['1']⟩ .insertar

def registrados : BD := tras reloj altaAdministrador (tras reloj Baselines.altaEquipo BD.vacia)

def permitida : BD := tras reloj altaPermiso registrados

theorem cabe_altaAdministrador : Cabe reloj altaAdministrador :=
  ⟨by decide, by decide, by decide⟩

theorem cabe_altaPermiso : Cabe reloj altaPermiso :=
  ⟨by decide, by decide, by decide, by decide⟩

theorem alcanzable_equipo : Alcanzable (tras reloj Baselines.altaEquipo BD.vacia) :=
  Alcanzable.vacia.tras reloj (by decide)

theorem alcanzable_registrados : Alcanzable registrados := alcanzable_equipo.tras reloj (by decide)

theorem limpia_altaAdministrador : altaAdministrador.Limpia := by decide

theorem limpia_altaPermiso : altaPermiso.Limpia := by decide

theorem insertar_cumple_administrador : Cumple sordo reloj altaAdministrador registrados := by
  have hclase : ∀ a oper, altaAdministrador ≠ .bitacoraSucesos a oper := by
    intro a oper h
    cases h
  have hsettled := insertar_cumple_iff sordo alcanzable_registrados.ordenada.integra reloj
    altaAdministrador rfl hclase limpia_altaAdministrador cabe_altaAdministrador
  exact hsettled.1.mpr ⟨id, id⟩

theorem emailValido_altaAdministrador :
    emailValido (localDe (some "a@b.mx".toList)) (dominioDe (some "a@b.mx".toList)) :=
  validEmail_corto

theorem aceptada_altaAdministrador : altaAdministrador.aceptada reloj :=
  aceptada_administrador
    (Administrador.valido_construct emailValido_altaAdministrador (by decide +kernel)
      (by decide +kernel))

theorem aceptada_altaPermiso : altaPermiso.aceptada reloj :=
  aceptada_permiso ⟨emailValido_altaAdministrador, by decide +kernel, by decide +kernel⟩

theorem comprobaciones_altaAdministrador :
    Pasan (comprobaciones reloj altaAdministrador) (tras reloj Baselines.altaEquipo BD.vacia) := by
  refine List.forall_mem_singleton.mpr (guard_eq_some.mpr ⟨?_, rfl⟩)
  decide +kernel

theorem existe_registrados {k : Clave} : Existe registrados k ↔
    clavePeticion reloj altaAdministrador = some k ∨
    Existe (tras reloj Baselines.altaEquipo BD.vacia) k := by
  have hcumple : Cumple sordo reloj altaAdministrador (tras reloj Baselines.altaEquipo BD.vacia) :=
    cumple_administrador limpia_altaAdministrador cabe_altaAdministrador
  exact hcumple.existe_iff limpia_altaAdministrador aceptada_altaAdministrador
    comprobaciones_altaAdministrador

theorem existe_equipo : Existe (tras reloj Baselines.altaEquipo BD.vacia)
    (.dispositivo (sortKey "10.0.0.1/24".toList)) := by
  decide +kernel

theorem not_existe_permiso : ¬ Existe (tras reloj Baselines.altaEquipo BD.vacia)
    (.permiso (clavePermiso (localDe (some "a@b.mx".toList)) (dominioDe (some "a@b.mx".toList))
      "10.0.0.1/24".toList)) := by
  decide +kernel

theorem comprobaciones_altaPermiso : Pasan (comprobaciones reloj altaPermiso) registrados := by
  refine List.forall_mem_cons.mpr ⟨guard_eq_some.mpr ⟨?_, rfl⟩, ?_⟩
  · exact existe_registrados.mpr (Or.inl rfl)
  · refine List.forall_mem_singleton.mpr (guard_eq_some.mpr ⟨?_, rfl⟩)
    exact existe_registrados.mpr (Or.inr existe_equipo)

theorem not_repetido_registrados : ¬ Repetido reloj registrados altaPermiso := by
  rintro ⟨-, h⟩
  rcases existe_registrados.mp h with h | h
  · cases h
  · exact not_existe_permiso h

/-- The same permission again: both looks pass, and the INSERT meets its own key. -/
theorem not_cumple_permiso : Alcanzable permitida ∧ altaPermiso.Limpia ∧ Cabe reloj altaPermiso ∧
    ¬ Cumple sordo reloj altaPermiso permitida := by
  have halcanzable : Alcanzable permitida := alcanzable_registrados.tras reloj (by decide)
  have hcumple : Cumple sordo reloj altaPermiso registrados :=
    (cumple_permiso_iff alcanzable_registrados.ordenada.integra limpia_altaPermiso
      cabe_altaPermiso).mpr not_repetido_registrados
  have hrepetido : Repetido reloj permitida altaPermiso := by
    refine ⟨aceptada_altaPermiso, ?_⟩
    apply (hcumple.existe_iff limpia_altaPermiso aceptada_altaPermiso
      comprobaciones_altaPermiso).mpr
    exact Or.inl rfl
  have hnot : ¬ Cumple sordo reloj altaPermiso permitida :=
    not_cumple_of_repetido halcanzable rfl limpia_altaPermiso cabe_altaPermiso hrepetido
  exact ⟨halcanzable, limpia_altaPermiso, cabe_altaPermiso, hnot⟩

end Ejemplo

end ServiciosRed.Insertions
