import ServiciosRed.Requests

namespace ServiciosRed

open Text Php Filters Schema Calendar Fields

theorem Fields.contadorNulos_eq_zero {a : ArregloErrores} :
    contadorNulos a = 0 ↔ ∀ e ∈ a, e.2.isNone = false := by
  simp only [contadorNulos, List.countP_eq_zero, Bool.not_eq_true]

namespace Dispositivo

structure Valido (d : Dispositivo) : Prop where
  direccion : direccionValida d.ip d.msk
  fechaRegistroHost : expresionRegularFecha.matchesIn d.fechaRegistroHost
  monitorizacionActiva : inArray d.monitorizacionActiva opcionesBandera
  tipoDispositivo : inArray d.tipoDispositivo ["Host", "Router", "Switch", "Firewall"]
  versionSNMP : inArray d.versionSNMP ["0", "1", "2", "3"]
  linea : d.linea.All (enteroONulo ·) (enteroONulo ·) (flotanteONulo ·)

variable {d : Dispositivo} {oper : Operacion}

theorem valido_iff : contadorNulos d.erroresDispositivo = 0 ↔ d.Valido := by
  simp only [contadorNulos_eq_zero, erroresDispositivo, List.forall_mem_cons, isNone_columna,
    Bool.not_eq_false', List.not_mem_nil, false_imp_iff, implies_true, and_true, true_and]
  constructor
  · rintro ⟨hdir, hfecha, hmonit, htipo, hver, hlinea⟩
    refine ⟨hdir, hfecha, hmonit, htipo, hver, ?_⟩
    simpa only [LineaBase.All, LineaBase.map, LineaBase.toList, List.forall_mem_cons,
      List.not_mem_nil, false_imp_iff, implies_true, and_true] using hlinea
  · rintro ⟨hdir, hfecha, hmonit, htipo, hver, hlinea⟩
    refine ⟨hdir, hfecha, hmonit, htipo, hver, ?_⟩
    simpa only [LineaBase.All, LineaBase.map, LineaBase.toList, List.forall_mem_cons,
      List.not_mem_nil, false_imp_iff, implies_true, and_true] using hlinea

theorem validarCamposDispositivo_iff : d.validarCamposDispositivo oper ↔
    match oper with
    | .insertar | .actualizar => d.Valido
    | .eliminar => direccionValida d.ip d.msk
    | .otra => True := by
  cases oper with
  | insertar => exact decide_eq_true_iff.trans valido_iff
  | actualizar => exact decide_eq_true_iff.trans valido_iff
  | eliminar =>
    have hcol : columnaValida d.erroresDispositivo "direccionIP" = direccionValida d.ip d.msk := by
      change (columna "direccionIP" (direccionValida d.ip d.msk) 1).2.isSome = _
      rw [← Option.not_isNone, isNone_columna, Bool.not_not]
    rw [validarCamposDispositivo, hcol]
  | otra => exact iff_of_true rfl trivial

end Dispositivo

namespace Administrador

structure Valido (a : Administrador) : Prop where
  email : emailValido a.localEmailContacto a.dominioEmailContacto
  contrasenia : expresionRegularMd5.matchesIn a.contrasenia
  fechaRegistroAdministrador : expresionRegularFecha.matchesIn a.fechaRegistroAdministrador
  logueoActivo : inArray a.logueoActivo opcionesBandera

variable {a : Administrador} {oper : Operacion}

theorem valido_iff : contadorNulos a.erroresAdministrador = 0 ↔ a.Valido := by
  simp only [contadorNulos_eq_zero, erroresAdministrador, List.forall_mem_cons, isNone_columna,
    Bool.not_eq_false', List.not_mem_nil, false_imp_iff, implies_true, and_true]
  constructor
  · rintro ⟨hemail, -, hpass, hfecha, hlogueo⟩
    exact ⟨hemail, hpass, hfecha, hlogueo⟩
  · rintro ⟨hemail, hpass, hfecha, hlogueo⟩
    exact ⟨hemail, hemail, hpass, hfecha, hlogueo⟩

theorem validarCamposAdministrador_iff : a.validarCamposAdministrador oper ↔
    match oper with
    | .insertar | .actualizar => a.Valido
    | .eliminar => emailValido a.localEmailContacto a.dominioEmailContacto
    | .otra => False := by
  cases oper with
  | insertar => exact decide_eq_true_iff.trans valido_iff
  | actualizar => exact decide_eq_true_iff.trans valido_iff
  | eliminar =>
    generalize hv : emailValido a.localEmailContacto a.dominioEmailContacto = v
    have hcols : (columnaValida a.erroresAdministrador "localEmailContacto" &&
        columnaValida a.erroresAdministrador "dominioEmailContacto") = (v && v) := by
      rw [erroresAdministrador, hv]
      cases v <;> rfl
    rw [validarCamposAdministrador, hcols, Bool.and_self]
  | otra => exact iff_of_false Bool.false_ne_true id

theorem matchesIn_md5 (s : Texto) : expresionRegularMd5.matchesIn (Digest.md5 s) := by
  have hhex : ∀ c ∈ Digest.md5 s, Filters.isHex c := by
    intro c hc
    simp only [Filters.isHex, Bool.or_eq_true, Bool.and_eq_true, decide_eq_true_eq]
    rcases Digest.mem_md5 hc with h | h
    · exact Or.inl (Or.inl h)
    · exact Or.inl (Or.inr h)
  have hrest := Regex.rests_rep_char (s := []) hhex
  rw [List.append_nil, Digest.length_md5] at hrest
  refine Regex.matchesIn_of_rests ?_
  rw [expresionRegularMd5, Regex.rests, hrest]
  decide

theorem valido_construct {ahora : Reloj} {a : Argumentos}
    (hemail : emailValido (localDe a.email) (dominioDe a.email))
    (hfecha : expresionRegularFecha.matchesIn (dateYmd ahora.segundo))
    (hlogueo : inArray a.logueo opcionesBandera) :
    (construct ahora a).Valido := ⟨hemail, matchesIn_md5 _, hfecha, hlogueo⟩

end Administrador

namespace PermisosAdministracion

structure Valido (p : PermisosAdministracion) : Prop where
  email : emailValido p.localEmailContacto p.dominioEmailContacto
  direccion : direccionValida p.ip p.msk
  permisoActivo : inArray p.permisoActivo opcionesBandera

variable {p : PermisosAdministracion} {oper : Operacion}

theorem valido_iff (h : oper = .insertar ∨ oper = .actualizar) :
    contadorNulos (p.erroresPermisosAdministracion oper) = 0 ↔ p.Valido := by
  have hoper : (decide (oper = .insertar) || decide (oper = .actualizar)) = true := by simpa using h
  simp only [contadorNulos_eq_zero, erroresPermisosAdministracion, List.forall_mem_cons,
    isNone_columna, Bool.not_eq_false', List.not_mem_nil, false_imp_iff, implies_true, and_true,
    hoper, Bool.true_and]
  constructor
  · rintro ⟨hemail, -, hdir, hpermiso⟩
    exact ⟨hemail, hdir, hpermiso⟩
  · rintro ⟨hemail, hdir, hpermiso⟩
    exact ⟨hemail, hemail, hdir, hpermiso⟩

theorem validarCamposPermisosAdministracion_iff : p.validarCamposPermisosAdministracion oper ↔
    match oper with
    | .insertar | .actualizar => p.Valido
    | .eliminar =>
      emailValido p.localEmailContacto p.dominioEmailContacto ∧ direccionValida p.ip p.msk
    | .otra => False := by
  cases oper with
  | insertar => exact decide_eq_true_iff.trans (valido_iff (Or.inl rfl))
  | actualizar => exact decide_eq_true_iff.trans (valido_iff (Or.inr rfl))
  | eliminar =>
    generalize hv : emailValido p.localEmailContacto p.dominioEmailContacto = v
    generalize hw : direccionValida p.ip p.msk = w
    have hcols : (columnaValida (p.erroresPermisosAdministracion .eliminar) "localEmailContacto" &&
        columnaValida (p.erroresPermisosAdministracion .eliminar) "dominioEmailContacto" &&
        columnaValida (p.erroresPermisosAdministracion .eliminar) "direccionIP") = (v && w) := by
      rw [erroresPermisosAdministracion, hv, hw]
      cases v <;> cases w <;> rfl
    rw [validarCamposPermisosAdministracion, hcols, Bool.and_eq_true]
  | otra => exact iff_of_false Bool.false_ne_true id

end PermisosAdministracion

namespace Restricciones

structure Valido (r : Restricciones) : Prop where
  direccion : direccionValida r.ip r.msk
  campoMonitorizacion : inArray r.campoMonitorizacion camposMonitorizacion
  valorAnticipacion : validInt r.valorAnticipacion
  tipoValorAnticipacion : inArray r.tipoValorAnticipacion tiposValorMonitorizacion

theorem validarCamposRestricciones_iff {r : Restricciones} {oper : Operacion} :
    r.validarCamposRestricciones oper ↔ r.Valido ∧ r.alertaValida oper := by
  simp only [validarCamposRestricciones, decide_eq_true_iff, contadorNulos_eq_zero,
    erroresRestricciones, List.forall_mem_cons, isNone_columna, Bool.not_eq_false',
    List.not_mem_nil, false_imp_iff, implies_true, and_true]
  constructor
  · rintro ⟨hdir, hcampo, hvalor, htipo, halerta⟩
    exact ⟨⟨hdir, hcampo, hvalor, htipo⟩, halerta⟩
  · rintro ⟨⟨hdir, hcampo, hvalor, htipo⟩, halerta⟩
    exact ⟨hdir, hcampo, hvalor, htipo, halerta⟩

end Restricciones

namespace BitacoraSucesos

structure Valido (b : BitacoraSucesos) : Prop where
  direccion : direccionValida b.ip b.msk
  campoMonitorizacion : inArray b.campoMonitorizacion camposMonitorizacion
  valorAnticipacion : validInt b.valorAnticipacion
  tipoValorAnticipacion : inArray b.tipoValorAnticipacion tiposValorMonitorizacion
  fechaSuceso : expresionRegularTimeStamp.matchesIn (strval b.fechaSuceso)
  fechaPrediccion : expresionRegularTimeStamp.matchesIn (strval b.fechaPrediccion)

theorem validarCamposBitacoraSucesos_iff {b : BitacoraSucesos} {oper : Operacion} :
    b.validarCamposBitacoraSucesos oper ↔
      match oper with
      | .insertar => b.Valido ∧ validInt b.valorCapturado
      | .eliminar => b.Valido
      | .actualizar | .otra => False := by
  have hvalido : b.Valido ↔ direccionValida b.ip b.msk ∧
    inArray b.campoMonitorizacion camposMonitorizacion ∧
      validInt b.valorAnticipacion ∧ inArray b.tipoValorAnticipacion tiposValorMonitorizacion ∧
      expresionRegularTimeStamp.matchesIn (strval b.fechaSuceso) ∧
      expresionRegularTimeStamp.matchesIn (strval b.fechaPrediccion) :=
    ⟨fun h ↦ ⟨h.1, h.2, h.3, h.4, h.5, h.6⟩,
      fun h ↦ ⟨h.1, h.2.1, h.2.2.1, h.2.2.2.1, h.2.2.2.2.1, h.2.2.2.2.2⟩⟩
  cases oper with
  | insertar =>
    simp only [validarCamposBitacoraSucesos, decide_eq_true_iff, contadorNulos_eq_zero,
      erroresBitacoraSucesos, List.forall_mem_cons, isNone_columna, Bool.not_eq_false',
      List.not_mem_nil, false_imp_iff, implies_true, and_true, decide_true, Bool.true_and,
      hvalido, and_assoc]
  | eliminar =>
    simp only [validarCamposBitacoraSucesos, decide_eq_true_iff, contadorNulos_eq_zero,
      erroresBitacoraSucesos, List.eraseIdx_cons_succ, List.eraseIdx_cons_zero,
      List.forall_mem_cons, isNone_columna, Bool.not_eq_false', List.not_mem_nil, false_imp_iff,
      implies_true, and_true, hvalido]
  | actualizar => exact iff_of_false Bool.false_ne_true id
  | otra => exact iff_of_false Bool.false_ne_true id

end BitacoraSucesos

end ServiciosRed
