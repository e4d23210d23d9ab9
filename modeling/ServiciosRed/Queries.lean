import ServiciosRed.Acceptance

namespace ServiciosRed.Queries

open Text Php Filters Lexer Statements Server Fields Requests Schema Calendar

/-- The server reads the fixed tokens with one literal for each value. -/
def Faithful (s : Statement) : Prop := lex s.text = some s.tokens

section Shapes

def Legible (args : List Arg) : Prop := ∀ v, .quoted v ∈ args → isClean v

@[simp]
theorem legible_nil : Legible [] ↔ True := iff_true_intro (fun _ hv ↦ absurd hv List.not_mem_nil)

@[simp]
theorem legible_quoted {v : Texto} {l : List Arg} :
    Legible (.quoted v :: l) ↔ isClean v ∧ Legible l := by
  simp only [Legible, List.mem_cons, Arg.quoted.injEq, or_imp, forall_and, forall_eq]

@[simp]
theorem legible_bare {v : Texto} {l : List Arg} : Legible (.bare v :: l) ↔ Legible l := by
  simp only [Legible, List.mem_cons, reduceCtorEq, false_or]

def Bares (args : List Arg) : Prop := ∀ v, .bare v ∈ args → Bare v

theorem bares_quoted {v : Texto} {l : List Arg} (h : Bares l) : Bares (.quoted v :: l) := fun w hw ↦
  h w ((List.mem_cons.mp hw).resolve_left Arg.noConfusion)

theorem bares_bare {v : Texto} {l : List Arg} (hv : Bare v) (h : Bares l) :
    Bares (.bare v :: l) := by
  intro w hw
  rcases List.mem_cons.mp hw with he | hw
  · cases he
    exact hv
  · exact h w hw

theorem bares_nil : Bares [] := fun _ hv ↦ absurd hv List.not_mem_nil

theorem bares_append {l m : List Arg} (h : Bares l) (h' : Bares m) : Bares (l ++ m) := fun v hv ↦
  (List.mem_append.mp hv).elim (h v) (h' v)

theorem faithful_iff {s : Statement} {args : List Arg} (hargs : s.parts.map Prod.fst = args)
    (hhead : (run .start s.head).2 = .start) (hfixed : ∀ p ∈ s.parts, Fixed p.2)
    (hbare : Bares args) :
    Faithful s ↔ Legible args := by
  subst hargs
  have hregular : Regular s := by
    refine ⟨hhead, hfixed, fun p hp v hv ↦ hbare v ?_⟩
    exact hv ▸ List.mem_map_of_mem hp
  rw [Faithful, lex_text_iff hregular]
  constructor
  · intro h v hv
    obtain ⟨p, hp, he⟩ := List.mem_map.mp hv
    exact h p hp v he
  · exact fun h p hp v hv ↦ h v (hv ▸ List.mem_map_of_mem hp)

theorem parts_call (p : Procedimiento) (args : List Arg) (fin : String) : (call p args fin).parts =
    args.dropLast.map (fun a ↦ (a, [','])) ++ args.getLast?.toList.map (fun a ↦ (a, fin.toList)) :=
      rfl

theorem args_call (p : Procedimiento) (args : List Arg) (fin : String) :
    (call p args fin).parts.map Prod.fst = args := by
  rw [parts_call, List.map_append, List.map_map, List.map_map, Function.comp_def, Function.comp_def]
  simp only [List.map_id']
  cases args using List.reverseRecOn with
  | nil => rfl
  | append_singleton l a =>
    simp only [List.dropLast_concat, List.getLast?_concat, Option.toList_some]

theorem fixed_call {p : Procedimiento} {args : List Arg} {fin : String} (hfin : Fixed fin.toList) :
    ∀ q ∈ (call p args fin).parts, Fixed q.2 := by
  intro q hq
  rw [parts_call] at hq
  simp only [List.mem_append, List.mem_map] at hq
  rcases hq with ⟨a, -, rfl⟩ | ⟨a, -, rfl⟩
  · exact ⟨rfl, rfl, rfl⟩
  · exact hfin

theorem faithful_call {p : Procedimiento} {args : List Arg} {fin : String} (hfin : Fixed fin.toList)
    (hbare : Bares args) : Faithful (call p args fin) ↔ Legible args :=
  faithful_iff (args_call p args fin) (by cases p <;> rfl) (fixed_call hfin) hbare

theorem args_select (table : String) (conds : List (String × Arg)) :
    (select table conds).parts.map Prod.fst = conds.map Prod.snd := by
  have hconds (a : Arg) (l : List (String × Arg)) :
      (select.conditions a l).map Prod.fst = a :: l.map Prod.snd := by
    induction l generalizing a with
    | nil => rfl
    | cons b l ih => exact congrArg (a :: ·) (ih b.2)
  cases conds with
  | nil => rfl
  | cons c l => exact hconds c.2 l

theorem fixed_conditions {l : List (String × Arg)}
    (h : ∀ c ∈ l, Fixed (" AND " ++ c.1 ++ " = ").toList) (a : Arg) :
    ∀ q ∈ select.conditions a l, Fixed q.2 := by
  induction l generalizing a with
  | nil => exact List.forall_mem_singleton.mpr ⟨rfl, rfl, rfl⟩
  | cons c l ih =>
    refine List.forall_mem_cons.mpr ⟨h c List.mem_cons_self, ih (fun d hd ↦ ?_) c.2⟩
    exact h d (List.mem_cons_of_mem c hd)

def columnas : List String :=
  ["dominioEmailContacto", "direccionIP", "campoMonitorizacion", "valorAnticipacion",
    "tipoValorAnticipacion", "fechaSuceso", "fechaPrediccion"]

theorem fixed_columna : ∀ c ∈ columnas, Fixed (" AND " ++ c ++ " = ").toList := by
  simp only [columnas, List.forall_mem_cons, List.not_mem_nil, false_imp_iff,
    implies_true, and_true]
  refine ⟨?_, ?_, ?_, ?_, ?_, ?_, ?_⟩ <;> exact ⟨rfl, rfl, rfl⟩

theorem faithful_select {table : String} {c : String × Arg} {l : List (String × Arg)}
    (hhead : (run .start (select table (c :: l)).head).2 = .start) (hl : ∀ d ∈ l, d.1 ∈ columnas)
    (hbare : Bares (c.2 :: l.map Prod.snd)) :
    Faithful (select table (c :: l)) ↔ Legible (c.2 :: l.map Prod.snd) :=
  faithful_iff (args_select table (c :: l)) hhead
    (fixed_conditions (fun d hd ↦ fixed_columna d.1 (hl d hd)) c.2) hbare

theorem faithful_dispositivo {ip : Texto} :
    Faithful (select "dispositivo" [("direccionIP", .quoted ip)]) ↔ isClean ip := by
  rw [faithful_select rfl (fun _ hd ↦ absurd hd List.not_mem_nil) (bares_quoted bares_nil)]
  simp

theorem faithful_administrador {l d : Texto} :
    Faithful (select "administrador" [("localEmailContacto", .quoted l),
      ("dominioEmailContacto", .quoted d)]) ↔ isClean l ∧ isClean d := by
  rw [faithful_select rfl (by simp [columnas]) (bares_quoted (bares_quoted bares_nil))]
  simp

set_option maxRecDepth 2000 in
theorem faithful_permiso {l d ip : Texto} :
    Faithful (select "permisosAdministracion" [("localEmailContacto", .quoted l),
      ("dominioEmailContacto", .quoted d), ("direccionIP", .quoted ip)]) ↔ isClean l ∧ isClean d ∧
      isClean ip := by
  rw [faithful_select rfl (by simp [columnas])
    (bares_quoted (bares_quoted (bares_quoted bares_nil)))]
  simp

theorem faithful_restriccion {ip campo valor tipo : Texto} (h : Bare valor) :
    Faithful (select "restricciones" [("direccionIP", .quoted ip),
      ("campoMonitorizacion", .quoted campo), ("valorAnticipacion", .bare valor),
      ("tipoValorAnticipacion", .quoted tipo)]) ↔
      isClean ip ∧ isClean campo ∧ isClean tipo := by
  rw [faithful_select rfl (by simp [columnas])
    (bares_quoted (bares_quoted (bares_bare h (bares_quoted bares_nil))))]
  simp

theorem faithful_suceso {ip campo valor tipo suceso prediccion : Texto} (h : Bare valor) :
    Faithful (select "bitacoraSucesos" [("direccionIP", .quoted ip),
      ("campoMonitorizacion", .quoted campo), ("valorAnticipacion", .bare valor),
      ("tipoValorAnticipacion", .quoted tipo),
      ("fechaSuceso", .quoted suceso), ("fechaPrediccion", .quoted prediccion)]) ↔
      isClean ip ∧ isClean campo ∧ isClean tipo ∧ isClean suceso ∧ isClean prediccion := by
  rw [faithful_select rfl (by simp [columnas])
    (bares_quoted (bares_quoted
      (bares_bare h (bares_quoted (bares_quoted (bares_quoted bares_nil))))))]
  simp

end Shapes

section Values

theorem plain_of_isIpChar {s : Texto} (h : ∀ c ∈ s, isIpChar c) : Plain s := by
  intro c hc
  have hchar := h c hc
  simp only [isPlain, isQuote, Bool.and_eq_true, Bool.not_eq_true', Bool.or_eq_false_iff,
    decide_eq_false_iff_not, decide_eq_true_eq]
  refine ⟨⟨?_, ?_⟩, ?_⟩ <;> rintro rfl <;> exact absurd hchar (by decide)

theorem plain_ip {ip : Texto} {msk : ℤ} (h : direccionValida ip msk) : Plain ip := by
  simp only [direccionValida, Bool.and_eq_true] at h
  exact plain_of_isIpChar (validIp_chars h.1)

theorem plain_direccionIP {ip : Texto} {msk : ℤ} (h : direccionValida ip msk) :
    Plain (ip ++ '/' :: intText msk) :=
  (plain_ip h).append ((plain_intText msk).cons rfl)

theorem plain_strReplace {search : Char} {s : Texto} (h : Plain s) :
    Plain (strReplace search '_' s) := by
  intro c hc
  obtain ⟨d, hd, rfl⟩ := List.mem_map.mp hc
  split_ifs
  · rfl
  · exact h d hd

theorem plain_padded (w n : ℕ) : Plain (padded w n) :=
  plain_of_isDigit (fun _ ↦ isDigit_of_mem_padded)

theorem plain_dateYmd (t : ℤ) : Plain (dateYmd t) := by
  have hyear (y : ℤ) : Plain (yearText y) := by
    unfold yearText
    split_ifs
    · exact (plain_padded 4 y.natAbs).cons rfl
    · exact plain_padded 4 y.natAbs
  exact (hyear _).append (((plain_padded 2 _).append ((plain_padded 2 _).cons rfl)).cons rfl)

theorem plain_dateYmdHis (t : ℤ) : Plain (dateYmdHis t) := by
  have hclock (n : ℕ) : Plain (clockText n) :=
    (plain_padded 2 _).append (((plain_padded 2 _).append ((plain_padded 2 _).cons rfl)).cons rfl)
  exact (plain_dateYmd t).append ((hclock _).cons rfl)

theorem plain_md5 (s : Texto) : Plain (Digest.md5 s) := by
  intro c hc
  simp only [isPlain, isQuote, Bool.and_eq_true, Bool.not_eq_true', Bool.or_eq_false_iff,
    decide_eq_false_iff_not, decide_eq_true_eq]
  refine ⟨⟨?_, ?_⟩, ?_⟩ <;> rintro rfl <;> exact absurd (Digest.mem_md5 hc) (by decide)

theorem bare_of_validInt {x : Valor} (h : validInt x) : Bare (strval x) := by
  obtain ⟨n, hn, -⟩ := validInt_cases h
  exact bare_of_filterValidateInt hn

theorem bare_of_enteroONulo {x : Valor} (h : enteroONulo x) : Bare (strval x) := by
  simp only [enteroONulo, Bool.or_eq_true, Bool.and_eq_true, decide_eq_true_eq] at h
  rcases h with h | rfl
  · exact bare_of_validInt h.2
  · exact bare_null

theorem bare_of_flotanteONulo {x : Valor} (h : flotanteONulo x) : Bare (strval x) := by
  simp only [flotanteONulo, Bool.or_eq_true, Bool.and_eq_true, decide_eq_true_eq] at h
  rcases h with h | rfl
  · cases x with
    | none => cases h.2
    | some v => exact bare_of_validFloat h.2
  · exact bare_null

end Values

section Classes

variable {ahora : Reloj} {oper : Operacion}

theorem fixed_fin : Fixed ")".toList ∧ Fixed ");".toList := ⟨⟨rfl, rfl, rfl⟩, ⟨rfl, rfl, rfl⟩⟩

theorem bares_linea {l : LineaBase Valor Valor Valor}
    (h : l.All (enteroONulo ·) (enteroONulo ·) (flotanteONulo ·)) :
    Bares ((l.map strval strval strval).toList.map Arg.bare) := by
  have hbare : ∀ v ∈ (l.map strval strval strval).toList, Bare v := by
    simp only [LineaBase.All, LineaBase.map, LineaBase.toList, List.forall_mem_cons,
      List.not_mem_nil, false_imp_iff, implies_true, and_true] at h ⊢
    exact h.imp bare_of_enteroONulo (.imp bare_of_enteroONulo (.imp bare_of_enteroONulo
      (.imp bare_of_enteroONulo (.imp bare_of_enteroONulo (.imp bare_of_enteroONulo
      (.imp bare_of_enteroONulo (.imp bare_of_enteroONulo (.imp bare_of_enteroONulo
      (.imp bare_of_enteroONulo (.imp bare_of_enteroONulo (.imp bare_of_enteroONulo
      (.imp bare_of_enteroONulo (.imp bare_of_enteroONulo (.imp bare_of_enteroONulo
      bare_of_flotanteONulo))))))))))))))
  intro v hv
  obtain ⟨w, hw, he⟩ := List.mem_map.mp hv
  exact Arg.bare.inj he ▸ hbare w hw

theorem legible_linea (d : Dispositivo) : Legible d.argumentosLinea ↔ True := by
  refine iff_true_intro (fun v hv ↦ ?_)
  obtain ⟨w, -, he⟩ := List.mem_map.mp hv
  cases he

/-- The texts of an accepted device are clean, but for the community. -/
theorem clean_dispositivo {a : Dispositivo.Argumentos}
    (h : (Dispositivo.construct ahora a).Valido) :
    isClean (Dispositivo.construct ahora a).direccionIP ∧
      isClean (Dispositivo.construct ahora a).fechaRegistroHost ∧ isClean (strval a.monitActiv) ∧
      isClean (strval a.tipoDisp) ∧ isClean (strval a.verSNMP) ∧
      isClean (Dispositivo.construct ahora a).ruta := by
  refine ⟨(plain_direccionIP h.direccion).isClean, (plain_dateYmd _).isClean, ?_, ?_, ?_, ?_⟩
  · exact (plain_of_inArray h.monitorizacionActiva (by decide)).isClean
  · exact (plain_of_inArray h.tipoDispositivo (by decide)).isClean
  · exact (plain_of_inArray h.versionSNMP (by decide)).isClean
  · refine Plain.isClean (.append (by decide) ?_)
    exact (plain_strReplace (plain_ip h.direccion)).append ((plain_intText _).cons rfl)

theorem dispositivo_iff {a : Dispositivo.Argumentos}
    (h : (Dispositivo.construct ahora a).validarCamposDispositivo oper) :
    (∀ s ∈ (Dispositivo.construct ahora a).consultas oper, Faithful s) ↔
      (Peticion.dispositivo a oper).Limpia := by
  rw [Dispositivo.validarCamposDispositivo_iff] at h
  have hargs : (Dispositivo.construct ahora a).monitorizacionActiva = a.monitActiv ∧
      (Dispositivo.construct ahora a).tipoDispositivo = a.tipoDisp ∧
      (Dispositivo.construct ahora a).versionSNMP = a.verSNMP ∧
      (Dispositivo.construct ahora a).comunidadSNMP = a.comSNMP := ⟨rfl, rfl, rfl, rfl⟩
  cases oper with
  | insertar =>
    obtain ⟨hdir, hfecha, hmonit, htipo, hver, hruta⟩ := clean_dispositivo h
    have hbares : Bares (Dispositivo.construct ahora a).argumentosInsertar :=
      bares_append (bares_quoted (bares_quoted (bares_quoted (bares_quoted (bares_quoted
        (bares_quoted (bares_quoted bares_nil))))))) (bares_linea h.linea)
    simp only [Dispositivo.consultas, List.forall_mem_cons, faithful_dispositivo,
      faithful_call fixed_fin.1 hbares]
    simp [Dispositivo.argumentosInsertar, hargs, hdir, hfecha, hmonit, htipo, hver, hruta,
      legible_linea, Peticion.Limpia, Peticion.sueltos]
  | actualizar =>
    obtain ⟨hdir, -, hmonit, htipo, hver, -⟩ := clean_dispositivo h
    have hbares : Bares (Dispositivo.construct ahora a).argumentosActualizar :=
      bares_append (bares_quoted
        (bares_quoted (bares_quoted (bares_quoted (bares_quoted bares_nil)))))
        (bares_linea h.linea)
    simp only [Dispositivo.consultas, List.forall_mem_cons, faithful_dispositivo,
      faithful_call fixed_fin.1 hbares]
    simp [Dispositivo.argumentosActualizar, hargs, hdir, hmonit, htipo, hver, legible_linea,
      Peticion.Limpia, Peticion.sueltos]
  | eliminar =>
    have hdir : isClean (Dispositivo.construct ahora a).direccionIP := (plain_direccionIP h).isClean
    have hbares : Bares (Dispositivo.construct ahora a).argumentosEliminar := bares_quoted bares_nil
    simp only [Dispositivo.consultas, List.forall_mem_cons, faithful_dispositivo,
      faithful_call fixed_fin.2 hbares]
    simp [Dispositivo.argumentosEliminar, hdir, Peticion.Limpia, Peticion.sueltos]
  | otra =>
    exact iff_of_true (fun s hs ↦ absurd hs List.not_mem_nil)
      (fun s hs ↦ absurd hs List.not_mem_nil)

theorem administrador_iff {a : Administrador.Argumentos}
    (h : (Administrador.construct ahora a).validarCamposAdministrador oper) :
    (∀ s ∈ (Administrador.construct ahora a).consultas oper, Faithful s) ↔
      (Peticion.administrador a oper).Limpia := by
  rw [Administrador.validarCamposAdministrador_iff] at h
  have hpass : isClean (Administrador.construct ahora a).contrasenia := (plain_md5 _).isClean
  have hfecha : isClean (Administrador.construct ahora a).fechaRegistroAdministrador :=
    (plain_dateYmd _).isClean
  have hlocal : (Administrador.construct ahora a).localEmailContacto = localDe a.email := rfl
  have hdominio : (Administrador.construct ahora a).dominioEmailContacto = dominioDe a.email := rfl
  cases oper with
  | insertar =>
    have hlogueo := (plain_of_inArray h.logueoActivo (by decide)).isClean
    have hbares : Bares (Administrador.construct ahora a).argumentosInsertar :=
      bares_quoted (bares_quoted (bares_quoted (bares_quoted (bares_quoted bares_nil))))
    simp only [Administrador.consultas, List.forall_mem_cons, faithful_administrador,
      faithful_call fixed_fin.1 hbares]
    simp [Administrador.argumentosInsertar, hlocal, hdominio, hpass, hfecha, hlogueo,
      Peticion.Limpia, Peticion.sueltos]
  | actualizar =>
    have hlogueo := (plain_of_inArray h.logueoActivo (by decide)).isClean
    have hbares : Bares (Administrador.construct ahora a).argumentosActualizar :=
      bares_quoted (bares_quoted (bares_quoted (bares_quoted bares_nil)))
    simp only [Administrador.consultas, List.forall_mem_cons, faithful_administrador,
      faithful_call fixed_fin.2 hbares]
    simp [Administrador.argumentosActualizar, hlocal, hdominio, hpass, hlogueo, Peticion.Limpia,
      Peticion.sueltos]
  | eliminar =>
    have hbares : Bares (Administrador.construct ahora a).argumentosEliminar :=
      bares_quoted (bares_quoted bares_nil)
    simp only [Administrador.consultas, List.forall_mem_cons, faithful_administrador,
      faithful_call fixed_fin.2 hbares]
    simp [Administrador.argumentosEliminar, hlocal, hdominio, Peticion.Limpia, Peticion.sueltos]
  | otra => exact h.elim

theorem permisosAdministracion_iff {a : PermisosAdministracion.Argumentos}
    (h : (PermisosAdministracion.construct a).validarCamposPermisosAdministracion oper) :
    (∀ s ∈ (PermisosAdministracion.construct a).consultas oper, Faithful s) ↔
      (Peticion.permisosAdministracion a oper).Limpia := by
  rw [PermisosAdministracion.validarCamposPermisosAdministracion_iff] at h
  have hlocal : (PermisosAdministracion.construct a).localEmailContacto = localDe a.email := rfl
  have hdominio : (PermisosAdministracion.construct a).dominioEmailContacto = dominioDe a.email :=
    rfl
  have hdireccion : (PermisosAdministracion.construct a).direccionIP = strval a.dirIP := rfl
  have hbares : Bares (PermisosAdministracion.construct a).argumentosInsertar :=
    bares_quoted (bares_quoted (bares_quoted (bares_quoted bares_nil)))
  cases oper with
  | insertar =>
    have hpermiso := (plain_of_inArray h.permisoActivo (by decide)).isClean
    simp only [PermisosAdministracion.consultas, List.forall_mem_cons, faithful_administrador,
      faithful_dispositivo, faithful_call fixed_fin.2 hbares]
    simp [PermisosAdministracion.argumentosInsertar, hlocal, hdominio, hdireccion, hpermiso,
      Peticion.Limpia, Peticion.sueltos]
    tauto
  | actualizar =>
    have hpermiso := (plain_of_inArray h.permisoActivo (by decide)).isClean
    simp only [PermisosAdministracion.consultas, List.forall_mem_cons, faithful_permiso,
      PermisosAdministracion.argumentosActualizar, faithful_call fixed_fin.2 hbares]
    simp [PermisosAdministracion.argumentosInsertar, hlocal, hdominio, hdireccion, hpermiso,
      Peticion.Limpia, Peticion.sueltos]
  | eliminar =>
    have hbares : Bares (PermisosAdministracion.construct a).argumentosEliminar :=
      bares_quoted (bares_quoted (bares_quoted bares_nil))
    simp only [PermisosAdministracion.consultas, List.forall_mem_cons, faithful_permiso,
      faithful_call fixed_fin.2 hbares]
    simp [PermisosAdministracion.argumentosEliminar, hlocal, hdominio, hdireccion, Peticion.Limpia,
      Peticion.sueltos]
  | otra => exact h.elim

theorem restricciones_iff {a : Restricciones.Argumentos}
    (h : (Restricciones.construct a).validarCamposRestricciones oper) :
    (∀ s ∈ (Restricciones.construct a).consultas oper, Faithful s) ↔
      (Peticion.restricciones a oper).Limpia := by
  obtain ⟨h, halerta⟩ := Restricciones.validarCamposRestricciones_iff.mp h
  have hdireccion : (Restricciones.construct a).direccionIP = strval a.dirIP := rfl
  have hcampo := (plain_of_inArray h.campoMonitorizacion (by decide)).isClean
  have htipo := (plain_of_inArray h.tipoValorAnticipacion (by decide)).isClean
  have hvalor := bare_of_validInt h.valorAnticipacion
  have hbares : Bares (Restricciones.construct a).argumentosEliminar :=
    bares_quoted (bares_quoted (bares_bare hvalor (bares_quoted bares_nil)))
  have hbares' : Bares (Restricciones.construct a).argumentosInsertar :=
    bares_append hbares (bares_quoted bares_nil)
  cases oper with
  | insertar =>
    have halerta := (plain_of_inArray halerta (by decide)).isClean
    simp only [Restricciones.consultas, Restricciones.condiciones, List.forall_mem_cons,
      faithful_restriccion hvalor, faithful_dispositivo, faithful_call fixed_fin.2 hbares']
    simp [Restricciones.argumentosInsertar, Restricciones.argumentosEliminar, hdireccion,
      hcampo, htipo, halerta, Peticion.Limpia, Peticion.sueltos]
  | actualizar =>
    have halerta := (plain_of_inArray halerta (by decide)).isClean
    simp only [Restricciones.consultas, Restricciones.condiciones, List.forall_mem_cons,
      faithful_restriccion hvalor, Restricciones.argumentosActualizar,
      faithful_call fixed_fin.2 hbares']
    simp [Restricciones.argumentosInsertar, Restricciones.argumentosEliminar, hdireccion,
      hcampo, htipo, halerta, Peticion.Limpia, Peticion.sueltos]
  | eliminar =>
    simp only [Restricciones.consultas, Restricciones.condiciones, List.forall_mem_cons,
      faithful_restriccion hvalor, faithful_call fixed_fin.2 hbares]
    simp [Restricciones.argumentosEliminar, hdireccion, hcampo, htipo, Peticion.Limpia,
      Peticion.sueltos]
  | otra => exact absurd halerta Bool.false_ne_true

theorem bitacoraSucesos_iff {a : BitacoraSucesos.Argumentos}
    (h : (BitacoraSucesos.construct ahora oper a).validarCamposBitacoraSucesos oper) :
    (∀ s ∈ (BitacoraSucesos.construct ahora oper a).consultas oper, Faithful s) ↔
      (Peticion.bitacoraSucesos a oper).Limpia := by
  rw [BitacoraSucesos.validarCamposBitacoraSucesos_iff] at h
  have hdireccion : (BitacoraSucesos.construct ahora oper a).direccionIP = strval a.dirIP := rfl
  have hbares (h : (BitacoraSucesos.construct ahora oper a).Valido) :
      Bares (BitacoraSucesos.construct ahora oper a).argumentosEliminar :=
    bares_quoted (bares_quoted
      (bares_quoted (bares_quoted (bares_quoted (bares_quoted bares_nil)))))
  cases oper with
  | insertar =>
    obtain ⟨h, hcaptura⟩ := h
    have hcampo := (plain_of_inArray h.campoMonitorizacion (by decide)).isClean
    have htipo := (plain_of_inArray h.tipoValorAnticipacion (by decide)).isClean
    have hvalor := (plain_of_validInt h.valorAnticipacion).isClean
    have hsuceso : isClean (strval (BitacoraSucesos.construct ahora .insertar a).fechaSuceso) :=
      (plain_dateYmdHis _).isClean
    have hprediccion :
        isClean (strval (BitacoraSucesos.construct ahora .insertar a).fechaPrediccion) := by
      change isClean
        (strval ((BitacoraSucesos.despues ahora a.valorAntic a.tipoValorAntic).map dateYmdHis))
      cases BitacoraSucesos.despues ahora a.valorAntic a.tipoValorAntic with
      | none => rfl
      | some t => exact (plain_dateYmdHis t).isClean
    have hcaptura := (plain_of_validInt hcaptura).isClean
    have hbares : Bares (BitacoraSucesos.construct ahora .insertar a).argumentosInsertar :=
      bares_append (hbares h) (bares_quoted bares_nil)
    simp only [BitacoraSucesos.consultas, BitacoraSucesos.condiciones, List.forall_mem_cons,
      faithful_restriccion (bare_of_validInt h.valorAnticipacion), faithful_call fixed_fin.1 hbares]
    simp [BitacoraSucesos.argumentosInsertar, BitacoraSucesos.argumentosEliminar, hdireccion,
      hcampo, hvalor, htipo, hsuceso, hprediccion, hcaptura, Peticion.Limpia, Peticion.sueltos]
  | eliminar =>
    have hcampo := (plain_of_inArray h.campoMonitorizacion (by decide)).isClean
    have htipo := (plain_of_inArray h.tipoValorAnticipacion (by decide)).isClean
    have hvalor := (plain_of_validInt h.valorAnticipacion).isClean
    have hsuceso : (BitacoraSucesos.construct ahora .eliminar a).fechaSuceso = a.fechaSuc := rfl
    have hprediccion : (BitacoraSucesos.construct ahora .eliminar a).fechaPrediccion =
      a.fechaPred := rfl
    simp only [BitacoraSucesos.consultas, BitacoraSucesos.condiciones, List.cons_append,
      List.nil_append, List.forall_mem_cons, faithful_suceso (bare_of_validInt h.valorAnticipacion),
      faithful_call fixed_fin.1 (hbares h)]
    simp [BitacoraSucesos.argumentosEliminar, hdireccion, hcampo, hvalor, htipo, hsuceso,
      hprediccion, Peticion.Limpia, Peticion.sueltos]
  | actualizar => exact h.elim
  | otra => exact h.elim

end Classes

/-- The statements of an accepted request are read as they are meant exactly when
the values that no test looks at are clean. -/
theorem consultas_faithful_iff (ahora : Reloj) (p : Peticion) (h : p.aceptada ahora) :
    (∀ s ∈ p.consultas ahora, lex s.text = some s.tokens) ↔ p.Limpia := by
  cases p with
  | dispositivo a oper => exact dispositivo_iff h
  | administrador a oper => exact administrador_iff h
  | permisosAdministracion a oper => exact permisosAdministracion_iff h
  | restricciones a oper => exact restricciones_iff h
  | bitacoraSucesos a oper => exact bitacoraSucesos_iff h

theorem consultas_faithful_host :
    (Peticion.altaRestriccion "10.0.0.1/24" "min").aceptada reloj ∧
      ∀ s ∈ (Peticion.altaRestriccion "10.0.0.1/24" "min").consultas reloj, lex s.text =
        some s.tokens := by
  have haceptada : (Peticion.altaRestriccion "10.0.0.1/24" "min").aceptada
    reloj := by decide +kernel
  exact ⟨haceptada, (consultas_faithful_iff reloj _ haceptada).mpr (by decide)⟩

/-- The test of the mask stops at the quote, which the statements then keep. -/
theorem consultas_not_faithful :
    (Peticion.altaRestriccion "10.0.0.1/24' OR '1'='1" "min").aceptada reloj ∧
      ¬ ∀ s ∈ (Peticion.altaRestriccion "10.0.0.1/24' OR '1'='1" "min").consultas reloj,
          lex s.text = some s.tokens := by
  have haceptada : (Peticion.altaRestriccion "10.0.0.1/24' OR '1'='1" "min").aceptada
    reloj := by decide +kernel
  refine ⟨haceptada, fun h ↦ ?_⟩
  exact absurd ((restricciones_iff haceptada).mp h) (by decide)

end ServiciosRed.Queries
