import ServiciosRed.Predictions
import ServiciosRed.Insertions
import ServiciosRed.Routes

namespace ServiciosRed.EventLog

open Text Php Filters MySQL Relational Schema Calendar Interleaving Statements Procedures Fields
  Server Binding
  Programs Requests Domains Reachability Insertions Predictions

section Columns

variable {n : ℕ} {s : Texto}

theorem varcharNotNull_text : varcharNotNull n (.text s) = fit n s := by
  rw [varcharNotNull, varchar]
  cases fit n s <;> rfl

theorem isSome_fit_iff : (fit n s).isSome ↔ (s.drop n).all (· = ' ') := by
  rw [fit]
  split_ifs with h
  · exact iff_of_true rfl h
  · exact iff_of_false Bool.false_ne_true h

theorem texto_eq_iff {v : Varchar n} (h : fit n s = some v) : v.texto = s ↔ s.length ≤ n := by
  constructor
  · rintro rfl
    exact v.2
  · intro hlength
    rw [fit_of_length hlength, Option.some.injEq] at h
    rw [← h]

theorem enum_of_named {α : Type} {members : List (String × α)} {c : α}
    (h : named members s = some c) :
    Server.enum members (.text s) = some c := by
  rw [Server.enum, h]
  rfl

theorem claveRestriccion_eq_some [Engine] {ip campo valor tipo : Texto} {k : ClaveRestriccion}
    (h : claveRestriccion ip campo valor tipo = some k) :
    sortKey ip = k.1 ∧ named CampoMonitorizacion.miembros campo = some k.2.1 ∧
      literal (.bare valor) = some (.int k.2.2.1) ∧ named TipoValorAnticipacion.miembros tipo =
        some k.2.2.2 := by
  unfold claveRestriccion at h
  split at h
  · rename_i c z t hc hz ht
    cases h
    exact ⟨rfl, hc, hz, ht⟩
  · cases h

theorem named_tipo_inj {t : Texto} {u : TipoValorAnticipacion}
    (hs : named TipoValorAnticipacion.miembros s = some u)
    (ht : named TipoValorAnticipacion.miembros t = some u) :
    s = t := by
  have hname : ∀ r : Texto, named TipoValorAnticipacion.miembros r = some u →
      ∃ m ∈ TipoValorAnticipacion.miembros, m.1.toList = r ∧ m.2 = u := by
    intro r hr
    obtain ⟨m, hm, rfl⟩ := Option.map_eq_some_iff.mp hr
    have hm' := List.find?_some hm
    exact ⟨m, List.mem_of_find?_eq_some hm, of_decide_eq_true hm', rfl⟩
  obtain ⟨m, hm, rfl, rfl⟩ := hname s hs
  obtain ⟨m', hm', rfl, he⟩ := hname t ht
  have hinj : ∀ p ∈ TipoValorAnticipacion.miembros, ∀ q ∈ TipoValorAnticipacion.miembros, q.2 =
    p.2 →
      p.1.toList = q.1.toList := by
    decide
  exact hinj m hm m' hm' he

end Columns

section Engines

variable [Engine] {ahora : Reloj} {bd bd' : BD} {x : FilaRestriccion}
  {a : BitacoraSucesos.Argumentos}

structure Dirigida (x : FilaRestriccion) (ahora : Reloj) (a : BitacoraSucesos.Argumentos) :
    Prop where
  aceptada : (Peticion.bitacoraSucesos a .insertar).aceptada ahora
  restriccion : (BitacoraSucesos.construct ahora .insertar a).restriccion = some x.clave

def prediccion (ahora : Reloj) (a : BitacoraSucesos.Argumentos) : ℤ :=
  ahora.segundo + intval (strval a.valorAntic) * segundos a.tipoValorAntic

structure Cabida (ahora : Reloj) (a : BitacoraSucesos.Argumentos) : Prop where
  direccionIP : ((strval a.dirIP).drop 18).all (· = ' ')
  fechaSuceso : ahora.segundo ≤ 2147483647
  fechaPrediccion : 1 ≤ prediccion ahora a ∧ prediccion ahora a ≤ 2147483647
  valorCapturado : (strval a.valorCap).length ≤ 4

/-- A request adds one row of the restriction with its value, and keeps the others. -/
def Anota (x : FilaRestriccion) (a : BitacoraSucesos.Argumentos) (bd bd' : BD) : Prop :=
  ∃ y : FilaSuceso, y.restriccion = x.clave ∧ y.valorCapturado.texto = strval a.valorCap ∧
    y ∉ bd.bitacoraSucesos ∧ ∀ w, w ∈ bd'.bitacoraSucesos ↔ w = y ∨ w ∈ bd.bitacoraSucesos

def Registra (x : FilaRestriccion) : List (Reloj × BitacoraSucesos.Argumentos) → BD → Prop
  | [], _ => True
  | (ahora, a) :: es, bd =>
    let bd' := tras ahora (.bitacoraSucesos a .insertar) bd
    Anota x a bd bd' ∧ Registra x es bd'

structure FilaDe (x : FilaRestriccion) (ahora : Reloj) (a : BitacoraSucesos.Argumentos)
    (y : FilaSuceso) : Prop where
  direccionIP : fit 18 (strval a.dirIP) = some y.direccionIP
  campoMonitorizacion : x.campoMonitorizacion = y.campoMonitorizacion
  valorAnticipacion : x.valorAnticipacion = y.valorAnticipacion
  tipoValorAnticipacion : x.tipoValorAnticipacion = y.tipoValorAnticipacion
  fechaSuceso : toMarca ahora.segundo = some y.fechaSuceso
  fechaPrediccion : toMarca (prediccion ahora a) = some y.fechaPrediccion
  valorCapturado : fit 4 (strval a.valorCap) = some y.valorCapturado

namespace Dirigida

theorem valido (h : Dirigida x ahora a) : (BitacoraSucesos.construct ahora .insertar a).Valido := by
  have hp : (BitacoraSucesos.construct ahora .insertar a).validarCamposBitacoraSucesos .insertar :=
    h.aceptada
  exact (BitacoraSucesos.validarCamposBitacoraSucesos_iff.mp hp).1

theorem valorAnticipacion (h : Dirigida x ahora a) :
    filterValidateInt (strval a.valorAntic) = some x.valorAnticipacion.valor := by
  obtain ⟨z, hz, -⟩ := validInt_cases h.valido.valorAnticipacion
  have hz : filterValidateInt (strval a.valorAntic) = some z := hz
  have hliteral := (claveRestriccion_eq_some h.restriccion).2.2.1
  have hvalue : literal (.bare (strval a.valorAntic)) = some (.int x.valorAnticipacion.valor) :=
    hliteral
  rw [literal_bare, numero_of_filterValidateInt hz] at hvalue
  cases hvalue
  exact hz

theorem prediccion_eq (h : Dirigida x ahora a) :
    prediccion ahora a = ahora.segundo + x.valorAnticipacion.valor * segundos a.tipoValorAntic := by
  rw [prediccion, intval_of_filterValidateInt h.valorAnticipacion]

theorem segundos_eq {ahora' : Reloj} {a' : BitacoraSucesos.Argumentos} (h : Dirigida x ahora a)
    (h' : Dirigida x ahora' a') : segundos a.tipoValorAntic = segundos a'.tipoValorAntic := by
  have htipo : strval a.tipoValorAntic = strval a'.tipoValorAntic :=
    named_tipo_inj (claveRestriccion_eq_some h.restriccion).2.2.2
      (claveRestriccion_eq_some h'.restriccion).2.2.2
  simp only [segundos, BitacoraSucesos.factores, htipo]

theorem fechaPrediccion (h : Dirigida x ahora a) :
    (BitacoraSucesos.construct ahora .insertar a).fechaPrediccion =
      some (dateYmdHis (prediccion ahora a)) := by
  obtain ⟨z, hz, hne⟩ := validInt_cases h.valido.valorAnticipacion
  refine fechaPrediccion_eq h.valido.valorAnticipacion ?_ h.valido.tipoValorAnticipacion
  rw [intval_of_filterValidateInt h.valorAnticipacion]
  exact x.valorAnticipacion.rango

theorem literales (a : BitacoraSucesos.Argumentos) :
    (BitacoraSucesos.construct ahora .insertar a).argumentosInsertar.mapM literal =
      some [.text (strval a.dirIP), .text (strval a.campoMon), .text (strval a.valorAntic),
        .text (strval a.tipoValorAntic), .text (dateYmdHis ahora.segundo),
        .text (strval (BitacoraSucesos.construct ahora .insertar a).fechaPrediccion),
        .text (strval a.valorCap)] := rfl

theorem smallint (h : Dirigida x ahora a) :
    Server.smallint (.text (strval a.valorAntic)) = some x.valorAnticipacion := by
  rw [Server.smallint, readInt_of_filterValidateInt h.valorAnticipacion,
    Option.bind_some, toSmallint, dif_pos x.valorAnticipacion.rango]

theorem invoke_iff (h : Dirigida x ahora a) (pasos : List (Step BD)) :
    invoke .insertarBitacoraSucesos [.text (strval a.dirIP), .text (strval a.campoMon),
      .text (strval a.valorAntic),
        .text (strval a.tipoValorAntic), .text (dateYmdHis ahora.segundo),
        .text (strval (BitacoraSucesos.construct ahora .insertar a).fechaPrediccion),
        .text (strval a.valorCap)] =
      some pasos ↔ ∃ y, FilaDe x ahora a y ∧ [insertBitacora y] = pasos := by
  obtain ⟨-, hcampo, -, htipo⟩ := claveRestriccion_eq_some h.restriccion
  have hcampo : campoMonitorizacion (.text (strval a.campoMon)) = some x.campoMonitorizacion :=
    enum_of_named hcampo
  have htipo : tipoValorAnticipacion (.text (strval a.tipoValorAntic)) =
    some x.tipoValorAnticipacion :=
    enum_of_named htipo
  have hprediccion :
    marca (.text (strval (BitacoraSucesos.construct ahora .insertar a).fechaPrediccion)) =
      toMarca (prediccion ahora a) := by
    rw [h.fechaPrediccion]
    exact marca_dateYmdHis _
  rw [invoke_insertarBitacora]
  simp only [varcharNotNull_text, hcampo, h.smallint, htipo, hprediccion, marca_dateYmdHis,
    Option.some.injEq, exists_eq_left']
  constructor
  · rintro ⟨i, hi, s, hs, p, hp, v, hv, rfl⟩
    exact ⟨⟨i, _, _, _, s, p, v⟩, ⟨hi, rfl, rfl, rfl, hs, hp, hv⟩, rfl⟩
  · rintro ⟨⟨i, c, z, t, s, p, v⟩, ⟨hi, hc, hz, ht, hs, hp, hv⟩, rfl⟩
    cases hc
    cases hz
    cases ht
    exact ⟨i, hi, s, hs, p, hp, v, hv, rfl⟩

theorem clave {y : FilaSuceso} (h : Dirigida x ahora a) (hy : FilaDe x ahora a y) :
    y.clave = (x.clave, ahora.segundo, prediccion ahora a) := by
  have hip := (claveRestriccion_eq_some h.restriccion).1
  have hkey : sortKey y.direccionIP.texto = sortKey (strval a.dirIP) :=
    sortKey_varcharNotNull (varcharNotNull_text.trans hy.direccionIP)
  rw [FilaSuceso.clave, FilaSuceso.restriccion, segundo_of_toMarca hy.fechaSuceso,
    segundo_of_toMarca hy.fechaPrediccion, ← hy.campoMonitorizacion, ← hy.valorAnticipacion,
    ← hy.tipoValorAnticipacion, hkey]
  exact congrArg
    (fun k ↦ ((k, x.campoMonitorizacion, x.valorAnticipacion.valor, x.tipoValorAnticipacion),
      ahora.segundo, prediccion ahora a)) hip

end Dirigida

omit [Engine] in
theorem cabida_iff : Cabida ahora a ↔ ∃ y, FilaDe x ahora a y ∧ y.valorCapturado.texto =
    strval a.valorCap := by
  have hahora := ahora.rango
  constructor
  · intro h
    obtain ⟨i, hi⟩ := Option.isSome_iff_exists.mp (isSome_fit_iff.mpr h.direccionIP)
    have hvalor := fit_of_length h.valorCapturado
    exact ⟨⟨i, x.campoMonitorizacion, x.valorAnticipacion, x.tipoValorAnticipacion,
      ⟨ahora.segundo, hahora.1, h.fechaSuceso⟩, ⟨prediccion ahora a, h.fechaPrediccion⟩, _⟩,
      ⟨hi, rfl, rfl, rfl, toMarca_eq_some_iff.mpr rfl, toMarca_eq_some_iff.mpr rfl, hvalor⟩, rfl⟩
  · rintro ⟨y, hy, htexto⟩
    have hsuceso := segundo_of_toMarca hy.fechaSuceso
    have hprediccion := segundo_of_toMarca hy.fechaPrediccion
    have hrango := y.fechaSuceso.rango
    have hrango' := y.fechaPrediccion.rango
    refine ⟨isSome_fit_iff.mp ?_, by omega, by omega, (texto_eq_iff hy.valorCapturado).mp htexto⟩
    rw [hy.direccionIP]
    rfl

section Steps

theorem tras_eq (h : Dirigida x ahora a) (hx : x ∈ bd.restricciones) :
    tras ahora (.bitacoraSucesos a .insertar) bd = (solo (ejecuta .insertarBitacoraSucesos
      (BitacoraSucesos.construct ahora .insertar a).argumentosInsertar) bd).1 := by
  have hlook : existeRestriccion (BitacoraSucesos.construct ahora .insertar a).restriccion bd =
      some bd := by
    rw [h.restriccion]
    exact guard_eq_some.mpr ⟨Table.has_of_mem hx, rfl⟩
  have hpasan : Pasan (comprobaciones ahora (.bitacoraSucesos a .insertar)) bd :=
    List.forall_mem_singleton.mpr hlook
  rw [tras, pasos_insertar (p := .bitacoraSucesos a .insertar) rfl h.aceptada, solo_of_pasan hpasan]
  rfl

/-- A request adds the row for its values if their key is free, and otherwise changes nothing. -/
theorem tras_cases (h : Dirigida x ahora a) (hx : x ∈ bd.restricciones) :
    (tras ahora (.bitacoraSucesos a .insertar) bd = bd ∧ ∀ y, FilaDe x ahora a y →
      bd.bitacoraSucesos.Has y.clave) ∨ ∃ y T, FilaDe x ahora a y ∧
      bd.bitacoraSucesos.insert? y = some T ∧
        tras ahora (.bitacoraSucesos a .insertar) bd = { bd with bitacoraSucesos := T } := by
  rw [tras_eq h hx, ejecuta, Dirigida.literales, Option.bind_some]
  by_cases hfila : ∃ y, FilaDe x ahora a y
  · obtain ⟨y, hy⟩ := hfila
    have hclave := h.clave hy
    have hrestriccion : bd.restricciones.Has y.restriccion := by
      rw [show y.restriccion = x.clave from congrArg Prod.fst hclave]
      exact Table.has_of_mem hx
    rw [(h.invoke_iff _).mpr ⟨y, hy, rfl⟩, Option.getD_some]
    cases hinsert : bd.bitacoraSucesos.insert? y with
    | none =>
      have hstep : insertBitacora y bd = none := by
        rw [insertBitacora, if_pos hrestriccion, hinsert]
        rfl
      refine Or.inl ⟨congrArg Prod.fst (solo_single_none hstep), fun y' hy' ↦ ?_⟩
      rw [h.clave hy', ← hclave]
      exact Table.insert?_eq_none.mp hinsert
    | some T =>
      have hstep : insertBitacora y bd = some { bd with bitacoraSucesos := T } := by
        rw [insertBitacora, if_pos hrestriccion, hinsert]
        rfl
      exact Or.inr ⟨y, T, hy, hinsert, congrArg Prod.fst (solo_single_some hstep)⟩
  · have hnone : invoke .insertarBitacoraSucesos [.text (strval a.dirIP), .text (strval a.campoMon),
        .text (strval a.valorAntic), .text (strval a.tipoValorAntic),
        .text (dateYmdHis ahora.segundo),
        .text (strval (BitacoraSucesos.construct ahora .insertar a).fechaPrediccion),
        .text (strval a.valorCap)] =
        none := by
      rw [Option.eq_none_iff_forall_ne_some]
      intro pasos hpasos
      obtain ⟨y, hy, -⟩ := (h.invoke_iff pasos).mp hpasos
      exact hfila ⟨y, hy⟩
    rw [hnone]
    exact Or.inl ⟨rfl, fun y hy ↦ absurd ⟨y, hy⟩ hfila⟩

theorem anota_iff (h : Dirigida x ahora a) (hx : x ∈ bd.restricciones) :
    Anota x a bd (tras ahora (.bitacoraSucesos a .insertar) bd) ↔
      Cabida ahora a ∧ ¬ bd.bitacoraSucesos.Has (x.clave, ahora.segundo, prediccion ahora a) := by
  constructor
  · rintro ⟨y, -, hvalor, hnew, hrows⟩
    have hmem := (hrows y).mpr (Or.inl rfl)
    rcases tras_cases h hx with ⟨hsame, -⟩ | ⟨z, T, hz, hinsert, htras⟩
    · rw [hsame] at hmem
      exact absurd hmem hnew
    · rw [htras] at hmem
      obtain rfl := ((Table.mem_insert? hinsert).mp hmem).resolve_right hnew
      refine ⟨cabida_iff.mpr ⟨y, hz, hvalor⟩, ?_⟩
      rw [← h.clave hz]
      exact (Table.insert?_eq_some hinsert).1
  · rintro ⟨hcabida, hfree⟩
    rcases tras_cases h hx with ⟨-, hhas⟩ | ⟨z, T, hz, hinsert, htras⟩
    · obtain ⟨y, hy, -⟩ := cabida_iff.mp hcabida
      rw [← h.clave hy] at hfree
      exact absurd (hhas y hy) hfree
    · rw [← h.clave hz] at hfree
      refine ⟨z, congrArg Prod.fst (h.clave hz),
        (texto_eq_iff hz.valorCapturado).mpr hcabida.valorCapturado,
        fun hmem ↦ hfree (Table.has_of_mem hmem), fun w ↦ ?_⟩
      rw [htras]
      exact Table.mem_insert? hinsert

theorem restricciones_tras (h : Dirigida x ahora a) (hx : x ∈ bd.restricciones) :
    (tras ahora (.bitacoraSucesos a .insertar) bd).restricciones = bd.restricciones := by
  rcases tras_cases h hx with ⟨hsame, -⟩ | ⟨y, T, -, -, htras⟩
  · rw [hsame]
  · rw [htras]

theorem has_tras (h : Dirigida x ahora a) (hx : x ∈ bd.restricciones)
    (hanota : Anota x a bd (tras ahora (.bitacoraSucesos a .insertar) bd)) (k : ClaveSuceso) :
    (tras ahora (.bitacoraSucesos a .insertar) bd).bitacoraSucesos.Has k ↔
      (x.clave, ahora.segundo, prediccion ahora a) = k ∨ bd.bitacoraSucesos.Has k := by
  obtain ⟨hcabida, hfree⟩ := (anota_iff h hx).mp hanota
  rcases tras_cases h hx with ⟨-, hhas⟩ | ⟨z, T, hz, hinsert, htras⟩
  · obtain ⟨y, hy, -⟩ := cabida_iff.mp hcabida
    rw [← h.clave hy] at hfree
    exact absurd (hhas y hy) hfree
  · rw [htras, ← h.clave hz]
    exact Table.has_insert? _ hinsert

end Steps

section Runs

variable {es : List (Reloj × BitacoraSucesos.Argumentos)}

def claveDe (x : FilaRestriccion) (e : Reloj × BitacoraSucesos.Argumentos) : ClaveSuceso :=
  (x.clave, e.1.segundo, prediccion e.1 e.2)

theorem registra_iff_claves (hx : x ∈ bd.restricciones) (hes : ∀ e ∈ es, Dirigida x e.1 e.2) :
    Registra x es bd ↔ (∀ e ∈ es, Cabida e.1 e.2 ∧ ¬ bd.bitacoraSucesos.Has (claveDe x e)) ∧
      (es.map (claveDe x)).Nodup := by
  induction es generalizing bd with
  | nil => simp [Registra]
  | cons e es ih =>
    obtain ⟨he, hes⟩ := List.forall_mem_cons.mp hes
    rw [List.forall_mem_cons, List.map_cons, List.nodup_cons]
    constructor
    · rintro ⟨hanota, hrest⟩
      rw [ih (restricciones_tras he hx ▸ hx) hes] at hrest
      obtain ⟨hall, hnodup⟩ := hrest
      have hhas := has_tras he hx hanota
      refine ⟨⟨(anota_iff he hx).mp hanota, fun e' he' ↦ ⟨(hall e' he').1, fun h ↦ ?_⟩⟩, ?_, hnodup⟩
      · exact (hall e' he').2 ((hhas _).mpr (Or.inr h))
      · intro hmem
        obtain ⟨e', he', hkey⟩ := List.mem_map.mp hmem
        exact (hall e' he').2 ((hhas _).mpr (Or.inl hkey.symm))
    · rintro ⟨⟨hfirst, hall⟩, hnew, hnodup⟩
      have hanota := (anota_iff he hx).mpr hfirst
      have hhas := has_tras he hx hanota
      refine ⟨hanota, (ih (restricciones_tras he hx ▸ hx) hes).mpr
        ⟨fun e' he' ↦ ⟨(hall e' he').1, fun h ↦ ?_⟩, hnodup⟩⟩
      rcases (hhas _).mp h with hkey | h
      · exact hnew (List.mem_map.mpr ⟨e', he', hkey.symm⟩)
      · exact (hall e' he').2 h

/-- Two requests for the restriction meet in their key exactly when they come in one second. -/
theorem claveDe_eq_iff {e e' : Reloj × BitacoraSucesos.Argumentos} (h : Dirigida x e.1 e.2)
    (h' : Dirigida x e'.1 e'.2) :
    claveDe x e = claveDe x e' ↔ e.1.segundo = e'.1.segundo := by
  rw [claveDe, claveDe, h.prediccion_eq, h'.prediccion_eq, h.segundos_eq h']
  constructor
  · intro he
    exact congrArg (fun k ↦ k.2.1) he
  · intro he
    rw [he]

/-- Every request adds its row exactly when the values fit their columns, no two requests come
in one second, and none meets a row that is there. -/
theorem registra_iff (x : FilaRestriccion) (hx : x ∈ bd.restricciones)
    (es : List (Reloj × BitacoraSucesos.Argumentos)) (hes : ∀ e ∈ es, Dirigida x e.1 e.2) :
    Registra x es bd ↔ (∀ e ∈ es, Cabida e.1 e.2) ∧ (es.map fun e ↦ e.1.segundo).Nodup ∧
      ∀ e ∈ es, ¬ bd.bitacoraSucesos.Has (x.clave, e.1.segundo, prediccion e.1 e.2) := by
  have hnodup : (es.map (claveDe x)).Nodup ↔ (es.map fun e ↦ e.1.segundo).Nodup := by
    rw [List.Nodup, List.Nodup, List.pairwise_map, List.pairwise_map]
    apply List.Pairwise.iff_of_mem
    intro e e' he he'
    exact not_congr (claveDe_eq_iff (hes e he) (hes e' he'))
  rw [registra_iff_claves hx hes, hnodup]
  constructor
  · rintro ⟨hall, hseconds⟩
    exact ⟨fun e he ↦ (hall e he).1, hseconds, fun e he ↦ (hall e he).2⟩
  · rintro ⟨hcabida, hseconds, hfree⟩
    exact ⟨fun e he ↦ ⟨hcabida e he, hfree e he⟩, hseconds⟩

end Runs

end Engines

section Ejemplo

def relojSiguiente : Reloj := ⟨1700000060, by decide⟩

theorem restriccion_vigilado : Routes.vigilado.bitacoraSucesos.rows = ∅ ∧
    ∃ x ∈ Routes.vigilado.restricciones.rows,
      (BitacoraSucesos.construct reloj .insertar (suceso "5" "min")).restriccion =
        some x.clave := by
  decide +kernel

theorem aceptada_suceso : (Peticion.bitacoraSucesos (suceso "5" "min") .insertar).aceptada reloj ∧
    (Peticion.bitacoraSucesos (suceso "5" "min") .insertar).aceptada relojSiguiente := by
  decide +kernel

theorem registra_vigilado : ∃ x ∈ Routes.vigilado.restricciones,
    Registra x [(reloj, suceso "5" "min"), (relojSiguiente, suceso "5" "min")] Routes.vigilado := by
  obtain ⟨hempty, x, hx, hrestriccion⟩ := restriccion_vigilado
  refine ⟨x, hx, (registra_iff x hx _ ?_).mpr ⟨?_, by decide, ?_⟩⟩
  · refine List.forall_mem_cons.mpr ⟨⟨aceptada_suceso.1, hrestriccion⟩,
      List.forall_mem_singleton.mpr ?_⟩
    exact ⟨aceptada_suceso.2, hrestriccion⟩
  · refine List.forall_mem_cons.mpr ⟨?_, List.forall_mem_singleton.mpr ?_⟩
    · exact ⟨by decide, by decide, by decide, by decide⟩
    · exact ⟨by decide, by decide, by decide, by decide⟩
  · rintro e - ⟨y, hy, -⟩
    rw [hempty] at hy
    exact absurd hy (Finset.notMem_empty y)

/-- Of two equal events in one second the second is lost. -/
theorem not_registra : ¬ ∀ bd : BD, Alcanzable bd → ∀ x ∈ bd.restricciones,
    ∀ es : List (Reloj × BitacoraSucesos.Argumentos), (∀ e ∈ es, Dirigida x e.1 e.2) →
    Registra x es bd := by
  intro h
  obtain ⟨-, x, hx, hrestriccion⟩ := restriccion_vigilado
  have hdirigida : Dirigida x reloj (suceso "5" "min") := ⟨aceptada_suceso.1, hrestriccion⟩
  obtain ⟨hfirst, hsecond, -⟩ := h Routes.vigilado Routes.alcanzable_vigilado x hx
    [(reloj, suceso "5" "min"), (reloj, suceso "5" "min")]
    (List.forall_mem_cons.mpr ⟨hdirigida, List.forall_mem_singleton.mpr hdirigida⟩)
  have hhas := (has_tras hdirigida hx hfirst _).mpr (Or.inl rfl)
  exact ((anota_iff hdirigida (restricciones_tras hdirigida hx ▸ hx)).mp hsecond).2 hhas

end Ejemplo

end ServiciosRed.EventLog
