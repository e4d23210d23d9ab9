import ServiciosRed.Paths
import ServiciosRed.Commutation

namespace ServiciosRed.Reachability

open Text Php Filters Regex Lexer MySQL Relational Schema Calendar Interleaving Statements
  Procedures Fields Server
  Binding Deletion Programs Requests Commutation Collation Paths

variable [Engine] {bd bd' : BD} {f : Step BD} {ahora : Reloj}

/-- The states that clean requests lead to from the empty database. -/
inductive Alcanzable : BD → Prop
  | vacia : Alcanzable BD.vacia
  | peticion {bd : BD} (h : Alcanzable bd) (ahora : Reloj) {p : Peticion} (hp : p.Limpia) :
      Alcanzable (solo (p.pasos ahora) bd).1

def tras (ahora : Reloj) (p : Peticion) (bd : BD) : BD := (solo (p.pasos ahora) bd).1

theorem Alcanzable.tras {p : Peticion} (h : Alcanzable bd) (ahora : Reloj) (hp : p.Limpia) :
    Alcanzable (tras ahora p bd) := h.peticion ahora hp

/-- What every step of a clean request keeps holds in every reachable state. -/
theorem Alcanzable.invariant {P : BD → Prop} (h : Alcanzable bd) (hvacia : P BD.vacia)
    (hpaso : ∀ (ahora : Reloj) (p : Peticion), p.Limpia → ∀ f ∈ p.pasos ahora, ∀ bd bd', P bd →
    f bd = some bd' →
      P bd') : P bd := by
  induction h with
  | vacia => exact hvacia
  | peticion _ ahora hp ih => exact solo_preserves (hpaso ahora _ hp) ih

section Tables

inductive UnaTabla (k : Option Clave) (bd : BD) : BD → Prop
  | dispositivo {j : ClaveDispositivo} (h : k = some (.dispositivo j))
    (T : Table FilaDispositivo.clave) :
      UnaTabla k bd { bd with dispositivo := T }
  | administrador {j : ClaveAdministrador} (h : k = some (.administrador j))
    (T : Table FilaAdministrador.clave) :
      UnaTabla k bd { bd with administrador := T }
  | permiso {T : Table FilaPermiso.clave} (h : (∃ j, k = some (.permiso j)) ∨
    ∀ x ∈ T, x ∈ bd.permisosAdministracion) :
      UnaTabla k bd { bd with permisosAdministracion := T }
  | restriccion (T : Table FilaRestriccion.clave) : UnaTabla k bd { bd with restricciones := T }
  | suceso (T : Table FilaSuceso.clave) : UnaTabla k bd { bd with bitacoraSucesos := T }

theorem unaTabla_of_mira {k : Option Clave} (hf : Mira f) (hs : f bd = some bd') :
    UnaTabla k bd bd' := by
  rw [hf bd bd' hs]
  exact .suceso bd.bitacoraSucesos

theorem unaTabla_baja {k : Option Clave} {e : Eliminacion} (hk : k = some (Eliminado e))
    (hf : f ∈ e.procedimiento) (hs : f bd = some bd') : UnaTabla k bd bd' := by
  cases e with
  | dispositivo ip =>
    simp only [Eliminacion.procedimiento, eliminarDispositivo, List.mem_cons, List.not_mem_nil,
      or_false] at hf
    rcases hf with rfl | rfl | rfl | rfl
    · cases hs
      exact .suceso _
    · obtain ⟨-, rfl⟩ := Option.ite_some_none_eq_some.mp hs
      exact .restriccion _
    · cases hs
      exact .permiso (Or.inr (fun x hx ↦ ((Table.mem_deleteWhere _ _ x).mp hx).1))
    · obtain ⟨-, rfl⟩ := Option.ite_some_none_eq_some.mp hs
      exact .dispositivo hk _
  | administrador l d =>
    rcases List.mem_pair.mp hf with rfl | rfl
    · cases hs
      exact .permiso (Or.inr (fun x hx ↦ ((Table.mem_deleteWhere _ _ x).mp hx).1))
    · obtain ⟨-, rfl⟩ := Option.ite_some_none_eq_some.mp hs
      exact .administrador hk _
  | restriccion ip c v t =>
    rcases List.mem_pair.mp hf with rfl | rfl
    · cases hs
      exact .suceso _
    · obtain ⟨-, rfl⟩ := Option.ite_some_none_eq_some.mp hs
      exact .restriccion _

theorem unaTabla_paso (P : Programa) (hf : f ∈ P.pasos) (hs : f bd = some bd') :
    UnaTabla P.clave bd bd' := by
  cases P with
  | rechazo gs hgs =>
    rcases List.mem_append.mp hf with hf | hf
    · exact unaTabla_of_mira (hgs f hf) hs
    · rw [List.mem_singleton.mp hf] at hs
      cases hs
  | altaDispositivo x =>
    rcases List.mem_pair.mp hf with rfl | rfl
    · exact unaTabla_of_mira mira_guard hs
    · obtain ⟨-, T, -, rfl⟩ := insertDispositivo_cases hs
      exact .dispositivo rfl T
  | altaAdministrador x =>
    rcases List.mem_pair.mp hf with rfl | rfl
    · exact unaTabla_of_mira mira_guard hs
    · obtain ⟨T, -, rfl⟩ := Option.map_eq_some_iff.mp hs
      exact .administrador rfl T
  | altaPermiso x =>
    simp only [Programa.pasos, List.mem_cons, List.not_mem_nil, or_false] at hf
    rcases hf with rfl | rfl | rfl
    · exact unaTabla_of_mira mira_guard hs
    · exact unaTabla_of_mira mira_guard hs
    · obtain ⟨-, -, T, -, rfl⟩ := insertPermisos_cases hs
      exact .permiso (Or.inl ⟨x.clave, rfl⟩)
  | altaRestriccion x =>
    simp only [Programa.pasos, List.mem_cons, List.not_mem_nil, or_false] at hf
    rcases hf with rfl | rfl | rfl
    · exact unaTabla_of_mira mira_guard hs
    · exact unaTabla_of_mira mira_guard hs
    · obtain ⟨-, T, -, rfl⟩ := insertRestricciones_cases hs
      exact .restriccion T
  | altaSuceso x =>
    rcases List.mem_pair.mp hf with rfl | rfl
    · exact unaTabla_of_mira mira_guard hs
    · obtain ⟨-, T, -, rfl⟩ := insertBitacora_cases hs
      exact .suceso T
  | cambioDispositivo k g hg =>
    rcases List.mem_pair.mp hf with rfl | rfl
    · exact unaTabla_of_mira mira_guard hs
    · cases hs
      exact .dispositivo rfl _
  | cambioAdministrador k g =>
    rcases List.mem_pair.mp hf with rfl | rfl
    · exact unaTabla_of_mira mira_guard hs
    · cases hs
      exact .administrador rfl _
  | cambioPermiso k g =>
    rcases List.mem_pair.mp hf with rfl | rfl
    · exact unaTabla_of_mira mira_guard hs
    · cases hs
      exact .permiso (Or.inl ⟨k, rfl⟩)
  | cambioRestriccion k g =>
    rcases List.mem_pair.mp hf with rfl | rfl
    · exact unaTabla_of_mira mira_guard hs
    · cases hs
      exact .restriccion _
  | bajaPermiso k =>
    rcases List.mem_pair.mp hf with rfl | rfl
    · exact unaTabla_of_mira mira_guard hs
    · cases hs
      exact .permiso (Or.inl ⟨k, rfl⟩)
  | bajaSuceso k =>
    rcases List.mem_pair.mp hf with rfl | rfl
    · exact unaTabla_of_mira mira_guard hs
    · cases hs
      exact .suceso _
  | baja e =>
    rcases List.mem_cons.mp hf with rfl | hf
    · exact unaTabla_of_mira mira_guard hs
    · exact unaTabla_baja rfl hf hs

theorem unaTabla_peticion {p : Peticion} (hf : f ∈ p.pasos ahora) (hs : f bd = some bd') :
    UnaTabla (clavePeticion ahora p) bd bd' := by
  rcases peticion_resulta ahora p with ⟨gs, hgs, hp⟩ | ⟨P, hp, -, hk⟩
  · rw [hp, Programa.pasos] at hf
    rcases List.mem_append.mp hf with hf | hf
    · exact unaTabla_of_mira (hgs f hf) hs
    · rw [List.mem_singleton.mp hf] at hs
      cases hs
  · rw [← hk]
    exact unaTabla_paso P (hp ▸ hf) hs

end Tables

section Emails

omit [Engine]

variable {l d : Texto} {email : Valor}

structure EmailRegistrado (l d : Texto) : Prop where
  valido : emailValido l d
  localLibre : '@' ∉ l
  dominioLibre : '@' ∉ d
  limpio : isClean l ∧ isClean d

theorem localDe_append (h : '@' ∉ l) (d : Texto) : localDe (some (l ++ '@' :: d)) = l := by
  have hsplit : explode '@' (strval (some (l ++ '@' :: d))) = l :: explode '@' d :=
    explode_append h d
  rw [localDe, hsplit]
  rfl

theorem dominioDe_append (h : '@' ∉ l) (h' : '@' ∉ d) : dominioDe (some (l ++ '@' :: d)) = d := by
  have hsplit : explode '@' (strval (some (l ++ '@' :: d))) = [l, d] := by
    rw [strval, Option.getD_some, explode_append h, explode_of_notMem h']
  rw [dominioDe, hsplit]
  rfl

theorem notMem_localDe (email : Valor) : '@' ∉ localDe email := by
  rw [localDe]
  cases hsplit : explode '@' (strval email) with
  | nil => exact List.not_mem_nil
  | cons t ts =>
    have hmem : t ∈ explode '@' (strval email) := hsplit ▸ List.mem_cons_self
    exact notMem_of_mem_explode hmem

theorem notMem_dominioDe (email : Valor) : '@' ∉ dominioDe email := by
  rw [dominioDe]
  cases hsplit : (explode '@' (strval email))[1]? with
  | none => exact List.not_mem_nil
  | some t => exact notMem_of_mem_explode (List.mem_of_getElem? hsplit)

theorem email_columnas {l' : Varchar 255} {d' : Varchar 64}
    (h : emailValido (localDe email) (dominioDe email))
    (hl : varcharNotNull 255 (.text (localDe email)) = some l')
    (hd : varcharNotNull 64 (.text (dominioDe email)) = some d') :
    l'.texto = localDe email ∧ d'.texto = dominioDe email := by
  obtain ⟨a, b, hsplit, ⟨t, c, ha, hc⟩, u, e, hb, he⟩ := validEmail_parts h
  obtain ⟨rfl, -, rfl⟩ :=
    (List.append_cons_inj_of_notMem (notMem_localDe email) (notMem_dominioDe email)).mp hsplit
  exact ⟨texto_eq_of_varcharNotNull ha hc hl, texto_eq_of_varcharNotNull hb he hd⟩

end Emails

section Rows

theorem same_of_mira {ρ κ : Type} [DecidableEq ρ] [DecidableEq κ] {key : ρ → κ} {T : BD → Table key}
    (hf : Mira f) (hs : f bd = some bd') {x : ρ} (hx : x ∈ T bd') : x ∈ T bd := by
  rwa [hf bd bd' hs] at hx

theorem mem_administrador {a : Administrador.Argumentos} {oper : Operacion}
    (hf : f ∈ (Administrador.construct ahora a).pasos oper) (hs : f bd = some bd')
    {x : FilaAdministrador}
    (hx : x ∈ bd'.administrador) :
    (∃ y ∈ bd.administrador, y.localEmailContacto = x.localEmailContacto ∧
        y.dominioEmailContacto = x.dominioEmailContacto) ∨
      emailValido (localDe a.email) (dominioDe a.email) ∧
        varcharNotNull 255 (.text (localDe a.email)) = some x.localEmailContacto ∧
        varcharNotNull 64 (.text (dominioDe a.email)) = some x.dominioEmailContacto := by
  have hold (h : x ∈ bd.administrador) :
    ∃ y ∈ bd.administrador, y.localEmailContacto = x.localEmailContacto ∧
      y.dominioEmailContacto = x.dominioEmailContacto := ⟨x, h, rfl, rfl⟩
  have hlook {g : Step BD} (hg : Mira g) (hs : g bd = some bd') : x ∈ bd.administrador :=
    same_of_mira (T := BD.administrador) hg hs hx
  have hrefused (hf : f ∈ rechazada) : False := by
    rw [List.mem_singleton.mp hf] at hs
    cases hs
  by_cases h : (Administrador.construct ahora a).validarCamposAdministrador oper
  · have hvalido := Administrador.validarCamposAdministrador_iff.mp h
    by_cases hpide : ∃ P, PideAdministrador (Administrador.construct ahora a) oper P
    · obtain ⟨P, hP⟩ := hpide
      rw [pasos_administrador h hP] at hf
      cases hP with
      | alta hrow =>
        rcases List.mem_pair.mp hf with rfl | rfl
        · exact Or.inl (hold (hlook mira_guard hs))
        · obtain ⟨T, hT, rfl⟩ := Option.map_eq_some_iff.mp hs
          rcases (Table.mem_insert? hT).mp hx with rfl | hx
          · exact Or.inr ⟨hvalido.email, hrow.localEmailContacto, hrow.dominioEmailContacto⟩
          · exact Or.inl (hold hx)
      | cambio =>
        rcases List.mem_pair.mp hf with rfl | rfl
        · exact Or.inl (hold (hlook mira_guard hs))
        · cases hs
          obtain ⟨y, hy, hxy⟩ := (Table.mem_modify _ _ _ x).mp hx
          refine Or.inl ⟨y, hy, ?_⟩
          rw [← hxy]
          split_ifs <;> exact ⟨rfl, rfl⟩
      | baja =>
        rcases List.mem_cons.mp hf with rfl | hf
        · exact Or.inl (hold (hlook mira_guard hs))
        · rcases List.mem_pair.mp hf with rfl | rfl
          · cases hs
            exact Or.inl (hold hx)
          · obtain ⟨-, rfl⟩ := Option.ite_some_none_eq_some.mp hs
            exact Or.inl (hold ((Table.mem_deleteWhere _ _ x).mp hx).1)
    · obtain ⟨gs, hgs, hpasos⟩ := rechaza_administrador h (fun P hP ↦ hpide ⟨P, hP⟩)
      rw [hpasos] at hf
      rcases List.mem_append.mp hf with hf | hf
      · exact Or.inl (hold (hlook (hgs f hf) hs))
      · exact (hrefused hf).elim
  · have hpasos : (Administrador.construct ahora a).pasos oper = rechazada := if_neg h
    rw [hpasos] at hf
    exact (hrefused hf).elim

theorem mem_permiso {a : PermisosAdministracion.Argumentos} {oper : Operacion}
    (hf : f ∈ (PermisosAdministracion.construct a).pasos oper) (hs : f bd = some bd')
    {x : FilaPermiso}
    (hx : x ∈ bd'.permisosAdministracion) :
    (∃ y ∈ bd.permisosAdministracion, y.localEmailContacto = x.localEmailContacto ∧
        y.dominioEmailContacto = x.dominioEmailContacto ∧ y.direccionIP = x.direccionIP) ∨
      (emailValido (localDe a.email) (dominioDe a.email) ∧
      direccionValida (ipDe a.dirIP) (mskDe a.dirIP)) ∧
        varcharNotNull 255 (.text (localDe a.email)) = some x.localEmailContacto ∧
        varcharNotNull 64 (.text (dominioDe a.email)) = some x.dominioEmailContacto ∧
        varcharNotNull 18 (.text (strval a.dirIP)) = some x.direccionIP := by
  have hold (h : x ∈ bd.permisosAdministracion) : ∃ y ∈ bd.permisosAdministracion,
      y.localEmailContacto = x.localEmailContacto ∧ y.dominioEmailContacto =
        x.dominioEmailContacto ∧ y.direccionIP = x.direccionIP := ⟨x, h, rfl, rfl, rfl⟩
  have hlook {g : Step BD} (hg : Mira g) (hs : g bd = some bd') : x ∈ bd.permisosAdministracion :=
    same_of_mira (T := BD.permisosAdministracion) hg hs hx
  have hrefused (hf : f ∈ rechazada) : False := by
    rw [List.mem_singleton.mp hf] at hs
    cases hs
  by_cases h : (PermisosAdministracion.construct a).validarCamposPermisosAdministracion oper
  · have hvalido := PermisosAdministracion.validarCamposPermisosAdministracion_iff.mp h
    by_cases hpide : ∃ P, PidePermiso (PermisosAdministracion.construct a) oper P
    · obtain ⟨P, hP⟩ := hpide
      rw [pasos_permiso h hP] at hf
      cases hP with
      | alta hrow =>
        rcases List.mem_cons.mp hf with rfl | hf
        · exact Or.inl (hold (hlook mira_guard hs))
        · rcases List.mem_pair.mp hf with rfl | rfl
          · exact Or.inl (hold (hlook mira_guard hs))
          · obtain ⟨-, -, T, hT, rfl⟩ := insertPermisos_cases hs
            rcases (Table.mem_insert? hT).mp hx with rfl | hx
            · exact Or.inr ⟨⟨hvalido.email, hvalido.direccion⟩, hrow.localEmailContacto,
                hrow.dominioEmailContacto, hrow.direccionIP⟩
            · exact Or.inl (hold hx)
      | cambio =>
        rcases List.mem_pair.mp hf with rfl | rfl
        · exact Or.inl (hold (hlook mira_guard hs))
        · cases hs
          obtain ⟨y, hy, hxy⟩ := (Table.mem_modify _ _ _ x).mp hx
          refine Or.inl ⟨y, hy, ?_⟩
          rw [← hxy]
          split_ifs <;> exact ⟨rfl, rfl, rfl⟩
      | baja =>
        rcases List.mem_pair.mp hf with rfl | rfl
        · exact Or.inl (hold (hlook mira_guard hs))
        · cases hs
          exact Or.inl (hold ((Table.mem_deleteWhere _ _ x).mp hx).1)
    · obtain ⟨gs, hgs, hpasos⟩ := rechaza_permiso h (fun P hP ↦ hpide ⟨P, hP⟩)
      rw [hpasos] at hf
      rcases List.mem_append.mp hf with hf | hf
      · exact Or.inl (hold (hlook (hgs f hf) hs))
      · exact (hrefused hf).elim
  · have hpasos : (PermisosAdministracion.construct a).pasos oper = rechazada := if_neg h
    rw [hpasos] at hf
    exact (hrefused hf).elim

end Rows

section Addresses

omit [Engine]

variable {s t b : Texto}

def Blancos (b : Texto) : Prop := ∀ c ∈ b, c = ' '

theorem blancos_of_varcharNotNull {n : ℕ} {v : Varchar n}
    (h : varcharNotNull n (.text s) = some v) :
    ∃ b, Blancos b ∧ s = v.texto ++ b := by
  have hfit := fit_of_varcharNotNull h
  unfold fit at hfit
  split_ifs at hfit with hblank
  cases hfit
  refine ⟨s.drop n, fun c hc ↦ ?_, (List.take_append_drop n s).symm⟩
  exact of_decide_eq_true (List.all_eq_true.mp hblank c hc)

theorem intval_append (hb : Blancos b) (s : Texto) : intval (s ++ b) = intval s := by
  have hspaces : b.dropWhile isSpace = [] :=
    List.dropWhile_eq_nil_iff.mpr (fun c hc ↦ by rw [hb c hc]; rfl)
  have hdigits (t : Texto) : (t ++ b).takeWhile Char.isDigit = t.takeWhile Char.isDigit := by
    have hnone : b.takeWhile Char.isDigit = [] := by
      cases b with
      | nil => rfl
      | cons c b =>
        rw [hb c List.mem_cons_self]
        rfl
    rw [List.takeWhile_append, hnone, List.append_nil]
    split_ifs with hall
    · exact ((List.takeWhile_prefix _).eq_of_length hall).symm
    · rfl
  have hsign (c : Char) (t : Texto) :
      readSign (c :: t ++ b) = ((readSign (c :: t)).1, (readSign (c :: t)).2 ++ b) := by
    rw [List.cons_append]
    unfold readSign
    split <;> simp_all
  simp only [intval, List.dropWhile_append]
  cases hdrop : s.dropWhile isSpace with
  | nil => rw [List.isEmpty_nil, if_pos rfl, hspaces]
  | cons c t => rw [List.isEmpty_cons, if_neg Bool.false_ne_true, hsign, hdigits]

theorem isClean_of_append (hb : Blancos b) (h : isClean (s ++ b)) : isClean s := by
  induction s using isClean.induct with
  | case1 => rfl
  | case2 c s ih =>
    simp only [List.cons_append, isClean, Bool.and_eq_true] at h ⊢
    exact ⟨h.1, ih h.2⟩
  | case3 c s hne ih =>
    by_cases hc : c = '\\'
    · subst hc
      cases s with
      | nil =>
        cases b with
        | nil => exact h
        | cons d b =>
          rw [hb d List.mem_cons_self] at h
          cases h
      | cons d s => exact absurd rfl (hne d s rfl)
    · rw [List.cons_append, isClean.eq_3 c _ (fun _ _ he ↦ absurd he hc)] at h
      rw [isClean.eq_3 c s hne]
      simp only [Bool.and_eq_true] at h ⊢
      exact ⟨h.1, ih h.2⟩

structure DireccionRegistrada (t : Texto) : Prop where
  valida : direccionValida (ipDe (some t)) (mskDe (some t))
  limpia : isClean t

theorem explode_split (h : '/' ∈ s) : ∃ p r, '/' ∉ p ∧ s = p ++ '/' :: r := by
  induction s with
  | nil => cases h
  | cons c s ih =>
    by_cases hc : c = '/'
    · exact ⟨[], s, List.not_mem_nil, by rw [hc]; rfl⟩
    · obtain ⟨p, r, hp, hs⟩ := ih ((List.mem_cons.mp h).resolve_left (Ne.symm hc))
      refine ⟨c :: p, r, ?_, by rw [hs]; rfl⟩
      intro hmem
      exact (List.mem_cons.mp hmem).elim (fun he ↦ hc he.symm) hp

theorem mskDe_of_notMem (h : '/' ∉ s) : mskDe (some s) = 0 := by
  rw [mskDe, strval, Option.getD_some, explode_of_notMem h]
  rfl

theorem direccion_append (hb : Blancos b)
    (h : direccionValida (ipDe (some (t ++ b))) (mskDe (some (t ++ b)))) :
    direccionValida (ipDe (some t)) (mskDe (some t)) := by
  have hslash : '/' ∉ b := by
    intro hmem
    exact absurd (hb '/' hmem) (by decide)
  by_cases ht : '/' ∈ t
  · obtain ⟨p, r, hp, rfl⟩ := explode_split ht
    have hip (r : Texto) : ipDe (some (p ++ '/' :: r)) = p := by
      rw [ipDe, strval, Option.getD_some, explode_append hp]
      rfl
    have hmsk (r : Texto) : mskDe (some (p ++ '/' :: r)) = intval ((explode '/' r).headD []) := by
      rw [mskDe, strval, Option.getD_some, explode_append hp]
      cases explode '/' r <;> rfl
    have hhead : intval ((explode '/' (r ++ b)).headD []) = intval ((explode '/' r).headD []) := by
      by_cases hr : '/' ∈ r
      · obtain ⟨q, r', hq, rfl⟩ := explode_split hr
        rw [List.append_assoc, List.cons_append, explode_append hq, explode_append hq]
        rfl
      · have hrb : '/' ∉ r ++ b := fun hmem ↦ (List.mem_append.mp hmem).elim hr hslash
        rw [explode_of_notMem hr, explode_of_notMem hrb]
        exact intval_append hb r
    rw [List.append_assoc, List.cons_append, hip, hmsk, hhead] at h
    rwa [hip, hmsk]
  · have hzero :=
      mskDe_of_notMem (fun hmem ↦ (List.mem_append.mp hmem).elim ht hslash : '/' ∉ t ++ b)
    simp only [direccionValida, hzero, Bool.and_eq_true] at h
    exact absurd h.2.1.1 (by decide)

theorem emailRegistrado_of_columnas {email : Valor} {l : Varchar 255} {d : Varchar 64}
    (h : emailValido (localDe email) (dominioDe email))
    (hl : varcharNotNull 255 (.text (localDe email)) = some l)
    (hd : varcharNotNull 64 (.text (dominioDe email)) = some d)
    (hlimpio : isClean (localDe email) ∧ isClean (dominioDe email)) :
    EmailRegistrado l.texto d.texto := by
  obtain ⟨hltexto, hdtexto⟩ := email_columnas h hl hd
  rw [hltexto, hdtexto]
  exact ⟨h, notMem_localDe email, notMem_dominioDe email, hlimpio⟩

end Addresses

section Invariant

structure Ordenada (bd : BD) : Prop where
  integra : bd.Integra
  dispositivos : Derivadas bd
  administradores : ∀ r ∈ bd.administrador,
    EmailRegistrado r.localEmailContacto.texto r.dominioEmailContacto.texto
  permisos : ∀ r ∈ bd.permisosAdministracion,
    EmailRegistrado r.localEmailContacto.texto r.dominioEmailContacto.texto ∧
    DireccionRegistrada r.direccionIP.texto

theorem peticion_of_clave {p : Peticion} {k : Clave} (h : clavePeticion ahora p = some k) :
    match k with
    | .dispositivo _ => ∃ a oper, p = .dispositivo a oper
    | .administrador _ => ∃ a oper, p = .administrador a oper
    | .permiso _ => ∃ a oper, p = .permisosAdministracion a oper
    | _ => True := by
  cases p with
  | dispositivo a oper | administrador a oper | permisosAdministracion a oper =>
    cases h
    exact ⟨a, oper, rfl⟩
  | restricciones a oper | bitacoraSucesos a oper =>
    obtain ⟨j, -, rfl⟩ := Option.map_eq_some_iff.mp h
    trivial

theorem derivadas_peticion {p : Peticion} (hf : f ∈ p.pasos ahora) (h : Derivadas bd)
    (hs : f bd = some bd') :
    Derivadas bd' := by
  cases unaTabla_peticion hf hs with
  | dispositivo hk T =>
    obtain ⟨a, oper, rfl⟩ := peticion_of_clave hk
    exact derivadas_paso hf h hs
  | administrador | permiso | restriccion | suceso => exact h

theorem administradores_peticion {p : Peticion} (hp : p.Limpia) (hf : f ∈ p.pasos ahora)
    (h : Ordenada bd) (hs : f bd = some bd') : ∀ r ∈ bd'.administrador,
      EmailRegistrado r.localEmailContacto.texto r.dominioEmailContacto.texto := by
  cases unaTabla_peticion hf hs with
  | administrador hk T =>
    obtain ⟨a, oper, rfl⟩ := peticion_of_clave hk
    intro r hr
    rcases mem_administrador hf hs hr with ⟨y, hy, hl, hd⟩ | ⟨hemail, hl, hd⟩
    · rw [← hl, ← hd]
      exact h.administradores y hy
    · simp only [Peticion.Limpia, Peticion.sueltos, List.forall_mem_cons] at hp
      exact emailRegistrado_of_columnas hemail hl hd ⟨hp.1, hp.2.1⟩
  | dispositivo | permiso | restriccion | suceso => exact h.administradores

theorem permisos_peticion {p : Peticion} (hp : p.Limpia) (hf : f ∈ p.pasos ahora) (h : Ordenada bd)
    (hs : f bd = some bd') : ∀ r ∈ bd'.permisosAdministracion,
      EmailRegistrado r.localEmailContacto.texto r.dominioEmailContacto.texto ∧
        DireccionRegistrada r.direccionIP.texto := by
  cases unaTabla_peticion hf hs with
  | permiso hk =>
    rcases hk with ⟨j, hk⟩ | hT
    · obtain ⟨a, oper, rfl⟩ := peticion_of_clave hk
      intro r hr
      rcases mem_permiso hf hs hr with ⟨y, hy, hl, hd, hi⟩ | ⟨⟨hemail, hdir⟩, hl, hd, hi⟩
      · rw [← hl, ← hd, ← hi]
        exact h.permisos y hy
      · simp only [Peticion.Limpia, Peticion.sueltos, List.forall_mem_cons] at hp
        obtain ⟨hlocal, hdominio, htexto, -⟩ := hp
        obtain ⟨b, hb, hsplit⟩ := blancos_of_varcharNotNull hi
        have hdirIP : a.dirIP = some (r.direccionIP.texto ++ b) := by
          cases hnull : a.dirIP with
          | none =>
            rw [hnull] at hdir
            cases hdir
          | some s =>
            rw [hnull] at hsplit
            exact congrArg some hsplit
        rw [hdirIP] at hdir
        rw [hsplit] at htexto
        exact ⟨emailRegistrado_of_columnas hemail hl hd ⟨hlocal, hdominio⟩,
          direccion_append hb hdir, isClean_of_append hb htexto⟩
    · exact fun r hr ↦ h.permisos r (hT r hr)
  | dispositivo | administrador | restriccion | suceso => exact h.permisos

theorem ordenada_vacia : Ordenada BD.vacia where
  integra := BD.integra_vacia
  dispositivos := derivadas_vacia
  administradores r hr := absurd hr (Table.not_mem_empty r)
  permisos r hr := absurd hr (Table.not_mem_empty r)

/-- Every reachable state is in order. -/
theorem Alcanzable.ordenada (h : Alcanzable bd) : Ordenada bd := by
  refine h.invariant ordenada_vacia ?_
  intro ahora p hp f hf bd bd' h hs
  exact ⟨integra_pasos hf h.integra hs, derivadas_peticion hf h.dispositivos hs,
    administradores_peticion hp hf h hs, permisos_peticion hp hf h hs⟩

end Invariant

end ServiciosRed.Reachability
