import ServiciosRed.Reachability
import ServiciosRed.Baselines
import ServiciosRed.Listeners

namespace ServiciosRed.Addresses

open Text Php Filters MySQL Relational Schema Calendar Interleaving Fields Server Programs Requests
  Paths Reachability

section Parsing

variable {p s : Texto} {n : ℕ} {ip : Texto} {msk : ℤ}

theorem intval_decimal (n : ℕ) : intval (decimal n) = min longMax n := by
  have h := Python.intval_decimal_append (s := []) rfl n
  rwa [List.append_nil] at h

theorem ipDe_append (h : '/' ∉ p) (r : Texto) : ipDe (some (p ++ '/' :: r)) = p := by
  rw [ipDe, strval, Option.getD_some, explode_append h]
  rfl

theorem mskDe_append (h : '/' ∉ p) (h' : '/' ∉ s) : mskDe (some (p ++ '/' :: s)) = intval s := by
  rw [mskDe, strval, Option.getD_some, explode_append h, explode_of_notMem h']
  rfl

theorem slash_notMem_ipDe (dirIP : Valor) : '/' ∉ ipDe dirIP := by
  rw [ipDe]
  cases hsplit : explode '/' (strval dirIP) with
  | nil => exact List.not_mem_nil
  | cons t ts =>
    have hmem : t ∈ explode '/' (strval dirIP) := hsplit ▸ List.mem_cons_self
    exact notMem_of_mem_explode hmem

theorem msk_le (h : direccionValida ip msk) : msk ≤ 32 := by
  simp only [direccionValida, Bool.and_eq_true, decide_eq_true_eq] at h
  exact h.2.2

theorem intText_of_nonneg (h : 0 ≤ msk) : intText msk = decimal msk.toNat := by
  rw [intText, if_neg (by omega), ← Int.toNat_of_nonneg h, Int.natAbs_natCast, Int.toNat_natCast]

theorem slash_notMem_ip (h : direccionValida ip msk) : '/' ∉ ip := by
  intro hmem
  exact absurd (ip_chars h '/' hmem) (by decide)

theorem direccion_parts (h : direccionValida ip msk) :
    ipDe (some (direccion ip msk)) = ip ∧ mskDe (some (direccion ip msk)) = msk := by
  have hip := slash_notMem_ip h
  have hpos := msk_nonneg h
  have hle := msk_le h
  rw [direccion, intText_of_nonneg hpos]
  refine ⟨ipDe_append hip _, ?_⟩
  rw [mskDe_append hip (notMem_decimal rfl _), intval_decimal, longMax]
  omega

end Parsing

/-- One '/', and after it the mask in plain decimal digits. -/
def Canonica (s : Texto) : Prop := ∃ p n, '/' ∉ p ∧ s = p ++ '/' :: decimal n

/-- An accepted address is kept as it was given exactly when it is written plainly. -/
theorem direccion_eq_iff {s : Texto} (h : direccionValida (ipDe (some s)) (mskDe (some s))) :
    direccion (ipDe (some s)) (mskDe (some s)) = s ↔ Canonica s := by
  constructor
  · intro he
    refine ⟨ipDe (some s), (mskDe (some s)).toNat, slash_notMem_ipDe _, ?_⟩
    rw [← intText_of_nonneg (msk_nonneg h)]
    exact he.symm
  · rintro ⟨p, n, hp, rfl⟩
    have hle := msk_le h
    rw [mskDe_append hp (notMem_decimal rfl n), intval_decimal] at hle
    have hmsk : mskDe (some (p ++ '/' :: decimal n)) = n := by
      rw [mskDe_append hp (notMem_decimal rfl n), intval_decimal]
      simp only [longMax] at hle ⊢
      omega
    rw [ipDe_append hp, hmsk, direccion, intText_of_nonneg (Int.natCast_nonneg n),
      Int.toNat_natCast]

def dirIP : Peticion → Option Valor
  | .dispositivo a _ => some a.dirIP
  | .administrador _ _ => none
  | .permisosAdministracion a _ => some a.dirIP
  | .restricciones a _ => some a.dirIP
  | .bitacoraSucesos a _ => some a.dirIP

def direccionIP (ahora : Reloj) : Peticion → Option Texto
  | .dispositivo a _ => some (Dispositivo.construct ahora a).direccionIP
  | .administrador _ _ => none
  | .permisosAdministracion a _ => some (PermisosAdministracion.construct a).direccionIP
  | .restricciones a _ => some (Restricciones.construct a).direccionIP
  | .bitacoraSucesos a oper => some (BitacoraSucesos.construct ahora oper a).direccionIP

theorem direccionIP_construct {s : Texto} {ahora : Reloj} {d : Dispositivo.Argumentos}
    (hd : d.dirIP = some s) :
    (Dispositivo.construct ahora d).direccionIP = direccion (ipDe (some s)) (mskDe (some s)) := by
  rw [← hd]
  rfl

theorem direccionIP_eq {s : Texto} {ahora : Reloj} {p : Peticion}
    (h : direccion (ipDe (some s)) (mskDe (some s)) = s) (hp : dirIP p = some (some s)) :
    direccionIP ahora p = some s := by
  cases p with
  | dispositivo a oper =>
    have ha : a.dirIP = some s := Option.some.inj hp
    exact congrArg some ((direccionIP_construct ha).trans h)
  | administrador a oper => cases hp
  | permisosAdministracion a oper | restricciones a oper | bitacoraSucesos a oper =>
    have ha : a.dirIP = some s := Option.some.inj hp
    exact congrArg (some ∘ strval) ha

section Engines

variable [Engine]

/-- What the four classes make of one address text is one device. -/
structure Concuerda (s : Texto) : Prop where
  claves : ∀ ahora ahora' p q, dirIP p = some (some s) → dirIP q = some (some s) →
    direccionIP ahora p = direccionIP ahora' q
  hallan : ∀ bd, Alcanzable bd → ∀ ahora d, d.dirIP = some s →
    Existe bd (.dispositivo (sortKey (Dispositivo.construct ahora d).direccionIP)) →
    ∀ ahora' p t, dirIP p = some (some s) → direccionIP ahora' p = some t →
      sortKey t = sortKey (Dispositivo.construct ahora d).direccionIP ∧
      existeDispositivo t bd = some bd
  pertenecen : ∀ ahora d, d.dirIP = some s → ∀ ahora' p k, dirIP p = some (some s) →
    clavePeticion ahora' p = some k →
    k = .dispositivo (sortKey (Dispositivo.construct ahora d).direccionIP) ∨
      k.Refiere (.dispositivo (sortKey (Dispositivo.construct ahora d).direccionIP))

variable {s : Texto}

theorem clave_of_claveRestriccion {ip campo valor tipo : Texto} {k : ClaveRestriccion}
    (h : claveRestriccion ip campo valor tipo = some k) : k.1 = sortKey ip := by
  unfold claveRestriccion at h
  split at h
  · cases h
    rfl
  · cases h

omit [Engine] in
theorem clave_of_claveSuceso {r : Option ClaveRestriccion} {suceso prediccion : Texto}
    {k : ClaveSuceso} (h : claveSuceso r suceso prediccion = some k) : r = some k.1 := by
  unfold claveSuceso at h
  split at h
  · cases h
    rfl
  · cases h

theorem refiere_of_direccionIP {ahora : Reloj} {p : Peticion} {t : Texto} {k : Clave}
    (ht : direccionIP ahora p = some t) (hk : clavePeticion ahora p = some k) :
    k = .dispositivo (sortKey t) ∨ k.Refiere (.dispositivo (sortKey t)) := by
  cases p with
  | dispositivo a oper =>
    cases ht
    exact Or.inl (Option.some.inj hk).symm
  | administrador a oper => cases ht
  | permisosAdministracion a oper =>
    cases ht
    cases hk
    exact Or.inr rfl
  | restricciones a oper =>
    cases ht
    obtain ⟨j, hj, rfl⟩ := Option.map_eq_some_iff.mp hk
    exact Or.inr (clave_of_claveRestriccion hj)
  | bitacoraSucesos a oper =>
    cases ht
    obtain ⟨j, hj, rfl⟩ := Option.map_eq_some_iff.mp hk
    exact Or.inr (clave_of_claveRestriccion (clave_of_claveSuceso hj))

/-- Four classes read an accepted address, and one of them writes it anew: they
agree exactly where that gives the same text. -/
theorem direccion_concuerda_iff (s : Texto) (h : direccionValida (ipDe (some s)) (mskDe (some s))) :
    Concuerda s ↔ Canonica s := by
  rw [← direccion_eq_iff h]
  constructor
  · intro hall
    have hclaves :=
      hall.claves reloj reloj (.dispositivo (Listeners.soloDireccion (some s)) .eliminar)
      (.permisosAdministracion ⟨none, some s, none⟩ .eliminar) rfl rfl
    exact Option.some.inj hclaves
  · intro he
    have hd {ahora : Reloj} {d : Dispositivo.Argumentos} (hd : d.dirIP = some s) :
        (Dispositivo.construct ahora d).direccionIP = s := (direccionIP_construct hd).trans he
    refine ⟨?_, ?_, ?_⟩
    · intro ahora ahora' p q hp hq
      rw [direccionIP_eq he hp, direccionIP_eq he hq]
    · intro bd _ ahora d hdir hhas ahora' p t hp ht
      rw [direccionIP_eq he hp] at ht
      cases ht
      rw [hd hdir] at hhas ⊢
      exact ⟨rfl, guard_eq_some.mpr ⟨hhas, rfl⟩⟩
    · intro ahora d hdir ahora' p k hp hk
      rw [hd hdir]
      exact refiere_of_direccionIP (direccionIP_eq he hp) hk

theorem not_concuerda_of_none {bd : BD} {ahora : Reloj} {d : Dispositivo.Argumentos}
    (hbd : Alcanzable bd) (hd : d.dirIP = some s)
    (h : Existe bd (.dispositivo (sortKey (Dispositivo.construct ahora d).direccionIP)))
    (hnone : existeDispositivo s bd = none) : ¬ Concuerda s := by
  intro hall
  obtain ⟨-, hfound⟩ := hall.hallan bd hbd ahora d hd h ahora
    (.permisosAdministracion ⟨none, some s, none⟩ .eliminar) s rfl rfl
  rw [hnone] at hfound
  cases hfound

end Engines

theorem concuerda_equipo : Concuerda "10.0.0.1/24".toList :=
  (direccion_concuerda_iff "10.0.0.1/24".toList (by decide)).mpr
    ⟨"10.0.0.1".toList, 24, by decide, by decide⟩

def conCero : Dispositivo.Argumentos :=
  { Baselines.equipo with dirIP := some "10.0.0.1/024".toList }

/-- The device is stored under 10.0.0.1/24, and the other classes look for 10.0.0.1/024. -/
theorem not_concuerda_cero :
    direccionValida (ipDe (some "10.0.0.1/024".toList)) (mskDe (some "10.0.0.1/024".toList)) ∧
      (solo ((Peticion.dispositivo conCero .insertar).pasos reloj) BD.vacia).2 = true ∧
    existeDispositivo "10.0.0.1/024".toList (tras reloj (.dispositivo conCero .insertar) BD.vacia) =
      none ∧
    ¬ Concuerda "10.0.0.1/024".toList := by
  have hnone : existeDispositivo "10.0.0.1/024".toList
      (tras reloj (.dispositivo conCero .insertar) BD.vacia) = none := by
    decide +kernel
  have hexiste : Existe (tras reloj (.dispositivo conCero .insertar) BD.vacia)
      (.dispositivo (sortKey (Dispositivo.construct reloj conCero).direccionIP)) := by
    decide +kernel
  have halcanzable : Alcanzable (tras reloj (.dispositivo conCero .insertar) BD.vacia) :=
    Alcanzable.vacia.tras reloj (by decide)
  exact ⟨by decide +kernel, by decide +kernel, hnone,
    not_concuerda_of_none halcanzable rfl hexiste hnone⟩

end ServiciosRed.Addresses
