import ServiciosRed.Programs

namespace ServiciosRed.Commutation

open MySQL Relational Schema Interleaving Procedures Server Deletion Programs

inductive Borrado
  | sucesos (p : ClaveSuceso → Prop) [DecidablePred p]
  | restricciones (p : ClaveRestriccion → Prop) [DecidablePred p]
  | permisos (p : ClavePermiso → Prop) [DecidablePred p]
  | dispositivos (p : ClaveDispositivo → Prop) [DecidablePred p]
  | administradores (p : ClaveAdministrador → Prop) [DecidablePred p]

namespace Borrado

def Toca : Borrado → Clave → Prop
  | sucesos p, .suceso k => p k
  | restricciones p, .restriccion k => p k
  | permisos p, .permiso k => p k
  | dispositivos p, .dispositivo k => p k
  | administradores p, .administrador k => p k
  | _, _ => False

def Dependiente : Borrado → Prop
  | sucesos _ | restricciones _ | permisos _ => True
  | dispositivos _ | administradores _ => False

end Borrado

/-- The DELETEs of the rows that refer to a record, in the order of the procedures. -/
def dependientes : Clave → List Borrado
  | .dispositivo ip => [.sucesos (fun k ↦ k.1.1 = ip), .restricciones (fun k ↦ k.1 = ip),
      .permisos (fun k ↦ k.2 = ip)]
  | .administrador a => [.permisos (fun k ↦ k.1 = a)]
  | .restriccion r => [.sucesos (fun k ↦ k.1 = r)]
  | .permiso _ | .suceso _ => []

def propio : Clave → Borrado
  | .dispositivo ip => .dispositivos (· = ip)
  | .administrador a => .administradores (· = a)
  | .restriccion r => .restricciones (· = r)
  | .permiso k => .permisos (· = k)
  | .suceso k => .sucesos (· = k)

def borrados (k : Clave) : List Borrado := dependientes k ++ [propio k]

section Keys

variable {b : Borrado} {i j k : Clave}

theorem refiere_trans (h : i.Refiere j) (h' : j.Refiere k) : i.Refiere k := by
  cases j with
  | restriccion r =>
    cases i with
    | suceso s =>
      cases h
      cases k <;> first | exact h' | exact h'.elim
    | dispositivo | administrador | permiso | restriccion => exact h.elim
  | dispositivo | administrador => exact h'.elim
  | permiso | suceso => cases i <;> exact h.elim

theorem not_refiere_self : ¬ k.Refiere k := by cases k <;> exact id

theorem refiere_of_toca (hb : b ∈ dependientes k) (h : b.Toca j) : j.Refiere k := by
  cases k with
  | dispositivo ip =>
    simp only [dependientes, List.mem_cons, List.not_mem_nil, or_false] at hb
    rcases hb with rfl | rfl | rfl <;> cases j <;> first | exact h | exact h.elim
  | administrador a =>
    cases List.mem_singleton.mp hb
    cases j <;> exact h
  | restriccion r =>
    cases List.mem_singleton.mp hb
    cases j <;> exact h
  | permiso | suceso => exact absurd hb List.not_mem_nil

theorem dependiente_of_mem {b : Borrado} (hb : b ∈ dependientes k) : b.Dependiente := by
  cases k with
  | dispositivo ip =>
    simp only [dependientes, List.mem_cons, List.not_mem_nil, or_false] at hb
    rcases hb with rfl | rfl | rfl <;> trivial
  | administrador | restriccion =>
    rw [List.mem_singleton.mp hb]
    trivial
  | permiso | suceso => exact absurd hb List.not_mem_nil

theorem toca_propio : (propio k).Toca j ↔ j = k := by
  cases k <;> cases j <;> simp [propio, Borrado.Toca]

theorem toca_borrados (hb : b ∈ borrados k) (h : b.Toca j) : j = k ∨ j.Refiere k := by
  rcases List.mem_append.mp hb with hb | hb
  · exact Or.inr (refiere_of_toca hb h)
  · rw [List.mem_singleton.mp hb] at h
    exact Or.inl (toca_propio.mp h)

end Keys

variable [Engine]

namespace Borrado

def Libre : Borrado → BD → Prop
  | sucesos _, _ | permisos _, _ => True
  | restricciones p, bd => Unreferenced FilaSuceso.restriccion bd.bitacoraSucesos p
  | dispositivos p, bd => Unreferenced FilaPermiso.dispositivo bd.permisosAdministracion p ∧
      Unreferenced FilaRestriccion.dispositivo bd.restricciones p
  | administradores p, bd => Unreferenced FilaPermiso.administrador bd.permisosAdministracion p

def sin : Borrado → BD → BD
  | sucesos p, bd => { bd with bitacoraSucesos := bd.bitacoraSucesos.deleteWhere p }
  | restricciones p, bd => { bd with restricciones := bd.restricciones.deleteWhere p }
  | permisos p, bd => { bd with permisosAdministracion := bd.permisosAdministracion.deleteWhere p }
  | dispositivos p, bd => { bd with dispositivo := bd.dispositivo.deleteWhere p }
  | administradores p, bd => { bd with administrador := bd.administrador.deleteWhere p }

def paso : Borrado → Step BD
  | sucesos p => deleteBitacora p
  | restricciones p => deleteRestricciones p
  | permisos p => deletePermisos p
  | dispositivos p => deleteDispositivo p
  | administradores p => deleteAdministrador p

variable {b : Borrado} {bd bd' : BD} {k : Clave}

theorem paso_of_libre (h : b.Libre bd) : b.paso bd = some (b.sin bd) := by
  cases b with
  | sucesos | permisos => rfl
  | restricciones | dispositivos | administradores => exact if_pos h

theorem paso_eq_some : b.paso bd = some bd' ↔ b.Libre bd ∧ bd' = b.sin bd := by
  constructor
  · intro h
    have hlibre : b.Libre bd := by
      cases b with
      | sucesos | permisos => trivial
      | restricciones | dispositivos | administradores =>
        by_contra hn
        exact absurd (h.symm.trans (if_neg hn)) (by simp)
    exact ⟨hlibre, Option.some.inj (h.symm.trans (paso_of_libre hlibre))⟩
  · rintro ⟨h, rfl⟩
    exact paso_of_libre h

@[simp]
theorem existe_sin : Existe (b.sin bd) k ↔ Existe bd k ∧ ¬ b.Toca k := by
  cases b <;> cases k <;> simp [Existe, sin, Toca]

def Vacio (b : Borrado) (bd : BD) : Prop := ∀ k, b.Toca k → ¬ Existe bd k

theorem vacio_sin : b.Vacio (b.sin bd) := fun _ ht he ↦ (existe_sin.mp he).2 ht

theorem sin_of_vacio (h : b.Vacio bd) : b.sin bd = bd := by
  cases b with
  | sucesos p =>
    exact BD.ext rfl rfl rfl rfl (Table.deleteWhere_of_forall_not _ p (fun k ↦ h (.suceso k)))
  | restricciones p =>
    exact BD.ext rfl rfl rfl (Table.deleteWhere_of_forall_not _ p (fun k ↦ h (.restriccion k))) rfl
  | permisos p =>
    exact BD.ext rfl rfl (Table.deleteWhere_of_forall_not _ p (fun k ↦ h (.permiso k))) rfl rfl
  | dispositivos p =>
    exact BD.ext (Table.deleteWhere_of_forall_not _ p (fun k ↦ h (.dispositivo k))) rfl rfl rfl rfl
  | administradores p =>
    exact BD.ext rfl (Table.deleteWhere_of_forall_not _ p (fun k ↦ h (.administrador k))) rfl rfl
      rfl

theorem sin_comm (b c : Borrado) (bd : BD) : b.sin (c.sin bd) = c.sin (b.sin bd) := by
  cases b <;> cases c <;> first | rfl | simp only [sin, Table.deleteWhere_comm]

end Borrado

section Borrados

variable {b : Borrado} {i j k : Clave}

theorem pasos_baja (e : Eliminacion) :
    (Programa.baja e).pasos = existe (Eliminado e) ::
      (borrados (Eliminado e)).map Borrado.paso := by
  cases e <;> rfl

/-- Once the DELETEs of `l` have left nothing, those of `bs` are free in their turn. -/
def Encadenados : List Borrado → List Borrado → Prop
  | _, [] => True
  | l, b :: bs => (∀ bd : BD, (∀ c ∈ l, c.Vacio bd) → b.Libre bd) ∧ Encadenados (l ++ [b]) bs

theorem encadenados_borrados (k : Clave) : Encadenados [] (borrados k) := by
  cases k with
  | dispositivo ip =>
    refine ⟨fun _ _ ↦ trivial, fun bd h c hc hp ↦ ?_, fun _ _ ↦ trivial,
      fun bd h ↦ ⟨fun c hc hp ↦ ?_, fun c hc hp ↦ ?_⟩, trivial⟩
    · exact h (.sucesos (fun k ↦ k.1.1 = ip)) (by simp) (.suceso c.clave) hp (Table.has_of_mem hc)
    · exact h (.permisos (fun k ↦ k.2 = ip)) (by simp) (.permiso c.clave) hp (Table.has_of_mem hc)
    · exact h (.restricciones (fun k ↦ k.1 = ip)) (by simp) (.restriccion c.clave) hp
        (Table.has_of_mem hc)
  | administrador a =>
    refine ⟨fun _ _ ↦ trivial, fun bd h c hc hp ↦ ?_, trivial⟩
    exact h (.permisos (fun k ↦ k.1 = a)) (by simp) (.permiso c.clave) hp (Table.has_of_mem hc)
  | restriccion r =>
    refine ⟨fun _ _ ↦ trivial, fun bd h c hc hp ↦ ?_, trivial⟩
    exact h (.sucesos (fun k ↦ k.1 = r)) (by simp) (.suceso c.clave) hp (Table.has_of_mem hc)
  | permiso | suceso => exact ⟨fun _ _ ↦ trivial, trivial⟩

def Mengua (f : Step BD) : Prop := ∀ s s', f s = some s' → ∀ k, Existe s' k → Existe s k

def Crece (f : Step BD) : Prop := ∀ s s', f s = some s' → ∀ k, Existe s k → Existe s' k

theorem mengua_paso : Mengua b.paso := by
  intro s s' hs k hk
  obtain ⟨-, rfl⟩ := Borrado.paso_eq_some.mp hs
  exact (Borrado.existe_sin.mp hk).1

theorem mengua_sin : Mengua (total b.sin) := by
  intro s s' hs k hk
  cases hs
  exact (Borrado.existe_sin.mp hk).1

theorem mengua_of_mira {f : Step BD} (hf : Mira f) : Mengua f := fun s s' hs _ hk ↦ hf s s' hs ▸ hk

theorem crece_of_mira {f : Step BD} (hf : Mira f) : Crece f :=
  fun s s' hs _ hk ↦ (hf s s' hs).symm ▸ hk

theorem tame_borrados {l bs : List Borrado} (h : Encadenados l bs) :
    Tame Mengua (fun bd ↦ ∀ c ∈ l, c.Vacio bd) (bs.map Borrado.paso)
      ((bs.map Borrado.sin).map total) := by
  have hkeep (g : Step BD) (hg : Mengua g) (l : List Borrado) (s s' : BD) (hs : ∀ c ∈ l, c.Vacio s)
      (hgs : g s = some s') : ∀ c ∈ l, c.Vacio s' :=
    fun c hc k ht hk ↦ hs c hc k ht (hg s s' hgs k hk)
  induction bs generalizing l with
  | nil => exact .nil
  | cons b bs ih =>
    refine .cons (fun g hg s s' ↦ hkeep g hg l s s')
      (fun s hs ↦ Borrado.paso_of_libre (h.1 s hs)) ?_ (ih h.2)
    intro s s' hs hb c hc
    rcases List.mem_append.mp hc with hc | hc
    · exact hkeep b.paso mengua_paso l s s' hs hb c hc
    · rw [List.mem_singleton.mp hc, (Borrado.paso_eq_some.mp hb).2]
      exact Borrado.vacio_sin

def sinTodo (k : Clave) : List (BD → BD) := (borrados k).map Borrado.sin

theorem existe_applyAll {bs : List Borrado} {bd : BD} :
    Existe (applyAll (bs.map Borrado.sin) bd) j ↔ Existe bd j ∧ ∀ b ∈ bs, ¬ b.Toca j := by
  induction bs generalizing bd with
  | nil => simp [applyAll]
  | cons b bs ih =>
    rw [List.map_cons, applyAll, List.foldl_cons, List.forall_mem_cons, ← and_assoc,
      ← Borrado.existe_sin]
    exact ih

theorem applyAll_of_vacio {bs : List Borrado} {bd : BD} (h : ∀ b ∈ bs, b.Vacio bd) :
    applyAll (bs.map Borrado.sin) bd = bd := by
  induction bs with
  | nil => rfl
  | cons b bs ih =>
    obtain ⟨hb, hbs⟩ := List.forall_mem_cons.mp h
    rw [List.map_cons, applyAll, List.foldl_cons, Borrado.sin_of_vacio hb]
    exact ih hbs

theorem applyAll_idem {bs : List Borrado} (bd : BD) :
    applyAll (bs.map Borrado.sin) (applyAll (bs.map Borrado.sin) bd) =
      applyAll (bs.map Borrado.sin) bd :=
  applyAll_of_vacio (fun b hb _ ht hk ↦ (existe_applyAll.mp hk).2 b hb ht)

theorem sinTodo_comm : ∀ d ∈ sinTodo j, ∀ e ∈ sinTodo k, ∀ s, d (e s) = e (d s) := by
  intro d hd e he s
  obtain ⟨b, -, rfl⟩ := List.mem_map.mp hd
  obtain ⟨c, -, rfl⟩ := List.mem_map.mp he
  exact Borrado.sin_comm b c s

theorem of_existe_sinTodo : ∀ d ∈ sinTodo j, ∀ s, Existe (d s) k → Existe s k := by
  intro d hd s hk
  obtain ⟨b, -, rfl⟩ := List.mem_map.mp hd
  exact (Borrado.existe_sin.mp hk).1

end Borrados

section Updates

structure Puntual (k : Clave) (M : BD → BD) : Prop where
  idle : ∀ bd, ¬ Existe bd k → M bd = bd
  existe : ∀ bd j, Existe (M bd) j ↔ Existe bd j
  libre : ∀ (b : Borrado) bd, b.Libre bd → b.Libre (M bd)
  sin : ∀ (b : Borrado) bd, b.sin (M bd) = M (b.sin bd)

theorem puntual_dispositivo (k : ClaveDispositivo) (f : Update FilaDispositivo.clave) :
    Puntual (.dispositivo k) (fun bd ↦ { bd with dispositivo := bd.dispositivo.modify k f }) where
  idle bd h := BD.ext (Table.modify_of_not_has _ k f h) rfl rfl rfl rfl
  existe bd j := by cases j <;> simp [Existe]
  libre b bd h := by cases b <;> exact h
  sin b bd := by cases b <;> first | rfl | simp only [Borrado.sin, Table.deleteWhere_modify]

theorem puntual_administrador (k : ClaveAdministrador) (f : Update FilaAdministrador.clave) :
    Puntual (.administrador k)
      (fun bd ↦ { bd with administrador := bd.administrador.modify k f }) where
  idle bd h := BD.ext rfl (Table.modify_of_not_has _ k f h) rfl rfl rfl
  existe bd j := by cases j <;> simp [Existe]
  libre b bd h := by cases b <;> exact h
  sin b bd := by cases b <;> first | rfl | simp only [Borrado.sin, Table.deleteWhere_modify]

theorem puntual_permiso (k : ClavePermiso) (f : Update FilaPermiso.clave) :
    Puntual (.permiso k)
      (fun bd ↦ { bd with permisosAdministracion := bd.permisosAdministracion.modify k f }) where
  idle bd h := BD.ext rfl rfl (Table.modify_of_not_has _ k f h) rfl rfl
  existe bd j := by cases j <;> simp [Existe]
  libre b bd h := by
    cases b with
    | sucesos | restricciones | permisos => exact h
    | dispositivos => exact ⟨h.1.modify k f (fun r ↦ congrArg Prod.snd (f.2 r)), h.2⟩
    | administradores => exact Unreferenced.modify h k f (fun r ↦ congrArg Prod.fst (f.2 r))
  sin b bd := by cases b <;> first | rfl | simp only [Borrado.sin, Table.deleteWhere_modify]

theorem puntual_restriccion (k : ClaveRestriccion) (f : Update FilaRestriccion.clave) :
    Puntual (.restriccion k)
      (fun bd ↦ { bd with restricciones := bd.restricciones.modify k f }) where
  idle bd h := BD.ext rfl rfl rfl (Table.modify_of_not_has _ k f h) rfl
  existe bd j := by cases j <;> simp [Existe]
  libre b bd h := by
    cases b with
    | sucesos | restricciones | permisos | administradores => exact h
    | dispositivos => exact ⟨h.1, h.2.modify k f (fun r ↦ congrArg Prod.fst (f.2 r))⟩
  sin b bd := by cases b <;> first | rfl | simp only [Borrado.sin, Table.deleteWhere_modify]

end Updates

section Commuting

variable {a : Step BD} {b : Borrado} {k : Clave}

theorem commute_paso (hsin : ∀ s, a (b.sin s) = (a s).map b.sin)
    (hlibre : ∀ s s', a s = some s' → b.Libre s → b.Libre s') : Commute a b.paso where
  both s s₁ s₂ ha hb := by
    obtain ⟨hfree, rfl⟩ := Borrado.paso_eq_some.mp hb
    refine ⟨b.sin s₁, Borrado.paso_of_libre (hlibre s s₁ ha hfree), ?_⟩
    rw [hsin, ha]
    rfl
  neither s s₂ ha hb := by
    obtain ⟨-, rfl⟩ := Borrado.paso_eq_some.mp hb
    rw [hsin, ha]
    rfl

abbrev enFila (k : Clave) (M : BD → BD) : Step BD := atomic (fun bd ↦ Existe bd k) M

variable {M : BD → BD}

theorem Puntual.commute (h : Puntual k M) (hk : ¬ b.Toca k) : Commute (enFila k M) b.paso := by
  refine commute_paso (fun s ↦ ?_) (fun s s' hs hb ↦ ?_)
  · by_cases hs : Existe s k
    · rw [enFila, atomic, if_pos (Borrado.existe_sin.mpr ⟨hs, hk⟩), atomic, if_pos hs,
        Option.map_some, h.sin]
    · rw [enFila, atomic, if_neg (fun he ↦ hs (Borrado.existe_sin.mp he).1), atomic, if_neg hs,
        Option.map_none]
  · rw [enFila, atomic] at hs
    split_ifs at hs
    cases hs
    exact h.libre b s hb

theorem kills_of_toca (hk : b.Toca k) : Kills (enFila k M) b.paso := by
  intro s s' hs
  obtain ⟨-, rfl⟩ := Borrado.paso_eq_some.mp hs
  exact if_neg (fun he ↦ (Borrado.existe_sin.mp he).2 hk)

theorem spares_paso : Spares (enFila k M) b.paso := by
  intro s s' hs ha
  rw [enFila, atomic] at ha
  split_ifs at ha with hk
  exact if_neg (fun he ↦ hk (mengua_paso s s' hs k he))

theorem Puntual.crece_enFila (h : Puntual k M) : Crece (enFila k M) := by
  intro s s' hs j hj
  rw [enFila, atomic] at hs
  split_ifs at hs
  cases hs
  exact (h.existe s j).mpr hj

theorem Puntual.crece_total (h : Puntual k M) : Crece (total M) := by
  intro s s' hs j hj
  cases hs
  exact (h.existe s j).mpr hj

end Commuting

section Inserts

/-- `m` inserts a row under `k`, and `gs` are looks that it makes again. -/
structure Inserta (k : Clave) (gs : List (Step BD)) (m : Step BD) : Prop where
  subsumes : Subsumes m gs
  crece : Crece m
  commute : ∀ b : Borrado, b.Dependiente → (∀ j, j = k ∨ k.Refiere j → ¬ b.Toca j) →
    Commute m b.paso

variable {b : Borrado} {s s' : BD} {m : Step BD} {gs : List (Step BD)}

theorem libre_congr (hb : b.Dependiente) (h : b.Libre s)
    (hs : s'.bitacoraSucesos = s.bitacoraSucesos) :
    b.Libre s' := by
  cases b with
  | sucesos | permisos => trivial
  | restricciones =>
    rw [Borrado.Libre, hs]
    exact h
  | dispositivos | administradores => exact hb.elim

theorem subsumes_nil : Subsumes m [] := fun _ hg ↦ absurd hg List.not_mem_nil

theorem subsumes_cons {P : BD → Prop} [DecidablePred P] (h : ∀ s s', m s = some s' → P s)
    (hgs : Subsumes m gs) :
    Subsumes m (guard P :: gs) :=
  List.forall_mem_cons.mpr ⟨⟨mira_guard, fun s s' hs ↦ guard_eq_some.mpr ⟨h s s' hs, rfl⟩⟩, hgs⟩

theorem inserta_dispositivo (x : FilaDispositivo) :
    Inserta (.dispositivo x.clave) [noExiste (.dispositivo x.clave)] (insertDispositivo x) where
  subsumes := by
    refine subsumes_cons (fun s s' h ↦ ?_) subsumes_nil
    obtain ⟨-, T, hT, rfl⟩ := insertDispositivo_cases h
    exact (Table.insert?_eq_some hT).1
  crece s s' h k hk := by
    obtain ⟨-, T, hT, rfl⟩ := insertDispositivo_cases h
    cases k with
    | dispositivo k => exact (Table.has_insert? k hT).mpr (Or.inr hk)
    | administrador | permiso | restriccion | suceso => exact hk
  commute b hb hk := by
    refine commute_paso (fun s ↦ ?_) (fun s s' h hlibre ↦ ?_)
    · cases b with
      | sucesos | restricciones | permisos =>
        simp only [insertDispositivo, Borrado.sin, apply_ite (Option.map _), Option.map_none,
          Option.map_map]
        rfl
      | dispositivos | administradores => exact hb.elim
    · obtain ⟨-, T, hT, rfl⟩ := insertDispositivo_cases h
      exact libre_congr hb hlibre rfl

theorem inserta_administrador (x : FilaAdministrador) :
    Inserta (.administrador x.clave) [noExiste (.administrador x.clave)]
      (insertAdministrador x) where
  subsumes := by
    refine subsumes_cons (fun s s' h ↦ ?_) subsumes_nil
    obtain ⟨T, hT, rfl⟩ := Option.map_eq_some_iff.mp h
    exact (Table.insert?_eq_some hT).1
  crece s s' h k hk := by
    obtain ⟨T, hT, rfl⟩ := Option.map_eq_some_iff.mp h
    cases k with
    | administrador k => exact (Table.has_insert? k hT).mpr (Or.inr hk)
    | dispositivo | permiso | restriccion | suceso => exact hk
  commute b hb hk := by
    refine commute_paso (fun s ↦ ?_) (fun s s' h hlibre ↦ ?_)
    · cases b with
      | sucesos | restricciones | permisos =>
        simp only [insertAdministrador, Borrado.sin, Option.map_map]
        rfl
      | dispositivos | administradores => exact hb.elim
    · obtain ⟨T, hT, rfl⟩ := Option.map_eq_some_iff.mp h
      exact libre_congr hb hlibre rfl

theorem insertPermisos_cases {x : FilaPermiso} (h : insertPermisos x s = some s') :
    s.administrador.Has x.administrador ∧ s.dispositivo.Has x.dispositivo ∧
      ∃ T, s.permisosAdministracion.insert? x = some T ∧
      s' = { s with permisosAdministracion := T } := by
  unfold insertPermisos at h
  split_ifs at h with hx
  obtain ⟨T, hT, rfl⟩ := Option.map_eq_some_iff.mp h
  exact ⟨hx.1, hx.2, T, hT, rfl⟩

theorem inserta_permiso (x : FilaPermiso) :
    Inserta (.permiso x.clave) [existe (.administrador x.administrador),
      existe (.dispositivo x.dispositivo)]
      (insertPermisos x) where
  subsumes := subsumes_cons (fun _ _ h ↦ (insertPermisos_cases h).1)
    (subsumes_cons (fun _ _ h ↦ (insertPermisos_cases h).2.1) subsumes_nil)
  crece s s' h k hk := by
    obtain ⟨-, -, T, hT, rfl⟩ := insertPermisos_cases h
    cases k with
    | permiso k => exact (Table.has_insert? k hT).mpr (Or.inr hk)
    | dispositivo | administrador | restriccion | suceso => exact hk
  commute b hb hk := by
    refine commute_paso (fun s ↦ ?_) (fun s s' h hlibre ↦ ?_)
    · cases b with
      | permisos p =>
        have hp : ¬ p x.clave := hk _ (Or.inl rfl)
        simp only [insertPermisos, Borrado.sin, Table.insert?_deleteWhere _ p hp,
          apply_ite (Option.map _), Option.map_none, Option.map_map]
        rfl
      | sucesos | restricciones =>
        simp only [insertPermisos, Borrado.sin, apply_ite (Option.map _), Option.map_none,
          Option.map_map]
        rfl
      | dispositivos | administradores => exact hb.elim
    · obtain ⟨-, -, T, hT, rfl⟩ := insertPermisos_cases h
      exact libre_congr hb hlibre rfl

theorem insertRestricciones_cases {x : FilaRestriccion} (h : insertRestricciones x s = some s') :
    s.dispositivo.Has x.dispositivo ∧
      ∃ T, s.restricciones.insert? x = some T ∧ s' = { s with restricciones := T } := by
  unfold insertRestricciones at h
  split_ifs at h with hx
  obtain ⟨T, hT, rfl⟩ := Option.map_eq_some_iff.mp h
  exact ⟨hx, T, hT, rfl⟩

theorem inserta_restriccion (x : FilaRestriccion) :
    Inserta (.restriccion x.clave) [noExiste (.restriccion x.clave),
      existe (.dispositivo x.dispositivo)]
      (insertRestricciones x) where
  subsumes := by
    refine subsumes_cons (fun s s' h ↦ ?_)
      (subsumes_cons (fun s s' h ↦ (insertRestricciones_cases h).1) subsumes_nil)
    obtain ⟨-, T, hT, rfl⟩ := insertRestricciones_cases h
    exact (Table.insert?_eq_some hT).1
  crece s s' h k hk := by
    obtain ⟨-, T, hT, rfl⟩ := insertRestricciones_cases h
    cases k with
    | restriccion k => exact (Table.has_insert? k hT).mpr (Or.inr hk)
    | dispositivo | administrador | permiso | suceso => exact hk
  commute b hb hk := by
    refine commute_paso (fun s ↦ ?_) (fun s s' h hlibre ↦ ?_)
    · cases b with
      | restricciones p =>
        have hp : ¬ p x.clave := hk _ (Or.inl rfl)
        simp only [insertRestricciones, Borrado.sin, Table.insert?_deleteWhere _ p hp,
          apply_ite (Option.map _), Option.map_none, Option.map_map]
        rfl
      | sucesos | permisos =>
        simp only [insertRestricciones, Borrado.sin, apply_ite (Option.map _), Option.map_none,
          Option.map_map]
        rfl
      | dispositivos | administradores => exact hb.elim
    · obtain ⟨-, T, hT, rfl⟩ := insertRestricciones_cases h
      exact libre_congr hb hlibre rfl

theorem insertBitacora_cases {x : FilaSuceso} (h : insertBitacora x s = some s') :
    s.restricciones.Has x.restriccion ∧
      ∃ T, s.bitacoraSucesos.insert? x = some T ∧ s' = { s with bitacoraSucesos := T } := by
  unfold insertBitacora at h
  split_ifs at h with hx
  obtain ⟨T, hT, rfl⟩ := Option.map_eq_some_iff.mp h
  exact ⟨hx, T, hT, rfl⟩

theorem inserta_suceso (x : FilaSuceso) :
    Inserta (.suceso x.clave) [existe (.restriccion x.restriccion)] (insertBitacora x) where
  subsumes := subsumes_cons (fun _ _ h ↦ (insertBitacora_cases h).1) subsumes_nil
  crece s s' h k hk := by
    obtain ⟨-, T, hT, rfl⟩ := insertBitacora_cases h
    cases k with
    | suceso k => exact (Table.has_insert? k hT).mpr (Or.inr hk)
    | dispositivo | administrador | permiso | restriccion => exact hk
  commute b hb hk := by
    refine commute_paso (fun s ↦ ?_) (fun s s' h hlibre ↦ ?_)
    · cases b with
      | sucesos p =>
        have hp : ¬ p x.clave := hk _ (Or.inl rfl)
        simp only [insertBitacora, Borrado.sin, Table.insert?_deleteWhere _ p hp,
          apply_ite (Option.map _), Option.map_none, Option.map_map]
        rfl
      | restricciones p =>
        have hp : ¬ p x.restriccion := hk (.restriccion x.restriccion) (Or.inr rfl)
        simp only [insertBitacora, Borrado.sin, Table.has_deleteWhere, hp,
          not_false_eq_true, and_true, apply_ite (Option.map _), Option.map_none, Option.map_map]
        rfl
      | permisos p =>
        simp only [insertBitacora, Borrado.sin, apply_ite (Option.map _), Option.map_none,
          Option.map_map]
        rfl
      | dispositivos | administradores => exact hb.elim
    · obtain ⟨-, T, hT, rfl⟩ := insertBitacora_cases h
      cases b with
      | sucesos | permisos => trivial
      | restricciones p => exact hlibre.insert? hT (hk (.restriccion x.restriccion) (Or.inr rfl))
      | dispositivos | administradores => exact hb.elim

end Inserts

end ServiciosRed.Commutation
