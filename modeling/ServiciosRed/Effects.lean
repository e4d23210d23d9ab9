import ServiciosRed.Programs

namespace ServiciosRed.Effects

open MySQL Relational Schema Calendar Interleaving Procedures Server Deletion Programs Requests

variable [Engine]

def Puede (bd : BD) : Programa → Prop
  | .rechazo _ _ => False
  | .altaDispositivo x => ¬ Existe bd (.dispositivo x.clave) ∧
      ∀ r ∈ bd.dispositivo, sortKey r.ruta.texto ≠ sortKey x.ruta.texto
  | .altaAdministrador x => ¬ Existe bd (.administrador x.clave)
  | .altaPermiso x => ¬ Existe bd (.permiso x.clave) ∧ Existe bd (.administrador x.administrador) ∧
      Existe bd (.dispositivo x.dispositivo)
  | .altaRestriccion x =>
    ¬ Existe bd (.restriccion x.clave) ∧ Existe bd (.dispositivo x.dispositivo)
  | .altaSuceso x => ¬ Existe bd (.suceso x.clave) ∧ Existe bd (.restriccion x.restriccion)
  | .cambioDispositivo k _ _ => Existe bd (.dispositivo k)
  | .cambioAdministrador k _ => Existe bd (.administrador k)
  | .cambioPermiso k _ | .bajaPermiso k => Existe bd (.permiso k)
  | .cambioRestriccion k _ => Existe bd (.restriccion k)
  | .bajaSuceso k => Existe bd (.suceso k)
  | .baja e => Existe bd (Eliminado e)

/-- One row more, the row under a key with new values, or the tables without a record and the rows
that refer to it. -/
def Cambia (bd bd' : BD) : Programa → Prop
  | .rechazo _ _ => False
  | .altaDispositivo x =>
    ∃ T, bd.dispositivo.insert? x = some T ∧ bd' = { bd with dispositivo := T }
  | .altaAdministrador x =>
    ∃ T, bd.administrador.insert? x = some T ∧ bd' = { bd with administrador := T }
  | .altaPermiso x =>
    ∃ T, bd.permisosAdministracion.insert? x = some T ∧
      bd' = { bd with permisosAdministracion := T }
  | .altaRestriccion x =>
    ∃ T, bd.restricciones.insert? x = some T ∧ bd' = { bd with restricciones := T }
  | .altaSuceso x =>
    ∃ T, bd.bitacoraSucesos.insert? x = some T ∧ bd' = { bd with bitacoraSucesos := T }
  | .cambioDispositivo k f _ =>
    bd.dispositivo.Has k ∧ bd' = { bd with dispositivo := bd.dispositivo.modify k f }
  | .cambioAdministrador k f =>
    bd.administrador.Has k ∧ bd' = { bd with administrador := bd.administrador.modify k f }
  | .cambioPermiso k f => bd.permisosAdministracion.Has k ∧
      bd' = { bd with permisosAdministracion := bd.permisosAdministracion.modify k f }
  | .cambioRestriccion k f =>
    bd.restricciones.Has k ∧ bd' = { bd with restricciones := bd.restricciones.modify k f }
  | .bajaPermiso k => bd.permisosAdministracion.Has k ∧
      bd' = { bd with permisosAdministracion := bd.permisosAdministracion.deleteWhere (· = k) }
  | .bajaSuceso k => bd.bitacoraSucesos.Has k ∧
      bd' = { bd with bitacoraSucesos := bd.bitacoraSucesos.deleteWhere (· = k) }
  | .baja e => Existe bd (Eliminado e) ∧ bd' = e.sin bd

section Run

variable {bd bd' : BD}

theorem solo_guard_iff {G : BD → Prop} [DecidablePred G] {p : List (Step BD)} :
    solo (guard G :: p) bd = (bd', true) ↔ G bd ∧ solo p bd = (bd', true) := by
  by_cases h : G bd
  · rw [solo_cons_some (guard_eq_some.mpr ⟨h, rfl⟩)]
    exact (and_iff_right h).symm
  · rw [solo_cons_none (guard_eq_none.mpr h)]
    simp [h]

theorem solo_single_iff {f : Step BD} : solo [f] bd = (bd', true) ↔ f bd = some bd' := by
  cases hf : f bd with
  | none =>
    rw [solo_cons_none hf]
    simp
  | some s =>
    rw [solo_cons_some hf]
    simp [solo]

theorem solo_look {g : Step BD} {p : List (Step BD)} (hg : Mira g)
    (h : solo (g :: p) bd = (bd', true)) :
    solo p bd = (bd', true) := by
  cases hlook : g bd with
  | none =>
    rw [solo_cons_none hlook] at h
    cases h
  | some s =>
    rw [solo_cons_some hlook, hg bd s hlook] at h
    exact h

theorem not_solo_rechazo {gs : List (Step BD)} (hgs : ∀ g ∈ gs, Mira g) :
    solo (gs ++ rechazada) bd ≠ (bd', true) := by
  induction gs with
  | nil => exact fun h ↦ by cases h
  | cons g gs ih =>
    intro h
    exact ih (fun f hf ↦ hgs f (List.mem_cons_of_mem g hf)) (solo_look (hgs g List.mem_cons_self) h)

theorem exists_insert?_iff {ρ κ : Type} [DecidableEq ρ] [DecidableEq κ] {key : ρ → κ}
    {T : Table key} {x : ρ} {g : Table key → BD} :
    (T.insert? x).map g = some bd' ↔ ¬ T.Has (key x) ∧ ∃ U, T.insert? x = some U ∧ bd' = g U := by
  rw [Option.map_eq_some_iff]
  constructor
  · rintro ⟨U, hU, rfl⟩
    exact ⟨(Table.insert?_eq_some hU).1, U, hU, rfl⟩
  · rintro ⟨-, U, hU, rfl⟩
    exact ⟨U, hU, rfl⟩

theorem total_iff {d : BD → BD} : total d bd = some bd' ↔ bd' = d bd :=
  ⟨fun h ↦ (Option.some.inj h).symm, fun h ↦ congrArg some h.symm⟩

/-- Alone, a program goes through exactly when the tables admit it, and then it does what it
says. -/
theorem solo_pasos_iff (P : Programa) :
    solo P.pasos bd = (bd', true) ↔ Puede bd P ∧ Cambia bd bd' P := by
  cases P with
  | rechazo gs hgs => exact iff_of_false (not_solo_rechazo hgs) (fun h ↦ h.1)
  | altaDispositivo x =>
    rw [Programa.pasos, noExiste, solo_guard_iff, solo_single_iff, insertDispositivo,
      Option.ite_none_left_eq_some, exists_insert?_iff]
    constructor
    · rintro ⟨hnew, hruta, -, hU⟩
      exact ⟨⟨hnew, fun r hr he ↦ hruta ⟨r, hr, he⟩⟩, hU⟩
    · rintro ⟨⟨hnew, hruta⟩, hU⟩
      refine ⟨hnew, ?_, hnew, hU⟩
      rintro ⟨r, hr, he⟩
      exact hruta r hr he
  | altaAdministrador x =>
    rw [Programa.pasos, noExiste, solo_guard_iff, solo_single_iff, insertAdministrador,
      exists_insert?_iff]
    exact and_self_left
  | altaPermiso x =>
    rw [Programa.pasos, existe, existe, solo_guard_iff, solo_guard_iff, solo_single_iff,
      insertPermisos, Option.ite_none_right_eq_some, exists_insert?_iff]
    constructor
    · rintro ⟨hadmin, hdevice, -, hnew, hU⟩
      exact ⟨⟨hnew, hadmin, hdevice⟩, hU⟩
    · rintro ⟨⟨hnew, hadmin, hdevice⟩, hU⟩
      exact ⟨hadmin, hdevice, ⟨hadmin, hdevice⟩, hnew, hU⟩
  | altaRestriccion x =>
    rw [Programa.pasos, noExiste, existe, solo_guard_iff, solo_guard_iff, solo_single_iff,
      insertRestricciones, Option.ite_none_right_eq_some, exists_insert?_iff]
    constructor
    · rintro ⟨hnew, hdevice, -, -, hU⟩
      exact ⟨⟨hnew, hdevice⟩, hU⟩
    · rintro ⟨⟨hnew, hdevice⟩, hU⟩
      exact ⟨hnew, hdevice, hdevice, hnew, hU⟩
  | altaSuceso x =>
    rw [Programa.pasos, existe, solo_guard_iff, solo_single_iff, insertBitacora,
      Option.ite_none_right_eq_some, exists_insert?_iff]
    constructor
    · rintro ⟨halert, -, hnew, hU⟩
      exact ⟨⟨hnew, halert⟩, hU⟩
    · rintro ⟨⟨hnew, halert⟩, hU⟩
      exact ⟨halert, halert, hnew, hU⟩
  | cambioDispositivo k f hf =>
    rw [Programa.pasos, existe, solo_guard_iff, solo_single_iff, updateDispositivo, total_iff]
    exact and_self_left.symm
  | cambioAdministrador k f =>
    rw [Programa.pasos, existe, solo_guard_iff, solo_single_iff, updateAdministrador, total_iff]
    exact and_self_left.symm
  | cambioPermiso k f =>
    rw [Programa.pasos, existe, solo_guard_iff, solo_single_iff, updatePermisos, total_iff]
    exact and_self_left.symm
  | cambioRestriccion k f =>
    rw [Programa.pasos, existe, solo_guard_iff, solo_single_iff, updateRestricciones, total_iff]
    exact and_self_left.symm
  | bajaPermiso k =>
    rw [Programa.pasos, existe, solo_guard_iff, solo_single_iff, deletePermisos_accepted,
      Option.some.injEq, eq_comm]
    exact and_self_left.symm
  | bajaSuceso k =>
    rw [Programa.pasos, existe, solo_guard_iff, solo_single_iff, deleteBitacora_accepted,
      Option.some.injEq, eq_comm]
    exact and_self_left.symm
  | baja e =>
    rw [Programa.pasos, existe, solo_guard_iff, solo_procedimiento, Prod.mk.injEq,
      and_iff_left rfl, eq_comm]
    exact and_self_left.symm

theorem exists_cambia {P : Programa} (h : Puede bd P) : ∃ bd', Cambia bd bd' P := by
  cases P with
  | rechazo gs hgs => exact h.elim
  | altaDispositivo x | altaPermiso x | altaRestriccion x | altaSuceso x =>
    obtain ⟨T, hT⟩ := Table.exists_insert? h.1
    exact ⟨_, T, hT, rfl⟩
  | altaAdministrador x =>
    obtain ⟨T, hT⟩ := Table.exists_insert? h
    exact ⟨_, T, hT, rfl⟩
  | cambioDispositivo | cambioAdministrador | cambioPermiso | cambioRestriccion | bajaPermiso
  | bajaSuceso | baja =>
    exact ⟨_, h, rfl⟩

end Run

section Requests

variable {ahora : Reloj} {p : Peticion} {bd bd' : BD}

/-- Alone, an accepted request goes through exactly when the server takes its values and the
tables admit it. -/
theorem solo_peticion_iff (h : p.aceptada ahora) :
    solo (p.pasos ahora) bd = (bd', true) ↔ ∃ P, Pide ahora p P ∧ Puede bd P ∧ Cambia bd bd' P := by
  constructor
  · intro hsolo
    by_cases hnone : ∃ P, Pide ahora p P
    · obtain ⟨P, hP⟩ := hnone
      rw [pasos_of_pide h hP] at hsolo
      exact ⟨P, hP, (solo_pasos_iff P).mp hsolo⟩
    · obtain ⟨gs, hgs, hpasos⟩ := rechaza_of_not_pide h (fun P hP ↦ hnone ⟨P, hP⟩)
      rw [hpasos] at hsolo
      exact absurd hsolo (not_solo_rechazo hgs)
  · rintro ⟨P, hP, hPuede⟩
    rw [pasos_of_pide h hP]
    exact (solo_pasos_iff P).mpr hPuede

end Requests

end ServiciosRed.Effects
