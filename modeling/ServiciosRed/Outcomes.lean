import ServiciosRed.Effects
import ServiciosRed.Transmission
import ServiciosRed.Listeners
import ServiciosRed.Termination

namespace ServiciosRed.Outcomes

open Text Php MySQL Schema Calendar Interleaving Statements Fields Server Programs Requests Queries
  Transmission Listeners Termination Effects

section Calls

inductive Escucha
  | dispositivo | administrador | permisosAdministracion | restricciones | bitacoraSucesos
  deriving DecidableEq

/-- A listener is called by a POST, or with the words after its name on a command line. -/
inductive Llamada
  | post (post : Post)
  | palabras (argv : List Texto)

/-- The object that a listener makes. The one of the events does not look at `$_POST`. -/
def Escucha.forma : Escucha → Llamada → Option Peticion
  | dispositivo, .post post => escuchaDispositivoPost post
  | dispositivo, .palabras argv => escuchaDispositivo argv
  | administrador, .post post => escuchaAdministradorPost post
  | administrador, .palabras argv => escuchaAdministrador argv
  | permisosAdministracion, .post post => escuchaPermisosAdministracionPost post
  | permisosAdministracion, .palabras argv => escuchaPermisosAdministracion argv
  | restricciones, .post post => escuchaRestriccionesPost post
  | restricciones, .palabras argv => escuchaRestricciones argv
  | bitacoraSucesos, .post _ => none
  | bitacoraSucesos, .palabras argv => escuchaBitacoraSucesos argv

end Calls

section Engines

variable [Engine]

/-- What a request meets. The files are those at the path of its device. -/
structure Mundo where
  conectada : Bool
  bd : BD
  archivos : Archivos

/-- What a constructor leaves: whether the CALL went through, the flag that it does not
return, and the world. -/
structure Corrida where
  exito : Bool
  bandera : Bool
  mundo : Mundo

section Run

variable (s : Servidor) (ahora : Reloj) (llamadas : ℕ)

/-- The commands after a CALL that went through. `crRRD.py` works on another path. -/
def directorio : Peticion → Archivos → Option (Bool × Archivos)
  | .dispositivo _ .insertar, a => crearDirectorioDispositivo id llamadas a
  | .dispositivo _ .eliminar, a => some (eliminarDirectorioDispositivo a)
  -- the result of the CALL goes to `$banderaDispositivo`, not to the flag
  | .administrador _ _, a => some (false, a)
  | _, a => some (true, a)

def construye (p : Peticion) (m : Mundo) : Option Corrida :=
  if m.conectada then
    match solo (s.pasos ahora p) m.bd with
    | (bd, true) => (directorio llamadas p m.archivos).map fun r ↦ ⟨true, r.1, ⟨true, bd, r.2⟩⟩
    | (bd, false) => some ⟨false, false, ⟨true, bd, m.archivos⟩⟩
  else some ⟨false, false, m⟩

/-- A listener asks whether there is an object, which is there as soon as its constructor was
called. -/
def Escucha.escucha (e : Escucha) (l : Llamada) (m : Mundo) : Option (ℤ × Corrida) :=
  match e.forma l with
  | some p => (construye s ahora llamadas p m).map fun c ↦ (0, c)
  | none => some (-1, ⟨false, false, m⟩)

end Run

section Claim

def Hecho (ahora : Reloj) (p : Peticion) (bd bd' : BD) : Prop :=
  ∃ P, Pide ahora p P ∧ Cambia bd bd' P

def Dispuesto : Peticion → Archivos → Prop
  | .dispositivo _ .insertar, a =>
    ∃ d escribible contenido, a = some d ∧ d.destino = some (.directorio escribible contenido)
  | .dispositivo _ .eliminar, a => ∀ d ∈ a, d.destino = none
  | _, _ => True

structure Realizada (ahora : Reloj) (p : Peticion) (m : Mundo) (c : Corrida) : Prop where
  exito : c.exito
  tablas : Hecho ahora p m.bd c.mundo.bd
  directorio : Dispuesto p c.mundo.archivos

/-- The listener returns, 0 if what it was asked for was carried out and -1 if it was not. -/
def Responde (s : Servidor) (ahora : Reloj) (e : Escucha) (l : Llamada) (m : Mundo) : Prop :=
  ∃ llamadas v c, e.escucha s ahora llamadas l m = some (v, c) ∧
    ((∃ p, e.forma l = some p ∧ Realizada ahora p m c) → v = 0) ∧
    ((¬ ∃ p, e.forma l = some p ∧ Realizada ahora p m c) → v = -1)

def Admite (ahora : Reloj) (p : Peticion) (bd : BD) : Prop := ∃ P, Pide ahora p P ∧ Puede bd P

/-- The texts of the request, whatever the server makes of them, do what it asks for. -/
def Acierta (s : Servidor) (ahora : Reloj) (p : Peticion) (bd : BD) : Prop :=
  (solo (s.pasos ahora p) bd).2 ∧ Hecho ahora p bd (solo (s.pasos ahora p) bd).1

def Disponible : Peticion → Archivos → Prop
  | .dispositivo _ .insertar, a => Creable a
  | .dispositivo _ .eliminar, a => ∀ d ∈ a, ∀ n ∈ d.destino, d.escribible ∧ n.Borrable
  | _, _ => True

structure Logra (s : Servidor) (ahora : Reloj) (p : Peticion) (m : Mundo) : Prop where
  conectada : m.conectada
  aceptada : p.aceptada ahora
  admite : p.Limpia → Admite ahora p m.bd
  acierta : ¬ p.Limpia → Acierta s ahora p m.bd
  disponible : Disponible p m.archivos

end Claim

section Texts

variable {s : Servidor} {ahora : Reloj} {p : Peticion} {bd bd' : BD}

theorem aceptada_of_solo (h : solo (s.pasos ahora p) bd = (bd', true)) : p.aceptada ahora := by
  by_contra hnot
  rw [Servidor.pasos, if_neg hnot] at h
  cases h

theorem acierta_iff (h : p.aceptada ahora) (hp : p.Limpia) :
    Acierta s ahora p bd ↔ Admite ahora p bd := by
  rw [Acierta, pasos_of_limpia hp]
  constructor
  · rintro ⟨hexito, -⟩
    obtain ⟨P, hP, hpuede, -⟩ := (solo_peticion_iff h).mp (Prod.ext rfl hexito)
    exact ⟨P, hP, hpuede⟩
  · rintro ⟨P, hP, hpuede⟩
    obtain ⟨bd', hcambia⟩ := exists_cambia hpuede
    rw [(solo_peticion_iff h).mpr ⟨P, hP, hpuede, hcambia⟩]
    exact ⟨rfl, P, hP, hcambia⟩

theorem acierta_iff_of_aceptada (h : p.aceptada ahora) : Acierta s ahora p bd ↔
    (p.Limpia → Admite ahora p bd) ∧ (¬ p.Limpia → Acierta s ahora p bd) := by
  by_cases hp : p.Limpia
  · rw [acierta_iff h hp]
    simp only [hp, true_imp_iff, not_true_eq_false, false_imp_iff, and_true]
  · simp only [hp, false_imp_iff, not_false_eq_true, true_imp_iff, true_and]

end Texts

section Directories

variable {a : Archivos}

omit [Engine] in
theorem directorio_iff {p : Peticion} :
    (∃ llamadas r, directorio llamadas p a = some r ∧ Dispuesto p r.2) ↔ Disponible p a := by
  cases p with
  | dispositivo b oper =>
    cases oper with
    | insertar => exact crear_directorio_iff
    | eliminar =>
      rw [Disponible, ← eliminar_vacia_iff]
      constructor
      · rintro ⟨llamadas, r, hr, h⟩
        obtain rfl := Option.some.inj hr
        exact h
      · exact fun h ↦ ⟨0, _, rfl, h⟩
    | actualizar | otra => exact iff_of_true ⟨0, _, rfl, trivial⟩ trivial
  | administrador | permisosAdministracion | restricciones | bitacoraSucesos =>
    exact iff_of_true ⟨0, _, rfl, trivial⟩ trivial

end Directories

section Outcome

variable {s : Servidor} {ahora : Reloj} {e : Escucha} {l : Llamada} {m : Mundo} {p : Peticion}

theorem realizada_iff : (∃ llamadas c, construye s ahora llamadas p m = some c ∧
    Realizada ahora p m c) ↔ Logra s ahora p m := by
  constructor
  · rintro ⟨llamadas, c, hc, hr⟩
    unfold construye at hc
    split_ifs at hc with hcon
    · rcases hsolo : solo (s.pasos ahora p) m.bd with ⟨bd, exito⟩
      rw [hsolo] at hc
      cases exito with
      | false =>
        obtain rfl := Option.some.inj hc
        exact absurd hr.exito Bool.false_ne_true
      | true =>
        obtain ⟨r, hdir, rfl⟩ := Option.map_eq_some_iff.mp hc
        have haceptada := aceptada_of_solo hsolo
        have hacierta : Acierta s ahora p m.bd := by
          rw [Acierta, hsolo]
          exact ⟨rfl, hr.tablas⟩
        obtain ⟨hlimpia, hsuelta⟩ := (acierta_iff_of_aceptada haceptada).mp hacierta
        exact ⟨hcon, haceptada, hlimpia, hsuelta,
          directorio_iff.mp ⟨llamadas, r, hdir, hr.directorio⟩⟩
    · obtain rfl := Option.some.inj hc
      exact absurd hr.exito Bool.false_ne_true
  · intro h
    obtain ⟨hexito, hhecho⟩ := (acierta_iff_of_aceptada h.aceptada).mpr ⟨h.admite, h.acierta⟩
    obtain ⟨llamadas, r, hdir, hdispuesto⟩ := directorio_iff.mpr h.disponible
    rcases hsolo : solo (s.pasos ahora p) m.bd with ⟨bd, exito⟩
    rw [hsolo] at hexito hhecho
    obtain rfl : exito = true := hexito
    refine ⟨llamadas, ⟨true, r.1, ⟨true, bd, r.2⟩⟩, ?_, rfl, hhecho, hdispuesto⟩
    rw [construye, if_pos h.conectada, hsolo]
    exact congrArg (Option.map _) hdir

/-- Once there is an object the listener returns 0 or does not return. -/
theorem escucha_of_forma (hp : e.forma l = some p) {llamadas : ℕ} {v : ℤ} {c : Corrida} :
    e.escucha s ahora llamadas l m = some (v, c) ↔ construye s ahora llamadas p m =
      some c ∧ v = 0 := by
  rw [Escucha.escucha, hp, Option.map_eq_some_iff]
  constructor
  · rintro ⟨c', hc', he⟩
    obtain ⟨rfl, rfl⟩ := Prod.mk.inj he
    exact ⟨hc', rfl⟩
  · rintro ⟨hc, rfl⟩
    exact ⟨c, hc, rfl⟩

end Outcome

end Engines

section Ejemplo

def vacio : Mundo := ⟨true, BD.vacia, none⟩

end Ejemplo

end ServiciosRed.Outcomes
