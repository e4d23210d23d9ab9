import ServiciosRed.Text

namespace ServiciosRed.Termination

/-- A file, or a directory with what it holds. The flag says whether the directory can be
written to. -/
inductive Nodo
  | archivo
  | directorio (escribible : Bool) (contenido : List Nodo)

namespace Nodo

def ocupado : Nodo → Bool
  | archivo | directorio _ [] => false
  | directorio _ (_ :: _) => true

mutual

/-- What there is after everything that can be removed from inside has been removed. -/
def vacia : Nodo → Nodo
  | archivo => archivo
  | directorio true contenido => directorio true (restos contenido)
  | directorio false contenido => directorio false (vacias contenido)

def restos : List Nodo → List Nodo
  | [] => []
  | n :: ns => if (vacia n).ocupado then vacia n :: restos ns else restos ns

def vacias : List Nodo → List Nodo
  | [] => []
  | n :: ns => vacia n :: vacias ns

end

inductive Borrable : Nodo → Prop
  | archivo : Borrable .archivo
  | vacio (escribible : Bool) : Borrable (.directorio escribible [])
  | directorio {contenido : List Nodo} (h : ∀ n ∈ contenido, Borrable n) :
    Borrable (.directorio true contenido)

mutual

theorem vacia_vacia : (n : Nodo) → vacia (vacia n) = vacia n
  | archivo => by rw [vacia, vacia]
  | directorio true contenido => by rw [vacia, vacia, restos_restos contenido]
  | directorio false contenido => by rw [vacia, vacia, vacias_vacias contenido]

theorem restos_restos : (l : List Nodo) → restos (restos l) = restos l
  | [] => by rw [restos, restos]
  | n :: ns => by
    rw [restos]
    split_ifs with h
    · rw [restos, vacia_vacia n, if_pos h, restos_restos ns]
    · exact restos_restos ns

theorem vacias_vacias : (l : List Nodo) → vacias (vacias l) = vacias l
  | [] => by rw [vacias, vacias]
  | n :: ns => by rw [vacias, vacias, vacia_vacia n, vacias_vacias ns]

end

theorem borrable_escribible {contenido : List Nodo} :
    Borrable (.directorio true contenido) ↔ ∀ n ∈ contenido, Borrable n := by
  constructor
  · intro h
    cases h with
    | vacio => exact fun n hn ↦ absurd hn List.not_mem_nil
    | directorio h => exact h
  · exact .directorio

theorem borrable_no_escribible {contenido : List Nodo} :
    Borrable (.directorio false contenido) ↔ contenido = [] := by
  constructor
  · intro h
    cases h
    rfl
  · rintro rfl
    exact .vacio false

theorem ocupado_directorio {escribible : Bool} {contenido : List Nodo} :
    (directorio escribible contenido).ocupado = false ↔ contenido = [] := by
  cases contenido <;> simp [ocupado]

theorem vacias_eq_nil_iff {l : List Nodo} : vacias l = [] ↔ l = [] := by
  cases l <;> simp [vacias]

mutual

theorem ocupado_vacia : (n : Nodo) → ((vacia n).ocupado = false ↔ Borrable n)
  | archivo => by
    rw [vacia]
    exact iff_of_true rfl .archivo
  | directorio true contenido => by
    rw [vacia, ocupado_directorio, borrable_escribible]
    exact restos_eq_nil_iff contenido
  | directorio false contenido => by
    rw [vacia, ocupado_directorio, borrable_no_escribible]
    exact vacias_eq_nil_iff

theorem restos_eq_nil_iff : (l : List Nodo) → (restos l = [] ↔ ∀ n ∈ l, Borrable n)
  | [] => by simp [restos]
  | n :: ns => by
    rw [restos, List.forall_mem_cons, ← ocupado_vacia n, ← restos_eq_nil_iff ns]
    cases (vacia n).ocupado <;> simp

end

/-- What `rm -rf` does not remove at once it never removes. -/
theorem borrable_vacia (n : Nodo) : Borrable (vacia n) ↔ Borrable n := by
  rw [← ocupado_vacia, ← ocupado_vacia, vacia_vacia]

end Nodo

section Commands

structure Padre where
  escribible : Bool
  destino : Option Nodo

abbrev Archivos := Option Padre

/-- `mkdir` of the path, with its exit status. -/
def mkdir : Archivos → ℕ × Archivos
  | none => (1, none)
  | some p =>
    if p.escribible ∧ p.destino.isNone then
      (0, some { p with destino := some (.directorio true []) })
    else (1, some p)

/-- `rm -rf` of the path, with its exit status. What is not there counts as removed. -/
def rmRf : Archivos → ℕ × Archivos
  | none => (0, none)
  | some p =>
    match p.destino with
    | none => (0, some p)
    | some n =>
      if p.escribible ∧ ¬ n.vacia.ocupado then (0, some { p with destino := none })
      else (1, some { p with destino := some n.vacia })

def eliminarDirectorioDispositivo (a : Archivos) : Bool × Archivos :=
  let (valorRetorno, a) := rmRf a
  (valorRetorno = 0, a)

/-- The calls that there is fuel for. `crRRD` is what the script at the end does to the files. -/
def crearDirectorioDispositivo (crRRD : Archivos → Archivos) :
    ℕ → Archivos → Option (Bool × Archivos)
  | 0, _ => none
  | llamadas + 1, a =>
    let (valorRetorno, a) := mkdir a
    if valorRetorno = 1 then
      let (_, a) := eliminarDirectorioDispositivo a
      crearDirectorioDispositivo crRRD llamadas a
    else if valorRetorno = 0 then some (false, crRRD a)
    else some (false, a)

end Commands

def Creable (a : Archivos) : Prop := ∃ p, a = some p ∧ p.escribible ∧ ∀ n ∈ p.destino, n.Borrable

section Calls

variable {crRRD : Archivos → Archivos} {a : Archivos}

theorem not_creable_none : ¬ Creable none := by
  rintro ⟨p, hp, -⟩
  cases hp

theorem creable_some {p : Padre} :
    Creable (some p) ↔ p.escribible ∧ ∀ n ∈ p.destino, n.Borrable := by
  simp [Creable]

theorem not_creable_eliminar (h : ¬ Creable a) : ¬ Creable (eliminarDirectorioDispositivo a).2 := by
  cases a with
  | none => exact not_creable_none
  | some p =>
    obtain ⟨escribible, destino⟩ := p
    cases destino with
    | none => exact h
    | some n =>
      have hrm : ¬ (escribible ∧ ¬ n.vacia.ocupado) := by
        rintro ⟨hescribible, hlibre⟩
        refine h (creable_some.mpr ⟨hescribible, fun m hm ↦ ?_⟩)
        obtain rfl := Option.some.inj hm
        exact (Nodo.ocupado_vacia n).mp (Bool.not_eq_true _ ▸ hlibre)
      have hresto : rmRf (some ⟨escribible, some n⟩) = (1, some ⟨escribible, some n.vacia⟩) :=
        if_neg hrm
      rw [eliminarDirectorioDispositivo, hresto, creable_some]
      rintro ⟨hescribible, hborrable⟩
      refine h (creable_some.mpr ⟨hescribible, fun m hm ↦ ?_⟩)
      obtain rfl := Option.some.inj hm
      exact (Nodo.borrable_vacia n).mp (hborrable n.vacia rfl)

theorem mkdir_of_not_creable (h : ¬ Creable a) : mkdir a = (1, a) := by
  cases a with
  | none => rfl
  | some p =>
    rw [mkdir, if_neg]
    rintro ⟨hescribible, hlibre⟩
    refine h (creable_some.mpr ⟨hescribible, fun n hn ↦ ?_⟩)
    rw [Option.isNone_iff_eq_none.mp hlibre] at hn
    cases hn

theorem crear_of_fallo {b : Archivos} (h : mkdir a = (1, b)) (llamadas : ℕ) :
    crearDirectorioDispositivo crRRD (llamadas + 1) a =
      crearDirectorioDispositivo crRRD llamadas (eliminarDirectorioDispositivo b).2 := by
  rw [crearDirectorioDispositivo, h]
  rfl

/-- Every call that cannot make the directory ends in another one. -/
theorem crear_eq_none (h : ¬ Creable a) (llamadas : ℕ) :
    crearDirectorioDispositivo crRRD llamadas a = none := by
  induction llamadas generalizing a with
  | zero => rfl
  | succ llamadas ih =>
    rw [crear_of_fallo (mkdir_of_not_creable h)]
    exact ih (not_creable_eliminar h)

theorem crear_two_eq (h : Creable a) :
    crearDirectorioDispositivo crRRD 2 a =
      some (false, crRRD (some ⟨true, some (.directorio true [])⟩)) := by
  obtain ⟨⟨escribible, destino⟩, rfl, hescribible, hborrable⟩ := h
  obtain rfl : escribible = true := hescribible
  cases destino with
  | none => rfl
  | some n =>
    have hlibre : n.vacia.ocupado = false := (Nodo.ocupado_vacia n).mpr (hborrable n rfl)
    have hrm : eliminarDirectorioDispositivo (some ⟨true, some n⟩) = (true, some ⟨true, none⟩) := by
      simp [eliminarDirectorioDispositivo, rmRf, hlibre]
    have hmkdir : mkdir (some ⟨true, some n⟩) = (1, some ⟨true, some n⟩) := rfl
    rw [crear_of_fallo hmkdir, hrm]
    rfl

theorem crear_two (h : Creable a) : (crearDirectorioDispositivo crRRD 2 a).isSome := by
  rw [crear_two_eq h]
  rfl

/-- The recursion ends exactly when the parent is there and can be written to, and what stands at
the path can be removed. -/
theorem crear_termina_iff (crRRD : Archivos → Archivos) (a : Archivos) :
    (∃ llamadas, (crearDirectorioDispositivo crRRD llamadas a).isSome) ↔ Creable a := by
  constructor
  · rintro ⟨llamadas, h⟩
    by_contra hnot
    rw [crear_eq_none hnot] at h
    cases h
  · intro h
    exact ⟨2, crear_two h⟩

/-- `rm -rf` leaves nothing behind exactly when the parent can be written to and what is there
can be removed. -/
theorem eliminar_vacia_iff : (∀ d ∈ (eliminarDirectorioDispositivo a).2, d.destino = none) ↔
    ∀ d ∈ a, ∀ n ∈ d.destino, d.escribible ∧ n.Borrable := by
  cases a with
  | none => simp [eliminarDirectorioDispositivo, rmRf]
  | some d =>
    obtain ⟨escribible, destino⟩ := d
    cases destino with
    | none => simp [eliminarDirectorioDispositivo, rmRf]
    | some n =>
      have hlibre : ¬ n.vacia.ocupado ↔ n.Borrable := by
        rw [← Nodo.ocupado_vacia, Bool.not_eq_true]
      by_cases h : escribible ∧ ¬ n.vacia.ocupado
      · have hrm : eliminarDirectorioDispositivo (some ⟨escribible, some n⟩) =
            (true, some ⟨escribible, none⟩) := by
          simp only [eliminarDirectorioDispositivo, rmRf, if_pos h, decide_true]
        rw [hrm]
        simpa using ⟨h.1, hlibre.mp h.2⟩
      · have hrm : eliminarDirectorioDispositivo (some ⟨escribible, some n⟩) =
            (false, some ⟨escribible, some n.vacia⟩) := by
          simp only [eliminarDirectorioDispositivo, rmRf, if_neg h]
          rfl
        rw [hrm]
        rw [hlibre] at h
        simpa using h

theorem crear_directorio_iff : (∃ llamadas r, crearDirectorioDispositivo id llamadas a = some r ∧
    ∃ d escribible contenido, r.2 = some d ∧ d.destino = some (.directorio escribible contenido)) ↔
    Creable a := by
  constructor
  · rintro ⟨llamadas, r, hr, -⟩
    rw [← crear_termina_iff id a]
    exact ⟨llamadas, Option.isSome_of_eq_some hr⟩
  · intro h
    exact ⟨2, _, crear_two_eq h, _, true, [], rfl, rfl⟩

/-- Without the parent directory the recursion does not end. -/
theorem not_crear_termina : ¬ ∀ (crRRD : Archivos → Archivos) (a : Archivos),
    ∃ llamadas, (crearDirectorioDispositivo crRRD llamadas a).isSome := by
  intro h
  obtain ⟨llamadas, hsome⟩ := h id none
  rw [crear_eq_none not_creable_none] at hsome
  cases hsome

end Calls

end ServiciosRed.Termination
