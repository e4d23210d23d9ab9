import ServiciosRed.Programs
import ServiciosRed.Baselines

namespace ServiciosRed.Directories

open Text Php MySQL Relational Schema Calendar Interleaving Procedures Server Binding Deletion
  Fields Requests
  Programs

/-- The two requests for one address: the one that deletes the device and the one that
registers it. -/
inductive Quien
  | borra | crea
  deriving DecidableEq

section Machine

variable {σ : Type}

inductive Pendiente (σ : Type)
  | sql (p : List (Step σ))
  | mkdir
  | rmMkdir
  | rm
  | fin

/-- The database, whether the directory exists, what both requests have to do, and which of
them was the last to end its statements and the last to issue a command. -/
structure Estado (σ : Type) where
  bd : σ
  existe : Bool
  borra : Pendiente σ
  crea : Pendiente σ
  fila : Option Quien
  orden : Option Quien

namespace Estado

def pendiente (e : Estado σ) : Quien → Pendiente σ
  | .borra => e.borra
  | .crea => e.crea

def pon (w : Quien) (p : Pendiente σ) (e : Estado σ) : Estado σ :=
  match w with
  | .borra => { e with borra := p }
  | .crea => { e with crea := p }

/-- The first command: `eliminarDirectorioDispositivo` or `crearDirectorioDispositivo`. -/
def primera : Quien → Pendiente σ
  | .borra => .rm
  | .crea => .mkdir

/-- One statement or one command of a request. An error ends it. When the directory is
there already, it is removed and made again. -/
def avanza (w : Quien) (e : Estado σ) : Estado σ :=
  match e.pendiente w with
  | .sql [] | .fin => e
  | .sql [f] =>
    match f e.bd with
    | none => e.pon w .fin
    | some bd => { e with bd := bd, fila := some w }.pon w (primera w)
  | .sql (f :: g :: p) =>
    match f e.bd with
    | none => e.pon w .fin
    | some bd => { e with bd := bd }.pon w (.sql (g :: p))
  | .mkdir =>
    if e.existe then { e with orden := some w }.pon w .rmMkdir
    else { e with existe := true, orden := some w }.pon w .fin
  | .rmMkdir => { e with existe := false, orden := some w }.pon w .mkdir
  | .rm => { e with existe := false, orden := some w }.pon w .fin

def sigue (turnos : List Quien) (e : Estado σ) : Estado σ := turnos.foldl (fun e w ↦ e.avanza w) e

def inicio (bd : σ) (existe : Bool) (p q : List (Step σ)) : Estado σ :=
  ⟨bd, existe, .sql p, .sql q, none, none⟩

end Estado

variable {P : σ → Prop} {inicial : Prop}

def Resta (P : σ → Prop) (b : Prop) : Pendiente σ → Prop
  | .sql p => Settles P b p
  | _ => True

def Ordena : Pendiente σ → Prop
  | .mkdir | .rmMkdir | .rm => True
  | .sql _ | .fin => False

/-- The row is as the last request left it that ended its statements, and so is the
directory with the last one that issued a command. -/
structure Invariante (P : σ → Prop) (inicial : Prop) (e : Estado σ) : Prop where
  borra : Resta P False e.borra
  crea : Resta P True e.crea
  borra_rm : e.borra ≠ .mkdir ∧ e.borra ≠ .rmMkdir
  crea_mkdir : e.crea ≠ .rm
  fila_inicial : e.fila = none → (P e.bd ↔ inicial)
  fila_borra : e.fila = some .borra → ¬ P e.bd
  fila_crea : e.fila = some .crea → P e.bd
  orden_inicial : e.orden = none → (e.existe ↔ inicial)
  orden_borra : e.orden = some .borra → e.existe = false
  orden_crea : e.orden = some .crea → e.crea = .fin → e.existe = true
  orden_sql : e.orden = some .crea → ∀ p, e.crea ≠ .sql p
  fila_none : e.fila = none → e.orden = none ∧ ¬ Ordena e.borra ∧ ¬ Ordena e.crea
  orden_none : e.orden = none → e.fila = none ∨ Ordena e.borra ∨ Ordena e.crea

namespace Invariante

variable {bd bd' : σ} {existe : Bool} {borra crea : Pendiente σ} {fila orden : Option Quien}
  {p : List (Step σ)}

theorem borra_sigue (h : Invariante P inicial ⟨bd, existe, .sql p, crea, fila, orden⟩)
    (hP : P bd' ↔ P bd) (hresta : Resta P False borra) (hordena : ¬ Ordena borra) :
    Invariante P inicial ⟨bd', existe, borra, crea, fila, orden⟩ := by
  have hmkdir : borra ≠ .mkdir ∧ borra ≠ .rmMkdir := by
    constructor
    · intro hb
      exact hordena (hb ▸ trivial)
    · intro hb
      exact hordena (hb ▸ trivial)
  refine { h with borra := hresta, borra_rm := hmkdir, fila_inicial := ?_, fila_borra := ?_,
                  fila_crea := ?_, fila_none := ?_, orden_none := ?_ }
  · intro hf
    exact hP.trans (h.fila_inicial hf)
  · intro hf hno
    exact h.fila_borra hf (hP.1 hno)
  · intro hf
    exact hP.2 (h.fila_crea hf)
  · intro hf
    obtain ⟨ho, -, hc⟩ := h.fila_none hf
    exact ⟨ho, hordena, hc⟩
  · intro ho
    rcases h.orden_none ho with hf | hb | hc
    · exact Or.inl hf
    · exact absurd hb id
    · exact Or.inr (Or.inr hc)

theorem crea_sigue (h : Invariante P inicial ⟨bd, existe, borra, .sql p, fila, orden⟩)
    (hP : P bd' ↔ P bd) (hresta : Resta P True crea) (hordena : ¬ Ordena crea) :
    Invariante P inicial ⟨bd', existe, borra, crea, fila, orden⟩ := by
  have hrm : crea ≠ .rm := by
    intro hc
    exact hordena (hc ▸ trivial)
  have horden : orden ≠ some .crea := by
    intro ho
    exact h.orden_sql ho p rfl
  refine { h with crea := hresta, crea_mkdir := hrm, fila_inicial := ?_, fila_borra := ?_,
                  fila_crea := ?_, orden_crea := ?_, orden_sql := ?_, fila_none := ?_,
                  orden_none := ?_ }
  · intro hf
    exact hP.trans (h.fila_inicial hf)
  · intro hf hno
    exact h.fila_borra hf (hP.1 hno)
  · intro hf
    exact hP.2 (h.fila_crea hf)
  · intro ho
    exact absurd ho horden
  · intro ho
    exact absurd ho horden
  · intro hf
    obtain ⟨ho, hb, -⟩ := h.fila_none hf
    exact ⟨ho, hb, hordena⟩
  · intro ho
    rcases h.orden_none ho with hf | hb | hc
    · exact Or.inl hf
    · exact Or.inr (Or.inl hb)
    · exact absurd hc id

theorem borra_acaba (h : Invariante P inicial ⟨bd, existe, .sql p, crea, fila, orden⟩)
    (hP : ¬ P bd') :
    Invariante P inicial ⟨bd', existe, .rm, crea, some .borra, orden⟩ where
  borra := trivial
  crea := h.crea
  borra_rm := ⟨nofun, nofun⟩
  crea_mkdir := h.crea_mkdir
  fila_inicial := nofun
  fila_borra := fun _ ↦ hP
  fila_crea := nofun
  orden_inicial := h.orden_inicial
  orden_borra := h.orden_borra
  orden_crea := h.orden_crea
  orden_sql := h.orden_sql
  fila_none := nofun
  orden_none := fun _ ↦ Or.inr (Or.inl trivial)

theorem crea_acaba (h : Invariante P inicial ⟨bd, existe, borra, .sql p, fila, orden⟩)
    (hP : P bd') :
    Invariante P inicial ⟨bd', existe, borra, .mkdir, some .crea, orden⟩ where
  borra := h.borra
  crea := trivial
  borra_rm := h.borra_rm
  crea_mkdir := nofun
  fila_inicial := nofun
  fila_borra := nofun
  fila_crea := fun _ ↦ hP
  orden_inicial := h.orden_inicial
  orden_borra := h.orden_borra
  orden_crea := nofun
  orden_sql := nofun
  fila_none := nofun
  orden_none := fun _ ↦ Or.inr (Or.inr trivial)

theorem fila_ne_none (h : Invariante P inicial ⟨bd, existe, borra, crea, fila, orden⟩)
    (ho : Ordena borra ∨ Ordena crea) : fila ≠ none := by
  intro hf
  obtain ⟨-, hb, hc⟩ := h.fila_none hf
  exact ho.elim hb hc

theorem borra_rm_rf (h : Invariante P inicial ⟨bd, existe, .rm, crea, fila, orden⟩) :
    Invariante P inicial ⟨bd, false, .fin, crea, fila, some .borra⟩ where
  borra := trivial
  crea := h.crea
  borra_rm := ⟨nofun, nofun⟩
  crea_mkdir := h.crea_mkdir
  fila_inicial := h.fila_inicial
  fila_borra := h.fila_borra
  fila_crea := h.fila_crea
  orden_inicial := nofun
  orden_borra := fun _ ↦ rfl
  orden_crea := nofun
  orden_sql := nofun
  fila_none := fun hf ↦ absurd hf (h.fila_ne_none (Or.inl trivial))
  orden_none := nofun

theorem crea_ordena {existe' : Bool} {crea' : Pendiente σ}
    (h : Invariante P inicial ⟨bd, existe, borra, crea, fila, orden⟩) (hordena : Ordena crea)
    (hcrea : crea' = .mkdir ∨ crea' = .rmMkdir ∨ crea' = .fin ∧ existe' = true) :
    Invariante P inicial ⟨bd, existe', borra, crea', fila, some .crea⟩ := by
  have hsql : ∀ p, crea' ≠ .sql p := by
    intro p hp
    rcases hcrea with hc | hc | ⟨hc, -⟩
    · cases hc.symm.trans hp
    · cases hc.symm.trans hp
    · cases hc.symm.trans hp
  have hresta : Resta P True crea' := by
    rcases hcrea with hc | hc | ⟨hc, -⟩
    · exact hc ▸ trivial
    · exact hc ▸ trivial
    · exact hc ▸ trivial
  exact
    { borra := h.borra
      crea := hresta
      borra_rm := h.borra_rm
      crea_mkdir := by
        intro hrm
        rcases hcrea with hc | hc | ⟨hc, -⟩
        · cases hc.symm.trans hrm
        · cases hc.symm.trans hrm
        · cases hc.symm.trans hrm
      fila_inicial := h.fila_inicial
      fila_borra := h.fila_borra
      fila_crea := h.fila_crea
      orden_inicial := nofun
      orden_borra := nofun
      orden_crea := by
        intro _ hfin
        rcases hcrea with hc | hc | ⟨-, hc⟩
        · cases hc.symm.trans hfin
        · cases hc.symm.trans hfin
        · exact hc
      orden_sql := fun _ ↦ hsql
      fila_none := fun hf ↦ absurd hf (h.fila_ne_none (Or.inr hordena))
      orden_none := nofun }

theorem avanza {e : Estado σ} (h : Invariante P inicial e) (w : Quien) :
    Invariante P inicial (e.avanza w) := by
  obtain ⟨bd, existe, borra, crea, fila, orden⟩ := e
  cases w with
  | borra =>
    cases borra with
    | sql p =>
      match p, h with
      | [], h => exact h
      | [f], h =>
        cases hf : f bd with
        | none =>
          simp only [Estado.avanza, Estado.pendiente, hf]
          exact h.borra_sigue Iff.rfl trivial id
        | some bd' =>
          simp only [Estado.avanza, Estado.pendiente, hf]
          exact h.borra_acaba fun hP ↦ (h.borra.single hf).1 hP
      | f :: g :: p, h =>
        cases hf : f bd with
        | none =>
          simp only [Estado.avanza, Estado.pendiente, hf]
          exact h.borra_sigue Iff.rfl trivial id
        | some bd' =>
          simp only [Estado.avanza, Estado.pendiente, hf]
          exact h.borra_sigue (h.borra.tail.1 _ _ hf) h.borra.tail.2 id
    | mkdir => exact absurd rfl h.borra_rm.1
    | rmMkdir => exact absurd rfl h.borra_rm.2
    | rm => exact h.borra_rm_rf
    | fin => exact h
  | crea =>
    cases crea with
    | sql p =>
      match p, h with
      | [], h => exact h
      | [f], h =>
        cases hf : f bd with
        | none =>
          simp only [Estado.avanza, Estado.pendiente, hf]
          exact h.crea_sigue Iff.rfl trivial id
        | some bd' =>
          simp only [Estado.avanza, Estado.pendiente, hf]
          exact h.crea_acaba ((h.crea.single hf).2 trivial)
      | f :: g :: p, h =>
        cases hf : f bd with
        | none =>
          simp only [Estado.avanza, Estado.pendiente, hf]
          exact h.crea_sigue Iff.rfl trivial id
        | some bd' =>
          simp only [Estado.avanza, Estado.pendiente, hf]
          exact h.crea_sigue (h.crea.tail.1 _ _ hf) h.crea.tail.2 id
    | mkdir =>
      cases existe with
      | true => exact h.crea_ordena trivial (Or.inr (Or.inl rfl))
      | false => exact h.crea_ordena trivial (Or.inr (Or.inr ⟨rfl, rfl⟩))
    | rmMkdir => exact h.crea_ordena trivial (Or.inl rfl)
    | rm => exact absurd rfl h.crea_mkdir
    | fin => exact h

theorem sigue {e : Estado σ} (h : Invariante P inicial e) (turnos : List Quien) :
    Invariante P inicial (e.sigue turnos) := by
  induction turnos generalizing e with
  | nil => exact h
  | cons w turnos ih => exact ih (h.avanza w)

theorem inicio {p q : List (Step σ)} (hp : Settles P False p) (hq : Settles P True q)
    (hini : P bd ↔ existe) : Invariante P (existe = true) (.inicio bd existe p q) where
  borra := hp
  crea := hq
  borra_rm := ⟨nofun, nofun⟩
  crea_mkdir := nofun
  fila_inicial := fun _ ↦ hini
  fila_borra := nofun
  fila_crea := nofun
  orden_inicial := fun _ ↦ Iff.rfl
  orden_borra := nofun
  orden_crea := nofun
  orden_sql := nofun
  fila_none := fun _ ↦ ⟨rfl, id, id⟩
  orden_none := fun _ ↦ Or.inl rfl

/-- Row and directory agree in the end exactly when one request was the last at both. -/
theorem agree_iff {e : Estado σ} (h : Invariante P inicial e) (hborra : e.borra = .fin)
    (hcrea : e.crea = .fin) :
    (P e.bd ↔ e.existe = true) ↔ e.fila = e.orden := by
  have hno : ¬ Ordena e.borra ∧ ¬ Ordena e.crea := by
    rw [hborra, hcrea]
    exact ⟨id, id⟩
  cases hf : e.fila with
  | none =>
    have ho := (h.fila_none hf).1
    rw [ho, h.fila_inicial hf, h.orden_inicial ho]
    exact iff_of_true Iff.rfl rfl
  | some w =>
    cases ho : e.orden with
    | none =>
      rcases h.orden_none ho with hn | hn | hn
      · cases hf.symm.trans hn
      · exact absurd hn hno.1
      · exact absurd hn hno.2
    | some v =>
      cases w with
      | borra =>
        have hP := h.fila_borra hf
        cases v with
        | borra => simp [hP, h.orden_borra ho]
        | crea => simp [hP, h.orden_crea ho hcrea]
      | crea =>
        have hP := h.fila_crea hf
        cases v with
        | borra => simp [hP, h.orden_borra ho]
        | crea => simp [hP, h.orden_crea ho hcrea]

end Invariante

end Machine

section Requests

variable [Engine] {k : ClaveDispositivo} {d : Dispositivo}

theorem settles_rechazada {P : BD → Prop} {b : Prop} {gs : List (Step BD)}
    (hgs : ∀ g ∈ gs, Mira g) :
    Settles P b (gs ++ rechazada) :=
  settles_looks hgs (settles_refused fun _ ↦ rfl)

theorem settles_eliminarDispositivo (ip : Varchar 18) :
    Settles (fun bd ↦ bd.dispositivo.Has (sortKey ip.texto)) False (eliminarDispositivo ip) := by
  refine .cons ?_ (.cons ?_ (.cons ?_ (.last ?_)))
  · intro bd bd' h
    cases h
    rfl
  · intro bd bd' h
    unfold deleteRestricciones at h
    split_ifs at h
    cases h
    rfl
  · intro bd bd' h
    cases h
    rfl
  · intro bd bd' h
    unfold deleteDispositivo at h
    split_ifs at h
    cases h
    simp

theorem settles_eliminar (hk : k = sortKey d.direccionIP) :
    Settles (fun bd ↦ bd.dispositivo.Has k) False (d.pasos .eliminar) := by
  rcases dispositivo_resulta (d := d) .eliminar with ⟨gs, hgs, hpasos⟩ | ⟨P, hpasos, hoper, hclave⟩
  · rw [hpasos]
    exact settles_rechazada hgs
  · rw [hpasos]
    cases P with
    | baja e =>
      cases e with
      | dispositivo ip =>
        have hip : sortKey ip.texto = k :=
          (Clave.dispositivo.inj (Option.some.inj hclave)).trans hk.symm
        rw [← hip]
        exact settles_look mira_guard (settles_eliminarDispositivo ip)
      | administrador l m => cases hclave
      | restriccion ip c v t => cases hclave
    | bajaPermiso j => cases hclave
    | bajaSuceso j => cases hclave
    | _ => cases hoper

theorem settles_insertar (hk : k = sortKey d.direccionIP) :
    Settles (fun bd ↦ bd.dispositivo.Has k) True (d.pasos .insertar) := by
  rcases dispositivo_resulta (d := d) .insertar with ⟨gs, hgs, hpasos⟩ | ⟨P, hpasos, hoper, hclave⟩
  · rw [hpasos]
    exact settles_rechazada hgs
  · rw [hpasos]
    cases P with
    | altaDispositivo x =>
      have hx : x.clave = k := (Clave.dispositivo.inj (Option.some.inj hclave)).trans hk.symm
      refine settles_look mira_guard (.last ?_)
      intro bd bd' h
      obtain ⟨-, T, hT, rfl⟩ := insertDispositivo_cases h
      rw [← hx]
      exact iff_of_true (Table.has_of_mem ((Table.mem_insert? hT).2 (Or.inl rfl))) trivial
    | altaAdministrador x => cases hclave
    | altaPermiso x => cases hclave
    | altaRestriccion x => cases hclave
    | altaSuceso x => cases hclave
    | _ => cases hoper

/-- A deletion and a registration of one address leave row and directory in agreement exactly
when the request that was the last to change the row was also the last to give a command. -/
theorem fila_iff_directorio (ahora ahora' : Reloj) (a b : Dispositivo.Argumentos) (bd : BD)
    (existe : Bool) (turnos : List Quien) (e : Estado BD)
    (hdir : (Dispositivo.construct ahora a).direccionIP =
      (Dispositivo.construct ahora' b).direccionIP)
    (hini : bd.dispositivo.Has (sortKey (Dispositivo.construct ahora a).direccionIP) ↔ existe)
    (he : e = (Estado.inicio bd existe ((Dispositivo.construct ahora a).pasos .eliminar)
      ((Dispositivo.construct ahora' b).pasos .insertar)).sigue turnos)
    (hfin : e.borra = .fin ∧ e.crea = .fin) :
    (e.bd.dispositivo.Has (sortKey (Dispositivo.construct ahora a).direccionIP) ↔ e.existe = true) ↔
      e.fila = e.orden := by
  subst he
  have hcreaPasos := settles_insertar (d := Dispositivo.construct ahora' b)
    (k := sortKey (Dispositivo.construct ahora a).direccionIP) (congrArg sortKey hdir)
  have hinicio :=
    Invariante.inicio (settles_eliminar (d := Dispositivo.construct ahora a) rfl) hcreaPasos hini
  exact (hinicio.sigue turnos).agree_iff hfin.1 hfin.2

end Requests

section Host

open Baselines

def bdEquipo : BD := { BD.vacia with dispositivo := .single filaEquipo }

abbrev conEquipo : Estado BD :=
  .inicio bdEquipo true ((Dispositivo.construct reloj equipo).pasos .eliminar)
    ((Dispositivo.construct reloj equipo).pasos .insertar)

def entremedias : List Quien :=
  [.borra, .borra, .borra, .borra, .borra, .crea, .crea, .crea, .crea, .crea, .borra]

def enOrden : List Quien :=
  [.borra, .borra, .borra, .borra, .borra, .borra, .crea, .crea, .crea]

instance : DecidablePred fun p : Pendiente BD ↦ p = .fin := fun p ↦
  match p with
  | .fin => isTrue rfl
  | .sql _ => isFalse nofun
  | .mkdir => isFalse nofun
  | .rmMkdir => isFalse nofun
  | .rm => isFalse nofun

theorem fila_iff_directorio_enOrden :
    ((conEquipo.sigue enOrden).bd.dispositivo.Has
      (sortKey (Dispositivo.construct reloj equipo).direccionIP) ↔
        (conEquipo.sigue enOrden).existe = true) ↔ (conEquipo.sigue enOrden).fila =
          (conEquipo.sigue enOrden).orden :=
  fila_iff_directorio reloj reloj equipo equipo bdEquipo true enOrden _ rfl (by decide +kernel) rfl
    (by decide +kernel)

/-- When the registration comes between the statements and the command of the deletion, the
new row is left without its directory. -/
theorem fila_without_directorio :
    ¬ ∀ (ahora ahora' : Reloj) (a b : Dispositivo.Argumentos) (bd : BD) (existe : Bool)
      (turnos : List Quien) (e : Estado BD),
      (Dispositivo.construct ahora a).direccionIP = (Dispositivo.construct ahora' b).direccionIP →
      (bd.dispositivo.Has (sortKey (Dispositivo.construct ahora a).direccionIP) ↔ existe) →
      e = (Estado.inicio bd existe ((Dispositivo.construct ahora a).pasos .eliminar)
        ((Dispositivo.construct ahora' b).pasos .insertar)).sigue turnos →
      e.borra = .fin ∧ e.crea = .fin →
      (e.bd.dispositivo.Has (sortKey (Dispositivo.construct ahora a).direccionIP) ↔
      e.existe = true) := by
  intro h
  have hagree := h reloj reloj equipo equipo bdEquipo true entremedias (conEquipo.sigue entremedias)
    rfl (by decide) rfl
    (by decide +kernel)
  have hrow : (conEquipo.sigue entremedias).bd.dispositivo.Has
      (sortKey (Dispositivo.construct reloj equipo).direccionIP) := by
    decide +kernel
  have hdir : (conEquipo.sigue entremedias).existe = false := by decide +kernel
  have htrue := hagree.1 hrow
  rw [hdir] at htrue
  cases htrue

end Host

end ServiciosRed.Directories
