import ServiciosRed.Paths

namespace ServiciosRed.Provisioning

open Text Php MySQL Relational Schema Interleaving Procedures Fields Server Binding Programs
  Requests Execution Hosts

section Commands

abbrev Disco := Finset Texto

/-- `mkdir`, which gives 1 back for a directory that exists. -/
def mkdir (p : Texto) (disco : Disco) : ℕ × Disco :=
  if p ∈ disco then (1, disco) else (0, insert p disco)

def rm_rf (p : Texto) (disco : Disco) : Disco := disco.filter fun q ↦ q ≠ p ∧ ¬ (p ++ ['/']) <+: q

theorem mkdir_rm_rf (p : Texto) (disco : Disco) : (mkdir p (rm_rf p disco)).1 = 0 := by
  simp [mkdir, rm_rf]

def hosts : Texto := "/home/vsalmean/Redes/Hosts".toList

/-- `crea_directorio` makes the directory, if it is not there, and goes into it. -/
def crea_directorio (nombre : Texto) (path : Texto) (disco : Disco) : Texto × Disco :=
  let ruta := path ++ '/' :: nombre
  (ruta, if ruta ∈ disco then disco else insert ruta disco)

/-- `python crRRD.py`: its files are left out. -/
def crRRD (ip : Texto) (disco : Disco) : Disco :=
  let (ruta, disco) := crea_directorio (cambia ip) hosts disco
  (crea_directorio "imagen".toList ruta disco).2

end Commands

section Dispositivo

/-- `$this->ruta . $cadena . "_" . $this->msk` -/
def directorio (d : Dispositivo) : Texto := d.ruta ++ Dispositivo.nombreDirectorio d.ip d.msk

def eliminarDirectorioDispositivo (d : Dispositivo) (disco : Disco) : Disco :=
  rm_rf (directorio d) disco

def crearDirectorioDispositivo (d : Dispositivo) (disco : Disco) : Disco :=
  if (mkdir (directorio d) disco).1 = 1 then
    crearDirectorioDispositivo d (eliminarDirectorioDispositivo d disco)
  else crRRD d.direccionIP (mkdir (directorio d) disco).2
termination_by (mkdir (directorio d) disco).1
decreasing_by
  rename_i h
  rw [h, eliminarDirectorioDispositivo, mkdir_rm_rf]
  exact Nat.one_pos

theorem mem_crRRD {ip p : Texto} {disco : Disco} (h : p ∈ disco) : p ∈ crRRD ip disco := by
  have hcrea {nombre path : Texto} {disco : Disco} (h : p ∈ disco) :
      p ∈ (crea_directorio nombre path disco).2 := by
    simp only [crea_directorio]
    split_ifs
    · exact h
    · exact Finset.mem_insert_of_mem h
  exact hcrea (hcrea h)

theorem directorio_mem (d : Dispositivo) (disco : Disco) :
    directorio d ∈ crearDirectorioDispositivo d disco := by
  induction disco using crearDirectorioDispositivo.induct d with
  | case1 disco h ih =>
    rw [crearDirectorioDispositivo, if_pos h]
    exact ih
  | case2 disco h =>
    rw [crearDirectorioDispositivo, if_neg h]
    apply mem_crRRD
    unfold mkdir at h ⊢
    split_ifs at h ⊢ with hmem
    · exact hmem
    · exact Finset.mem_insert_self _ _

theorem valido_of_insertar {d : Dispositivo} (h : d.validarCamposDispositivo .insertar) :
    d.Valido :=
  Dispositivo.validarCamposDispositivo_iff.mp h

variable [Engine]

structure Anfitrion where
  bd : BD
  disco : Disco

def Anfitrion.vacio : Anfitrion := ⟨BD.vacia, ∅⟩

/-- The constructor of `Dispositivo`: the directories follow the calls that succeed. -/
def atiende (s : Servidor) (e : Anfitrion) (r : Solicitud) : Anfitrion :=
  let d := Dispositivo.construct r.ahora r.argumentos
  let resultado := solo (envia s d r.oper) e.bd
  match r.oper, resultado.2 with
  | .insertar, true => ⟨resultado.1, crearDirectorioDispositivo d e.disco⟩
  | .eliminar, true => ⟨resultado.1, eliminarDirectorioDispositivo d e.disco⟩
  | _, _ => ⟨resultado.1, e.disco⟩

def recorre (s : Servidor) (l : List Solicitud) (e : Anfitrion) : Anfitrion := l.foldl (atiende s) e

def Coincide (e : Anfitrion) : Prop :=
  ∀ p, (p ∈ e.disco ∧ ∃ nombre, '/' ∉ nombre ∧ p = Dispositivo.raiz ++ nombre) ↔
    ∃ x ∈ e.bd.dispositivo, x.ruta.texto = p

def Registra (r : Solicitud) : Prop :=
  r.oper = .insertar ∧ (Dispositivo.construct r.ahora r.argumentos).Valido ∧
    ∃ x, FilaDe (Dispositivo.construct r.ahora r.argumentos) x

variable {s : Servidor} {r : Solicitud}

theorem recorre_singleton (e : Anfitrion) : recorre s [r] e = atiende s e r := rfl

theorem coincide_vacio : Coincide Anfitrion.vacio := fun p ↦
  ⟨fun h ↦ absurd h.1 (Finset.notMem_empty p), fun ⟨x, hx, _⟩ ↦ absurd hx (Table.not_mem_empty x)⟩

theorem solo_rechaza {gs : List (Step BD)} (h : ∀ g ∈ gs, Mira g) (bd : BD) :
    solo (gs ++ rechazada) bd = (bd, false) := by
  induction gs with
  | nil => rfl
  | cons g gs ih =>
    have hrest := ih (fun f hf ↦ h f (List.mem_cons_of_mem g hf))
    cases hg : g bd with
    | none => exact solo_cons_none hg
    | some bd' =>
      rw [List.cons_append, solo_cons_some hg, h g List.mem_cons_self bd bd' hg]
      exact hrest

theorem atiende_of_not_registra (hl : r.Limpia) (h : ¬ Registra r) :
    atiende s Anfitrion.vacio r = Anfitrion.vacio := by
  have hsolo : solo (envia s (Dispositivo.construct r.ahora r.argumentos) r.oper) BD.vacia =
      (BD.vacia, false) := by
    rw [envia_eq_pasos hl]
    have hhace := hace_pasos (Dispositivo.construct r.ahora r.argumentos) r.oper
    have hnone (ip : Texto) : existeDispositivo ip BD.vacia = none :=
      guard_eq_none.mpr (fun ⟨x, hx, _⟩ ↦ absurd hx (Table.not_mem_empty x))
    generalize hoper : r.oper = oper at hhace
    generalize (Dispositivo.construct r.ahora r.argumentos).pasos oper = pasos at hhace ⊢
    cases hhace with
    | rechaza oper hgs => exact solo_rechaza hgs BD.vacia
    | inserta hd hx => exact absurd ⟨hoper, hd, _, hx⟩ h
    | actualiza hd hc => exact solo_cons_none (hnone _)
    | elimina hd hip => exact solo_cons_none (hnone _)
  simp only [atiende, Anfitrion.vacio, hsolo]
  split <;> first | rfl | contradiction

/-- The first device to be registered leaves a directory that is not its path. -/
theorem not_coincide_of_registra (hl : r.Limpia) (h : Registra r) :
    ¬ Coincide (atiende s Anfitrion.vacio r) := by
  obtain ⟨hoper, hd, x, hx⟩ := h
  have hdir : direccionValida (ipDe r.argumentos.dirIP) (mskDe r.argumentos.dirIP) := hd.direccion
  obtain ⟨T, hT⟩ : ∃ T, BD.vacia.dispositivo.insert? x = some T := by
    refine Option.ne_none_iff_exists'.mp (fun hnone ↦ ?_)
    obtain ⟨y, hy, -⟩ := Table.insert?_eq_none.mp hnone
    exact Table.not_mem_empty y hy
  have hinsert : insertDispositivo x BD.vacia = some { BD.vacia with dispositivo := T } := by
    rw [insertDispositivo, if_neg, hT, Option.map_some]
    exact fun ⟨y, hy, _⟩ ↦ Table.not_mem_empty y hy
  have hguard : noExisteDispositivo (Dispositivo.construct r.ahora r.argumentos).direccionIP
    BD.vacia = some BD.vacia :=
    guard_eq_some.mpr ⟨fun ⟨y, hy, _⟩ ↦ Table.not_mem_empty y hy, rfl⟩
  have hlimpia : (Peticion.dispositivo r.argumentos .insertar).Limpia := hoper ▸ hl
  have hsolo : solo (envia s (Dispositivo.construct r.ahora r.argumentos) .insertar) BD.vacia =
      ({ BD.vacia with dispositivo := T }, true) := by
    rw [envia_eq_pasos hlimpia, pasos_insertar hd hx, solo_cons_some hguard, solo_cons_some hinsert]
    rfl
  have hestado : atiende s Anfitrion.vacio r =
      ⟨{ BD.vacia with dispositivo := T },
        crearDirectorioDispositivo (Dispositivo.construct r.ahora r.argumentos) ∅⟩ := by
    simp only [atiende, Anfitrion.vacio, hoper, hsolo]
  rw [hestado]
  intro hcoincide
  have hslash := Paths.notMem_nombreDirectorio hdir
  obtain ⟨y, hy, hruta⟩ := (hcoincide (directorio (Dispositivo.construct r.ahora r.argumentos))).mp
    ⟨directorio_mem _ _, _, fun hmem ↦ (List.mem_append.mp hmem).elim hslash hslash,
      List.append_assoc _ _ _⟩
  rcases (Table.mem_insert? hT).mp hy with rfl | hy
  · have hderivada := (Paths.derivada_of_fila hd hx).ruta
    rw [hderivada] at hruta
    have hnil := List.self_eq_append_right.mp hruta
    exact absurd hnil (List.append_ne_nil_of_right_ne_nil _ (List.cons_ne_nil _ _))
  · exact Table.not_mem_empty y hy

/-- Over runs of clean requests the directories are the paths of the rows after
every request exactly when no insertion registers a device. -/
theorem coincide_run_iff (s : Servidor) (l : List Solicitud) (hl : ∀ r ∈ l, r.Limpia) :
    (∀ l', l' <+: l → Coincide (recorre s l' Anfitrion.vacio)) ↔ ∀ r ∈ l, ¬ Registra r := by
  have hstill {l : List Solicitud} (hl : ∀ r ∈ l, r.Limpia) (h : ∀ r ∈ l, ¬ Registra r) :
      recorre s l Anfitrion.vacio = Anfitrion.vacio := by
    induction l with
    | nil => rfl
    | cons r l ih =>
      obtain ⟨hr, hrest⟩ := List.forall_mem_cons.mp h
      obtain ⟨hlr, hlrest⟩ := List.forall_mem_cons.mp hl
      rw [recorre, List.foldl_cons, atiende_of_not_registra hlr hr]
      exact ih hlrest hrest
  constructor
  · intro hall
    rcases exists_first (P := fun r ↦ ¬ Registra r) (Q := Registra) (l :=
      l) (fun r _ ↦ (em _).symm) with
      h | ⟨l₁, r, l₂, rfl, hl₁, hr⟩
    · exact h
    · have hclean (q : Solicitud) (hq : q ∈ l₁) : q.Limpia := hl q (List.mem_append_left _ hq)
      have hstate : recorre s (l₁ ++ [r]) Anfitrion.vacio = atiende s Anfitrion.vacio r := by
        have hprefix := hstill hclean hl₁
        rw [recorre] at hprefix
        rw [recorre, List.foldl_append, hprefix]
        rfl
      have hcoincide := hall (l₁ ++ [r]) ⟨l₂, by rw [List.append_assoc]; rfl⟩
      rw [hstate] at hcoincide
      exact absurd hcoincide
        (not_coincide_of_registra (hl r (List.mem_append_right _ List.mem_cons_self)) hr)
  · intro h l' hl'
    rw [hstill (fun r hr ↦ hl r (hl'.subset hr)) (fun r hr ↦ h r (hl'.subset hr))]
    exact coincide_vacio

end Dispositivo

theorem filaDe_equipo : FilaDe (Dispositivo.construct Requests.reloj Baselines.equipo)
    Baselines.filaEquipo where
  direccionIP := by decide
  fechaRegistroHost := by decide
  monitorizacionActiva := by decide
  tipoDispositivo := by decide
  versionSNMP := by decide
  comunidadSNMP := by decide
  ruta := by decide
  linea := by decide

theorem argumentos_equipo : (Paths.altaEquipo "public").argumentos = Baselines.equipo := rfl

theorem registra_equipo : Registra (Paths.altaEquipo "public") := by
  rw [Registra, argumentos_equipo]
  exact ⟨rfl, valido_of_insertar Baselines.aceptada_equipo.valida, Baselines.filaEquipo,
    filaDe_equipo⟩

theorem coincide_run_equipo :
    ¬ ∀ l', l' <+: [Paths.altaEquipo "public"] →
      Coincide (recorre literales l' Anfitrion.vacio) := by
  rw [coincide_run_iff literales [Paths.altaEquipo "public"] (by decide)]
  exact fun h ↦ h (Paths.altaEquipo "public") List.mem_cons_self registra_equipo

/-- The registration of one device makes `10_0_0_1_2410_0_0_1_24` as well. -/
theorem not_coincide_equipo :
    ¬ Coincide (recorre literales [Paths.altaEquipo "public"] Anfitrion.vacio) := by
  rw [recorre_singleton]
  exact not_coincide_of_registra (by decide) registra_equipo

end ServiciosRed.Provisioning
