import Mathlib.Data.Fintype.EquivFin
import ServiciosRed.Commands

namespace ServiciosRed.Redirections

open Text Php Python MySQL Schema Calendar Fields Programs Requests Paths Reachability
  Monitorizacion Shell Commands

section Shell

abbrev Archivos := Texto → Option (List Texto)

/-- The redirections open their files one after the other, each empty, and the
output goes to the last of them. -/
def vuelca : List Texto → List Texto → Archivos → Archivos
  | [], _, a => a
  | [archivo], salida, a => Function.update a archivo (some salida)
  | archivo :: otro :: archivos, salida, a =>
    vuelca (otro :: archivos) salida (Function.update a archivo (some []))

/-- Whatever stands around it, the line is one simple command with these redirections. -/
def Redirige (linea : Texto) (archivos : List Texto) : Prop :=
  ∀ e, ∃ words, simple e linea = some ⟨words, archivos⟩

/-- What a shell makes of the files when the command of a line gives a result. -/
structure Interprete where
  corre : Texto → Resultado → Archivos → Archivos
  redirige : ∀ linea archivos, Redirige linea archivos → ∀ r a, corre linea r a =
    vuelca archivos r.salida a

variable {outs : List Texto} {salida : List Texto} {a b : Archivos} {f : Texto}

theorem vuelca_of_notMem (h : f ∉ outs) : vuelca outs salida a f = a f := by
  induction outs generalizing a with
  | nil => rfl
  | cons g outs ih =>
    obtain ⟨hg, houts⟩ := not_or.mp (List.mem_cons.not.mp h)
    cases outs with
    | nil => exact Function.update_of_ne hg _ _
    | cons g' outs =>
      rw [vuelca, ih houts]
      exact Function.update_of_ne hg _ _

theorem vuelca_congr (h : f ∈ outs ∨ a f = b f) :
    vuelca outs salida a f = vuelca outs salida b f := by
  induction outs generalizing a b with
  | nil => exact h.resolve_left List.not_mem_nil
  | cons g outs ih =>
    have hstep (t : List Texto) :
        f ∈ outs ∨ Function.update a g (some t) f = Function.update b g (some t) f := by
      by_cases hfg : f = g
      · right
        rw [hfg, Function.update_self, Function.update_self]
      · rw [Function.update_of_ne hfg, Function.update_of_ne hfg]
        exact h.imp_left (fun hf ↦ (List.mem_cons.mp hf).resolve_left hfg)
    cases outs with
    | nil => exact (hstep salida).resolve_left List.not_mem_nil
    | cons g' outs => exact ih (hstep [])

theorem Redirige.unique {linea : Texto} {outs' : List Texto} (h : Redirige linea outs)
    (h' : Redirige linea outs') :
    outs = outs' := by
  obtain ⟨words, hwords⟩ := h (fun _ ↦ [])
  obtain ⟨words', hwords'⟩ := h' (fun _ ↦ [])
  rw [hwords, Option.some.injEq, Simple.mk.injEq] at hwords'
  exact hwords'.2

end Shell

section Turns

variable (sh : Interprete)

/-- `snmpwalk -v .. -c .. ip oid > archivo` -/
def linea (oid : String) (archivo : Texto) (d : Monitorizacion.Dispositivo) : Texto :=
  "snmpwalk -v ".toList ++
    (version d ++ (" -c ".toList ++ (d.comunidadSNMP ++ ' ' ::
      (Monitorizacion.ipDe d ++ ' ' :: (oid.toList ++ (" > ".toList ++ archivo))))))

def snmpwalk (oid : String) (archivo : Texto) (r : Resultado) (d : Monitorizacion.Dispositivo)
    (e : Entorno) :
    Entorno :=
  { e with archivos := sh.corre (linea oid archivo d) r e.archivos }.manda
    (.snmpwalk (version d) d.comunidadSNMP (Monitorizacion.ipDe d) oid.toList archivo)

def obtenerSNMP (s : Sondeo) (d : Monitorizacion.Dispositivo) (e : Entorno) :
    Monitorizacion.Dispositivo × Entorno :=
  let ip := Monitorizacion.ipDe d
  let e := snmpwalk sh "1.3.6.1.4.1.2021" (snmp_health ip) s.health d e
  let e := snmpwalk sh "1.3.6.1.4.1.2620" (snmp_sensors ip) s.sensors d e
  let t := if s.health.estado = 0 then salud (snmp_health ip) d e else (d, e)
  if s.sensors.estado = 0 then sensores (snmp_sensors ip) t.1 t.2 else t

def turno (s : Sondeo) (d : Monitorizacion.Dispositivo) (e : Entorno) : Entorno :=
  let t := obtenerPing s.ping d e
  let t := obtenerSNMP sh s t.1 t.2
  prediccionRRD t.1 (actualizarRRD t.1 t.2)

def turnos (o : ℕ → Sondeo) : ℕ → List Monitorizacion.Dispositivo → Entorno → Entorno
  | _, [], e => e
  | i, d :: ds, e => turnos o (i + 1) ds (turno sh (o i) d e)

def construct (xs : List FilaDispositivo) (o : ℕ → Sondeo) (archivos : Archivos) : Entorno :=
  turnos sh o 0 (xs.map fun x ↦ (fila x).dispositivo) ⟨archivos, [], 0⟩

end Turns

section Reading

variable {sh : Interprete} {s : Sondeo} {d : Monitorizacion.Dispositivo} {e : Entorno}
  {a b : Archivos}

def linea2021 (d : Monitorizacion.Dispositivo) : Texto :=
  linea "1.3.6.1.4.1.2021" (snmp_health (Monitorizacion.ipDe d)) d

def linea2620 (d : Monitorizacion.Dispositivo) : Texto :=
  linea "1.3.6.1.4.1.2620" (snmp_sensors (Monitorizacion.ipDe d)) d

def dejados (sh : Interprete) (s : Sondeo) (d : Monitorizacion.Dispositivo) (a : Archivos) :
    Archivos :=
  sh.corre (linea2620 d) s.sensors (sh.corre (linea2021 d) s.health a)

/-- The outcomes of the probes, with what the files give for the answers. -/
def leido (sh : Interprete) (s : Sondeo) (d : Monitorizacion.Dispositivo) (a : Archivos) : Sondeo :=
  ⟨s.ping, ⟨s.health.estado, (dejados sh s d a (snmp_health (Monitorizacion.ipDe d))).getD []⟩,
    ⟨s.sensors.estado, (dejados sh s d a (snmp_sensors (Monitorizacion.ipDe d))).getD []⟩⟩

theorem upRRDs_snmpwalk (oid : String) (archivo : Texto) (r : Resultado) :
    upRRDs (snmpwalk sh oid archivo r d e) = upRRDs e := by
  rw [snmpwalk, upRRDs_manda]
  exact List.append_nil _

theorem obtenerSNMP_leido (sh : Interprete) (s : Sondeo) (d : Monitorizacion.Dispositivo)
    (e : Entorno) :
    upRRDs (obtenerSNMP sh s d e).2 = upRRDs e ∧
      (obtenerSNMP sh s d e).1 = conSensores (leido sh s d e.archivos).sensors
        (conSalud (leido sh s d e.archivos).health d) := by
  have hne := snmp_sensors_ne_health (Monitorizacion.ipDe d)
  dsimp only [obtenerSNMP]
  obtain ⟨e₂, he₂, hordenes, harchivos⟩ :
    ∃ e₂, snmpwalk sh "1.3.6.1.4.1.2620" (snmp_sensors (Monitorizacion.ipDe d))
      s.sensors d
        (snmpwalk sh "1.3.6.1.4.1.2021" (snmp_health (Monitorizacion.ipDe d)) s.health d e) = e₂ ∧
      upRRDs e₂ = upRRDs e ∧ e₂.archivos = dejados sh s d e.archivos := by
    refine ⟨_, rfl, ?_, rfl⟩
    rw [upRRDs_snmpwalk, upRRDs_snmpwalk]
  rw [he₂]
  have hlee (archivo : Texto) : e₂.lee archivo = (dejados sh s d e.archivos archivo).getD [] := by
    rw [Entorno.lee, harchivos]
  have ht : ∃ t,
      (if s.health.estado = 0 then salud (snmp_health (Monitorizacion.ipDe d)) d e₂ else (d, e₂)) =
        t ∧
      upRRDs t.2 = upRRDs e ∧ t.2.lee (snmp_sensors (Monitorizacion.ipDe d)) =
        (leido sh s d e.archivos).sensors.salida ∧
        t.1 = conSalud (leido sh s d e.archivos).health d := by
    refine ⟨_, rfl, ?_⟩
    obtain ⟨hs, -, hl, hd⟩ := salud_spec (snmp_health (Monitorizacion.ipDe d)) d e₂
    rw [hlee] at hd
    split_ifs with h
    · refine ⟨hs.trans hordenes, (hl _ hne).trans (hlee _), hd.trans ?_⟩
      have hestado : (leido sh s d e.archivos).health.estado = 0 := h
      rw [conSalud, conSalud, if_pos rfl, if_pos hestado]
      rfl
    · exact ⟨hordenes, hlee _, (if_neg h).symm⟩
  obtain ⟨t, ht, hs, hl, hd⟩ := ht
  rw [ht]
  obtain ⟨hs', -, hd'⟩ := sensores_spec (snmp_sensors (Monitorizacion.ipDe d)) t.1 t.2
  split_ifs with h
  · refine ⟨hs'.trans hs, hd'.trans ?_⟩
    have hestado : (leido sh s d e.archivos).sensors.estado = 0 := h
    rw [hl, hd, conSensores, conSensores, if_pos rfl, if_pos hestado]
  · exact ⟨hs, hd.trans (if_neg h).symm⟩

theorem linea_conPing (oid : String) (archivo : Texto) (r : Resultado) :
    linea oid archivo (conPing r d) = linea oid archivo d := by
  unfold conPing
  split_ifs <;> rfl

theorem ipDe_conPing (r : Resultado) :
    Monitorizacion.ipDe (conPing r d) = Monitorizacion.ipDe d := by
  unfold conPing
  split_ifs <;> rfl

theorem leido_conPing (r : Resultado) : leido sh s (conPing r d) a = leido sh s d a := by
  simp only [leido, dejados, linea2021, linea2620, linea_conPing, ipDe_conPing]

/-- One turn of the loop sends one sample, with what the files give at its time. -/
theorem upRRDs_turno (s : Sondeo) (d : Monitorizacion.Dispositivo) (e : Entorno) :
    upRRDs (turno sh s d e) = upRRDs e ++ [muestra (leido sh s d e.archivos) d] := by
  have hping : (obtenerPing s.ping d e).1 = conPing s.ping d := rfl
  have harchivos : (obtenerPing s.ping d e).2.archivos = e.archivos := rfl
  have hordenes : upRRDs (obtenerPing s.ping d e).2 = upRRDs e := by
    rw [obtenerPing, upRRDs_manda]
    exact List.append_nil _
  obtain ⟨hs, hd⟩ := obtenerSNMP_leido sh s (obtenerPing s.ping d e).1 (obtenerPing s.ping d e).2
  rw [hping, harchivos, leido_conPing] at hd
  have hlecturas : (obtenerSNMP sh s (obtenerPing s.ping d e).1 (obtenerPing s.ping d e).2).1 =
      lecturas (leido sh s d e.archivos) d := hd
  rw [turno, prediccionRRD, actualizarRRD, upRRDs_manda, upRRDs_manda, hs, hordenes, hlecturas,
    direccionIP_lecturas]
  exact List.append_nil _

theorem upRRDs_turnos (sh : Interprete) (o : ℕ → Sondeo) (i : ℕ)
    (ds : List Monitorizacion.Dispositivo) (e : Entorno) :
    ∃ as : ℕ → Archivos, upRRDs (turnos sh o i ds e) =
      upRRDs e ++ ds.mapIdx (fun j d ↦ muestra (leido sh (o (i + j)) d (as j)) d) := by
  induction ds generalizing i e with
  | nil => exact ⟨fun _ ↦ e.archivos, by simp [turnos]⟩
  | cons d ds ih =>
    obtain ⟨as, has⟩ := ih (i + 1) (turno sh (o i) d e)
    refine ⟨fun j ↦ j.casesOn e.archivos as, ?_⟩
    rw [turnos, has, upRRDs_turno, List.mapIdx_cons, List.append_assoc, List.singleton_append]
    simp only [Nat.add_assoc, Nat.add_comm 1, Nat.add_zero]
    rfl

end Reading

section Claim

structure Seleccionada (x : FilaDispositivo) : Prop where
  guardada : Guardada x
  vigilada : Vigilada x

def dispositivo (x : FilaDispositivo) : Monitorizacion.Dispositivo := (fila x).dispositivo

/-- The sample of a row is told by the row and by the outcomes of its own probes,
wherever it stands in a run, and whatever files and other rows there are. -/
def Propia (sh : Interprete) (x : FilaDispositivo) : Prop :=
  ∀ (xs ys : List FilaDispositivo) (o o' : ℕ → Sondeo) (archivos archivos' : Archivos) (i j : ℕ),
    (∀ y ∈ xs ++ ys, Seleccionada y) → xs[i]? = some x → ys[j]? = some x → o i = o' j →
      (upRRDs (construct sh xs o archivos))[i]? = (upRRDs (construct sh ys o' archivos'))[j]?

def Simples (x : FilaDispositivo) : Prop :=
  (∃ outs, Redirige (linea2021 (dispositivo x)) outs) ∧
    ∃ outs, Redirige (linea2620 (dispositivo x)) outs

/-- The second line of a row is a simple command, and the output of one that is goes to each
file. -/
def Escribe (x : FilaDispositivo) : Prop :=
  ∃ outs, Redirige (linea2620 (dispositivo x)) outs ∧
    ∀ archivo ∈ [snmp_health (Monitorizacion.ipDe (dispositivo x)),
      snmp_sensors (Monitorizacion.ipDe (dispositivo x))], archivo ∈ outs ∨
      ∃ outs', Redirige (linea2021 (dispositivo x)) outs' ∧ archivo ∈ outs'

def destino : Orden → Option Texto
  | .upRRD direccionIP _ _ _ _ _ _ => some direccionIP
  | _ => none

variable {sh : Interprete} {x : FilaDispositivo} {s : Sondeo} {a b : Archivos}

theorem upRRDs_construct (sh : Interprete) (xs : List FilaDispositivo) (o : ℕ → Sondeo)
    (archivos : Archivos) :
    ∃ as : ℕ → Archivos, upRRDs (construct sh xs o archivos) =
      xs.mapIdx fun j x ↦ muestra (leido sh (o j) (dispositivo x) (as j)) (dispositivo x) := by
  obtain ⟨as, has⟩ := upRRDs_turnos sh o 0 (xs.map dispositivo) ⟨archivos, [], 0⟩
  refine ⟨as, has.trans ?_⟩
  simp only [upRRDs, List.filter_nil, List.nil_append, Nat.zero_add, List.mapIdx_eq_zipIdx_map,
    List.zipIdx_map, List.map_map]
  rfl

theorem dejados_congr {archivo : Texto} {outs : List Texto}
    (h : Redirige (linea2620 (dispositivo x)) outs) (hmem : archivo ∈ outs ∨
      ∃ outs', Redirige (linea2021 (dispositivo x)) outs' ∧ archivo ∈ outs') :
    dejados sh s (dispositivo x) a archivo = dejados sh s (dispositivo x) b archivo := by
  rw [dejados, dejados, sh.redirige _ _ h, sh.redirige _ _ h]
  apply vuelca_congr
  rcases hmem with hmem | ⟨outs', h', hmem⟩
  · exact Or.inl hmem
  · rw [sh.redirige _ _ h', sh.redirige _ _ h']
    exact Or.inr (vuelca_congr (Or.inl hmem))

theorem propia_of_escribe (h : Escribe x) : Propia sh x := by
  obtain ⟨outs, h, hmem⟩ := h
  have hhealth := hmem _ List.mem_cons_self
  have hsensors := hmem _ (List.mem_cons_of_mem _ List.mem_cons_self)
  intro xs ys o o' archivos archivos' i j _ hi hj ho
  obtain ⟨as, has⟩ := upRRDs_construct sh xs o archivos
  obtain ⟨bs, hbs⟩ := upRRDs_construct sh ys o' archivos'
  have hleido : leido sh (o i) (dispositivo x) (as i) = leido sh (o i) (dispositivo x) (bs j) := by
    rw [leido, leido, dejados_congr h hhealth, dejados_congr h hsensors]
  rw [has, hbs, List.getElem?_mapIdx, List.getElem?_mapIdx, hi, hj, Option.map_some,
    Option.map_some, hleido, ho]

theorem muestra_of_propia (hx : Seleccionada x) (h : Propia sh x) (s : Sondeo) (a b : Archivos) :
    muestra (leido sh s (dispositivo x) a) (dispositivo x) =
      muestra (leido sh s (dispositivo x) b) (dispositivo x) := by
  have hrun (a : Archivos) : (upRRDs (construct sh [x] (fun _ ↦ s) a))[0]? =
      some (muestra (leido sh s (dispositivo x) a) (dispositivo x)) := by
    rw [construct, List.map_singleton, turnos, turnos, upRRDs_turno]
    rfl
  have hxs : ∀ y ∈ [x] ++ [x], Seleccionada y := by
    simp only [List.singleton_append, List.forall_mem_cons]
    exact ⟨hx, hx, fun _ hy ↦ absurd hy List.not_mem_nil⟩
  have hsame := h [x] [x] (fun _ ↦ s) (fun _ ↦ s) a b 0 0 hxs rfl rfl rfl
  rw [hrun, hrun] at hsame
  exact Option.some.inj hsame

section Leftovers

variable {t : Sondeo} {d : Monitorizacion.Dispositivo}

theorem cpu_lecturas (hping : t.ping.estado = 1) (hhealth : t.health.estado = 0)
    (hsensors : t.sensors.estado = 1) :
    (lecturas t d).cpu = cpu t.health.salida d := by
  rw [lecturas, conSensores, if_neg (by omega), conSalud, if_pos hhealth, conPing,
    if_neg (by omega)]

theorem temp_lecturas (hsensors : t.sensors.estado = 0) :
    (lecturas t d).temp = medida (valor .tempertureSensorValue t.sensors.salida) := by
  rw [lecturas, conSensores, if_pos hsensors]

theorem cpu_nil : cpu [] d = d.cpu := by
  have hticks : totalTicks [] = 0 := rfl
  rw [cpu, hticks, if_neg (fun h ↦ h.1 rfl)]

theorem cpu_mitad : cpu mitad d = some 50 := by
  have hticks : totalTicks mitad = 100 := by
    simp only [totalTicks, contadores, contador, valor_mitad]
    decide
  have hidle : contador mitad .ssCpuRawIdle = 50 := by
    rw [contador, valor_mitad]
    rfl
  rw [cpu, hticks, hidle, if_pos ⟨by decide, by decide⟩]
  decide +kernel

def termometro : Sondeo := ⟨⟨1, []⟩, ⟨1, []⟩, ⟨0, []⟩⟩

def calor : List Texto := ["iso.3.6.1.4.1.2620.1.6.7.8.1.1.3.1.0 = INTEGER: 40".toList]

theorem valor_calor : valor .tempertureSensorValue calor = some 40 := by
  rw [valor_eq]
  decide

end Leftovers

/-- Files that both lines leave as they were are read as an earlier device or run has left
them. -/
theorem not_propia_of_dejados (hx : Seleccionada x) {archivo : Texto}
    (harchivo : archivo ∈ [snmp_health (Monitorizacion.ipDe (dispositivo x)),
      snmp_sensors (Monitorizacion.ipDe (dispositivo x))])
    (h : ∀ s l, dejados sh s (dispositivo x) (fun _ ↦ l) archivo = l) : ¬ Propia sh x := by
  intro hp
  rcases List.mem_pair.mp harchivo with rfl | rfl
  · have hcpu (l : Option (List Texto)) :
        (lecturas (leido sh (sondeo []) (dispositivo x) (fun _ ↦ l)) (dispositivo x)).cpu =
          cpu (l.getD []) (dispositivo x) := by
      rw [cpu_lecturas rfl rfl rfl, leido, h]
    have hsame := muestra_of_propia hx hp (sondeo []) (fun _ ↦ some mitad) (fun _ ↦ none)
    rw [muestra, muestra] at hsame
    obtain ⟨-, hsame, -⟩ := Orden.upRRD.inj hsame
    rw [hcpu, hcpu, Option.getD_some, Option.getD_none, cpu_mitad, cpu_nil] at hsame
    cases hsame
  · have htemp (l : Option (List Texto)) :
        (lecturas (leido sh termometro (dispositivo x) (fun _ ↦ l)) (dispositivo x)).temp =
          medida (valor .tempertureSensorValue (l.getD [])) := by
      rw [temp_lecturas rfl, leido, h]
    have hsame := muestra_of_propia hx hp termometro (fun _ ↦ some calor) (fun _ ↦ none)
    rw [muestra, muestra] at hsame
    obtain ⟨-, -, -, -, hsame, -⟩ := Orden.upRRD.inj hsame
    rw [htemp, htemp, Option.getD_some, Option.getD_none, valor_calor] at hsame
    cases hsame

theorem escribe_of_propia (hx : Seleccionada x) (hsimples : Simples x) (hp : Propia sh x) :
    Escribe x := by
  obtain ⟨⟨outs', h'⟩, outs, h⟩ := hsimples
  refine ⟨outs, h, fun archivo harchivo ↦ ?_⟩
  by_contra hmem
  obtain ⟨houts, hnot⟩ := not_or.mp hmem
  have houts' : archivo ∉ outs' := fun hin ↦ hnot ⟨outs', h', hin⟩
  refine not_propia_of_dejados hx harchivo (fun s l ↦ ?_) hp
  rw [dejados, sh.redirige _ _ h, sh.redirige _ _ h', vuelca_of_notMem houts,
    vuelca_of_notMem houts']

open scoped Classical in
/-- A shell that copies one file to all others for a line that is not simple. -/
noncomputable def copista (archivo : Texto) : Interprete where
  corre linea r a :=
    if h : ∃ outs, Redirige linea outs then vuelca h.choose r.salida a else fun _ ↦ a archivo
  redirige linea outs h r a := by
    have hex : ∃ outs, Redirige linea outs := ⟨outs, h⟩
    rw [dif_pos hex, hex.choose_spec.unique h]

theorem copista_of_not {archivo linea : Texto} (h : ¬ ∃ outs, Redirige linea outs) (r : Resultado)
    (a : Archivos) :
    (copista archivo).corre linea r a = fun _ ↦ a archivo := dif_neg h

/-- Where one line is not simple, some shell leaves old contents in the files. -/
theorem escribe_of_forall (hx : Seleccionada x) (hp : ∀ sh, Propia sh x) : Escribe x := by
  by_cases h' : ∃ outs', Redirige (linea2021 (dispositivo x)) outs'
  · by_cases h : ∃ outs, Redirige (linea2620 (dispositivo x)) outs
    · exact escribe_of_propia hx ⟨h', h⟩ (hp (copista []))
    · obtain ⟨outs', h'⟩ := h'
      obtain ⟨archivo, harchivo⟩ := Infinite.exists_notMem_finset outs'.toFinset
      rw [List.mem_toFinset] at harchivo
      refine absurd (hp (copista archivo))
        (not_propia_of_dejados hx List.mem_cons_self (fun s l ↦ ?_))
      rw [dejados, copista_of_not h, (copista archivo).redirige _ _ h', vuelca_of_notMem harchivo]
  · by_contra hescribe
    have hnot : ∃ archivo ∈ [snmp_health (Monitorizacion.ipDe (dispositivo x)),
        snmp_sensors (Monitorizacion.ipDe (dispositivo x))],
        ∀ outs, Redirige (linea2620 (dispositivo x)) outs → archivo ∉ outs := by
      by_cases h : ∃ outs, Redirige (linea2620 (dispositivo x)) outs
      · obtain ⟨outs, h⟩ := h
        by_contra hall
        refine hescribe ⟨outs, h, fun archivo harchivo ↦ Or.inl ?_⟩
        by_contra hmem
        exact hall ⟨archivo, harchivo, fun outs' h'' ↦ h.unique h'' ▸ hmem⟩
      · exact ⟨_, List.mem_cons_self, fun outs h'' ↦ absurd ⟨outs, h''⟩ h⟩
    obtain ⟨archivo, harchivo, hnot⟩ := hnot
    refine absurd (hp (copista [])) (not_propia_of_dejados hx harchivo (fun s l ↦ ?_))
    rw [dejados, copista_of_not h']
    by_cases h : ∃ outs, Redirige (linea2620 (dispositivo x)) outs
    · obtain ⟨outs, h⟩ := h
      rw [(copista []).redirige _ _ h, vuelca_of_notMem (hnot outs h)]
    · rw [copista_of_not h]

section Words

theorem redirige_of_isField (hx : Guardada x) (hfield : isField x.comunidadSNMP.texto) :
    Redirige (linea2021 (dispositivo x)) [snmp_health (Monitorizacion.ipDe (dispositivo x))] ∧
      Redirige (linea2620 (dispositivo x))
      [snmp_sensors (Monitorizacion.ipDe (dispositivo x))] := by
  obtain ⟨ip, msk, hvalida, hdir⟩ := hx
  have hip : Monitorizacion.ipDe (dispositivo x) = ip := ipDe_fila hvalida hdir
  have hline {oid : String} {archivo : Texto} (hoid : Plain oid.toList) (harchivo : Plain archivo) :
      Redirige (linea oid archivo (dispositivo x)) [archivo] := by
    intro e
    have hplain : Plain (Monitorizacion.ipDe (dispositivo x)) := hip ▸ plain_ip hvalida
    have hintacto := (intacto_snmpwalk_iff (fun _ ↦ Impreso.ofInt 0) (plain_version x) hplain hoid
      harchivo).mpr hfield
    exact ⟨_, hintacto e⟩
  refine ⟨hline plain_oid2021 (plain_archivo hvalida (Or.inl ?_)),
    hline plain_oid2620 (plain_archivo hvalida
    (Or.inr ?_))⟩
  · rw [hip]
  · rw [hip]

theorem escribe_of_isField (hx : Guardada x) (hfield : isField x.comunidadSNMP.texto) :
    Escribe x := by
  obtain ⟨h, h'⟩ := redirige_of_isField hx hfield
  refine ⟨_, h', fun archivo harchivo ↦ ?_⟩
  rcases List.mem_pair.mp harchivo with rfl | rfl
  · exact Or.inr ⟨_, h, List.mem_singleton_self _⟩
  · exact Or.inl (List.mem_singleton_self _)

theorem leido_of_isField (hx : Guardada x) (hfield : isField x.comunidadSNMP.texto) :
    leido sh s (dispositivo x) a = s := by
  obtain ⟨h, h'⟩ := redirige_of_isField hx hfield
  have hne := snmp_sensors_ne_health (Monitorizacion.ipDe (dispositivo x))
  rw [leido, dejados, sh.redirige _ _ h, sh.redirige _ _ h', vuelca, vuelca,
    Function.update_of_ne hne.symm, Function.update_self, Function.update_self]
  rfl

theorem snmpwalk_of_redirige {oid : String} {archivo : Texto} {d : Monitorizacion.Dispositivo}
    (h : Redirige (linea oid archivo d) [archivo]) (r : Resultado) (e : Entorno) :
    snmpwalk sh oid archivo r d e = Monitorizacion.snmpwalk oid archivo r d e := by
  rw [snmpwalk, Monitorizacion.snmpwalk, sh.redirige _ _ h]
  rfl

theorem obtenerSNMP_of_redirige {d : Monitorizacion.Dispositivo}
    (h : Redirige (linea2021 d) [snmp_health (Monitorizacion.ipDe d)])
    (h' : Redirige (linea2620 d) [snmp_sensors (Monitorizacion.ipDe d)]) (s : Sondeo)
    (e : Entorno) :
    obtenerSNMP sh s d e = Monitorizacion.obtenerSNMP s d e := by
  dsimp only [obtenerSNMP, Monitorizacion.obtenerSNMP]
  rw [snmpwalk_of_redirige h, snmpwalk_of_redirige h']

theorem turno_of_isField (hx : Guardada x) (hfield : isField x.comunidadSNMP.texto) (s : Sondeo)
    (e : Entorno) :
    turno sh s (dispositivo x) e = Monitorizacion.turno s (dispositivo x) e := by
  obtain ⟨h, h'⟩ := redirige_of_isField hx hfield
  have hping : (obtenerPing s.ping (dispositivo x) e).1 = conPing s.ping (dispositivo x) := rfl
  have hlineas : linea2021 (conPing s.ping (dispositivo x)) = linea2021 (dispositivo x) ∧
      linea2620 (conPing s.ping (dispositivo x)) = linea2620 (dispositivo x) := by
    simp only [linea2021, linea2620, linea_conPing, ipDe_conPing, and_self]
  dsimp only [turno, Monitorizacion.turno]
  rw [hping, obtenerSNMP_of_redirige]
  · rw [hlineas.1, ipDe_conPing]
    exact h
  · rw [hlineas.2, ipDe_conPing]
    exact h'

/-- Where all communities are words the run is the one whose probes write their own files. -/
theorem construct_eq {xs : List FilaDispositivo}
    (h : ∀ x ∈ xs, Guardada x ∧ isField x.comunidadSNMP.texto) (o : ℕ → Sondeo)
    (archivos : Archivos) :
    construct sh xs o archivos = Monitorizacion.construct (xs.map fila) o archivos := by
  have hturnos (i : ℕ) (e : Entorno) : turnos sh o i (xs.map dispositivo) e =
      Monitorizacion.turnos o i (xs.map dispositivo) e := by
    induction xs generalizing i e with
    | nil => rfl
    | cons x xs ih =>
      obtain ⟨⟨hx, hfield⟩, hxs⟩ := List.forall_mem_cons.mp h
      rw [List.map_cons, turnos, Monitorizacion.turnos, turno_of_isField hx hfield, ih hxs]
  rw [construct, Monitorizacion.construct, List.map_map]
  exact hturnos 0 _

end Words

end Claim

section Ejemplo

open Baselines Lookups

theorem redirige_of_tokens {l : Texto} {ts : List Token} {ws rs : List Word}
    (h : tokens l = some ts) (harrange : arrange ts = some (ws, rs)) (hname : ws.head?.all isName)
    (hrs : ∀ w ∈ rs, varies w = false) :
    Redirige l (rs.map value) := by
  intro e
  refine ⟨ws.flatMap (expand e), ?_⟩
  simp only [simple, h, harrange, Option.bind_eq_bind, Option.bind_some, hname, if_true,
    expand_of_steady e hrs]

/-- The community names a host and an object of its own, and turns the rest of the line into a
comment. -/
def comentada : Dispositivo.Argumentos :=
  { equipo with comSNMP := some "public 10.0.0.7 1.3.6.1.4.1.2021 #".toList }

@[irreducible]
def registradoComentado : BD := tras reloj (.dispositivo comentada .insertar) BD.vacia

def filaComentada : FilaDispositivo :=
  { filaEquipo with comunidadSNMP := varcharDe "public 10.0.0.7 1.3.6.1.4.1.2021 #" (by decide) }

theorem alcanzable_comentado : Alcanzable registradoComentado := by
  unfold registradoComentado
  exact Alcanzable.vacia.tras reloj (by decide)

theorem filaComentada_mem : filaComentada ∈ registradoComentado.dispositivo := by decide +kernel

theorem seleccionada_comentada : Seleccionada filaComentada :=
  ⟨guardada_of_mem alcanzable_comentado filaComentada_mem, by decide⟩

def palabrasComentada : List Word :=
  ["snmpwalk", "-v", "2c", "-c", "public", "10.0.0.7", "1.3.6.1.4.1.2021"].map fun s ↦ bare s.toList

theorem redirige_comentada : Redirige (linea2021 (dispositivo filaComentada)) [] ∧
    Redirige (linea2620 (dispositivo filaComentada)) [] := by
  have harrange : arrange (palabrasComentada.map Token.word) =
    some (palabrasComentada, []) := by decide
  have hname : palabrasComentada.head?.all isName := by decide
  constructor
  · have htokens : tokens (linea2021 (dispositivo filaComentada)) =
        some (palabrasComentada.map Token.word) := by
      decide +kernel
    exact redirige_of_tokens htokens harrange hname (fun _ h ↦ absurd h List.not_mem_nil)
  · have htokens : tokens (linea2620 (dispositivo filaComentada)) =
        some (palabrasComentada.map Token.word) := by
      decide +kernel
    exact redirige_of_tokens htokens harrange hname (fun _ h ↦ absurd h List.not_mem_nil)

end Ejemplo

end ServiciosRed.Redirections
