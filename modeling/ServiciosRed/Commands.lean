import ServiciosRed.Lookups
import ServiciosRed.Monitorizacion
import ServiciosRed.Shell

namespace ServiciosRed.Commands

open Text Php Python MySQL Schema Calendar Fields Programs Requests Paths Reachability
  Monitorizacion Shell

section Texts

inductive Comando
  | orden (o : Orden)
  | awk (o : Objeto) (archivo : Texto)
  deriving DecidableEq

/-- The patterns of the counters of the processor have no blanks around the bars. -/
def barras (o : Objeto) : Texto := if o ∈ contadores then "||".toList else " || ".toList

def programa (o : Objeto) : Texto :=
  '/' :: (o.oid.toList ++ '/' :: (barras o ++ '/' :: (o.nombre.toList ++ "/{ print $4 }".toList)))

def impresa (imprime : ℚ → Impreso) (m : Medida) : Texto :=
  (m.map fun q ↦ (imprime q).texto).getD ['u']

def textoOrden (imprime : ℚ → Impreso) : Orden → Texto
  | .ping ip => "ping -c 10 -a ".toList ++ ip
  | .snmpwalk version comunidad ip oid archivo =>
    "snmpwalk -v ".toList ++
      (version ++
        (" -c ".toList ++ (comunidad ++ ' ' :: (ip ++ ' ' :: (oid ++ (" > ".toList ++ archivo))))))
  | .rm archivo => "rm -rf ".toList ++ archivo
  | .upRRD direccionIP cpu ram hdd temp volt ping_promedio =>
    "python upRRD.py ".toList ++
      (direccionIP ++ ' ' :: (impresa imprime cpu ++ ' ' :: (impresa imprime ram ++ ' ' ::
        (impresa imprime hdd ++ ' ' :: (impresa imprime temp ++ ' ' ::
          (impresa imprime volt ++ ' ' :: impresa imprime ping_promedio))))))
  | .predicciones direccionIP => "python predicciones.py ".toList ++ direccionIP

def Comando.texto (imprime : ℚ → Impreso) : Comando → Texto
  | orden o => textoOrden imprime o
  | awk o archivo => "awk '".toList ++ (programa o ++ ("' ".toList ++ archivo))

def intencion (imprime : ℚ → Impreso) : Comando → Simple
  | .orden (.ping ip) => ⟨["ping".toList, "-c".toList, "10".toList, "-a".toList, ip], []⟩
  | .orden (.snmpwalk version comunidad ip oid archivo) =>
    ⟨["snmpwalk".toList, "-v".toList, version, "-c".toList, comunidad, ip, oid], [archivo]⟩
  | .orden (.rm archivo) => ⟨["rm".toList, "-rf".toList, archivo], []⟩
  | .orden (.upRRD direccionIP cpu ram hdd temp volt ping_promedio) =>
    ⟨"python".toList :: "upRRD.py".toList :: direccionIP ::
      [cpu, ram, hdd, temp, volt, ping_promedio].map (impresa imprime), []⟩
  | .orden (.predicciones direccionIP) =>
    ⟨["python".toList, "predicciones.py".toList, direccionIP], []⟩
  | .awk o archivo => ⟨["awk".toList, programa o, archivo], []⟩

/-- Whatever stands around it, the shell takes the text for the command that is meant. -/
def Intacto (imprime : ℚ → Impreso) (c : Comando) : Prop :=
  ∀ e, simple e (c.texto imprime) = some (intencion imprime c)

end Texts

section Device

def objetosSalud : List Objeto := contadores ++ [.memAvailReal, .memTotalReal, .dskUsed, .dskTotal]

def objetosSensores : List Objeto := [.tempertureSensorValue, .voltageSensorValue]

def comandos (s : Sondeo) (d : Monitorizacion.Dispositivo) : List Comando :=
  let ip := Monitorizacion.ipDe d
  let lee (r : Resultado) (objetos : List Objeto) (archivo : Texto) : List Comando :=
    if r.estado = 0 then (objetos.map fun o ↦ .awk o archivo) ++ [.orden (.rm archivo)] else []
  .orden (.ping ip) ::
    .orden (.snmpwalk (version d) d.comunidadSNMP ip "1.3.6.1.4.1.2021".toList (snmp_health ip)) ::
    .orden (.snmpwalk (version d) d.comunidadSNMP ip "1.3.6.1.4.1.2620".toList (snmp_sensors ip)) ::
    (lee s.health objetosSalud (snmp_health ip) ++
      (lee s.sensors objetosSensores (snmp_sensors ip) ++
        [.orden (muestra s d), .orden (.predicciones d.direccionIP)]))

def Comando.deOrden : Comando → Option Orden
  | orden o => some o
  | awk _ _ => none

theorem filterMap_awk (objetos : List Objeto) (archivo : Texto) :
    (objetos.map fun o ↦ Comando.awk o archivo).filterMap Comando.deOrden = [] := by
  induction objetos with
  | nil => rfl
  | cons o objetos ih => exact ih

theorem ordenes_obtenerSNMP (s : Sondeo) (d : Monitorizacion.Dispositivo) (e : Entorno) :
    (obtenerSNMP s d e).2.ordenes = e.ordenes ++
      .snmpwalk (version d) d.comunidadSNMP (Monitorizacion.ipDe d) "1.3.6.1.4.1.2021".toList
        (snmp_health (Monitorizacion.ipDe d)) ::
      .snmpwalk (version d) d.comunidadSNMP (Monitorizacion.ipDe d) "1.3.6.1.4.1.2620".toList
        (snmp_sensors (Monitorizacion.ipDe d)) ::
      ((if s.health.estado = 0 then [.rm (snmp_health (Monitorizacion.ipDe d))] else []) ++
        if s.sensors.estado = 0 then [.rm (snmp_sensors (Monitorizacion.ipDe d))] else []) := by
  dsimp only [obtenerSNMP, Monitorizacion.snmpwalk, salud, sensores, Entorno.manda, Entorno.escribe,
    Entorno.borra]
  split_ifs <;> simp only [List.append_assoc, List.cons_append, List.nil_append, List.append_nil]

/-- The commands are those of the program, which has awk read the files in between. -/
theorem ordenes_turno (s : Sondeo) (d : Monitorizacion.Dispositivo) (e : Entorno) :
    (turno s d e).ordenes = e.ordenes ++ (comandos s d).filterMap Comando.deOrden := by
  have hping : obtenerPing s.ping d e =
    (conPing s.ping d, e.manda (.ping (Monitorizacion.ipDe d))) := rfl
  have hd : Monitorizacion.ipDe (conPing s.ping d) = Monitorizacion.ipDe d ∧
    version (conPing s.ping d) = version d ∧
      (conPing s.ping d).comunidadSNMP = d.comunidadSNMP := by
    unfold conPing
    split_ifs <;> exact ⟨rfl, rfl, rfl⟩
  have hlee (r : Resultado) (objetos : List Objeto) (archivo : Texto) :
      (if r.estado = 0 then (objetos.map fun o ↦ Comando.awk o archivo) ++
        [.orden (.rm archivo)] else []).filterMap
        Comando.deOrden = if r.estado = 0 then [.rm archivo] else [] := by
    split_ifs
    · rw [List.filterMap_append, filterMap_awk]
      rfl
    · rfl
  have hordenes :=
    ordenes_obtenerSNMP s (conPing s.ping d) (e.manda (.ping (Monitorizacion.ipDe d)))
  rw [hd.1, hd.2.1, hd.2.2] at hordenes
  have hlecturas :=
    (obtenerSNMP_spec s (conPing s.ping d) (e.manda (.ping (Monitorizacion.ipDe d)))).2.2
  change _ = lecturas s d at hlecturas
  have hturno : (turno s d e).ordenes =
      (obtenerSNMP s (conPing s.ping d) (e.manda (.ping (Monitorizacion.ipDe d)))).2.ordenes ++
        [muestra s d] ++ [.predicciones d.direccionIP] := by
    rw [turno, hping]
    dsimp only
    generalize obtenerSNMP s (conPing s.ping d) (e.manda (.ping (Monitorizacion.ipDe d))) =
      t at hlecturas ⊢
    rw [prediccionRRD, actualizarRRD, hlecturas, direccionIP_lecturas]
    rfl
  rw [hturno, hordenes]
  dsimp only [comandos]
  simp only [List.filterMap_cons, Comando.deOrden, List.filterMap_append, hlee, List.filterMap_nil,
    Entorno.manda, List.append_assoc, List.cons_append, List.nil_append]

end Device

section Row

def textoVersion : VersionSNMP → Texto
  | .v0 => ['0']
  | .v1 => ['1']
  | .v2 => ['2']
  | .v3 => ['3']

def fila (x : FilaDispositivo) : Fila :=
  ⟨x.direccionIP.texto, textoVersion x.versionSNMP, x.comunidadSNMP.texto⟩

/-- `WHERE monitorizacionActiva = '1' AND versionSNMP <> '0'` -/
def Vigilada (x : FilaDispositivo) : Prop := x.monitorizacionActiva = .uno ∧ x.versionSNMP ≠ .v0

instance : DecidablePred Vigilada := fun x ↦
  inferInstanceAs (Decidable (x.monitorizacionActiva = .uno ∧ x.versionSNMP ≠ .v0))

def mandados (s : Sondeo) (x : FilaDispositivo) : List Comando :=
  if Vigilada x then comandos s (fila x).dispositivo else []

/-- What the validation says about a stored row: its address was accepted. Of its
community it says nothing. -/
def Guardada (x : FilaDispositivo) : Prop :=
  ∃ ip msk, direccionValida ip msk ∧ x.direccionIP.texto = direccion ip msk

/-- The rows of accepted devices are such, with any community. -/
theorem guardada_of_fila [Engine] {ahora : Reloj} {a : Dispositivo.Argumentos} {x : FilaDispositivo}
    (hv : (Dispositivo.construct ahora a).Valido) (h : FilaDe (Dispositivo.construct ahora a) x) :
    Guardada x := by
  have hd := derivada_of_fila hv h
  exact ⟨_, _, hd.valida, hd.direccionIP⟩

theorem guardada_of_mem [Engine] {bd : BD} {x : FilaDispositivo} (h : Alcanzable bd)
    (hx : x ∈ bd.dispositivo) :
    Guardada x := by
  obtain ⟨ip, msk, hd⟩ := h.ordenada.dispositivos x hx
  exact ⟨ip, msk, hd.valida, hd.direccionIP⟩

end Row

section Fields

variable {ip : Texto} {msk : ℤ} {x : FilaDispositivo}

theorem isPlain_of_isDigit {c : Char} (h : c.isDigit) : isPlain c := by
  simp [isPlain, Char.isAlphanum, h]

theorem isPlain_ip (h : direccionValida ip msk) : ∀ c ∈ ip, isPlain c := by
  have hall : ∀ c ∈ ipChars, isPlain c := by decide
  exact fun c hc ↦ hall c (ip_chars h c hc)

theorem plain_ip (h : direccionValida ip msk) : Plain ip := by
  refine ⟨?_, isPlain_ip h⟩
  rintro rfl
  have hempty : Filters.validIp [] = false := by decide
  rw [direccionValida, hempty] at h
  cases h

theorem plain_direccion (h : direccionValida ip msk) : Plain (direccion ip msk) := by
  refine (plain_ip h).append ?_
  rw [List.forall_mem_cons]
  exact ⟨by decide, fun c hc ↦ isPlain_of_isDigit (msk_digits h c hc)⟩

theorem ipDe_fila (h : direccionValida ip msk) (hx : x.direccionIP.texto = direccion ip msk) :
    Monitorizacion.ipDe (fila x).dispositivo = ip := by
  have hparts : explode '/' x.direccionIP.texto = [ip, intText msk] := by
    have hslash : '/' ∉ ip := fun hmem ↦ absurd (ip_chars h '/' hmem) (by decide)
    have hdigits : '/' ∉ intText msk := fun hmem ↦ absurd (msk_digits h '/' hmem) (by decide)
    rw [hx, direccion, explode_append hslash, explode_of_notMem hdigits]
  have hip : Monitorizacion.ipDe (fila x).dispositivo =
    (explode '/' x.direccionIP.texto).headD [] := rfl
  rw [hip, hparts]
  rfl

theorem plain_version (x : FilaDispositivo) : Plain (version (fila x).dispositivo) := by
  have hversion : version (fila x).dispositivo =
      if textoVersion x.versionSNMP = ['2'] then "2c".toList else textoVersion x.versionSNMP := rfl
  rw [hversion]
  cases x.versionSNMP <;> exact ⟨by decide, by decide⟩

theorem plain_impresa (imprime : ℚ → Impreso) (m : Medida) : Plain (impresa imprime m) := by
  cases m with
  | none =>
    have hu : Plain ['u'] := ⟨by decide, by decide⟩
    exact hu
  | some q =>
    have htexto : impresa imprime (some q) = (imprime q).texto := rfl
    rw [htexto]
    generalize imprime q = y
    have hdigits (n : ℕ) : ∀ c ∈ decimal n, isPlain c :=
      fun c hc ↦ isPlain_of_isDigit (isDigit_of_mem_decimal hc)
    have hfraccion : ∀ c ∈ y.textoFraccion, isPlain c := by
      unfold Impreso.textoFraccion
      split_ifs
      · exact fun c hc ↦ absurd hc List.not_mem_nil
      · rw [List.forall_mem_cons, List.forall_mem_map]
        have hall : ∀ d : Fin 10, isPlain d.val.digitChar := by decide
        exact ⟨by decide, fun d _ ↦ hall d⟩
    have hexponente : ∀ c ∈ y.textoExponente, isPlain c := by
      unfold Impreso.textoExponente
      split
      · exact fun c hc ↦ absurd hc List.not_mem_nil
      · rw [List.forall_mem_cons, List.forall_mem_cons]
        refine ⟨by decide, ?_, hdigits _⟩
        split_ifs <;> decide
    have hsign : ∀ c ∈ signText y.negative, isPlain c := by
      cases y.negative <;> decide
    refine ⟨?_, ?_⟩
    · unfold Impreso.texto
      exact List.append_ne_nil_of_right_ne_nil _
        (List.append_ne_nil_of_left_ne_nil (decimal_ne_nil _) _)
    · unfold Impreso.texto
      simp only [List.forall_mem_append]
      exact ⟨hsign, hdigits _, hfraccion, hexponente⟩

theorem plain_archivo {archivo : Texto} (h : direccionValida ip msk)
    (ha : archivo = snmp_health ip ∨ archivo = snmp_sensors ip) : Plain archivo := by
  have hhealth : Plain "snmp_health_".toList := ⟨by decide, by decide⟩
  have hsensors : Plain "snmp_sensors_".toList := ⟨by decide, by decide⟩
  rcases ha with rfl | rfl
  · exact hhealth.append (isPlain_ip h)
  · exact hsensors.append (isPlain_ip h)

end Fields

section Reading

variable (imprime : ℚ → Impreso) {ip direccionIP version comunidad archivo : Texto}

theorem intacto_ping (hip : Plain ip) : Intacto imprime (.orden (.ping ip)) := by
  intro e
  have hping : Plain "ping".toList := ⟨by decide, by decide⟩
  have hc : Plain "-c".toList := ⟨by decide, by decide⟩
  have hdiez : Plain "10".toList := ⟨by decide, by decide⟩
  have ha : Plain "-a".toList := ⟨by decide, by decide⟩
  have htexto : (Comando.orden (.ping ip)).texto imprime =
      "ping".toList ++ after ["-c".toList, "10".toList, "-a".toList, ip] := by
    have htexto : (Comando.orden (.ping ip)).texto imprime = "ping -c 10 -a ".toList ++ ip := rfl
    simp [htexto, after]
  rw [htexto, simple_of_fields e (by decide) hping.isField]
  · rfl
  · simp only [List.forall_mem_cons]
    exact ⟨hc.isField, hdiez.isField, ha.isField, hip.isField, fun _ h ↦ absurd h List.not_mem_nil⟩

theorem intacto_rm (harchivo : Plain archivo) : Intacto imprime (.orden (.rm archivo)) := by
  intro e
  have hrm : Plain "rm".toList := ⟨by decide, by decide⟩
  have hrf : Plain "-rf".toList := ⟨by decide, by decide⟩
  have htexto : (Comando.orden (.rm archivo)).texto imprime = "rm".toList ++
      after ["-rf".toList, archivo] := by
    have htexto : (Comando.orden (.rm archivo)).texto imprime = "rm -rf ".toList ++ archivo := rfl
    simp [htexto, after]
  rw [htexto, simple_of_fields e (by decide) hrm.isField]
  · rfl
  · simp only [List.forall_mem_cons]
    exact ⟨hrf.isField, harchivo.isField, fun _ h ↦ absurd h List.not_mem_nil⟩

theorem plain_python : Plain "python".toList := ⟨by decide, by decide⟩

theorem intacto_predicciones (hdir : Plain direccionIP) :
    Intacto imprime (.orden (.predicciones direccionIP)) := by
  intro e
  have hscript : Plain "predicciones.py".toList := ⟨by decide, by decide⟩
  have htexto : (Comando.orden (.predicciones direccionIP)).texto imprime =
      "python".toList ++ after ["predicciones.py".toList, direccionIP] := by
    have htexto : (Comando.orden (.predicciones direccionIP)).texto imprime =
        "python predicciones.py ".toList ++ direccionIP := rfl
    simp [htexto, after]
  rw [htexto, simple_of_fields e (by decide) plain_python.isField]
  · rfl
  · simp only [List.forall_mem_cons]
    exact ⟨hscript.isField, hdir.isField, fun _ h ↦ absurd h List.not_mem_nil⟩

theorem intacto_upRRD (hdir : Plain direccionIP) (cpu ram hdd temp volt ping_promedio : Medida) :
    Intacto imprime (.orden (.upRRD direccionIP cpu ram hdd temp volt ping_promedio)) := by
  intro e
  have hscript : Plain "upRRD.py".toList := ⟨by decide, by decide⟩
  have htexto : (Comando.orden (.upRRD direccionIP cpu ram hdd temp volt ping_promedio)).texto
    imprime =
      "python".toList ++ after ("upRRD.py".toList :: direccionIP ::
        [cpu, ram, hdd, temp, volt, ping_promedio].map (impresa imprime)) := by
    have htexto : (Comando.orden (.upRRD direccionIP cpu ram hdd temp volt ping_promedio)).texto
      imprime =
        "python upRRD.py ".toList ++ (direccionIP ++ ' ' :: (impresa imprime cpu ++ ' ' ::
          (impresa imprime ram ++ ' ' ::
            (impresa imprime hdd ++ ' ' :: (impresa imprime temp ++ ' ' ::
              (impresa imprime volt ++ ' ' :: impresa imprime ping_promedio)))))) := rfl
    simp [htexto, after]
  rw [htexto, simple_of_fields e (by decide) plain_python.isField]
  · rfl
  · rw [List.forall_mem_cons, List.forall_mem_cons, List.forall_mem_map]
    exact ⟨hscript.isField, hdir.isField, fun m _ ↦ (plain_impresa imprime m).isField⟩

/-- The program of awk is one word because it stands between single quotes. -/
theorem intacto_awk (o : Objeto) (harchivo : Plain archivo) : Intacto imprime (.awk o archivo) := by
  intro e
  have hprograma : ∀ c ∈ programa o, c ≠ '\'' ∧ c ≠ '\x00' := by
    cases o <;> decide
  have hawk : Plain "awk".toList := ⟨by decide, by decide⟩
  have htexto : (Comando.awk o archivo).texto imprime =
      "awk".toList ++ after
        ([('\'' :: (programa o ++ ['\'']), quoted (programa o)),
          (archivo, bare archivo)].map Prod.fst ++ []) := by
    have htexto : (Comando.awk o archivo).texto imprime =
        "awk '".toList ++ (programa o ++ ("' ".toList ++ archivo)) := rfl
    simp [htexto, after]
  rw [htexto, simple_of_words (p := ("awk".toList, bare "awk".toList)) e (by decide)
    (isWord_field hawk.isField) ?_
    .nil rfl (fun _ h ↦ absurd h List.not_mem_nil)]
  · simp only [List.map_cons, List.map_nil, value_bare, value_quoted]
    rfl
  · simp only [List.forall_mem_cons]
    exact ⟨⟨reads_quoted hprograma, varies_quoted _⟩, isWord_field harchivo.isField,
      fun _ h ↦ absurd h List.not_mem_nil⟩

theorem openers_notMem {oid : Texto} (hip : Plain ip) (hoid : Plain oid)
    (harchivo : Plain archivo) :
    ∀ x ∈ openers, x ∉ after ([ip, oid] ++ [['>'], archivo]) := by
  intro x hx hmem
  have hplain (s : Texto) (hs : Plain s) : x ∉ s := fun h ↦ by
    have hall : ∀ d ∈ openers, isPlain d = false := by decide
    have hxs := hs.2 x h
    rw [hall x hx] at hxs
    cases hxs
  have hsigns : ∀ d ∈ openers, d ≠ ' ' ∧ d ≠ '>' := by decide
  obtain ⟨hblank, hgreater⟩ := hsigns x hx
  have hafter : after ([ip, oid] ++ [['>'], archivo]) =
      ' ' :: (ip ++ ' ' :: (oid ++ ' ' :: '>' :: ' ' :: archivo)) := by
    simp [after]
  rw [hafter] at hmem
  simp only [List.mem_cons, List.mem_append, hplain ip hip, hplain oid hoid,
    hplain archivo harchivo, hblank, hgreater, or_self] at hmem

/-- The community is the one field that decides. -/
theorem intacto_snmpwalk_iff {oid : Texto} (hversion : Plain version) (hip : Plain ip)
    (hoid : Plain oid) (harchivo : Plain archivo) :
    Intacto imprime (.orden (.snmpwalk version comunidad ip oid archivo)) ↔ isField comunidad := by
  have hsnmpwalk : Plain "snmpwalk".toList := ⟨by decide, by decide⟩
  have hv : Plain "-v".toList := ⟨by decide, by decide⟩
  have hc : Plain "-c".toList := ⟨by decide, by decide⟩
  have htexto : (Comando.orden (.snmpwalk version comunidad ip oid archivo)).texto imprime =
      "snmpwalk".toList ++
        after (["-v".toList, version, "-c".toList] ++ comunidad ::
          ([ip, oid] ++ [['>'], archivo])) := by
    have htexto : (Comando.orden (.snmpwalk version comunidad ip oid archivo)).texto imprime =
        "snmpwalk -v ".toList ++
          (version ++ (" -c ".toList ++
            (comunidad ++ ' ' :: (ip ++ ' ' :: (oid ++ (" > ".toList ++ archivo)))))) := rfl
    simp [htexto, after]
  have hbefore : ∀ t ∈ ["-v".toList, version, "-c".toList], isField t := by
    simp only [List.forall_mem_cons]
    exact ⟨hv.isField, hversion.isField, hc.isField, fun _ h ↦ absurd h List.not_mem_nil⟩
  have hbehind : ∀ t ∈ [ip, oid], isField t := by
    simp only [List.forall_mem_cons]
    exact ⟨hip.isField, hoid.isField, fun _ h ↦ absurd h List.not_mem_nil⟩
  have hintencion : intencion imprime (.orden (.snmpwalk version comunidad ip oid archivo)) =
      ⟨"snmpwalk".toList :: (["-v".toList, version, "-c".toList] ++ comunidad :: [ip, oid]),
      [archivo]⟩ := rfl
  have hopeners := openers_notMem hip hoid harchivo
  have hname : isName (bare "snmpwalk".toList) := by decide
  rw [Intacto, htexto, hintencion]
  generalize "snmpwalk".toList = w at hsnmpwalk hname ⊢
  generalize ["-v".toList, version, "-c".toList] = ws at hbefore ⊢
  generalize [ip, oid] = us at hbehind hopeners ⊢
  constructor
  · intro h
    exact isField_of_simple hsnmpwalk.isField hbefore hbehind harchivo.isField hopeners h
  · intro h e
    have hwords : ∀ t ∈ ws ++ comunidad :: us, isField t :=
      List.forall_mem_append.mpr ⟨hbefore, List.forall_mem_cons.mpr ⟨h, hbehind⟩⟩
    have hsimple := simple_of_output e hname hsnmpwalk.isField hwords harchivo.isField
    rwa [List.append_assoc, List.cons_append] at hsimple

end Reading

section Commands

variable {x : FilaDispositivo}

theorem intacto_lectura (imprime : ℚ → Impreso) (r : Resultado) (objetos : List Objeto)
    {archivo : Texto} (harchivo : Plain archivo) :
    ∀ c ∈ (if r.estado = 0 then (objetos.map fun o ↦
      Comando.awk o archivo) ++ [.orden (.rm archivo)] else []), Intacto imprime c := by
  split_ifs
  · rw [List.forall_mem_append, List.forall_mem_map, List.forall_mem_singleton]
    exact ⟨fun o _ ↦ intacto_awk imprime o harchivo, intacto_rm imprime harchivo⟩
  · exact fun c hc ↦ absurd hc List.not_mem_nil

theorem plain_oid2021 : Plain "1.3.6.1.4.1.2021".toList := ⟨by decide, by decide⟩

theorem plain_oid2620 : Plain "1.3.6.1.4.1.2620".toList := ⟨by decide, by decide⟩

theorem isField_of_intactos (hx : Guardada x) (hv : Vigilada x)
    (h : ∀ imprime s, ∀ c ∈ mandados s x, Intacto imprime c) : isField x.comunidadSNMP.texto := by
  obtain ⟨ip, msk, hvalida, hdir⟩ := hx
  have hmandados (s : Sondeo) : mandados s x = comandos s (fila x).dispositivo := if_pos hv
  simp only [hmandados] at h
  have hwalk := h (fun _ ↦ ⟨false, 0, [], none⟩) ⟨⟨0, []⟩, ⟨0, []⟩, ⟨0, []⟩⟩ _
    (List.mem_cons_of_mem _ List.mem_cons_self)
  rw [ipDe_fila hvalida hdir,
    intacto_snmpwalk_iff _ (plain_version x) (plain_ip hvalida) plain_oid2021
    (plain_archivo hvalida (Or.inl rfl))] at hwalk
  exact hwalk

/-- The commands of a stored row are what is meant, whatever the probes give and
whatever stands around, exactly when the row is not selected or its community is
a word of the shell. -/
theorem intactos_iff (hx : Guardada x) :
    (∀ imprime s, ∀ c ∈ mandados s x, Intacto imprime c) ↔
      (Vigilada x → isField x.comunidadSNMP.texto) := by
  constructor
  · intro h hv
    exact isField_of_intactos hx hv h
  · intro h imprime s
    obtain ⟨ip, msk, hvalida, hdir⟩ := hx
    unfold mandados
    split_ifs with hv
    · have hip := plain_ip hvalida
      have hdireccion : Plain x.direccionIP.texto := hdir ▸ plain_direccion hvalida
      have hhealth : Plain (snmp_health ip) := plain_archivo hvalida (Or.inl rfl)
      have hsensors : Plain (snmp_sensors ip) := plain_archivo hvalida (Or.inr rfl)
      have hwalk {oid archivo : Texto} (hoid : Plain oid) (harchivo : Plain archivo) :
          Intacto imprime (.orden
            (.snmpwalk (version (fila x).dispositivo) x.comunidadSNMP.texto ip oid archivo)) :=
        (intacto_snmpwalk_iff imprime (plain_version x) hip hoid harchivo).mpr (h hv)
      dsimp only [comandos]
      simp only [List.forall_mem_cons, List.forall_mem_append, ipDe_fila hvalida hdir]
      exact ⟨intacto_ping imprime hip, hwalk plain_oid2021 hhealth, hwalk plain_oid2620 hsensors,
        intacto_lectura imprime _ _ hhealth, intacto_lectura imprime _ _ hsensors,
        intacto_upRRD imprime hdireccion _ _ _ _ _ _, intacto_predicciones imprime hdireccion,
        fun _ hc ↦ absurd hc List.not_mem_nil⟩
    · exact fun c hc ↦ absurd hc List.not_mem_nil

end Commands

section Examples

open Baselines Lookups

theorem guardada_equipo : Guardada filaEquipo :=
  guardada_of_mem alcanzable_registrado filaEquipo_mem

theorem intactos_equipo : Guardada filaEquipo ∧
    ((∀ imprime s, ∀ c ∈ mandados s filaEquipo, Intacto imprime c) ↔
      (Vigilada filaEquipo → isField "public".toList)) :=
  ⟨guardada_equipo, intactos_iff guardada_equipo⟩

def conBlanco : Dispositivo.Argumentos := { equipo with comSNMP := some "mi red".toList }

@[irreducible]
def registradoConBlanco : BD := tras reloj (.dispositivo conBlanco .insertar) BD.vacia

def filaConBlanco : FilaDispositivo :=
  { filaEquipo with comunidadSNMP := varcharDe "mi red" (by decide) }

theorem alcanzable_conBlanco : Alcanzable registradoConBlanco := by
  unfold registradoConBlanco
  exact Alcanzable.vacia.tras reloj (by decide)

theorem filaConBlanco_mem : filaConBlanco ∈ registradoConBlanco.dispositivo := by decide +kernel

/-- `snmpwalk -v 2c -c mi red 10.0.0.1 ...` -/
theorem not_intactos : ¬ ∀ bd, Alcanzable bd →
    ∀ x ∈ bd.dispositivo, ∀ imprime s, ∀ c ∈ mandados s x, Intacto imprime c := by
  intro h
  have hfield :=
    isField_of_intactos (guardada_of_mem alcanzable_conBlanco filaConBlanco_mem) (by decide)
    (h registradoConBlanco alcanzable_conBlanco filaConBlanco filaConBlanco_mem)
  exact absurd hfield (by decide)

end Examples

end ServiciosRed.Commands
