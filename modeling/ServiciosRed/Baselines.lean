import ServiciosRed.Hosts
import ServiciosRed.Programs

namespace ServiciosRed.Baselines

open Text Php Filters Python Rrd Hosts Schema Calendar Fields Server Binding Programs

section Columns

theorem pos_of_positive {v : Valor} {z : ℤ} (h : positive v)
    (hz : filterValidateInt (strval v) = some z) :
    0 ≤ z := by
  obtain ⟨a, b, hsplit, ha, -⟩ := Statements.trimmed_split (strval v)
  have hvalue : z =
      signed (readSign (trimmed (strval v))).1 (valueOf (readSign (trimmed (strval v))).2) := by
    simp only [filterValidateInt] at hz
    split_ifs at hz with hzero hrest
    · rw [hzero, ← Option.some.inj hz]
      cases (readSign (trimmed (strval v))).1 <;> rfl
    · exact (Option.some.inj hz).symm
  cases hsign : (readSign (trimmed (strval v))).1 with
  | false =>
    rw [hvalue, hsign]
    exact Int.natCast_nonneg _
  | true =>
    obtain ⟨t, ht⟩ : ∃ t, trimmed (strval v) = '-' :: t := by
      unfold readSign at hsign
      split at hsign
      · rename_i t ht
        exact ⟨t, ht⟩
      · cases hsign
      · cases hsign
    have hdrop : (strval v).dropWhile isSpace = '-' :: (t ++ b) := by
      rw [hsplit, ht, List.append_assoc, List.dropWhile_append_of_pos ha]
      rfl
    unfold positive at h
    rw [hdrop] at h
    simp only [readNumeral, readSign] at h
    split at h
    · rename_i x rest hx
      split_ifs at hx
      rw [Option.some.injEq, Prod.mk.injEq] at hx
      rw [← hx.1] at h
      cases h
    · cases h

theorem fit_intText {n : ℕ} {z : ℤ} {c : Varchar n} (h : fit n (intText z) = some c) :
    c.texto = intText z := by
  unfold fit at h
  split_ifs at h with hblank
  have hdrop : (intText z).drop n = [] := by
    rw [List.eq_nil_iff_forall_not_mem]
    intro d hd
    have hspace : d = ' ' := of_decide_eq_true (List.all_eq_true.1 hblank d hd)
    have hmem := List.mem_of_mem_drop hd
    rw [hspace, intText_eq, List.append_nil] at hmem
    rcases List.mem_append.1 hmem with hs | hs
    · unfold signText at hs
      split_ifs at hs
      · exact absurd hs (by decide)
      · cases hs
    · exact absurd (isDigit_of_mem_decimal hs) (by decide)
  cases h
  have hall := List.take_append_drop n (intText z)
  rwa [hdrop, List.append_nil] at hall

variable [MySQL.Engine]

theorem columna_entero {n : ℕ} {v : Valor} {c : Option (Varchar n)} (h : enteroONulo v)
    (hc : varchar n (numero (strval v)) = some c) :
    c.map Varchar.texto = none ∨ ∃ z : ℤ, 0 < z ∧ c.map Varchar.texto = some (intText z) := by
  simp only [enteroONulo, Bool.or_eq_true, Bool.and_eq_true, decide_eq_true_eq] at h
  rcases h with h | hnull
  · obtain ⟨z, hz, hne⟩ := Statements.validInt_cases h.2
    have hpos := pos_of_positive h.1 hz
    rw [numero_of_filterValidateInt hz] at hc
    obtain ⟨d, hd, rfl⟩ := Option.map_eq_some_iff.1 hc
    refine Or.inr ⟨z, by omega, ?_⟩
    rw [Option.map_some, fit_intText hd]
  · rw [hnull] at hc
    cases hc
    exact Or.inl rfl

end Columns

section Rows

def textos (l : LineaFila) : LineaBase (Option Texto) (Option Texto) (Option Texto) :=
  l.map (Option.map Varchar.texto) (Option.map Varchar.texto) (Option.map Varchar.texto)

def maximo (l : LineaFila) : Campo → Option Texto
  | .cpu => (textos l).max_cpu
  | .ram => (textos l).max_ram
  | .hdd => (textos l).max_hdd
  | .temp => (textos l).max_temp
  | .volt => (textos l).max_volt
  | .ping => (textos l).ping_promedio

def minimo (l : LineaFila) : Campo → Option Texto
  | .cpu => (textos l).min_cpu
  | .ram => (textos l).min_ram
  | .hdd => (textos l).min_hdd
  | .temp => (textos l).min_temp
  | .volt => (textos l).min_volt
  | .ping => (textos l).ping_promedio

def baselineDe (l : LineaFila) : Baseline := ⟨campos.map (maximo l), campos.map (minimo l)⟩

def nombreDe {α : Type} [DecidableEq α] (miembros : List (String × α)) (x : α) : Option Texto :=
  (miembros.find? fun m ↦ m.2 = x).map fun m ↦ m.1.toList

/-- The row of a device in the order of the columns of the table. -/
def registro (x : FilaDispositivo) : Registro :=
  [some x.direccionIP.texto, some (dateYmd (86400 * x.fechaRegistroHost.dia)),
    nombreDe Bandera.miembros x.monitorizacionActiva,
    nombreDe TipoDispositivo.miembros x.tipoDispositivo,
    nombreDe VersionSNMP.miembros x.versionSNMP, some x.comunidadSNMP.texto, some x.ruta.texto] ++
      (textos x.linea).toList

theorem unpack_registro (x : FilaDispositivo) (rest : List Registro) :
    unpack (registro x :: rest) = .ok (baselineDe x.linea) := rfl

def equipo : Dispositivo.Argumentos :=
  { dirIP := some "10.0.0.1/24".toList
    monitActiv := some "1".toList
    tipoDisp := some "Host".toList
    verSNMP := some "2".toList
    comSNMP := some "public".toList
    minCPU := some "10".toList
    maxCPU := some "90".toList
    avgCPU := some "50".toList
    minRAM := some "10".toList
    maxRAM := some "90".toList
    avgRAM := some "50".toList
    minHDD := some "10".toList
    maxHDD := some "90".toList
    avgHDD := some "50".toList
    minTEMP := some "20".toList
    maxTEMP := some "120".toList
    avgTEMP := some "60".toList
    minVOLT := some "1".toList
    maxVOLT := some "12".toList
    avgVOLT := some "5".toList
    ping := some "50".toList }

def altaEquipo : Requests.Peticion := .dispositivo equipo .insertar

def varcharDe {n : ℕ} (s : String) (h : s.toList.length ≤ n) : Varchar n := ⟨s.toList, h⟩

theorem public_cabe : "public".toList.length ≤ 64 := by decide

theorem noventa_cabe : "90".toList.length ≤ 3 := by decide

def filaEquipo : FilaDispositivo where
  direccionIP := varcharDe "10.0.0.1/24" (by decide)
  fechaRegistroHost := ⟨19675, by decide⟩
  monitorizacionActiva := .uno
  tipoDispositivo := .host
  versionSNMP := .v2
  comunidadSNMP := varcharDe "public" public_cabe
  ruta := varcharDe "/home/vsalmean/Redes/Hosts/10_0_0_1_24" (by decide)
  linea :=
    { min_cpu := some (varcharDe "10" (by decide))
      max_cpu := some (varcharDe "90" noventa_cabe)
      avg_cpu := some (varcharDe "50" (by decide))
      min_ram := some (varcharDe "10" (by decide))
      max_ram := some (varcharDe "90" noventa_cabe)
      avg_ram := some (varcharDe "50" (by decide))
      min_hdd := some (varcharDe "10" (by decide))
      max_hdd := some (varcharDe "90" noventa_cabe)
      avg_hdd := some (varcharDe "50" (by decide))
      min_temp := some (varcharDe "20" (by decide))
      max_temp := some (varcharDe "120" (by decide))
      avg_temp := some (varcharDe "60" (by decide))
      min_volt := some (varcharDe "1" (by decide))
      max_volt := some (varcharDe "12" (by decide))
      avg_volt := some (varcharDe "12" (by decide))
      ping_promedio := some (varcharDe "50" (by decide)) }

variable [MySQL.Engine] {ahora : Reloj} {a : Dispositivo.Argumentos} {x : FilaDispositivo}

/-- The row has the baseline of a device that the validator accepts. -/
structure Aceptada (ahora : Reloj) (a : Dispositivo.Argumentos) (x : FilaDispositivo) : Prop where
  valida : (Dispositivo.construct ahora a).validarCamposDispositivo .insertar
  linea : lineaFila (numeros (Dispositivo.construct ahora a).linea) = some x.linea

theorem Aceptada.columnas (h : Aceptada ahora a x) {c : Campo} (hc : c ≠ .ping) :
    (maximo x.linea c = none ∨ ∃ z : ℤ, 0 < z ∧ maximo x.linea c = some (intText z)) ∧
      (minimo x.linea c = none ∨ ∃ z : ℤ, 0 < z ∧ minimo x.linea c = some (intText z)) := by
  obtain ⟨hvalida, hlinea⟩ := h
  have hall := (Dispositivo.validarCamposDispositivo_iff.1 hvalida).linea
  generalize (Dispositivo.construct ahora a).linea = l at hall hlinea
  generalize x.linea = m at hlinea ⊢
  simp only [LineaBase.All, LineaBase.map, LineaBase.toList, List.forall_mem_cons] at hall
  have hmap := LineaBase.map_of_mapOption hlinea
  obtain ⟨e1, e2, -, e4, e5, -, e7, e8, -, e10, e11, -, e13, e14, -⟩ := hall
  cases c with
  | cpu =>
    exact ⟨columna_entero e2 (congrArg LineaBase.max_cpu hmap),
      columna_entero e1 (congrArg LineaBase.min_cpu hmap)⟩
  | ram =>
    exact ⟨columna_entero e5 (congrArg LineaBase.max_ram hmap),
      columna_entero e4 (congrArg LineaBase.min_ram hmap)⟩
  | hdd =>
    exact ⟨columna_entero e8 (congrArg LineaBase.max_hdd hmap),
      columna_entero e7 (congrArg LineaBase.min_hdd hmap)⟩
  | temp =>
    exact ⟨columna_entero e11 (congrArg LineaBase.max_temp hmap),
      columna_entero e10 (congrArg LineaBase.min_temp hmap)⟩
  | volt =>
    exact ⟨columna_entero e14 (congrArg LineaBase.max_volt hmap),
      columna_entero e13 (congrArg LineaBase.min_volt hmap)⟩
  | ping => exact absurd rfl hc

end Rows

theorem aceptada_equipo : Aceptada Requests.reloj equipo filaEquipo where
  valida := by decide +kernel
  linea := by decide

end ServiciosRed.Baselines
