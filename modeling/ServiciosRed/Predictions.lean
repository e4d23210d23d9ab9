import ServiciosRed.Domains

namespace ServiciosRed.Predictions

open Text Php Filters Regex MySQL Schema Calendar Statements Server Binding Fields Requests Domains

section Expresiones

variable {n : ℕ} {u s : Texto}

theorem rests_seq (r t : Regex) (S : List Texto) : (seq r t).rests S = t.rests (r.rests S) := rfl

theorem rests_caracter (c : Char) (s : Texto) : (char (· = c)).rests [c :: s] = [s] := by
  simp [rests]

theorem rests_digits (hlength : u.length = n) (h : ∀ c ∈ u, c.isDigit) :
    (rep n digit).rests [u ++ s] = [s] := by
  rw [← hlength]
  exact rests_rep_char h

theorem rests_padded (h : n < 100) : (rep 2 digit).rests [padded 2 n ++ s] = [s] :=
  rests_digits (length_padded (by omega) h) fun _ ↦ isDigit_of_mem_padded

theorem rests_fecha (hlength : u.length = 4) (h : ∀ c ∈ u, c.isDigit) {m d : ℕ} (hm : m < 100)
    (hd : d < 100) :
    expresionRegularFecha.rests [u ++ '-' :: (padded 2 m ++ '-' :: (padded 2 d ++ s))] = [s] := by
  simp only [expresionRegularFecha, rests_seq, rests_digits hlength h, rests_caracter,
    rests_padded hm, rests_padded hd]

theorem rests_hora {h m s : ℕ} (hh : h < 100) (hm : m < 100) (hs : s < 100) (t : Texto) :
    (seq (char (· = ' '))
      (seq (rep 2 digit) (seq (char (· = ':')) (seq (rep 2 digit) (seq (char (· = ':'))
      (rep 2 digit)))))).rests [' ' ::
        (padded 2 h ++ ':' :: (padded 2 m ++ ':' :: (padded 2 s ++ t)))] = [t] := by
  simp only [rests_seq, rests_caracter, rests_padded hh, rests_padded hm, rests_padded hs]

theorem exists_yearText (y : ℤ) :
    ∃ v u, yearText y = v ++ u ∧ u.length = 4 ∧ ∀ c ∈ u, c.isDigit := by
  have hlength : 4 ≤ (padded 4 y.natAbs).length := by
    rw [padded, List.length_append, List.length_replicate]
    omega
  refine ⟨(if y < 0 then ['-'] else []) ++
    (padded 4 y.natAbs).take ((padded 4 y.natAbs).length - 4),
    (padded 4 y.natAbs).drop ((padded 4 y.natAbs).length - 4), ?_, ?_, ?_⟩
  · rw [List.append_assoc, List.take_append_drop, yearText]
  · rw [List.length_drop]
    omega
  · intro c hc
    exact isDigit_of_mem_padded (List.mem_of_mem_drop hc)

theorem matchesIn_of_suffix {r : Regex} (h : r.rests [u] ≠ []) (hsuffix : u <:+ s) :
    r.matchesIn s := by
  refine List.any_eq_true.mpr ⟨u, (List.mem_tails u s).mpr hsuffix, ?_⟩
  simpa [List.isEmpty_iff] using h

theorem matchesIn_dateYmdHis (t : ℤ) : expresionRegularTimeStamp.matchesIn (dateYmdHis t) := by
  obtain ⟨v, u, hyear, hlength, hdigits⟩ := exists_yearText (ofDayNumber (t / 86400)).year
  have hvalid := (ofDayNumber_spec (t / 86400)).1
  have hmonth : (ofDayNumber (t / 86400)).month < 100 := by
    have := hvalid.2.1
    omega
  have hclock : (t % 86400).toNat < 86400 := by omega
  have htext : dateYmdHis t = v ++ (u ++ '-' :: (padded 2 (ofDayNumber (t / 86400)).month ++
      '-' ::
        (padded 2 (ofDayNumber (t / 86400)).day ++ ' ' ::
          (padded 2 ((t % 86400).toNat / 3600) ++ ':' :: (padded 2 ((t % 86400).toNat / 60 % 60) ++
            ':' :: (padded 2 ((t % 86400).toNat % 60) ++ [])))))) := by
    simp only [dateYmdHis, dateYmd, dateText, clockText, hyear, List.append_assoc, List.cons_append,
      List.append_nil]
  rw [htext]
  refine matchesIn_of_suffix ?_ (List.suffix_append v _)
  rw [expresionRegularTimeStamp, rests_seq, rests_fecha hlength hdigits hmonth hvalid.day_lt,
    rests_hora (by omega) (by omega) (by omega)]
  exact List.cons_ne_nil _ _

end Expresiones

/-- Both dates of an event pass their tests and are timestamps, and the prediction is not
before the event. -/
structure Fechado (b : BitacoraSucesos) : Prop where
  suceso : expresionRegularTimeStamp.matchesIn (strval b.fechaSuceso)
  prediccion : expresionRegularTimeStamp.matchesIn (strval b.fechaPrediccion)
  marcas : ∃ s p, marca (.text (strval b.fechaSuceso)) = some s ∧
    marca (.text (strval b.fechaPrediccion)) = some p ∧ s.segundo ≤ p.segundo

section Dates

variable {ahora : Reloj} {a : BitacoraSucesos.Argumentos}

theorem toMarca_eq_some_iff {t : ℤ} {m : Marca} : toMarca t = some m ↔ m.segundo = t := by
  unfold toMarca
  split_ifs with h
  · constructor
    · rintro he
      rw [← Option.some.inj he]
    · rintro rfl
      rfl
  · refine iff_of_false ?_ ?_
    · intro he
      cases he
    · rintro rfl
      exact h m.rango

/-- The prediction is at the anticipated number of units from the event. -/
theorem fechaPrediccion_eq (hvalor : validInt a.valorAntic)
    (hsmall : enSmallint (intval (strval a.valorAntic)))
    (htipo : inArray a.tipoValorAntic tiposValorMonitorizacion) :
    (BitacoraSucesos.construct ahora .insertar a).fechaPrediccion =
      some (dateYmdHis (ahora.segundo + intval (strval a.valorAntic) *
        segundos a.tipoValorAntic)) := by
  obtain ⟨z, hz, -⟩ := validInt_cases hvalor
  rw [intval_of_filterValidateInt hz] at hsmall ⊢
  exact congrArg (Option.map dateYmdHis) (despues_eq hz hsmall htipo)

theorem segundos_pos (htipo : inArray a.tipoValorAntic tiposValorMonitorizacion) :
    0 < segundos a.tipoValorAntic := by
  obtain ⟨l, hl, hpos, -⟩ := factores_of_inArray htipo
  rw [segundos, hl]
  exact List.prod_pos hpos

theorem fechado_iff_segundos (hvalor : validInt a.valorAntic)
    (hsmall : enSmallint (intval (strval a.valorAntic)))
    (htipo : inArray a.tipoValorAntic tiposValorMonitorizacion) :
    Fechado (BitacoraSucesos.construct ahora .insertar a) ↔
      0 ≤ intval (strval a.valorAntic) * segundos a.tipoValorAntic ∧
        intval (strval a.valorAntic) * segundos a.tipoValorAntic ≤ 2147483647 - ahora.segundo := by
  have hsuceso : (BitacoraSucesos.construct ahora .insertar a).fechaSuceso =
    some (dateYmdHis ahora.segundo) := rfl
  have hprediccion : (BitacoraSucesos.construct ahora .insertar a).fechaPrediccion = _ :=
    fechaPrediccion_eq hvalor hsmall htipo
  have hahora := ahora.rango
  constructor
  · intro h
    obtain ⟨s, p, hs, hp, hle⟩ := h.marcas
    rw [hsuceso, strval, Option.getD_some, marca_dateYmdHis, toMarca_eq_some_iff] at hs
    rw [hprediccion, strval, Option.getD_some, marca_dateYmdHis, toMarca_eq_some_iff] at hp
    have hrango := p.rango
    constructor <;> omega
  · rintro ⟨hlow, hhigh⟩
    refine ⟨?_, ?_, ⟨ahora.segundo, by omega⟩,
      ⟨ahora.segundo + intval (strval a.valorAntic) * segundos a.tipoValorAntic, by omega⟩,
      ?_, ?_, ?_⟩
    · rw [hsuceso]
      exact matchesIn_dateYmdHis _
    · rw [hprediccion]
      exact matchesIn_dateYmdHis _
    · rw [hsuceso, strval, Option.getD_some, marca_dateYmdHis, toMarca_eq_some_iff]
    · rw [hprediccion, strval, Option.getD_some, marca_dateYmdHis, toMarca_eq_some_iff]
    · change ahora.segundo ≤ ahora.segundo + _
      omega

/-- The dates are in order and can be stored exactly when the anticipation is positive and no more
units than fit between the event and the end of the timestamps. -/
theorem fechado_iff (ahora : Reloj) (a : BitacoraSucesos.Argumentos)
    (hvalor : validInt a.valorAntic) (hsmall : enSmallint (intval (strval a.valorAntic)))
    (htipo : inArray a.tipoValorAntic tiposValorMonitorizacion) :
    Fechado (BitacoraSucesos.construct ahora .insertar a) ↔ 0 < intval (strval a.valorAntic) ∧
      intval (strval a.valorAntic) ≤ (2147483647 - ahora.segundo) / segundos a.tipoValorAntic := by
  have hpos := segundos_pos htipo
  have hne : intval (strval a.valorAntic) ≠ 0 := by
    obtain ⟨z, hz, hne⟩ := validInt_cases hvalor
    rwa [intval_of_filterValidateInt hz]
  rw [fechado_iff_segundos hvalor hsmall htipo, Int.le_ediv_iff_mul_le hpos,
    mul_nonneg_iff_of_pos_right hpos]
  refine and_congr_left fun _ ↦ ?_
  omega

end Dates

section Ejemplo

def suceso (valor tipo : String) : BitacoraSucesos.Argumentos :=
  ⟨some "10.0.0.1/24".toList, some "max_cpu".toList, some valor.toList,
    some tipo.toList, none, none, some "95".toList⟩

theorem fechado_hora : Fechado (BitacoraSucesos.construct reloj .insertar (suceso "5" "hor")) :=
  (fechado_iff reloj (suceso "5" "hor") (by decide) (by decide) (by decide)).2 (by decide)

/-- A month of anticipation, 32767 times, leads out of the timestamps. -/
theorem not_fechado : ¬ ∀ (ahora : Reloj) (a : BitacoraSucesos.Argumentos), ahora.segundo <
    1893456000 → validInt a.valorAntic → enSmallint (intval (strval a.valorAntic)) →
    inArray a.tipoValorAntic tiposValorMonitorizacion →
    esOpcion a.tipoValorAntic (TipoValorAnticipacion.miembros.map Prod.fst) →
      Fechado (BitacoraSucesos.construct ahora .insertar a) := by
  intro h
  have hfechado :=
    h reloj (suceso "32767" "mes") (by decide) (by decide) (by decide) (by decide) (by decide)
  rw [fechado_iff_segundos (by decide) (by decide) (by decide)] at hfechado
  exact absurd hfechado.2 (by decide)

end Ejemplo

end ServiciosRed.Predictions
