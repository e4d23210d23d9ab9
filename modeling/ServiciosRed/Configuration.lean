import ServiciosRed.Predictions
import ServiciosRed.Addresses
import ServiciosRed.Python

namespace ServiciosRed.Configuration

open Text Php Filters Schema Calendar Python Binding Fields Requests Domains Addresses Predictions

section Numbers

variable {n : ℕ} {z : ℤ} {s : Texto}

theorem head?_decimal (h : n ≠ 0) : (decimal n).head? ≠ some '0' := by
  induction n using Nat.strongRecOn with
  | ind n ih =>
    rcases Nat.lt_or_ge n 10 with hlt | hge
    · have hall : ∀ m < 10, m ≠ 0 → some m.digitChar ≠ some '0' := by decide
      rw [decimal, Nat.toDigits_of_lt_base hlt, List.head?_cons]
      exact hall n hlt h
    · have hrest := ih (n / 10) (by omega) (by omega)
      rw [decimal, Nat.toDigits_of_base_le (by omega) hge,
        List.head?_append_of_ne_nil _ Nat.toDigits_ne_nil]
      exact hrest

theorem trimmed_eq (h : ∀ c ∈ s, isBlank c = false) : trimmed s = s := by
  have hreverse : ∀ c ∈ s.reverse, isBlank c = false := by
    intro c hc
    exact h c (List.mem_reverse.1 hc)
  rw [trimmed, dropWhile_of_forall h, dropWhile_of_forall hreverse, List.reverse_reverse]

theorem isBlank_of_mem_intText {c : Char} (h : c ∈ intText z) : isBlank c = false := by
  rw [intText_eq, List.append_nil] at h
  rcases List.mem_append.1 h with h | h
  · unfold signText at h
    split_ifs at h
    · rw [List.mem_singleton.1 h]
      rfl
    · cases h
  · exact of_isDigit (isDigit_of_mem_decimal h) (by decide)

theorem filterValidateInt_intText (h : longMin ≤ z ∧ z ≤ longMax) :
    filterValidateInt (intText z) = some z := by
  have hsign : readSign (trimmed (intText z)) = (decide (z < 0), decimal z.natAbs) := by
    rw [trimmed_eq fun c ↦ isBlank_of_mem_intText, intText_eq, readSign_signText, List.append_nil]
  have hvalue : signed (decide (z < 0)) z.natAbs = z := by
    by_cases hz : z < 0
    · simp only [signed, hz, decide_true, if_true]
      omega
    · simp only [signed, hz, decide_false, Bool.false_eq_true, if_false]
      omega
  simp only [filterValidateInt, hsign, valueOf_decimal, hvalue]
  by_cases hzero : z = 0
  · rw [hzero, if_pos (by decide)]
  · have hne : decimal z.natAbs ≠ ['0'] := by
      intro he
      have hhead := head?_decimal (n := z.natAbs) (by omega)
      rw [he] at hhead
      exact hhead rfl
    rw [if_neg hne, if_pos]
    refine ⟨decimal_ne_nil _, ?_, head?_decimal (by omega), h⟩
    rw [List.all_eq_true]
    intro c
    exact isDigit_of_mem_decimal

theorem validInt_intText (h : longMin ≤ z ∧ z ≤ longMax) : validInt (some (intText z)) ↔ z ≠ 0 := by
  rw [validInt, strval, Option.getD_some, filterValidateInt_intText h]
  simp

end Numbers

section Address

variable {n m a b c d : ℕ}

theorem isOctet_decimal (h : n ≤ 255) : isOctet (decimal n) := by
  have hlength : (decimal n).length ≤ 3 :=
    (Nat.length_toDigits_le_iff (by omega) (by omega)).mpr (by omega)
  have hdigits : (decimal n).all Char.isDigit := by
    rw [List.all_eq_true]
    intro c
    exact isDigit_of_mem_decimal
  have hzero : (decimal n).head? ≠ some '0' ∨ (decimal n).length = 1 := by
    by_cases hn : n = 0
    · rw [hn]
      exact Or.inr rfl
    · exact Or.inl (head?_decimal hn)
  simp only [isOctet, Bool.and_eq_true, Bool.or_eq_true, decide_eq_true_eq, valueOf_decimal]
  exact ⟨⟨⟨⟨decimal_ne_nil n, hdigits⟩, hlength⟩, h⟩, hzero⟩

def ipv4 (a b c d : ℕ) : Texto :=
  decimal a ++ '.' :: (decimal b ++ '.' :: (decimal c ++ '.' :: decimal d))

theorem notMem_ipv4 {e : Char} (h : e.isDigit = false) (hdot : e ≠ '.') : e ∉ ipv4 a b c d := by
  simp only [ipv4, List.mem_append, List.mem_cons, not_or]
  exact ⟨notMem_decimal h a, hdot, notMem_decimal h b, hdot, notMem_decimal h c, hdot,
    notMem_decimal h d⟩

theorem validIp_ipv4 (ha : a ≤ 255) (hb : b ≤ 255) (hc : c ≤ 255) (hd : d ≤ 255) :
    validIp (ipv4 a b c d) := by
  have hcolon : ':' ∉ ipv4 a b c d := notMem_ipv4 rfl (by decide)
  have hparts : explode '.' (ipv4 a b c d) = [decimal a, decimal b, decimal c, decimal d] := by
    have hdot (n : ℕ) : '.' ∉ decimal n := notMem_decimal rfl n
    rw [ipv4, explode_append (hdot a), explode_append (hdot b), explode_append (hdot c),
      explode_of_notMem (hdot d)]
  rw [validIp, if_neg hcolon, isIPv4, hparts]
  simp [isOctet_decimal, ha, hb, hc, hd]

theorem direccionValida_iff (ha : a ≤ 255) (hb : b ≤ 255) (hc : c ≤ 255) (hd : d ≤ 255)
    (hm : m ≤ 32) :
    direccionValida (ipDe (some (ipv4 a b c d ++ '/' :: decimal m)))
      (mskDe (some (ipv4 a b c d ++ '/' :: decimal m))) ↔ m ≠ 0 := by
  have hslash : '/' ∉ ipv4 a b c d := notMem_ipv4 rfl (by decide)
  have hmsk : mskDe (some (ipv4 a b c d ++ '/' :: decimal m)) = m := by
    rw [mskDe_append hslash (notMem_decimal rfl m), intval_decimal, longMax]
    omega
  have hlong : longMin ≤ (m : ℤ) ∧ (m : ℤ) ≤ longMax := by
    simp only [longMin, longMax]
    omega
  rw [ipDe_append hslash, hmsk, direccionValida, validIp_ipv4 ha hb hc hd, Bool.true_and,
    Bool.and_eq_true, Bool.and_eq_true, validInt_intText hlong, decide_eq_true_eq,
    decide_eq_true_eq]
  omega

end Address

section Requests

def restriccion (dirIP : Texto) (campo : String) (valor : Smallint) (tipo alerta : String) :
    Restricciones.Argumentos :=
  ⟨some dirIP, some campo.toList, some (intText valor.valor), some tipo.toList, some alerta.toList⟩

def evento (dirIP : Texto) (campo : String) (valor : Smallint) (tipo : String)
    (valorCapturado : ℤ) :
    BitacoraSucesos.Argumentos :=
  ⟨some dirIP, some campo.toList, some (intText valor.valor), some tipo.toList, none, none,
    some (intText valorCapturado)⟩

variable {campo tipo alerta : String}

theorem inArray_campo_iff (h : campo ∈ CampoMonitorizacion.miembros.map Prod.fst) :
    inArray (some campo.toList) camposMonitorizacion ↔ campo ≠ "ping_promedio" := by
  have hall : ∀ c ∈ CampoMonitorizacion.miembros.map Prod.fst,
      inArray (some c.toList) camposMonitorizacion = true ↔ c ≠ "ping_promedio" := by
    decide
  exact hall campo h

theorem inArray_of_mem {t : String} {l : List String} (h : t ∈ l) : inArray (some t.toList) l := by
  refine List.any_eq_true.2 ⟨t, h, ?_⟩
  rw [looselyEqual, decide_eq_true rfl, Bool.true_or]

theorem inArray_tipo (h : tipo ∈ TipoValorAnticipacion.miembros.map Prod.fst) :
    inArray (some tipo.toList) tiposValorMonitorizacion := by
  have hall : ∀ t ∈ TipoValorAnticipacion.miembros.map Prod.fst, t ∈
    tiposValorMonitorizacion := by decide
  exact inArray_of_mem (hall tipo h)

theorem inArray_alerta (h : alerta ∈ Bandera.miembros.map Prod.fst) :
    inArray (some alerta.toList) opcionesBandera := by
  have hall : ∀ f ∈ Bandera.miembros.map Prod.fst, f ∈ opcionesBandera := by decide
  exact inArray_of_mem (hall alerta h)

theorem longitud_smallint (z : Smallint) : longMin ≤ z.valor ∧ z.valor ≤ longMax := by
  have hrango := z.rango
  simp only [longMin, longMax]
  omega

theorem longitud_intText {w : ℤ} (h : (intText w).length ≤ 4) : longMin ≤ w ∧ w ≤ longMax := by
  have hlength : (decimal w.natAbs).length ≤ 4 := by
    rw [intText_eq, List.append_nil, List.length_append] at h
    omega
  have habs := (Nat.length_toDigits_le_iff (by omega) (by omega)).mp hlength
  simp only [longMin, longMax]
  omega

theorem restriccion_aceptada_iff {a b c d m : ℕ} (ha : a ≤ 255) (hb : b ≤ 255) (hc : c ≤ 255)
    (hd : d ≤ 255) (hm : m ≤ 32) (hcampo : campo ∈ CampoMonitorizacion.miembros.map Prod.fst)
    (htipo : tipo ∈ TipoValorAnticipacion.miembros.map Prod.fst)
    (halerta : alerta ∈ Bandera.miembros.map Prod.fst)
    (z : Smallint) (ahora : Reloj) :
    (Peticion.restricciones (restriccion (ipv4 a b c d ++ '/' :: decimal m) campo z tipo alerta)
      .insertar).aceptada ahora ↔ m ≠ 0 ∧ campo ≠ "ping_promedio" ∧ z.valor ≠ 0 := by
  rw [← direccionValida_iff ha hb hc hd hm, ← inArray_campo_iff hcampo,
    ← validInt_intText (longitud_smallint z)]
  refine Restricciones.validarCamposRestricciones_iff.trans ?_
  constructor
  · rintro ⟨h, -⟩
    exact ⟨h.direccion, h.campoMonitorizacion, h.valorAnticipacion⟩
  · rintro ⟨hdir, hfield, hvalor⟩
    exact ⟨⟨hdir, hfield, hvalor, inArray_tipo htipo⟩, inArray_alerta halerta⟩

theorem evento_aceptado_iff {a b c d m : ℕ} (ha : a ≤ 255) (hb : b ≤ 255) (hc : c ≤ 255)
    (hd : d ≤ 255) (hm : m ≤ 32) (hcampo : campo ∈ CampoMonitorizacion.miembros.map Prod.fst)
    (htipo : tipo ∈ TipoValorAnticipacion.miembros.map Prod.fst) (z : Smallint) {w : ℤ}
    (hw : (intText w).length ≤ 4) (ahora : Reloj) :
    (Peticion.bitacoraSucesos (evento (ipv4 a b c d ++ '/' :: decimal m) campo z tipo w)
      .insertar).aceptada ahora ↔ m ≠ 0 ∧ campo ≠ "ping_promedio" ∧ z.valor ≠ 0 ∧ w ≠ 0 := by
  have hlong := longitud_intText hw
  rw [← direccionValida_iff ha hb hc hd hm, ← inArray_campo_iff hcampo,
    ← validInt_intText (longitud_smallint z), ← validInt_intText hlong]
  change (BitacoraSucesos.construct ahora .insertar _).validarCamposBitacoraSucesos .insertar ↔ _
  rw [BitacoraSucesos.validarCamposBitacoraSucesos_iff]
  constructor
  · rintro ⟨h, hcaptura⟩
    exact ⟨h.direccion, h.campoMonitorizacion, h.valorAnticipacion, hcaptura⟩
  · rintro ⟨hdir, hfield, hvalor, hcaptura⟩
    refine ⟨⟨hdir, hfield, hvalor, inArray_tipo htipo, matchesIn_dateYmdHis _, ?_⟩, hcaptura⟩
    have hsmall : enSmallint (intval (intText z.valor)) := by
      rw [intval_of_filterValidateInt (filterValidateInt_intText (longitud_smallint z))]
      exact z.rango
    have hfecha : (BitacoraSucesos.construct ahora .insertar
        (evento (ipv4 a b c d ++ '/' :: decimal m) campo z tipo w)).fechaPrediccion = _ :=
      fechaPrediccion_eq hvalor hsmall (inArray_tipo htipo)
    rw [hfecha]
    exact matchesIn_dateYmdHis _

/-- What the tables can hold is accepted, except for the mask 0, the field `ping_promedio`, the
anticipation 0 and the captured value 0. -/
theorem configurable_iff (a b c d m : ℕ) (campo tipo alerta : String) (ha : a ≤ 255) (hb : b ≤ 255)
    (hc : c ≤ 255) (hd : d ≤ 255) (hm : m ≤ 32)
    (hcampo : campo ∈ CampoMonitorizacion.miembros.map Prod.fst)
    (htipo : tipo ∈ TipoValorAnticipacion.miembros.map Prod.fst)
    (halerta : alerta ∈ Bandera.miembros.map Prod.fst)
    (z : Smallint) (w : ℤ) (hw : (intText w).length ≤ 4) (ahora : Reloj) :
    ((Peticion.restricciones (restriccion (ipv4 a b c d ++ '/' :: decimal m) campo z tipo alerta)
      .insertar).aceptada ahora ↔ m ≠ 0 ∧ campo ≠ "ping_promedio" ∧ z.valor ≠ 0) ∧
    ((Peticion.bitacoraSucesos (evento (ipv4 a b c d ++ '/' :: decimal m) campo z tipo w)
      .insertar).aceptada ahora ↔ m ≠ 0 ∧ campo ≠ "ping_promedio" ∧ z.valor ≠ 0 ∧ w ≠ 0) :=
  ⟨restriccion_aceptada_iff ha hb hc hd hm hcampo htipo halerta z ahora,
    evento_aceptado_iff ha hb hc hd hm hcampo htipo z hw ahora⟩

end Requests

section Ejemplo

theorem configurable_volt :
    (Peticion.restricciones (restriccion (ipv4 10 0 0 1 ++ '/' :: decimal 24) "max_volt"
      ⟨5, by decide⟩ "sem" "0")
      .insertar).aceptada reloj ∧
    (Peticion.bitacoraSucesos (evento (ipv4 10 0 0 1 ++ '/' :: decimal 24) "max_volt" ⟨5, by decide⟩
      "sem" (-12))
      .insertar).aceptada reloj := by
  have h := configurable_iff 10 0 0 1 24 "max_volt" "sem" "0" (by omega) (by omega) (by omega)
    (by omega) (by omega)
    (by decide) (by decide) (by decide) ⟨5, by decide⟩ (-12) (by decide) reloj
  exact ⟨h.1.2 (by decide), h.2.2 (by decide)⟩

/-- A limit for the ping can be stored and not asked for. -/
theorem not_configurable :
    ¬ ∀ (a b c d m : ℕ) (campo tipo alerta : String) (z : Smallint) (w : ℤ) (ahora : Reloj), a ≤
      255 → b ≤ 255 → c ≤ 255 → d ≤ 255 → m ≤ 32 →
      campo ∈ CampoMonitorizacion.miembros.map Prod.fst →
    tipo ∈ TipoValorAnticipacion.miembros.map Prod.fst → alerta ∈ Bandera.miembros.map Prod.fst →
    0 ≤ z.valor →
    (intText w).length ≤ 4 →
      (Peticion.restricciones (restriccion (ipv4 a b c d ++ '/' :: decimal m) campo z tipo alerta)
        .insertar).aceptada ahora ∧
      (Peticion.bitacoraSucesos (evento (ipv4 a b c d ++ '/' :: decimal m) campo z tipo w)
        .insertar).aceptada ahora := by
  intro h
  obtain ⟨haceptada, -⟩ :=
    h 10 0 0 1 24 "ping_promedio" "min" "1" ⟨5, by decide⟩ 95 reloj (by omega) (by omega)
    (by omega) (by omega) (by omega) (by decide) (by decide) (by decide) (by decide) (by decide)
  rw [restriccion_aceptada_iff (by omega) (by omega) (by omega) (by omega) (by omega)
    (by decide) (by decide)
    (by decide)] at haceptada
  exact haceptada.2.1 rfl

end Ejemplo

end ServiciosRed.Configuration
