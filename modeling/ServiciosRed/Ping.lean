import Mathlib.Algebra.BigOperators.Group.List.Basic
import ServiciosRed.Monitorizacion
import ServiciosRed.Python

namespace ServiciosRed.Ping

open Text Php Python Monitorizacion

section Numbers

structure Decimal where
  negative : Bool
  entera : ℕ
  fraccion : List (Fin 10)

namespace Decimal

def impreso (x : Decimal) : Impreso := ⟨x.negative, x.entera, x.fraccion, none⟩

def texto (x : Decimal) : Texto := x.impreso.texto

def decimales (x : Decimal) : Texto := x.fraccion.map fun d ↦ d.val.digitChar

def valor (x : Decimal) : ℚ :=
  (if x.negative then -1 else 1) * (x.entera + valueOf x.decimales / 10 ^ x.fraccion.length)

variable (x : Decimal)

theorem isDigit_decimales : ∀ c ∈ x.decimales, c.isDigit := by
  intro c hc
  obtain ⟨d, -, rfl⟩ := List.mem_map.1 hc
  have hall : ∀ d : Fin 10, d.val.digitChar.isDigit := by decide
  exact hall d

theorem texto_eq : x.texto = signText x.negative ++
    (decimal x.entera ++ x.impreso.textoFraccion) := by
  have hexponente : x.impreso.textoExponente = [] := rfl
  rw [texto, Impreso.texto, hexponente, List.append_nil]
  rfl

theorem readFraction_textoFraccion : readFraction x.impreso.textoFraccion = (x.decimales, []) := by
  unfold Impreso.textoFraccion
  split_ifs with h
  · have hfraccion : x.fraccion = [] := h
    rw [decimales, hfraccion]
    rfl
  · have hnil : ([] : Texto).takeWhile Char.isDigit = [] := rfl
    have htake := Impreso.takeWhile_digits x.isDigit_decimales hnil
    have hdrop := Impreso.dropWhile_digits x.isDigit_decimales hnil
    rw [List.append_nil] at htake hdrop
    exact Prod.ext htake hdrop

theorem readNumeral_texto :
    readNumeral x.texto =
      some (⟨x.negative, valueOf (decimal x.entera ++ x.decimales), -x.fraccion.length⟩, []) := by
  have hfraccion : x.impreso.textoFraccion.takeWhile Char.isDigit = [] := by
    have h := x.impreso.takeWhile_textoFraccion
    rwa [show x.impreso.textoExponente = [] from rfl, List.append_nil] at h
  have htake := Impreso.takeWhile_digits (Impreso.isDigit_decimal x.entera) hfraccion
  have hdrop := Impreso.dropWhile_digits (Impreso.isDigit_decimal x.entera) hfraccion
  have hlength : x.decimales.length = x.fraccion.length := List.length_map _
  simp only [texto_eq, readNumeral, readSign_signText, htake, hdrop, readFraction_textoFraccion,
    decimal_ne_nil, false_and, if_false, readExponent, hlength, zero_sub]

theorem floatval_texto : floatval x.texto = x.valor := by
  have hdrop : x.texto.dropWhile isSpace = x.texto := by
    rw [texto_eq, dropWhile_signText]
  have hvalue : valueOf (decimal x.entera ++ x.decimales) =
      10 ^ x.fraccion.length * x.entera + valueOf x.decimales := by
    rw [valueOf, Nat.ofDigitChars_append, Nat.ofDigitChars_eq_ofDigitChars_zero, ← valueOf,
      ← valueOf, valueOf_decimal, decimales, List.length_map]
  rw [floatval, hdrop, readNumeral_texto]
  simp only [Numeral.numerator, Numeral.denominator, hvalue, neg_neg, Int.toNat_natCast,
    Int.toNat_neg_natCast, pow_zero, mul_one, valor]
  push_cast
  field_simp

end Decimal

end Numbers

section Statistics

/-- The position of the word, and ten times the number before it. -/
def porcentaje (palabra : Texto) (arreglo : List Texto) : Numero :=
  let numero := match arreglo.findIdx? (· = palabra) with
    | some (indice + 1) => intval ((arreglo[indice]?).getD [])
    | _ => 0
  .lift (· * ·) (.ofInt numero) (.ofInt 10)

def porcentajeErrores (arreglo : List Texto) : Numero := porcentaje "errors,".toList arreglo

def porcentajeDuplicados (arreglo : List Texto) : Numero := porcentaje "duplicates,".toList arreglo

structure Estadisticas where
  ping_enviados : ℤ
  ping_recibidos : ℤ
  ping_errores : Numero
  ping_duplicados : Numero
  ping_perdidas : ℤ

def estadisticas (r : Resultado) : Estadisticas :=
  let datosPING := explode ' ' (desdeElFinal r.salida 2)
  { ping_enviados := intval ((datosPING[0]?).getD [])
    ping_recibidos := intval ((datosPING[3]?).getD [])
    ping_errores := porcentajeErrores datosPING
    ping_duplicados := porcentajeDuplicados datosPING
    ping_perdidas := intval (desdeElFinal datosPING 5) }

end Statistics

section Output

structure Resumen where
  tx : ℕ
  rx : ℕ
  duplicados : Option ℕ
  corruptos : Option ℕ
  errores : Option ℕ
  perdidas : ℕ
  tiempo : ℕ

/-- `, +n palabra`, when there are any -/
def opcional (n : Option ℕ) (palabra : Texto) : Texto :=
  match n with
  | some n => ", +".toList ++ (decimal n ++ ' ' :: palabra)
  | none => []

def Resumen.texto (x : Resumen) : Texto :=
  decimal x.tx ++ (" packets transmitted, ".toList ++ (decimal x.rx ++ (" received".toList ++
    (opcional x.duplicados "duplicates".toList ++ (opcional x.corruptos "corrupted".toList ++
      (opcional x.errores "errors".toList ++ (", ".toList ++ (decimal x.perdidas ++
        ("% packet loss, time ".toList ++ (decimal x.tiempo ++ "ms".toList))))))))))

structure Tiempos where
  min : Decimal
  avg : Decimal
  max : Decimal
  mdev : Decimal

inductive Final
  | exito (t : Tiempos) (pipe : Option ℕ)
  | fallo (estado : ℕ) (pipe : Option ℕ) (h : estado ≠ 0)

def Final.estado : Final → ℕ
  | exito _ _ => 0
  | fallo estado _ _ => estado

def Final.texto : Final → Texto
  | exito t pipe =>
    "rtt min/avg/max/mdev = ".toList ++ (t.min.texto ++ '/' :: (t.avg.texto ++ '/' ::
      (t.max.texto ++ '/' :: (t.mdev.texto ++ (" ms".toList ++
        match pipe with
        | some n => ", pipe ".toList ++ decimal n
        | none => [])))))
  | fallo _ (some n) _ => "pipe ".toList ++ decimal n
  | fallo _ none _ => []

structure Salida where
  anteriores : List Texto
  resumen : Resumen
  final : Final

def Salida.resultado (s : Salida) : Resultado :=
  ⟨s.final.estado, s.anteriores ++ [s.resumen.texto, s.final.texto]⟩

end Output

section Words

/-- The words of an optional part, the first of which is behind the comma of the word before. -/
def palabrasOpcional (n : Option ℕ) (palabra : Texto) : List Texto :=
  match n with
  | some n => ['+' :: decimal n, palabra ++ [',']]
  | none => []

def Resumen.palabras (x : Resumen) : List Texto :=
  [decimal x.tx, "packets".toList, "transmitted,".toList, decimal x.rx, "received,".toList] ++
    (palabrasOpcional x.duplicados "duplicates".toList ++
      (palabrasOpcional x.corruptos "corrupted".toList ++
        (palabrasOpcional x.errores "errors".toList ++
          [decimal x.perdidas ++ ['%'], "packet".toList, "loss,".toList, "time".toList,
          decimal x.tiempo ++ "ms".toList])))

theorem Resumen.texto_eq (x : Resumen) : x.texto = [' '].intercalate x.palabras := by
  obtain ⟨tx, rx, duplicados, corruptos, errores, perdidas, tiempo⟩ := x
  cases duplicados <;> cases corruptos <;> cases errores <;>
    simp [texto, palabras, opcional, palabrasOpcional, List.intercalate, List.intersperse]

theorem notMem_palabrasOpcional {q : Texto} (h : ' ' ∉ q) (n : Option ℕ) :
    ∀ p ∈ palabrasOpcional n q, ' ' ∉ p := by
  cases n with
  | none => simp [palabrasOpcional]
  | some n => simp [palabrasOpcional, h, notMem_decimal]

theorem Resumen.explode_texto (x : Resumen) : explode ' ' x.texto = x.palabras := by
  rw [x.texto_eq]
  apply List.splitOn_intercalate
  · intro p hp
    have hduplicados :=
      notMem_palabrasOpcional (q := "duplicates".toList) (by decide) x.duplicados p
    have hcorruptos := notMem_palabrasOpcional (q := "corrupted".toList) (by decide) x.corruptos p
    have herrores := notMem_palabrasOpcional (q := "errors".toList) (by decide) x.errores p
    have hdigitos := notMem_decimal (c := ' ') (by decide)
    simp only [palabras, List.mem_append, List.mem_cons, List.not_mem_nil, or_false] at hp
    rcases hp with (rfl | rfl | rfl | rfl | rfl) | hp | hp | hp | rfl | rfl | rfl | rfl | rfl
    · exact hdigitos _
    · decide
    · decide
    · exact hdigitos _
    · decide
    · exact hduplicados hp
    · exact hcorruptos hp
    · exact herrores hp
    · simp [hdigitos]
    · decide
    · decide
    · decide
    · simp [hdigitos]
  · simp [palabras]

theorem desdeElFinal_append (l : List Texto) {t : List Texto} {k : ℕ} (h : k ≤ t.length) :
    desdeElFinal (l ++ t) k = desdeElFinal t k := by
  have hsum : k ≤ (l ++ t).length := by
    rw [List.length_append]
    omega
  have hindex : (l ++ t).length - k = l.length + (t.length - k) := by
    rw [List.length_append]
    omega
  rw [desdeElFinal, desdeElFinal, if_pos hsum, if_pos h, hindex,
    List.getElem?_append_right (by omega), Nat.add_sub_cancel_left]

theorem desdeElFinal_palabras (x : Resumen) :
    desdeElFinal x.palabras 5 = decimal x.perdidas ++ ['%'] := by
  have hlast : ∀ l : List Texto,
    desdeElFinal (l ++ [decimal x.perdidas ++ ['%'], "packet".toList, "loss,".toList,
      "time".toList, decimal x.tiempo ++ "ms".toList]) 5 = decimal x.perdidas ++ ['%'] := fun l ↦
    desdeElFinal_append l le_rfl
  rw [Resumen.palabras, ← List.append_assoc, ← List.append_assoc, ← List.append_assoc]
  exact hlast _

theorem porcentaje_append {palabra numero : Texto} {antes : List Texto} (h : palabra ∉ antes)
    (hnumero : numero ≠ palabra) (despues : List Texto) :
    porcentaje palabra (antes ++ (numero :: palabra :: despues)) =
      .lift (· * ·) (.ofInt (intval numero)) (.ofInt 10) := by
  have hindex : (antes ++ (numero :: palabra :: despues)).findIdx? (· = palabra) =
      some (antes.length + 1) := by
    rw [List.findIdx?_append, List.findIdx?_eq_none_iff.mpr]
    · simp [List.findIdx?_cons, hnumero]
      omega
    · intro p hp
      simp only [decide_eq_false_iff_not]
      intro hpp
      exact h (hpp ▸ hp)
  simp [porcentaje, hindex]

theorem porcentaje_of_notMem {palabra : Texto} {arreglo : List Texto} (h : palabra ∉ arreglo) :
    porcentaje palabra arreglo = .ofInt 0 := by
  have hindex : arreglo.findIdx? (· = palabra) = none := by
    rw [List.findIdx?_eq_none_iff]
    intro p hp
    simp only [decide_eq_false_iff_not]
    intro hpp
    exact h (hpp ▸ hp)
  simp only [porcentaje, hindex]
  rfl

end Words

section Readings

def diez (n : ℕ) : Numero :=
  if 10 * (n : ℤ) ≤ longMax then .ofInt (10 * n)
  else ⟨true, toDouble (toDouble (min longMax n) * toDouble 10)⟩

theorem lift_diez (n : ℕ) : Numero.lift (· * ·) (.ofInt (min longMax n)) (.ofInt 10) = diez n := by
  have hmin := longMin_le n
  by_cases h : 10 * (n : ℤ) ≤ longMax
  · have hn : min longMax (n : ℤ) = n := min_eq_right (by omega)
    have hlow : longMin ≤ (n : ℤ) * 10 := by
      simp only [longMin]
      omega
    have hhigh : (n : ℤ) * 10 ≤ longMax := by omega
    simp only [diez, Numero.lift, Numero.ofInt, hn, hlow, hhigh, and_self, decide_true,
      Bool.not_false, Bool.and_self, if_true, mul_comm]
  · have hhigh : ¬ min longMax (n : ℤ) * 10 ≤ longMax := by
      simp only [longMax] at h ⊢
      omega
    simp only [diez, Numero.lift, Numero.ofInt, if_neg h, hhigh, and_false, decide_false,
      Bool.and_false, Bool.false_eq_true, if_false]

theorem porcentaje_opcional {q : Texto} {antes despues : List Texto} (h : q ++ [','] ∉ antes)
    (hplus : q.head? ≠ some '+') (hdespues : q ++ [','] ∉ despues) (n : Option ℕ) :
    porcentaje (q ++ [',']) (antes ++ (palabrasOpcional n q ++ despues)) = diez (n.getD 0) := by
  cases n with
  | none =>
    have hnot : q ++ [','] ∉ antes ++ (palabrasOpcional none q ++ despues) := by
      simp [palabrasOpcional, h, hdespues]
    rw [porcentaje_of_notMem hnot]
    rfl
  | some n =>
    have hnumero : '+' :: decimal n ≠ q ++ [','] := by
      intro hn
      cases q with
      | nil => cases hn
      | cons c cs =>
        have hc : '+' = c := (List.cons.inj hn).1
        exact hplus (congrArg some hc.symm)
    have hvalue := intval_plus (s := []) rfl n
    rw [List.append_nil] at hvalue
    rw [palabrasOpcional, List.cons_append, List.cons_append, List.nil_append,
      porcentaje_append h hnumero, hvalue, lift_diez, Option.getD_some]

theorem notMem_opcional {q palabra : Texto} (hplus : q.head? ≠ some '+') (h : q ≠ palabra ++ [','])
    (n : Option ℕ) :
    q ∉ palabrasOpcional n palabra := by
  cases n with
  | none => exact List.not_mem_nil
  | some n =>
    intro hq
    simp only [palabrasOpcional, List.mem_cons, List.not_mem_nil, or_false] at hq
    rcases hq with rfl | hq
    · exact hplus rfl
    · exact h hq

theorem notMem_primeras {q : Texto} (hcoma : ',' ∈ q) (htransmitted : q ≠ "transmitted,".toList)
    (hreceived : q ≠ "received,".toList) (n m : ℕ) :
    q ∉ [decimal n, "packets".toList, "transmitted,".toList, decimal m, "received,".toList] := by
  have hdigitos := notMem_decimal (c := ',') (by decide)
  intro hq
  simp only [List.mem_cons, List.not_mem_nil, or_false] at hq
  rcases hq with rfl | rfl | hq | rfl | hq
  · exact hdigitos n hcoma
  · exact absurd hcoma (by decide)
  · exact htransmitted hq
  · exact hdigitos m hcoma
  · exact hreceived hq

theorem notMem_ultimas {q : Texto} (hcoma : ',' ∈ q) (hloss : q ≠ "loss,".toList) (n m : ℕ) :
    q ∉ [decimal n ++ ['%'], "packet".toList, "loss,".toList, "time".toList, decimal m ++
      "ms".toList] := by
  have hdigitos := notMem_decimal (c := ',') (by decide)
  intro hq
  simp only [List.mem_cons, List.not_mem_nil, or_false] at hq
  rcases hq with rfl | rfl | hq | rfl | rfl
  · simp [hdigitos] at hcoma
  · exact absurd hcoma (by decide)
  · exact hloss hq
  · exact absurd hcoma (by decide)
  · simp [hdigitos] at hcoma

theorem porcentajeDuplicados_palabras (x : Resumen) :
    porcentajeDuplicados x.palabras = diez (x.duplicados.getD 0) := by
  apply porcentaje_opcional (q := "duplicates".toList)
  · exact notMem_primeras (by decide) (by decide) (by decide) _ _
  · decide
  · simp only [List.mem_append, not_or]
    refine ⟨notMem_opcional (by decide) (by decide) _, notMem_opcional (by decide) (by decide) _,
      ?_⟩
    exact notMem_ultimas (by decide) (by decide) _ _

theorem porcentajeErrores_palabras (x : Resumen) :
    porcentajeErrores x.palabras = diez (x.errores.getD 0) := by
  rw [Resumen.palabras, ← List.append_assoc, ← List.append_assoc]
  apply porcentaje_opcional (q := "errors".toList)
  · simp only [List.mem_append, not_or]
    refine ⟨⟨?_, notMem_opcional (by decide) (by decide) _⟩,
      notMem_opcional (by decide) (by decide) _⟩
    exact notMem_primeras (by decide) (by decide) (by decide) _ _
  · decide
  · exact notMem_ultimas (by decide) (by decide) _ _

theorem estadisticas_resultado (s : Salida) :
    estadisticas s.resultado =
      { ping_enviados := min longMax s.resumen.tx
        ping_recibidos := min longMax s.resumen.rx
        ping_errores := diez (s.resumen.errores.getD 0)
        ping_duplicados := diez (s.resumen.duplicados.getD 0)
        ping_perdidas := min longMax s.resumen.perdidas } := by
  have hlinea : desdeElFinal s.resultado.salida 2 = s.resumen.texto :=
    desdeElFinal_append s.anteriores le_rfl
  have henviados := intval_decimal_append (s := []) rfl s.resumen.tx
  have hrecibidos := intval_decimal_append (s := []) rfl s.resumen.rx
  have hperdidas := intval_decimal_append (s := ['%']) rfl s.resumen.perdidas
  rw [List.append_nil] at henviados hrecibidos
  rw [estadisticas, hlinea, s.resumen.explode_texto]
  simp only [porcentajeErrores_palabras, porcentajeDuplicados_palabras,
    desdeElFinal_palabras, hperdidas, Estadisticas.mk.injEq, and_true]
  exact ⟨henviados, hrecibidos⟩

theorem notMem_texto {c : Char} (hdigit : c.isDigit = false) (hminus : c ≠ '-') (hpoint : c ≠ '.')
    (x : Decimal) :
    c ∉ x.texto := by
  have hsign : c ∉ signText x.negative := by
    cases x.negative with
    | false => exact List.not_mem_nil
    | true => exact fun h ↦ hminus (List.mem_singleton.mp h)
  have hdecimales : c ∉ x.decimales := by
    intro h
    rw [x.isDigit_decimales c h] at hdigit
    cases hdigit
  have hfraccion : c ∉ x.impreso.textoFraccion := by
    unfold Impreso.textoFraccion
    split_ifs
    · exact List.not_mem_nil
    · intro h
      rcases List.mem_cons.mp h with h | h
      · exact hpoint h
      · exact hdecimales h
  simp [x.texto_eq, hsign, notMem_decimal hdigit, hfraccion]

theorem slash_notMem_texto (x : Decimal) : '/' ∉ x.texto :=
  notMem_texto (by decide) (by decide) (by decide) x

theorem explode_tiempos {min avg max resto : Texto} (hmin : '/' ∉ min) (havg : '/' ∉ avg)
    (hmax : '/' ∉ max) (hresto : '/' ∉ resto) :
    desdeElFinal (explode '/' ("rtt min/avg/max/mdev = ".toList ++
      (min ++ '/' :: (avg ++ '/' :: (max ++ '/' :: resto))))) 3 = avg := by
  have hmdev : '/' ∉ "mdev = ".toList ++ min := by
    simp [hmin]
  have htexto : "rtt min/avg/max/mdev = ".toList ++
    (min ++ '/' :: (avg ++ '/' :: (max ++ '/' :: resto))) =
      "rtt min".toList ++ '/' ::
        ("avg".toList ++ '/' :: ("max".toList ++ '/' ::
          (("mdev = ".toList ++ min) ++ '/' :: (avg ++ '/' :: (max ++ '/' :: resto))))) := rfl
  rw [htexto, explode_append (by decide), explode_append (by decide), explode_append (by decide),
    explode_append hmdev, explode_append havg, explode_append hmax, explode_of_notMem hresto]
  rfl

theorem explode_exito (t : Tiempos) (pipe : Option ℕ) :
    desdeElFinal (explode '/' (Final.exito t pipe).texto) 3 = t.avg.texto := by
  apply explode_tiempos (slash_notMem_texto _) (slash_notMem_texto _) (slash_notMem_texto _)
  cases pipe with
  | none => simp [slash_notMem_texto]
  | some n => simp [slash_notMem_texto, notMem_decimal]

def Final.promedio : Final → Medida → Medida
  | exito t _, _ => some t.avg.valor
  | fallo _ _ _, anterior => anterior

theorem obtenerPing_final {r : Resultado} {final : Final} (hestado : r.estado = final.estado)
    (hlinea : desdeElFinal r.salida 1 = final.texto) (d : Dispositivo) (e : Entorno) :
    (obtenerPing r d e).1 = { d with ping_promedio := final.promedio d.ping_promedio } := by
  rw [obtenerPing, hlinea, hestado]
  cases final with
  | exito t pipe =>
    simp only [Final.estado, if_true, explode_exito, t.avg.floatval_texto, Final.promedio]
  | fallo estado pipe hfallo => exact if_neg hfallo

theorem obtenerPing_resultado (s : Salida) (d : Dispositivo) (e : Entorno) :
    (obtenerPing s.resultado d e).1 =
      { d with ping_promedio := s.final.promedio d.ping_promedio } := by
  refine obtenerPing_final rfl ?_ d e
  have hlinea :=
    desdeElFinal_append (k := 1) (s.anteriores ++ [s.resumen.texto]) (t := [s.final.texto]) le_rfl
  rwa [List.append_assoc] at hlinea

/-- All that `obtenerPing` reads from an output with a summary, with every subset of the optional
parts and every number. A device that is new has no mean before. -/
theorem obtenerPing_resumen (s : Salida) (f : Fila) (e : Entorno) :
    estadisticas s.resultado =
      { ping_enviados := min longMax s.resumen.tx
        ping_recibidos := min longMax s.resumen.rx
        ping_errores := diez (s.resumen.errores.getD 0)
        ping_duplicados := diez (s.resumen.duplicados.getD 0)
        ping_perdidas := min longMax s.resumen.perdidas } ∧
    (obtenerPing s.resultado f.dispositivo e).1.ping_promedio = s.final.promedio none := by
  rw [obtenerPing_resultado]
  exact ⟨estadisticas_resultado s, rfl⟩

/-- What is sent is not what is read when it does not fit. -/
theorem not_enviados : ¬ ∀ s : Salida, (estadisticas s.resultado).ping_enviados = s.resumen.tx := by
  intro h
  have hs := h ⟨[], ⟨2 ^ 63, 0, none, none, none, 100, 0⟩, .fallo 1 none (by decide)⟩
  rw [estadisticas_resultado] at hs
  exact absurd hs (by decide)

end Readings

end ServiciosRed.Ping
