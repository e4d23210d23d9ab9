import Mathlib.Data.Rat.Floor
import ServiciosRed.Groups
import ServiciosRed.Walk

namespace ServiciosRed.Latency

open Text Php Python Monitorizacion Ping Regex

section Script

/-- `/([0-9]+)% packet loss/` -/
def datapl : List Regex := [plus (char Char.isDigit), literal "% packet loss"]

/-- `/(.*)\/(.*)\/(.*)\/(.*)/` -/
def datartt : List Regex :=
  let todo := star (char fun _ ↦ true)
  [todo, literal "/", todo, literal "/", todo, literal "/", todo]

/-- An element of the array that `match` fills, which is empty when nothing matches. -/
def parte (rs : List Regex) (s : Texto) (i : ℕ) : Texto := ((search rs s).bind (·[i]?)).getD []

structure Variables where
  pl : Texto
  rtt : Texto

def BEGIN : Variables := ⟨"100".toList, "0.1".toList⟩

def reglas (v : Variables) (linea : Texto) : Variables :=
  let v :=
    if (patron "packets transmitted").matchesIn linea then { v with pl := parte datapl linea 0 }
    else v
  if (patron "min/avg/max").matchesIn linea then
    { v with rtt := parte datartt (((campos linea)[3]?).getD []) 2 }
  else v

/-- `RETURN_DATA`, from the lines that ping prints. `$(...)` drops the empty ones at the end. -/
def get_data (salida : List Texto) : Texto :=
  let v := (salida.rdropWhile (· = [])).foldl reglas BEGIN
  v.pl ++ ':' :: v.rtt

end Script

section Output

structure Porcentaje where
  numero : Decimal
  positivo : numero.negative = false
  acotado : numero.valor ≤ 100

/-- The numbers of the summary line. Ping prints the unit of the time next to it. -/
structure Resumen where
  tx : ℕ
  rx : ℕ
  errores : Option ℕ
  perdidas : Porcentaje
  tiempo : ℕ
  junto : Bool

def Resumen.milisegundos (x : Resumen) : Texto :=
  decimal x.tiempo ++ if x.junto then "ms".toList else " ms".toList

def Resumen.cabeza (x : Resumen) : Texto :=
  decimal x.tx ++ (" packets transmitted, ".toList ++ (decimal x.rx ++ (" received".toList ++
    (opcional x.errores "errors".toList ++ [',']))))

def Resumen.texto (x : Resumen) : Texto :=
  x.cabeza ++ ' ' ::
    (x.perdidas.numero.texto ++ ("% packet loss".toList ++ (", time ".toList ++ x.milisegundos)))

/-- What ping prints. It ends with status 0 and with the times exactly when a reply
arrived, and no line before has their heading. -/
structure Salida where
  anteriores : List Texto
  resumen : Resumen
  final : Final
  respuesta : final.estado = 0 ↔ 0 < resumen.rx
  otras : ∀ l ∈ anteriores, aparece "min/avg/max".toList l = false

def Salida.resultado (s : Salida) : Resultado :=
  ⟨s.final.estado, s.anteriores ++ [s.resumen.texto, s.final.texto]⟩

def numero (s : Texto) : Medida := if (numeric s).isSome then some (floatval s) else none

/-- The two parsers read the same from an output. -/
def Concuerdan (s : Salida) (f : Fila) (e : Entorno) : Prop :=
  ∃ pl rtt, explode ':' (get_data s.resultado.salida) = [pl, rtt] ∧
    (∃ q, numero pl = some q ∧ ⌊q⌋ = (estadisticas s.resultado).ping_perdidas) ∧
    (0 < s.resumen.rx → ∃ q, numero rtt = some q ∧
      (obtenerPing s.resultado f.dispositivo e).1.ping_promedio = some q) ∧
    (s.resumen.rx = 0 → numero rtt = none ∧
      (obtenerPing s.resultado f.dispositivo e).1.ping_promedio = none)

end Output

section Matching

variable {p t a b : Texto} {c : Char}

theorem mem_of_encaja (h : encaja p t) (hc : c ∈ p) (hdot : c ≠ '.') : c ∈ t := by
  induction p generalizing t with
  | nil => cases hc
  | cons d p ih =>
    cases t with
    | nil => cases h
    | cons e t =>
      obtain ⟨hhead, htail⟩ := Bool.and_eq_true_iff.mp h
      rcases List.mem_cons.mp hc with rfl | hc
      · have he : e = c := by simpa [hdot] using hhead
        rw [he]
        exact List.mem_cons_self
      · exact List.mem_cons_of_mem e (ih htail hc)

theorem not_aparece (hc : c ∈ p) (hdot : c ≠ '.') (ht : c ∉ t) : aparece p t = false := by
  by_contra h
  rw [Bool.not_eq_false, aparece, List.any_eq_true] at h
  obtain ⟨u, hu, hencaja⟩ := h
  exact ht (((List.mem_tails u t).mp hu).subset (mem_of_encaja hencaja hc hdot))

theorem encaja_self (p t : Texto) : encaja p (p ++ t) := by
  induction p with
  | nil => cases t <;> rfl
  | cons c p ih =>
    rw [List.cons_append, encaja, ih]
    simp

theorem aparece_self (p a b : Texto) : aparece p (a ++ (p ++ b)) :=
  List.any_eq_true.mpr ⟨p ++ b, (List.mem_tails _ _).mpr (List.suffix_append a _), encaja_self p b⟩

end Matching

section Groups

variable {us : List Texto} {s : Texto}

theorem mem_splits_datapl :
    us ∈ splits datapl s ↔ ∃ u t, us = [u, "% packet loss".toList] ∧
      s = u ++ ("% packet loss".toList ++ t) ∧ u ≠ [] ∧ ∀ c ∈ u, c.isDigit := by
  simp only [datapl, mem_splits_plus, mem_splits_literal, mem_splits_nil]
  constructor
  · intro h
    obtain ⟨u, _, _, rfl, rfl, hne, hdigits, _, t, rfl, rfl, rfl⟩ := h
    exact ⟨u, t, rfl, rfl, hne, hdigits⟩
  · intro h
    obtain ⟨u, t, rfl, rfl, hne, hdigits⟩ := h
    exact ⟨u, _, _, rfl, rfl, hne, hdigits, _, t, rfl, rfl, rfl⟩

theorem splits_datapl {v ds resto : Texto} (hv : '%' ∉ v) (hds : '%' ∉ ds)
    (h : us ∈ splits datapl (v ++ (ds ++ ("% packet loss".toList ++ resto)))) :
    us = [v ++ ds, "% packet loss".toList] ∧ ∀ c ∈ v, c.isDigit := by
  obtain ⟨u, t, rfl, hs, -, hdigits⟩ := mem_splits_datapl.mp h
  have hu : '%' ∉ u := fun hmem ↦ absurd (hdigits '%' hmem) (by decide)
  have hvds : '%' ∉ v ++ ds := by simp [hv, hds]
  have hleft := explode_append hvds (" packet loss".toList ++ resto)
  have hright := explode_append hu (" packet loss".toList ++ t)
  have htext : (v ++ ds) ++ '%' :: (" packet loss".toList ++ resto) = u ++ '%' ::
      (" packet loss".toList ++ t) := by
    rw [List.append_assoc]
    exact hs
  rw [htext, hright] at hleft
  obtain ⟨rfl, -⟩ := List.cons.inj hleft
  exact ⟨rfl, fun c hc ↦ hdigits c (List.mem_append_left ds hc)⟩

theorem parte_datapl {w ds : Texto} {c : Char} (hw : '%' ∉ w ++ [c]) (hc : c.isDigit = false)
    (hne : ds ≠ []) (hds : ∀ d ∈ ds, d.isDigit) (resto : Texto) :
    parte datapl (w ++ c :: (ds ++ ("% packet loss".toList ++ resto))) 0 = ds := by
  have hpercent : '%' ∉ ds := fun hmem ↦ absurd (hds '%' hmem) (by decide)
  have hsearch : search datapl ((w ++ [c]) ++ (ds ++ ("% packet loss".toList ++ resto))) =
      search datapl (ds ++ ("% packet loss".toList ++ resto)) := by
    apply search_append
    intro v hv hsuffix
    refine List.eq_nil_iff_forall_not_mem.mpr (fun us hus ↦ ?_)
    have hv' : '%' ∉ v := fun hmem ↦ hw (hsuffix.subset hmem)
    have hlast : c ∈ v := by
      have hgetLast := hsuffix.getLast hv
      rw [List.getLast_append_singleton] at hgetLast
      rw [← hgetLast]
      exact List.getLast_mem hv
    have hdigit := (splits_datapl hv' hpercent hus).2 c hlast
    rw [hc] at hdigit
    cases hdigit
  rw [List.append_assoc, List.singleton_append] at hsearch
  obtain ⟨us, hus, hfound⟩ :=
    search_of_split (mem_splits_datapl.mpr ⟨ds, resto, rfl, rfl, hne, hds⟩)
  obtain ⟨rfl, -⟩ := splits_datapl (v := []) List.not_mem_nil hpercent hus
  rw [parte, hsearch, hfound]
  rfl

theorem mem_splits_datartt :
    us ∈ splits datartt s ↔ ∃ a b m z t, us = [a, ['/'], b, ['/'], m, ['/'], z] ∧
      s = a ++ '/' :: (b ++ '/' :: (m ++ '/' :: (z ++ t))) := by
  have hany (u : Texto) : ∀ c ∈ u, True := fun _ _ ↦ trivial
  simp only [datartt, mem_splits_star, mem_splits_literal, mem_splits_nil]
  constructor
  · intro h
    obtain ⟨a, _, _, rfl, rfl, -, _, _, rfl, rfl, b, _, _, rfl, rfl, -, _, _, rfl, rfl, m, _, _,
      rfl, rfl, -, _, _, rfl, rfl, z, _, t, rfl, rfl, -, rfl⟩ := h
    exact ⟨a, b, m, z, t, rfl, rfl⟩
  · intro h
    obtain ⟨a, b, m, z, t, rfl, rfl⟩ := h
    exact ⟨a, _, _, rfl, rfl, hany a, _, _, rfl, rfl, b, _, _, rfl, rfl, hany b, _, _, rfl, rfl, m,
      _, _, rfl, rfl, hany m, _, _, rfl, rfl, z, _, t, rfl, rfl, hany z, rfl⟩

theorem parte_datartt {a b m z : Texto} (ha : '/' ∉ a) (hb : '/' ∉ b) (hm : '/' ∉ m)
    (hz : '/' ∉ z) :
    parte datartt (a ++ '/' :: (b ++ '/' :: (m ++ '/' :: z))) 2 = b := by
  have hsplit := mem_splits_datartt.mpr ⟨a, b, m, z, [], rfl, rfl⟩
  rw [List.append_nil] at hsplit
  obtain ⟨us, hus, hfound⟩ := search_of_split hsplit
  obtain ⟨a', b', m', z', t, rfl, hs⟩ := mem_splits_datartt.mp hus
  have hcount := congrArg (List.count '/') hs
  simp only [List.count_append, List.count_cons_self, List.count_eq_zero.mpr ha,
    List.count_eq_zero.mpr hb, List.count_eq_zero.mpr hm, List.count_eq_zero.mpr hz] at hcount
  have ha' : '/' ∉ a' := List.count_eq_zero.mp (by omega)
  have hb' : '/' ∉ b' := List.count_eq_zero.mp (by omega)
  have hparts := congrArg (explode '/') hs
  rw [explode_append ha, explode_append ha', explode_append hb, explode_append hb'] at hparts
  rw [parte, hfound]
  exact (List.cons.inj (List.cons.inj hparts).2).1.symm

end Groups

section Numbers

theorem readNumeral_digits {ds : Texto} (hne : ds ≠ []) (hds : ∀ c ∈ ds, c.isDigit) :
    readNumeral ds = some (⟨false, valueOf ds, 0⟩, []) := by
  have hnil : ([] : Texto).takeWhile Char.isDigit = [] := rfl
  have htake := Impreso.takeWhile_digits hds hnil
  have hdrop := Impreso.dropWhile_digits hds hnil
  have hsign : readSign ds = (false, ds) := by
    cases ds with
    | nil => rfl
    | cons c ds =>
      have hc := hds c List.mem_cons_self
      unfold readSign
      split
      · rename_i h
        rw [(List.cons.inj h).1] at hc
        cases hc
      · rename_i h
        rw [(List.cons.inj h).1] at hc
        cases hc
      · rfl
  rw [List.append_nil] at htake hdrop
  simp [readNumeral, hsign, htake, hdrop, readFraction, readExponent, hne]

theorem numero_of_readNumeral {s : Texto} {x : Numeral}
    (h : readNumeral (s.dropWhile isSpace) = some (x, [])) :
    numero s = some (floatval s) := by
  have hnumeric : numeric s = some x := by rw [numeric, h]
  rw [numero, hnumeric, Option.isSome_some, if_pos rfl]

theorem numero_digits {ds : Texto} (hne : ds ≠ []) (hds : ∀ c ∈ ds, c.isDigit) :
    numero ds = some (valueOf ds : ℚ) := by
  have hdrop : ds.dropWhile isSpace = ds := by
    cases ds with
    | nil => rfl
    | cons c ds =>
      rw [List.dropWhile_cons_of_neg]
      simp [isSpace_of_isDigit (hds c List.mem_cons_self)]
  have hread := readNumeral_digits hne hds
  rw [numero_of_readNumeral (by rw [hdrop, hread]), floatval, hdrop, hread]
  simp [Numeral.numerator, Numeral.denominator]

theorem numero_texto (x : Decimal) : numero x.texto = some x.valor := by
  have hnumeric : (numeric x.texto).isSome := x.impreso.isSome_numeric_texto
  rw [numero, x.floatval_texto, if_pos hnumeric]

end Numbers

section Summary

def cifras (x : Decimal) : Texto := if x.fraccion = [] then decimal x.entera else x.decimales

def ultimas (x : Decimal) : ℕ := if x.fraccion = [] then x.entera else valueOf x.decimales

variable {x : Decimal}

theorem valueOf_cifras (x : Decimal) : valueOf (cifras x) = ultimas x := by
  unfold cifras ultimas
  split_ifs
  · exact valueOf_decimal x.entera
  · rfl

theorem isDigit_cifras (x : Decimal) : ∀ c ∈ cifras x, c.isDigit := by
  unfold cifras
  split_ifs
  · exact Impreso.isDigit_decimal x.entera
  · exact x.isDigit_decimales

theorem cifras_ne_nil (x : Decimal) : cifras x ≠ [] := by
  unfold cifras
  split_ifs with h
  · exact decimal_ne_nil x.entera
  · simpa [Decimal.decimales] using h

theorem texto_positivo (hx : x.negative = false) :
    x.texto = decimal x.entera ++ x.impreso.textoFraccion := by
  rw [x.texto_eq, hx]
  rfl

theorem exists_cifras (hx : x.negative = false) :
    ∃ w c, c.isDigit = false ∧ '%' ∉ w ++ [c] ∧ ' ' :: x.texto = w ++ c :: cifras x := by
  rw [texto_positivo hx]
  by_cases h : x.fraccion = []
  · have hfraccion : x.impreso.textoFraccion = [] := if_pos h
    refine ⟨[], ' ', by decide, by decide, ?_⟩
    rw [hfraccion, List.append_nil, cifras, if_pos h, List.nil_append]
  · have hfraccion : x.impreso.textoFraccion = '.' :: x.decimales := if_neg h
    refine ⟨' ' :: decimal x.entera, '.', by decide, ?_, ?_⟩
    · simp [notMem_decimal]
    · rw [hfraccion, cifras, if_neg h]
      rfl

theorem Resumen.notMem_cabeza (r : Resumen) {c : Char} (hc : c = '%' ∨ c = '/') : c ∉ r.cabeza := by
  unfold cabeza opcional
  rcases hc with rfl | rfl <;> cases r.errores <;> simp [notMem_decimal]

theorem Resumen.slash_notMem_texto (r : Resumen) : '/' ∉ r.texto := by
  have hcabeza := r.notMem_cabeza (Or.inr rfl)
  have hperdidas := Ping.slash_notMem_texto r.perdidas.numero
  unfold texto milisegundos
  split_ifs <;> simp [hcabeza, hperdidas, notMem_decimal]

theorem Resumen.parte_texto (r : Resumen) : parte datapl r.texto 0 = cifras r.perdidas.numero := by
  obtain ⟨w, c, hc, hw, htexto⟩ := exists_cifras r.perdidas.positivo
  have hline : r.texto = (r.cabeza ++ w) ++ c :: (cifras r.perdidas.numero ++
      ("% packet loss".toList ++ (", time ".toList ++ r.milisegundos))) := by
    rw [texto, ← List.cons_append, htexto]
    simp only [List.append_assoc, List.cons_append]
  have hpercent : '%' ∉ (r.cabeza ++ w) ++ [c] := by
    rw [List.append_assoc, List.mem_append, not_or]
    exact ⟨r.notMem_cabeza (Or.inl rfl), hw⟩
  rw [hline, parte_datapl hpercent hc (cifras_ne_nil _) (isDigit_cifras _)]

def Resumen.leida (r : Resumen) : ℕ := if r.junto then r.perdidas.numero.entera else 0

theorem Porcentaje.entera_le (p : Porcentaje) : p.numero.entera ≤ 100 := by
  have h := p.acotado
  rw [Decimal.valor, p.positivo] at h
  have hfraccion : (0 : ℚ) ≤
    valueOf p.numero.decimales / 10 ^ p.numero.fraccion.length := by positivity
  have hentera : (p.numero.entera : ℚ) ≤ 100 := by
    simp only [Bool.false_eq_true, if_false, one_mul] at h
    linarith
  exact_mod_cast hentera

theorem Porcentaje.intval_texto (p : Porcentaje) :
    intval (p.numero.texto ++ ['%']) = p.numero.entera := by
  have hresto : (p.numero.impreso.textoFraccion ++ ['%']).takeWhile Char.isDigit = [] := by
    unfold Impreso.textoFraccion
    split_ifs <;> rfl
  have hentera := p.entera_le
  rw [texto_positivo p.positivo, List.append_assoc, intval_decimal_append hresto]
  simp only [longMax]
  omega

theorem Resumen.ping_perdidas (r : Resumen) :
    intval (desdeElFinal (explode ' ' r.texto) 5) = r.leida := by
  have hblank : ' ' ∉ r.perdidas.numero.texto ++ ['%'] := by
    have hnumero := notMem_texto (c := ' ') (by decide) (by decide) (by decide) r.perdidas.numero
    simp [hnumero]
  have hline : r.texto = r.cabeza ++ ' ' ::
    ((r.perdidas.numero.texto ++ ['%']) ++ ' ' :: ("packet".toList ++ ' ' ::
      ("loss,".toList ++ ' ' :: ("time".toList ++ ' ' :: r.milisegundos)))) := by
    unfold texto
    rw [List.append_assoc]
    rfl
  have hdigits := notMem_decimal (c := ' ') (by decide) r.tiempo
  have htime : explode ' ' r.milisegundos =
      if r.junto then [decimal r.tiempo ++ "ms".toList] else [decimal r.tiempo, "ms".toList] := by
    unfold milisegundos
    split_ifs
    · exact explode_of_notMem (by simp [hdigits])
    · exact (explode_append hdigits "ms".toList).trans (congrArg _ (explode_of_notMem (by decide)))
  have hsplit (a b : Texto) : explode ' ' (a ++ ' ' :: b) = explode ' ' a ++ explode ' ' b :=
    List.splitOn_append_cons_self a b
  rw [hline, hsplit, explode_append hblank, explode_append (by decide), explode_append (by decide),
    explode_append (by decide), htime, leida]
  by_cases h : r.junto
  · rw [if_pos h, if_pos h, desdeElFinal_append _ (by simp)]
    exact r.perdidas.intval_texto
  · rw [if_neg h, if_neg h, desdeElFinal_append _ (by simp)]
    rfl

end Summary

section Reading

theorem reglas_eq (v : Variables) (l : Texto) :
    reglas v l =
      { pl := if aparece "packets transmitted".toList l then parte datapl l 0 else v.pl
        rtt := if aparece "min/avg/max".toList l then parte datartt (((campos l)[3]?).getD [])
          2 else v.rtt } := by
  rw [reglas]
  simp only [matchesIn_patron]
  split_ifs <;> rfl

theorem reglas_nil (v : Variables) : reglas v [] = v := by
  rw [reglas_eq]
  rfl

theorem foldl_rdropWhile (l : List Texto) (v : Variables) :
    (l.rdropWhile (· = [])).foldl reglas v = l.foldl reglas v := by
  induction l using List.reverseRecOn with
  | nil => rfl
  | append_singleton l s ih =>
    rw [List.rdropWhile_concat]
    split_ifs with hs
    · rw [ih, List.foldl_append, of_decide_eq_true hs]
      exact (reglas_nil _).symm
    · rfl

theorem rtt_foldl {l : List Texto} (h : ∀ s ∈ l, aparece "min/avg/max".toList s = false)
    (v : Variables) :
    (l.foldl reglas v).rtt = v.rtt := by
  induction l generalizing v with
  | nil => rfl
  | cons s l ih =>
    obtain ⟨hs, hl⟩ := List.forall_mem_cons.mp h
    rw [List.foldl_cons, ih hl, reglas_eq, hs]
    rfl

theorem reglas_resumen (v : Variables) (r : Resumen) :
    reglas v r.texto = { pl := cifras r.perdidas.numero, rtt := v.rtt } := by
  have hpacket : aparece "packets transmitted".toList r.texto := by
    have hline : ∃ b, r.texto = (decimal r.tx ++ [' ']) ++ ("packets transmitted".toList ++ b) := by
      unfold Resumen.texto Resumen.cabeza
      refine ⟨?_, ?_⟩
      rotate_left
      · simp only [List.append_assoc]
        rfl
    obtain ⟨b, hb⟩ := hline
    rw [hb]
    exact aparece_self _ _ b
  have hheading : aparece "min/avg/max".toList r.texto = false :=
    not_aparece (c := '/') (by decide) (by decide) r.slash_notMem_texto
  rw [reglas_eq, hpacket, hheading, r.parte_texto]
  rfl

theorem heading_eq : "rtt min/avg/max/mdev = ".toList =
    "rtt".toList ++ ' ' :: ("min/avg/max/mdev".toList ++ ' ' :: (['='] ++ [' '])) := by decide

theorem heading_eq' : "rtt min/avg/max/mdev = ".toList =
    "rtt ".toList ++ ("min/avg/max".toList ++ "/mdev = ".toList) := by decide

theorem campos_heading {s : Texto} (h : Walk.Palabra s) (resto : Texto) :
    (campos ("rtt min/avg/max/mdev = ".toList ++ (s ++ ' ' :: resto)))[3]? = some s := by
  have hrtt : Walk.Palabra "rtt".toList := ⟨by decide, by decide⟩
  have hnames : Walk.Palabra "min/avg/max/mdev".toList := ⟨by decide, by decide⟩
  have hequal : Walk.Palabra ['='] := ⟨by decide, by decide⟩
  have hblank : Walk.esBlanco ' ' := rfl
  rw [heading_eq]
  simp only [List.append_assoc, List.cons_append, List.nil_append]
  rw [Walk.campos_cons hrtt hblank, Walk.campos_cons hnames hblank]
  have hrest := Walk.campos_cons hequal hblank (s ++ ' ' :: resto)
  rw [List.singleton_append] at hrest
  rw [hrest, Walk.campos_cons h hblank]
  rfl

def conBarras (t : Tiempos) : Texto :=
  t.min.texto ++ '/' :: (t.avg.texto ++ '/' :: (t.max.texto ++ '/' :: t.mdev.texto))

theorem palabra_conBarras (t : Tiempos) : Walk.Palabra (conBarras t) := by
  have hblank (x : Decimal) : ∀ c ∈ x.texto, Walk.esBlanco c = false := Walk.Valor.esBlanco_texto x
  have hslash : Walk.esBlanco '/' = false := rfl
  refine ⟨List.append_ne_nil_of_right_ne_nil _ (List.cons_ne_nil _ _), ?_⟩
  unfold conBarras
  simp only [List.forall_mem_append, List.forall_mem_cons]
  exact ⟨hblank _, hslash, hblank _, hslash, hblank _, hslash, hblank _⟩

theorem k_notMem_conBarras (t : Tiempos) : 'k' ∉ conBarras t := by
  have hnumero (x : Decimal) : 'k' ∉ x.texto := notMem_texto (by decide) (by decide) (by decide) x
  simp [conBarras, hnumero]

theorem texto_exito (t : Tiempos) (pipe : Option ℕ) : ∃ resto, 'k' ∉ resto ∧
    (Final.exito t pipe).texto = "rtt min/avg/max/mdev = ".toList ++
      (conBarras t ++ ' ' :: resto) := by
  have htiempos (resto : Texto) :
    "rtt min/avg/max/mdev = ".toList ++ (t.min.texto ++ '/' :: (t.avg.texto ++ '/' ::
      (t.max.texto ++ '/' :: (t.mdev.texto ++ ' ' :: resto)))) =
        "rtt min/avg/max/mdev = ".toList ++ (conBarras t ++ ' ' :: resto) := by
    simp only [conBarras, List.append_assoc, List.cons_append]
  cases pipe with
  | none => exact ⟨"ms".toList, by decide, htiempos "ms".toList⟩
  | some n =>
    refine ⟨"ms, pipe ".toList ++ decimal n, ?_, htiempos ("ms, pipe ".toList ++ decimal n)⟩
    have hdigits := notMem_decimal (c := 'k') (by decide) n
    simp [hdigits]

theorem reglas_exito (v : Variables) (t : Tiempos) (pipe : Option ℕ) :
    reglas v (Final.exito t pipe).texto = { v with rtt := t.avg.texto } := by
  obtain ⟨resto, hk, htexto⟩ := texto_exito t pipe
  have hpacket : aparece "packets transmitted".toList (Final.exito t pipe).texto = false := by
    apply not_aparece (c := 'k') (by decide) (by decide)
    rw [htexto]
    simp [k_notMem_conBarras, hk]
  have hheading : aparece "min/avg/max".toList (Final.exito t pipe).texto := by
    rw [htexto, heading_eq', List.append_assoc, List.append_assoc]
    exact aparece_self _ _ _
  have hslash := slash_notMem_texto
  rw [reglas_eq, hpacket, hheading, htexto, campos_heading (palabra_conBarras t),
    Option.getD_some, conBarras, parte_datartt (hslash _) (hslash _) (hslash _) (hslash _)]
  rfl

theorem reglas_fallo (v : Variables) (estado : ℕ) (pipe : Option ℕ) (h : estado ≠ 0) :
    reglas v (Final.fallo estado pipe h).texto = v := by
  have hpipe (n : ℕ) : 'k' ∉ "pipe ".toList ++ decimal n ∧ '/' ∉ "pipe ".toList ++ decimal n := by
    simp [notMem_decimal]
  cases pipe with
  | none => exact reglas_nil v
  | some n =>
    have htexto : (Final.fallo estado (some n) h).texto = "pipe ".toList ++ decimal n := rfl
    rw [htexto, reglas_eq, not_aparece (c := 'k') (by decide) (by decide) (hpipe n).1,
      not_aparece (c := '/') (by decide) (by decide) (hpipe n).2]
    rfl

theorem get_data_resultado (s : Salida) : get_data s.resultado.salida =
    cifras s.resumen.perdidas.numero ++ ':' :: match s.final with
      | .exito t _ => t.avg.texto
      | .fallo _ _ _ => BEGIN.rtt := by
  obtain ⟨anteriores, resumen, final, respuesta, otras⟩ := s
  have hlines (v : Variables) : (anteriores ++ [resumen.texto, final.texto]).foldl reglas v =
      reglas (reglas (anteriores.foldl reglas v) resumen.texto) final.texto := by
    rw [List.foldl_append, List.foldl_cons, List.foldl_cons, List.foldl_nil]
  rw [get_data, foldl_rdropWhile, Salida.resultado, hlines, reglas_resumen, rtt_foldl otras]
  cases final with
  | exito t pipe => rw [reglas_exito]
  | fallo estado pipe h => rw [reglas_fallo]

theorem colon_notMem_cifras (x : Decimal) : ':' ∉ cifras x := by
  intro h
  exact absurd (isDigit_cifras x ':' h) (by decide)

end Reading

section Agreement

/-- Some reply has arrived, and the digits next to the percent sign are those that PHP reads. -/
def Legible (r : Resumen) : Prop := 0 < r.rx ∧ ultimas r.perdidas.numero = r.leida

theorem ping_perdidas_resultado (s : Salida) :
    (estadisticas s.resultado).ping_perdidas = s.resumen.leida := by
  have hlinea : desdeElFinal s.resultado.salida 2 = s.resumen.texto :=
    desdeElFinal_append s.anteriores le_rfl
  rw [estadisticas, hlinea]
  exact s.resumen.ping_perdidas

theorem ping_promedio_resultado (s : Salida) (f : Fila) (e : Entorno) :
    (obtenerPing s.resultado f.dispositivo e).1.ping_promedio = s.final.promedio none := by
  have hlinea :=
    desdeElFinal_append (k := 1) (s.anteriores ++ [s.resumen.texto]) (t := [s.final.texto]) le_rfl
  rw [List.append_assoc] at hlinea
  rw [obtenerPing_final rfl hlinea]
  rfl

theorem explode_get_data (s : Salida) : explode ':' (get_data s.resultado.salida) =
    [cifras s.resumen.perdidas.numero, match s.final with
      | .exito t _ => t.avg.texto
      | .fallo _ _ _ => BEGIN.rtt] := by
  rw [get_data_resultado, explode_append (colon_notMem_cifras _), explode_of_notMem]
  cases s.final with
  | exito t pipe => exact notMem_texto (by decide) (by decide) (by decide) t.avg
  | fallo estado pipe h =>
    have hbegin : ':' ∉ BEGIN.rtt := by decide
    exact hbegin

theorem numero_cifras (r : Resumen) :
    (∃ q, numero (cifras r.perdidas.numero) = some q ∧ ⌊q⌋ = (r.leida : ℤ)) ↔
      ultimas r.perdidas.numero = r.leida := by
  rw [numero_digits (cifras_ne_nil _) (isDigit_cifras _), valueOf_cifras]
  constructor
  · intro h
    obtain ⟨q, hq, hfloor⟩ := h
    rw [← Option.some.inj hq, Int.floor_natCast] at hfloor
    exact_mod_cast hfloor
  · intro h
    refine ⟨_, rfl, ?_⟩
    rw [Int.floor_natCast, h]

/-- Without a reply the shell reports the time that it starts from. -/
theorem numero_begin : numero BEGIN.rtt ≠ none := by
  have hnumeric : (numeric BEGIN.rtt).isSome := rfl
  rw [numero, if_pos hnumeric]
  exact Option.some_ne_none _

theorem Concuerdan.legible {s : Salida} {f : Fila} {e : Entorno} (h : Concuerdan s f e) :
    Legible s.resumen := by
  obtain ⟨pl, rtt, heq, hpl, -, hnone⟩ := h
  rw [explode_get_data] at heq
  obtain ⟨rfl, hrtt⟩ := List.cons.inj heq
  obtain ⟨rfl, -⟩ := List.cons.inj hrtt
  rw [ping_perdidas_resultado] at hpl
  refine ⟨?_, (numero_cifras s.resumen).mp hpl⟩
  by_contra hrx
  have hestado : s.final.estado ≠ 0 := fun h ↦ hrx (s.respuesta.mp h)
  have hno := (hnone (Nat.eq_zero_of_not_pos hrx)).1
  generalize s.final = final at hestado hno
  cases final with
  | exito t pipe => exact hestado rfl
  | fallo estado pipe h => exact numero_begin hno

/-- The parsers agree exactly on the outputs with a reply where the percentage has
no fraction, or one with the digits of the whole part. -/
theorem concuerdan_iff (s : Salida) (f : Fila) (e : Entorno) :
    Concuerdan s f e ↔ Legible s.resumen := by
  constructor
  · exact Concuerdan.legible
  · intro h
    obtain ⟨hrx, hultimas⟩ := h
    refine ⟨_, _, explode_get_data s, ?_, fun _ ↦ ?_, fun hzero ↦ absurd hzero hrx.ne'⟩
    · rw [ping_perdidas_resultado]
      exact (numero_cifras s.resumen).mpr hultimas
    · rw [ping_promedio_resultado]
      have hestado := s.respuesta.mpr hrx
      generalize s.final = final at hestado
      cases final with
      | exito t pipe => exact ⟨t.avg.valor, numero_texto t.avg, rfl⟩
      | fallo estado pipe h => exact absurd hestado h

def dosDeTres : Resumen where
  tx := 3
  rx := 2
  errores := none
  perdidas :=
    { numero := ⟨false, 33, [3, 3, 3, 3]⟩
      positivo := rfl
      acotado := by
        have hdecimales : valueOf (Decimal.decimales ⟨false, 33, [3, 3, 3, 3]⟩) = 3333 := rfl
        rw [Decimal.valor, hdecimales]
        norm_num }
  tiempo := 2003
  junto := true

def milisegundos : Tiempos := ⟨⟨false, 1, []⟩, ⟨false, 2, []⟩, ⟨false, 3, []⟩, ⟨false, 1, []⟩⟩

/-- The shell reads 3333 where PHP reads 33. -/
theorem not_concuerdan : ¬ ∀ (s : Salida) (f : Fila) (e : Entorno), Concuerdan s f e := by
  intro h
  have hlegible := (h ⟨[], dosDeTres, .exito milisegundos none, iff_of_true rfl (by decide),
    fun _ hl ↦ absurd hl List.not_mem_nil⟩ unaFila vacio).legible
  exact absurd hlegible.2 (by decide)

end Agreement

end ServiciosRed.Latency
