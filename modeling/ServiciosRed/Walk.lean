import ServiciosRed.Ping

namespace ServiciosRed.Walk

open Text Php Python Monitorizacion Ping

section Patterns

variable {p t a b : Texto} {c d : Char}

/-- A dot of the pattern has another character behind it. -/
def firme (p : Texto) : Bool := p.tails.all fun t ↦ t.head? ≠ some '.' || (t[1]?).any (· ≠ '.')

structure Separa (p : Texto) (c : Char) : Prop where
  notMem : c ∉ p
  head : p.head? ≠ some '.'
  nonempty : p ≠ []

theorem aparece_cons (p : Texto) (c : Char) (t : Texto) :
    aparece p (c :: t) = (encaja p (c :: t) || aparece p t) := by
  rw [aparece, List.tails_cons, List.any_cons]
  rfl

theorem Separa.encaja_cons (h : Separa p c) (t : Texto) : encaja p (c :: t) = false := by
  cases p with
  | nil => exact absurd rfl h.nonempty
  | cons q p =>
    have hdot : q ≠ '.' := fun hq ↦ h.head (congrArg some hq)
    have hc : c ≠ q := fun hq ↦ h.notMem (hq ▸ List.mem_cons_self)
    simp [encaja, hdot, hc]

theorem Separa.aparece_cons (h : Separa p c) (t : Texto) : aparece p (c :: t) = aparece p t := by
  rw [Walk.aparece_cons, h.encaja_cons, Bool.false_or]

theorem encaja_append (hp : firme p) (hc : c ∉ p) (hd : d ∉ p) (a b : Texto) :
    encaja p (a ++ c :: d :: b) = encaja p a := by
  induction a generalizing p with
  | nil =>
    cases p with
    | nil => rfl
    | cons q p =>
      rw [List.mem_cons, not_or] at hc hd
      by_cases hq : q = '.'
      · subst hq
        cases p with
        | nil => exact absurd hp (by decide)
        | cons x p =>
          rw [List.mem_cons, not_or] at hd
          rw [firme, List.tails_cons, List.all_cons, Bool.and_eq_true] at hp
          have hx : x ≠ '.' := by simpa using hp.1
          simp [encaja, hx, hd.2.1]
      · simp [encaja, hq, hc.1]
  | cons x a ih =>
    cases p with
    | nil => rfl
    | cons q p =>
      have hp' : firme p := by
        rw [firme, List.tails_cons, List.all_cons, Bool.and_eq_true] at hp
        exact hp.2
      rw [List.cons_append, encaja, encaja,
        ih hp' (List.not_mem_of_not_mem_cons hc) (List.not_mem_of_not_mem_cons hd)]

theorem aparece_append (hp : firme p) (hc : Separa p c) (hd : Separa p d) (a b : Texto) :
    aparece p (a ++ c :: d :: b) = (aparece p a || aparece p b) := by
  induction a with
  | nil =>
    have hnil : aparece p [] = false := by
      cases p with
      | nil => exact absurd rfl hc.nonempty
      | cons q p => rfl
    rw [List.nil_append, hc.aparece_cons, hd.aparece_cons, hnil, Bool.false_or]
  | cons x a ih =>
    have hx := encaja_append hp hc.notMem hd.notMem (x :: a) b
    rw [List.cons_append] at hx ⊢
    rw [aparece_cons, aparece_cons, ih, hx, Bool.or_assoc]

end Patterns

section Lines

structure Nombre where
  inicial : Char
  resto : Texto
  letra : inicial.isAlpha
  signos : ∀ c ∈ resto, c.isAlphanum ∨ c = '-'

def Nombre.texto (n : Nombre) : Texto := n.inicial :: n.resto

/-- The loaded MIBs: the names of a module and an object for the numbers of the object. All
numbers are taken behind `iso`. -/
abbrev Mib := List ℕ → Option (Nombre × Nombre)

def subidentificadores (ns : List ℕ) : Texto := ns.flatMap fun n ↦ '.' :: decimal n

/-- An OID as it is printed: the longest part of it that has a name, and the numbers of the
rest. -/
def imprime (mib : Mib) (oid : List ℕ) : Texto :=
  match oid.inits.reverse.findSome? fun p ↦ (mib p).map fun n ↦ (n, oid.drop p.length) with
  | some ((modulo, objeto), resto) =>
    modulo.texto ++ (':' :: ':' :: (objeto.texto ++ subidentificadores resto))
  | none => "iso".toList ++ subidentificadores oid

inductive Tipo
  | INTEGER | Counter32 | Counter64 | Gauge32
  deriving DecidableEq

def Tipo.texto : Tipo → Texto
  | INTEGER => "INTEGER".toList
  | Counter32 => "Counter32".toList
  | Counter64 => "Counter64".toList
  | Gauge32 => "Gauge32".toList

/-- A number with the units that its MIB may give, the name of a number, or a text in quotes. -/
inductive Valor
  | numero (tipo : Tipo) (x : Decimal) (unidades : Option Texto)
  | enumerado (etiqueta : Nombre) (z : ℤ)
  | cadena (s : Texto)

namespace Valor

def tipo : Valor → Texto
  | numero t _ _ => t.texto
  | enumerado _ _ => Tipo.INTEGER.texto
  | cadena _ => "STRING".toList

def texto : Valor → Texto
  | numero _ x (some unidades) => x.texto ++ ' ' :: unidades
  | numero _ x none => x.texto
  | enumerado etiqueta z => etiqueta.texto ++ '(' :: (intText z ++ [')'])
  | cadena s => '"' :: (s ++ ['"'])

end Valor

structure Renglon where
  oid : List ℕ
  valor : Valor

/-- `OID = TYPE: value` -/
def Renglon.texto (mib : Mib) (r : Renglon) : Texto :=
  imprime mib r.oid ++ ' ' :: '=' :: ' ' :: (r.valor.tipo ++ ':' :: ' ' :: r.valor.texto)

structure Respuesta where
  renglones : List Renglon
  ascendente : renglones.Pairwise fun r r' ↦ r.oid < r'.oid

end Lines

section Selection

def arcos (o : Objeto) : List ℕ := ((explode '.' o.oid.toList).drop 1).map valueOf

def Pide (o : Objeto) (r : Renglon) : Prop := arcos o <+: r.oid

instance (o : Objeto) (r : Renglon) : Decidable (Pide o r) := inferInstanceAs (Decidable (_ <+: _))

/-- `/oid/||/nombre/` -/
def selecciona (o : Objeto) (l : Texto) : Bool :=
  (patron o.oid).matchesIn l || (patron o.nombre).matchesIn l

def apareceObjeto (o : Objeto) (t : Texto) : Bool :=
  aparece o.oid.toList t || aparece o.nombre.toList t

theorem selecciona_eq (o : Objeto) (l : Texto) : selecciona o l = apareceObjeto o l := by
  rw [selecciona, matchesIn_patron, matchesIn_patron, apareceObjeto]

theorem firme_objeto (o : Objeto) : firme o.oid.toList ∧ firme o.nombre.toList := by
  cases o <;> decide

theorem separa_objeto (o : Objeto) {c : Char} (h : c ∈ [' ', '=', ':']) :
    Separa o.oid.toList c ∧ Separa o.nombre.toList c := by
  have hall : ∀ c ∈ [' ', '=', ':'], c ∉ o.oid.toList ∧ c ∉ o.nombre.toList := by
    cases o <;> decide
  have hhead : (o.oid.toList.head? ≠ some '.' ∧ o.oid.toList ≠ []) ∧
      (o.nombre.toList.head? ≠ some '.' ∧ o.nombre.toList ≠ []) := by
    cases o <;> decide
  exact ⟨⟨(hall c h).1, hhead.1.1, hhead.1.2⟩, ⟨(hall c h).2, hhead.2.1, hhead.2.2⟩⟩

theorem apareceObjeto_append (o : Objeto) {c d : Char} (hc : c ∈ [' ', '=', ':'])
    (hd : d ∈ [' ', '=', ':']) (a b : Texto) :
    apareceObjeto o (a ++ c :: d :: b) = (apareceObjeto o a || apareceObjeto o b) := by
  rw [apareceObjeto,
    aparece_append (firme_objeto o).1 (separa_objeto o hc).1 (separa_objeto o hd).1, aparece_append
      (firme_objeto o).2 (separa_objeto o hc).2 (separa_objeto o hd).2, apareceObjeto,
        apareceObjeto]
  cases aparece o.oid.toList a <;> cases aparece o.nombre.toList a <;> simp

theorem apareceObjeto_cons (o : Objeto) {c : Char} (hc : c ∈ [' ', '=', ':']) (t : Texto) :
    apareceObjeto o (c :: t) = apareceObjeto o t := by
  rw [apareceObjeto, (separa_objeto o hc).1.aparece_cons, (separa_objeto o hc).2.aparece_cons,
    apareceObjeto]

theorem apareceObjeto_texto (o : Objeto) (t : Tipo) : apareceObjeto o t.texto = false := by
  cases o <;> cases t <;> decide

theorem apareceObjeto_tipo (o : Objeto) (v : Valor) : apareceObjeto o v.tipo = false := by
  cases v with
  | numero t x unidades => exact apareceObjeto_texto o t
  | enumerado etiqueta z => exact apareceObjeto_texto o .INTEGER
  | cadena s =>
    have hstring : apareceObjeto o "STRING".toList = false := by
      cases o <;> decide
    exact hstring

def Nombra (mib : Mib) (o : Objeto) (r : Renglon) : Prop :=
  apareceObjeto o (imprime mib r.oid) ∨ apareceObjeto o r.valor.texto

instance (mib : Mib) (o : Objeto) (r : Renglon) : Decidable (Nombra mib o r) :=
  inferInstanceAs (Decidable (_ ∨ _))

theorem selecciona_texto (mib : Mib) (o : Objeto) (r : Renglon) :
    selecciona o (r.texto mib) = decide (Nombra mib o r) := by
  rw [selecciona_eq, Renglon.texto, apareceObjeto_append o (by decide) (by decide),
    apareceObjeto_cons o (by decide), apareceObjeto_append o (by decide) (by decide),
    apareceObjeto_tipo, Bool.false_or, Bool.eq_iff_iff, decide_eq_true_iff, Bool.or_eq_true]
  exact Iff.rfl

end Selection

section Fourth

def esBlanco (c : Char) : Bool := c = ' ' || c = '\t'

def Palabra (s : Texto) : Prop := s ≠ [] ∧ ∀ c ∈ s, esBlanco c = false

theorem campos_cons {s : Texto} (h : Palabra s) {b : Char} (hb : esBlanco b) (t : Texto) :
    campos (s ++ b :: t) = s :: campos t := by
  have hsplit : (s ++ b :: t).splitOnP esBlanco = s :: t.splitOnP esBlanco :=
    List.splitOnP_append_cons_of_forall_mem h.2 b hb t
  have hcampos (u : Texto) : campos u = (u.splitOnP esBlanco).filter (· ≠ []) := rfl
  rw [hcampos, hcampos, hsplit, List.filter_cons_of_pos (by simpa using h.1)]

theorem campos_palabra {s : Texto} (h : Palabra s) : campos s = [s] := by
  have hcampos : campos s = (s.splitOnP esBlanco).filter (· ≠ []) := rfl
  rw [hcampos, List.splitOnP_eq_singleton h.2, List.filter_cons_of_pos (by simpa using h.1),
    List.filter_nil]

theorem head?_campos {s : Texto} (h : (s.takeWhile fun c ↦ !esBlanco c) ≠ []) :
    (campos s)[0]? = some (s.takeWhile fun c ↦ !esBlanco c) := by
  have hpalabra : Palabra (s.takeWhile fun c ↦ !esBlanco c) := by
    refine ⟨h, ?_⟩
    intro c hc
    simpa using List.mem_takeWhile_imp hc
  have hs := List.takeWhile_append_dropWhile (p := fun c ↦ !esBlanco c) (l := s)
  cases hrest : s.dropWhile fun c ↦ !esBlanco c with
  | nil =>
    rw [hrest, List.append_nil] at hs
    rw [hs] at hpalabra ⊢
    rw [campos_palabra hpalabra]
    rfl
  | cons b t =>
    have hb : esBlanco b := by
      have hhead := List.head_dropWhile_not (fun c ↦ !esBlanco c) (l := s) (by simp [hrest])
      simpa [hrest] using hhead
    rw [hrest] at hs
    have hcampos := campos_cons hpalabra hb t
    rw [hs] at hcampos
    rw [hcampos]
    rfl

theorem esBlanco_of_isAlphanum {c : Char} (h : c.isAlphanum) : esBlanco c = false := by
  by_contra hb
  rw [Bool.not_eq_false, esBlanco, Bool.or_eq_true, decide_eq_true_iff, decide_eq_true_iff] at hb
  rcases hb with rfl | rfl
  · exact absurd h (by decide)
  · exact absurd h (by decide)

theorem esBlanco_of_isDigit {c : Char} (h : c.isDigit) : esBlanco c = false :=
  esBlanco_of_isAlphanum (by rw [Char.isAlphanum, h, Bool.or_true])

theorem Nombre.esBlanco_texto (n : Nombre) : ∀ c ∈ n.texto, esBlanco c = false := by
  intro c hc
  rcases List.mem_cons.mp hc with rfl | hc
  · exact esBlanco_of_isAlphanum (by rw [Char.isAlphanum, n.letra, Bool.true_or])
  · rcases n.signos c hc with h | rfl
    · exact esBlanco_of_isAlphanum h
    · decide

theorem esBlanco_subidentificadores (ns : List ℕ) :
    ∀ c ∈ subidentificadores ns, esBlanco c = false := by
  intro c hc
  obtain ⟨n, -, hc⟩ := List.mem_flatMap.mp hc
  rcases List.mem_cons.mp hc with rfl | hc
  · decide
  · exact esBlanco_of_isDigit (isDigit_of_mem_decimal hc)

theorem palabra_imprime (mib : Mib) (oid : List ℕ) : Palabra (imprime mib oid) := by
  unfold imprime
  split
  · rename_i modulo objeto resto _
    refine ⟨by simp [Nombre.texto], ?_⟩
    intro c hc
    simp only [List.mem_append, List.mem_cons] at hc
    rcases hc with hc | rfl | rfl | hc | hc
    · exact modulo.esBlanco_texto c hc
    · decide
    · decide
    · exact objeto.esBlanco_texto c hc
    · exact esBlanco_subidentificadores resto c hc
  · refine ⟨by simp, ?_⟩
    intro c hc
    rcases List.mem_append.mp hc with hc | hc
    · have hall : ∀ c ∈ "iso".toList, esBlanco c = false := by decide
      exact hall c hc
    · exact esBlanco_subidentificadores oid c hc

theorem palabra_tipo (v : Valor) : Palabra (v.tipo ++ [':']) := by
  refine ⟨by simp, ?_⟩
  have hall (t : Tipo) : ∀ c ∈ t.texto ++ [':'], esBlanco c = false := by
    cases t <;> decide
  cases v with
  | numero t x unidades => exact hall t
  | enumerado etiqueta z => exact hall .INTEGER
  | cadena s =>
    have hstring : ∀ c ∈ "STRING".toList ++ [':'], esBlanco c = false := by decide
    exact hstring

theorem campos_texto (mib : Mib) (r : Renglon) :
    (campos (r.texto mib))[3]? = (campos r.valor.texto)[0]? := by
  have hespacio : esBlanco ' ' := by decide
  have hlinea : r.texto mib =
      imprime mib r.oid ++ ' ' ::
        (['='] ++ ' ' :: ((r.valor.tipo ++ [':']) ++ ' ' :: r.valor.texto)) := by
    rw [Renglon.texto, List.append_assoc]
    rfl
  have higual : Palabra ['='] := ⟨by decide, by decide⟩
  rw [hlinea, campos_cons (palabra_imprime mib r.oid) hespacio, campos_cons higual hespacio,
    campos_cons (palabra_tipo r.valor) hespacio]
  rfl

end Fourth

section Values

def parteEntera (x : Decimal) : ℤ := signed x.negative x.entera

namespace Valor

def leido : Valor → ℤ
  | numero _ x _ => max longMin (min longMax (parteEntera x))
  | _ => 0

/-- The integer part of the number that is printed. A text in quotes may print one too. -/
def Denota : Valor → ℤ → Prop
  | numero _ x _, n => n = parteEntera x
  | enumerado _ z, n => n = z
  | cadena s, n => ∃ x : Decimal, s = x.texto ∧ n = parteEntera x

def Legible : Valor → Prop
  | numero _ x _ => longMin ≤ parteEntera x ∧ parteEntera x ≤ longMax
  | enumerado _ z => z = 0
  | cadena s => ∀ x : Decimal, s = x.texto → x.entera = 0

theorem legible_iff (v : Valor) : v.Legible ↔ ∀ n, v.Denota n → v.leido = n := by
  cases v with
  | numero t x unidades =>
    simp only [Legible, Denota, leido, forall_eq, longMin, longMax]
    omega
  | enumerado etiqueta z =>
    simp only [Legible, Denota, leido, forall_eq]
    exact eq_comm
  | cadena s =>
    constructor
    · intro h n hn
      obtain ⟨x, hs, rfl⟩ := hn
      simp [leido, parteEntera, signed, h x hs]
    · intro h x hs
      have hx := h (parteEntera x) ⟨x, hs, rfl⟩
      simp only [parteEntera, signed, leido] at hx
      split_ifs at hx
      · omega
      · omega

theorem intval_of_head {c : Char} (hspace : isSpace c = false) (hminus : c ≠ '-') (hplus : c ≠ '+')
    (hdigit : c.isDigit = false) (t : Texto) : intval (c :: t) = 0 := by
  have hdrop : (c :: t).dropWhile isSpace = c :: t := List.dropWhile_cons_of_neg (by simp [hspace])
  have hsign : readSign (c :: t) = (false, c :: t) := by
    unfold readSign
    split
    · rename_i h
      exact absurd (List.cons.inj h).1 hminus
    · rename_i h
      exact absurd (List.cons.inj h).1 hplus
    · rfl
  have htake : (c :: t).takeWhile Char.isDigit = [] := List.takeWhile_cons_of_neg (by simp [hdigit])
  rw [intval, hdrop, hsign]
  simp only [htake]
  rfl

theorem intval_of_isAlpha {c : Char} (h : c.isAlpha) (t : Texto) : intval (c :: t) = 0 := by
  have hdigit : c.isDigit = false := by
    by_contra hd
    rw [Bool.not_eq_false] at hd
    have hletter : c.isAlpha = false := of_isDigit hd (by decide)
    rw [hletter] at h
    cases h
  refine intval_of_head ?_ ?_ ?_ hdigit t
  · by_contra hs
    simp only [isSpace, Bool.not_eq_false, Bool.or_eq_true, decide_eq_true_iff] at hs
    rcases hs with ((((rfl | rfl) | rfl) | rfl) | rfl) | rfl <;> exact absurd h (by decide)
  · intro hc
    subst hc
    exact absurd h (by decide)
  · intro hc
    subst hc
    exact absurd h (by decide)

theorem esBlanco_texto (x : Decimal) : ∀ c ∈ x.texto, esBlanco c = false := by
  intro c hc
  by_contra hb
  rw [Bool.not_eq_false, esBlanco, Bool.or_eq_true, decide_eq_true_iff, decide_eq_true_iff] at hb
  rcases hb with rfl | rfl
  · exact notMem_texto (by decide) (by decide) (by decide) x hc
  · exact notMem_texto (by decide) (by decide) (by decide) x hc

theorem takeWhile_numero (t : Tipo) (x : Decimal) (unidades : Option Texto) :
    ((numero t x unidades).texto.takeWhile fun c ↦ !esBlanco c) = x.texto := by
  have hx : ∀ c ∈ x.texto, (!esBlanco c) = true :=
    fun c hc ↦ by rw [esBlanco_texto x c hc, Bool.not_false]
  cases unidades with
  | none => exact List.takeWhile_eq_self_iff.mpr hx
  | some u =>
    rw [texto, List.takeWhile_append_of_pos hx, List.takeWhile_cons_of_neg (by decide),
      List.append_nil]

theorem intval_decimal (x : Decimal) :
    intval x.texto = max longMin (min longMax (parteEntera x)) := by
  rw [x.texto_eq]
  apply intval_signText
  have h := x.impreso.takeWhile_textoFraccion
  rwa [show x.impreso.textoExponente = [] from rfl, List.append_nil] at h

theorem campos_valor (v : Valor) :
    ∃ s, (campos v.texto)[0]? = some s ∧ s ≠ [] ∧ intval s = v.leido := by
  cases v with
  | numero t x unidades =>
    have hne : x.texto ≠ [] := by
      rw [x.texto_eq]
      simp [decimal_ne_nil]
    refine ⟨x.texto, ?_, hne, intval_decimal x⟩
    rw [head?_campos (by rwa [takeWhile_numero]), takeWhile_numero]
  | enumerado etiqueta z =>
    have hhead : (!esBlanco etiqueta.inicial) = true := by
      rw [esBlanco_of_isAlphanum (by rw [Char.isAlphanum, etiqueta.letra, Bool.true_or]),
        Bool.not_false]
    have htake := List.takeWhile_cons_of_pos (p := fun c ↦ !esBlanco c)
      (l := etiqueta.resto ++ '(' :: (intText z ++ [')'])) hhead
    refine ⟨_, head?_campos ?_, ?_, ?_⟩
    · exact fun h ↦ List.cons_ne_nil _ _ (htake.symm.trans h)
    · exact fun h ↦ List.cons_ne_nil _ _ (htake.symm.trans h)
    · exact (congrArg intval htake).trans (intval_of_isAlpha etiqueta.letra _)
  | cadena s =>
    have htake :=
      List.takeWhile_cons_of_pos (p := fun c ↦ !esBlanco c) (a := '"') (l := s ++ ['"']) (by decide)
    refine ⟨_, head?_campos ?_, ?_, ?_⟩
    · exact fun h ↦ List.cons_ne_nil _ _ (htake.symm.trans h)
    · exact fun h ↦ List.cons_ne_nil _ _ (htake.symm.trans h)
    · exact (congrArg intval htake).trans
        (intval_of_head (by decide) (by decide) (by decide) (by decide) _)

end Valor

end Values

section Extraction

variable {mib : Mib} {o : Objeto} {w : Respuesta}

def Respuesta.lineas (mib : Mib) (w : Respuesta) : List Texto := w.renglones.map fun r ↦ r.texto mib

def tomado (mib : Mib) (o : Objeto) (w : Respuesta) : Option Renglon :=
  w.renglones.find? fun r ↦ selecciona o (r.texto mib)

def pedido (o : Objeto) (w : Respuesta) : Option Renglon := w.renglones.find? fun r ↦ Pide o r

/-- The line of the requested object is taken and gives its number, and there is no value when
there is no such line. -/
def Correcta (mib : Mib) (o : Objeto) (w : Respuesta) : Prop :=
  match pedido o w with
  | none => valor o (w.lineas mib) = none
  | some r => tomado mib o w = some r ∧ valor o (w.lineas mib) ≠ none ∧
      ∀ n, r.valor.Denota n → valor o (w.lineas mib) = some n

theorem valor_lineas (mib : Mib) (o : Objeto) (w : Respuesta) :
    valor o (w.lineas mib) = (tomado mib o w).map fun r ↦ r.valor.leido := by
  have hawk (rs : List Renglon) : obtenerValor (awk o (rs.map fun r ↦ r.texto mib)) =
      (rs.find? fun r ↦ selecciona o (r.texto mib)).map fun r ↦ r.valor.leido := by
    induction rs with
    | nil => rfl
    | cons r rs ih =>
      rw [awk, List.map_cons, List.filter_cons, List.find?_cons]
      cases hr : selecciona o (r.texto mib) with
      | false =>
        have hr : ((patron o.oid).matchesIn (r.texto mib) ||
          (patron o.nombre).matchesIn (r.texto mib)) = false := hr
        rw [hr]
        exact ih
      | true =>
        have hr : ((patron o.oid).matchesIn (r.texto mib) ||
          (patron o.nombre).matchesIn (r.texto mib)) = true := hr
        obtain ⟨s, hs, hne, hleido⟩ := r.valor.campos_valor
        rw [hr, if_pos rfl, List.map_cons, campos_texto, hs, Option.getD_some,
          Option.map_some, ← hleido]
        cases s with
        | nil => exact absurd rfl hne
        | cons c s => rfl
  exact hawk w.renglones

def Inequivoca (mib : Mib) (o : Objeto) (w : Respuesta) : Prop :=
  (w.renglones.find? fun r ↦ Nombra mib o r) = pedido o w ∧ ∀ r ∈ pedido o w, r.valor.Legible

theorem correcta_iff (mib : Mib) (o : Objeto) (w : Respuesta) :
    Correcta mib o w ↔ Inequivoca mib o w := by
  have htomado : tomado mib o w = w.renglones.find? fun r ↦ Nombra mib o r := by
    rw [tomado]
    simp only [selecciona_texto]
  rw [Inequivoca, ← htomado, Correcta, valor_lineas]
  cases pedido o w with
  | none => simp
  | some r =>
    constructor
    · intro h
      obtain ⟨htaken, -, hvalor⟩ := h
      refine ⟨htaken, ?_⟩
      rintro r' ⟨⟩
      rw [Valor.legible_iff]
      intro n hn
      have hn := hvalor n hn
      rw [htaken, Option.map_some, Option.some_inj] at hn
      exact hn
    · intro h
      obtain ⟨htaken, hlegible⟩ := h
      rw [htaken, Option.map_some]
      refine ⟨rfl, Option.some_ne_none _, ?_⟩
      intro n hn
      rw [(Valor.legible_iff r.valor).mp (hlegible r rfl) n hn]

def grados : Renglon := ⟨[3, 6, 1, 4, 1, 2620, 1, 6, 7, 8, 1, 1, 3, 1, 0], .cadena "35.00".toList⟩

def sensor : Respuesta := ⟨[grados], List.pairwise_singleton _ _⟩

theorem not_correcta : ¬ ∀ (mib : Mib) (o : Objeto) (w : Respuesta), Correcta mib o w := by
  intro h
  have hsensor := h (fun _ ↦ none) .tempertureSensorValue sensor
  have hpedido : pedido .tempertureSensorValue sensor = some grados :=
    List.find?_cons_of_pos (by decide +kernel)
  rw [Correcta, hpedido] at hsensor
  obtain ⟨htomado, -, hvalor⟩ := hsensor
  have hvalor := hvalor 35 ⟨⟨false, 35, [0, 0]⟩, by decide, rfl⟩
  rw [valor_lineas, htomado] at hvalor
  cases hvalor

end Extraction

end ServiciosRed.Walk
