import ServiciosRed.Php

namespace ServiciosRed.Python

open Text Php

inductive Excepcion
  | TypeError | ValueError | IndexError | OSError | RrdtoolError
  deriving DecidableEq

theorem isOk_bind_iff {ε α β : Type} {x : Except ε α} {f : α → Except ε β} :
    (x >>= f).isOk ↔ ∃ a, x = .ok a ∧ (f a).isOk := by
  cases x with
  | error e => simp [bind, Except.bind, Except.isOk, Except.toBool]
  | ok a => simp [bind, Except.bind]

theorem bind_eq_ok_iff {ε α β : Type} {x : Except ε α} {f : α → Except ε β} {b : β} :
    (x >>= f) = .ok b ↔ ∃ a, x = .ok a ∧ f a = .ok b := by
  cases x with
  | error e => simp [bind, Except.bind]
  | ok a => simp [bind, Except.bind]

theorem isOk_iff_exists {ε α : Type} {x : Except ε α} : x.isOk ↔ ∃ a, x = .ok a := by
  cases x with
  | error e => simp [Except.isOk, Except.toBool]
  | ok a => simp [Except.isOk, Except.toBool]

def strip (s : Texto) : Texto := ((s.dropWhile isSpace).reverse.dropWhile isSpace).reverse

/-- The decimal digits of a whole number, with a sign before them and white space around. -/
def isWhole (s : Texto) : Bool :=
  let t := (readSign (strip s)).2
  t ≠ [] ∧ t.all Char.isDigit

/-- `int(x)` for a string or None -/
def int : Option Texto → Except Excepcion ℤ
  | none => .error .TypeError
  | some s =>
    if isWhole s then
      let t := readSign (strip s)
      .ok (signed t.1 (valueOf t.2))
    else .error .ValueError

section Numbers

theorem int_none : int none = .error .TypeError := rfl

theorem isOk_int_iff {x : Option Texto} : (int x).isOk ↔ ∃ s, x = some s ∧ isWhole s := by
  cases x with
  | none => simp [int, Except.isOk, Except.toBool]
  | some s => by_cases h : isWhole s <;> simp [int, h, Except.isOk, Except.toBool]

theorem strip_eq {s : Texto} (h : ∀ c ∈ s, isSpace c = false) : strip s = s := by
  have hreverse : ∀ c ∈ s.reverse, isSpace c = false := by
    intro c hc
    exact h c (List.mem_reverse.1 hc)
  rw [strip, dropWhile_of_forall h, dropWhile_of_forall hreverse, List.reverse_reverse]

theorem isSpace_of_isDigit {c : Char} (h : c.isDigit) : isSpace c = false :=
  of_isDigit h (by decide)

theorem readSign_digits {n : ℕ} (rest : Texto) :
    readSign (decimal n ++ rest) = (false, decimal n ++ rest) := by
  obtain ⟨c, cs, hn⟩ := List.exists_cons_of_ne_nil (decimal_ne_nil n)
  have hc : c.isDigit := isDigit_of_mem_decimal (n := n) (hn ▸ List.mem_cons_self)
  rw [hn, List.cons_append]
  unfold readSign
  split
  · rename_i h
    cases h
    cases hc
  · rename_i h
    cases h
    cases hc
  · rfl

def signText (negative : Bool) : Texto := if negative then ['-'] else []

theorem readSign_signText (negative : Bool) (n : ℕ) (rest : Texto) :
    readSign (signText negative ++ (decimal n ++ rest)) = (negative, decimal n ++ rest) := by
  cases negative with
  | false => exact readSign_digits rest
  | true => rfl

theorem dropWhile_signText (negative : Bool) (n : ℕ) (rest : Texto) :
    (signText negative ++ (decimal n ++ rest)).dropWhile isSpace = signText negative ++
      (decimal n ++ rest) := by
  cases negative with
  | false =>
    obtain ⟨c, cs, hn⟩ := List.exists_cons_of_ne_nil (decimal_ne_nil n)
    have hc : c.isDigit := isDigit_of_mem_decimal (n := n) (hn ▸ List.mem_cons_self)
    simp only [signText, Bool.false_eq_true, if_false, List.nil_append, hn, List.cons_append,
      List.dropWhile_cons, isSpace_of_isDigit hc]
  | true => rfl

theorem intText_eq (z : ℤ) : intText z = signText (decide (z < 0)) ++ (decimal z.natAbs ++ []) := by
  unfold intText signText
  by_cases h : z < 0 <;> simp [h]

theorem isSpace_of_mem_signText {negative : Bool} {c : Char} (h : c ∈ signText negative) :
    isSpace c = false := by
  unfold signText at h
  split_ifs at h
  · rw [List.mem_singleton.1 h]
    rfl
  · cases h

theorem strip_intText (z : ℤ) : strip (intText z) = intText z := by
  apply strip_eq
  intro c hc
  rw [intText_eq, List.append_nil] at hc
  rcases List.mem_append.1 hc with hc | hc
  · exact isSpace_of_mem_signText hc
  · exact isSpace_of_isDigit (isDigit_of_mem_decimal hc)

theorem int_intText (z : ℤ) : int (some (intText z)) = .ok z := by
  have hall : (decimal z.natAbs ++ []).all Char.isDigit := by
    rw [List.append_nil, List.all_eq_true]
    intro c hc
    exact isDigit_of_mem_decimal hc
  have hne : decimal z.natAbs ++ [] ≠ [] := by
    rw [List.append_nil]
    exact decimal_ne_nil _
  have hwhole : isWhole (intText z) := by
    rw [isWhole, strip_intText]
    simp only [intText_eq, readSign_signText, hne, hall, ne_eq, not_false_eq_true, and_self,
      decide_true]
  rw [int, if_pos hwhole, strip_intText, intText_eq, readSign_signText, List.append_nil]
  dsimp only
  rw [valueOf_decimal]
  congr 1
  by_cases h : z < 0
  · simp only [signed, h, decide_true, if_true]
    omega
  · simp only [signed, h, decide_false, Bool.false_eq_true, if_false]
    omega

theorem int_eq_ok_iff {s : Texto} : (int (some s)).isOk ↔ isWhole s := by
  rw [isOk_int_iff]
  simp

end Numbers

/-- A number as PHP prints it. -/
structure Impreso where
  negative : Bool
  entera : ℕ
  fraccion : List (Fin 10)
  exponente : Option ℤ
  deriving DecidableEq

namespace Impreso

def textoFraccion (x : Impreso) : Texto :=
  if x.fraccion = [] then [] else '.' :: x.fraccion.map fun d ↦ d.val.digitChar

def textoExponente (x : Impreso) : Texto :=
  match x.exponente with
  | none => []
  | some e => 'E' :: (if e < 0 then '-' else '+') :: decimal e.natAbs

def texto (x : Impreso) : Texto :=
  signText x.negative ++ (decimal x.entera ++ (x.textoFraccion ++ x.textoExponente))

def ofInt (z : ℤ) : Impreso := ⟨decide (z < 0), z.natAbs, [], none⟩

theorem texto_ofInt (z : ℤ) : (ofInt z).texto = intText z := (intText_eq z).symm

variable (x : Impreso)

theorem strip_texto : strip x.texto = x.texto := by
  have hdigit : ∀ d : Fin 10, isSpace d.val.digitChar = false := by decide
  apply strip_eq
  intro c hc
  simp only [texto, List.mem_append] at hc
  rcases hc with hc | hc | hc | hc
  · exact isSpace_of_mem_signText hc
  · exact isSpace_of_isDigit (isDigit_of_mem_decimal hc)
  · unfold textoFraccion at hc
    split_ifs at hc
    · cases hc
    · rcases List.mem_cons.1 hc with rfl | hc
      · rfl
      · obtain ⟨d, -, rfl⟩ := List.mem_map.1 hc
        exact hdigit d
  · cases he : x.exponente with
    | none =>
      rw [textoExponente, he] at hc
      cases hc
    | some e =>
      simp only [textoExponente, he, List.mem_cons] at hc
      rcases hc with rfl | rfl | hc
      · rfl
      · split_ifs <;> rfl
      · exact isSpace_of_isDigit (isDigit_of_mem_decimal hc)

theorem isWhole_texto : isWhole x.texto ↔ x.fraccion = [] ∧ x.exponente = none := by
  have hne : decimal x.entera ≠ [] := decimal_ne_nil _
  have hdigits : (decimal x.entera).all Char.isDigit :=
    List.all_eq_true.2 fun c hc ↦ isDigit_of_mem_decimal hc
  rw [isWhole, strip_texto]
  simp only [texto, readSign_signText, ne_eq, List.append_eq_nil_iff, hne, false_and,
    not_false_eq_true, List.all_append, hdigits, Bool.true_and, true_and, Bool.and_eq_true,
    decide_eq_true_eq]
  constructor
  · intro h
    obtain ⟨hf, he⟩ := h
    constructor
    · by_contra hno
      simp only [textoFraccion, hno, if_false, List.all_cons] at hf
      cases hf
    · cases hx : x.exponente with
      | none => rfl
      | some e =>
        simp only [textoExponente, hx, List.all_cons] at he
        cases he
  · intro h
    simp only [textoFraccion, textoExponente, h.1, h.2, if_true, List.all_nil, and_self]

theorem takeWhile_digits {ds rest : Texto} (hds : ∀ c ∈ ds, c.isDigit)
    (hrest : rest.takeWhile Char.isDigit = []) : (ds ++ rest).takeWhile Char.isDigit = ds := by
  rw [List.takeWhile_append_of_pos hds, hrest, List.append_nil]

theorem dropWhile_digits {ds rest : Texto} (hds : ∀ c ∈ ds, c.isDigit)
    (hrest : rest.takeWhile Char.isDigit = []) : (ds ++ rest).dropWhile Char.isDigit = rest := by
  rw [List.dropWhile_append_of_pos hds]
  have h := List.takeWhile_append_dropWhile (p := Char.isDigit) (l := rest)
  rwa [hrest, List.nil_append] at h

theorem isDigit_decimal (n : ℕ) : ∀ c ∈ decimal n, c.isDigit := by
  intro c hc
  exact isDigit_of_mem_decimal hc

theorem takeWhile_textoExponente : x.textoExponente.takeWhile Char.isDigit = [] := by
  unfold textoExponente
  split
  · rfl
  · rfl

theorem takeWhile_textoFraccion :
    (x.textoFraccion ++ x.textoExponente).takeWhile Char.isDigit = [] := by
  unfold textoFraccion
  split_ifs
  · exact x.takeWhile_textoExponente
  · rfl

theorem readExponent_texto : (readExponent x.textoExponente).2 = [] := by
  unfold textoExponente
  split
  · rfl
  · rename_i e _
    have hsign : readSign ((if e < 0 then '-' else '+') :: decimal e.natAbs) =
        (decide (e < 0), decimal e.natAbs) := by
      by_cases h : e < 0
      · simp only [h, if_true, decide_true]
        rfl
      · simp only [h, if_false, decide_false]
        rfl
    have hnil : ([] : Texto).takeWhile Char.isDigit = [] := rfl
    have htake := takeWhile_digits (isDigit_decimal e.natAbs) hnil
    have hdrop := dropWhile_digits (isDigit_decimal e.natAbs) hnil
    rw [List.append_nil] at htake hdrop
    simp only [readExponent, hsign, htake, hdrop, decimal_ne_nil, ne_eq, not_false_eq_true,
      or_true, true_and, if_true]

theorem readFraction_texto :
    (readFraction (x.textoFraccion ++ x.textoExponente)).2 = x.textoExponente := by
  unfold textoFraccion
  split_ifs
  · rw [List.nil_append]
    unfold textoExponente
    split
    · rfl
    · rfl
  · have hdigits : ∀ c ∈ x.fraccion.map fun d ↦ d.val.digitChar, c.isDigit := by
      intro c hc
      obtain ⟨d, -, rfl⟩ := List.mem_map.1 hc
      have hall : ∀ d : Fin 10, d.val.digitChar.isDigit := by decide
      exact hall d
    exact dropWhile_digits hdigits x.takeWhile_textoExponente

theorem isSome_numeric_texto : (numeric x.texto).isSome := by
  have hentera := isDigit_decimal x.entera
  have htake := takeWhile_digits hentera x.takeWhile_textoFraccion
  have hdrop := dropWhile_digits hentera x.takeWhile_textoFraccion
  have hne : decimal x.entera ≠ [] := decimal_ne_nil _
  simp only [numeric, readNumeral, texto, dropWhile_signText, readSign_signText, htake, hdrop,
    hne, false_and, if_false, readFraction_texto, readExponent_texto, Option.isSome_some]

theorem head?_texto : x.texto.head? ≠ some 'U' := by
  intro h
  unfold texto signText at h
  split_ifs at h
  · cases h
  · obtain ⟨c, cs, hn⟩ := List.exists_cons_of_ne_nil (decimal_ne_nil x.entera)
    have hc : c.isDigit := isDigit_of_mem_decimal (n := x.entera) (hn ▸ List.mem_cons_self)
    rw [hn] at h
    cases h
    cases hc

end Impreso

section Conversion

variable {s : Texto}

theorem intval_signText (hrest : s.takeWhile Char.isDigit = []) (negative : Bool) (n : ℕ) :
    intval (signText negative ++ (decimal n ++ s)) =
      max longMin (min longMax (signed negative n)) := by
  rw [intval, dropWhile_signText, readSign_signText]
  simp only [Impreso.takeWhile_digits (Impreso.isDigit_decimal n) hrest, valueOf_decimal]

theorem longMin_le (n : ℕ) : longMin ≤ min longMax (n : ℤ) := by
  simp only [longMin, longMax]
  omega

theorem intval_decimal_append (hrest : s.takeWhile Char.isDigit = []) (n : ℕ) :
    intval (decimal n ++ s) = min longMax n := by
  have h := intval_signText hrest false n
  rwa [signed, if_neg (by decide), max_eq_right (longMin_le n)] at h

theorem intval_plus (hrest : s.takeWhile Char.isDigit = []) (n : ℕ) :
    intval ('+' :: (decimal n ++ s)) = min longMax n := by
  have hsign : readSign (('+' :: (decimal n ++ s)).dropWhile isSpace) = (false, decimal n ++ s) :=
    rfl
  rw [intval, hsign]
  simp only [Impreso.takeWhile_digits (Impreso.isDigit_decimal n) hrest, valueOf_decimal]
  exact max_eq_right (longMin_le n)

end Conversion

end ServiciosRed.Python
