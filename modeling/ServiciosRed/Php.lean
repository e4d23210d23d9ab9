import ServiciosRed.Text
import Mathlib.Data.Nat.Log

namespace ServiciosRed.Php

open Text

/-- An argument as the listeners pass it on: NULL or a string. -/
abbrev Valor := Option Texto

/-- The string that NULL becomes in a concatenation is empty. -/
def strval (v : Valor) : Texto := v.getD []

def explode (separator : Char) (s : Texto) : List Texto := s.splitOn separator

def strReplace (search replace : Char) (s : Texto) : Texto :=
  s.map fun c ↦ if c = search then replace else c

def longMin : ℤ := -2 ^ 63

def longMax : ℤ := 2 ^ 63 - 1

def readSign : Texto → Bool × Texto
  | '-' :: s => (true, s)
  | '+' :: s => (false, s)
  | s => (false, s)

def signed (negative : Bool) (n : ℕ) : ℤ := if negative then -n else n

/-- `(int) $s`: the leading integer, held inside the range of the type. -/
def intval (s : Texto) : ℤ :=
  let t := readSign (s.dropWhile isSpace)
  max longMin (min longMax (signed t.1 (valueOf (t.2.takeWhile Char.isDigit))))

/-- A numeral with its digits as one number, the point moved into the exponent. -/
structure Numeral where
  negative : Bool
  digits : ℕ
  exponent : ℤ
  deriving DecidableEq

def readFraction : Texto → Texto × Texto
  | '.' :: s => (s.takeWhile Char.isDigit, s.dropWhile Char.isDigit)
  | s => ([], s)

def readExponent : Texto → ℤ × Texto
  | [] => (0, [])
  | c :: s =>
    let t := readSign s
    if (c = 'e' ∨ c = 'E') ∧ t.2.takeWhile Char.isDigit ≠ [] then
      (signed t.1 (valueOf (t.2.takeWhile Char.isDigit)), t.2.dropWhile Char.isDigit)
    else (0, c :: s)

def readNumeral (s : Texto) : Option (Numeral × Texto) :=
  let t := readSign s
  let entera := t.2.takeWhile Char.isDigit
  let fraccion := readFraction (t.2.dropWhile Char.isDigit)
  let exponente := readExponent fraccion.2
  if entera = [] ∧ fraccion.1 = [] then none
  else some (⟨t.1, valueOf (entera ++ fraccion.1), exponente.1 - fraccion.1.length⟩, exponente.2)

def numeric (s : Texto) : Option Numeral :=
  match readNumeral (s.dropWhile isSpace) with
  | some (x, []) => some x
  | _ => none

namespace Numeral

def numerator (x : Numeral) : ℕ := x.digits * 10 ^ x.exponent.toNat

def denominator (x : Numeral) : ℕ := 10 ^ (-x.exponent).toNat

/-- The exponent of the last bit that a double keeps of the numeral. -/
def lastBit (x : Numeral) : ℤ :=
  let l : ℤ := Nat.log2 x.numerator - Nat.log2 x.denominator
  let l := if x.numerator * 2 ^ (-l).toNat < x.denominator * 2 ^ l.toNat then l - 1 else l
  max (-1074) (l - 52)

/-- The nearest double, ties to even, in units of the last bit. -/
def significand (x : Numeral) : ℕ :=
  let n := x.numerator * 2 ^ (-x.lastBit).toNat
  let d := x.denominator * 2 ^ x.lastBit.toNat
  if d < 2 * (n % d) ∨ 2 * (n % d) = d ∧ n / d % 2 = 1 then n / d + 1 else n / d

def isFinite (x : Numeral) : Bool := x.significand * 2 ^ x.lastBit.toNat < 2 ^ 1024

def isZero (x : Numeral) : Bool := x.significand = 0

def sameDouble (x y : Numeral) : Bool :=
  (x.isZero && y.isZero) ||
    (x.negative = y.negative &&
      x.significand * 2 ^ (x.lastBit - y.lastBit).toNat =
        y.significand * 2 ^ (y.lastBit - x.lastBit).toNat)

end Numeral

/-- `$s == $t` for two strings: numeric strings are compared as numbers. -/
def looselyEqual (s t : Texto) : Bool :=
  s = t ||
    match numeric s, numeric t with
    | some x, some y => x.isFinite && y.isFinite && x.sameDouble y
    | _, _ => false

def inArray (needle : Valor) (haystack : List String) : Bool :=
  match needle with
  | none => haystack.any fun t ↦ t.toList.isEmpty
  | some s => haystack.any fun t ↦ looselyEqual s t.toList

def positive (v : Valor) : Bool :=
  match readNumeral ((strval v).dropWhile isSpace) with
  | some (x, _) => !x.negative && !x.isZero
  | none => false

/-- A number of PHP that is a whole number, kept as an integer or as a float. -/
structure Numero where
  float : Bool
  valor : ℤ
  deriving DecidableEq

def toDouble (z : ℤ) : ℤ :=
  let x : Numeral := ⟨decide (z < 0), z.natAbs, 0⟩
  signed x.negative (x.significand * 2 ^ x.lastBit.toNat / 2 ^ (-x.lastBit).toNat)

def Numero.ofInt (z : ℤ) : Numero := ⟨false, z⟩

/-- An operation on two integers whose result does not fit is done in floats. -/
def Numero.lift (f : ℤ → ℤ → ℤ) (x y : Numero) : Numero :=
  if !x.float && !y.float && decide (longMin ≤ f x.valor y.valor ∧ f x.valor y.valor ≤ longMax) then
    ⟨false, f x.valor y.valor⟩
  else ⟨true, toDouble (f (toDouble x.valor) (toDouble y.valor))⟩

/-- A parameter of type int takes a float only inside the range of the type. -/
def Numero.toInt (x : Numero) : Option ℤ :=
  if longMin ≤ x.valor ∧ x.valor ≤ longMax then some x.valor else none

section Explode

variable {separator : Char} {s p : Texto}

theorem explode_ne_nil (separator : Char) (s : Texto) : explode separator s ≠ [] :=
  List.splitOn_ne_nil separator s

theorem explode_of_notMem (h : separator ∉ s) : explode separator s = [s] :=
  List.splitOn_eq_singleton h

theorem explode_append (h : separator ∉ s) (t : Texto) :
    explode separator (s ++ separator :: t) = s :: explode separator t :=
  List.splitOn_append_cons_self_of_not_mem h t

theorem explode_cons_self (s : Texto) :
    explode separator (separator :: s) = [] :: explode separator s :=
  explode_append (s := []) List.not_mem_nil s

theorem explode_cons_of_ne {c : Char} (h : c ≠ separator) (s : Texto) :
    ∃ q qs, explode separator s = q :: qs ∧ explode separator (c :: s) = (c :: q) :: qs := by
  obtain ⟨q, qs, hq⟩ := List.exists_cons_of_ne_nil (explode_ne_nil separator s)
  refine ⟨q, qs, hq, ?_⟩
  rw [explode, List.splitOn_cons_eq_if_modifyHead, if_neg (by simpa using h)]
  exact congrArg (List.modifyHead (List.cons c)) hq

theorem notMem_of_mem_explode (h : p ∈ explode separator s) : separator ∉ p := by
  induction s generalizing p with
  | nil =>
    rw [List.mem_singleton.mp h]
    exact List.not_mem_nil
  | cons c s ih =>
    by_cases hc : c = separator
    · subst hc
      rw [explode_cons_self, List.mem_cons] at h
      rcases h with rfl | h
      · exact List.not_mem_nil
      · exact ih h
    · obtain ⟨q, qs, hq, hcs⟩ := explode_cons_of_ne hc s
      rw [hcs, List.mem_cons] at h
      rcases h with rfl | h
      · rw [List.mem_cons, not_or]
        exact ⟨fun he ↦ hc he.symm, ih (hq ▸ List.mem_cons_self)⟩
      · exact ih (hq ▸ List.mem_cons_of_mem q h)

theorem exists_mem_explode {c : Char} (h : c ∈ s) (hc : c ≠ separator) :
    ∃ p ∈ explode separator s, c ∈ p := by
  induction s with
  | nil => exact absurd h List.not_mem_nil
  | cons d s ih =>
    by_cases hd : d = separator
    · subst hd
      obtain ⟨p, hp, hcp⟩ := ih ((List.mem_cons.mp h).resolve_left hc)
      exact ⟨p, by rw [explode_cons_self]; exact List.mem_cons_of_mem _ hp, hcp⟩
    · obtain ⟨q, qs, hq, hds⟩ := explode_cons_of_ne hd s
      rw [hds]
      rcases List.mem_cons.mp h with rfl | h
      · exact ⟨c :: q, List.mem_cons_self, List.mem_cons_self⟩
      · obtain ⟨p, hp, hcp⟩ := ih h
        rw [hq, List.mem_cons] at hp
        rcases hp with rfl | hp
        · exact ⟨d :: p, List.mem_cons_self, List.mem_cons_of_mem d hcp⟩
        · exact ⟨p, List.mem_cons_of_mem _ hp, hcp⟩

theorem length_explode (separator : Char) (s : Texto) :
    (explode separator s).length = s.count separator + 1 := by
  induction s with
  | nil => rfl
  | cons c s ih =>
    by_cases hc : c = separator
    · subst hc
      rw [explode_cons_self, List.length_cons, ih, List.count_cons_self]
    · obtain ⟨q, qs, hq, hcs⟩ := explode_cons_of_ne hc s
      rw [hcs, List.length_cons, ← List.length_cons (a := q), ← hq, ih, List.count_cons_of_ne hc]

theorem count_explode {c separator : Char} (h : c ≠ separator) (s : Texto) :
    s.count c = ((explode separator s).map (List.count c)).sum := by
  induction s with
  | nil => rfl
  | cons d s ih =>
    by_cases hd : d = separator
    · subst hd
      rw [explode_cons_self, List.count_cons_of_ne (fun he ↦ h he.symm), ih]
      simp only [List.map_cons, List.count_nil, List.sum_cons, Nat.zero_add]
    · obtain ⟨q, qs, hq, hds⟩ := explode_cons_of_ne hd s
      rw [hds, List.count_cons, ih, hq]
      simp only [List.map_cons, List.sum_cons, List.count_cons]
      omega

end Explode

end ServiciosRed.Php
