import Mathlib.Algebra.Order.Field.Rat
import Mathlib.Algebra.BigOperators.Group.List.Basic
import Mathlib.Tactic.Linarith

namespace ServiciosRed.Signals

variable {K : Type*} [LinearOrder K]

/-- A stretch of time with the rate that holds in it, when it is known. -/
structure Piece (K : Type*) where
  start : K
  stop : K
  rate : Option K

def gaps : List (Piece K) → K → ℕ
  | [], _ => 0
  | p :: σ, a => (if p.rate.isNone ∧ a < p.stop then 1 else 0) + gaps σ a

/-- Pieces that follow each other from `t₀` to `t`, the last one first. -/
inductive Chain : K → K → List (Piece K) → Prop
  | nil (t : K) : Chain t t []
  | cons {t₀ t u : K} {σ : List (Piece K)} (rate : Option K) :
      Chain t₀ t σ → t ≤ u → Chain t₀ u (⟨t, u, rate⟩ :: σ)

variable {t₀ t u a b : K} {σ : List (Piece K)} {p : Piece K}

theorem Chain.gaps_of_le (h : Chain t₀ t σ) (ha : t ≤ a) : gaps σ a = 0 := by
  induction h with
  | nil => rfl
  | cons rate h hle ih =>
    rw [gaps, ih (hle.trans ha), if_neg fun hp ↦ hp.2.not_ge ha]

variable [Field K]

def overlap (p : Piece K) (a b : K) : K := max 0 (min p.stop b - max p.start a)

/-- The time from `a` to `b` at which the rate is known. -/
def known : List (Piece K) → K → K → K
  | [], _, _ => 0
  | p :: σ, a, b => (if p.rate.isSome then overlap p a b else 0) + known σ a b

def area : List (Piece K) → K → K → K
  | [], _, _ => 0
  | p :: σ, a, b => p.rate.getD 0 * overlap p a b + area σ a b

theorem overlap_nonneg : 0 ≤ overlap p a b := le_max_left _ _

theorem overlap_congr (hb : p.stop ≤ b) : overlap p a b = overlap p a p.stop := by
  rw [overlap, overlap, min_eq_left hb, min_self]

theorem Chain.known_to (h : Chain t₀ t σ) (hb : t ≤ b) : known σ a b = known σ a t := by
  induction h generalizing b with
  | nil => rfl
  | cons rate h hle ih =>
    rw [known, known, ih (hle.trans hb), ih hle, overlap_congr hb]

theorem Chain.area_to (h : Chain t₀ t σ) (hb : t ≤ b) : area σ a b = area σ a t := by
  induction h generalizing b with
  | nil => rfl
  | cons rate h hle ih =>
    rw [area, area, ih (hle.trans hb), ih hle, overlap_congr hb]

variable [IsStrictOrderedRing K]

theorem overlap_of_stop_le (h : p.stop ≤ a) : overlap p a b = 0 := by
  apply max_eq_left
  have hmin := min_le_left p.stop b
  have hmax := le_max_right p.start a
  linarith

theorem overlap_eq_init (ha : a ≤ p.start) (hp : p.start ≤ b) (hb : b ≤ p.stop) :
    overlap p a b = b - p.start := by
  rw [overlap, min_eq_right hb, max_eq_left ha]
  apply max_eq_right
  linarith

theorem overlap_eq_rest (ha : p.start ≤ a) (hp : a ≤ p.stop) (hb : p.stop = b) :
    overlap p a b = b - a := by
  rw [overlap, hb, min_self, max_eq_right ha]
  apply max_eq_right
  linarith

theorem Chain.known_of_le (h : Chain t₀ t σ) (ha : t ≤ a) : known σ a b = 0 := by
  induction h with
  | nil => rfl
  | cons rate h hle ih =>
    rw [known, ih (hle.trans ha), overlap_of_stop_le ha, ite_self, add_zero]

theorem Chain.area_of_le (h : Chain t₀ t σ) (ha : t ≤ a) : area σ a b = 0 := by
  induction h with
  | nil => rfl
  | cons rate h hle ih =>
    rw [area, ih (hle.trans ha), overlap_of_stop_le ha, mul_zero, add_zero]

section Extension

theorem Chain.known_cons (h : Chain t₀ t σ) (ha : a ≤ t) (hb : t ≤ b) (hu : b ≤ u)
    (rate : Option K) :
    known (⟨t, u, rate⟩ :: σ) a b = (if rate.isSome then b - t else 0) + known σ a t := by
  have hlen : overlap ⟨t, u, rate⟩ a b = b - t := overlap_eq_init ha hb hu
  rw [known, h.known_to hb, hlen]

theorem Chain.area_cons (h : Chain t₀ t σ) (ha : a ≤ t) (hb : t ≤ b) (hu : b ≤ u)
    (rate : Option K) :
    area (⟨t, u, rate⟩ :: σ) a b = rate.getD 0 * (b - t) + area σ a t := by
  have hlen : overlap ⟨t, u, rate⟩ a b = b - t := overlap_eq_init ha hb hu
  rw [area, h.area_to hb, hlen]

theorem Chain.known_cut (h : Chain t₀ t σ) (ha : t ≤ a) (hu : a ≤ u) (rate : Option K) :
    known (⟨t, u, rate⟩ :: σ) a u = if rate.isSome then u - a else 0 := by
  have hlen : overlap ⟨t, u, rate⟩ a u = u - a := overlap_eq_rest ha hu rfl
  rw [known, h.known_of_le ha, hlen, add_zero]

theorem Chain.area_cut (h : Chain t₀ t σ) (ha : t ≤ a) (hu : a ≤ u) (rate : Option K) :
    area (⟨t, u, rate⟩ :: σ) a u = rate.getD 0 * (u - a) := by
  have hlen : overlap ⟨t, u, rate⟩ a u = u - a := overlap_eq_rest ha hu rfl
  rw [area, h.area_of_le ha, hlen, add_zero]

end Extension

theorem known_nonneg : 0 ≤ known σ a b := by
  induction σ with
  | nil => exact le_rfl
  | cons p σ ih =>
    rw [known]
    split_ifs
    · exact add_nonneg overlap_nonneg ih
    · rwa [zero_add]

theorem area_of_known_zero (h : known σ a b = 0) : area σ a b = 0 := by
  induction σ with
  | nil => rfl
  | cons p σ ih =>
    have hrest : 0 ≤ known σ a b := known_nonneg
    have hlen : 0 ≤ overlap p a b := overlap_nonneg
    rw [known] at h
    rw [area]
    cases hr : p.rate with
    | none =>
      rw [hr, Option.isSome_none, if_neg Bool.false_ne_true, zero_add] at h
      rw [ih h, Option.getD_none, zero_mul, zero_add]
    | some q =>
      rw [hr, Option.isSome_some, if_pos rfl] at h
      have hlen0 : overlap p a b = 0 := by linarith
      have hrest0 : known σ a b = 0 := by linarith
      rw [ih hrest0, hlen0, mul_zero, zero_add]

def Whole (σ : List (Piece K)) : Prop :=
  ∀ p ∈ σ, p.rate = none → ∃ m n : ℕ, p.start = m ∧ p.stop = n

/-- The mean of the known rates is between their bounds. -/
theorem area_bounds {lo hi : K} (h : ∀ p ∈ σ, ∀ q, p.rate = some q → lo ≤ q ∧ q ≤ hi) :
    lo * known σ a b ≤ area σ a b ∧ area σ a b ≤ hi * known σ a b := by
  induction σ with
  | nil =>
    rw [area, known, mul_zero, mul_zero]
    exact ⟨le_rfl, le_rfl⟩
  | cons p σ ih =>
    have hrest := ih fun p hp ↦ h p (List.mem_cons_of_mem _ hp)
    rw [area, known, mul_add, mul_add]
    cases hr : p.rate with
    | none =>
      rw [Option.getD_none, zero_mul, Option.isSome_none, if_neg Bool.false_ne_true,
        mul_zero, mul_zero]
      exact ⟨add_le_add le_rfl hrest.1, add_le_add le_rfl hrest.2⟩
    | some q =>
      have hq := h p List.mem_cons_self q hr
      have hlen : 0 ≤ overlap p a b := overlap_nonneg
      rw [Option.getD_some, Option.isSome_some, if_pos rfl]
      constructor
      · exact add_le_add (mul_le_mul_of_nonneg_right hq.1 hlen) hrest.1
      · exact add_le_add (mul_le_mul_of_nonneg_right hq.2 hlen) hrest.2

end ServiciosRed.Signals
