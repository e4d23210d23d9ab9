import Mathlib.Algebra.BigOperators.Field
import Mathlib.Algebra.Order.BigOperators.Ring.Finset
import Mathlib.Algebra.Order.Field.Basic
import Mathlib.Tactic.FieldSimp
import Mathlib.Tactic.LinearCombination
import Mathlib.Tactic.Linarith
import Mathlib.Tactic.Positivity

namespace ServiciosRed.LeastSquares

open scoped BigOperators

variable {ι F : Type} [Field F]

/-- The points times the sum of the squared distances of `x` from its mean. -/
def spread (s : Finset ι) (x : ι → F) : F := s.card * ∑ i ∈ s, x i ^ 2 - (∑ i ∈ s, x i) ^ 2

def slope (s : Finset ι) (x y : ι → F) : F :=
  (s.card * ∑ i ∈ s, x i * y i - (∑ i ∈ s, x i) * ∑ i ∈ s, y i) / spread s x

def intercept (s : Finset ι) (x y : ι → F) : F :=
  (∑ i ∈ s, y i - slope s x y * ∑ i ∈ s, x i) / s.card

def line (s : Finset ι) (x y : ι → F) (t : F) : F := slope s x y * t + intercept s x y

def cost (s : Finset ι) (x y : ι → F) (a b : F) : F := ∑ i ∈ s, (y i - (a * x i + b)) ^ 2

structure Normal (s : Finset ι) (x y : ι → F) (a b : F) : Prop where
  sum : ∑ i ∈ s, y i = a * ∑ i ∈ s, x i + b * s.card
  moment : ∑ i ∈ s, x i * y i = a * ∑ i ∈ s, x i ^ 2 + b * ∑ i ∈ s, x i

variable {s : Finset ι} {x y : ι → F} {a b c d t : F}

theorem normal_line (hcard : (s.card : F) ≠ 0) (hspread : spread s x ≠ 0) :
    Normal s x y (slope s x y) (intercept s x y) := by
  have hsum : ∑ i ∈ s, y i = slope s x y * ∑ i ∈ s, x i + intercept s x y * s.card := by
    rw [intercept, div_mul_cancel₀ _ hcard]
    ring
  have hslope : slope s x y * spread s x = s.card * ∑ i ∈ s, x i * y i - (∑ i ∈ s, x i) *
    ∑ i ∈ s, y i :=
    div_mul_cancel₀ _ hspread
  refine ⟨hsum, ?_⟩
  apply mul_left_cancel₀ hcard
  rw [spread, hsum] at hslope
  linear_combination -hslope

/-- The cost of another line is that of the normal one and the squared distance of the two. -/
theorem cost_eq (h : Normal s x y a b) (c d : F) :
    cost s x y c d = cost s x y a b + ∑ i ∈ s, ((a - c) * x i + (b - d)) ^ 2 := by
  have hcross : ∑ i ∈ s, ((a - c) * x i + (b - d)) * (y i - (a * x i + b)) = 0 := by
    have hexpand : ∑ i ∈ s, ((a - c) * x i + (b - d)) * (y i - (a * x i + b)) =
        (a - c) * (∑ i ∈ s, x i * y i - (a * ∑ i ∈ s, x i ^ 2 + b * ∑ i ∈ s, x i)) +
          (b - d) * (∑ i ∈ s, y i - (a * ∑ i ∈ s, x i + b * s.card)) := by
      simp only [Finset.mul_sum, ← Finset.sum_add_distrib, ← Finset.sum_sub_distrib,
        Finset.card_eq_sum_ones, Nat.cast_sum, Nat.cast_one]
      apply Finset.sum_congr rfl
      intro i _
      ring
    rw [hexpand, h.moment, h.sum, sub_self, sub_self, mul_zero, mul_zero, add_zero]
  have hpoint : ∀ i ∈ s, (y i - (c * x i + d)) ^ 2 =
    (y i - (a * x i + b)) ^ 2 + ((a - c) * x i + (b - d)) ^ 2 +
      2 * (((a - c) * x i + (b - d)) * (y i - (a * x i + b))) := by
    intro i _
    ring
  rw [cost, cost, Finset.sum_congr rfl hpoint, Finset.sum_add_distrib, Finset.sum_add_distrib,
    ← Finset.mul_sum, hcross, mul_zero, add_zero]

theorem slope_mul (k : F) : slope s x (fun i ↦ k * y i) = k * slope s x y := by
  have hmoment : ∑ i ∈ s, x i * (k * y i) = k * ∑ i ∈ s, x i * y i := by
    rw [Finset.mul_sum]
    exact Finset.sum_congr rfl fun i _ ↦ by ring
  rw [slope, slope, hmoment, ← Finset.mul_sum]
  ring

theorem intercept_mul (k : F) : intercept s x (fun i ↦ k * y i) = k * intercept s x y := by
  rw [intercept, intercept, slope_mul, ← Finset.mul_sum]
  ring

section Order

variable [LinearOrder F] [IsStrictOrderedRing F]

theorem Normal.cost_le (h : Normal s x y a b) (c d : F) : cost s x y a b ≤ cost s x y c d := by
  rw [cost_eq h c d]
  exact le_add_of_nonneg_right (Finset.sum_nonneg fun i _ ↦ sq_nonneg _)

theorem Normal.unique (h : Normal s x y a b) {i j : ι} (hi : i ∈ s) (hj : j ∈ s) (hij : x i ≠ x j)
    (hle : cost s x y c d ≤ cost s x y a b) : c = a ∧ d = b := by
  rw [cost_eq h c d] at hle
  have hzero : ∑ k ∈ s, ((a - c) * x k + (b - d)) ^ 2 = 0 := by
    apply le_antisymm
    · linarith
    · exact Finset.sum_nonneg fun k _ ↦ sq_nonneg _
  have hpoint : ∀ k ∈ s, (a - c) * x k + (b - d) = 0 := by
    intro k hk
    have hk := (Finset.sum_eq_zero_iff_of_nonneg fun k _ ↦ sq_nonneg _).mp hzero k hk
    exact pow_eq_zero_iff (two_ne_zero) |>.mp hk
  have hslope : (a - c) * (x i - x j) = 0 := by
    linear_combination hpoint i hi - hpoint j hj
  have hac : a - c = 0 := (mul_eq_zero.mp hslope).resolve_right (sub_ne_zero.mpr hij)
  have hbd := hpoint i hi
  rw [hac, zero_mul, zero_add] at hbd
  exact ⟨(sub_eq_zero.mp hac).symm, (sub_eq_zero.mp hbd).symm⟩

theorem spread_pos {i j : ι} (hi : i ∈ s) (hj : j ∈ s) (hij : x i ≠ x j) : 0 < spread s x := by
  have hcard : (0 : F) < s.card := by
    exact_mod_cast Finset.card_pos.mpr ⟨i, hi⟩
  have hmean : spread s x = s.card * ∑ k ∈ s, (x k - (∑ k ∈ s, x k) / s.card) ^ 2 := by
    have hexpand : ∑ k ∈ s, (x k - (∑ k ∈ s, x k) / s.card) ^ 2 =
        ∑ k ∈ s, x k ^ 2 - 2 * ((∑ k ∈ s, x k) / s.card) * ∑ k ∈ s, x k +
          s.card * ((∑ k ∈ s, x k) / s.card) ^ 2 := by
      generalize (∑ k ∈ s, x k) / (s.card : F) = m
      rw [Finset.mul_sum, ← nsmul_eq_mul, ← Finset.sum_const, ← Finset.sum_sub_distrib,
        ← Finset.sum_add_distrib]
      exact Finset.sum_congr rfl fun k _ ↦ by ring
    rw [hexpand, spread]
    field_simp
    ring
  rw [hmean]
  apply mul_pos hcard
  obtain ⟨k, hk, hne⟩ : ∃ k ∈ s, x k - (∑ k ∈ s, x k) / s.card ≠ 0 := by
    by_contra hall
    have hmean : ∀ k ∈ s, x k - (∑ k ∈ s, x k) / s.card = 0 := fun k hk ↦
      by_contra fun hne ↦ hall ⟨k, hk, hne⟩
    exact hij (sub_left_injective ((hmean i hi).trans (hmean j hj).symm))
  exact Finset.sum_pos' (fun k _ ↦ sq_nonneg _) ⟨k, hk, by positivity⟩

theorem Normal.nonneg_of_falling (h : Normal s x y a b) (ha : a ≤ 0)
    (hx : ∀ i ∈ s, 0 ≤ x i * (x i - t)) (hy : ∀ i ∈ s, 0 ≤ x i * y i) (hsum : 0 < ∑ i ∈ s, x i) :
    0 ≤ a * t + b := by
  have hmoment : (a * t + b) * ∑ i ∈ s, x i = ∑ i ∈ s, x i * y i - a * ∑ i ∈ s,
      x i * (x i - t) := by
    have hexpand : ∑ i ∈ s, x i * (x i - t) = ∑ i ∈ s, x i ^ 2 - t * ∑ i ∈ s, x i := by
      rw [Finset.mul_sum, ← Finset.sum_sub_distrib]
      exact Finset.sum_congr rfl fun i _ ↦ by ring
    rw [h.moment, hexpand]
    ring
  have hnonneg : 0 ≤ (a * t + b) * ∑ i ∈ s, x i := by
    rw [hmoment]
    have hpos := Finset.sum_nonneg hy
    have hneg := mul_nonpos_of_nonpos_of_nonneg ha (Finset.sum_nonneg hx)
    linarith
  exact nonneg_of_mul_nonneg_left hnonneg hsum

theorem Normal.nonneg_of_rising (h : Normal s x y a b) (ha : 0 ≤ a) (hx : ∀ i ∈ s, x i ≤ t)
    (hy : ∀ i ∈ s, 0 ≤ y i) (hs : s.Nonempty) : 0 ≤ a * t + b := by
  have hcard : (0 : F) < s.card := by
    exact_mod_cast hs.card_pos
  have hsum : (a * t + b) * s.card = ∑ i ∈ s, y i + a * (t * s.card - ∑ i ∈ s, x i) := by
    rw [h.sum]
    ring
  have hplaces : ∑ i ∈ s, x i ≤ t * s.card := by
    calc ∑ i ∈ s, x i ≤ ∑ _i ∈ s, t := Finset.sum_le_sum hx
      _ = t * s.card := by rw [Finset.sum_const, nsmul_eq_mul, mul_comm]
  have hnonneg : 0 ≤ (a * t + b) * s.card := by
    rw [hsum]
    exact add_nonneg (Finset.sum_nonneg hy) (mul_nonneg ha (sub_nonneg.mpr hplaces))
  exact nonneg_of_mul_nonneg_left hnonneg hcard

end Order

end ServiciosRed.LeastSquares
