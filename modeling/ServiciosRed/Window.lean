import Mathlib.Data.Nat.Basic
import Mathlib.Order.Basic

namespace ServiciosRed.Window

variable {α : Type*} (f : ℕ → α)

def Changes (t : ℕ) : Prop := ∃ s, t = s + 1 ∧ f t ≠ f s

def Varies (w t : ℕ) : Prop := ∃ s ≤ t, t < s + w ∧ f s ≠ f t

instance [DecidableEq α] (w t : ℕ) : Decidable (Varies f w t) :=
  inferInstanceAs (Decidable (∃ s ≤ t, t < s + w ∧ f s ≠ f t))

variable {f}

theorem changes_succ {t : ℕ} : Changes f (t + 1) ↔ f (t + 1) ≠ f t := by
  constructor
  · intro h
    obtain ⟨s, hs, hne⟩ := h
    obtain rfl : t = s := by omega
    exact hne
  · intro h
    exact ⟨t, rfl, h⟩

theorem not_changes_zero : ¬ Changes f 0 := by
  intro h
  obtain ⟨s, hs, -⟩ := h
  omega

theorem Changes.varies {w t : ℕ} (hw : 2 ≤ w) (h : Changes f t) : Varies f w t := by
  obtain ⟨s, rfl, hne⟩ := h
  exact ⟨s, by omega, by omega, hne.symm⟩

theorem exists_changes {s t : ℕ} (hst : s ≤ t) (hne : f s ≠ f t) :
    ∃ u, s < u ∧ u ≤ t ∧ Changes f u := by
  induction t with
  | zero =>
    obtain rfl : s = 0 := by omega
    exact absurd rfl hne
  | succ t ih =>
    rcases Nat.lt_or_ge t s with h | h
    · obtain rfl : s = t + 1 := by omega
      exact absurd rfl hne
    · by_cases heq : f (t + 1) = f t
      · rw [heq] at hne
        obtain ⟨u, hu, hut, hc⟩ := ih h hne
        exact ⟨u, hu, by omega, hc⟩
      · exact ⟨t + 1, by omega, le_rfl, changes_succ.2 heq⟩

theorem Changes.varies_succ {w t : ℕ} (hw : 3 ≤ w) (h : Changes f t) (heq : f (t + 1) = f t) :
    Varies f w (t + 1) := by
  obtain ⟨s, rfl, hne⟩ := h
  refine ⟨s, by omega, by omega, ?_⟩
  rw [heq]
  exact hne.symm

/-- Windows of at least three values tell the changes exactly when no value is
repeated once there has been a change. -/
theorem varies_iff_changes_forall {w n : ℕ} (hw : 3 ≤ w) :
    (∀ t < n, Varies f w t ↔ Changes f t) ↔
      ∀ s t, s < t → t < n → Changes f s → Changes f t := by
  constructor
  · intro h s t hst htn hs
    induction t with
    | zero => omega
    | succ t ih =>
      have ht : Changes f t := by
        rcases Nat.lt_or_ge s t with hlt | hge
        · apply ih hlt
          omega
        · obtain rfl : s = t := by omega
          exact hs
      by_contra hno
      have heq : f (t + 1) = f t := by
        by_contra hne
        exact hno (changes_succ.2 hne)
      exact hno ((h (t + 1) htn).1 (ht.varies_succ hw heq))
  · intro h t htn
    constructor
    · intro hv
      obtain ⟨s, hst, -, hne⟩ := hv
      obtain ⟨u, -, hut, hu⟩ := exists_changes hst hne
      rcases Nat.lt_or_ge u t with hlt | hge
      · exact h u t hlt htn hu
      · obtain rfl : u = t := by omega
        exact hu
    · intro hc
      apply hc.varies
      omega

end ServiciosRed.Window
