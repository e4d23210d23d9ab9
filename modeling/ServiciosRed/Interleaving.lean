import Mathlib.Data.List.Basic

namespace ServiciosRed.Interleaving

variable {σ : Type}

/-- One committed statement: it moves the state on, or is refused and changes nothing. -/
abbrev Step (σ : Type) := σ → Option σ

/-- A program run alone stops at its first refused step and keeps what it has committed. -/
def solo : List (Step σ) → σ → σ × Bool
  | [], s => (s, true)
  | f :: p, s => match f s with
    | some s' => solo p s'
    | none => (s, false)

/-- Two programs run against one state, one step of either at a time. The
flags say whether each of them got to its end. -/
inductive Run : σ → List (Step σ) → List (Step σ) → σ → Bool → Bool → Prop
  | done (s : σ) : Run s [] [] s true true
  | left {f : Step σ} {p q : List (Step σ)} {s s' t : σ} {a b : Bool} :
      f s = some s' → Run s' p q t a b → Run s (f :: p) q t a b
  | leftStop {f : Step σ} {p q : List (Step σ)} {s t : σ} {b : Bool} :
      f s = none → Run s [] q t true b → Run s (f :: p) q t false b
  | right {g : Step σ} {p q : List (Step σ)} {s s' t : σ} {a b : Bool} :
      g s = some s' → Run s' p q t a b → Run s p (g :: q) t a b
  | rightStop {g : Step σ} {p q : List (Step σ)} {s t : σ} {a : Bool} :
      g s = none → Run s p [] t a true → Run s p (g :: q) t a false

def serial (p q : List (Step σ)) (s : σ) : σ × Bool × Bool :=
  ((solo q (solo p s).1).1, (solo p s).2, (solo q (solo p s).1).2)

def Serializable (s : σ) (p q : List (Step σ)) : Prop :=
  ∀ t a b, Run s p q t a b → serial p q s = (t, a, b) ∨ serial q p s = (t, b, a)

def guard (P : σ → Prop) [DecidablePred P] : Step σ := fun s ↦ if P s then some s else none

def total (d : σ → σ) : Step σ := fun s ↦ some (d s)

@[simp]
theorem guard_eq_some {P : σ → Prop} [DecidablePred P] {s t : σ} :
    guard P s = some t ↔ P s ∧ s = t := by
  unfold guard
  split_ifs with h <;> simp [h]

@[simp]
theorem guard_eq_none {P : σ → Prop} [DecidablePred P] {s : σ} : guard P s = none ↔ ¬ P s := by
  unfold guard
  split_ifs with h <;> simp [h]

theorem solo_cons_some {f : Step σ} {p : List (Step σ)} {s s' : σ} (h : f s = some s') :
    solo (f :: p) s = solo p s' := by simp only [solo, h]

theorem solo_cons_none {f : Step σ} {p : List (Step σ)} {s : σ} (h : f s = none) :
    solo (f :: p) s = (s, false) := by simp only [solo, h]

theorem solo_append (p q : List (Step σ)) (s : σ) :
    solo (p ++ q) s = if (solo p s).2 then solo q (solo p s).1 else solo p s := by
  induction p generalizing s with
  | nil => rfl
  | cons f p ih =>
    cases hf : f s with
    | none => simp only [List.cons_append, solo, hf, Bool.false_eq_true, if_false]
    | some s' => simpa only [List.cons_append, solo, hf] using ih s'

theorem solo_preserves {P : σ → Prop} {p : List (Step σ)}
    (hp : ∀ f ∈ p, ∀ s s', P s → f s = some s' → P s') {s : σ} (hs : P s) : P (solo p s).1 := by
  induction p generalizing s with
  | nil => exact hs
  | cons f p ih =>
    cases hf : f s with
    | none => simpa only [solo, hf] using hs
    | some s' =>
      simp only [solo, hf]
      exact ih (fun g hg ↦ hp g (List.mem_cons_of_mem f hg)) (hp f List.mem_cons_self s s' hs hf)

namespace Run

variable {s t : σ} {p q : List (Step σ)} {a b : Bool}

theorem swap (h : Run s p q t a b) : Run s q p t b a := by
  induction h with
  | done s => exact .done s
  | left hf _ ih => exact .right hf ih
  | leftStop hf _ ih => exact .rightStop hf ih
  | right hg _ ih => exact .left hg ih
  | rightStop hg _ ih => exact .leftStop hg ih

theorem preserves {P : σ → Prop} (h : Run s p q t a b)
    (hp : ∀ f ∈ p, ∀ s s', P s → f s = some s' → P s')
    (hq : ∀ g ∈ q, ∀ s s', P s → g s = some s' → P s') (hs : P s) : P t := by
  induction h with
  | done s => exact hs
  | @left f p q s s' t a b hf _ ih =>
    exact ih (fun g hg ↦ hp g (List.mem_cons_of_mem f hg)) hq (hp f List.mem_cons_self s s' hs hf)
  | leftStop hf _ ih => exact ih (fun g hg ↦ absurd hg List.not_mem_nil) hq hs
  | @right g p q s s' t a b hg _ ih =>
    exact ih hp (fun f hf ↦ hq f (List.mem_cons_of_mem g hf)) (hq g List.mem_cons_self s s' hs hg)
  | rightStop hg _ ih => exact ih hp (fun f hf ↦ absurd hf List.not_mem_nil) hs

theorem nil_left (h : Run s [] q t a b) : a = true ∧ solo q s = (t, b) := by
  generalize hp : ([] : List (Step σ)) = p at h
  induction h with
  | done s => exact ⟨rfl, rfl⟩
  | left | leftStop => cases hp
  | right hg _ ih => exact ⟨(ih hp).1, (solo_cons_some hg).trans (ih hp).2⟩
  | rightStop hg h ih =>
    subst hp
    cases h
    exact ⟨rfl, solo_cons_none hg⟩

theorem nil_right (h : Run s p [] t a b) : b = true ∧ solo p s = (t, a) := h.swap.nil_left

theorem of_solo {q : List (Step σ)} {s t : σ} {b : Bool} (h : solo q s = (t, b)) :
    Run s [] q t true b := by
  induction q generalizing s with
  | nil =>
    cases h
    exact .done _
  | cons g q ih =>
    cases hg : g s with
    | none =>
      rw [solo_cons_none hg] at h
      cases h
      exact .rightStop hg (.done _)
    | some s' => exact .right hg (ih ((solo_cons_some hg).symm.trans h))

end Run

theorem serial_nil {q : List (Step σ)} {s t : σ} {b : Bool} (h : solo q s = (t, b)) :
    serial [] q s = (t, true, b) := by simp only [serial, solo, h]

theorem serial_cons_some {f : Step σ} {p q : List (Step σ)} {s s' : σ} (h : f s = some s') :
    serial (f :: p) q s = serial p q s' := by simp only [serial, solo_cons_some h]

theorem serial_cons_none {f : Step σ} {p q : List (Step σ)} {s t : σ} {b : Bool} (h : f s = none)
    (hq : solo q s = (t, b)) : serial (f :: p) q s = (t, false, b) := by
  simp only [serial, solo_cons_none h, hq]

theorem run_serial (p q : List (Step σ)) (s : σ) :
    Run s p q (serial p q s).1 (serial p q s).2.1 (serial p q s).2.2 := by
  induction p generalizing s with
  | nil => exact .of_solo rfl
  | cons f p ih =>
    cases hf : f s with
    | none =>
      rw [serial_cons_none hf rfl]
      exact .leftStop hf (.of_solo rfl)
    | some s' =>
      rw [serial_cons_some hf]
      exact .left hf (ih s')

/-- The run in the order of a schedule, where `true` is a turn of the first program. -/
def follow : List Bool → List (Step σ) → List (Step σ) → σ → σ × Bool × Bool
  | true :: l, f :: p, q, s => match f s with
    | some s' => follow l p q s'
    | none => ((solo q s).1, false, (solo q s).2)
  | false :: l, p, g :: q, s => match g s with
    | some s' => follow l p q s'
    | none => ((solo p s).1, (solo p s).2, false)
  | _, p, q, s => serial p q s

theorem run_follow (l : List Bool) (p q : List (Step σ)) (s : σ) :
    Run s p q (follow l p q s).1 (follow l p q s).2.1 (follow l p q s).2.2 := by
  fun_induction follow l p q s with
  | case1 l f p q s s' hf ih => exact .left hf ih
  | case2 l f p q s hf => exact .leftStop hf (.of_solo rfl)
  | case3 l p g q s s' hg ih => exact .right hg ih
  | case4 l p g q s hg => exact .rightStop hg (Run.of_solo rfl).swap
  | case5 l p q s => exact run_serial p q s

theorem Serializable.swap {s : σ} {p q : List (Step σ)} (h : Serializable s p q) :
    Serializable s q p := fun t a b hr ↦ (h t b a hr.swap).symm

/-- A program may be replaced by one that has all its runs beside `q` and
the same runs alone. -/
theorem Serializable.of_refines {s : σ} {p p' q : List (Step σ)}
    (hrun : ∀ t a b, Run s p q t a b → Run s p' q t a b) (hsolo : ∀ s, solo p s = solo p' s)
    (h : Serializable s p' q) : Serializable s p q := by
  intro t a b hr
  have hs := h t a b (hrun t a b hr)
  simpa only [serial, hsolo] using hs

theorem serializable_single (s : σ) (f g : Step σ) : Serializable s [f] [g] := by
  intro t a b h
  cases h with
  | left hf h =>
    obtain ⟨rfl, hg⟩ := h.nil_left
    exact Or.inl ((serial_cons_some hf).trans (serial_nil hg))
  | leftStop hf h => exact Or.inl (serial_cons_none hf h.nil_left.2)
  | right hg h =>
    obtain ⟨rfl, hf⟩ := h.nil_right
    exact Or.inr ((serial_cons_some hg).trans (serial_nil hf))
  | rightStop hg h => exact Or.inr (serial_cons_none hg h.nil_right.2)

section Checked

variable {m : Step σ} {gs q : List (Step σ)}

/-- Every guard of `gs` only looks, and holds wherever `m` is accepted. -/
def Subsumes (m : Step σ) (gs : List (Step σ)) : Prop :=
  ∀ g ∈ gs, (∀ s s', g s = some s' → s' = s) ∧ ∀ s s', m s = some s' → g s = some s

theorem run_checked (hm : Subsumes m gs) {s t : σ} {a b : Bool} (h : Run s (gs ++ [m]) q t a b) :
    Run s [m] q t a b := by
  generalize hp : gs ++ [m] = p at h
  induction h generalizing gs with
  | done s => simp at hp
  | @left f p q s s' t a b hf h ih =>
    cases gs with
    | nil =>
      cases hp
      exact .left hf h
    | cons g gs =>
      obtain ⟨rfl, rfl⟩ := List.cons.inj hp
      obtain ⟨hlook, -⟩ := hm g List.mem_cons_self
      rw [hlook s s' hf] at ih
      exact ih (fun g' hg' ↦ hm g' (List.mem_cons_of_mem g hg')) rfl
  | @leftStop f p q s t b hf h ih =>
    cases gs with
    | nil =>
      cases hp
      exact .leftStop hf h
    | cons g gs =>
      obtain ⟨rfl, rfl⟩ := List.cons.inj hp
      refine .leftStop ?_ h
      -- the guard fails here, so the statement it guards would be refused here too
      cases hms : m s with
      | none => rfl
      | some s' => exact absurd (((hm g List.mem_cons_self).2 s s' hms).symm.trans hf) (by simp)
  | right hg h ih => exact .right hg (ih hm hp)
  | rightStop hg h ih => exact .rightStop hg (ih hm hp)

theorem solo_checked (hm : Subsumes m gs) (s : σ) : solo (gs ++ [m]) s = solo [m] s := by
  induction gs with
  | nil => rfl
  | cons g gs ih =>
    obtain ⟨hlook, hsub⟩ := hm g List.mem_cons_self
    cases hg : g s with
    | none =>
      cases hms : m s with
      | none => simp only [List.cons_append, solo, hg, hms]
      | some s' => simp [hsub s s' hms] at hg
    | some s' =>
      rw [List.cons_append, solo_cons_some hg, hlook s s' hg]
      exact ih (fun g' hg' ↦ hm g' (List.mem_cons_of_mem g hg'))

/-- A guarded statement that subsumes its guards is one atomic statement. -/
theorem Serializable.of_checked (hm : Subsumes m gs) {s : σ} (h : Serializable s [m] q) :
    Serializable s (gs ++ [m]) q :=
  .of_refines (fun _ _ _ ↦ run_checked hm) (solo_checked hm) h

end Checked

section Absorbed

variable {E : σ → Prop} {M : σ → σ} {q : List (Step σ)}

/-- `M` does nothing where `E` fails. The steps of `q` either never end `E`, or
never begin it, and then the step that ends it also wipes out what `M` did. -/
structure Absorbs (E : σ → Prop) (M : σ → σ) (q : List (Step σ)) : Prop where
  idle : ∀ s, ¬ E s → M s = s
  beside : (∀ f ∈ q, ∀ s s', f s = some s' → E s → E s') ∨
    ∀ f ∈ q, ∀ s s', f s = some s' → (¬ E s → ¬ E s') ∧ (E s → ¬ E s' → f (M s) = some s')

theorem Absorbs.tail {f : Step σ} (h : Absorbs E M (f :: q)) : Absorbs E M q :=
  ⟨h.idle, h.beside.imp (fun h g hg ↦ h g (List.mem_cons_of_mem f hg))
    (fun h g hg ↦ h g (List.mem_cons_of_mem f hg))⟩

theorem run_idle (hidle : ∀ s, ¬ E s → M s = s) {s t : σ} {a b : Bool}
    (hq : ∀ f ∈ q, ∀ s s', f s = some s' → ¬ E s → ¬ E s')
    (h : Run s [total M] q t a b) (hs : ¬ E s) : Run s [] q t a b := by
  generalize hp : [total M] = p at h
  induction h with
  | done s => cases hp
  | left hf h ih =>
    cases hp
    rw [total, hidle _ hs] at hf
    cases hf
    exact h
  | leftStop hf => cases hp; cases hf
  | @right g p q s s' t a b hg h ih =>
    exact .right hg
      (ih (fun f hf ↦ hq f (List.mem_cons_of_mem g hf)) (hq g List.mem_cons_self s s' hg hs) hp)
  | rightStop hg h ih => exact .rightStop hg (ih (fun f hf ↦ absurd hf List.not_mem_nil) hs hp)

def atomic (E : σ → Prop) [DecidablePred E] (M : σ → σ) : Step σ :=
  fun s ↦ if E s then some (M s) else none

variable [DecidablePred E]

theorem run_absorbed_of {s t : σ} {a b : Bool} (hM : Absorbs E M q)
    (h : Run s [total M] q t a b) (hs : E s) : Run s [atomic E M] q t a b := by
  generalize hp : [total M] = p at h
  induction h with
  | done s => cases hp
  | left hf h ih =>
    cases hp
    cases hf
    exact .left (if_pos hs) h
  | leftStop hf => cases hp; cases hf
  | @right g p q s s' t a b hg h ih =>
    subst hp
    by_cases hs' : E s'
    · exact .right hg (ih hM.tail hs' rfl)
    · -- `g` ends `E`: the statement takes effect just before it
      have hg' := List.mem_cons_self (a := g) (l := q)
      rcases hM.beside with hkeep | hend
      · exact absurd (hkeep g hg' s s' hg hs) hs'
      · refine .left (if_pos hs) (.right ((hend g hg' s s' hg).2 hs hs') ?_)
        exact run_idle hM.idle
          (fun f hf s s' h ↦ (hend f (List.mem_cons_of_mem g hf) s s' h).1) h hs'
  | rightStop hg h ih =>
    exact .rightStop hg (ih ⟨hM.idle, Or.inl (fun f hf ↦ absurd hf List.not_mem_nil)⟩ hs hp)

theorem run_absorbed {s t : σ} {a b : Bool} (hM : Absorbs E M q)
    (h : Run s [guard E, total M] q t a b) : Run s [atomic E M] q t a b := by
  generalize hp : [guard E, total M] = p at h
  induction h with
  | done s => cases hp
  | left hf h ih =>
    cases hp
    obtain ⟨hE, rfl⟩ := guard_eq_some.mp hf
    exact run_absorbed_of hM h hE
  | leftStop hf h =>
    cases hp
    exact .leftStop (if_neg (guard_eq_none.mp hf)) h
  | right hg h ih => exact .right hg (ih hM.tail hp)
  | rightStop hg h ih =>
    exact .rightStop hg (ih ⟨hM.idle, Or.inl (fun f hf ↦ absurd hf List.not_mem_nil)⟩ hp)

theorem solo_absorbed (s : σ) : solo [guard E, total M] s = solo [atomic E M] s := by
  by_cases h : E s <;> simp only [solo, guard, total, atomic, h, if_true, if_false]

/-- A look at a row followed by a statement on it is one atomic statement. -/
theorem Serializable.of_absorbed {s : σ} (hM : Absorbs E M q) (h : Serializable s [atomic E M] q) :
    Serializable s [guard E, total M] q :=
  .of_refines (fun _ _ _ ↦ run_absorbed hM) solo_absorbed h

end Absorbed

section Moves

variable {a : Step σ}

/-- `a` fares the same before and after an accepted `f`, and `f` after `a`. -/
structure Commute (a f : Step σ) : Prop where
  both : ∀ s s₁ s₂, a s = some s₁ → f s = some s₂ → ∃ t, f s₁ = some t ∧ a s₂ = some t
  neither : ∀ s s₂, a s = none → f s = some s₂ → a s₂ = none

theorem Commute.serial_cons {f : Step σ} (h : Commute a f) {p : List (Step σ)} {s s' t : σ}
    {x y : Bool} (hf : f s = some s') (hs : serial [a] p s' = (t, x, y)) :
    serial [a] (f :: p) s = (t, x, y) := by
  cases ha : a s with
  | none => simpa only [serial, solo, ha, h.neither s s' ha hf, hf] using hs
  | some s₁ =>
    obtain ⟨s₂, hf₁, ha'⟩ := h.both s s₁ s' ha hf
    simpa only [serial, solo, ha, ha', hf₁] using hs

/-- Beside `M ++ d :: N` a single statement that commutes with `M` comes out
first or last, unless it is reached after `d`. -/
theorem run_single {M N : List (Step σ)} {d : Step σ} (hM : ∀ f ∈ M, Commute a f)
    {s t : σ} {x y : Bool} (h : Run s (M ++ d :: N) [a] t x y) :
    serial (M ++ d :: N) [a] s = (t, x, y) ∨ serial [a] (M ++ d :: N) s = (t, y, x) ∨
      ∃ s', solo (M ++ [d]) s = (s', true) ∧ Run s' N [a] t x y := by
  have hfirst {p : List (Step σ)} {s s' : σ} (ha : a s = some s') (h : Run s' p [] t x y) :
      serial [a] p s = (t, y, x) := by
    obtain ⟨rfl, hp⟩ := h.nil_right
    exact (serial_cons_some ha).trans (serial_nil hp)
  induction M generalizing s with
  | nil =>
    cases h with
    | left hd h => exact Or.inr (Or.inr ⟨_, solo_cons_some hd, h⟩)
    | leftStop hd h => exact Or.inl (serial_cons_none hd h.nil_left.2)
    | right ha h => exact Or.inr (Or.inl (hfirst ha h))
    | rightStop ha h => exact Or.inr (Or.inl (serial_cons_none ha h.nil_right.2))
  | cons f M ih =>
    cases h with
    | left hf h =>
      rcases ih (fun g hg ↦ hM g (List.mem_cons_of_mem f hg)) h with h | h | ⟨s', hs', h⟩
      · exact Or.inl ((serial_cons_some hf).trans h)
      · exact Or.inr (Or.inl ((hM f List.mem_cons_self).serial_cons hf h))
      · exact Or.inr (Or.inr ⟨s', (solo_cons_some hf).trans hs', h⟩)
    | leftStop hf h => exact Or.inl (serial_cons_none hf h.nil_left.2)
    | right ha h => exact Or.inr (Or.inl (hfirst ha h))
    | rightStop ha h => exact Or.inr (Or.inl (serial_cons_none ha h.nil_right.2))

theorem run_dead {N : List (Step σ)}
    (hN : ∀ f ∈ N, ∀ s s', f s = some s' → a s = none → a s' = none) {s t : σ} {x y : Bool}
    (ha : a s = none) (h : Run s N [a] t x y) :
    y = false ∧ a t = none ∧ solo N s = (t, x) := by
  induction N generalizing s with
  | nil =>
    obtain ⟨rfl, hs⟩ := h.nil_left
    rw [solo_cons_none ha] at hs
    cases hs
    exact ⟨rfl, ha, rfl⟩
  | cons f N ih =>
    have hlast (h : Run s (f :: N) [] t x true) : a t = none := by
      have hk := solo_preserves (P := fun s ↦ a s = none) (p := f :: N)
        (fun g hg s s' ha hs ↦ hN g hg s s' hs ha) ha
      rwa [h.nil_right.2] at hk
    cases h with
    | left hf h =>
      have hr :=
        ih (fun g hg ↦ hN g (List.mem_cons_of_mem f hg)) (hN f List.mem_cons_self _ _ hf ha) h
      exact ⟨hr.1, hr.2.1, (solo_cons_some hf).trans hr.2.2⟩
    | leftStop hf h =>
      have hs := h.nil_left.2
      rw [solo_cons_none ha] at hs
      cases hs
      exact ⟨rfl, ha, solo_cons_none hf⟩
    | right ha' h => exact absurd (ha'.symm.trans ha) (by simp)
    | rightStop _ h => exact ⟨rfl, hlast h, h.nil_right.2⟩

/-- A guarded program beside one statement: the statement keeps the guard, commutes
with the steps `M`, and after the next step `d` either nothing follows or
the statement is dead. -/
theorem serializable_moves {G : σ → Prop} [DecidablePred G] {M N : List (Step σ)} {d : Step σ}
    (hG : ∀ s s', G s → a s = some s' → G s') (hM : ∀ f ∈ M, Commute a f)
    (hN : N = [] ∨ (∀ s s', d s = some s' → a s' = none) ∧
      ∀ f ∈ N, ∀ s s', f s = some s' → a s = none → a s' = none) (s : σ) :
    Serializable s (guard G :: (M ++ d :: N)) [a] := by
  intro t x y h
  cases h with
  | leftStop hg h => exact Or.inl (serial_cons_none hg h.nil_left.2)
  | right ha h =>
    obtain ⟨rfl, hp⟩ := h.nil_right
    exact Or.inr ((serial_cons_some ha).trans (serial_nil hp))
  | rightStop ha h => exact Or.inr (serial_cons_none ha h.nil_right.2)
  | left hg h =>
    obtain ⟨hGs, rfl⟩ := guard_eq_some.mp hg
    rcases run_single hM h with h | h | ⟨s', hs', h⟩
    · exact Or.inl ((serial_cons_some hg).trans h)
    · right
      cases ha : a s with
      | none => simpa only [serial, solo, ha, hg] using h
      | some s₁ =>
        have hg₁ : guard G s₁ = some s₁ := guard_eq_some.mpr ⟨hG s s₁ hGs ha, rfl⟩
        simpa only [serial, solo, ha, hg₁] using h
    · left
      rw [serial_cons_some hg]
      have hall : solo (M ++ d :: N) s = solo N s' := by
        rw [← List.singleton_append, ← List.append_assoc, solo_append, hs']
        rfl
      rcases hN with rfl | ⟨hd, hN⟩
      · obtain ⟨rfl, hy⟩ := h.nil_left
        rw [serial, hall, show solo [] s' = (s', true) from rfl, hy]
      · have hdead : a s' = none := by
          rw [solo_append] at hs'
          split_ifs at hs' with hb
          · cases hds : d (solo M s).1 with
            | none => rw [solo_cons_none hds] at hs'; cases hs'
            | some s₂ =>
              rw [solo_cons_some hds] at hs'
              cases hs'
              exact hd _ _ hds
          · rw [hs'] at hb
            exact absurd rfl hb
        obtain ⟨rfl, hat, hp⟩ := run_dead hN hdead h
        simp only [serial, hall, hp, solo, hat]

def Kills (a f : Step σ) : Prop := ∀ s s', f s = some s' → a s' = none

def Spares (a f : Step σ) : Prop := ∀ s s', f s = some s' → a s = none → a s' = none

theorem exists_first {α : Type} {P Q : α → Prop} {l : List α} (h : ∀ x ∈ l, P x ∨ Q x) :
    (∀ x ∈ l, P x) ∨ ∃ l₁ y l₂, l = l₁ ++ y :: l₂ ∧ (∀ x ∈ l₁, P x) ∧ Q y := by
  induction l with
  | nil => exact Or.inl (fun x hx ↦ absurd hx List.not_mem_nil)
  | cons x l ih =>
    obtain ⟨hx, hl⟩ := List.forall_mem_cons.mp h
    rcases hx with hx | hx
    · rcases ih hl with ih | ⟨l₁, y, l₂, rfl, hl₁, hy⟩
      · exact Or.inl (List.forall_mem_cons.mpr ⟨hx, ih⟩)
      · exact Or.inr ⟨x :: l₁, y, l₂, rfl, List.forall_mem_cons.mpr ⟨hx, hl₁⟩, hy⟩
    · exact Or.inr ⟨[], x, l, rfl, fun z hz ↦ absurd hz List.not_mem_nil, hx⟩

theorem serializable_beside {G : σ → Prop} [DecidablePred G] {M : List (Step σ)} {d : Step σ}
    (hG : ∀ s s', G s → a s = some s' → G s')
    (hM : ∀ f ∈ M, Commute a f ∨ Kills a f ∧ ∀ g ∈ M ++ [d], Spares a g)
    (s : σ) : Serializable s (guard G :: (M ++ [d])) [a] := by
  rcases exists_first hM with hall | ⟨M, f, N, rfl, hM, hf, hspares⟩
  · exact serializable_moves hG hall (Or.inl rfl) s
  · rw [List.append_assoc, List.cons_append] at *
    refine serializable_moves hG hM (Or.inr ⟨hf, fun g hg ↦ hspares g ?_⟩) s
    exact List.mem_append_right M (List.mem_cons_of_mem f hg)

end Moves

section Unchecked

variable {env : Step σ → Prop}

/-- `p` may be read as `p'` beside steps of `env`: each of its steps agrees with
the one it stands for under a condition that the step before it brings about and
that no step of `env` ends. -/
inductive Tame (env : Step σ → Prop) : (σ → Prop) → List (Step σ) → List (Step σ) → Prop
  | nil {P : σ → Prop} : Tame env P [] []
  | cons {P Q : σ → Prop} {f f' : Step σ} {p p' : List (Step σ)} :
      (∀ g, env g → ∀ s s', P s → g s = some s' → P s') → (∀ s, P s → f s = f' s) →
      (∀ s s', P s → f s = some s' → Q s') → Tame env Q p p' → Tame env P (f :: p) (f' :: p')

theorem Tame.solo_eq {P : σ → Prop} {p p' : List (Step σ)} (h : Tame env P p p') {s : σ}
    (hs : P s) :
    solo p s = solo p' s := by
  induction h generalizing s with
  | nil => rfl
  | @cons P Q f f' p p' _ hf hQ _ ih =>
    cases hfs : f s with
    | none => rw [solo_cons_none hfs, solo_cons_none ((hf s hs).symm.trans hfs)]
    | some s' =>
      rw [solo_cons_some hfs, solo_cons_some ((hf s hs).symm.trans hfs)]
      exact ih (hQ s s' hs hfs)

theorem Tame.run {P : σ → Prop} {p p' q : List (Step σ)} (hp : Tame env P p p')
    (hq : ∀ g ∈ q, env g) {s t : σ} {a b : Bool} (hs : P s) (h : Run s p q t a b) :
    Run s p' q t a b := by
  induction h generalizing P p' with
  | done s =>
    cases hp
    exact .done s
  | left hfs _ ih =>
    cases hp with
    | cons _ hf hQ hp => exact .left ((hf _ hs).symm.trans hfs) (ih hp hq (hQ _ _ hs hfs))
  | leftStop hfs h _ =>
    cases hp with
    | cons _ hf _ _ => exact .leftStop ((hf _ hs).symm.trans hfs) h
  | @right g p q s s' t a b hg h ih =>
    have hq' : ∀ f ∈ q, env f := fun f hf ↦ hq f (List.mem_cons_of_mem g hf)
    cases hp with
    | nil => exact .right hg h
    | cons hP hf hQ hp =>
      exact .right hg (ih (.cons hP hf hQ hp) hq' (hP g (hq g List.mem_cons_self) s s' hs hg))
  | rightStop hg _ ih => exact .rightStop hg (ih hp (fun f hf ↦ absurd hf List.not_mem_nil) hs)

theorem Serializable.of_tame {p p' q : List (Step σ)} {s : σ} (hp : Tame env (fun _ ↦ True) p p')
    (hq : ∀ g ∈ q, env g) (h : Serializable s p' q) : Serializable s p q :=
  .of_refines (fun _ _ _ ↦ hp.run hq trivial) (fun _ ↦ hp.solo_eq trivial) h

end Unchecked

section Total

variable {D D' : List (σ → σ)} {G H : σ → Prop} [DecidablePred G] [DecidablePred H]

def applyAll (D : List (σ → σ)) (s : σ) : σ := D.foldl (fun s d ↦ d s) s

def guarded (G : σ → Prop) [DecidablePred G] (D : List (σ → σ)) : List (Step σ) :=
  guard G :: D.map total

theorem solo_total (D : List (σ → σ)) (s : σ) : solo (D.map total) s = (applyAll D s, true) := by
  induction D generalizing s with
  | nil => rfl
  | cons d D ih => exact ih (d s)

theorem solo_guarded (s : σ) :
    solo (guarded G D) s = if G s then (applyAll D s, true) else (s, false) := by
  by_cases h : G s
  · rw [guarded, solo_cons_some (guard_eq_some.mpr ⟨h, rfl⟩), solo_total, if_pos h]
  · rw [guarded, solo_cons_none (guard_eq_none.mpr h), if_neg h]

theorem applyAll_comm {e : σ → σ} (h : ∀ d ∈ D, ∀ s, d (e s) = e (d s)) (s : σ) :
    applyAll D (e s) = e (applyAll D s) := by
  induction D generalizing s with
  | nil => rfl
  | cons d D ih =>
    simp only [applyAll, List.foldl_cons, h d List.mem_cons_self s]
    exact ih (fun d' hd' ↦ h d' (List.mem_cons_of_mem d hd')) (d s)

theorem of_applyAll {P : σ → Prop} (h : ∀ d ∈ D, ∀ s, P (d s) → P s) {s : σ}
    (hs : P (applyAll D s)) :
    P s := by
  induction D generalizing s with
  | nil => exact hs
  | cons d D ih =>
    exact h d List.mem_cons_self s (ih (fun d' hd' ↦ h d' (List.mem_cons_of_mem d hd')) hs)

theorem applyAll_iff {P : σ → Prop} (h : ∀ d ∈ D, ∀ s, P (d s) ↔ P s) {s : σ} :
    P (applyAll D s) ↔ P s := by
  induction D generalizing s with
  | nil => exact Iff.rfl
  | cons d D ih =>
    exact (ih (fun d' hd' ↦ h d' (List.mem_cons_of_mem d hd'))).trans (h d List.mem_cons_self s)

variable (hcomm : ∀ d ∈ D, ∀ e ∈ D', ∀ s, d (e s) = e (d s))

include hcomm in
theorem applyAll_swap (s : σ) : applyAll D (applyAll D' s) = applyAll D' (applyAll D s) := by
  induction D' generalizing s with
  | nil => rfl
  | cons e D' ih =>
    have he := applyAll_comm (fun d hd ↦ hcomm d hd e List.mem_cons_self) s
    calc
      applyAll D (applyAll D' (e s)) = applyAll D' (applyAll D (e s)) :=
        ih (fun d hd e' he' ↦ hcomm d hd e' (List.mem_cons_of_mem e he')) (e s)
      _ = applyAll (e :: D') (applyAll D s) := by rw [he]; rfl

include hcomm in
theorem run_total {s t : σ} {a b : Bool} (h : Run s (D.map total) (D'.map total) t a b) :
    a = true ∧ b = true ∧ t = applyAll D' (applyAll D s) := by
  generalize hp : D.map total = p at h
  generalize hq : D'.map total = q at h
  induction h generalizing D D' with
  | done s =>
    rw [List.map_eq_nil_iff] at hp hq
    subst hp hq
    exact ⟨rfl, rfl, rfl⟩
  | left hf h ih =>
    obtain ⟨d, E, rfl, rfl, rfl⟩ := List.map_eq_cons_iff.mp hp
    cases hf
    exact ih (fun d' hd' ↦ hcomm d' (List.mem_cons_of_mem d hd')) rfl hq
  | leftStop hf =>
    obtain ⟨d, E, rfl, rfl, rfl⟩ := List.map_eq_cons_iff.mp hp
    cases hf
  | right hg h ih =>
    obtain ⟨e, E, rfl, rfl, rfl⟩ := List.map_eq_cons_iff.mp hq
    cases hg
    obtain ⟨ha, hb, ht⟩ := ih (fun d hd e' he' ↦ hcomm d hd e' (List.mem_cons_of_mem e he')) hp rfl
    refine ⟨ha, hb, ?_⟩
    rw [ht, applyAll_comm (fun d hd ↦ hcomm d hd e List.mem_cons_self)]
    rfl
  | rightStop hg =>
    obtain ⟨e, E, rfl, rfl, rfl⟩ := List.map_eq_cons_iff.mp hq
    cases hg

include hcomm in
theorem run_total_guarded (hH : ∀ d ∈ D, ∀ s, H (d s) → H s) {s t : σ} {a b : Bool}
    (h : Run s (D.map total) (guarded H D') t a b) :
    a = true ∧ (b = true ∧ H s ∧ t = applyAll D' (applyAll D s) ∨
      b = false ∧ ¬ H (applyAll D s) ∧ t = applyAll D s) := by
  induction D generalizing s with
  | nil =>
    obtain ⟨rfl, hs⟩ := h.nil_left
    rw [solo_guarded] at hs
    split_ifs at hs with hh
    · cases hs
      exact ⟨rfl, Or.inl ⟨rfl, hh, rfl⟩⟩
    · cases hs
      exact ⟨rfl, Or.inr ⟨rfl, hh, rfl⟩⟩
  | cons d D ih =>
    have hH' := fun d' hd' ↦ hH d' (List.mem_cons_of_mem d hd')
    cases h with
    | left hf h =>
      cases hf
      obtain ⟨ha, hb⟩ := ih (fun d' hd' ↦ hcomm d' (List.mem_cons_of_mem d hd')) hH' h
      refine ⟨ha, hb.imp ?_ id⟩
      rintro ⟨hb, hs, ht⟩
      exact ⟨hb, hH d List.mem_cons_self s hs, ht⟩
    | leftStop hf => cases hf
    | right hg h =>
      obtain ⟨hs, rfl⟩ := guard_eq_some.mp hg
      obtain ⟨ha, hb, ht⟩ := run_total hcomm (D := d :: D) h
      exact ⟨ha, Or.inl ⟨hb, hs, ht⟩⟩
    | rightStop hg h =>
      have hs := h.nil_right.2
      rw [solo_total] at hs
      cases hs
      exact ⟨rfl, Or.inr ⟨rfl, fun hh ↦ guard_eq_none.mp hg (of_applyAll hH hh), rfl⟩⟩

include hcomm in
/-- Two guarded programs of commuting statements, where no statement lets the
other program in and those of the second do not turn the first away. -/
theorem serializable_guarded (hH : ∀ d ∈ D, ∀ s, H (d s) → H s)
    (hG : ∀ e ∈ D', ∀ s, G (e s) ↔ G s) (s : σ) :
    Serializable s (guarded G D) (guarded H D') := by
  have hG' := fun s ↦ applyAll_iff hG (s := s)
  intro t a b h
  cases h with
  | left hg h =>
    obtain ⟨hs, rfl⟩ := guard_eq_some.mp hg
    obtain ⟨rfl, ⟨rfl, hh, rfl⟩ | ⟨rfl, hh, rfl⟩⟩ := run_total_guarded hcomm hH h
    · right
      simp only [serial, solo_guarded, hh, (hG' s).mpr hs, if_true, applyAll_swap hcomm]
    · left
      simp only [serial, solo_guarded, hh, hs, if_true, if_false]
  | leftStop hg h => exact Or.inl (serial_cons_none hg h.nil_left.2)
  | right hg h =>
    obtain ⟨hs, rfl⟩ := guard_eq_some.mp hg
    have hcomm' := fun e he d hd s ↦ (hcomm d hd e he s).symm
    obtain ⟨rfl, ⟨rfl, hh, rfl⟩ | ⟨rfl, hh, rfl⟩⟩ :=
      run_total_guarded hcomm' (fun e he s ↦ (hG e he s).mp) h.swap
    · right
      simp only [serial, solo_guarded, hs, (hG' s).mpr hh, if_true]
    · right
      simp only [serial, solo_guarded, hh, hs, if_true, if_false]
  | rightStop hg h => exact Or.inr (serial_cons_none hg h.nil_right.2)

theorem run_guarded_twice (hcomm : ∀ d ∈ D, ∀ e ∈ D, ∀ s, d (e s) = e (d s))
    (hG : ∀ d ∈ D, ∀ s, G (d s) → G s) (hidem : ∀ s, applyAll D (applyAll D s) = applyAll D s)
    {s t : σ} {a b : Bool}
    (h : Run s (guarded G D) (guarded G D) t a b) :
    t = (serial (guarded G D) (guarded G D) s).1 ∧ (a || b) = (solo (guarded G D) s).2 := by
  have hfirst {t : σ} {a b : Bool} (hs : G s) (h : Run s (D.map total) (guarded G D) t a b) :
      t = (serial (guarded G D) (guarded G D) s).1 ∧ (a || b) = (solo (guarded G D) s).2 := by
    have ht : (serial (guarded G D) (guarded G D) s).1 = applyAll D s := by
      simp only [serial, solo_guarded, hs, if_true]
      split_ifs
      · exact hidem s
      · rfl
    rw [ht, solo_guarded, if_pos hs]
    obtain ⟨rfl, ⟨-, -, rfl⟩ | ⟨-, -, rfl⟩⟩ := run_total_guarded hcomm hG h
    · exact ⟨hidem s, rfl⟩
    · exact ⟨rfl, rfl⟩
  have hnone {b : Bool} (hs : ¬ G s) (h : solo (guarded G D) s = (t, b)) :
      t = (serial (guarded G D) (guarded G D) s).1 ∧ b = (solo (guarded G D) s).2 := by
    rw [h]
    rw [solo_guarded, if_neg hs] at h
    cases h
    simp only [serial, solo_guarded, hs, if_false, and_self]
  cases h with
  | left hg h =>
    obtain ⟨hs, rfl⟩ := guard_eq_some.mp hg
    exact hfirst hs h
  | leftStop hg h => exact hnone (guard_eq_none.mp hg) h.nil_left.2
  | right hg h =>
    obtain ⟨hs, rfl⟩ := guard_eq_some.mp hg
    rw [Bool.or_comm]
    exact hfirst hs h.swap
  | rightStop hg h =>
    rw [Bool.or_comm]
    exact hnone (guard_eq_none.mp hg) h.nil_right.2

end Total

inductive Settles (P : σ → Prop) (b : Prop) : List (Step σ) → Prop
  | last {f : Step σ} (h : ∀ s s', f s = some s' → (P s' ↔ b)) : Settles P b [f]
  | cons {f : Step σ} {p : List (Step σ)} (h : ∀ s s', f s = some s' →
    (P s' ↔ P s)) (hp : Settles P b p) :
      Settles P b (f :: p)

theorem Settles.ne_nil {P : σ → Prop} {b : Prop} {p : List (Step σ)} (h : Settles P b p) :
    p ≠ [] := by
  cases h with
  | last h => exact List.cons_ne_nil _ _
  | cons h hp => exact List.cons_ne_nil _ _

theorem Settles.tail {P : σ → Prop} {b : Prop} {f g : Step σ} {p : List (Step σ)}
    (h : Settles P b (f :: g :: p)) :
    (∀ s s', f s = some s' → (P s' ↔ P s)) ∧ Settles P b (g :: p) := by
  cases h with
  | cons h hp => exact ⟨h, hp⟩

theorem Settles.single {P : σ → Prop} {b : Prop} {f : Step σ} (h : Settles P b [f]) {s s' : σ}
    (hf : f s = some s') : P s' ↔ b := by
  cases h with
  | last h => exact h s s' hf
  | cons h hp => exact absurd rfl hp.ne_nil

theorem settles_looks {P : σ → Prop} {b : Prop} {gs p : List (Step σ)}
    (hgs : ∀ g ∈ gs, ∀ s s', g s = some s' → s' = s) (hp : Settles P b p) :
    Settles P b (gs ++ p) := by
  induction gs with
  | nil => exact hp
  | cons g gs ih =>
    refine .cons ?_ (ih fun h hh ↦ hgs h (List.mem_cons_of_mem g hh))
    intro s s' hs
    rw [hgs g List.mem_cons_self s s' hs]

theorem settles_look {P : σ → Prop} {b : Prop} {g : Step σ} {p : List (Step σ)}
    (hg : ∀ s s', g s = some s' → s' = s) (hp : Settles P b p) : Settles P b (g :: p) := by
  have hlooks := settles_looks (List.forall_mem_singleton.2 hg) hp
  exact hlooks

theorem settles_refused {P : σ → Prop} {b : Prop} {f : Step σ} (h : ∀ s, f s = none) :
    Settles P b [f] := by
  apply Settles.last
  intro s s' hs
  rw [h s] at hs
  cases hs

end ServiciosRed.Interleaving
