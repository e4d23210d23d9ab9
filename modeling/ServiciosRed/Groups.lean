import ServiciosRed.Regex
import Mathlib.Data.List.Lex
import Mathlib.Data.List.MinMax

namespace ServiciosRed

open Text

namespace Regex

def splits : List Regex → Texto → List (List Texto)
  | [], _ => [[]]
  | r :: rs, s =>
    (r.rests [s]).flatMap fun t ↦ (splits rs t).map (s.take (s.length - t.length) :: ·)

/-- A match is as long as it can be, and then so are its parts from the left on. -/
def best (l : List (List Texto)) : Option (List Texto) :=
  l.argmax fun us ↦ us.flatten.length :: us.map List.length

def search (rs : List Regex) (s : Texto) : Option (List Texto) :=
  s.tails.findSome? fun t ↦ best (splits rs t)

section Pieces

variable {p : Char → Bool} {s t : Texto} {n : ℕ}

theorem rests_char_nil (p : Char → Bool) : (char p).rests [[]] = [] := rfl

theorem rests_char_cons (p : Char → Bool) (c : Char) (s : Texto) :
    (char p).rests [c :: s] = if p c then [s] else [] := by
  rw [rests, List.filterMap_cons, List.filterMap_nil]
  by_cases h : p c <;> simp [h]

theorem mem_closure_char :
    t ∈ closure (char p).rests n [s] ↔ ∃ u, s = u ++ t ∧ u.length ≤ n ∧ ∀ c ∈ u, p c := by
  induction n generalizing s with
  | zero =>
    constructor
    · intro h
      exact ⟨[], (List.mem_singleton.mp h).symm, le_rfl, fun c hc ↦ absurd hc List.not_mem_nil⟩
    · intro h
      obtain ⟨u, hu, hlength, -⟩ := h
      have hnil : u = [] := List.eq_nil_of_length_eq_zero (Nat.le_zero.mp hlength)
      rw [hu, hnil]
      exact List.mem_singleton_self t
  | succ n ih =>
    rw [closure, List.mem_dedup, List.mem_append, List.mem_singleton]
    constructor
    · intro h
      rcases h with rfl | h
      · exact ⟨[], rfl, Nat.zero_le _, fun c hc ↦ absurd hc List.not_mem_nil⟩
      · cases s with
        | nil =>
          rw [rests_char_nil, closure_nil (rests_nil _)] at h
          exact absurd h List.not_mem_nil
        | cons c s =>
          rw [rests_char_cons] at h
          by_cases hc : p c
          · rw [if_pos hc] at h
            obtain ⟨u, rfl, hlength, hu⟩ := ih.mp h
            exact ⟨c :: u, rfl, Nat.succ_le_succ hlength, List.forall_mem_cons.mpr ⟨hc, hu⟩⟩
          · rw [if_neg hc, closure_nil (rests_nil _)] at h
            exact absurd h List.not_mem_nil
    · intro h
      obtain ⟨u, rfl, hlength, hu⟩ := h
      cases u with
      | nil => exact Or.inl rfl
      | cons c u =>
        obtain ⟨hc, hu⟩ := List.forall_mem_cons.mp hu
        rw [List.cons_append, rests_char_cons, if_pos hc]
        exact Or.inr (ih.mpr ⟨u, rfl, Nat.le_of_succ_le_succ hlength, hu⟩)

theorem mem_rests_star : t ∈ (star (char p)).rests [s] ↔ ∃ u, s = u ++ t ∧ ∀ c ∈ u, p c := by
  have hclosure : t ∈ (star (char p)).rests [s] ↔ ∃ u, s = u ++ t ∧
    u.length ≤ ([s].map List.length).sum ∧
      ∀ c ∈ u, p c := mem_closure_char
  rw [hclosure]
  constructor
  · intro h
    obtain ⟨u, hs, -, hu⟩ := h
    exact ⟨u, hs, hu⟩
  · intro h
    obtain ⟨u, rfl, hu⟩ := h
    refine ⟨u, rfl, ?_, hu⟩
    simp

theorem mem_rests_plus : t ∈ (plus (char p)).rests [s] ↔ ∃ u, s = u ++ t ∧ u ≠ [] ∧
    ∀ c ∈ u, p c := by
  rw [plus, rests]
  cases s with
  | nil =>
    refine iff_of_false ?_ ?_
    · rw [rests_char_nil, rests_nil]
      exact List.not_mem_nil
    · intro h
      obtain ⟨u, hs, hne, -⟩ := h
      exact hne (List.append_eq_nil_iff.mp hs.symm).1
  | cons c s =>
    rw [rests_char_cons]
    by_cases hc : p c
    · rw [if_pos hc, mem_rests_star]
      constructor
      · intro h
        obtain ⟨u, rfl, hu⟩ := h
        exact ⟨c :: u, rfl, List.cons_ne_nil c u, List.forall_mem_cons.mpr ⟨hc, hu⟩⟩
      · intro h
        obtain ⟨u, hs, hne, hu⟩ := h
        cases u with
        | nil => exact absurd rfl hne
        | cons d u => exact ⟨u, (List.cons.inj hs).2, fun e he ↦ hu e (List.mem_cons_of_mem d he)⟩
    · rw [if_neg hc, rests_nil]
      refine iff_of_false List.not_mem_nil (fun h ↦ ?_)
      obtain ⟨u, hs, hne, hu⟩ := h
      cases u with
      | nil => exact hne rfl
      | cons d u =>
        rw [(List.cons.inj hs).1] at hc
        exact hc (hu d List.mem_cons_self)

theorem mem_rests_literal (p : String) : t ∈ (literal p).rests [s] ↔ s = p.toList ++ t := by
  have hchars (q : Texto) (s : Texto) :
      t ∈ (q.foldr (fun c r ↦ seq (char (· = c)) r) eps).rests [s] ↔ s = q ++ t := by
    induction q generalizing s with
    | nil => simp [rests, eq_comm]
    | cons c q ih =>
      rw [List.foldr_cons, rests]
      cases s with
      | nil => simp [rests, rests_nil]
      | cons d s =>
        rw [rests_char_cons]
        by_cases hd : d = c
        · rw [if_pos (decide_eq_true hd), ih, hd, List.cons_append, List.cons.injEq,
            eq_self, true_and]
        · rw [if_neg (by simpa using hd), rests_nil]
          exact iff_of_false List.not_mem_nil (fun h ↦ hd (List.cons.inj h).1)
  exact hchars p.toList s

end Pieces

section Search

variable {r : Regex} {rs : List Regex} {s t : Texto} {us : List Texto}

theorem mem_splits_cons :
    us ∈ splits (r :: rs) s ↔ ∃ u us' t, us = u :: us' ∧ s = u ++ t ∧ t ∈ r.rests [s] ∧
      us' ∈ splits rs t := by
  have htake {u t : Texto} : (u ++ t).take ((u ++ t).length - t.length) = u := by
    rw [List.length_append, Nat.add_sub_cancel, List.take_left]
  simp only [splits, List.mem_flatMap, List.mem_map]
  constructor
  · intro h
    obtain ⟨t, ht, us', hus', rfl⟩ := h
    obtain ⟨s', hs', u, rfl, -⟩ := consumes_rests r [s] t ht
    rw [← List.mem_singleton.mp hs'] at ht ⊢
    exact ⟨u, us', t, by rw [htake], rfl, ht, hus'⟩
  · intro h
    obtain ⟨u, us', t, rfl, rfl, ht, hus'⟩ := h
    exact ⟨t, ht, us', hus', by rw [htake]⟩

theorem mem_splits_nil : us ∈ splits [] s ↔ us = [] := List.mem_singleton

variable {p : Char → Bool}

theorem mem_splits_star :
    us ∈ splits (star (char p) :: rs) s ↔
      ∃ u us' t, us = u :: us' ∧ s = u ++ t ∧ (∀ c ∈ u, p c) ∧ us' ∈ splits rs t := by
  simp only [mem_splits_cons, mem_rests_star]
  constructor
  · intro h
    obtain ⟨u, us', t, rfl, rfl, ⟨u', hu', hp⟩, hus'⟩ := h
    rw [← List.append_cancel_right hu'] at hp
    exact ⟨u, us', t, rfl, rfl, hp, hus'⟩
  · intro h
    obtain ⟨u, us', t, rfl, rfl, hp, hus'⟩ := h
    exact ⟨u, us', t, rfl, rfl, ⟨u, rfl, hp⟩, hus'⟩

theorem mem_splits_plus :
    us ∈ splits (plus (char p) :: rs) s ↔
      ∃ u us' t, us = u :: us' ∧ s = u ++ t ∧ u ≠ [] ∧ (∀ c ∈ u, p c) ∧ us' ∈ splits rs t := by
  simp only [mem_splits_cons, mem_rests_plus]
  constructor
  · intro h
    obtain ⟨u, us', t, rfl, rfl, ⟨u', hu', hne, hp⟩, hus'⟩ := h
    rw [← List.append_cancel_right hu'] at hne hp
    exact ⟨u, us', t, rfl, rfl, hne, hp, hus'⟩
  · intro h
    obtain ⟨u, us', t, rfl, rfl, hne, hp, hus'⟩ := h
    exact ⟨u, us', t, rfl, rfl, ⟨u, rfl, hne, hp⟩, hus'⟩

theorem mem_splits_literal (q : String) :
    us ∈ splits (literal q :: rs) s ↔ ∃ us' t, us = q.toList :: us' ∧ s = q.toList ++ t ∧
      us' ∈ splits rs t := by
  simp only [mem_splits_cons, mem_rests_literal]
  constructor
  · intro h
    obtain ⟨u, us', t, rfl, rfl, hu, hus'⟩ := h
    rw [List.append_cancel_right hu]
    exact ⟨us', t, rfl, rfl, hus'⟩
  · intro h
    obtain ⟨us', t, rfl, rfl, hus'⟩ := h
    exact ⟨q.toList, us', t, rfl, rfl, rfl, hus'⟩

theorem exists_best {l : List (List Texto)} (h : us ∈ l) : ∃ vs ∈ l, best l = some vs := by
  cases hbest : best l with
  | none =>
    rw [List.argmax_eq_none.mp hbest] at h
    exact absurd h List.not_mem_nil
  | some vs => exact ⟨vs, List.argmax_mem hbest, rfl⟩

theorem search_of_split (h : us ∈ splits rs s) : ∃ vs ∈ splits rs s, search rs s = some vs := by
  obtain ⟨vs, hvs, hbest⟩ := exists_best h
  refine ⟨vs, hvs, ?_⟩
  cases s with
  | nil => rw [search, List.tails, List.findSome?_cons, hbest]
  | cons c s => rw [search, List.tails_cons, List.findSome?_cons, hbest]

theorem search_cons_of_nil {c : Char} (h : splits rs (c :: s) = []) :
    search rs (c :: s) = search rs s := by
  have hbest : best (splits rs (c :: s)) = none := by
    rw [h]
    exact List.argmax_nil _
  rw [search, List.tails_cons, List.findSome?_cons, hbest]
  rfl

theorem search_append {w : Texto} (h : ∀ v, v ≠ [] → v <:+ w → splits rs (v ++ s) = []) :
    search rs (w ++ s) = search rs s := by
  induction w with
  | nil => rfl
  | cons c w ih =>
    have hnil : splits rs (c :: (w ++ s)) = [] :=
      h (c :: w) (List.cons_ne_nil c w) (List.suffix_refl _)
    rw [List.cons_append, search_cons_of_nil hnil]
    exact ih (fun v hne hv ↦ h v hne (hv.trans (List.suffix_cons c w)))

end Search

end Regex

end ServiciosRed
