import ServiciosRed.MySQL
import Mathlib.Data.List.Basic

namespace ServiciosRed.Collation

open Text MySQL

section Lists

variable {α β γ : Type}

theorem map_eq_of_map_eq {f : α → β} {g : α → γ} {l m : List α}
    (h : ∀ a ∈ l, ∀ b ∈ m, f a = f b → g a = g b) (hlm : l.map f = m.map f) :
    l.map g = m.map g := by
  induction l generalizing m with
  | nil =>
    rw [List.map_nil, eq_comm, List.map_eq_nil_iff] at hlm
    rw [hlm]
  | cons a l ih =>
    cases m with
    | nil => cases hlm
    | cons b m =>
      obtain ⟨hab, hrest⟩ := List.cons.inj hlm
      have htail :=
        ih (fun c hc d hd ↦ h c (List.mem_cons_of_mem a hc) d (List.mem_cons_of_mem b hd)) hrest
      rw [List.map_cons, List.map_cons, htail, h a List.mem_cons_self b List.mem_cons_self hab]

theorem append_cons_inj {a : α} {l m l' m' : List α} (h : l ++ a :: m = l' ++ a :: m') (hm : a ∉ m)
    (hm' : a ∉ m') :
    l = l' ∧ m = m' := by
  rcases List.append_eq_append_iff.mp h with ⟨k, rfl, hk⟩ | ⟨k, rfl, hk⟩
  · cases k with
    | nil => exact ⟨(List.append_nil l).symm, (List.cons.inj hk).2⟩
    | cons b k =>
      refine absurd ?_ hm
      rw [(List.cons.inj hk).2]
      exact List.mem_append_right k List.mem_cons_self
  · cases k with
    | nil => exact ⟨List.append_nil l', (List.cons.inj hk).2.symm⟩
    | cons b k =>
      refine absurd ?_ hm'
      rw [(List.cons.inj hk).2]
      exact List.mem_append_right k List.mem_cons_self

end Lists

variable [Engine] {s t : Texto} {c : Char}

structure Numbered (s : Texto) : Prop where
  ascii : ∀ c ∈ s, c.toNat < 128
  last : ∃ t c, s = t ++ [c] ∧ c.isDigit

theorem weight_digit (h : c.isDigit) : Engine.weight c ≠ Engine.weight ' ' := by
  have hupper : c.toNat < 128 ∧ c.toUpper ≠ ' '.toUpper := of_isDigit h (by decide)
  intro he
  exact hupper.2 ((Engine.weight_ascii c ' ' hupper.1 (by decide)).mp he)

theorem Numbered.sortKey_eq (h : Numbered s) : sortKey s = s.map Engine.weight := by
  obtain ⟨t, c, rfl, hc⟩ := h.last
  rw [sortKey, List.map_append, List.map_singleton, List.rdropWhile_concat_neg]
  simpa only [decide_eq_true_eq] using weight_digit hc

theorem Numbered.sortKey_iff (hs : Numbered s) (ht : Numbered t) :
    sortKey s = sortKey t ↔ s.map Char.toUpper = t.map Char.toUpper := by
  rw [hs.sortKey_eq, ht.sortKey_eq]
  constructor
  · apply map_eq_of_map_eq
    intro c hc d hd
    exact (Engine.weight_ascii c d (hs.ascii c hc) (ht.ascii d hd)).mp
  · apply map_eq_of_map_eq
    intro c hc d hd
    exact (Engine.weight_ascii c d (hs.ascii c hc) (ht.ascii d hd)).mpr

theorem length_sortKey_le (s : Texto) : (sortKey s).length ≤ s.length := by
  have hprefix :=
    (List.rdropWhile_prefix (fun w ↦ w = Engine.weight ' ') (s.map Engine.weight)).length_le
  rwa [List.length_map] at hprefix

theorem lt_length_sortKey (hc : Engine.weight c ≠ Engine.weight ' ') (s t : Texto) :
    s.length < (sortKey (s ++ c :: t)).length := by
  rw [sortKey, List.map_append, List.map_cons]
  induction t using List.reverseRecOn with
  | nil =>
    rw [List.map_nil, List.rdropWhile_concat_neg]
    · simp
    · simpa only [decide_eq_true_eq] using hc
  | append_singleton t d ih =>
    rw [List.map_append, List.map_singleton, ← List.cons_append, ← List.append_assoc,
      List.rdropWhile_concat]
    split_ifs
    · exact ih
    · simp only [List.length_append, List.length_cons, List.length_map]
      omega

end ServiciosRed.Collation
