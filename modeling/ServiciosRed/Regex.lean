import ServiciosRed.Text
import Mathlib.Data.List.Dedup
import Mathlib.Data.List.Infix

namespace ServiciosRed

open Text

/-- The regular expressions of PCRE that the development needs. `notAhead r`
matches the empty text where `r` does not match. -/
inductive Regex
  | char (p : Char → Bool)
  | eps
  | stop
  | seq (r t : Regex)
  | alt (r t : Regex)
  | rep (n : ℕ) (r : Regex)
  | upto (n : ℕ) (r : Regex)
  | star (r : Regex)
  | notAhead (r : Regex)

namespace Regex

def closure (f : List Texto → List Texto) : ℕ → List Texto → List Texto
  | 0, S => S
  | n + 1, S => (S ++ closure f n (f S)).dedup

def power (f : List Texto → List Texto) : ℕ → List Texto → List Texto
  | 0, S => S
  | n + 1, S => power f n (f S)

/-- What may be left of one of the texts after a match at its start. -/
def rests : Regex → List Texto → List Texto
  | char p, S => S.filterMap fun s ↦
    match s with
    | [] => none
    | c :: s => if p c then some s else none
  | eps, S => S
  | stop, S => S.filter fun s ↦ s.isEmpty
  | seq r t, S => t.rests (r.rests S)
  | alt r t, S => (r.rests S ++ t.rests S).dedup
  | rep n r, S => power r.rests n S
  | upto n r, S => closure r.rests n S
  | star r, S => closure r.rests (S.map List.length).sum S
  | notAhead r, S => S.filter fun s ↦ (r.rests [s]).isEmpty

def plus (r : Regex) : Regex := seq r (star r)

def opt (r : Regex) : Regex := upto 1 r

def literal (s : String) : Regex := s.toList.foldr (fun c r ↦ seq (char (· = c)) r) eps

/-- `/^r$/D` -/
def matchesAll (r : Regex) (s : Texto) : Bool := ¬ (rests (seq r stop) [s]).isEmpty

/-- `/r/`, anywhere in the text. -/
def matchesIn (r : Regex) (s : Texto) : Bool := s.tails.any fun t ↦ ¬ (r.rests [t]).isEmpty

section Consumes

variable {r t : Regex} {Q R : Texto → Prop} {f : List Texto → List Texto} {S : List Texto} {n : ℕ}
  {s u : Texto}

def Consumes (f : List Texto → List Texto) (Q : Texto → Prop) : Prop :=
  ∀ S, ∀ t ∈ f S, ∃ s ∈ S, ∃ u, s = u ++ t ∧ Q u

theorem Consumes.mono (h : Consumes f Q) (hQ : ∀ u, Q u → R u) : Consumes f R := by
  intro S t ht
  obtain ⟨s, hs, u, hu, hq⟩ := h S t ht
  exact ⟨s, hs, u, hu, hQ u hq⟩

theorem consumes_char (p : Char → Bool) : Consumes (char p).rests (fun u ↦ ∃ c, p c ∧ u = [c]) := by
  intro S t ht
  obtain ⟨s, hs, he⟩ := List.mem_filterMap.mp ht
  cases s with
  | nil => cases he
  | cons c s =>
    simp only [Option.ite_none_right_eq_some, Option.some.injEq] at he
    exact ⟨c :: s, hs, [c], by rw [← he.2]; rfl, c, he.1, rfl⟩

theorem consumes_filter (p : Texto → Bool) : Consumes (List.filter p) (· = []) := fun _ t ht ↦
  ⟨t, (List.mem_filter.mp ht).1, [], rfl, rfl⟩

theorem consumes_id : Consumes id (· = []) := fun _ t ht ↦ ⟨t, ht, [], rfl, rfl⟩

theorem consumes_seq (hr : Consumes r.rests Q) (ht : Consumes t.rests R) :
    Consumes (seq r t).rests (fun u ↦ ∃ a b, u = a ++ b ∧ Q a ∧ R b) := by
  intro S v hv
  obtain ⟨w, hw, b, rfl, hb⟩ := ht (r.rests S) v hv
  obtain ⟨s, hs, a, rfl, ha⟩ := hr S _ hw
  exact ⟨_, hs, a ++ b, (List.append_assoc a b v).symm, a, b, rfl, ha, hb⟩

theorem consumes_alt (hr : Consumes r.rests Q) (ht : Consumes t.rests Q) :
    Consumes (alt r t).rests Q := by
  intro S v hv
  rcases List.mem_append.mp (List.mem_dedup.mp hv) with hv | hv
  · exact hr S v hv
  · exact ht S v hv

theorem consumes_closure (h : Consumes f Q) (hnil : R []) (hcons : ∀ a b, Q a → R b → R (a ++ b)) :
    Consumes (closure f n) R := by
  induction n with
  | zero => exact fun S t ht ↦ ⟨t, ht, [], rfl, hnil⟩
  | succ n ih =>
    intro S t ht
    rcases List.mem_append.mp (List.mem_dedup.mp ht) with ht | ht
    · exact ⟨t, ht, [], rfl, hnil⟩
    · obtain ⟨w, hw, b, rfl, hb⟩ := ih (f S) t ht
      obtain ⟨s, hs, a, rfl, ha⟩ := h S _ hw
      exact ⟨_, hs, a ++ b, (List.append_assoc a b t).symm, hcons a b ha hb⟩

theorem consumes_star (h : Consumes r.rests Q) (hnil : R [])
    (hcons : ∀ a b, Q a → R b → R (a ++ b)) :
    Consumes (star r).rests R := fun S ↦ consumes_closure h hnil hcons S

theorem consumes_power (h : Consumes f (fun _ ↦ True)) : Consumes (power f n) (fun _ ↦ True) := by
  induction n with
  | zero => exact fun S t ht ↦ ⟨t, ht, [], rfl, trivial⟩
  | succ n ih =>
    intro S t ht
    obtain ⟨w, hw, b, rfl, -⟩ := ih (f S) t ht
    obtain ⟨s, hs, a, rfl, -⟩ := h S _ hw
    exact ⟨_, hs, a ++ b, (List.append_assoc a b t).symm, trivial⟩

theorem consumes_rests (r : Regex) : Consumes r.rests (fun _ ↦ True) := by
  induction r with
  | char p => exact (consumes_char p).mono (fun _ _ ↦ trivial)
  | eps => exact consumes_id.mono (fun _ _ ↦ trivial)
  | stop => exact (consumes_filter _).mono (fun _ _ ↦ trivial)
  | seq r t hr ht => exact (consumes_seq hr ht).mono (fun _ _ ↦ trivial)
  | alt r t hr ht => exact consumes_alt hr ht
  | rep n r h => exact consumes_power h
  | upto n r h => exact consumes_closure h trivial (fun _ _ _ _ ↦ trivial)
  | star r h => exact consumes_star h trivial (fun _ _ _ _ ↦ trivial)
  | notAhead r h => exact (consumes_filter _).mono (fun _ _ ↦ trivial)

theorem consumes_notAhead (r : Regex) : Consumes (notAhead r).rests (· = []) := consumes_filter _

theorem of_matchesAll (h : Consumes r.rests Q) (hs : r.matchesAll s) : Q s := by
  obtain ⟨t, ht⟩ : ∃ t, t ∈ rests (seq r stop) [s] := by
    refine List.exists_mem_of_ne_nil _ (fun hnil ↦ ?_)
    rw [matchesAll, hnil] at hs
    exact absurd hs (by decide)
  obtain ⟨ht, hempty⟩ := List.mem_filter.mp ht
  obtain ⟨s', hs', u, hu, hq⟩ := h [s] t ht
  rw [List.mem_singleton.mp hs', List.isEmpty_iff.mp hempty, List.append_nil] at hu
  rw [hu]
  exact hq

def EndsIn (p : Char → Prop) (u : Texto) : Prop := ∃ w c, u = w ++ [c] ∧ p c

variable {p : Char → Prop}

theorem EndsIn.append (h : EndsIn p u) (v : Texto) : EndsIn p (v ++ u) := by
  obtain ⟨w, c, rfl, hc⟩ := h
  exact ⟨v ++ w, c, (List.append_assoc v w [c]).symm, hc⟩

theorem EndsIn.append_right (h : EndsIn p u) {v : Texto} (hv : v = [] ∨ EndsIn p v) :
    EndsIn p (u ++ v) := by
  rcases hv with rfl | hv
  · rwa [List.append_nil]
  · exact hv.append u

theorem endsIn_char {q : Char → Bool} (hq : ∀ c, q c → p c) : Consumes (char q).rests (EndsIn p) :=
  (consumes_char q).mono (fun _ ⟨c, hc, hu⟩ ↦ ⟨[], c, hu, hq c hc⟩)

theorem endsIn_seq (ht : Consumes t.rests (EndsIn p)) : Consumes (seq r t).rests (EndsIn p) :=
  (consumes_seq (consumes_rests r) ht).mono (fun _ ⟨a, _, hu, _, hb⟩ ↦ hu ▸ hb.append a)

theorem endsIn_star (hr : Consumes r.rests (EndsIn p)) :
    Consumes (star r).rests (fun u ↦ u = [] ∨ EndsIn p u) :=
  consumes_star hr (Or.inl rfl) (fun _ _ ha hb ↦ Or.inr (ha.append_right hb))

theorem endsIn_seq_star (hr : Consumes r.rests (EndsIn p)) (ht : Consumes t.rests (EndsIn p)) :
    Consumes (seq r (star t)).rests (EndsIn p) :=
  (consumes_seq hr (endsIn_star ht)).mono (fun _ ⟨_, _, hu, ha, hb⟩ ↦ hu ▸ ha.append_right hb)

theorem endsIn_plus (hr : Consumes r.rests (EndsIn p)) : Consumes (plus r).rests (EndsIn p) :=
  endsIn_seq_star hr hr

theorem rests_rep_char {q : Char → Bool} (h : ∀ c ∈ u, q c) :
    (rep u.length (char q)).rests [u ++ s] = [s] := by
  induction u with
  | nil => rfl
  | cons c u ih =>
    obtain ⟨hc, hu⟩ := List.forall_mem_cons.mp h
    have hstep : (char q).rests [c :: (u ++ s)] = [u ++ s] := by
      simp only [rests, List.filterMap_cons, List.filterMap_nil, if_pos hc]
    rw [List.cons_append, List.length_cons, rests, power, hstep]
    exact ih hu

theorem power_nil (h : f [] = []) : power f n [] = [] := by
  induction n with
  | zero => rfl
  | succ n ih => rw [power, h, ih]

theorem closure_nil (h : f [] = []) : closure f n [] = [] := by
  induction n with
  | zero => rfl
  | succ n ih => rw [closure, h, ih]; rfl

theorem rests_nil (r : Regex) : r.rests [] = [] := by
  induction r with
  | char | eps | stop | notAhead => rfl
  | seq r t hr ht => rw [rests, hr, ht]
  | alt r t hr ht => rw [rests, hr, ht]; rfl
  | rep n r h => exact power_nil h
  | upto n r h => exact closure_nil h
  | star r h => exact closure_nil h

theorem power_add {m : ℕ} (f : List Texto → List Texto) (S : List Texto) :
    power f (m + n) S = power f n (power f m S) := by
  induction m generalizing S with
  | zero => rw [Nat.zero_add, power]
  | succ m ih => rw [Nat.succ_add, power, power, ih]

theorem rests_rep_of_le {m : ℕ} (h : (rep m r).rests S = []) (hle : m ≤ n) :
    (rep n r).rests S = [] := by
  obtain ⟨k, rfl⟩ := Nat.exists_eq_add_of_le hle
  have h : power r.rests m S = [] := h
  rw [rests, power_add, h]
  exact power_nil (rests_nil r)

theorem rests_notAhead (h : r.rests [s] = []) : (notAhead r).rests [s] = [s] := by
  rw [rests, List.filter_cons_of_pos (by rw [h]; rfl), List.filter_nil]

theorem matchesIn_of_rests (h : r.rests [s] ≠ []) : r.matchesIn s := by
  refine List.any_eq_true.mpr ⟨s, (List.mem_tails s s).mpr (List.suffix_refl s), ?_⟩
  simpa [List.isEmpty_iff] using h

end Consumes

end Regex

end ServiciosRed
