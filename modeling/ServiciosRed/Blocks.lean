import Mathlib.Data.List.Basic

namespace ServiciosRed.Blocks

variable {α β : Type*}

def blocks (m : ℕ) (l : List α) : List (List α) :=
  (List.range (l.length / m)).map fun i ↦ (l.drop (i * m)).take m

def rest (m : ℕ) (l : List α) : List α := l.drop (l.length / m * m)

variable {m : ℕ} {l : List α}

@[simp] theorem length_blocks : (blocks m l).length = l.length / m := by
  rw [blocks, List.length_map, List.length_range]

theorem blocks_getElem? {i : ℕ} (h : i < l.length / m) :
    (blocks m l)[i]? = some ((l.drop (i * m)).take m) := by
  rw [blocks, List.getElem?_map, List.getElem?_range h]
  rfl

theorem length_rest : (rest m l).length = l.length % m := by
  have h := Nat.div_add_mod' l.length m
  rw [rest, List.length_drop]
  omega

theorem length_rest_lt (hm : 0 < m) : (rest m l).length < m := by
  rw [length_rest]
  exact Nat.mod_lt _ hm

theorem blocks_of_length_lt (h : l.length < m) : blocks m l = [] := by
  rw [blocks, Nat.div_eq_of_lt h]
  rfl

theorem rest_of_length_lt (h : l.length < m) : rest m l = l := by
  rw [rest, Nat.div_eq_of_lt h, Nat.zero_mul, List.drop_zero]

section Append

variable {k : ℕ} {xs ys : List α}

theorem blocks_append_of_length (hm : 0 < m) (hxs : xs.length = k * m) (ys : List α) :
    blocks m (xs ++ ys) = blocks m xs ++ blocks m ys := by
  have hcount : (xs ++ ys).length / m = k + ys.length / m := by
    rw [List.length_append, hxs, Nat.add_comm, Nat.add_mul_div_right _ _ hm, Nat.add_comm]
  rw [blocks, blocks, blocks, hcount, hxs, Nat.mul_div_cancel _ hm, List.range_add, List.map_append,
    List.map_map]
  congr 1
  · apply List.map_congr_left
    intro i hi
    have hlt : (i + 1) * m ≤ k * m := Nat.mul_le_mul_right m (List.mem_range.1 hi)
    have hdrop : i * m ≤ xs.length := by
      rw [hxs]
      exact Nat.mul_le_mul_right m (Nat.le_of_lt (List.mem_range.1 hi))
    have htake : m ≤ (xs.drop (i * m)).length := by
      rw [List.length_drop, hxs]
      rw [Nat.add_mul, Nat.one_mul] at hlt
      omega
    rw [List.drop_append_of_le_length hdrop, List.take_append_of_le_length htake]
  · apply List.map_congr_left
    intro i hi
    have hdrop : (k + i) * m = xs.length + i * m := by rw [hxs, Nat.add_mul]
    rw [Function.comp_apply, hdrop, List.drop_length_add_append]

theorem rest_append_of_length (hm : 0 < m) (hxs : xs.length = k * m) (ys : List α) :
    rest m (xs ++ ys) = rest m ys := by
  have hcount : (xs ++ ys).length / m = k + ys.length / m := by
    rw [List.length_append, hxs, Nat.add_comm, Nat.add_mul_div_right _ _ hm, Nat.add_comm]
  have hdrop : (k + ys.length / m) * m = xs.length + ys.length / m * m := by rw [hxs, Nat.add_mul]
  rw [rest, rest, hcount, hdrop, List.drop_length_add_append]

theorem exists_blocks_rest (m : ℕ) (l : List α) :
    ∃ xs k, l = xs ++ rest m l ∧ xs.length = k * m ∧ k = l.length / m := by
  refine ⟨l.take (l.length / m * m), l.length / m, (List.take_append_drop _ _).symm, ?_, rfl⟩
  rw [List.length_take]
  exact Nat.min_eq_left (Nat.div_mul_le_self _ _)

theorem blocks_append (hm : 0 < m) (l ys : List α) :
    blocks m (l ++ ys) = blocks m l ++ blocks m (rest m l ++ ys) := by
  obtain ⟨xs, k, hl, hxs, -⟩ := exists_blocks_rest m l
  have hblocks : blocks m l = blocks m xs := by
    have h := blocks_append_of_length hm hxs (rest m l)
    rwa [← hl, blocks_of_length_lt (length_rest_lt hm), List.append_nil] at h
  have h := blocks_append_of_length hm hxs (rest m l ++ ys)
  rwa [← List.append_assoc, ← hl, ← hblocks] at h

theorem rest_append (hm : 0 < m) (l ys : List α) : rest m (l ++ ys) = rest m (rest m l ++ ys) := by
  obtain ⟨xs, k, hl, hxs, -⟩ := exists_blocks_rest m l
  have h := rest_append_of_length hm hxs (rest m l ++ ys)
  rwa [← List.append_assoc, ← hl] at h

theorem blocks_cons (hm : 0 < m) (hxs : xs.length = m) (ys : List α) :
    blocks m (xs ++ ys) = xs :: blocks m ys := by
  have hone : xs.length = 1 * m := by rw [Nat.one_mul, hxs]
  have hself : blocks m xs = [xs] := by
    have htake : xs.take m = xs := List.take_of_length_le (Nat.le_of_eq hxs)
    rw [blocks, hxs, Nat.div_self hm]
    simp [htake]
  rw [blocks_append_of_length hm hone, hself]
  rfl

end Append

theorem blocks_replicate (m n : ℕ) (x : α) :
    blocks m (List.replicate n x) = List.replicate (n / m) (List.replicate m x) := by
  apply List.eq_replicate_iff.2
  constructor
  · rw [length_blocks, List.length_replicate]
  · intro b hb
    obtain ⟨i, hi, rfl⟩ := List.mem_map.1 hb
    rw [List.length_replicate] at hi
    have hlt : (i + 1) * m ≤ n / m * m := Nat.mul_le_mul_right m (List.mem_range.1 hi)
    have hle : n / m * m ≤ n := Nat.div_mul_le_self _ _
    rw [Nat.add_mul, Nat.one_mul] at hlt
    rw [List.drop_replicate, List.take_replicate, Nat.min_eq_left (by omega)]

theorem rest_replicate (m n : ℕ) (x : α) :
    rest m (List.replicate n x) = List.replicate (n % m) x := by
  have h := Nat.div_add_mod' n m
  rw [rest, List.drop_replicate, List.length_replicate]
  congr 1
  omega

theorem blocks_getElem?_eq_range' {i : ℕ} (h : i < l.length / m) (x : α) :
    (blocks m l)[i]? = some ((List.range' (i * m) m).map fun k ↦ l.getD k x) := by
  have hle : (i + 1) * m ≤ l.length :=
    Nat.le_trans (Nat.mul_le_mul_right m h) (Nat.div_mul_le_self _ _)
  rw [Nat.add_mul, Nat.one_mul] at hle
  rw [blocks_getElem? h]
  congr 1
  apply List.ext_getElem
  · rw [List.length_take, List.length_drop, List.length_map, List.length_range']
    omega
  · intro k hk hk'
    rw [List.length_map, List.length_range'] at hk'
    have hlt : i * m + k < l.length := by omega
    rw [List.getElem_take, List.getElem_drop, List.getElem_map, List.getElem_range', Nat.one_mul,
      List.getD_eq_getElem?_getD, List.getElem?_eq_getElem hlt, Option.getD_some]

end ServiciosRed.Blocks
