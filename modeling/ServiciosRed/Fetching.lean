import ServiciosRed.Archives
import Mathlib.Algebra.Order.Ring.Int
import Mathlib.Tactic.Ring

namespace ServiciosRed.Fetching

open Doubles Double RoundRobin Archives

section Fetch

/-- The rows of an archive, as they are read: where they start in the data of the file,
how long a row is and which one was written last. -/
structure Fuente where
  rra_base : ℕ
  step : ℕ
  ptr : Rra_ptr
  last_up : ℕ

/-- The loop of `rrd_fetch_fn`; `pos` is where the file is read next. -/
def lee (rra_base row_cnt : ℕ) (datos : List Double) : ℕ → ℤ → ℕ → ℕ → List Double
  | 0, _, _, _ => []
  | n + 1, i, rra_pointer, pos =>
    if i < 0 then nan :: lee rra_base row_cnt datos n (i + 1) rra_pointer pos
    else if i ≥ row_cnt then nan :: lee rra_base row_cnt datos n (i + 1) rra_pointer pos
    else if rra_pointer ≥ row_cnt then
      datos.getD (rra_base + (rra_pointer - row_cnt)) nan ::
        lee rra_base row_cnt datos n (i + 1) (rra_pointer - row_cnt + 1)
        (rra_base + (rra_pointer - row_cnt) + 1)
    else datos.getD pos nan :: lee rra_base row_cnt datos n (i + 1) (rra_pointer + 1) (pos + 1)

/-- `rrd_fetch_fn` once it has chosen an archive: how many rows it allocates, and what it
reads. The file is at the beginning of its data. -/
def fetch_rra (f : Fuente) (datos : List Double) (start fin : ℕ) : ℕ × List Double :=
  let start := start - start % f.step
  let fin := fin + (f.step - fin % f.step)
  let rows := (fin - start) / f.step + 1
  let rra_end_time : ℤ := (f.last_up - f.last_up % f.step : ℕ)
  let rra_start_time : ℤ := rra_end_time - f.step * (f.ptr.row_cnt - 1 : ℕ)
  let start_offset : ℤ := ((start : ℤ) + f.step - rra_start_time).tdiv f.step
  let end_offset : ℤ := (rra_end_time - fin).tdiv f.step
  let n := (f.ptr.row_cnt - end_offset - start_offset).toNat
  if (start : ℤ) ≤ rra_end_time ∧ (fin : ℤ) ≥ rra_start_time - f.step then
    let rra_pointer :=
      if start_offset ≤ 0 then f.ptr.cur_row + 1 else f.ptr.cur_row + 1 + start_offset.toNat
    let rra_pointer := rra_pointer % f.ptr.row_cnt
    (rows, lee f.rra_base f.ptr.row_cnt datos n start_offset rra_pointer (f.rra_base + rra_pointer))
  else (rows, lee f.rra_base f.ptr.row_cnt datos n start_offset 0 0)

end Fetch

section Loop

variable {rra_base : ℕ} {p : Rra_ptr} {datos : List Double}

def enVentana (rra_base : ℕ) (p : Rra_ptr) (datos : List Double) (i : ℤ) : Double :=
  if 0 ≤ i ∧ i < p.row_cnt then (vista rra_base p datos).getD i.toNat nan else nan

theorem vista_getElem? (h : rra_base + p.row_cnt ≤ datos.length) {k : ℕ} (hk : k < p.row_cnt) :
    (vista rra_base p datos)[k]? = datos[rra_base + (p.cur_row + 1 + k) % p.row_cnt]? := by
  have hrows : (anillo p h).rows.length = p.row_cnt := length_region h
  have hview := (anillo p h).view_getElem? (i := k) (by rw [hrows]; exact hk)
  rw [hrows] at hview
  rw [← view_anillo h, hview]
  exact region_getElem? (Nat.mod_lt _ (Nat.zero_lt_of_lt p.cur_row_lt))

theorem enVentana_of_mem (h : rra_base + p.row_cnt ≤ datos.length) {i : ℤ} (h0 : 0 ≤ i)
    (hi : i < p.row_cnt) :
    enVentana rra_base p datos i =
      datos.getD (rra_base + (p.cur_row + 1 + i.toNat) % p.row_cnt) nan := by
  have hlt : i.toNat < p.row_cnt := by omega
  rw [enVentana, if_pos ⟨h0, hi⟩, List.getD_eq_getElem?_getD, vista_getElem? h hlt,
    List.getD_eq_getElem?_getD]

/-- The loop reads the window in order, wherever it starts. The pointer is only right
where there is something to read. -/
theorem lee_eq (h : rra_base + p.row_cnt ≤ datos.length) (n : ℕ) {i : ℤ} {rra_pointer pos : ℕ}
    (hle : i < p.row_cnt → 0 < i + n → rra_pointer ≤ p.row_cnt ∧
      rra_pointer % p.row_cnt = (p.cur_row + 1 + i.toNat) % p.row_cnt ∧
      (rra_pointer < p.row_cnt → pos = rra_base + rra_pointer)) :
    lee rra_base p.row_cnt datos n i rra_pointer pos =
      (List.range n).map fun j : ℕ ↦ enVentana rra_base p datos (i + j) := by
  induction n generalizing i rra_pointer pos with
  | zero => rfl
  | succ n ih =>
    have hpos : 0 < p.row_cnt := Nat.zero_lt_of_lt p.cur_row_lt
    have hrange : (List.range (n + 1)).map (fun j : ℕ ↦ enVentana rra_base p datos (i + j)) =
        enVentana rra_base p datos i ::
          (List.range n).map fun j : ℕ ↦ enVentana rra_base p datos (i + 1 + j) := by
      rw [List.range_succ_eq_map, List.map_cons, List.map_map, Nat.cast_zero, add_zero]
      congr 1
      apply List.map_congr_left
      intro j _
      rw [Function.comp_apply, Nat.cast_succ, add_comm (j : ℤ), ← add_assoc]
    rw [hrange, lee]
    split_ifs with hneg hge hwrap
    · rw [enVentana, if_neg (by omega), ih]
      intro hlt hn
      obtain ⟨h1, h2, h3⟩ := hle (by omega) (by push_cast; omega)
      refine ⟨h1, ?_, h3⟩
      rw [h2]
      congr 2
      omega
    · rw [enVentana, if_neg (by omega), ih]
      intro hlt
      omega
    · obtain ⟨h1, h2, -⟩ := hle (by omega) (by push_cast; omega)
      have heq : rra_pointer = p.row_cnt := le_antisymm h1 hwrap
      rw [heq, Nat.mod_self] at h2
      rw [heq, Nat.sub_self, enVentana_of_mem h (by omega) (by omega), ← h2, ih]
      intro hlt hn
      have hnext : p.cur_row + 1 + (i + 1).toNat = p.cur_row + 1 + i.toNat + 1 := by omega
      refine ⟨hpos, ?_, fun _ ↦ rfl⟩
      rw [hnext, Nat.add_mod (p.cur_row + 1 + i.toNat), ← h2, Nat.zero_add, Nat.zero_add,
        Nat.mod_mod]
    · obtain ⟨h1, h2, h3⟩ := hle (by omega) (by push_cast; omega)
      have hlt := not_le.1 hwrap
      rw [Nat.mod_eq_of_lt hlt] at h2
      rw [h3 hlt, enVentana_of_mem h (by omega) (by omega), ← h2, ih]
      intro hlt' hn
      have hnext : p.cur_row + 1 + (i + 1).toNat = p.cur_row + 1 + i.toNat + 1 := by omega
      refine ⟨hlt, ?_, fun _ ↦ rfl⟩
      rw [hnext, Nat.add_mod (p.cur_row + 1 + i.toNat), ← h2, Nat.add_mod_mod]

end Loop

section Window

variable {f : Fuente} {datos : List Double} {start fin : ℕ}

theorem offsets (hstep : 0 < f.step) (s g n : ℕ) :
    let rra_end_time : ℤ := (f.step * n : ℕ)
    let rra_start_time : ℤ := rra_end_time - f.step * (f.ptr.row_cnt - 1 : ℕ)
    (((f.step * s : ℕ) : ℤ) + f.step - rra_start_time).tdiv f.step = s + f.ptr.row_cnt - n ∧
      (rra_end_time - (f.step * g : ℕ)).tdiv f.step = (n : ℤ) - g ∧
      (((f.step * s : ℕ) : ℤ) ≤ rra_end_time ∧ ((f.step * g : ℕ) : ℤ) ≥ rra_start_time - f.step ↔
        s ≤ n ∧ n ≤ g + f.ptr.row_cnt) := by
  have hpos : 0 < f.ptr.row_cnt := Nat.zero_lt_of_lt f.ptr.cur_row_lt
  have hz : (0 : ℤ) < f.step := by exact_mod_cast hstep
  have hrow : ((f.ptr.row_cnt - 1 : ℕ) : ℤ) = f.ptr.row_cnt - 1 := by omega
  have hstart : ((f.step * s : ℕ) : ℤ) + f.step -
    ((f.step * n : ℕ) - f.step * (f.ptr.row_cnt - 1)) =
      f.step * (s + f.ptr.row_cnt - n) := by
    push_cast
    ring
  have hfin : ((f.step * n : ℕ) : ℤ) - (f.step * g : ℕ) = f.step * (n - g) := by
    push_cast
    ring
  have hseek : ((f.step * n : ℕ) : ℤ) - f.step * (f.ptr.row_cnt - 1) - f.step =
      f.step * (n - f.ptr.row_cnt) := by
    push_cast
    ring
  dsimp only
  rw [hrow, hstart, hfin, hseek, Int.mul_tdiv_cancel_left _ hz.ne',
    Int.mul_tdiv_cancel_left _ hz.ne']
  refine ⟨rfl, rfl, ?_⟩
  push_cast
  rw [ge_iff_le, mul_le_mul_iff_right₀ hz, mul_le_mul_iff_right₀ hz]
  omega

/-- A fetch gives the rows from the one after `start` to the one after `fin`, each of them
in its place, and nothing for those that are not in the archive. It allocates one more. -/
theorem fetch_rra_eq (hstep : 0 < f.step) (h : f.rra_base + f.ptr.row_cnt ≤ datos.length)
    (hle : start ≤ fin) :
    fetch_rra f datos start fin =
      (fin / f.step + 1 - start / f.step + 1,
        (List.range' (start / f.step + 1) (fin / f.step + 1 - start / f.step)).map fun n ↦
          if f.last_up / f.step < n + f.ptr.row_cnt ∧ n ≤ f.last_up / f.step then
            (vista f.rra_base f.ptr datos).getD (n + f.ptr.row_cnt - f.last_up / f.step - 1) nan
          else nan) := by
  have hpos : 0 < f.ptr.row_cnt := Nat.zero_lt_of_lt f.ptr.cur_row_lt
  have hdiv : start / f.step ≤ fin / f.step := Nat.div_le_div_right hle
  have hstart : start - start % f.step = f.step * (start / f.step) := by
    have := Nat.div_add_mod start f.step
    omega
  have hfin : fin + (f.step - fin % f.step) = f.step * (fin / f.step + 1) := by
    have h1 := Nat.div_add_mod fin f.step
    have h2 := Nat.mod_lt fin hstep
    rw [Nat.mul_add, Nat.mul_one]
    omega
  have hlast : f.last_up - f.last_up % f.step = f.step * (f.last_up / f.step) := by
    have := Nat.div_add_mod f.last_up f.step
    omega
  unfold fetch_rra
  rw [hstart, hfin, hlast]
  generalize start / f.step = s at *
  generalize hg : fin / f.step + 1 = g at *
  generalize f.last_up / f.step = n at *
  obtain ⟨hs, he, hseek⟩ := offsets hstep s g n
  dsimp only at hs he hseek ⊢
  have hrows : (f.step * g - f.step * s) / f.step + 1 = g - s + 1 := by
    rw [← Nat.mul_sub, Nat.mul_div_cancel_left _ hstep]
  have hcount : ((f.ptr.row_cnt : ℤ) - (n - g) - (s + f.ptr.row_cnt - n)).toNat = g - s := by omega
  have hvalues : (List.range (g - s)).map (fun j : ℕ ↦
      enVentana f.rra_base f.ptr datos ((s : ℤ) + f.ptr.row_cnt - n + j)) =
        (List.range' (s + 1) (g - s)).map fun m ↦ if n < m + f.ptr.row_cnt ∧ m ≤ n then
          (vista f.rra_base f.ptr datos).getD (m + f.ptr.row_cnt - n - 1) nan else nan := by
    rw [List.range'_eq_map_range, List.map_map]
    apply List.map_congr_left
    intro j _
    rw [Function.comp_apply, enVentana]
    by_cases hin : n < s + 1 + j + f.ptr.row_cnt ∧ s + 1 + j ≤ n
    · have hidx : ((s : ℤ) + f.ptr.row_cnt - n + j).toNat =
        s + 1 + j + f.ptr.row_cnt - n - 1 := by omega
      rw [if_pos (by omega), if_pos hin, hidx]
    · rw [if_neg (by omega), if_neg hin]
  rw [hs, he, hrows, hcount, ← hvalues]
  split_ifs with hin hoff
  · congr 1
    apply lee_eq h
    intro _ _
    have hzero : ((s : ℤ) + f.ptr.row_cnt - n).toNat = 0 := by omega
    rw [hzero, Nat.mod_mod]
    exact ⟨(Nat.mod_lt _ hpos).le, rfl, fun _ ↦ rfl⟩
  · congr 1
    apply lee_eq h
    intro _ _
    rw [Nat.mod_mod]
    exact ⟨(Nat.mod_lt _ hpos).le, rfl, fun _ ↦ rfl⟩
  · congr 1
    apply lee_eq h
    intro hlt hgt
    -- the file was not sought: there is nothing to read in it
    have hout : ¬ (s ≤ n ∧ n ≤ g + f.ptr.row_cnt) := fun h ↦ hin (hseek.2 h)
    omega

end Window

end ServiciosRed.Fetching
