import Mathlib.Data.List.Rotate
import Mathlib.Data.Nat.ModEq

namespace ServiciosRed.RoundRobin

variable {α : Type*}

/-- A fixed number of rows and the one that was written last. -/
structure Wheel (α : Type*) where
  rows : List α
  cur : ℕ
  cur_lt : cur < rows.length

namespace Wheel

variable (r : Wheel α)

def next : ℕ := if r.cur + 1 ≥ r.rows.length then 0 else r.cur + 1

theorem next_lt : r.next < r.rows.length := by
  have h := r.cur_lt
  unfold next
  split_ifs <;> omega

theorem next_eq_mod : r.next = (r.cur + 1) % r.rows.length := by
  have h := r.cur_lt
  unfold next
  split_ifs with hge
  · have hlen : r.cur + 1 = r.rows.length := by omega
    rw [hlen, Nat.mod_self]
  · rw [Nat.mod_eq_of_lt (by omega)]

def push (x : α) : Wheel α where
  rows := r.rows.set r.next x
  cur := r.next
  cur_lt := by
    rw [List.length_set]
    exact r.next_lt

/-- The next row is passed over and keeps what it has. -/
def skip : Wheel α where
  rows := r.rows
  cur := r.next
  cur_lt := r.next_lt

def view : List α := r.rows.rotate (r.cur + 1)

@[simp] theorem length_view : r.view.length = r.rows.length := List.length_rotate _ _

@[simp] theorem length_push (x : α) : (r.push x).rows.length = r.rows.length := List.length_set

theorem view_eq_rotate_next : r.view = r.rows.rotate r.next := by
  rw [view, next_eq_mod, List.rotate_mod]

theorem view_eq : r.view = r.rows.drop r.next ++ r.rows.take r.next := by
  rw [view_eq_rotate_next, List.rotate_eq_drop_append_take r.next_lt.le]

theorem view_getElem? {i : ℕ} (hi : i < r.rows.length) :
    r.view[i]? = r.rows[(r.cur + 1 + i) % r.rows.length]? := by
  rw [view, List.getElem?_rotate hi, Nat.add_comm i]

/-- A push drops the oldest row and puts the new one after the others. -/
theorem view_push (x : α) : (r.push x).view = r.view.tail ++ [x] := by
  have hlt := r.next_lt
  have hsplit : r.rows.drop r.next = r.rows[r.next] :: r.rows.drop (r.next + 1) :=
    List.drop_eq_getElem_cons hlt
  have hset : r.rows.set r.next x = r.rows.take r.next ++ x :: r.rows.drop (r.next + 1) :=
    List.set_eq_take_append_cons_drop.trans (if_pos hlt)
  have hlen : (r.rows.take r.next ++ [x]).length = r.next + 1 := by
    rw [List.length_append, List.length_take, Nat.min_eq_left hlt.le]
    rfl
  have hparts : r.rows.take r.next ++ x :: r.rows.drop (r.next + 1) =
      (r.rows.take r.next ++ [x]) ++ r.rows.drop (r.next + 1) := by
    rw [List.append_assoc]
    rfl
  have hrotate :=
    List.rotate_append_length_eq (r.rows.take r.next ++ [x]) (r.rows.drop (r.next + 1))
  rw [hlen] at hrotate
  have hview : (r.push x).view = (r.rows.set r.next x).rotate (r.next + 1) := rfl
  rw [hview, hset, hparts, hrotate, view_eq, hsplit, List.cons_append, List.tail_cons,
    List.append_assoc]

theorem view_skip : r.skip.view = r.view.rotate 1 := by
  have hview : r.skip.view = r.rows.rotate (r.next + 1) := rfl
  rw [hview, view_eq_rotate_next, List.rotate_rotate]

theorem view_skip_iterate (n : ℕ) : (skip^[n] r).view = r.view.rotate n := by
  induction n with
  | zero => exact (List.rotate_zero _).symm
  | succ n ih => rw [Function.iterate_succ_apply', view_skip, ih, List.rotate_rotate]

section Ahead

def ahead (k : ℕ) : α :=
  r.rows.get ⟨(r.cur + k) % r.rows.length, Nat.mod_lt _ (Nat.zero_lt_of_lt r.cur_lt)⟩

theorem ahead_eq_iff {k : ℕ} {x : α} :
    r.ahead k = x ↔ r.rows[(r.cur + k) % r.rows.length]? = some x := by
  have hlt : (r.cur + k) % r.rows.length < r.rows.length :=
    Nat.mod_lt _ (Nat.zero_lt_of_lt r.cur_lt)
  rw [List.getElem?_eq_getElem hlt, Option.some.injEq]
  rfl

theorem view_ahead (k : ℕ) :
    r.view[(k + (r.rows.length - 1)) % r.rows.length]? = some (r.ahead k) := by
  have hpos : 0 < r.rows.length := Nat.zero_lt_of_lt r.cur_lt
  have hrow : (r.cur + 1 + (k + (r.rows.length - 1)) % r.rows.length) % r.rows.length =
      (r.cur + k) % r.rows.length := by
    have hsum : r.cur + 1 + (k + (r.rows.length - 1)) = r.cur + k + r.rows.length := by omega
    rw [Nat.add_mod_mod, hsum, Nat.add_mod_right]
  rw [view_getElem? r (Nat.mod_lt _ hpos), hrow]
  exact (r.ahead_eq_iff (k := k)).1 rfl

theorem ahead_eq_of_view {r r' : Wheel α} (h : r.view = r'.view) : r.ahead = r'.ahead := by
  have hlen : r.rows.length = r'.rows.length := by
    rw [← length_view, ← length_view, h]
  funext k
  apply Option.some.inj
  rw [← view_ahead, ← view_ahead, h, hlen]

theorem ahead_skip (k : ℕ) : r.skip.ahead k = r.ahead (k + 1) := by
  have hcur : (r.next + k) % r.rows.length = (r.cur + (k + 1)) % r.rows.length := by
    rw [next_eq_mod, Nat.mod_add_mod, Nat.add_right_comm, Nat.add_assoc]
  have hget := (r.ahead_eq_iff (k := k + 1)).1 rfl
  rw [← hcur] at hget
  exact r.skip.ahead_eq_iff.2 hget

theorem ahead_skip_iterate (n k : ℕ) : (skip^[n] r).ahead k = r.ahead (k + n) := by
  induction n generalizing k with
  | zero => rfl
  | succ n ih =>
    rw [Function.iterate_succ_apply', ahead_skip, ih, Nat.add_right_comm, Nat.add_assoc]

theorem ahead_push (x : α) (k : ℕ) :
    (r.push x).ahead k = if k % r.rows.length = 0 then x else r.ahead (k + 1) := by
  have hnext := r.next_lt
  have hcur : (r.next + k) % r.rows.length = (r.cur + (k + 1)) % r.rows.length := by
    rw [next_eq_mod, Nat.mod_add_mod, Nat.add_right_comm, Nat.add_assoc]
  apply (r.push x).ahead_eq_iff.2
  rw [length_push]
  split_ifs with hk
  · have hself : (r.next + k) % r.rows.length = r.next := by
      rw [Nat.add_mod, hk, Nat.add_zero, Nat.mod_mod, Nat.mod_eq_of_lt hnext]
    have hlast : (r.push x).cur = r.next := rfl
    rw [hlast, hself]
    exact List.getElem?_set_self hnext
  · have hne : r.next ≠ (r.next + k) % r.rows.length := by
      intro heq
      have hmod : (r.next + 0) % r.rows.length = (r.next + k) % r.rows.length := by
        rw [← heq, Nat.add_zero, Nat.mod_eq_of_lt hnext]
      exact hk (Nat.ModEq.add_left_cancel' r.next hmod).symm
    have hget := (r.ahead_eq_iff (k := k + 1)).1 rfl
    rw [← hget, ← hcur]
    exact List.getElem?_set_ne hne

section Replicate

variable {n : ℕ} (hn : 0 < n) (x : α)

def replicate : Wheel α where
  rows := List.replicate n x
  cur := 0
  cur_lt := by rwa [List.length_replicate]

theorem view_replicate : (replicate hn x).view = List.replicate n x := List.rotate_replicate _ _ _

theorem ahead_replicate (k : ℕ) : (replicate hn x).ahead k = x :=
  List.eq_of_mem_replicate (List.get_mem _ _)

end Replicate

section Relation

variable {β : Type*} {r' : Wheel β} {P : ℕ → α → β → Prop}

/-- What two wheels of the same length have in each of their rows is kept by a push on
both, when the new rows have it. The rows are numbered from the beginning. -/
theorem forall_ahead_push {x : α} {y : β} {n : ℕ} (hlen : r'.rows.length = r.rows.length)
    (hP : ∀ i j, i % r.rows.length = j % r.rows.length → P i = P j)
    (h : ∀ k, P (n + k) (r.ahead k) (r'.ahead k)) (hx : P (n + 1) x y) (k : ℕ) :
    P (n + 1 + k) ((r.push x).ahead k) ((r'.push y).ahead k) := by
  rw [ahead_push, ahead_push, hlen]
  split_ifs with hk
  · rw [hP (n + 1 + k) (n + 1) (by rw [Nat.add_mod, hk, Nat.add_zero, Nat.mod_mod])]
    exact hx
  · rw [Nat.add_right_comm, Nat.add_assoc]
    exact h (k + 1)

theorem forall_ahead_skip {n e : ℕ} (h : ∀ k, P (n + k) (r.ahead k) (r'.ahead k)) (k : ℕ) :
    P (n + e + k) ((skip^[e] r).ahead k) ((skip^[e] r').ahead k) := by
  rw [ahead_skip_iterate, ahead_skip_iterate, Nat.add_assoc, Nat.add_comm e]
  exact h (k + e)

end Relation

end Ahead

end Wheel

section Region

variable {l : List α} {b n : ℕ}

def region (l : List α) (b n : ℕ) : List α := (l.drop b).take n

theorem length_region (h : b + n ≤ l.length) : (region l b n).length = n := by
  rw [region, List.length_take, List.length_drop]
  omega

theorem region_getElem? {i : ℕ} (hi : i < n) : (region l b n)[i]? = l[b + i]? := by
  rw [region, List.getElem?_take_of_lt hi, List.getElem?_drop]

theorem region_set {i : ℕ} (x : α) : region (l.set (b + i) x) b n = (region l b n).set i x := by
  rw [region, region, List.drop_set, if_neg (by omega), Nat.add_sub_cancel_left, List.take_set]

end Region

end ServiciosRed.RoundRobin
