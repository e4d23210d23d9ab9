import ServiciosRed.Doubles
import ServiciosRed.RoundRobin

namespace ServiciosRed.Archives

open Doubles RoundRobin

structure Rra_ptr where
  row_cnt : ℕ
  cur_row : ℕ
  cur_row_lt : cur_row < row_cnt

section Write

/-- `++cur_row`, with wrap around -/
def Rra_ptr.avanza (p : Rra_ptr) : Rra_ptr where
  row_cnt := p.row_cnt
  cur_row := if p.cur_row + 1 ≥ p.row_cnt then 0 else p.cur_row + 1
  cur_row_lt := by
    have h := p.cur_row_lt
    split_ifs <;> omega

/-- What an archive has ready for its rows after an update. -/
structure Trabajo where
  ptr : Rra_ptr
  rra_step_cnt : ℕ
  skip_update : Bool
  primary_val : Double
  secondary_val : Double

/-- The rows of one archive: the primary value first, and then the secondary one. -/
def write_rra (rra_start : ℕ) (skip_update : Bool) (secondary_val : Double) :
    ℕ → Double → Rra_ptr → List Double → Rra_ptr × List Double
  | 0, _, p, datos => (p, datos)
  | n + 1, x, p, datos =>
    write_rra rra_start skip_update secondary_val n secondary_val p.avanza
      (if skip_update then datos else datos.set (rra_start + p.avanza.cur_row) x)

def write_to_rras : ℕ → List Trabajo → List Double → List Rra_ptr × List Double
  | _, [], datos => ([], datos)
  | rra_start, t :: ts, datos =>
    let r :=
      write_rra rra_start t.skip_update t.secondary_val t.rra_step_cnt t.primary_val t.ptr datos
    let rs := write_to_rras (rra_start + t.ptr.row_cnt) ts r.2
    (r.1 :: rs.1, rs.2)

end Write

section View

def vista (start : ℕ) (p : Rra_ptr) (datos : List Double) : List Double :=
  (region datos start p.row_cnt).rotate (p.cur_row + 1)

variable {start : ℕ} {p : Rra_ptr} {datos : List Double}

def anillo (p : Rra_ptr) (h : start + p.row_cnt ≤ datos.length) : Wheel Double where
  rows := region datos start p.row_cnt
  cur := p.cur_row
  cur_lt := by
    rw [length_region h]
    exact p.cur_row_lt

theorem view_anillo (h : start + p.row_cnt ≤ datos.length) :
    (anillo p h).view = vista start p datos := rfl

theorem next_anillo (h : start + p.row_cnt ≤ datos.length) :
    (anillo p h).next = p.avanza.cur_row := by
  have hlen : (anillo p h).rows.length = p.row_cnt := length_region h
  rw [Wheel.next, hlen]
  rfl

theorem length_vista (h : start + p.row_cnt ≤ datos.length) :
    (vista start p datos).length = p.row_cnt := by
  rw [vista, List.length_rotate, length_region h]

theorem vista_avanza (h : start + p.row_cnt ≤ datos.length) :
    vista start p.avanza datos = (vista start p datos).rotate 1 := by
  have hskip := (anillo p h).view_skip
  rw [view_anillo] at hskip
  have hview : (anillo p h).skip.view =
    (region datos start p.row_cnt).rotate ((anillo p h).next + 1) := rfl
  rw [← hskip, hview, next_anillo]
  rfl

theorem vista_set (h : start + p.row_cnt ≤ datos.length) (x : Double) :
    vista start p.avanza (datos.set (start + p.avanza.cur_row) x) =
      (vista start p datos).tail ++ [x] := by
  have hpush := (anillo p h).view_push x
  rw [view_anillo] at hpush
  have hview : ((anillo p h).push x).view =
      ((region datos start p.row_cnt).set (anillo p h).next x).rotate ((anillo p h).next + 1) := rfl
  rw [← hpush, hview, next_anillo, ← region_set]
  rfl

end View

section Spec

def escritas {α : Type*} : ℕ → α → α → List α
  | 0, _, _ => []
  | n + 1, x, y => x :: List.replicate n y

@[simp] theorem length_escritas {α : Type*} (n : ℕ) (x y : α) : (escritas n x y).length = n := by
  cases n with
  | zero => rfl
  | succ n => rw [escritas, List.length_cons, List.length_replicate]

theorem escritas_self {α : Type*} (n : ℕ) (y : α) : escritas n y y = List.replicate n y := by
  cases n <;> rfl

theorem map_escritas {α β : Type*} (f : α → β) (n : ℕ) (x y : α) :
    (escritas n x y).map f = escritas n (f x) (f y) := by
  cases n with
  | zero => rfl
  | succ n => rw [escritas, List.map_cons, List.map_replicate, escritas]

variable {start : ℕ} {skip : Bool} {x y : Double} {p : Rra_ptr} {datos : List Double}

theorem row_cnt_write_rra (n : ℕ) : (write_rra start skip y n x p datos).1.row_cnt = p.row_cnt := by
  induction n generalizing x p datos with
  | zero => rfl
  | succ n ih => exact ih

theorem length_write_rra (n : ℕ) :
    (write_rra start skip y n x p datos).2.length = datos.length := by
  induction n generalizing x p datos with
  | zero => rfl
  | succ n ih =>
    rw [write_rra, ih]
    split_ifs
    · rfl
    · exact List.length_set

theorem take_write_rra {b : ℕ} (hb : b ≤ start) (n : ℕ) :
    (write_rra start skip y n x p datos).2.take b = datos.take b := by
  induction n generalizing x p datos with
  | zero => rfl
  | succ n ih =>
    rw [write_rra, ih]
    split_ifs
    · rfl
    · exact List.take_set_of_le (by omega)

theorem drop_write_rra (n : ℕ) :
    (write_rra start skip y n x p datos).2.drop (start + p.row_cnt) =
      datos.drop (start + p.row_cnt) := by
  induction n generalizing x p datos with
  | zero => rfl
  | succ n ih =>
    have hrow : p.avanza.row_cnt = p.row_cnt := rfl
    rw [write_rra, ← hrow, ih]
    split_ifs
    · rfl
    · have hlt := p.avanza.cur_row_lt
      rw [List.drop_set, if_pos (by omega)]

theorem vista_write_rra (h : start + p.row_cnt ≤ datos.length) (n : ℕ) :
    let r := write_rra start false y n x p datos
    vista start r.1 r.2 = (vista start p datos ++ escritas n x y).drop n := by
  induction n generalizing x p datos with
  | zero => rw [escritas, List.append_nil]; rfl
  | succ n ih =>
    have hlen : start + p.avanza.row_cnt ≤ (datos.set (start + p.avanza.cur_row) x).length := by
      rw [List.length_set]
      exact h
    have hrest := ih (x := y) hlen
    have hne : vista start p datos ≠ [] := by
      apply List.ne_nil_of_length_pos
      rw [length_vista h]
      exact Nat.zero_lt_of_lt p.cur_row_lt
    obtain ⟨v, vs, hv⟩ := List.exists_cons_of_ne_nil hne
    rw [vista_set h, escritas_self, hv, List.tail_cons, List.append_assoc] at hrest
    rw [hv, escritas, List.cons_append, List.drop_succ_cons]
    exact hrest

theorem vista_skip (h : start + p.row_cnt ≤ datos.length) (n : ℕ) :
    let r := write_rra start true y n x p datos
    vista start r.1 r.2 = (vista start p datos).rotate n ∧ r.2 = datos := by
  induction n generalizing x p with
  | zero => exact ⟨(List.rotate_zero _).symm, rfl⟩
  | succ n ih =>
    have hrest := ih (x := y) (p := p.avanza) h
    rw [vista_avanza h, List.rotate_rotate, Nat.add_comm] at hrest
    exact hrest

theorem length_write_to_rras (ts : List Trabajo) (start : ℕ) (datos : List Double) :
    (write_to_rras start ts datos).2.length = datos.length := by
  induction ts generalizing start datos with
  | nil => rfl
  | cons t ts ih => exact (ih _ _).trans (length_write_rra _)

theorem take_write_to_rras {b : ℕ} (ts : List Trabajo) (hb : b ≤ start) :
    (write_to_rras start ts datos).2.take b = datos.take b := by
  induction ts generalizing start datos with
  | nil => rfl
  | cons t ts ih => exact (ih (by omega)).trans (take_write_rra hb _)

theorem vista_congr_drop {b : ℕ} {datos' : List Double} (hb : b ≤ start)
    (h : datos.drop b = datos'.drop b) :
    vista start p datos = vista start p datos' := by
  have hdrop : datos.drop start = datos'.drop start := by
    rw [← Nat.sub_add_cancel hb, Nat.add_comm, ← List.drop_drop, ← List.drop_drop, h]
  rw [vista, vista, region, region, hdrop]

theorem vista_congr_take {datos' : List Double}
    (h : datos.take (start + p.row_cnt) = datos'.take (start + p.row_cnt)) :
    vista start p datos = vista start p datos' := by
  have hregion : ∀ l : List Double, region l start p.row_cnt =
      (l.take (start + p.row_cnt)).drop start := by
    intro l
    rw [region, List.drop_take, Nat.add_sub_cancel_left]
  rw [vista, vista, hregion, hregion, h]

end Spec

section Each

variable {β γ : Type*} {size : β → ℕ} {P Q : ℕ → β → γ → Prop}

/-- A relation between two lists whose items start where the ones before them end. -/
inductive Each (size : β → ℕ) (P : ℕ → β → γ → Prop) : ℕ → List β → List γ → Prop
  | nil (b : ℕ) : Each size P b [] []
  | cons {b : ℕ} {x : β} {y : γ} {xs : List β} {ys : List γ} :
      P b x y → Each size P (b + size x) xs ys → Each size P b (x :: xs) (y :: ys)

theorem Each.imp {b₀ : ℕ} {xs : List β} {ys : List γ} (h : Each size P b₀ xs ys)
    (himp : ∀ b x y, b₀ ≤ b → P b x y → Q b x y) : Each size Q b₀ xs ys := by
  induction h with
  | nil b => exact .nil b
  | cons hp h ih => exact .cons (himp _ _ _ le_rfl hp) (ih fun b x y hb ↦ himp b x y (by omega))

theorem Each.comp {δ : Type*} {size' : γ → ℕ} {R : ℕ → γ → δ → Prop} {S : ℕ → β → δ → Prop} {b₀ : ℕ}
    {xs : List β} {ys : List γ} {zs : List δ} (h : Each size P b₀ xs ys)
    (h' : Each size' R b₀ ys zs)
    (hsize : ∀ b x y, P b x y → size' y = size x) (hcomp : ∀ b x y z, P b x y → R b y z → S b x z) :
    Each size S b₀ xs zs := by
  induction h generalizing zs with
  | nil b =>
    cases h'
    exact .nil b
  | cons hp h ih =>
    cases h' with
    | cons hr h' =>
      rw [hsize _ _ _ hp] at h'
      exact .cons (hcomp _ _ _ _ hp hr) (ih h')

theorem Each.get {b₀ : ℕ} {xs : List β} {ys : List γ} (h : Each size P b₀ xs ys) {i : ℕ} {x : β}
    (hx : xs[i]? = some x) : ∃ y, ys[i]? = some y ∧ P (b₀ + ((xs.take i).map size).sum) x y := by
  induction h generalizing i with
  | nil b => cases hx
  | cons hp h ih =>
    cases i with
    | zero =>
      cases hx
      exact ⟨_, rfl, hp⟩
    | succ i =>
      obtain ⟨y, hy, hrest⟩ := ih hx
      rw [Nat.add_assoc] at hrest
      exact ⟨y, hy, hrest⟩

theorem Each.map_eq {δ : Type*} {f : β → δ} {g : γ → δ} {b₀ : ℕ} {xs : List β} {ys : List γ}
    (h : Each size P b₀ xs ys) (hf : ∀ b x y, P b x y → f x = g y) : xs.map f = ys.map g := by
  induction h with
  | nil b => rfl
  | cons hp h ih => rw [List.map_cons, List.map_cons, hf _ _ _ hp, ih]

theorem Each.flatMap {β' γ' : Type*} {size' : β' → ℕ} {P' : ℕ → β' → γ' → Prop} {f : β → List β'}
    {g : γ → List γ'} {b₀ : ℕ} {xs : List β} {ys : List γ} (h : Each size P b₀ xs ys)
    (hsize : ∀ x, ((f x).map size').sum = size x)
    (hparts : ∀ b x y, P b x y → Each size' P' b (f x) (g y)) :
    Each size' P' b₀ (xs.flatMap f) (ys.flatMap g) := by
  have happend : ∀ {b xs' ys' xs'' ys''}, Each size' P' b xs' ys' →
      Each size' P' (b + (xs'.map size').sum) xs'' ys'' →
      Each size' P' b (xs' ++ xs'') (ys' ++ ys'') := by
    intro b xs' ys' xs'' ys'' h' h''
    induction h' with
    | nil b => exact h''
    | cons hp h' ih =>
      rw [List.map_cons, List.sum_cons, ← Nat.add_assoc] at h''
      exact .cons hp (ih h'')
  induction h with
  | nil b => exact .nil b
  | cons hp h ih =>
    rw [List.flatMap_cons, List.flatMap_cons]
    refine happend (hparts _ _ _ hp) ?_
    rw [hsize]
    exact ih

end Each

def Trabajo.filas (t : Trabajo) (v : List Double) : List Double :=
  if t.skip_update then v.rotate t.rra_step_cnt
  else (v ++ escritas t.rra_step_cnt t.primary_val t.secondary_val).drop t.rra_step_cnt

/-- Each archive gets the rows of its own job, in its own part of the file. -/
theorem write_to_rras_each (ts : List Trabajo) {start : ℕ} {datos : List Double}
    (h : start + (ts.map fun t ↦ t.ptr.row_cnt).sum ≤ datos.length) :
    let r := write_to_rras start ts datos
    Each (fun t ↦ t.ptr.row_cnt) (fun b t p ↦ p.row_cnt = t.ptr.row_cnt ∧
      vista b p r.2 = t.filas (vista b t.ptr datos)) start ts r.1 := by
  induction ts generalizing start datos with
  | nil => exact .nil _
  | cons t ts ih =>
    rw [List.map_cons, List.sum_cons, ← Nat.add_assoc] at h
    have hhead : start + t.ptr.row_cnt ≤ datos.length := by omega
    have hrow : (write_rra start t.skip_update t.secondary_val t.rra_step_cnt t.primary_val t.ptr
      datos).1.row_cnt =
        t.ptr.row_cnt := row_cnt_write_rra _
    have hdrop :
        (write_rra start t.skip_update t.secondary_val t.rra_step_cnt t.primary_val t.ptr
          datos).2.drop (start + t.ptr.row_cnt) = datos.drop (start + t.ptr.row_cnt) :=
      drop_write_rra _
    have hlen : (write_rra start t.skip_update t.secondary_val t.rra_step_cnt t.primary_val t.ptr
      datos).2.length =
        datos.length := length_write_rra _
    have hview : vista start
      (write_rra start t.skip_update t.secondary_val t.rra_step_cnt t.primary_val t.ptr datos).1
        (write_rra start t.skip_update t.secondary_val t.rra_step_cnt t.primary_val t.ptr datos).2 =
        t.filas (vista start t.ptr datos) := by
      rw [Trabajo.filas]
      cases t.skip_update with
      | true => exact (vista_skip hhead _).1
      | false => exact vista_write_rra hhead _
    rw [write_to_rras]
    generalize write_rra start t.skip_update t.secondary_val t.rra_step_cnt t.primary_val t.ptr
      datos = r at *
    have htake : (write_to_rras (start + t.ptr.row_cnt) ts r.2).2.take (start + t.ptr.row_cnt) =
        r.2.take (start + t.ptr.row_cnt) := take_write_to_rras ts le_rfl
    have hfin : start + t.ptr.row_cnt + (ts.map fun t ↦ t.ptr.row_cnt).sum ≤ r.2.length := by omega
    have hrest := ih hfin
    refine .cons ⟨hrow, ?_⟩ (hrest.imp fun b t' p hb hp ↦ ⟨hp.1, ?_⟩)
    · rw [← hrow] at htake
      rw [← hview, ← hrow]
      exact vista_congr_take htake
    · refine hp.2.trans ?_
      rw [vista_congr_drop hb hdrop]

end ServiciosRed.Archives
