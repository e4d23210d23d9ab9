import ServiciosRed.Archives
import ServiciosRed.Blocks
import Mathlib.Algebra.BigOperators.Group.List.Basic

namespace ServiciosRed.Consolidation

open Doubles Double Blocks

inductive CF
  | AVERAGE | MINIMUM | MAXIMUM | LAST
  deriving DecidableEq

/-- An archive, with what `rrd_create_r` checks of it. -/
structure Rra_def where
  cf_nam : CF
  pdp_cnt : ℕ
  row_cnt : ℕ
  cdp_xff_val : ℚ
  pdp_cnt_pos : 0 < pdp_cnt
  row_cnt_pos : 0 < row_cnt
  xff_nonneg : 0 ≤ cdp_xff_val
  xff_lt : cdp_xff_val < 1

structure Cdp_prep where
  CDP_val : Double
  CDP_unkn_pdp_cnt : ℕ
  CDP_primary_val : Double
  CDP_secondary_val : Double

section Update

/-- `CDP_primary_val` -/
def initialize_cdp_val (current_cf : CF) (pdp_temp_val : Double) (start_pdp_offset pdp_cnt : ℕ)
    (scratch : Cdp_prep) : Double :=
  match current_cf with
  | .AVERAGE =>
    let cum_val := ifnan scratch.CDP_val (num 0)
    let cur_val := ifnan pdp_temp_val (num 0)
    (cum_val + cur_val * num start_pdp_offset) / num (pdp_cnt - scratch.CDP_unkn_pdp_cnt : ℤ)
  | .MAXIMUM =>
    let cum_val := ifnan scratch.CDP_val negInf
    let cur_val := ifnan pdp_temp_val negInf
    if lt cum_val cur_val then cur_val else cum_val
  | .MINIMUM =>
    let cum_val := ifnan scratch.CDP_val inf
    let cur_val := ifnan pdp_temp_val inf
    if lt cur_val cum_val then cur_val else cum_val
  | .LAST => pdp_temp_val

def initialize_carry_over (pdp_temp_val : Double) (current_cf : CF)
    (elapsed_pdp_st start_pdp_offset pdp_cnt : ℕ) : Double :=
  let pdp_into_cdp_cnt := (elapsed_pdp_st - start_pdp_offset) % pdp_cnt
  if pdp_into_cdp_cnt = 0 ∨ pdp_temp_val.isnan then
    match current_cf with
    | .MAXIMUM => negInf
    | .MINIMUM => inf
    | .AVERAGE => num 0
    | .LAST => nan
  else
    match current_cf with
    | .AVERAGE => pdp_temp_val * num pdp_into_cdp_cnt
    | _ => pdp_temp_val

def calculate_cdp_val (cdp_val pdp_temp_val : Double) (elapsed_pdp_st : ℕ) (current_cf : CF) :
    Double :=
  if cdp_val.isnan then
    if current_cf = .AVERAGE then pdp_temp_val * num elapsed_pdp_st else pdp_temp_val
  else
    match current_cf with
    | .AVERAGE => cdp_val + pdp_temp_val * num elapsed_pdp_st
    | .MINIMUM => if lt pdp_temp_val cdp_val then pdp_temp_val else cdp_val
    | .MAXIMUM => if lt cdp_val pdp_temp_val then pdp_temp_val else cdp_val
    | .LAST => pdp_temp_val

def update_cdp (d : Rra_def) (pdp_temp_val : Double)
    (rra_step_cnt elapsed_pdp_st start_pdp_offset : ℕ) (scratch : Cdp_prep) : Cdp_prep :=
  if rra_step_cnt ≠ 0 then
    let unkn := if pdp_temp_val.isnan then scratch.CDP_unkn_pdp_cnt + start_pdp_offset
      else scratch.CDP_unkn_pdp_cnt
    { CDP_secondary_val := if pdp_temp_val.isnan then nan else pdp_temp_val
      CDP_primary_val := if (unkn : ℚ) > d.pdp_cnt * d.cdp_xff_val then nan
        else initialize_cdp_val d.cf_nam pdp_temp_val start_pdp_offset d.pdp_cnt
          { scratch with CDP_unkn_pdp_cnt := unkn }
      CDP_val :=
        initialize_carry_over pdp_temp_val d.cf_nam elapsed_pdp_st start_pdp_offset d.pdp_cnt
      CDP_unkn_pdp_cnt := if pdp_temp_val.isnan then (elapsed_pdp_st - start_pdp_offset) %
        d.pdp_cnt else 0 }
  else if pdp_temp_val.isnan then
    { scratch with CDP_unkn_pdp_cnt := scratch.CDP_unkn_pdp_cnt + elapsed_pdp_st }
  else
    { scratch with CDP_val :=
      calculate_cdp_val scratch.CDP_val pdp_temp_val elapsed_pdp_st d.cf_nam }

/-- With one step a row there is nothing to consolidate. -/
def reset_cdp (pdp_temp_val : Double) (scratch : Cdp_prep) : Cdp_prep :=
  { scratch with CDP_primary_val := pdp_temp_val, CDP_secondary_val := pdp_temp_val }

def update_cdp_prep (d : Rra_def) (pdp_temp_val : Double)
    (rra_step_cnt elapsed_pdp_st start_pdp_offset : ℕ) (scratch : Cdp_prep) : Cdp_prep :=
  if d.pdp_cnt > 1 then update_cdp d pdp_temp_val rra_step_cnt elapsed_pdp_st
    start_pdp_offset scratch
  else if elapsed_pdp_st > 2 then reset_cdp pdp_temp_val scratch
  else scratch

/-- The passes of `update_aberrant_cdps` over an archive that predicts nothing. -/
def update_aberrant_cdps (d : Rra_def) (pdp_temp_val : Double) (elapsed_pdp_st : ℕ)
    (scratch : Cdp_prep) :
    Cdp_prep :=
  if d.pdp_cnt = 1 then
    match elapsed_pdp_st with
    | 1 => { scratch with CDP_primary_val := pdp_temp_val }
    | 2 => { scratch with CDP_primary_val := pdp_temp_val, CDP_secondary_val := pdp_temp_val }
    | _ => scratch
  else scratch

def start_pdp_offset (d : Rra_def) (proc_pdp_cnt : ℕ) : ℕ := d.pdp_cnt - proc_pdp_cnt % d.pdp_cnt

def rra_step_cnt (d : Rra_def) (elapsed_pdp_st start_pdp_offset : ℕ) : ℕ :=
  if start_pdp_offset ≤ elapsed_pdp_st then (elapsed_pdp_st - start_pdp_offset) /
    d.pdp_cnt + 1 else 0

def update_rra (d : Rra_def) (pdp_temp_val : Double) (elapsed_pdp_st proc_pdp_cnt : ℕ)
    (scratch : Cdp_prep) :
    Cdp_prep :=
  let offset := start_pdp_offset d proc_pdp_cnt
  update_aberrant_cdps d pdp_temp_val elapsed_pdp_st
    (update_cdp_prep d pdp_temp_val (rra_step_cnt d elapsed_pdp_st offset) elapsed_pdp_st
      offset scratch)

end Update

section Specification

/-- What a row says of the steps of its block. -/
def consolida (d : Rra_def) (bloque : List (Option ℚ)) : Option ℚ :=
  if (bloque.count none : ℚ) > d.pdp_cnt * d.cdp_xff_val then none
  else
    match d.cf_nam with
    | .AVERAGE => some (bloque.reduceOption.sum / bloque.reduceOption.length)
    | .MINIMUM => bloque.reduceOption.min?
    | .MAXIMUM => bloque.reduceOption.max?
    | .LAST => bloque.getLast?.join

def Acumulado (cf : CF) (val : Double) (ks : List ℚ) : Prop :=
  match cf with
  | .AVERAGE => ifnan val (num 0) = num ks.sum
  | .MINIMUM => ifnan val inf = ks.min?.elim inf num
  | .MAXIMUM => ifnan val negInf = ks.max?.elim negInf num
  | .LAST => True

/-- The scratch area of an archive has what is known of the block that is not full. -/
structure Inv (d : Rra_def) (pend : List (Option ℚ)) (scratch : Cdp_prep) : Prop where
  lt : pend.length < d.pdp_cnt
  unkn : scratch.CDP_unkn_pdp_cnt = pend.count none
  val : Acumulado d.cf_nam scratch.CDP_val pend.reduceOption

/-- The rows that `write_to_rras` takes from the scratch area. -/
def escritas (n : ℕ) (scratch : Cdp_prep) : List Double :=
  Archives.escritas n scratch.CDP_primary_val scratch.CDP_secondary_val

end Specification

section Known

variable {v : Option ℚ} {q : ℚ}

theorem reduceOption_replicate_some (n : ℕ) (q : ℚ) :
    (List.replicate n (some q)).reduceOption = List.replicate n q := by
  induction n with
  | zero => rfl
  | succ n ih =>
    rw [List.replicate_succ, List.reduceOption_cons_of_some, ih, List.replicate_succ]

theorem count_none_add_length (l : List (Option ℚ)) :
    l.count none + l.reduceOption.length = l.length := by
  induction l with
  | nil => rfl
  | cons v l ih =>
    cases v with
    | none =>
      rw [List.count_cons_self, List.reduceOption_cons_of_none, List.length_cons]
      omega
    | some q =>
      rw [List.count_cons_of_ne (by simp), List.reduceOption_cons_of_some, List.length_cons,
        List.length_cons]
      omega

theorem count_none_replicate_some (n : ℕ) (q : ℚ) : (List.replicate n (some q)).count none = 0 := by
  apply List.count_eq_zero_of_not_mem
  intro hmem
  cases List.eq_of_mem_replicate hmem

theorem foldl_replicate {op : ℚ → ℚ → ℚ} (hop : ∀ a, op (op a q) q = op a q) (n : ℕ) (a : ℚ) :
    (List.replicate (n + 1) q).foldl op a = op a q := by
  induction n with
  | zero => rfl
  | succ n ih =>
    rw [List.replicate_succ', List.foldl_append, ih]
    exact hop a

theorem max?_append_replicate (ks : List ℚ) (q : ℚ) (n : ℕ) :
    (ks ++ List.replicate (n + 1) q).max? = some (ks.max?.elim q (max · q)) := by
  cases ks with
  | nil =>
    cases n with
    | zero => rfl
    | succ n =>
      exact congrArg some
        ((foldl_replicate (fun a ↦ by rw [max_assoc, max_self]) n q).trans (max_self q))
  | cons k ks =>
    have h : (List.replicate (n + 1) q).foldl max (ks.foldl max k) = max (ks.foldl max k) q :=
      foldl_replicate (fun a ↦ by rw [max_assoc, max_self]) n _
    rw [← List.foldl_append] at h
    exact congrArg some h

theorem min?_append_replicate (ks : List ℚ) (q : ℚ) (n : ℕ) :
    (ks ++ List.replicate (n + 1) q).min? = some (ks.min?.elim q (min · q)) := by
  cases ks with
  | nil =>
    cases n with
    | zero => rfl
    | succ n =>
      exact congrArg some
        ((foldl_replicate (fun a ↦ by rw [min_assoc, min_self]) n q).trans (min_self q))
  | cons k ks =>
    have h : (List.replicate (n + 1) q).foldl min (ks.foldl min k) = min (ks.foldl min k) q :=
      foldl_replicate (fun a ↦ by rw [min_assoc, min_self]) n _
    rw [← List.foldl_append] at h
    exact congrArg some h

end Known

section Accumulation

theorem if_lt_eq_max (k q : ℚ) : (if lt (num k) (num q) then num q else num k) = num (max k q) := by
  rw [num_lt, max_def_lt]
  by_cases h : k < q
  · rw [if_pos (decide_eq_true h), if_pos h]
  · rw [if_neg (by simpa using h), if_neg h]

theorem if_lt_eq_min (k q : ℚ) : (if lt (num q) (num k) then num q else num k) = num (min k q) := by
  rw [num_lt, min_comm, min_def_lt]
  by_cases h : q < k
  · rw [if_pos (decide_eq_true h), if_pos h]
  · rw [if_neg (by simpa using h), if_neg h]

variable {cf : CF} {val : Double} {ks : List ℚ}

theorem Acumulado.calculate_cdp_val (h : Acumulado cf val ks) (q : ℚ) (n : ℕ) :
    Acumulado cf (calculate_cdp_val val (num q) (n + 1) cf) (ks ++ List.replicate (n + 1) q) := by
  cases cf with
  | AVERAGE =>
    have hsum : (ks ++ List.replicate (n + 1) q).sum = ks.sum + q * (n + 1 : ℕ) := by
      rw [List.sum_append, List.sum_replicate, nsmul_eq_mul, mul_comm]
    unfold Acumulado at h ⊢
    rw [hsum]
    cases val with
    | nan =>
      rw [nan_ifnan, num.injEq] at h
      rw [← h, zero_add]
      rfl
    | negInf => cases h
    | num p =>
      rw [num_ifnan, num.injEq] at h
      rw [← h]
      rfl
    | inf => cases h
  | MINIMUM =>
    unfold Acumulado at h ⊢
    rw [min?_append_replicate]
    cases hks : ks.min? with
    | none =>
      rw [hks] at h
      cases val with
      | nan => rfl
      | negInf => cases h
      | num p => cases h
      | inf => rfl
    | some k =>
      rw [hks] at h
      cases val with
      | nan => cases h
      | negInf => cases h
      | num p =>
        cases h
        exact congrArg (ifnan · inf) (if_lt_eq_min k q)
      | inf => cases h
  | MAXIMUM =>
    unfold Acumulado at h ⊢
    rw [max?_append_replicate]
    cases hks : ks.max? with
    | none =>
      rw [hks] at h
      cases val with
      | nan => rfl
      | negInf => rfl
      | num p => cases h
      | inf => cases h
    | some k =>
      rw [hks] at h
      cases val with
      | nan => cases h
      | negInf => cases h
      | num p =>
        cases h
        exact congrArg (ifnan · negInf) (if_lt_eq_max k q)
      | inf => cases h
  | LAST => trivial

theorem acumulado_initialize_carry_over (cf : CF) (v : Option ℚ) (e offset m : ℕ) :
    Acumulado cf (initialize_carry_over (ofOption v) cf e offset m)
      (List.replicate ((e - offset) % m) v).reduceOption := by
  unfold initialize_carry_over
  dsimp only
  generalize (e - offset) % m = n
  cases v with
  | none =>
    have hnan : n = 0 ∨ (ofOption none).isnan := Or.inr rfl
    rw [List.reduceOption_replicate_none, if_pos hnan]
    cases cf <;> trivial
  | some q =>
    rw [reduceOption_replicate_some]
    cases n with
    | zero =>
      rw [if_pos (Or.inl rfl)]
      cases cf <;> trivial
    | succ n =>
      have hnew (h : Acumulado cf nan []) := h.calculate_cdp_val q n
      rw [if_neg (by simp)]
      cases cf with
      | AVERAGE => exact hnew rfl
      | MINIMUM => exact hnew rfl
      | MAXIMUM => exact hnew rfl
      | LAST => trivial

theorem Acumulado.initialize_cdp_val {d : Rra_def} {scratch : Cdp_prep} {pend : List (Option ℚ)}
    (h : Acumulado d.cf_nam scratch.CDP_val pend.reduceOption) (v : Option ℚ) {n : ℕ}
    (hlen : pend.length + (n + 1) = d.pdp_cnt)
    (hunkn : scratch.CDP_unkn_pdp_cnt = (pend ++ List.replicate (n + 1) v).count none)
    (hxff : ¬ (scratch.CDP_unkn_pdp_cnt : ℚ) > d.pdp_cnt * d.cdp_xff_val) :
    initialize_cdp_val d.cf_nam (ofOption v) (n + 1) d.pdp_cnt scratch =
      ofOption (consolida d (pend ++ List.replicate (n + 1) v)) := by
  have hcount := count_none_add_length (pend ++ List.replicate (n + 1) v)
  rw [List.length_append, List.length_replicate, hlen, ← hunkn] at hcount
  have hpos : scratch.CDP_unkn_pdp_cnt < d.pdp_cnt := by
    have hm : (0 : ℚ) < d.pdp_cnt := by exact_mod_cast d.pdp_cnt_pos
    have hlt := mul_lt_mul_of_pos_left d.xff_lt hm
    rw [mul_one] at hlt
    exact_mod_cast (not_lt.1 hxff).trans_lt hlt
  have hne : (pend ++ List.replicate (n + 1) v).reduceOption ≠ [] := by
    apply List.ne_nil_of_length_pos
    omega
  rw [hunkn] at hxff
  rw [consolida, if_neg hxff]
  unfold Acumulado at h
  unfold Consolidation.initialize_cdp_val
  rw [List.reduceOption_append] at hne hcount ⊢
  cases hcf : d.cf_nam with
  | AVERAGE =>
    rw [hcf] at h
    dsimp only at h ⊢
    have hden : ((d.pdp_cnt - scratch.CDP_unkn_pdp_cnt : ℤ) : ℚ) =
        (pend.reduceOption ++ (List.replicate (n + 1) v).reduceOption).length := by
      have hint : (d.pdp_cnt - scratch.CDP_unkn_pdp_cnt : ℤ) =
          (pend.reduceOption ++ (List.replicate (n + 1) v).reduceOption).length := by omega
      rw [hint, Int.cast_natCast]
    have hlen : ((pend.reduceOption ++ (List.replicate (n + 1) v).reduceOption).length : ℚ) ≠
        0 := by
      rw [Nat.cast_ne_zero, Ne, List.length_eq_zero_iff]
      exact hne
    rw [hden, h]
    cases v with
    | none =>
      rw [ofOption_none, nan_ifnan, num_mul, zero_mul, num_add, add_zero, num_div hlen,
        List.reduceOption_replicate_none, List.append_nil]
      rfl
    | some q =>
      rw [ofOption_some, num_ifnan, num_mul, num_add, num_div hlen, reduceOption_replicate_some,
        List.sum_append, List.sum_replicate, nsmul_eq_mul, mul_comm q]
      rfl
  | MINIMUM =>
    rw [hcf] at h
    dsimp only at h ⊢
    rw [h]
    cases v with
    | none =>
      rw [List.reduceOption_replicate_none, List.append_nil] at hne ⊢
      obtain ⟨k, hk⟩ := Option.isSome_iff_exists.1 (List.isSome_min?_of_ne_nil hne)
      rw [hk]
      rfl
    | some q =>
      rw [reduceOption_replicate_some, min?_append_replicate]
      cases pend.reduceOption.min? with
      | none => rfl
      | some k => exact if_lt_eq_min k q
  | MAXIMUM =>
    rw [hcf] at h
    dsimp only at h ⊢
    rw [h]
    cases v with
    | none =>
      rw [List.reduceOption_replicate_none, List.append_nil] at hne ⊢
      obtain ⟨k, hk⟩ := Option.isSome_iff_exists.1 (List.isSome_max?_of_ne_nil hne)
      rw [hk]
      rfl
    | some q =>
      rw [reduceOption_replicate_some, max?_append_replicate]
      cases pend.reduceOption.max? with
      | none => rfl
      | some k => exact if_lt_eq_max k q
  | LAST =>
    dsimp only
    rw [List.replicate_succ', ← List.append_assoc, List.getLast?_concat]
    rfl

end Accumulation

section Steps

variable {d : Rra_def} {scratch : Cdp_prep} {pend : List (Option ℚ)}

theorem Inv.update_cdp_inside (h : Inv d pend scratch) (v : Option ℚ) {n offset : ℕ}
    (hlt : pend.length + (n + 1) < d.pdp_cnt) :
    Inv d (pend ++ List.replicate (n + 1) v)
      (update_cdp d (ofOption v) 0 (n + 1) offset scratch) := by
  have hlen : (pend ++ List.replicate (n + 1) v).length < d.pdp_cnt := by
    rwa [List.length_append, List.length_replicate]
  have hupdate : update_cdp d (ofOption v) 0 (n + 1) offset scratch =
      if (ofOption v).isnan then
        { scratch with CDP_unkn_pdp_cnt := scratch.CDP_unkn_pdp_cnt + (n + 1) }
      else
        { scratch with
          CDP_val := calculate_cdp_val scratch.CDP_val (ofOption v) (n + 1) d.cf_nam } := rfl
  rw [hupdate]
  cases v with
  | none =>
    refine ⟨hlen, ?_, ?_⟩
    · rw [List.count_append, List.count_replicate_self, ← h.unkn]
      rfl
    · rw [List.reduceOption_append, List.reduceOption_replicate_none, List.append_nil]
      exact h.val
  | some q =>
    refine ⟨hlen, ?_, ?_⟩
    · rw [List.count_append, count_none_replicate_some, Nat.add_zero]
      exact h.unkn
    · rw [List.reduceOption_append, reduceOption_replicate_some]
      exact h.val.calculate_cdp_val q n

/-- The steps of an update fill the block: its row, the rows of the blocks that are whole
in the update, and what is left for the next. -/
theorem Inv.update_cdp_full (h : Inv d pend scratch) (v : Option ℚ) {e n k : ℕ}
    (hlen : pend.length + (n + 1) = d.pdp_cnt) :
    Inv d (List.replicate ((e - (n + 1)) % d.pdp_cnt) v)
      (update_cdp d (ofOption v) (k + 1) e (n + 1) scratch) ∧ escritas (k + 1)
        (update_cdp d (ofOption v) (k + 1) e (n + 1) scratch) = ofOption
          (consolida d (pend ++ List.replicate (n + 1) v)) :: List.replicate k (ofOption v) := by
  have hunkn : (if (ofOption v).isnan then scratch.CDP_unkn_pdp_cnt +
    (n + 1) else scratch.CDP_unkn_pdp_cnt) =
      (pend ++ List.replicate (n + 1) v).count none := by
    rw [List.count_append, h.unkn]
    cases v with
    | none =>
      rw [List.count_replicate_self]
      rfl
    | some q =>
      rw [count_none_replicate_some]
      rfl
  have hsecondary : (if (ofOption v).isnan then nan else ofOption v) = ofOption v := by
    cases v <;> rfl
  have hupdate : update_cdp d (ofOption v) (k + 1) e (n + 1) scratch =
      { CDP_secondary_val := ofOption v
        CDP_primary_val := ofOption (consolida d (pend ++ List.replicate (n + 1) v))
        CDP_val := initialize_carry_over (ofOption v) d.cf_nam e (n + 1) d.pdp_cnt
        CDP_unkn_pdp_cnt := if (ofOption v).isnan then (e - (n + 1)) % d.pdp_cnt else 0 } := by
    rw [update_cdp, if_pos (Nat.succ_ne_zero k), hunkn, hsecondary]
    dsimp only
    congr 1
    split_ifs with hxff
    · rw [consolida, if_pos hxff]
      rfl
    · refine Acumulado.initialize_cdp_val ?_ v hlen rfl hxff
      exact h.val
  rw [hupdate]
  refine ⟨⟨?_, ?_, ?_⟩, rfl⟩
  · rw [List.length_replicate]
    exact Nat.mod_lt _ d.pdp_cnt_pos
  · cases v with
    | none =>
      rw [List.count_replicate_self]
      rfl
    | some q =>
      rw [count_none_replicate_some]
      rfl
  · exact acumulado_initialize_carry_over _ _ _ _ _

theorem consolida_replicate (d : Rra_def) (v : Option ℚ) :
    consolida d (List.replicate d.pdp_cnt v) = v := by
  have hm : (0 : ℚ) < d.pdp_cnt := by exact_mod_cast d.pdp_cnt_pos
  obtain ⟨n, hn⟩ := Nat.exists_eq_succ_of_ne_zero d.pdp_cnt_pos.ne'
  unfold consolida
  cases v with
  | none =>
    have hxff : (d.pdp_cnt : ℚ) > d.pdp_cnt * d.cdp_xff_val := by
      have hlt := mul_lt_mul_of_pos_left d.xff_lt hm
      rwa [mul_one] at hlt
    rw [List.count_replicate_self, if_pos hxff]
  | some q =>
    have hxff : ¬ ((0 : ℕ) : ℚ) > d.pdp_cnt * d.cdp_xff_val := by
      rw [Nat.cast_zero]
      exact not_lt.2 (mul_nonneg hm.le d.xff_nonneg)
    rw [count_none_replicate_some, if_neg hxff, reduceOption_replicate_some]
    cases d.cf_nam with
    | AVERAGE =>
      dsimp only
      rw [List.sum_replicate, List.length_replicate, nsmul_eq_mul, mul_div_cancel_left₀ _ hm.ne']
    | MINIMUM =>
      rw [hn]
      exact min?_append_replicate [] q n
    | MAXIMUM =>
      rw [hn]
      exact max?_append_replicate [] q n
    | LAST =>
      dsimp only
      rw [hn, List.replicate_succ', List.getLast?_concat]
      rfl

theorem escritas_replicate {scratch : Cdp_prep} {x : Double} (hp : scratch.CDP_primary_val = x)
    (hs : scratch.CDP_secondary_val = x) (n : ℕ) : escritas n scratch = List.replicate n x := by
  rw [escritas, hp, hs, Archives.escritas_self]

theorem Inv.update_rra_one (h : Inv d [] scratch) (hone : d.pdp_cnt = 1) (v : Option ℚ)
    (e proc : ℕ) :
    Inv d [] (update_rra d (ofOption v) e proc scratch) ∧
      escritas e (update_rra d (ofOption v) e proc scratch) = List.replicate e (ofOption v) := by
  have hgt : ¬ d.pdp_cnt > 1 := by omega
  have hupdate : update_rra d (ofOption v) e proc scratch = update_aberrant_cdps d (ofOption v) e
      (if e > 2 then reset_cdp (ofOption v) scratch else scratch) := by
    rw [update_rra, update_cdp_prep, if_neg hgt]
  rw [hupdate]
  unfold update_aberrant_cdps
  rw [if_pos hone]
  obtain rfl | rfl | rfl | ⟨e, rfl⟩ : e = 0 ∨ e = 1 ∨ e = 2 ∨ ∃ n, e = n + 3 := by
    rcases Nat.lt_or_ge e 3 with hlt | hge
    · omega
    · exact Or.inr (Or.inr (Or.inr (Nat.exists_eq_add_of_le' hge)))
  · exact ⟨⟨h.lt, h.unkn, h.val⟩, rfl⟩
  · rw [if_neg (by omega)]
    exact ⟨⟨h.lt, h.unkn, h.val⟩, rfl⟩
  · rw [if_neg (by omega)]
    exact ⟨⟨h.lt, h.unkn, h.val⟩, rfl⟩
  · rw [if_pos (by omega)]
    exact ⟨⟨h.lt, h.unkn, h.val⟩, escritas_replicate rfl rfl _⟩

/-- One update of an archive: it writes the row of each block that gets full, and keeps
the rest. -/
theorem Inv.update_rra (h : Inv d pend scratch) (v : Option ℚ) {e proc : ℕ} (he : 0 < e)
    (hproc : proc % d.pdp_cnt = pend.length) :
    Inv d (rest d.pdp_cnt (pend ++ List.replicate e v)) (update_rra d (ofOption v) e proc scratch) ∧
      escritas (rra_step_cnt d e (start_pdp_offset d proc))
      (update_rra d (ofOption v) e proc scratch) =
        (blocks d.pdp_cnt (pend ++ List.replicate e v)).map fun b ↦ ofOption (consolida d b) := by
  have hlt := h.lt
  rcases Nat.eq_or_lt_of_le d.pdp_cnt_pos with hone | hgt
  · have hm : d.pdp_cnt = 1 := by omega
    obtain rfl : pend = [] := by
      apply List.eq_nil_of_length_eq_zero
      omega
    have hoffset : start_pdp_offset d proc = 1 := by
      rw [start_pdp_offset, hproc, hm]
      rfl
    have hcnt : rra_step_cnt d e 1 = e := by
      have hle : 1 ≤ e := he
      rw [rra_step_cnt, if_pos hle, hm, Nat.div_one, Nat.sub_add_cancel hle]
    obtain ⟨hinv, hrows⟩ := h.update_rra_one hm v e proc
    have hself := consolida_replicate d v
    rw [hm] at hself
    rw [List.nil_append, rest_replicate, blocks_replicate, hoffset, hcnt, hrows, hm, Nat.mod_one,
      Nat.div_one, List.map_replicate, hself]
    exact ⟨hinv, rfl⟩
  · have hupdate : Consolidation.update_rra d (ofOption v) e proc scratch =
        update_cdp d (ofOption v) (rra_step_cnt d e (start_pdp_offset d proc)) e
          (start_pdp_offset d proc) scratch := by
      have hne : d.pdp_cnt ≠ 1 := by omega
      unfold Consolidation.update_rra update_aberrant_cdps update_cdp_prep
      rw [if_neg hne, if_pos hgt]
    obtain ⟨n, hn⟩ : ∃ n, start_pdp_offset d proc = n + 1 := by
      refine ⟨d.pdp_cnt - pend.length - 1, ?_⟩
      rw [start_pdp_offset, hproc]
      omega
    have hlen : pend.length + (n + 1) = d.pdp_cnt := by
      rw [← hn, start_pdp_offset, hproc]
      omega
    rw [hupdate, hn, rra_step_cnt]
    split_ifs with hle
    · obtain ⟨hinv, hrows⟩ := h.update_cdp_full v (e := e) (k := (e - (n + 1)) / d.pdp_cnt) hlen
      have hsplit : pend ++ List.replicate e v =
          (pend ++ List.replicate (n + 1) v) ++ List.replicate (e - (n + 1)) v := by
        rw [List.append_assoc, ← List.replicate_add, Nat.add_sub_cancel' hle]
      have hfirst : (pend ++ List.replicate (n + 1) v).length = d.pdp_cnt := by
        rw [List.length_append, List.length_replicate, hlen]
      have hone : (pend ++ List.replicate (n + 1) v).length =
        1 * d.pdp_cnt := by rw [hfirst, Nat.one_mul]
      rw [hsplit, rest_append_of_length d.pdp_cnt_pos hone, rest_replicate,
        blocks_cons d.pdp_cnt_pos hfirst, blocks_replicate, List.map_cons, List.map_replicate,
        consolida_replicate]
      exact ⟨hinv, hrows⟩
    · obtain ⟨e, rfl⟩ := Nat.exists_eq_succ_of_ne_zero he.ne'
      have hin : pend.length + (e + 1) < d.pdp_cnt := by omega
      have hlen' : (pend ++ List.replicate (e + 1) v).length < d.pdp_cnt := by
        rwa [List.length_append, List.length_replicate]
      rw [rest_of_length_lt hlen', blocks_of_length_lt hlen']
      exact ⟨h.update_cdp_inside v hin, rfl⟩

end Steps

end ServiciosRed.Consolidation
