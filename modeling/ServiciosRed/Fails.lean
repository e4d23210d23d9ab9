import ServiciosRed.Hosts
import Mathlib.Data.List.Nodup

namespace ServiciosRed.Fails

open Text Php Python Hosts

/-- An entry of the directory of a host: the file of a metric or `imagen`. -/
abbrev Entrada := Option Campo

def nombre : Entrada → Texto
  | none => "imagen".toList
  | some c => c.archivo

variable {dibuja : Dibuja} {result : List Registro} {b : Baseline}
  {calls : List (Texto × Option Texto)}

section Calls

def Umbral (result : List Registro) (j : ℕ) : Prop :=
  ∃ b x, unpack result = .ok b ∧ item b.maxi j = .ok x ∧ (int x).isOk

theorem isOk_generaImagenes_iff (listdir : List Texto) (h : ∀ f ∈ listdir, f ≠ []) (i : ℕ) :
    (generaImagenes dibuja result listdir i).isOk ↔
      ∀ j ∈ List.range' i (listdir.filter (· ≠ "imagen".toList)).length, Umbral result j := by
  induction listdir generalizing i with
  | nil => exact iff_of_true rfl (fun j hj ↦ absurd hj List.not_mem_nil)
  | cons f fs ih =>
    rw [List.forall_mem_cons] at h
    by_cases hname : f = "imagen".toList
    · have hskip : (f :: fs).filter (· ≠ "imagen".toList) = fs.filter (· ≠ "imagen".toList) :=
        List.filter_cons_of_neg (fun he ↦ of_decide_eq_true he hname)
      rw [generaImagenes, if_neg (fun hf ↦ hf.2 hname), hskip, ih h.2]
    · have hkeep : (f :: fs).filter (· ≠ "imagen".toList) = f :: fs.filter (· ≠ "imagen".toList) :=
        List.filter_cons_of_pos (decide_eq_true hname)
      rw [generaImagenes, if_pos ⟨h.1, hname⟩, hkeep, List.length_cons, List.range'_succ,
        List.forall_mem_cons, ← ih h.2 (i + 1)]
      simp only [isOk_bind_iff, Umbral]
      constructor
      · rintro ⟨b, hb, x, hx, fecha, hfecha, calls, hcalls, -⟩
        exact ⟨⟨b, x, hb, hx, isOk_gen_image_iff.1 (isOk_iff_exists.2 ⟨fecha, hfecha⟩)⟩,
          isOk_iff_exists.2 ⟨calls, hcalls⟩⟩
      · rintro ⟨⟨b, x, hb, hx, hint⟩, hcalls⟩
        obtain ⟨fecha, hfecha⟩ := isOk_iff_exists.1 (isOk_gen_image_iff.2 hint)
        obtain ⟨calls, hcalls⟩ := isOk_iff_exists.1 hcalls
        exact ⟨b, hb, x, hx, fecha, hfecha, calls, hcalls, rfl⟩

theorem nombre_ne_nil (e : Entrada) : nombre e ≠ [] := by
  cases e with
  | none => decide
  | some c => cases c <;> decide

theorem archivo_ne_imagen (c : Campo) : c.archivo ≠ "imagen".toList := by
  cases c <;> decide

theorem length_filter_nombre (listing : List Entrada) :
    ((listing.map nombre).filter (· ≠ "imagen".toList)).length = listing.reduceOption.length := by
  induction listing with
  | nil => rfl
  | cons e listing ih =>
    cases e with
    | none =>
      rw [List.map_cons, List.filter_cons_of_neg (by simp [nombre]), ih,
        List.reduceOption_cons_of_none]
    | some c =>
      have hkeep : nombre (some c) ≠ "imagen".toList := archivo_ne_imagen c
      rw [List.map_cons, List.filter_cons_of_pos (by simpa using hkeep),
        List.reduceOption_cons_of_some, List.length_cons, List.length_cons, ih]

theorem length_le_of_umbral (hb : unpack result = .ok b) {n : ℕ} (h : ∀ j < n, Umbral result j) :
    n ≤ b.maxi.length := by
  by_contra hn
  obtain ⟨b', x, hb', hx, -⟩ := h b.maxi.length (Nat.not_le.1 hn)
  rw [hb, Except.ok.injEq] at hb'
  subst hb'
  exact absurd (isOk_item_iff.1 (isOk_iff_exists.2 ⟨x, hx⟩)) (lt_irrefl _)

/-- The counter gives the maxima out in the order of the baseline. -/
theorem generaImagenes_eq (hb : unpack result = .ok b) {listing : List Entrada} {i : ℕ}
    (h : generaImagenes dibuja result (listing.map nombre) i = .ok calls) :
    calls = (listing.reduceOption.map Campo.archivo).zip (b.maxi.drop i) := by
  induction listing generalizing i calls with
  | nil =>
    cases h
    rfl
  | cons e listing ih =>
    rw [List.map_cons, generaImagenes] at h
    cases e with
    | none =>
      rw [if_neg (by simp [nombre])] at h
      rw [List.reduceOption_cons_of_none]
      exact ih h
    | some c =>
      rw [if_pos ⟨nombre_ne_nil _, archivo_ne_imagen c⟩, hb] at h
      simp only [bind_eq_ok_iff, Except.ok.injEq, exists_eq_left'] at h
      obtain ⟨maximo, hitem, -, -, rest, hrest, hcalls⟩ := h
      have hlt : i < b.maxi.length := isOk_item_iff.1 (isOk_iff_exists.2 ⟨maximo, hitem⟩)
      rw [item, List.getElem?_eq_getElem hlt] at hitem
      cases hitem
      cases hcalls
      rw [List.reduceOption_cons_of_some, List.map_cons, ← List.getElem_cons_drop hlt,
        List.zip_cons_cons, ih hrest]
      rfl

theorem isOk_generaImagenes_nombre (dibuja : Dibuja) (result : List Registro)
    (listing : List Entrada) :
    (generaImagenes dibuja result (listing.map nombre) 0).isOk ↔
      ∀ j < listing.reduceOption.length, Umbral result j := by
  have hnames : ∀ f ∈ listing.map nombre, f ≠ [] :=
    List.forall_mem_map.2 (fun e _ ↦ nombre_ne_nil e)
  rw [isOk_generaImagenes_iff _ hnames, length_filter_nombre]
  simp only [List.mem_range'_1, Nat.zero_le, Nat.zero_add, true_and]

end Calls

/-- `maxi[k]` where `campos[k]` is the metric. -/
def maximo (b : Baseline) (c : Campo) : Option Texto := (b.maxi[campos.idxOf c]?).getD none

/-- `fails.py` calls `gen_image` for the files of the directory, each with the maximum of its
own metric. -/
def Empareja (dibuja : Dibuja) (result : List Registro) (listing : List Entrada) : Prop :=
  ∃ calls, generaImagenes dibuja result (listing.map nombre) 0 = .ok calls ∧
    ∀ b, unpack result = .ok b → calls = listing.reduceOption.map fun c ↦ (c.archivo, maximo b c)

section Pairs

variable {α β γ : Type} {as : List α} {bs : List γ} {f : α → β} {g : α → γ}

theorem zip_eq_of_prefix (h : as.map g <+: bs) : (as.map f).zip bs = as.map fun a ↦ (f a, g a) := by
  obtain ⟨rest, rfl⟩ := h
  induction as with
  | nil => rfl
  | cons a as ih =>
    rw [List.map_cons, List.map_cons, List.cons_append, List.zip_cons_cons, ih, List.map_cons]

theorem prefix_of_zip_eq (hlength : as.length ≤ bs.length)
    (h : (as.map f).zip bs = as.map fun a ↦ (f a, g a)) :
    as.map g <+: bs := by
  induction as generalizing bs with
  | nil => exact List.nil_prefix
  | cons a as ih =>
    cases bs with
    | nil => cases hlength
    | cons b bs =>
      simp only [List.map_cons, List.zip_cons_cons, List.cons.injEq, Prod.mk.injEq, true_and] at h
      rw [List.map_cons, List.cons_prefix_cons]
      exact ⟨h.1.symm, ih (Nat.le_of_succ_le_succ hlength) h.2⟩

end Pairs

section Baselines

theorem exists_getbaseline (h : unpack result = .ok b) : getbaseline result = .ok (some b) := by
  obtain ⟨o, ho, hb⟩ := bind_eq_ok_iff.1 h
  cases o with
  | none => cases hb
  | some b' =>
    cases hb
    exact ho

theorem length_maxi (h : unpack result = .ok b) : b.maxi.length = campos.length := by
  have hb := exists_getbaseline h
  cases result with
  | nil => cases hb
  | cons registro result =>
    simp only [getbaseline, bind_eq_ok_iff] at hb
    obtain ⟨_, -, _, -, _, -, _, -, _, -, _, -, _, -, _, -, _, -, _, -, _, -, hb⟩ := hb
    cases hb
    rfl

theorem maxi_eq (h : unpack result = .ok b) : b.maxi = campos.map (maximo b) := by
  have hlength := length_maxi h
  apply List.ext_getElem
  · rw [hlength, List.length_map]
  · intro k hk hk'
    have hlt : k < campos.length := hlength ▸ hk
    have hidx : campos.idxOf campos[k] = k := campos_nodup.idxOf_getElem k hlt
    rw [List.getElem_map, maximo, hidx, List.getElem?_eq_getElem hk, Option.getD_some]

theorem map_maximo_prefix_iff (h : unpack result = .ok b) (hdistintos : b.maxi.Nodup)
    {cs : List Campo} :
    cs.map (maximo b) <+: b.maxi ↔ cs <+: campos := by
  have hinjective : Function.Injective (maximo b) := by
    rw [maxi_eq h] at hdistintos
    intro c d hcd
    exact List.inj_on_of_nodup_map hdistintos (mem_campos c) (mem_campos d) hcd
  rw [maxi_eq h]
  exact List.prefix_map_iff_of_injective hinjective

end Baselines

/-- The maxima go to their own files exactly when there is a whole number for every file, and
the maxima of the files, in the order of the listing, start those of the baseline. Where the
maxima differ the files start the list of the metrics. -/
theorem empareja_iff (dibuja : Dibuja) (result : List Registro) (listing : List Entrada) :
    (Empareja dibuja result listing ↔
      (∀ j < listing.reduceOption.length, Umbral result j) ∧
        ∀ b, unpack result = .ok b → listing.reduceOption.map (maximo b) <+: b.maxi) ∧
    ∀ b, unpack result = .ok b → b.maxi.Nodup →
      (listing.reduceOption.map (maximo b) <+: b.maxi ↔ listing.reduceOption <+: campos) := by
  refine ⟨?_, fun b hb hdistintos ↦ map_maximo_prefix_iff hb hdistintos⟩
  constructor
  · rintro ⟨calls, hcalls, hown⟩
    have humbral :=
      (isOk_generaImagenes_nombre dibuja result listing).1 (isOk_iff_exists.2 ⟨calls, hcalls⟩)
    refine ⟨humbral, fun b hb ↦ ?_⟩
    have hrun := generaImagenes_eq hb hcalls
    rw [List.drop_zero, hown b hb] at hrun
    exact prefix_of_zip_eq (length_le_of_umbral hb humbral) hrun.symm
  · rintro ⟨humbral, hprimeros⟩
    obtain ⟨calls, hcalls⟩ :=
      isOk_iff_exists.1 ((isOk_generaImagenes_nombre dibuja result listing).2 humbral)
    refine ⟨calls, hcalls, fun b hb ↦ ?_⟩
    rw [generaImagenes_eq hb hcalls, List.drop_zero]
    exact zip_eq_of_prefix (hprimeros b hb)

section Ejemplo

def propio (c : Campo) : Option Texto := some (intText (campos.idxOf c))

def registroPropio : Registro :=
  [none, none, none, none, none, none, none, none, propio .cpu, none, none, propio .ram, none, none,
    propio .hdd, none, none, propio .temp, none, none, propio .volt, none, propio .ping]

def baselinePropia : Baseline := ⟨campos.map propio, [none, none, none, none, none, propio .ping]⟩

theorem unpack_propio : unpack [registroPropio] = .ok baselinePropia := rfl

/-- `ram.rrd` before `cpu.rrd` gets the maximum of the processor. -/
theorem empareja_not_permuted : baselinePropia.maxi.Nodup ∧
    ¬ ∀ (dibuja : Dibuja) (listing : List Entrada), listing.reduceOption.Nodup →
      Empareja dibuja [registroPropio] listing := by
  refine ⟨by decide, fun h ↦ ?_⟩
  obtain ⟨calls, hcalls, hown⟩ := h (fun _ _ ↦ []) [some .ram, none, some .cpu] (by decide)
  have hrun := generaImagenes_eq unpack_propio hcalls
  rw [hown baselinePropia unpack_propio] at hrun
  revert hrun
  decide

end Ejemplo

end ServiciosRed.Fails
