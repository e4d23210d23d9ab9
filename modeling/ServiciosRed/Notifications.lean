import ServiciosRed.Fails

namespace ServiciosRed.Notifications

open Text Php Python Hosts Fails

section Lists

variable {α : Type} {p : α → Bool} {l : List α} {x : α} {o : Option α}

/-- After every element comes the last one of the kind so far, if there is one. -/
def repetidos (p : α → Bool) : List α → Option α → List α
  | [], _ => []
  | x :: xs, o =>
    let o := if p x then some x else o
    o.toList ++ repetidos p xs o

theorem repetidos_of_pos (hx : p x) : repetidos p (x :: l) o = x :: repetidos p l (some x) := by
  simp [repetidos, hx]

theorem repetidos_of_neg (hx : ¬ p x) : repetidos p (x :: l) o = o.toList ++ repetidos p l o := by
  simp [repetidos, hx]

theorem mem_repetidos (h : x ∈ repetidos p l o) : x ∈ o ∨ x ∈ l ∧ p x := by
  induction l generalizing o with
  | nil => cases h
  | cons y l ih =>
    by_cases hy : p y
    · rw [repetidos_of_pos hy, List.mem_cons] at h
      rcases h with rfl | h
      · exact Or.inr ⟨List.mem_cons_self, hy⟩
      · rcases ih h with he | ⟨hx, hp⟩
        · cases he
          exact Or.inr ⟨List.mem_cons_self, hy⟩
        · exact Or.inr ⟨List.mem_cons_of_mem y hx, hp⟩
    · rw [repetidos_of_neg hy, List.mem_append] at h
      rcases h with h | h
      · exact Or.inl (Option.mem_toList.1 h)
      · rcases ih h with he | ⟨hx, hp⟩
        · exact Or.inl he
        · exact Or.inr ⟨List.mem_cons_of_mem y hx, hp⟩

def AlFinal (p : α → Bool) (l : List α) : Prop := l.Pairwise fun x y ↦ p x → p y

theorem alFinal_cons_of_pos (hx : p x) : AlFinal p (x :: l) ↔ ∀ y ∈ l, p y := by
  rw [AlFinal, List.pairwise_cons]
  constructor
  · intro h y hy
    exact h.1 y hy hx
  · intro h
    refine ⟨fun y hy _ ↦ h y hy, List.pairwise_of_forall_mem_list ?_⟩
    intro y _ z hz _
    exact h z hz

theorem alFinal_cons_of_neg (hx : ¬ p x) : AlFinal p (x :: l) ↔ AlFinal p l := by
  rw [AlFinal, List.pairwise_cons, AlFinal]
  exact and_iff_right fun y _ h ↦ absurd h hx

theorem forall_iff_takeWhile :
    (∀ y ∈ l, p y) ↔ (l.takeWhile fun y ↦ !p y).length = 0 ∧ AlFinal p l := by
  cases l with
  | nil => simp [AlFinal]
  | cons y l =>
    by_cases hy : p y
    · rw [alFinal_cons_of_pos hy, List.forall_mem_cons]
      simp [hy]
    · simp [hy]

variable [BEq α] [LawfulBEq α]

theorem count_repetidos_some (hx : x ∉ l) :
    (repetidos p l (some x)).count x = (l.takeWhile fun y ↦ !p y).length := by
  induction l with
  | nil => rfl
  | cons y l ih =>
    rw [List.mem_cons, not_or] at hx
    obtain ⟨hne, hl⟩ := hx
    by_cases hy : p y
    · have hnot : x ∉ repetidos p l (some y) := by
        intro hmem
        rcases mem_repetidos hmem with he | ⟨he, -⟩
        · cases he
          exact hne rfl
        · exact hl he
      rw [repetidos_of_pos hy, List.count_cons_of_ne (Ne.symm hne),
        List.takeWhile_cons_of_neg (by simp [hy]), List.length_nil, List.count_eq_zero.2 hnot]
    · rw [repetidos_of_neg hy, List.takeWhile_cons_of_pos (by simp [hy]), List.length_cons, ← ih hl]
      exact List.count_cons_self

theorem count_repetidos_iff (hnodup : l.Nodup) (ho : ∀ x ∈ o, x ∉ l) :
    (∀ x ∈ l, p x → (repetidos p l o).count x = 1) ↔ AlFinal p l := by
  induction l generalizing o with
  | nil => simp [AlFinal]
  | cons y l ih =>
    obtain ⟨hy, hnodup⟩ := List.nodup_cons.1 hnodup
    have hne : ∀ x ∈ l, y ≠ x := by
      rintro x hx rfl
      exact hy hx
    by_cases hp : p y
    · have hrest := ih (o := some y) hnodup (fun x hx ↦ by cases hx; exact hy)
      rw [alFinal_cons_of_pos hp, forall_iff_takeWhile, ← hrest, List.forall_mem_cons,
        repetidos_of_pos hp, List.count_cons_self, count_repetidos_some hy]
      refine and_congr ⟨fun h ↦ by have := h hp; omega, fun h _ ↦ by omega⟩ ?_
      refine forall₂_congr (fun x hx ↦ ?_)
      rw [List.count_cons_of_ne (hne x hx)]
    · have hrest := ih (o := o) hnodup (fun x hx hmem ↦ ho x hx (List.mem_cons_of_mem y hmem))
      rw [alFinal_cons_of_neg hp, ← hrest, List.forall_mem_cons, repetidos_of_neg hp]
      refine Iff.trans (and_iff_right fun h ↦ absurd h hp) ?_
      refine forall₂_congr (fun x hx ↦ ?_)
      have hnot : x ∉ o.toList :=
        fun hmem ↦ ho x (Option.mem_toList.1 hmem) (List.mem_cons_of_mem y hx)
      rw [List.count_append, List.count_eq_zero.2 hnot, Nat.zero_add]

end Lists

section Messages

structure Mensaje where
  sub : Texto
  adjuntos : List Texto
  deriving DecidableEq

/-- `fname.split('.rrd')[0]` -/
def sinExtension : Texto → Texto
  | [] => []
  | c :: s => if ".rrd".toList.isPrefixOf (c :: s) then [] else c :: sinExtension s

def png_file (pngpath fname : Texto) : Texto :=
  pngpath ++ '/' :: (sinExtension fname ++ ".png".toList)

/-- The loop ends before the image is attached. Without a file there is no name to open. -/
def send_image (pngpath sub : Texto) (flist : List Texto) : Option Mensaje :=
  (flist.foldl (fun _ fname ↦ some (png_file pngpath fname)) none).map fun png ↦ ⟨sub, [png]⟩

/-- The second loop of `fails.py`. It sends both lists in every round. -/
def revisa (pngpath : Texto) (check_aberration : Texto → ℕ) :
    List Texto → List Texto → List Texto → List Mensaje
  | [], _, _ => []
  | fname :: fs, begin_ab, end_ab =>
    let ab_status := if fname ≠ "imagen".toList then check_aberration fname else 0
    let begin_ab := if ab_status = 1 then begin_ab ++ [fname] else begin_ab
    let end_ab := if ab_status = 2 then end_ab ++ [fname] else end_ab
    let nuevas := if begin_ab.length > 0 then send_image pngpath "New aberrations detected".toList
      begin_ab else none
    let pasadas :=
      if end_ab.length > 0 then send_image pngpath "Abberations".toList end_ab else none
    nuevas.toList ++ pasadas.toList ++ revisa pngpath check_aberration fs begin_ab end_ab

/-- The messages of a run. When the first loop raises nothing is sent. -/
def fails (dibuja : Dibuja) (result : List Registro) (pngpath : Texto)
    (check_aberration : Texto → ℕ) (listdir : List Texto) : List Mensaje :=
  match generaImagenes dibuja result listdir 0 with
  | .ok _ => revisa pngpath check_aberration listdir [] []
  | .error _ => []

end Messages

inductive Aviso
  | nuevas | pasadas
  deriving DecidableEq

namespace Aviso

def sub : Aviso → Texto
  | nuevas => "New aberrations detected".toList
  | pasadas => "Abberations".toList

def estado : Aviso → ℕ
  | nuevas => 1
  | pasadas => 2

def de (a : Aviso) (check_aberration : Texto → ℕ) (fname : Texto) : Bool :=
  fname ≠ "imagen".toList ∧ check_aberration fname = a.estado

end Aviso

section Directory

structure Directorio where
  listdir : List Texto
  nodup : listdir.Nodup
  rrd : ∀ f ∈ listdir, f ≠ "imagen".toList → ∃ campo, '.' ∉ campo ∧ f = campo ++ ".rrd".toList

def Directorio.archivos (d : Directorio) : List Texto := d.listdir.filter (· ≠ "imagen".toList)

/-- The messages tell of every aberration once, and of nothing else. -/
structure Notifica (pngpath : Texto) (check_aberration : Texto → ℕ) (d : Directorio)
    (mensajes : List Mensaje) :
    Prop where
  una_vez : ∀ (a : Aviso), ∀ f ∈ d.archivos, check_aberration f = a.estado →
    mensajes.countP (fun m ↦ m.sub = a.sub ∧ png_file pngpath f ∈ m.adjuntos) = 1
  nada_mas : ∀ m ∈ mensajes, ∀ png ∈ m.adjuntos, ∃ (a : Aviso), ∃ f ∈ d.archivos,
    m.sub = a.sub ∧ check_aberration f = a.estado ∧ png = png_file pngpath f
  sin_archivo : ∀ (a : Aviso), (∀ f ∈ d.archivos, check_aberration f ≠ a.estado) →
    ∀ m ∈ mensajes, m.sub ≠ a.sub

def Adjunta (pngpath sub : Texto) (flist : List Texto) : Prop :=
  flist ≠ [] → ∃ m, send_image pngpath sub flist = some m ∧
    m.adjuntos.Perm (flist.map (png_file pngpath))

theorem sinExtension_append {campo : Texto} (h : '.' ∉ campo) :
    sinExtension (campo ++ ".rrd".toList) = campo := by
  induction campo with
  | nil => rfl
  | cons c campo ih =>
    rw [List.mem_cons, not_or] at h
    have hc : ".rrd".toList.isPrefixOf (c :: (campo ++ ".rrd".toList)) = false := by
      change (decide ('.' = c) && _) = false
      simp [h.1]
    rw [List.cons_append, sinExtension, hc, ih h.2]
    rfl

namespace Directorio

variable {d : Directorio} {f g : Texto}

theorem mem_archivos : f ∈ d.archivos ↔ f ∈ d.listdir ∧ f ≠ "imagen".toList := by
  rw [archivos, List.mem_filter, decide_eq_true_eq]

theorem de_iff {a : Aviso} {ab : Texto → ℕ} (hf : f ∈ d.archivos) :
    a.de ab f ↔ ab f = a.estado := by
  rw [Aviso.de, decide_eq_true_eq]
  exact and_iff_right (mem_archivos.1 hf).2

theorem mem_archivos_of_de {a : Aviso} {ab : Texto → ℕ} (hf : f ∈ d.listdir) (h : a.de ab f) :
    f ∈ d.archivos := by
  simp only [Aviso.de, decide_eq_true_eq] at h
  exact mem_archivos.2 ⟨hf, h.1⟩

theorem png_file_inj {pngpath : Texto} (hf : f ∈ d.archivos) (hg : g ∈ d.archivos) :
    png_file pngpath f = png_file pngpath g ↔ f = g := by
  constructor
  · intro h
    obtain ⟨hf, hne⟩ := mem_archivos.1 hf
    obtain ⟨hg, hne'⟩ := mem_archivos.1 hg
    obtain ⟨campo, hcampo, rfl⟩ := d.rrd f hf hne
    obtain ⟨campo', hcampo', rfl⟩ := d.rrd g hg hne'
    rw [png_file, png_file, sinExtension_append hcampo, sinExtension_append hcampo',
      List.append_cancel_left_eq, List.cons.injEq, List.append_cancel_right_eq] at h
    rw [h.2]
  · rintro rfl
    rfl

end Directorio

end Directory

section Sending

variable {pngpath sub : Texto} {ab : Texto → ℕ} {d : Directorio}

/-- The message carries the image of the last file. -/
theorem send_image_concat (flist : List Texto) (fname : Texto) :
    send_image pngpath sub (flist ++ [fname]) = some ⟨sub, [png_file pngpath fname]⟩ := by
  rw [send_image, List.foldl_append]
  rfl

theorem adjunta_iff (flist : List Texto) : Adjunta pngpath sub flist ↔ flist.length ≤ 1 := by
  rcases List.eq_nil_or_concat' flist with rfl | ⟨fs, f, rfl⟩
  · exact iff_of_true (fun h ↦ absurd rfl h) (Nat.zero_le 1)
  · have hlength : (fs ++ [f]).length ≤ 1 ↔ fs = [] := by
      rw [List.length_append, List.length_singleton, ← List.length_eq_zero_iff]
      omega
    rw [hlength]
    constructor
    · intro h
      obtain ⟨m, hm, hperm⟩ := h (by simp)
      rw [send_image_concat] at hm
      cases hm
      have hcount := hperm.length_eq
      rw [List.length_map, List.length_append, List.length_singleton,
        List.length_singleton] at hcount
      rw [← List.length_eq_zero_iff]
      omega
    · rintro rfl _
      exact ⟨_, send_image_concat [] f, List.Perm.refl _⟩

def mensaje (pngpath : Texto) (a : Aviso) (fname : Texto) : Mensaje :=
  ⟨a.sub, [png_file pngpath fname]⟩

theorem manda_eq (a : Aviso) (flist : List Texto) :
    (if flist.length > 0 then send_image pngpath a.sub flist else none) =
      flist.getLast?.map (mensaje pngpath a) := by
  rcases List.eq_nil_or_concat' flist with rfl | ⟨fs, f, rfl⟩
  · rfl
  · rw [if_pos (by simp), send_image_concat, List.getLast?_concat]
    rfl

theorem getLast?_agrega (a : Aviso) (flist : List Texto) (fname : Texto) :
    (if (if fname ≠ "imagen".toList then ab fname else 0) = a.estado then flist ++
      [fname] else flist).getLast? = if a.de ab fname then some fname else flist.getLast? := by
  have hzero : 0 ≠ a.estado := by cases a <;> decide
  by_cases hname : fname = "imagen".toList
  · rw [if_neg (not_not.2 hname), if_neg hzero, if_neg (by simp [Aviso.de, hname])]
  · rw [if_pos hname]
    by_cases hab : ab fname = a.estado
    · have hde : a.de ab fname = true := decide_eq_true ⟨hname, hab⟩
      rw [if_pos hab, if_pos hde, List.getLast?_concat]
    · rw [if_neg hab, if_neg (by simp [Aviso.de, hab])]

theorem revisa_cons (pngpath : Texto) (ab : Texto → ℕ) (fname : Texto)
    (fs begin_ab end_ab : List Texto) :
    ∃ b e : List Texto, b.getLast? =
      (if Aviso.nuevas.de ab fname then some fname else begin_ab.getLast?) ∧
      e.getLast? = (if Aviso.pasadas.de ab fname then some fname else end_ab.getLast?) ∧
      revisa pngpath ab (fname :: fs) begin_ab end_ab =
        (b.getLast?.map (mensaje pngpath .nuevas)).toList ++
          (e.getLast?.map (mensaje pngpath .pasadas)).toList ++ revisa pngpath ab fs b e := by
  refine ⟨_, _, getLast?_agrega .nuevas begin_ab fname, getLast?_agrega .pasadas end_ab fname, ?_⟩
  rw [← manda_eq, ← manda_eq]
  rfl

theorem revisa_perm (listdir begin_ab end_ab : List Texto) :
    (revisa pngpath ab listdir begin_ab end_ab).Perm
      ((repetidos (Aviso.nuevas.de ab) listdir begin_ab.getLast?).map (mensaje pngpath .nuevas) ++
        (repetidos (Aviso.pasadas.de ab) listdir end_ab.getLast?).map
          (mensaje pngpath .pasadas)) := by
  induction listdir generalizing begin_ab end_ab with
  | nil => exact List.Perm.refl _
  | cons fname fs ih =>
    obtain ⟨b, e, hb, he, hround⟩ := revisa_cons pngpath ab fname fs begin_ab end_ab
    simp only [hround, repetidos, ← hb, ← he, List.map_append, ← Option.toList_map]
    refine ((ih b e).append_left _).trans ?_
    simp only [List.append_assoc]
    apply List.Perm.append_left
    rw [← List.append_assoc, ← List.append_assoc]
    exact List.perm_append_comm.append_right _

theorem mem_revisa {m : Mensaje} (h : m ∈ revisa pngpath ab d.listdir [] []) :
    ∃ (a : Aviso), ∃ f ∈ d.archivos, ab f = a.estado ∧ m = mensaje pngpath a f := by
  have hmem : ∀ a : Aviso, m ∈ (repetidos (a.de ab) d.listdir none).map (mensaje pngpath a) →
      ∃ f ∈ d.archivos, ab f = a.estado ∧ m = mensaje pngpath a f := by
    intro a hm
    obtain ⟨f, hf, rfl⟩ := List.mem_map.1 hm
    rcases mem_repetidos hf with hf | ⟨hf, hde⟩
    · cases hf
    · have hf := Directorio.mem_archivos_of_de hf hde
      exact ⟨f, hf, (Directorio.de_iff hf).1 hde, rfl⟩
  rcases List.mem_append.1 ((revisa_perm d.listdir [] []).mem_iff.1 h) with h | h
  · exact ⟨.nuevas, hmem .nuevas h⟩
  · exact ⟨.pasadas, hmem .pasadas h⟩

theorem sub_injective : Function.Injective Aviso.sub := by
  intro a b h
  cases a <;> cases b <;> first | rfl | exact absurd h (by decide)

theorem countP_mensajes (a b : Aviso) {f : Texto} (hf : f ∈ d.archivos) :
    ((repetidos (b.de ab) d.listdir none).map (mensaje pngpath b)).countP
        (fun m ↦ m.sub = a.sub ∧ png_file pngpath f ∈ m.adjuntos) =
      if b = a then (repetidos (b.de ab) d.listdir none).count f else 0 := by
  rw [List.countP_map]
  split_ifs with hba
  · obtain rfl := hba
    apply List.countP_congr
    intro x hx
    rcases mem_repetidos hx with hx | ⟨hx, hde⟩
    · cases hx
    · have hx := Directorio.mem_archivos_of_de hx hde
      rw [Function.comp_apply, decide_eq_true_eq, beq_iff_eq]
      constructor
      · rintro ⟨-, hpng⟩
        exact ((Directorio.png_file_inj hf hx).1 (List.mem_singleton.1 hpng)).symm
      · rintro rfl
        exact ⟨rfl, List.mem_singleton_self _⟩
  · rw [List.countP_eq_zero]
    intro x _ h
    simp only [Function.comp_apply, decide_eq_true_eq] at h
    exact hba (sub_injective h.1)

theorem countP_revisa (a : Aviso) {f : Texto} (hf : f ∈ d.archivos) :
    (revisa pngpath ab d.listdir [] []).countP (fun m ↦ m.sub = a.sub ∧ png_file pngpath f ∈
      m.adjuntos) = (repetidos (a.de ab) d.listdir none).count f := by
  rw [(revisa_perm d.listdir [] []).countP_eq, List.countP_append, List.getLast?_nil,
    countP_mensajes a _ hf, countP_mensajes a _ hf]
  cases a <;> simp

theorem notifica_revisa :
    Notifica pngpath ab d (revisa pngpath ab d.listdir [] []) ↔
      ∀ a : Aviso, AlFinal (a.de ab) d.listdir := by
  have honce : ∀ a : Aviso, AlFinal (a.de ab) d.listdir ↔ ∀ f ∈ d.archivos, ab f = a.estado →
      (revisa pngpath ab d.listdir [] []).countP
        (fun m ↦ m.sub = a.sub ∧ png_file pngpath f ∈ m.adjuntos) = 1 := by
    intro a
    rw [← count_repetidos_iff (o := none) d.nodup (fun _ h ↦ nomatch h)]
    constructor
    · intro h f hf hab
      rw [countP_revisa a hf]
      exact h f (Directorio.mem_archivos.1 hf).1 ((Directorio.de_iff hf).2 hab)
    · intro h f hf hde
      have hf := Directorio.mem_archivos_of_de hf hde
      have hcount := h f hf ((Directorio.de_iff hf).1 hde)
      rwa [countP_revisa a hf] at hcount
  simp only [honce]
  constructor
  · exact fun h ↦ h.una_vez
  · intro h
    refine ⟨h, ?_, ?_⟩
    · intro m hm png hpng
      obtain ⟨a, f, hf, hab, rfl⟩ := mem_revisa hm
      exact ⟨a, f, hf, rfl, hab, List.mem_singleton.1 hpng⟩
    · intro a hab m hm hsub
      obtain ⟨b, f, hf, habf, rfl⟩ := mem_revisa hm
      obtain rfl := sub_injective hsub
      exact hab f hf habf

theorem notifica_nil : Notifica pngpath ab d [] ↔ ∀ a : Aviso, ∀ f ∈ d.archivos, ab f ≠
    a.estado := by
  constructor
  · intro h a f hf hab
    have hcount := h.una_vez a f hf hab
    rw [List.countP_nil] at hcount
    cases hcount
  · intro h
    exact ⟨fun a f hf hab ↦ absurd hab (h a f hf), fun _ hm ↦ (nomatch hm),
      fun _ _ _ hm ↦ (nomatch hm)⟩

theorem notifica_revisa_of_forall (h : ∀ a : Aviso, ∀ f ∈ d.archivos, ab f ≠ a.estado) :
    Notifica pngpath ab d (revisa pngpath ab d.listdir [] []) := by
  rw [notifica_revisa]
  intro a
  apply List.pairwise_of_forall_mem_list
  intro x hx _ _ hde
  have hx := Directorio.mem_archivos_of_de hx hde
  exact absurd ((Directorio.de_iff hx).1 hde) (h a x hx)

end Sending

section Charts

variable {dibuja : Dibuja} {result : List Registro} {pngpath : Texto} {ab : Texto → ℕ}
  {d : Directorio}

theorem Directorio.ne_nil (d : Directorio) {f : Texto} (hf : f ∈ d.listdir) : f ≠ [] := by
  by_cases hname : f = "imagen".toList
  · rw [hname]
    decide
  · obtain ⟨campo, -, rfl⟩ := d.rrd f hf hname
    exact List.append_ne_nil_of_right_ne_nil campo (by decide)

/-- A run tells of every aberration once exactly when the aberrations end the list of the
directory, all of them of one kind, and the images of all files can be drawn. The message for a
list has all the images only for one file. -/
theorem notifica_iff (dibuja : Dibuja) (result : List Registro) (pngpath : Texto) (ab : Texto → ℕ)
    (d : Directorio) :
    (Notifica pngpath ab d (fails dibuja result pngpath ab d.listdir) ↔
      (∀ j < d.archivos.length, Umbral result j) ∧ (∀ a : Aviso, AlFinal (a.de ab) d.listdir) ∨
        ∀ a : Aviso, ∀ f ∈ d.archivos, ab f ≠ a.estado) ∧
    ∀ (sub : Texto) (flist : List Texto), Adjunta pngpath sub flist ↔ flist.length ≤ 1 := by
  refine ⟨?_, fun sub flist ↦ adjunta_iff flist⟩
  have hdrawn : (generaImagenes dibuja result d.listdir 0).isOk ↔
      ∀ j < d.archivos.length, Umbral result j := by
    rw [isOk_generaImagenes_iff d.listdir (fun f ↦ d.ne_nil) 0, Directorio.archivos]
    simp only [List.mem_range'_1, Nat.zero_le, Nat.zero_add, true_and]
  rw [← hdrawn, fails]
  cases generaImagenes dibuja result d.listdir 0 with
  | ok calls =>
    have hok : (Except.ok calls : Except Excepcion _).isOk := rfl
    simp only [hok, true_and]
    rw [← notifica_revisa]
    exact (or_iff_left_of_imp notifica_revisa_of_forall).symm
  | error e =>
    rw [notifica_nil]
    simp [Except.isOk, Except.toBool]

end Charts

section Ejemplo

def hosts : Directorio where
  listdir := ["cpu.rrd".toList, "imagen".toList, "ram.rrd".toList]
  nodup := by decide
  rrd f hf hname := by
    rcases List.mem_cons.1 hf with rfl | hf
    · exact ⟨"cpu".toList, by decide, rfl⟩
    · rcases List.mem_cons.1 hf with rfl | hf
      · exact absurd rfl hname
      · obtain rfl := List.mem_singleton.1 hf
        exact ⟨"ram".toList, by decide, rfl⟩

/-- An aberration of the first file is sent again for each entry that follows. -/
theorem not_notifica :
    ¬ ∀ (dibuja : Dibuja) (result : List Registro) (pngpath : Texto) (ab : Texto → ℕ)
      (d : Directorio), Notifica pngpath ab d (fails dibuja result pngpath ab d.listdir) ∧
      ∀ (sub : Texto) (flist : List Texto), Adjunta pngpath sub flist := by
  intro h
  have hrun :=
    (h (fun _ _ ↦ []) [registroPropio] [] (fun f ↦ if f = "cpu.rrd".toList then 1 else 0) hosts).1
  have hcount := hrun.una_vez .nuevas "cpu.rrd".toList (by decide) (by decide)
  revert hcount
  decide

end Ejemplo

end ServiciosRed.Notifications
