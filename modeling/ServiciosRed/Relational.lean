import Mathlib.Data.Finset.Image

set_option linter.unusedSectionVars false

namespace ServiciosRed.Relational

variable {ρ κ : Type} [DecidableEq ρ] [DecidableEq κ] {key : ρ → κ}

/-- A table under a primary key: finitely many rows, no two of them with one
key. Every operation below keeps the key unique by construction. -/
@[ext]
structure Table (key : ρ → κ) where
  rows : Finset ρ
  unique : ∀ r ∈ rows, ∀ s ∈ rows, key r = key s → r = s

instance : Membership ρ (Table key) := ⟨fun T r ↦ r ∈ T.rows⟩

instance : DecidableEq (Table key) := fun T U ↦
  decidable_of_iff (T.rows = U.rows) Table.ext_iff.symm

instance (T : Table key) (r : ρ) : Decidable (r ∈ T) := inferInstanceAs (Decidable (r ∈ T.rows))

abbrev Update (key : ρ → κ) := {f : ρ → ρ // ∀ r, key (f r) = key r}

namespace Table

def empty : Table key := ⟨∅, by simp⟩

def single (x : ρ) : Table key :=
  ⟨{x}, fun _ hr _ hs _ ↦ (Finset.mem_singleton.mp hr).trans (Finset.mem_singleton.mp hs).symm⟩

def Has (T : Table key) (k : κ) : Prop := ∃ r ∈ T.rows, key r = k

instance (T : Table key) (k : κ) : Decidable (T.Has k) :=
  inferInstanceAs (Decidable (∃ r ∈ T.rows, key r = k))

/-- DELETE FROM T WHERE p, for a condition on the key columns. -/
def deleteWhere (T : Table key) (p : κ → Prop) [DecidablePred p] : Table key where
  rows := T.rows.filter (fun r ↦ ¬ p (key r))
  unique r hr s hs := T.unique r (Finset.mem_filter.mp hr).1 s (Finset.mem_filter.mp hs).1

/-- UPDATE T SET f WHERE key = k. -/
def modify (T : Table key) (k : κ) (f : Update key) : Table key where
  rows := T.rows.image (fun r ↦ if key r = k then f.1 r else r)
  unique := by
    have hkey (r : ρ) : key (if key r = k then f.1 r else r) = key r := by
      split_ifs
      · exact f.2 r
      · rfl
    intro r hr s hs h
    obtain ⟨r₀, hr₀, rfl⟩ := Finset.mem_image.mp hr
    obtain ⟨s₀, hs₀, rfl⟩ := Finset.mem_image.mp hs
    rw [hkey, hkey] at h
    rw [T.unique r₀ hr₀ s₀ hs₀ h]

/-- INSERT INTO T, refused when the key is taken. -/
def insert? (T : Table key) (x : ρ) : Option (Table key) :=
  if h : T.Has (key x) then none
  else some
    { rows := insert x T.rows
      unique := by
        intro r hr s hs he
        rw [Finset.mem_insert] at hr hs
        rcases hr with rfl | hr <;> rcases hs with rfl | hs
        · rfl
        · exact absurd ⟨s, hs, he.symm⟩ h
        · exact absurd ⟨r, hr, he⟩ h
        · exact T.unique r hr s hs he }

variable (T : Table key) (p q : κ → Prop) [DecidablePred p] [DecidablePred q] (k j : κ)
  (f g : Update key)

@[simp]
theorem not_mem_empty (r : ρ) : r ∉ (empty : Table key) := Finset.notMem_empty r

@[simp]
theorem mem_deleteWhere (r : ρ) : r ∈ T.deleteWhere p ↔ r ∈ T ∧ ¬ p (key r) := Finset.mem_filter

theorem mem_single {r x : ρ} : r ∈ (single x : Table key) ↔ r = x := Finset.mem_singleton

theorem has_of_mem {T : Table key} {r : ρ} (h : r ∈ T) : T.Has (key r) := ⟨r, h, rfl⟩

@[simp]
theorem has_deleteWhere : (T.deleteWhere p).Has k ↔ T.Has k ∧ ¬ p k := by
  constructor
  · rintro ⟨r, hr, rfl⟩
    obtain ⟨hr, hp⟩ := (mem_deleteWhere T p r).mp hr
    exact ⟨⟨r, hr, rfl⟩, hp⟩
  · rintro ⟨⟨r, hr, rfl⟩, hp⟩
    exact ⟨r, (mem_deleteWhere T p r).mpr ⟨hr, hp⟩, rfl⟩

theorem mem_modify (r : ρ) :
    r ∈ T.modify k f ↔ ∃ s ∈ T, (if key s = k then f.1 s else s) = r := Finset.mem_image

theorem mem_modify_of_mem {s : ρ} (hs : s ∈ T) (hk : key s = k) (r : ρ) :
    r ∈ T.modify k f ↔ r = f.1 s ∨ r ∈ T ∧ r ≠ s := by
  rw [mem_modify]
  constructor
  · rintro ⟨t, ht, rfl⟩
    by_cases hkey : key t = k
    · rw [if_pos hkey, T.unique t ht s hs (hkey.trans hk.symm)]
      exact Or.inl rfl
    · rw [if_neg hkey]
      refine Or.inr ⟨ht, ?_⟩
      rintro rfl
      exact hkey hk
  · rintro (rfl | ⟨hr, hne⟩)
    · exact ⟨s, hs, if_pos hk⟩
    · exact ⟨r, hr, if_neg (fun hkey ↦ hne (T.unique r hr s hs (hkey.trans hk.symm)))⟩

@[simp]
theorem has_modify : (T.modify k f).Has j ↔ T.Has j := by
  have hkey (r : ρ) : key (if key r = k then f.1 r else r) = key r := by
    split_ifs
    · exact f.2 r
    · rfl
  constructor
  · rintro ⟨r, hr, rfl⟩
    obtain ⟨s, hs, rfl⟩ := (mem_modify T k f r).mp hr
    exact ⟨s, hs, (hkey s).symm⟩
  · rintro ⟨r, hr, rfl⟩
    exact ⟨_, (mem_modify T k f _).mpr ⟨r, hr, rfl⟩, hkey r⟩

variable {T}

theorem insert?_eq_none {x : ρ} : T.insert? x = none ↔ T.Has (key x) := by
  unfold insert?
  split_ifs with h <;> simp [h]

theorem exists_insert? {x : ρ} (h : ¬ T.Has (key x)) : ∃ U, T.insert? x = some U :=
  Option.ne_none_iff_exists'.mp (fun hnone ↦ h (insert?_eq_none.mp hnone))

theorem insert?_eq_some {x : ρ} {U : Table key} (h : T.insert? x = some U) :
    ¬ T.Has (key x) ∧ U.rows = insert x T.rows := by
  unfold insert? at h
  split_ifs at h with hx
  exact ⟨hx, congrArg Table.rows (Option.some.inj h).symm⟩

theorem mem_insert? {x r : ρ} {U : Table key} (h : T.insert? x = some U) :
    r ∈ U ↔ r = x ∨ r ∈ T := by
  change r ∈ U.rows ↔ _
  rw [(insert?_eq_some h).2, Finset.mem_insert]
  rfl

theorem has_insert? {x : ρ} {U : Table key} (h : T.insert? x = some U) :
    U.Has j ↔ key x = j ∨ T.Has j := by
  constructor
  · rintro ⟨r, hr, rfl⟩
    rcases (mem_insert? h).mp hr with rfl | hr
    · exact Or.inl rfl
    · exact Or.inr ⟨r, hr, rfl⟩
  · rintro (rfl | ⟨r, hr, rfl⟩)
    · exact ⟨x, (mem_insert? h).mpr (Or.inl rfl), rfl⟩
    · exact ⟨r, (mem_insert? h).mpr (Or.inr hr), rfl⟩

variable (T)

theorem deleteWhere_of_forall_not (h : ∀ k, p k → ¬ T.Has k) : T.deleteWhere p = T := by
  ext r
  simp only [deleteWhere, Finset.mem_filter, and_iff_left_iff_imp]
  exact fun hr hp ↦ h _ hp ⟨r, hr, rfl⟩

theorem deleteWhere_of_forall (h : ∀ k, ¬ p k) : T.deleteWhere p = T :=
  deleteWhere_of_forall_not T p (fun k hk ↦ absurd hk (h k))

theorem deleteWhere_comm : (T.deleteWhere p).deleteWhere q = (T.deleteWhere q).deleteWhere p := by
  ext r
  simp only [deleteWhere, Finset.mem_filter]
  tauto

theorem modify_of_not_has (h : ¬ T.Has k) : T.modify k f = T := by
  ext r
  constructor
  · intro hr
    obtain ⟨s, hs, rfl⟩ := (mem_modify T k f r).mp hr
    split_ifs with hk
    · exact absurd ⟨s, hs, hk⟩ h
    · exact hs
  · intro hr
    refine (mem_modify T k f r).mpr ⟨r, hr, ?_⟩
    split_ifs with hk
    · exact absurd ⟨r, hr, hk⟩ h
    · rfl

theorem deleteWhere_modify : (T.modify k f).deleteWhere p = (T.deleteWhere p).modify k f := by
  ext r
  constructor
  · intro hr
    obtain ⟨hr, hp⟩ := (mem_deleteWhere _ p r).mp hr
    obtain ⟨s, hs, rfl⟩ := (mem_modify T k f r).mp hr
    refine (mem_modify _ k f _).mpr ⟨s, (mem_deleteWhere T p s).mpr ⟨hs, ?_⟩, rfl⟩
    split_ifs at hp with hk
    · rwa [f.2 s] at hp
    · exact hp
  · intro hr
    obtain ⟨s, hs, rfl⟩ := (mem_modify _ k f r).mp hr
    obtain ⟨hs, hp⟩ := (mem_deleteWhere T p s).mp hs
    refine (mem_deleteWhere _ p _).mpr ⟨(mem_modify T k f _).mpr ⟨s, hs, rfl⟩, ?_⟩
    split_ifs with hk
    · rwa [f.2 s]
    · exact hp

theorem insert?_deleteWhere {x : ρ} (h : ¬ p (key x)) :
    (T.deleteWhere p).insert? x = (T.insert? x).map (fun U ↦ U.deleteWhere p) := by
  by_cases hx : T.Has (key x)
  · rw [insert?_eq_none.mpr hx, insert?_eq_none.mpr ((has_deleteWhere T p _).mpr ⟨hx, h⟩)]
    rfl
  · have hx' : ¬ (T.deleteWhere p).Has (key x) := fun hh ↦ hx ((has_deleteWhere T p _).mp hh).1
    simp only [insert?, hx, hx', dite_false, Option.map_some]
    congr 1
    ext r
    simp only [deleteWhere, Finset.mem_insert, Finset.mem_filter]
    constructor
    · rintro (rfl | ⟨hr, hp⟩)
      · exact ⟨Or.inl rfl, h⟩
      · exact ⟨Or.inr hr, hp⟩
    · rintro ⟨rfl | hr, hp⟩
      · exact Or.inl rfl
      · exact Or.inr ⟨hr, hp⟩

end Table

def References {σ τ : Type} [DecidableEq σ] {ckey : σ → τ} (fk : σ → κ)
    (child : Table ckey) (parent : Table key) : Prop := ∀ c ∈ child, parent.Has (fk c)

section Foreign

variable {σ τ : Type} [DecidableEq σ] [DecidableEq τ] {ckey : σ → τ} {fk : σ → κ}
variable {child : Table ckey} {parent : Table key}

/-- No child row points at a key that `p` selects, so that deleting these
parents is not refused by the foreign key. -/
def Unreferenced (fk : σ → κ) (child : Table ckey) (p : κ → Prop) : Prop := ∀ c ∈ child, ¬ p (fk c)

instance (fk : σ → κ) (child : Table ckey) (p : κ → Prop) [DecidablePred p] :
    Decidable (Unreferenced fk child p) :=
  inferInstanceAs (Decidable (∀ c ∈ child.rows, ¬ p (fk c)))

/-- Once the children of the selected parents are gone, the parents can go. -/
theorem unreferenced_deleteWhere {p : κ → Prop} {q : τ → Prop} [DecidablePred q]
    (h : ∀ c, p (fk c) → q (ckey c)) : Unreferenced fk (child.deleteWhere q) p :=
  fun c hc hp ↦ ((Table.mem_deleteWhere child q c).mp hc).2 (h c hp)

theorem Unreferenced.insert? {p : κ → Prop} (h : Unreferenced fk child p) {x : σ} {U : Table ckey}
    (hU : child.insert? x = some U) (hx : ¬ p (fk x)) : Unreferenced fk U p := by
  intro c hc
  rcases (Table.mem_insert? hU).mp hc with rfl | hc
  · exact hx
  · exact h c hc

theorem Unreferenced.modify {p : κ → Prop} (h : Unreferenced fk child p) (k : τ) (f : Update ckey)
    (hf : ∀ c, fk (f.1 c) = fk c) : Unreferenced fk (child.modify k f) p := by
  intro c hc
  obtain ⟨s, hs, rfl⟩ := (Table.mem_modify child k f c).mp hc
  split_ifs
  · rw [hf]
    exact h s hs
  · exact h s hs

theorem References.deleteChild (h : References fk child parent) (p : τ → Prop) [DecidablePred p] :
    References fk (child.deleteWhere p) parent :=
  fun c hc ↦ h c ((Table.mem_deleteWhere child p c).mp hc).1

theorem References.deleteParent (h : References fk child parent) (p : κ → Prop) [DecidablePred p]
    (hp : Unreferenced fk child p) : References fk child (parent.deleteWhere p) :=
  fun c hc ↦ (Table.has_deleteWhere parent p _).mpr ⟨h c hc, hp c hc⟩

theorem References.insertChild (h : References fk child parent) {x : σ} {U : Table ckey}
    (hU : child.insert? x = some U) (hx : parent.Has (fk x)) : References fk U parent := by
  intro c hc
  rcases (Table.mem_insert? hU).mp hc with rfl | hc
  · exact hx
  · exact h c hc

theorem References.insertParent (h : References fk child parent) {x : ρ} {U : Table key}
    (hU : parent.insert? x = some U) : References fk child U :=
  fun c hc ↦ (Table.has_insert? _ hU).mpr (Or.inr (h c hc))

theorem References.modifyParent (h : References fk child parent) (k : κ) (f : Update key) :
    References fk child (parent.modify k f) :=
  fun c hc ↦ (Table.has_modify parent k _ f).mpr (h c hc)

theorem References.modifyChild (h : References fk child parent) (k : τ) (f : Update ckey)
    (hf : ∀ c, fk (f.1 c) = fk c) : References fk (child.modify k f) parent := by
  intro c hc
  obtain ⟨s, hs, rfl⟩ := (Table.mem_modify child k f c).mp hc
  split_ifs
  · rw [hf]
    exact h s hs
  · exact h s hs

end Foreign

end ServiciosRed.Relational
