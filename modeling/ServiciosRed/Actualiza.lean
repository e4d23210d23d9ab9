import ServiciosRed.Hosts
import Mathlib.Data.List.Nodup

namespace ServiciosRed.Actualiza

open Text Python Hosts

variable {falla : Fallas} {dirName : Texto} {v : Campo → Texto} {p : Proceso}

def rrd (ruta : Texto) (c : Campo) : Texto := ruta ++ '/' :: c.archivo

theorem archivo_injective : Function.Injective Campo.archivo := by
  intro c d h
  cases c <;> cases d <;> first | rfl | cases h

theorem rrd_injective (ruta : Texto) : Function.Injective (rrd ruta) := by
  intro c d h
  have hcons := List.append_cancel_left h
  exact archivo_injective (List.cons.inj hcons).2

def tras (p : Proceso) (v : Campo → Texto) (cs : List Campo) : Proceso :=
  { p with recibidos := fun archivo ↦
      p.recibidos archivo ++ (cs.filter fun c ↦ rrd p.cwd c = archivo).map v }

theorem tras_nil : tras p v [] = p := by
  simp [tras]

theorem tras_append (cs ds : List Campo) : tras (tras p v cs) v ds = tras p v (cs ++ ds) := by
  have hfiles (archivo : Texto) : (tras (tras p v cs) v ds).recibidos archivo =
      (tras p v (cs ++ ds)).recibidos archivo := by
    simp only [tras, List.filter_append, List.map_append, List.append_assoc]
    rfl
  simp only [tras] at hfiles ⊢
  congr 1
  exact funext hfiles

theorem recibidos_tras_of_mem {cs : List Campo} (hcs : cs.Nodup) {c : Campo} (hc : c ∈ cs) :
    (tras p v cs).recibidos (rrd p.cwd c) = p.recibidos (rrd p.cwd c) ++ [v c] := by
  have hone : (cs.filter fun d ↦ rrd p.cwd d = rrd p.cwd c) = [c] := by
    simp only [(rrd_injective p.cwd).eq_iff]
    rw [List.filter_eq, List.count_eq_one_of_mem hcs hc, List.replicate_one]
  simp only [tras, hone, List.map_singleton]

theorem recibidos_tras_of_notMem {cs : List Campo} {archivo : Texto}
    (h : ∀ c ∈ cs, rrd p.cwd c ≠ archivo) :
    (tras p v cs).recibidos archivo = p.recibidos archivo := by
  have hnil : (cs.filter fun d ↦ rrd p.cwd d = archivo) = [] := by
    rw [List.filter_eq_nil_iff]
    intro c hc
    simpa using h c hc
  simp only [tras, hnil, List.map_nil, List.append_nil]

theorem update_ok (c : Campo) (h : falla (rrd p.cwd c) (v c) = none) :
    update falla c.archivo (v c) p = (.ok (), tras p v [c]) := by
  have hfalla : falla (p.cwd ++ '/' :: c.archivo) (v c) = none := h
  have hfiles : Function.update p.recibidos (rrd p.cwd c) (p.recibidos (rrd p.cwd c) ++ [v c]) =
      (tras p v [c]).recibidos := by
    funext archivo
    by_cases harchivo : rrd p.cwd c = archivo
    · subst harchivo
      rw [Function.update_self, recibidos_tras_of_mem (List.nodup_singleton c) List.mem_cons_self]
    · rw [Function.update_of_ne (Ne.symm harchivo), recibidos_tras_of_notMem]
      intro d hd
      rwa [List.mem_singleton.1 hd]
  rw [update, hfalla]
  simp only [tras] at hfiles ⊢
  exact congrArg (fun r ↦ (Except.ok (), { p with recibidos := r })) hfiles

theorem update_error (c : Campo) {e : Excepcion} (h : falla (rrd p.cwd c) (v c) = some e) :
    update falla c.archivo (v c) p = (.error e, p) := by
  have hfalla : falla (p.cwd ++ '/' :: c.archivo) (v c) = some e := h
  rw [update, hfalla]

theorem recorre_ok {cs : List Campo} {j : ℕ} (hj : campos.drop j = cs)
    (h : ∀ c ∈ cs, falla (rrd p.cwd c) (v c) = none) :
    recorre falla (campos.map v) cs j p = (.ok (), tras p v cs) := by
  induction cs generalizing j p with
  | nil =>
    rw [tras_nil]
    rfl
  | cons c cs ih =>
    have hget : campos[j]? = some c := by
      rw [← List.head?_drop, hj]
      rfl
    have hdrop : campos.drop (j + 1) = cs := by
      rw [← List.tail_drop, hj]
      rfl
    rw [recorre, item_campos v hget]
    simp only [update_ok c (h c List.mem_cons_self)]
    rw [ih hdrop, tras_append]
    · rfl
    · intro d hd
      exact h d (List.mem_cons_of_mem c hd)

theorem recorre_error {cs ds : List Campo} {c : Campo} {e : Excepcion} {j : ℕ}
    (hj : campos.drop j = cs ++ c :: ds) (h : ∀ d ∈ cs, falla (rrd p.cwd d) (v d) = none)
    (hc : falla (rrd p.cwd c) (v c) = some e) :
    recorre falla (campos.map v) (cs ++ c :: ds) j p = (.error e, tras p v cs) := by
  induction cs generalizing j p with
  | nil =>
    have hget : campos[j]? = some c := by
      rw [← List.head?_drop, hj]
      rfl
    rw [List.nil_append, recorre, item_campos v hget, tras_nil]
    simp only [update_error c hc]
  | cons d cs ih =>
    have hget : campos[j]? = some d := by
      rw [← List.head?_drop, hj]
      rfl
    have hdrop : campos.drop (j + 1) = cs ++ c :: ds := by
      rw [← List.tail_drop, hj]
      rfl
    rw [List.cons_append, recorre, item_campos v hget]
    simp only [update_ok d (h d List.mem_cons_self)]
    rw [ih hdrop, tras_append]
    · rfl
    · intro b hb
      exact h b (List.mem_cons_of_mem d hb)
    · exact hc

/-- From `p` to `q` the files of the metrics `cs` got their own values, and no other file
changed. -/
def Recibe (ruta : Texto) (v : Campo → Texto) (cs : List Campo) (p q : Proceso) : Prop :=
  (∀ c ∈ cs, q.recibidos (rrd ruta c) = p.recibidos (rrd ruta c) ++ [v c]) ∧
    ∀ archivo, (∀ c ∈ cs, rrd ruta c ≠ archivo) → q.recibidos archivo = p.recibidos archivo

theorem recibe_tras {cs : List Campo} (hcs : cs.Nodup) : Recibe p.cwd v cs p (tras p v cs) := by
  constructor
  · intro c hc
    exact recibidos_tras_of_mem hcs hc
  · intro archivo h
    exact recibidos_tras_of_notMem h

theorem actualiza_ok {ruta : Texto} (hsi : p.existe (p.cwd ++ '/' :: dirName))
    (hruta : ruta = p.cwd ++ '/' :: dirName) (hok : ∀ c, falla (rrd ruta c) (v c) = none) :
    ∃ q, actualiza falla dirName (campos.map v) p = (.ok (), q) ∧ q.cwd = p.cwd ∧
      Recibe ruta v campos p q := by
  subst hruta
  have hloop : recorre falla (campos.map v) campos 0 (p.en _ hsi) =
    (.ok (), tras (p.en _ hsi) v campos) :=
    recorre_ok rfl (fun c _ ↦ hok c)
  have hback : chdir p.cwd (tras (p.en _ hsi) v campos) =
      (.ok (), (tras (p.en _ hsi) v campos).en p.cwd p.cwd_existe) := dif_pos p.cwd_existe
  refine ⟨(tras (p.en _ hsi) v campos).en p.cwd p.cwd_existe, ?_, rfl, ?_⟩
  · rw [actualiza]
    simp only [chdir, hsi, dite_true, hloop]
    exact hback
  · exact recibe_tras (p := p.en _ hsi) campos_nodup

/-- `actualiza` stores the values of the metrics before the first one that fails. Nothing
is stored without the directory, and the old directory comes back when nothing fails. -/
theorem actualiza_prefix (falla : Fallas) (dirName ruta : Texto) (v : Campo → Texto) (p : Proceso)
    (hruta : ruta = p.cwd ++ '/' :: dirName) :
    (p.existe ruta = false → actualiza falla dirName (campos.map v) p = (.error .OSError, p)) ∧
    (p.existe ruta → (∀ c, falla (rrd ruta c) (v c) = none) →
      ∃ q, actualiza falla dirName (campos.map v) p = (.ok (), q) ∧ q.cwd = p.cwd ∧
        Recibe ruta v campos p q) ∧
    (p.existe ruta → ∀ cs c ds e, campos = cs ++ c :: ds →
    (∀ d ∈ cs, falla (rrd ruta d) (v d) = none) →
      falla (rrd ruta c) (v c) = some e →
      ∃ q, actualiza falla dirName (campos.map v) p = (.error e, q) ∧ Recibe ruta v cs p q) := by
  subst hruta
  refine ⟨fun hno ↦ ?_, fun hsi hok ↦ ?_, fun hsi cs c ds e hcs hok hfalla ↦ ?_⟩
  · simp only [actualiza, chdir, hno, Bool.false_eq_true, dite_false]
  · exact actualiza_ok hsi rfl hok
  · have hloop := recorre_error (p := p.en _ hsi) (j := 0) hcs hok hfalla
    have hnodup : (cs ++ c :: ds).Nodup := hcs ▸ campos_nodup
    refine ⟨tras (p.en _ hsi) v cs, ?_, ?_⟩
    · rw [← hcs] at hloop
      rw [actualiza]
      simp only [chdir, hsi, dite_true, hloop]
    · exact recibe_tras (p := p.en _ hsi) (List.nodup_append.1 hnodup).1

def enHosts : Proceso where
  cwd := "/Hosts".toList
  existe := fun ruta ↦ ruta = "/Hosts".toList ∨ ruta = "/Hosts/127_0_0_1_25".toList
  recibidos := fun _ ↦ []
  cwd_existe := by decide

def fallaRam : Fallas := fun archivo _ ↦
  if archivo = "/Hosts/127_0_0_1_25/ram.rrd".toList then some .RrdtoolError else none

theorem actualiza_prefix_ram :
    ∃ q, actualiza fallaRam "127_0_0_1_25".toList (campos.map fun _ ↦ "50".toList) enHosts =
      (.error .RrdtoolError, q) ∧
      Recibe "/Hosts/127_0_0_1_25".toList (fun _ ↦ "50".toList) [.cpu] enHosts q :=
  have hruta := actualiza_prefix fallaRam "127_0_0_1_25".toList "/Hosts/127_0_0_1_25".toList
    (fun _ ↦ "50".toList)
    enHosts (by decide)
  hruta.2.2 (by decide) [.cpu] .ram [.hdd, .temp, .volt, .ping] _ (by decide)
    (by decide) (by decide)

/-- A failure of the second update leaves the first file changed and the others as they were. -/
theorem actualiza_not_atomic :
    ¬ ∀ (falla : Fallas) (dirName : Texto) (v : Campo → Texto) (p : Proceso),
      ((∀ c ∈ campos,
      (actualiza falla dirName (campos.map v) p).2.recibidos (rrd (p.cwd ++ '/' :: dirName) c) =
          p.recibidos (rrd (p.cwd ++ '/' :: dirName) c) ++ [v c]) ∨
        ∀ c ∈ campos,
        (actualiza falla dirName (campos.map v) p).2.recibidos (rrd (p.cwd ++ '/' :: dirName) c) =
          p.recibidos (rrd (p.cwd ++ '/' :: dirName) c)) ∧
      (actualiza falla dirName (campos.map v) p).2.cwd = p.cwd := by
  intro h
  have hrun := h fallaRam "127_0_0_1_25".toList (fun _ ↦ "50".toList) enHosts
  revert hrun
  decide

end ServiciosRed.Actualiza
