import ServiciosRed.Commutation
import ServiciosRed.Transmission

namespace ServiciosRed.Concurrency

open Text MySQL Relational Schema Calendar Interleaving Server Fields Deletion Requests
  Programs Commutation Transmission

def Choca (oper oper' : Operacion) (k k' : Option Clave) : Prop :=
  oper = .eliminar ∧ oper' = .insertar ∧ ∃ i ∈ k, ∃ j ∈ k', j.Refiere i

def Repite (oper oper' : Operacion) (k k' : Option Clave) : Prop :=
  oper = .eliminar ∧ oper' = .eliminar ∧ ∃ i ∈ k, i ∈ k'

section Engines

variable [Engine]

def bajaDe (k : Clave) : List (Step BD) := existe k :: (borrados k).map Borrado.paso

/-- The course of a request: nothing comes of it, or an INSERT that makes its
looks again, an UPDATE of the row that it has found, or the DELETEs of a record. -/
inductive Forma : List (Step BD) → Operacion → Option Clave → Prop
  | nada {gs : List (Step BD)} {oper : Operacion} {k : Option Clave} :
      (∀ g ∈ gs, Mira g) → Forma (gs ++ rechazada) oper k
  | alta {gs : List (Step BD)} {m : Step BD} {k : Clave} :
      Inserta k gs m → Forma (gs ++ [m]) .insertar (some k)
  | cambio {k : Clave} {M : BD → BD} : Puntual k M → Forma [existe k, total M] .actualizar (some k)
  | baja (k : Clave) : Forma (bajaDe k) .eliminar (some k)

theorem forma_programa (P : Programa) : Forma P.pasos P.operacion P.clave := by
  cases P with
  | rechazo gs h => exact .nada h
  | altaDispositivo x => exact .alta (inserta_dispositivo x)
  | altaAdministrador x => exact .alta (inserta_administrador x)
  | altaPermiso x => exact .alta (inserta_permiso x)
  | altaRestriccion x => exact .alta (inserta_restriccion x)
  | altaSuceso x => exact .alta (inserta_suceso x)
  | cambioDispositivo k f => exact .cambio (puntual_dispositivo k f)
  | cambioAdministrador k f => exact .cambio (puntual_administrador k f)
  | cambioPermiso k f => exact .cambio (puntual_permiso k f)
  | cambioRestriccion k f => exact .cambio (puntual_restriccion k f)
  | bajaPermiso k => exact .baja (.permiso k)
  | bajaSuceso k => exact .baja (.suceso k)
  | baja e =>
    rw [pasos_baja]
    exact .baja (Eliminado e)

theorem forma_peticion (ahora : Reloj) (p : Peticion) :
    Forma (p.pasos ahora) p.operacion (clavePeticion ahora p) := by
  rcases peticion_resulta ahora p with ⟨gs, h, hp⟩ | ⟨P, hp, ho, hk⟩
  · rw [hp]
    exact .nada h
  · rw [hp, ← ho, ← hk]
    exact forma_programa P

section Atoms

variable {p q : List (Step BD)} {a : Step BD} {k : Clave} {M : BD → BD} {s : BD}

/-- Beside growing steps or beside the deletion of a record `p` is the one step `a`. -/
structure Atomica (p : List (Step BD)) (a : Step BD) : Prop where
  crece : ∀ f ∈ p, Crece f
  paso : Crece a
  solo : ∀ s, solo p s = solo [a] s
  reduce : ∀ q s, ((∀ f ∈ q, Crece f) ∨ ∃ k, q = bajaDe k) → Serializable s [a] q →
    Serializable s p q

theorem atomica_checked {gs : List (Step BD)} (hgs : Subsumes a gs) (ha : Crece a) :
    Atomica (gs ++ [a]) a where
  crece f hf := by
    rcases List.mem_append.mp hf with hf | hf
    · exact crece_of_mira (hgs f hf).1
    · rw [List.mem_singleton.mp hf]
      exact ha
  paso := ha
  solo := solo_checked hgs
  reduce _ _ _ h := .of_checked hgs h

theorem absorbs_baja (hM : Puntual k M) (j : Clave) :
    Absorbs (fun bd ↦ Existe bd k) M (bajaDe j) := by
  refine ⟨hM.idle, Or.inr (fun f hf s s' hs ↦ ?_)⟩
  rcases List.mem_cons.mp hf with rfl | hf
  · obtain ⟨-, rfl⟩ := guard_eq_some.mp hs
    exact ⟨id, fun hk hn ↦ absurd hk hn⟩
  · obtain ⟨b, -, rfl⟩ := List.mem_map.mp hf
    obtain ⟨hlibre, rfl⟩ := Borrado.paso_eq_some.mp hs
    refine ⟨fun hn hk ↦ hn (Borrado.existe_sin.mp hk).1, fun _ hn ↦ ?_⟩
    -- the row is gone after the DELETE, so the UPDATE before it has left no trace
    rw [Borrado.paso_of_libre (hM.libre b s hlibre), hM.sin, hM.idle _ hn]

theorem atomica_cambio (hM : Puntual k M) : Atomica [existe k, total M] (enFila k M) where
  crece f hf := by
    rcases List.mem_pair.mp hf with rfl | rfl
    · exact crece_of_mira mira_guard
    · exact hM.crece_total
  paso := hM.crece_enFila
  solo := solo_absorbed
  reduce q s hq h := by
    refine .of_absorbed ?_ h
    rcases hq with hq | ⟨j, rfl⟩
    · exact ⟨hM.idle, Or.inl (fun f hf s s' hs hk ↦ hq f hf s s' hs k hk)⟩
    · exact absorbs_baja hM j

theorem serializable_atoms {b : Step BD} (hp : Atomica p a) (hq : Atomica q b) (s : BD) :
    Serializable s p q := by
  refine hp.reduce q s (Or.inl hq.crece) (.swap (hq.reduce [a] s (Or.inl ?_) ?_))
  · exact List.forall_mem_singleton.mpr hp.paso
  · exact serializable_single s b a

def Convive (a : Step BD) (k : Clave) : Prop :=
  ∀ b ∈ dependientes k, Commute a b.paso ∨ Kills a b.paso ∧ ∀ c : Borrado, Spares a c.paso

theorem serializable_atom_baja (hp : Atomica p a) (ha : Convive a k) (s : BD) :
    Serializable s p (bajaDe k) := by
  refine hp.reduce _ s (Or.inr ⟨k, rfl⟩) (.swap ?_)
  have hpasos : bajaDe k = existe k ::
      ((dependientes k).map Borrado.paso ++ [(propio k).paso]) := by
    rw [bajaDe, borrados, List.map_append]
    rfl
  rw [hpasos]
  refine serializable_beside (fun s s' hs h ↦ hp.paso s s' h k hs) (fun f hf ↦ ?_) s
  obtain ⟨b, hb, rfl⟩ := List.mem_map.mp hf
  refine (ha b hb).imp id (And.imp_right fun hspares g hg ↦ ?_)
  rcases List.mem_append.mp hg with hg | hg
  · obtain ⟨c, -, rfl⟩ := List.mem_map.mp hg
    exact hspares c
  · rw [List.mem_singleton.mp hg]
    exact hspares (propio k)

theorem convive_none : Convive (fun _ ↦ none) k := fun _ _ ↦
  Or.inl ⟨fun _ _ _ h ↦ (Option.some_ne_none _ h.symm).elim, fun _ _ _ _ ↦ rfl⟩

theorem Puntual.convive {j : Clave} (hM : Puntual j M) : Convive (enFila j M) k := by
  intro b _
  by_cases hb : b.Toca j
  · exact Or.inr ⟨kills_of_toca hb, fun c ↦ spares_paso⟩
  · exact Or.inl (hM.commute hb)

theorem Inserta.convive {gs : List (Step BD)} {j : Clave} (h : Inserta j gs a)
    (hk : ¬ j.Refiere k) : Convive a k := by
  intro b hb
  refine Or.inl (h.commute b (dependiente_of_mem hb) (fun i hi ht ↦ hk ?_))
  have hik := refiere_of_toca hb ht
  rcases hi with rfl | hi
  · exact hik
  · exact refiere_trans hi hik

end Atoms

section Bajas

variable {j k : Clave} {s t : BD} {a b : Bool}

theorem tame_baja (k : Clave) :
    Tame Mengua (fun _ ↦ True) (bajaDe k) (guarded (fun bd ↦ Existe bd k) (sinTodo k)) :=
  .cons (fun _ _ _ _ _ _ ↦ trivial) (fun _ _ ↦ rfl) (fun _ _ _ _ _ hc ↦ absurd hc List.not_mem_nil)
    (tame_borrados (encadenados_borrados k))

theorem mengua_baja : ∀ f ∈ bajaDe k, Mengua f := by
  intro f hf
  rcases List.mem_cons.mp hf with rfl | hf
  · exact mengua_of_mira mira_guard
  · obtain ⟨b, -, rfl⟩ := List.mem_map.mp hf
    exact mengua_paso

theorem mengua_guarded : ∀ f ∈ guarded (fun bd ↦ Existe bd j) (sinTodo k), Mengua f := by
  intro f hf
  rcases List.mem_cons.mp hf with rfl | hf
  · exact mengua_of_mira mira_guard
  · obtain ⟨d, hd, rfl⟩ := List.mem_map.mp hf
    obtain ⟨b, -, rfl⟩ := List.mem_map.mp hd
    exact mengua_sin

theorem solo_baja (k : Clave) (s : BD) :
    solo (bajaDe k) s = solo (guarded (fun bd ↦ Existe bd k) (sinTodo k)) s :=
      (tame_baja k).solo_eq trivial

theorem serializable_bajas_of (h : ∀ b ∈ borrados k, ¬ b.Toca j) (s : BD) :
    Serializable s (bajaDe j) (bajaDe k) := by
  refine .of_tame (tame_baja j) mengua_baja
    (.swap (.of_tame (tame_baja k) mengua_guarded (.swap ?_)))
  refine serializable_guarded sinTodo_comm of_existe_sinTodo (fun d hd s ↦ ?_) s
  obtain ⟨b, hb, rfl⟩ := List.mem_map.mp hd
  rw [Borrado.existe_sin, and_iff_left (h b hb)]

theorem serializable_bajas (h : j ≠ k) (s : BD) : Serializable s (bajaDe j) (bajaDe k) := by
  by_cases hjk : j.Refiere k
  · refine .swap (serializable_bajas_of (fun b hb ht ↦ ?_) s)
    rcases toca_borrados hb ht with rfl | hkj
    · exact h rfl
    · exact not_refiere_self (refiere_trans hjk hkj)
  · refine serializable_bajas_of (fun b hb ht ↦ ?_) s
    rcases toca_borrados hb ht with rfl | hjk'
    · exact h rfl
    · exact hjk hjk'

theorem run_baja_twice (h : Run s (bajaDe k) (bajaDe k) t a b) :
    t = (serial (bajaDe k) (bajaDe k) s).1 := by
  have hrun := ((tame_baja k).run mengua_baja trivial h).swap
  have hrun := ((tame_baja k).run mengua_guarded trivial hrun).swap
  have hidem : ∀ s, applyAll (sinTodo k) (applyAll (sinTodo k) s) = applyAll (sinTodo k) s :=
    applyAll_idem
  rw [(run_guarded_twice sinTodo_comm of_existe_sinTodo hidem hrun).1, serial, serial,
    solo_baja, solo_baja]

end Bajas

section Forms

variable {p q : List (Step BD)} {oper oper' : Operacion} {k k' : Option Clave}

theorem Forma.cases (h : Forma p oper k) :
    (∃ a, Atomica p a ∧ ∀ i, ¬ Choca .eliminar oper (some i) k → Convive a i) ∨
      ∃ i, p = bajaDe i ∧ oper = .eliminar ∧ k = some i := by
  cases h with
  | @nada gs _ _ hgs =>
    have hsubsumes : Subsumes (fun _ ↦ none) gs := fun g hg ↦ ⟨hgs g hg, fun _ _ h ↦ nomatch h⟩
    exact Or.inl ⟨_, atomica_checked hsubsumes (fun _ _ h ↦ nomatch h), fun _ _ ↦ convive_none⟩
  | @alta gs m j hm =>
    refine Or.inl ⟨m, atomica_checked hm.subsumes hm.crece,
      fun i hi ↦ Inserta.convive hm (fun hji ↦ hi ?_)⟩
    exact ⟨rfl, rfl, i, rfl, j, rfl, hji⟩
  | @cambio j M hM => exact Or.inl ⟨enFila j M, atomica_cambio hM, fun _ _ ↦ Puntual.convive hM⟩
  | baja i => exact Or.inr ⟨i, rfl, rfl, rfl⟩

theorem Forma.serializable_or (hp : Forma p oper k) (hq : Forma q oper' k')
    (h : ¬ Choca oper oper' k k') (h' : ¬ Choca oper' oper k' k) (s : BD) :
    Serializable s p q ∨ Repite oper oper' k k' ∧ ∃ i, p = bajaDe i ∧ q = bajaDe i := by
  rcases hp.cases with ⟨a, ha, hconv⟩ | ⟨i, rfl, rfl, rfl⟩ <;>
    rcases hq.cases with ⟨b, hb, hconv'⟩ | ⟨j, rfl, rfl, rfl⟩
  · exact Or.inl (serializable_atoms ha hb s)
  · exact Or.inl (serializable_atom_baja ha (hconv j h') s)
  · exact Or.inl (.swap (serializable_atom_baja hb (hconv' i h) s))
  · by_cases hij : i = j
    · subst hij
      exact Or.inr ⟨⟨rfl, rfl, i, rfl, rfl⟩, i, rfl, rfl⟩
    · exact Or.inl (serializable_bajas hij s)

theorem Forma.unchanged (hp : Forma p oper k) {s : BD} (h : (solo p s).2 = false) :
    (solo p s).1 = s := by
  rcases hp.cases with ⟨a, ha, -⟩ | ⟨i, rfl, -, -⟩
  · rw [ha.solo] at h ⊢
    cases hs : a s with
    | none => rw [solo_cons_none hs]
    | some s' =>
      rw [solo_cons_some hs] at h
      cases h
  · rw [solo_baja, solo_guarded] at h ⊢
    split_ifs at h ⊢
    rfl

end Forms

section Requests

variable (ahora ahora' : Reloj) (p q : Peticion)

/-- One of two accepted requests inserts a row that refers to the record the other deletes. -/
def Cruza : Prop :=
  p.aceptada ahora ∧ q.aceptada ahora' ∧
    (Choca p.operacion q.operacion (clavePeticion ahora p) (clavePeticion ahora' q) ∨
      Choca q.operacion p.operacion (clavePeticion ahora' q) (clavePeticion ahora p))

def Duplica : Prop :=
  p.aceptada ahora ∧ q.aceptada ahora' ∧
    Repite p.operacion q.operacion (clavePeticion ahora p) (clavePeticion ahora' q)

variable {ahora ahora' p q}

theorem forma_rechazada : Forma rechazada .otra none := by
  have h : Forma ([] ++ rechazada) .otra none := .nada (fun _ hg ↦ absurd hg List.not_mem_nil)
  exact h

theorem serializable_or_duplica (h : ¬ Cruza ahora ahora' p q) (s : BD) :
    Serializable s (p.pasos ahora) (q.pasos ahora') ∨
      Duplica ahora ahora' p q ∧ ∃ i, p.pasos ahora = bajaDe i ∧ q.pasos ahora' = bajaDe i := by
  have hp := forma_peticion ahora p
  have hq := forma_peticion ahora' q
  have hotra {o : Operacion} {k k' : Option Clave} : ¬ Choca .otra o k k' ∧ ¬ Choca o .otra k k' :=
    ⟨fun hc ↦ (nomatch hc.1), fun hc ↦ (nomatch hc.2.1)⟩
  by_cases hap : p.aceptada ahora
  · by_cases haq : q.aceptada ahora'
    · rcases hp.serializable_or hq (fun hc ↦ h ⟨hap, haq, Or.inl hc⟩)
        (fun hc ↦ h ⟨hap, haq, Or.inr hc⟩) s with
        hs | ⟨hr, hi⟩
      · exact Or.inl hs
      · exact Or.inr ⟨⟨hap, haq, hr⟩, hi⟩
    · rw [pasos_of_not_aceptada haq]
      rcases hp.serializable_or forma_rechazada hotra.2 hotra.1 s with hs | ⟨hr, -⟩
      · exact Or.inl hs
      · exact nomatch hr.2.1
  · rw [pasos_of_not_aceptada hap]
    rcases forma_rechazada.serializable_or hq hotra.1 hotra.2 s with hs | ⟨hr, -⟩
    · exact Or.inl hs
    · exact nomatch hr.1

/-- Any interleaving of two requests whose values keep to their literals keeps
the constraints; it comes out as one of the two orders unless one deletes what the
other's row refers to, and two deletions of one record differ from an order only in
that both may report success. -/
theorem interleavings_correct (sv : Servidor) (ahora ahora' : Reloj) (p q : Peticion)
    (hp : p.Limpia) (hq : q.Limpia) (bd : BD) (h : bd.Integra) :
    (∀ t a b, Run bd (sv.pasos ahora p) (sv.pasos ahora' q) t a b → t.Integra) ∧
      (¬ Cruza ahora ahora' p q → ¬ Duplica ahora ahora' p q →
        Serializable bd (sv.pasos ahora p) (sv.pasos ahora' q)) ∧
      (¬ Cruza ahora ahora' p q → ∀ t a b, Run bd (sv.pasos ahora p) (sv.pasos ahora' q) t a b →
        t = (serial (sv.pasos ahora p) (sv.pasos ahora' q) bd).1 ∨
          t = (serial (sv.pasos ahora' q) (sv.pasos ahora p) bd).1) ∧
      ∀ s, (solo (sv.pasos ahora p) s).2 = false → (solo (sv.pasos ahora p) s).1 = s := by
  rw [pasos_of_limpia hp, pasos_of_limpia hq]
  refine ⟨fun t a b hrun ↦ ?_, fun hc hd ↦ ?_, fun hc t a b hrun ↦ ?_,
    fun s ↦ (forma_peticion ahora p).unchanged⟩
  · exact hrun.preserves (fun f hf s s' ↦ integra_pasos hf) (fun f hf s s' ↦ integra_pasos hf) h
  · exact (serializable_or_duplica hc bd).resolve_right (fun hs ↦ hd hs.1)
  · rcases serializable_or_duplica hc bd with hs | ⟨-, i, hbaja, hbaja'⟩
    · rcases hs t a b hrun with hs | hs
      · exact Or.inl (congrArg Prod.fst hs).symm
      · exact Or.inr (congrArg Prod.fst hs).symm
    · rw [hbaja, hbaja'] at hrun ⊢
      exact Or.inl (run_baja_twice hrun)

end Requests

end Engines

section Ejemplo

def unaBaja : Peticion := .bajaDispositivo "127.0.0.1/24"

def unAlta : Peticion := .altaRestriccion "127.0.0.1/24" "min"

def otraAlta : Peticion := .altaRestriccion "10.0.0.1/24" "min"

theorem limpia_unaBaja : unaBaja.Limpia := by decide

theorem limpia_unAlta : unAlta.Limpia := by decide

theorem interleavings_correct_host :
    Serializable unaDeCada (sordo.pasos reloj unaBaja) (sordo.pasos reloj otraAlta) := by
  have hlimpia : otraAlta.Limpia := by decide
  have hcorrect :=
    interleavings_correct sordo reloj reloj unaBaja otraAlta limpia_unaBaja hlimpia unaDeCada
    integra_unaDeCada
  apply hcorrect.2.1
  · rintro ⟨-, -, ⟨-, -, i, hi, j, hj, h⟩ | ⟨h, -⟩⟩
    · cases hi
      have hclave : clavePeticion reloj otraAlta =
          some (.restriccion (sortKey "10.0.0.1/24".toList, .max_cpu, 5, .min)) := by rfl
      rw [hclave] at hj
      cases hj
      have h : sortKey "10.0.0.1/24".toList = sortKey "127.0.0.1/24".toList := h
      exact absurd h (by decide)
    · cases h
  · rintro ⟨-, -, -, h, -⟩
    cases h

/-- An insertion of a restriction between the second and the third DELETE: the
deletion fails, and the restrictions and events of the device are gone. -/
theorem interleavings_not_serializable :
    unaBaja.aceptada reloj ∧ unAlta.aceptada reloj ∧ unaBaja.Limpia ∧ unAlta.Limpia ∧
      unaDeCada.Integra ∧
      (∃ t, Run unaDeCada (sordo.pasos reloj unaBaja) (sordo.pasos reloj unAlta) t false true ∧
        suceso ∉ t.bitacoraSucesos ∧ host ∈ t.dispositivo) ∧
      ¬ Serializable unaDeCada (sordo.pasos reloj unaBaja) (sordo.pasos reloj unAlta) := by
  rw [pasos_of_limpia limpia_unaBaja, pasos_of_limpia limpia_unAlta]
  have hrun := run_follow [true, true, true, false, false, false] (unaBaja.pasos reloj)
    (unAlta.pasos reloj) unaDeCada
  have hflags :
    (follow [true, true, true, false, false, false] (unaBaja.pasos reloj) (unAlta.pasos reloj)
      unaDeCada).2 = (false, true) := by decide +kernel
  have hserial : (serial (unaBaja.pasos reloj) (unAlta.pasos reloj) unaDeCada).2.1 =
    true := by decide
  have hserial' : (serial (unAlta.pasos reloj) (unaBaja.pasos reloj) unaDeCada).2.2 =
    true := by decide +kernel
  rw [hflags] at hrun
  have hbaja : unaBaja.aceptada reloj := by decide +kernel
  have halta : unAlta.aceptada reloj := by decide +kernel
  refine ⟨hbaja, halta, limpia_unaBaja, limpia_unAlta, integra_unaDeCada, ?_, fun h ↦ ?_⟩
  · exact ⟨_, hrun, by decide +kernel, by decide +kernel⟩
  · rcases h _ _ _ hrun with h | h
    · rw [h] at hserial
      cases hserial
    · rw [h] at hserial'
      cases hserial'

end Ejemplo

end ServiciosRed.Concurrency
