import ServiciosRed.Addresses

namespace ServiciosRed.Lookups

open Text Php MySQL Relational Schema Calendar Interleaving Fields Server Programs Requests Hosts
  Baselines Paths
  Reachability Addresses

section Keys

variable [Engine] {ip ip' : Texto} {msk msk' : ℤ}

theorem weight_slash_notMem_sortKey (h : direccionValida ip msk) :
    Engine.weight '/' ∉ sortKey ip := by
  intro hmem
  have hsub : sortKey ip ⊆ ip.map Engine.weight := (List.rdropWhile_prefix _ _).subset
  obtain ⟨c, hc, hw⟩ := List.mem_map.mp (hsub hmem)
  have hall : ∀ d ∈ ipChars, d.toNat < 128 ∧ d.toUpper ≠ '/'.toUpper := by decide
  obtain ⟨hascii, hne⟩ := hall c (ip_chars h c hc)
  exact hne ((Engine.weight_ascii c '/' hascii (by decide)).mp hw)

/-- No stored address compares equal to an address without its mask. -/
theorem sortKey_ip_ne (h : direccionValida ip msk) (h' : direccionValida ip' msk') :
    sortKey (direccion ip msk) ≠ sortKey ip' := by
  intro he
  refine weight_slash_notMem_sortKey h' (he ▸ ?_)
  rw [(numbered_direccion h).sortKey_eq, direccion, List.map_append, List.map_cons]
  exact List.mem_append_right _ List.mem_cons_self

end Keys

section Rows

variable [Engine] {bd : BD} {ip : Texto} {x : FilaDispositivo} {result : List Registro}

/-- A result of `SELECT * FROM dispositivo where direccionIP = '...'`: the rows
with the address, in some order. -/
def Consulta (bd : BD) (ip : Texto) (result : List Registro) : Prop :=
  ∃ l : List FilaDispositivo, l.Nodup ∧ (∀ x, x ∈ l ↔ x ∈ bd.dispositivo ∧ x.clave = sortKey ip) ∧
    result = l.map registro

theorem consulta_iff_nil (h : ∀ x ∈ bd.dispositivo, x.clave ≠ sortKey ip) :
    Consulta bd ip result ↔ result = [] := by
  constructor
  · rintro ⟨l, -, hl, rfl⟩
    have hnil : l = [] := by
      refine List.eq_nil_iff_forall_not_mem.mpr (fun x hx ↦ ?_)
      exact h x ((hl x).mp hx).1 ((hl x).mp hx).2
    rw [hnil]
    rfl
  · rintro rfl
    refine ⟨[], List.nodup_nil, fun x ↦ iff_of_false List.not_mem_nil (fun hx ↦ h x hx.1 hx.2), rfl⟩

theorem consulta_iff_singleton (hx : x ∈ bd.dispositivo) (h : x.clave = sortKey ip) :
    Consulta bd ip result ↔ result = [registro x] := by
  have honly : ∀ y, y ∈ bd.dispositivo ∧ y.clave = sortKey ip ↔ y = x := by
    intro y
    constructor
    · intro hy
      exact bd.dispositivo.unique y hy.1 x hx (hy.2.trans h.symm)
    · rintro rfl
      exact ⟨hx, h⟩
  constructor
  · rintro ⟨l, hnodup, hl, rfl⟩
    have hl : ∀ y, y ∈ l ↔ y = x := fun y ↦ (hl y).trans (honly y)
    have hsingle : l = [x] := List.perm_singleton.mp
      ((List.perm_ext_iff_of_nodup hnodup (List.nodup_singleton x)).mpr (by simpa using hl))
    rw [hsingle]
    rfl
  · rintro rfl
    exact ⟨[x], List.nodup_singleton x, fun y ↦ List.mem_singleton.trans (honly y).symm, rfl⟩

def Lee (x : FilaDispositivo) (result : List Registro) : Prop :=
  ∃ b, getbaseline result = .ok (some b) ∧ b.maxi.length = 6 ∧ b.mini.length = 6 ∧
    ∀ (i : ℕ) (c : Campo), campos[i]? = some c →
      b.maxi[i]? = some (maximo x.linea c) ∧ b.mini[i]? = some (minimo x.linea c)

omit [Engine] in
theorem lee_registro (x : FilaDispositivo) : Lee x [registro x] := by
  refine ⟨baselineDe x.linea, rfl, rfl, rfl, fun i c hc ↦ ?_⟩
  rw [baselineDe, List.getElem?_map, List.getElem?_map, hc]
  exact ⟨rfl, rfl⟩

omit [Engine] in
theorem not_lee_nil (x : FilaDispositivo) : ¬ Lee x [] := by
  rintro ⟨b, hb, -⟩
  cases hb

/-- The address of a device without its mask finds no row, so that the function
returns None. The whole address finds the baseline of the device. -/
theorem getbaseline_ip (hbd : Alcanzable bd) (hx : x ∈ bd.dispositivo) :
    Consulta bd ((explode '/' x.direccionIP.texto).headD []) [] ∧
      (∀ result, Consulta bd ((explode '/' x.direccionIP.texto).headD []) result →
        getbaseline result = .ok none ∧ ¬ Lee x result) ∧
      ∀ result, Consulta bd x.direccionIP.texto result → Lee x result := by
  have hderivadas := hbd.ordenada.dispositivos
  obtain ⟨ip, msk, hd⟩ := hderivadas x hx
  have hip : (explode '/' x.direccionIP.texto).headD [] = ip := by
    rw [hd.direccionIP]
    exact (direccion_parts hd.valida).1
  have hnone : ∀ y ∈ bd.dispositivo, y.clave ≠ sortKey ip := by
    intro y hy
    obtain ⟨ip', msk', hd'⟩ := hderivadas y hy
    have hclave : y.clave = sortKey (direccion ip' msk') := congrArg sortKey hd'.direccionIP
    rw [hclave]
    exact sortKey_ip_ne hd'.valida hd.valida
  rw [hip]
  refine ⟨(consulta_iff_nil hnone).mpr rfl, fun result hresult ↦ ?_, fun result hresult ↦ ?_⟩
  · rw [(consulta_iff_nil hnone).mp hresult]
    exact ⟨rfl, not_lee_nil x⟩
  · rw [(consulta_iff_singleton hx rfl).mp hresult]
    exact lee_registro x

end Rows

section Ejemplo

@[irreducible]
def registrado : BD := tras reloj (.dispositivo equipo .insertar) BD.vacia

theorem alcanzable_registrado : Alcanzable registrado := by
  unfold registrado
  exact Alcanzable.vacia.tras reloj (by decide)

theorem filaEquipo_mem : filaEquipo ∈ registrado.dispositivo := by decide +kernel

theorem getbaseline_equipo : filaEquipo ∈ registrado.dispositivo ∧
    ∀ result, Consulta registrado "10.0.0.1/24".toList result → Lee filaEquipo result :=
  ⟨filaEquipo_mem, (getbaseline_ip alcanzable_registrado filaEquipo_mem).2.2⟩

/-- The row of 10.0.0.1/24 is stored, and the SELECT for 10.0.0.1 finds nothing. -/
theorem not_lee_equipo : Alcanzable registrado ∧ filaEquipo ∈ registrado.dispositivo ∧
    ∃ result, Consulta registrado "10.0.0.1".toList result ∧ ¬ Lee filaEquipo result := by
  refine ⟨alcanzable_registrado, filaEquipo_mem, [], (consulta_iff_nil ?_).mpr rfl,
    not_lee_nil filaEquipo⟩
  have hall : ∀ x ∈ registrado.dispositivo.rows, x.clave ≠
    sortKey "10.0.0.1".toList := by decide +kernel
  exact hall

end Ejemplo

end ServiciosRed.Lookups
