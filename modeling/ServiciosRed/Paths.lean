import ServiciosRed.Collation
import ServiciosRed.Execution
import ServiciosRed.Baselines

namespace ServiciosRed.Paths

open Text Php Filters Lexer MySQL Relational Schema Calendar Interleaving Procedures Fields Server
  Binding Programs
  Requests Execution Collation Hosts

section Names

variable {ip ip' : Texto} {msk msk' : ℤ} {c d : Char}

/-- `$this->direccionIP` -/
def direccion (ip : Texto) (msk : ℤ) : Texto := ip ++ '/' :: intText msk

/-- `$this->ruta` -/
def rutaDe (ip : Texto) (msk : ℤ) : Texto := Dispositivo.raiz ++ Dispositivo.nombreDirectorio ip msk

def ipChars : List Char := "0123456789abcdefABCDEF.:".toList

theorem mem_ipChars (h : isIpChar c) : c ∈ ipChars := by
  have hcodes : c.toNat ∈ List.range' 48 10 ++ List.range' 97 6 ++ List.range' 65 6 ++
      [46, 58] := by
    simp only [isIpChar, isHex, Char.isDigit, Bool.or_eq_true, Bool.and_eq_true, decide_eq_true_eq,
      Char.le_def, UInt32.le_iff_toNat_le] at h
    simp only [List.mem_append, List.mem_range'_1, List.mem_cons, List.not_mem_nil, or_false]
    rcases h with (((h | h) | h) | rfl) | rfl
    · change 48 ≤ c.toNat ∧ c.toNat ≤ 57 at h
      omega
    · change 97 ≤ c.toNat ∧ c.toNat ≤ 102 at h
      omega
    · change 65 ≤ c.toNat ∧ c.toNat ≤ 70 at h
      omega
    · decide
    · decide
  have hall : ∀ n ∈ List.range' 48 10 ++ List.range' 97 6 ++ List.range' 65 6 ++ [46, 58],
      Char.ofNat n ∈ ipChars := by decide
  simpa only [Char.ofNat_toNat] using hall c.toNat hcodes

def punto (c : Char) : Char := if c = '.' then '_' else c

theorem ip_chars (h : direccionValida ip msk) : ∀ c ∈ ip, c ∈ ipChars := by
  simp only [direccionValida, Bool.and_eq_true] at h
  exact fun c hc ↦ mem_ipChars (validIp_chars h.1 c hc)

theorem msk_nonneg (h : direccionValida ip msk) : 0 ≤ msk := by
  simp only [direccionValida, Bool.and_eq_true, decide_eq_true_eq] at h
  exact h.2.1.2

theorem msk_digits (h : direccionValida ip msk) : ∀ c ∈ intText msk, c.isDigit := by
  intro c hc
  have hpos := msk_nonneg h
  rw [intText, if_neg (by omega)] at hc
  exact isDigit_of_mem_decimal hc

theorem map_direccion_iff {α : Type} {f : Char → α}
    (hip : ∀ c ∈ ipChars, ∀ d ∈ ipChars, f c = f d ↔ f (punto c) = f (punto d))
    (hmsk : ∀ c, c.isDigit → f c ≠ f '/' ∧ f c ≠ f '_') (h : direccionValida ip msk)
    (h' : direccionValida ip' msk') :
    (direccion ip msk).map f = (direccion ip' msk').map f ↔
      (Dispositivo.nombreDirectorio ip msk).map f =
        (Dispositivo.nombreDirectorio ip' msk').map f := by
  have hcut {a b : Texto} {c : Char} (hc : ∀ d, d.isDigit → f d ≠ f c) :
      (a ++ c :: intText msk).map f = (b ++ c :: intText msk').map f ↔
        a.map f = b.map f ∧ (intText msk).map f = (intText msk').map f := by
    have hnot {m : ℤ} (hm : ∀ d ∈ intText m, d.isDigit) : f c ∉ (intText m).map f := by
      intro hmem
      obtain ⟨d, hd, he⟩ := List.mem_map.mp hmem
      exact hc d (hm d hd) he
    rw [List.map_append, List.map_append, List.map_cons, List.map_cons]
    constructor
    · intro he
      exact append_cons_inj he (hnot (msk_digits h)) (hnot (msk_digits h'))
    · rintro ⟨ha, hm⟩
      rw [ha, hm]
  have hdots : ip.map f = ip'.map f ↔ (strReplace '.' '_' ip).map f =
      (strReplace '.' '_' ip').map f := by
    have hreplace (s : Texto) : (strReplace '.' '_' s).map f = s.map (f ∘ punto) := List.map_map
    rw [hreplace, hreplace]
    constructor
    · apply map_eq_of_map_eq
      intro c hc d hd
      exact (hip c (ip_chars h c hc) d (ip_chars h' d hd)).mp
    · apply map_eq_of_map_eq
      intro c hc d hd
      exact (hip c (ip_chars h c hc) d (ip_chars h' d hd)).mpr
  rw [direccion, direccion, Dispositivo.nombreDirectorio, Dispositivo.nombreDirectorio,
    hcut (fun d hd ↦ (hmsk d hd).1), hcut (fun d hd ↦ (hmsk d hd).2), hdots]

theorem digit_ne (h : c.isDigit) :
    (id c ≠ id '/' ∧ id c ≠ id '_') ∧ c.toUpper ≠ '/'.toUpper ∧ c.toUpper ≠ '_'.toUpper :=
  of_isDigit h (by decide)

theorem rutaDe_iff (h : direccionValida ip msk) (h' : direccionValida ip' msk') :
    rutaDe ip msk = rutaDe ip' msk' ↔ direccion ip msk = direccion ip' msk' := by
  have hip : ∀ c ∈ ipChars, ∀ d ∈ ipChars, id c = id d ↔ id (punto c) = id (punto d) := by decide
  have hiff := map_direccion_iff hip (fun c hc ↦ (digit_ne hc).1) h h'
  rw [List.map_id, List.map_id, List.map_id, List.map_id] at hiff
  rw [rutaDe, rutaDe, List.append_cancel_left_eq, hiff]

theorem cambia_of_digits {s : Texto} (h : ∀ c ∈ s, c.isDigit) : cambia s = s := by
  rw [cambia, List.map_congr_left, List.map_id]
  intro c hc
  refine if_neg ?_
  rintro (rfl | rfl) <;> exact absurd (h _ hc) (by decide)

theorem cambia_direccion (h : direccionValida ip msk) :
    cambia (direccion ip msk) = Dispositivo.nombreDirectorio ip msk := by
  have hip : cambia ip = strReplace '.' '_' ip := by
    refine List.map_congr_left (fun c hc ↦ ?_)
    have hslash : ∀ d ∈ ipChars, d ≠ '/' := by decide
    simp only [hslash c (ip_chars h c hc), or_false]
  have hmsk := cambia_of_digits (msk_digits h)
  rw [cambia] at hip hmsk
  rw [cambia, direccion, List.map_append, List.map_cons, hip, hmsk]
  rfl

theorem notMem_nombreDirectorio (h : direccionValida ip msk) :
    '/' ∉ Dispositivo.nombreDirectorio ip msk := by
  rw [← cambia_direccion h]
  intro hmem
  obtain ⟨c, -, hc⟩ := List.mem_map.mp hmem
  split_ifs at hc with hsep
  · cases hc
  · exact hsep (Or.inr hc)

/-- The last component of the path is the name that the monitor computes. -/
theorem basename_rutaDe (h : direccionValida ip msk) :
    (explode '/' (rutaDe ip msk)).getLast? = some (cambia (direccion ip msk)) := by
  have hnone := notMem_nombreDirectorio h
  have hraiz : Dispositivo.raiz = '/' :: ("home".toList ++ '/' :: ("vsalmean".toList ++ '/' ::
      ("Redes".toList ++ '/' :: ("Hosts".toList ++ '/' :: [])))) := rfl
  rw [rutaDe, hraiz, cambia_direccion h]
  simp only [List.cons_append, List.append_assoc, List.nil_append]
  rw [explode_cons_self, explode_append (by decide), explode_append (by decide),
    explode_append (by decide), explode_append (by decide), explode_of_notMem hnone]
  rfl

theorem numbered_append {s : Texto} (hs : ∀ c ∈ s, c.toNat < 128) (h : direccionValida ip msk) :
    Numbered (s ++ intText msk) := by
  have hdigits := msk_digits h
  have hpos := msk_nonneg h
  constructor
  · intro c hc
    rcases List.mem_append.mp hc with hc | hc
    · exact hs c hc
    · exact of_isDigit (hdigits c hc) (by decide)
  · have hne : intText msk ≠ [] := by
      rw [intText, if_neg (by omega)]
      exact decimal_ne_nil _
    refine ⟨s ++ (intText msk).dropLast, (intText msk).getLast hne, ?_,
      hdigits _ (List.getLast_mem hne)⟩
    rw [List.append_assoc, List.dropLast_append_getLast]

theorem ascii_of_mem_ipChars : ∀ c ∈ ipChars, c.toNat < 128 ∧ (punto c).toNat < 128 := by decide

theorem numbered_direccion (h : direccionValida ip msk) : Numbered (direccion ip msk) := by
  have hsplit : direccion ip msk = (ip ++ ['/']) ++ intText msk := by
    rw [direccion, List.append_assoc, List.singleton_append]
  rw [hsplit]
  refine numbered_append (fun c hc ↦ ?_) h
  rcases List.mem_append.mp hc with hc | hc
  · exact (ascii_of_mem_ipChars c (ip_chars h c hc)).1
  · rw [List.mem_singleton.mp hc]
    decide

theorem numbered_rutaDe (h : direccionValida ip msk) : Numbered (rutaDe ip msk) := by
  have hsplit : rutaDe ip msk = (Dispositivo.raiz ++ (strReplace '.' '_' ip ++ ['_'])) ++
      intText msk := by
    simp only [rutaDe, Dispositivo.nombreDirectorio, List.append_assoc, List.singleton_append]
  rw [hsplit]
  refine numbered_append (fun c hc ↦ ?_) h
  rcases List.mem_append.mp hc with hc | hc
  · have hraiz : ∀ d ∈ Dispositivo.raiz, d.toNat < 128 := by decide
    exact hraiz c hc
  · rcases List.mem_append.mp hc with hc | hc
    · obtain ⟨d, hd, rfl⟩ := List.mem_map.mp hc
      exact (ascii_of_mem_ipChars d (ip_chars h d hd)).2
    · rw [List.mem_singleton.mp hc]
      decide

variable [Engine]

theorem sortKey_rutaDe_iff (h : direccionValida ip msk) (h' : direccionValida ip' msk') :
    sortKey (rutaDe ip msk) = sortKey (rutaDe ip' msk') ↔
      sortKey (direccion ip msk) = sortKey (direccion ip' msk') := by
  have hip : ∀ c ∈ ipChars, ∀ d ∈ ipChars, c.toUpper = d.toUpper ↔
      (punto c).toUpper = (punto d).toUpper := by
    decide
  rw [(numbered_rutaDe h).sortKey_iff (numbered_rutaDe h'),
    (numbered_direccion h).sortKey_iff (numbered_direccion h'), map_direccion_iff hip
      (fun c hc ↦ (digit_ne hc).2) h h', rutaDe, rutaDe, List.map_append, List.map_append,
    List.append_cancel_left_eq]

end Names

section Rows

structure Derivada (x : FilaDispositivo) (ip : Texto) (msk : ℤ) : Prop where
  valida : direccionValida ip msk
  direccionIP : x.direccionIP.texto = direccion ip msk
  ruta : x.ruta.texto = rutaDe ip msk

theorem Derivada.ruta_eq_cambia {x : FilaDispositivo} {ip : Texto} {msk : ℤ}
    (h : Derivada x ip msk) :
    x.ruta.texto = Dispositivo.raiz ++ cambia x.direccionIP.texto := by
  rw [h.ruta, h.direccionIP, cambia_direccion h.valida, rutaDe]

variable [Engine]

def Derivadas (bd : BD) : Prop := ∀ x ∈ bd.dispositivo, ∃ ip msk, Derivada x ip msk

variable {ahora : Reloj} {a : Dispositivo.Argumentos} {x y : FilaDispositivo} {bd bd' : BD}

theorem derivada_of_fila (hv : (Dispositivo.construct ahora a).Valido)
    (h : FilaDe (Dispositivo.construct ahora a) x) :
    Derivada x (ipDe a.dirIP) (mskDe a.dirIP) := by
  have hdir : direccionValida (ipDe a.dirIP) (mskDe a.dirIP) := hv.direccion
  have hend {n : ℕ} {s : Texto} {v : Varchar n} (hs : Numbered s) (h : varcharNotNull n (.text s) =
    some v) :
      v.texto = s := by
    obtain ⟨t, c, ht, hc⟩ := hs.last
    refine texto_eq_of_varcharNotNull ht ?_ h
    rintro rfl
    cases hc
  exact ⟨hdir, hend (numbered_direccion hdir) h.direccionIP, hend (numbered_rutaDe hdir) h.ruta⟩

theorem derivadas_paso {oper : Operacion} {f : Step BD}
    (hf : f ∈ (Dispositivo.construct ahora a).pasos oper) (h : Derivadas bd)
    (hs : f bd = some bd') : Derivadas bd' := by
  intro x hx
  rcases (hace_pasos (Dispositivo.construct ahora a) oper).mem_dispositivo hf hs hx with ⟨y, hy,
    hip, hruta⟩ | ⟨hv, hx⟩
  · obtain ⟨ip, msk, hd⟩ := h y hy
    exact ⟨ip, msk, hd.valida, hip ▸ hd.direccionIP, hruta ▸ hd.ruta⟩
  · exact ⟨_, _, derivada_of_fila hv hx⟩

theorem derivadas_vacia : Derivadas BD.vacia := fun x hx ↦ absurd hx (Table.not_mem_empty x)

theorem Derivada.clave_of_ruta {ip ip' : Texto} {msk msk' : ℤ} (h : Derivada x ip msk)
    (h' : direccionValida ip' msk') (he : sortKey x.ruta.texto = sortKey (rutaDe ip' msk')) :
    x.clave = sortKey (direccion ip' msk') := by
  rw [h.ruta, sortKey_rutaDe_iff h.valida h'] at he
  rw [FilaDispositivo.clave, h.direccionIP, he]

end Rows

section Runs

variable [Engine]

/-- Every row stands under the path derived from its own address, no two under
one path, and none under the path of an accepted address that is new. -/
structure Encaminada (bd : BD) : Prop where
  derivada : ∀ x ∈ bd.dispositivo, x.ruta.texto = Dispositivo.raiz ++ cambia x.direccionIP.texto
  distinta : ∀ x ∈ bd.dispositivo, ∀ y ∈ bd.dispositivo, x.ruta.texto = y.ruta.texto → x = y
  libre : ∀ ahora a, direccionValida (ipDe a.dirIP) (mskDe a.dirIP) →
    ¬ bd.dispositivo.Has (sortKey (Dispositivo.construct ahora a).direccionIP) →
    ∀ x ∈ bd.dispositivo, sortKey x.ruta.texto ≠ sortKey (Dispositivo.construct ahora a).ruta

theorem encaminada_of_derivadas {bd : BD} (h : Derivadas bd) (hruta : RutaUnica bd.dispositivo) :
    Encaminada bd where
  derivada x hx := by
    obtain ⟨ip, msk, hd⟩ := h x hx
    exact hd.ruta_eq_cambia
  distinta x hx y hy he := hruta x hx y hy (congrArg sortKey he)
  libre ahora a ha hnew x hx he := by
    obtain ⟨ip, msk, hd⟩ := h x hx
    have hclave := hd.clave_of_ruta ha he
    exact hnew ⟨x, hx, hclave⟩

/-- The paths of two accepted addresses are equal exactly when the addresses
are, the last component of each is the name that the monitor computes, and a
run of clean requests keeps the paths in order. -/
theorem rutas_derivadas (s : Servidor) (l : List Solicitud) (hl : ∀ r ∈ l, r.Limpia) :
    (∀ ahora a, direccionValida (ipDe a.dirIP) (mskDe a.dirIP) →
      (∀ ahora' b, direccionValida (ipDe b.dirIP) (mskDe b.dirIP) →
        ((Dispositivo.construct ahora a).ruta = (Dispositivo.construct ahora' b).ruta ↔
          (Dispositivo.construct ahora a).direccionIP =
            (Dispositivo.construct ahora' b).direccionIP)) ∧
      (explode '/' (Dispositivo.construct ahora a).ruta).getLast? =
        some (cambia (Dispositivo.construct ahora a).direccionIP)) ∧
    Encaminada (recorre s l BD.vacia) := by
  refine ⟨fun ahora a ha ↦ ⟨fun ahora' b hb ↦ rutaDe_iff ha hb, basename_rutaDe ha⟩, ?_⟩
  have hderivadas : Derivadas (recorre s l BD.vacia) := by
    refine recorre_preserves hl ?_ derivadas_vacia
    intro r _ f hf bd bd' h hs
    exact derivadas_paso hf h hs
  have hintegra : (recorre s l BD.vacia).Integra := by
    refine recorre_preserves hl ?_ BD.integra_vacia
    intro r _ f hf bd bd' h hs
    have hpaso : f ∈ (Peticion.dispositivo r.argumentos r.oper).pasos r.ahora := hf
    exact integra_pasos hpaso h hs
  exact encaminada_of_derivadas hderivadas hintegra.ruta

end Runs

def altaEquipo (comunidad : String) : Solicitud :=
  ⟨Requests.reloj, { Baselines.equipo with comSNMP := some comunidad.toList }, .insertar⟩

theorem rutas_derivadas_equipo :
    (recorre literales [altaEquipo "public"] BD.vacia).dispositivo.rows.Nonempty ∧
      Encaminada (recorre literales [altaEquipo "public"] BD.vacia) :=
  ⟨by decide +kernel, (rutas_derivadas literales [altaEquipo "public"] (by decide +kernel)).2⟩

theorem not_encaminada {bd : BD}
    (h : ∃ x ∈ bd.dispositivo.rows, x.ruta.texto ≠ Dispositivo.raiz ++ cambia x.direccionIP.texto) :
    ¬ Encaminada bd := by
  intro hall
  obtain ⟨x, hx, hne⟩ := h
  exact hne (hall.derivada x hx)

/-- The community ends its literal and brings a path of its own; the rest of
the statement becomes a comment. -/
theorem rutas_not_derivadas :
    ¬ Encaminada
      (recorre literales [altaEquipo "c','/tmp',1,1,1,1,1,1,1,1,1,1,1,1,1,1,1,1)#"] BD.vacia) := by
  exact not_encaminada (by decide +kernel)

end ServiciosRed.Paths
