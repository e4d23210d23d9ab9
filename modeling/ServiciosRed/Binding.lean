import ServiciosRed.Server

namespace ServiciosRed.Binding

open Text Php Filters MySQL Schema Interleaving Statements Calendar Procedures Server

inductive Columna
  | varchar (n : ℕ) (nulo : Bool)
  | enum (miembros : List String)
  | smallint
  | date
  | timestamp

def enSmallint (z : ℤ) : Prop := -32768 ≤ z ∧ z ≤ 32767

instance (z : ℤ) : Decidable (enSmallint z) := inferInstanceAs (Decidable (_ ∧ _))

def ancho : Literal → ℕ
  | .text s | .real s => s.length
  | .int z => (intText z).length
  | .null => 0

def Columna.Contiene : Columna → Literal → Prop
  | varchar _ nulo, .null => nulo
  | varchar n _, l => ancho l ≤ n
  | enum miembros, .text s => s ∈ miembros.map String.toList
  | smallint, .int z => enSmallint z
  | smallint, .text s => ∃ z, readInt s = some z ∧ enSmallint z
  | date, l => (fecha l).isSome
  | timestamp, l => (marca l).isSome
  | _, _ => False

def columnasLinea : LineaBase Columna Columna Columna :=
  { min_cpu := .varchar 3 true
    max_cpu := .varchar 3 true
    avg_cpu := .varchar 3 true
    min_ram := .varchar 3 true
    max_ram := .varchar 3 true
    avg_ram := .varchar 3 true
    min_hdd := .varchar 3 true
    max_hdd := .varchar 3 true
    avg_hdd := .varchar 3 true
    min_temp := .varchar 4 true
    max_temp := .varchar 4 true
    avg_temp := .varchar 4 true
    min_volt := .varchar 3 true
    max_volt := .varchar 3 true
    avg_volt := .varchar 3 true
    ping_promedio := .varchar 5 true }

def Columna.direccionIP : Columna := .varchar 18 false

def Columna.localEmailContacto : Columna := .varchar 255 false

def Columna.dominioEmailContacto : Columna := .varchar 64 false

def Columna.contrasenia : Columna := .varchar 32 false

def Columna.comunidadSNMP : Columna := .varchar 64 false

def Columna.ruta : Columna := .varchar 255 false

def Columna.valorCapturado : Columna := .varchar 4 false

def Columna.bandera : Columna := .enum (Bandera.miembros.map Prod.fst)

def Columna.tipoDispositivo : Columna := .enum (TipoDispositivo.miembros.map Prod.fst)

def Columna.versionSNMP : Columna := .enum (VersionSNMP.miembros.map Prod.fst)

def Columna.campoMonitorizacion : Columna := .enum (CampoMonitorizacion.miembros.map Prod.fst)

def Columna.tipoValorAnticipacion : Columna := .enum (TipoValorAnticipacion.miembros.map Prod.fst)

def parametros : Procedimiento → List Columna
  | .insertarDispositivo =>
    [.direccionIP, .date, .bandera, .tipoDispositivo, .versionSNMP, .comunidadSNMP, .ruta] ++
      columnasLinea.toList
  | .actualizarDispositivo =>
    [.direccionIP, .bandera, .tipoDispositivo, .versionSNMP, .comunidadSNMP] ++ columnasLinea.toList
  | .eliminarDispositivo => [.direccionIP]
  | .insertarAdministrador =>
    [.localEmailContacto, .dominioEmailContacto, .contrasenia, .date, .bandera]
  | .actualizarAdministrador => [.localEmailContacto, .dominioEmailContacto, .contrasenia, .bandera]
  | .eliminarAdministrador => [.localEmailContacto, .dominioEmailContacto]
  | .insertarPermisosAdministracion | .actualizarPermisosAdministracion =>
    [.localEmailContacto, .dominioEmailContacto, .direccionIP, .bandera]
  | .eliminarPermisosAdministracion => [.localEmailContacto, .dominioEmailContacto, .direccionIP]
  | .insertarRestriccion | .actualizarRestriccion =>
    [.direccionIP, .campoMonitorizacion, .smallint, .tipoValorAnticipacion, .bandera]
  | .eliminarRestriccion => [.direccionIP, .campoMonitorizacion, .smallint, .tipoValorAnticipacion]
  | .insertarBitacoraSucesos =>
    [.direccionIP, .campoMonitorizacion, .smallint, .tipoValorAnticipacion,
      .timestamp, .timestamp, .valorCapturado]
  | .eliminarBitacoraSucesos =>
    [.direccionIP, .campoMonitorizacion, .smallint, .tipoValorAnticipacion, .timestamp, .timestamp]

section Columns

variable {n : ℕ} {s : Texto}

theorem contiene_varchar {nulo : Bool} :
    (Columna.varchar n nulo).Contiene (.text s) ↔ s.length ≤ n := Iff.rfl

theorem contiene_enum {miembros : List String} :
    (Columna.enum miembros).Contiene (.text s) ↔ s ∈ miembros.map String.toList := Iff.rfl

theorem fit_of_length (h : s.length ≤ n) : fit n s = some ⟨s, h⟩ := by
  have hdrop : s.drop n = [] := List.drop_eq_nil_of_le h
  have htake : s.take n = s := List.take_of_length_le h
  simp only [fit, hdrop, List.all_nil, if_true, htake]

theorem varchar_of_contiene {nulo : Bool} {l : Literal} (h : (Columna.varchar n nulo).Contiene l)
    (hl : l ≠ .null) :
    ∃ v, varchar n l = some (some v) := by
  cases l with
  | text s => exact ⟨⟨s, h⟩, by rw [varchar, fit_of_length h]; rfl⟩
  | int z => exact ⟨⟨intText z, h⟩, by rw [varchar, fit_of_length h]; rfl⟩
  | real s => exact ⟨⟨s, h⟩, by rw [varchar, fit_of_length h]; rfl⟩
  | null => exact absurd rfl hl

theorem isSome_varcharNotNull {l : Literal} (h : (Columna.varchar n false).Contiene l) :
    (varcharNotNull n l).isSome := by
  have hl : l ≠ .null := by
    rintro rfl
    exact absurd h Bool.false_ne_true
  obtain ⟨v, hv⟩ := varchar_of_contiene h hl
  rw [varcharNotNull, hv]
  rfl

theorem isSome_varchar {l : Literal} {nulo : Bool} (h : (Columna.varchar n nulo).Contiene l) :
    (varchar n l).isSome := by
  by_cases hl : l = .null
  · rw [hl]
    rfl
  · obtain ⟨v, hv⟩ := varchar_of_contiene h hl
    rw [hv]
    rfl

theorem isSome_toSmallint {z : ℤ} (h : enSmallint z) : (toSmallint z).isSome := by
  simp only [toSmallint, Option.isSome_dite]
  exact h

theorem isSome_enum {α : Type} {members : List (String × α)} {l : Literal}
    (h : (Columna.enum (members.map Prod.fst)).Contiene l) : (enum members l).isSome := by
  cases l with
  | text s =>
    have hfind : (members.find? fun m ↦ m.1.toList = s).isSome := by
      obtain ⟨t, ht, rfl⟩ := List.mem_map.mp h
      obtain ⟨m, hm, rfl⟩ := List.mem_map.mp ht
      exact List.find?_isSome.mpr ⟨m, hm, decide_eq_true rfl⟩
    obtain ⟨m, hm⟩ := Option.isSome_iff_exists.mp hfind
    simp only [enum, named, hm, Option.map_some, Option.orElse_some, Option.isSome_some]
  | int z => exact h.elim
  | real s => exact h.elim
  | null => exact h.elim

theorem isSome_smallint {l : Literal} (h : Columna.smallint.Contiene l) : (smallint l).isSome := by
  cases l with
  | text s =>
    obtain ⟨z, hread, hz⟩ := h
    rw [smallint, hread]
    exact isSome_toSmallint hz
  | int z => exact isSome_toSmallint h
  | real s => exact h.elim
  | null => exact h.elim

theorem valor_of_toSmallint {z : ℤ} {v : Smallint} (h : toSmallint z = some v) : v.valor = z := by
  unfold toSmallint at h
  split_ifs at h
  cases h
  rfl

theorem segundo_of_toMarca {z : ℤ} {m : Marca} (h : toMarca z = some m) : m.segundo = z := by
  unfold toMarca at h
  split_ifs at h
  cases h
  rfl

theorem named_of_enum {α : Type} {members : List (String × α)} {a : α}
    (hs : s ∈ (members.map Prod.fst).map String.toList) (h : enum members (.text s) = some a) :
    named members s = some a := by
  have hsome : (named members s).isSome := by
    obtain ⟨t, ht, rfl⟩ := List.mem_map.mp hs
    obtain ⟨m, hm, rfl⟩ := List.mem_map.mp ht
    simp only [named, Option.isSome_map, List.find?_isSome]
    exact ⟨m, hm, decide_eq_true rfl⟩
  obtain ⟨b, hb⟩ := Option.isSome_iff_exists.mp hsome
  rw [enum, hb] at h
  rw [hb]
  exact h

theorem fit_of_varcharNotNull {v : Varchar n} (h : varcharNotNull n (.text s) = some v) :
    fit n s = some v := by
  rw [varcharNotNull, varchar] at h
  cases hfit : fit n s with
  | none => rw [hfit] at h; cases h
  | some w =>
    rw [hfit] at h
    cases h
    rfl

theorem texto_eq_of_varcharNotNull {t : Texto} {c : Char} {v : Varchar n} (hs : s = t ++ [c])
    (hc : c ≠ ' ') (h : varcharNotNull n (.text s) = some v) : v.texto = s := by
  have hfit := fit_of_varcharNotNull h
  unfold fit at hfit
  split_ifs at hfit with hblank
  cases hfit
  refine List.take_of_length_le ?_
  by_contra hlen
  have hmem : c ∈ s.drop n := by
    rw [hs, List.drop_append_of_le_length
      (by rw [hs, List.length_append, List.length_singleton] at hlen; omega)]
    exact List.mem_append_right _ List.mem_cons_self
  exact hc (of_decide_eq_true (List.all_eq_true.mp hblank c hmem))

theorem linea_of_contiene {ls : List Literal}
    (h : List.Forall₂ Columna.Contiene columnasLinea.toList ls) :
    ∃ l : LineaBase Literal Literal Literal, ls = l.toList ∧ (lineaFila l).isSome := by
  simp only [columnasLinea, LineaBase.toList, List.forall₂_cons_left_iff,
    List.forall₂_nil_left_iff] at h
  obtain ⟨a, _, ha, ⟨b, _, hb, ⟨c, _, hc, ⟨d, _, hd, ⟨e, _, he, ⟨f, _, hf, ⟨g, _, hg, ⟨i, _, hi,
    ⟨j, _, hj, ⟨k, _, hk, ⟨m, _, hm, ⟨o, _, ho, ⟨p, _, hp, ⟨q, _, hq, ⟨r, _, hr, ⟨t, _, ht, rfl,
    rfl⟩, rfl⟩, rfl⟩, rfl⟩, rfl⟩, rfl⟩, rfl⟩, rfl⟩, rfl⟩, rfl⟩, rfl⟩, rfl⟩, rfl⟩, rfl⟩, rfl⟩,
    rfl⟩ := h
  refine ⟨⟨a, b, c, d, e, f, g, i, j, k, m, o, p, q, r, t⟩, rfl, LineaBase.isSome_mapOption ?_⟩
  simp only [LineaBase.All, LineaBase.map, LineaBase.toList, List.forall_mem_cons,
    isSome_varchar ha, isSome_varchar hb, isSome_varchar hc, isSome_varchar hd, isSome_varchar he,
    isSome_varchar hf, isSome_varchar hg, isSome_varchar hi, isSome_varchar hj, isSome_varchar hk,
    isSome_varchar hm, isSome_varchar ho, isSome_varchar hp, isSome_varchar hq, isSome_varchar hr,
    isSome_varchar ht, List.not_mem_nil, false_imp_iff, implies_true, and_self]

theorem isSome_bind {α β : Type} {x : Option α} {f : α → Option β} (hx : x.isSome)
    (hf : ∀ a, (f a).isSome) :
    (x.bind f).isSome := by
  obtain ⟨a, rfl⟩ := Option.isSome_iff_exists.mp hx
  exact hf a

end Columns

variable [Engine]

/-- The server takes the value of an argument for a column as it is. -/
def Columna.Admite (c : Columna) (a : Arg) : Prop := ∃ l, literal a = some l ∧ c.Contiene l

def Admitidos (p : Procedimiento) (args : List Arg) : Prop :=
  List.Forall₂ Columna.Admite (parametros p) args

section Literals

def numero (v : Texto) : Literal := (literalOf (bareTokens v)).getD .null

theorem literal_quoted (v : Texto) : literal (.quoted v) = some (.text v) := rfl

theorem literal_bare (v : Texto) : literal (.bare v) = some (numero v) := by
  have hnumber (s : Texto) : (literalOf (numberTokens s)).isSome := by
    unfold numberTokens
    split <;> rfl
  have hsome : (literalOf (bareTokens v)).isSome := by
    rw [bareTokens]
    split_ifs with h
    · rw [h]
      rfl
    · exact hnumber _
  obtain ⟨l, hl⟩ := Option.isSome_iff_exists.mp hsome
  rw [numero, literal, hl, Option.getD_some]

theorem numero_of_filterValidateInt {v : Texto} {z : ℤ} (h : filterValidateInt v = some z) :
    numero v = .int z := by
  have hv : v ≠ "NULL".toList := by
    rintro rfl
    cases h
  have hdigits : (readSign (trimmed v)).2.all Char.isDigit ∧
      z = signed (readSign (trimmed v)).1 (valueOf (readSign (trimmed v)).2) := by
    simp only [filterValidateInt] at h
    split_ifs at h with hzero hrest
    · rw [hzero]
      refine ⟨rfl, (Option.some.inj h).symm.trans ?_⟩
      cases (readSign (trimmed v)).1 <;> rfl
    · exact ⟨hrest.2.1, (Option.some.inj h).symm⟩
  rw [numero, bareTokens, if_neg hv]
  generalize trimmed v = t at hdigits
  unfold readSign at hdigits
  split at hdigits
  · simp only [numberTokens, literalOf, numberLiteral, hdigits, if_true, Option.getD_some]
  · simp only [numberTokens, literalOf, numberLiteral, hdigits, if_true, Option.getD_some]
  · rename_i hminus hplus
    rw [numberTokens.eq_3 t hplus hminus]
    simp only [literalOf, numberLiteral, hdigits, if_true, Option.getD_some]

theorem sortKey_varcharNotNull {n : ℕ} {s : Texto} {v : Varchar n}
    (h : varcharNotNull n (.text s) = some v) :
    sortKey v.texto = sortKey s := by
  have hfit := fit_of_varcharNotNull h
  unfold fit at hfit
  split_ifs at hfit with hblank
  cases hfit
  have hdrop : ∀ w ∈ ((s.drop n).map Engine.weight).reverse, w = Engine.weight ' ' := by
    intro w hw
    obtain ⟨c, hc, rfl⟩ := List.mem_map.mp (List.mem_reverse.mp hw)
    rw [of_decide_eq_true (List.all_eq_true.mp hblank c hc)]
  have hsplit : s.map Engine.weight = (s.take n).map Engine.weight ++
      (s.drop n).map Engine.weight := by
    rw [← List.map_append, List.take_append_drop]
  simp only [sortKey, List.rdropWhile]
  rw [hsplit, List.reverse_append, List.dropWhile_append_of_pos]
  exact fun w hw ↦ decide_eq_true (hdrop w hw)

theorem ejecuta_cases (p : Procedimiento) {args : List Arg} {ls : List Literal}
    (h : args.mapM literal = some ls) :
    ejecuta p args = rechazada ∨ invoke p ls = some (ejecuta p args) := by
  rw [ejecuta, h, Option.bind_some]
  cases hinvoke : invoke p ls with
  | none => exact Or.inl rfl
  | some pasos => exact Or.inr rfl

theorem ejecuta_of_invoke {p : Procedimiento} {args : List Arg} {ls : List Literal}
    {q : List (Step BD)} (hls : args.mapM literal = some ls) (h : invoke p ls = some q) :
    ejecuta p args = q := by
  rw [ejecuta, hls, Option.bind_some, h, Option.getD_some]

end Literals

section Calls

variable {ls : List Literal} {p : Procedimiento}

theorem isSome_invoke (h : List.Forall₂ Columna.Contiene (parametros p) ls) :
    (invoke p ls).isSome := by
  cases p with
  | insertarDispositivo =>
    match ls, h with
    | _, .cons hip
      (.cons hfecha (.cons hmonit (.cons htipo (.cons hver (.cons hcom (.cons hruta h)))))) =>
      obtain ⟨l, rfl, hl⟩ := linea_of_contiene h
      exact isSome_bind (isSome_varcharNotNull hip) fun _ ↦ isSome_bind hfecha fun _ ↦
        isSome_bind (isSome_enum hmonit) fun _ ↦ isSome_bind (isSome_enum htipo) fun _ ↦
        isSome_bind (isSome_enum hver) fun _ ↦ isSome_bind (isSome_varcharNotNull hcom) fun _ ↦
        isSome_bind (isSome_varcharNotNull hruta) fun _ ↦ isSome_bind hl fun _ ↦ rfl
  | actualizarDispositivo =>
    match ls, h with
    | _, .cons hip (.cons hmonit (.cons htipo (.cons hver (.cons hcom h)))) =>
      obtain ⟨l, rfl, hl⟩ := linea_of_contiene h
      exact isSome_bind (isSome_varcharNotNull hip) fun _ ↦ isSome_bind (isSome_enum hmonit) fun _ ↦
        isSome_bind (isSome_enum htipo) fun _ ↦ isSome_bind (isSome_enum hver) fun _ ↦
        isSome_bind (isSome_varcharNotNull hcom) fun _ ↦ isSome_bind hl fun _ ↦ rfl
  | eliminarDispositivo =>
    match ls, h with
    | _, .cons hip .nil => exact isSome_bind (isSome_varcharNotNull hip) fun _ ↦ rfl
  | insertarAdministrador =>
    match ls, h with
    | _, .cons hlocal (.cons hdominio (.cons hpass (.cons hfecha (.cons hlogueo .nil)))) =>
      exact isSome_bind (isSome_varcharNotNull hlocal) fun _ ↦
        isSome_bind (isSome_varcharNotNull hdominio) fun _ ↦
        isSome_bind (isSome_varcharNotNull hpass) fun _ ↦ isSome_bind hfecha fun _ ↦
        isSome_bind (isSome_enum hlogueo) fun _ ↦ rfl
  | actualizarAdministrador =>
    match ls, h with
    | _, .cons hlocal (.cons hdominio (.cons hpass (.cons hlogueo .nil))) =>
      exact isSome_bind (isSome_varcharNotNull hlocal) fun _ ↦
        isSome_bind (isSome_varcharNotNull hdominio) fun _ ↦
        isSome_bind (isSome_varcharNotNull hpass) fun _ ↦ isSome_bind (isSome_enum hlogueo) fun _ ↦
          rfl
  | eliminarAdministrador =>
    match ls, h with
    | _, .cons hlocal (.cons hdominio .nil) =>
      exact isSome_bind (isSome_varcharNotNull hlocal) fun _ ↦
        isSome_bind (isSome_varcharNotNull hdominio) fun _ ↦ rfl
  | insertarPermisosAdministracion =>
    match ls, h with
    | _, .cons hlocal (.cons hdominio (.cons hip (.cons hpermiso .nil))) =>
      exact isSome_bind (isSome_varcharNotNull hip) fun _ ↦
        isSome_bind (isSome_varcharNotNull hlocal) fun _ ↦
        isSome_bind (isSome_varcharNotNull hdominio) fun _ ↦
          isSome_bind (isSome_enum hpermiso) fun _ ↦ rfl
  | actualizarPermisosAdministracion =>
    match ls, h with
    | _, .cons hlocal (.cons hdominio (.cons hip (.cons hpermiso .nil))) =>
      exact isSome_bind (isSome_varcharNotNull hip) fun _ ↦
        isSome_bind (isSome_varcharNotNull hlocal) fun _ ↦
        isSome_bind (isSome_varcharNotNull hdominio) fun _ ↦
          isSome_bind (isSome_enum hpermiso) fun _ ↦ rfl
  | eliminarPermisosAdministracion =>
    match ls, h with
    | _, .cons hlocal (.cons hdominio (.cons hip .nil)) =>
      exact isSome_bind (isSome_varcharNotNull hip) fun _ ↦
        isSome_bind (isSome_varcharNotNull hlocal) fun _ ↦
        isSome_bind (isSome_varcharNotNull hdominio) fun _ ↦ rfl
  | insertarRestriccion =>
    match ls, h with
    | _, .cons hip (.cons hcampo (.cons hvalor (.cons htipo (.cons halerta .nil)))) =>
      exact isSome_bind (isSome_varcharNotNull hip) fun _ ↦ isSome_bind (isSome_enum hcampo) fun _ ↦
        isSome_bind (isSome_smallint hvalor) fun _ ↦ isSome_bind (isSome_enum htipo) fun _ ↦
        isSome_bind (isSome_enum halerta) fun _ ↦ rfl
  | actualizarRestriccion =>
    match ls, h with
    | _, .cons hip (.cons hcampo (.cons hvalor (.cons htipo (.cons halerta .nil)))) =>
      exact isSome_bind (isSome_varcharNotNull hip) fun _ ↦ isSome_bind (isSome_enum hcampo) fun _ ↦
        isSome_bind (isSome_smallint hvalor) fun _ ↦ isSome_bind (isSome_enum htipo) fun _ ↦
        isSome_bind (isSome_enum halerta) fun _ ↦ rfl
  | eliminarRestriccion =>
    match ls, h with
    | _, .cons hip (.cons hcampo (.cons hvalor (.cons htipo .nil))) =>
      exact isSome_bind (isSome_varcharNotNull hip) fun _ ↦ isSome_bind (isSome_enum hcampo) fun _ ↦
        isSome_bind (isSome_smallint hvalor) fun _ ↦ isSome_bind (isSome_enum htipo) fun _ ↦ rfl
  | insertarBitacoraSucesos =>
    match ls, h with
    | _, .cons hip
      (.cons hcampo (.cons hvalor (.cons htipo (.cons hsuceso (.cons hpred (.cons hcap .nil)))))) =>
      exact isSome_bind (isSome_varcharNotNull hip) fun _ ↦ isSome_bind (isSome_enum hcampo) fun _ ↦
        isSome_bind (isSome_smallint hvalor) fun _ ↦ isSome_bind (isSome_enum htipo) fun _ ↦
        isSome_bind hsuceso fun _ ↦ isSome_bind hpred fun _ ↦
        isSome_bind (isSome_varcharNotNull hcap) fun _ ↦ rfl
  | eliminarBitacoraSucesos =>
    match ls, h with
    | _, .cons hip (.cons hcampo (.cons hvalor (.cons htipo (.cons hsuceso (.cons hpred .nil))))) =>
      exact isSome_bind (isSome_varcharNotNull hip) fun _ ↦ isSome_bind (isSome_enum hcampo) fun _ ↦
        isSome_bind (isSome_smallint hvalor) fun _ ↦ isSome_bind (isSome_enum htipo) fun _ ↦
        isSome_bind hsuceso fun _ ↦ isSome_bind hpred fun _ ↦ rfl

structure Fila (ip f monit tipo ver com ruta : Literal) (l : LineaBase Literal Literal Literal)
    (x : FilaDispositivo) : Prop where
  direccionIP : varcharNotNull 18 ip = some x.direccionIP
  fechaRegistroHost : fecha f = some x.fechaRegistroHost
  monitorizacionActiva : Server.bandera monit = some x.monitorizacionActiva
  tipoDispositivo : Server.tipoDispositivo tipo = some x.tipoDispositivo
  versionSNMP : Server.versionSNMP ver = some x.versionSNMP
  comunidadSNMP : varcharNotNull 64 com = some x.comunidadSNMP
  ruta : varcharNotNull 255 ruta = some x.ruta
  linea : lineaFila l = some x.linea

theorem invoke_insertarDispositivo {ip f monit tipo ver com ruta : Literal}
    {l : LineaBase Literal Literal Literal} {pasos : List (Step BD)} :
    invoke .insertarDispositivo ([ip, f, monit, tipo, ver, com, ruta] ++ l.toList) = some pasos ↔
      ∃ x, Fila ip f monit tipo ver com ruta l x ∧ pasos = [insertDispositivo x] := by
  unfold invoke
  simp only [LineaBase.toList, List.cons_append, List.nil_append, Option.pure_def,
    Option.bind_eq_bind, Option.bind_eq_some_iff, Option.some.injEq]
  constructor
  · rintro ⟨i, hi, g, hg, m, hm, t, ht, v, hv, c, hc, r, hr, b, hb, rfl⟩
    exact ⟨⟨i, g, m, t, v, c, r, b⟩, ⟨hi, hg, hm, ht, hv, hc, hr, hb⟩, rfl⟩
  · rintro ⟨x, ⟨hi, hg, hm, ht, hv, hc, hr, hb⟩, rfl⟩
    exact ⟨_, hi, _, hg, _, hm, _, ht, _, hv, _, hc, _, hr, _, hb, rfl⟩

theorem invoke_actualizarDispositivo {ip monit tipo ver com : Literal}
    {l : LineaBase Literal Literal Literal} {pasos : List (Step BD)} :
    invoke .actualizarDispositivo ([ip, monit, tipo, ver, com] ++ l.toList) = some pasos ↔
      ∃ i m t v c b, varcharNotNull 18 ip = some i ∧ Server.bandera monit = some m ∧
        Server.tipoDispositivo tipo = some t ∧ Server.versionSNMP ver = some v ∧
        varcharNotNull 64 com = some c ∧ lineaFila l = some b ∧
        pasos = [updateDispositivo (sortKey i.texto) (setDispositivo m t v c b)] := by
  unfold invoke
  simp only [LineaBase.toList, List.cons_append, List.nil_append, Option.pure_def,
    Option.bind_eq_bind, Option.bind_eq_some_iff, Option.some.injEq]
  constructor
  · rintro ⟨i, hi, m, hm, t, ht, v, hv, c, hc, b, hb, rfl⟩
    exact ⟨i, m, t, v, c, b, hi, hm, ht, hv, hc, hb, rfl⟩
  · rintro ⟨i, m, t, v, c, b, hi, hm, ht, hv, hc, hb, rfl⟩
    exact ⟨i, hi, m, hm, t, ht, v, hv, c, hc, b, hb, rfl⟩

section Procedures

variable {q : List (Step BD)}

theorem invoke_eliminarDispositivo {ip : Literal} : invoke .eliminarDispositivo [ip] = some q ↔
    ∃ i, varcharNotNull 18 ip = some i ∧ eliminarDispositivo i = q := by
  unfold invoke
  simp only [Option.pure_def, Option.bind_eq_bind, Option.bind_eq_some_iff, Option.some.injEq]

section Administrador

variable {l d c f m : Literal}

theorem invoke_insertarAdministrador : invoke .insertarAdministrador [l, d, c, f, m] = some q ↔
    ∃ l', varcharNotNull 255 l = some l' ∧ ∃ d', varcharNotNull 64 d = some d' ∧
    ∃ c', varcharNotNull 32 c = some c' ∧
      ∃ f', fecha f = some f' ∧ ∃ m', bandera m = some m' ∧
      insertarAdministrador l' d' c' f' m' = q := by
  unfold invoke
  simp only [Option.pure_def, Option.bind_eq_bind, Option.bind_eq_some_iff, Option.some.injEq]

theorem invoke_actualizarAdministrador : invoke .actualizarAdministrador [l, d, c, m] = some q ↔
    ∃ l', varcharNotNull 255 l = some l' ∧ ∃ d', varcharNotNull 64 d = some d' ∧
    ∃ c', varcharNotNull 32 c = some c' ∧
      ∃ m', bandera m = some m' ∧ actualizarAdministrador l' d' c' m' = q := by
  unfold invoke
  simp only [Option.pure_def, Option.bind_eq_bind, Option.bind_eq_some_iff, Option.some.injEq]

theorem invoke_eliminarAdministrador : invoke .eliminarAdministrador [l, d] = some q ↔
    ∃ l', varcharNotNull 255 l = some l' ∧ ∃ d', varcharNotNull 64 d = some d' ∧
    eliminarAdministrador l' d' = q := by
  unfold invoke
  simp only [Option.pure_def, Option.bind_eq_bind, Option.bind_eq_some_iff, Option.some.injEq]

end Administrador

section Permiso

variable {l d ip m : Literal}

theorem invoke_insertarPermisos : invoke .insertarPermisosAdministracion [l, d, ip, m] = some q ↔
    ∃ i, varcharNotNull 18 ip = some i ∧ ∃ l', varcharNotNull 255 l = some l' ∧
    ∃ d', varcharNotNull 64 d = some d' ∧
      ∃ m', bandera m = some m' ∧ insertarPermisosAdministracion i l' d' m' = q := by
  unfold invoke
  simp only [Option.pure_def, Option.bind_eq_bind, Option.bind_eq_some_iff, Option.some.injEq]

theorem invoke_actualizarPermisos :
    invoke .actualizarPermisosAdministracion [l, d, ip, m] = some q ↔ ∃ i, varcharNotNull 18 ip =
      some i ∧ ∃ l', varcharNotNull 255 l = some l' ∧ ∃ d', varcharNotNull 64 d = some d' ∧
      ∃ m', bandera m = some m' ∧ actualizarPermisosAdministracion i l' d' m' = q := by
  unfold invoke
  simp only [Option.pure_def, Option.bind_eq_bind, Option.bind_eq_some_iff, Option.some.injEq]

theorem invoke_eliminarPermisos : invoke .eliminarPermisosAdministracion [l, d, ip] = some q ↔
    ∃ i, varcharNotNull 18 ip = some i ∧ ∃ l', varcharNotNull 255 l = some l' ∧
    ∃ d', varcharNotNull 64 d = some d' ∧
      eliminarPermisosAdministracion i l' d' = q := by
  unfold invoke
  simp only [Option.pure_def, Option.bind_eq_bind, Option.bind_eq_some_iff, Option.some.injEq]

end Permiso

section Restriccion

variable {ip campo valor tipo alerta suceso prediccion captura : Literal}

theorem invoke_insertarRestriccion :
    invoke .insertarRestriccion [ip, campo, valor, tipo, alerta] = some q ↔ ∃ i, varcharNotNull 18
      ip = some i ∧ ∃ c, campoMonitorizacion campo = some c ∧ ∃ v, smallint valor = some v ∧
        ∃ t, tipoValorAnticipacion tipo = some t ∧ ∃ m, bandera alerta = some m ∧
        insertarRestriccion i c v t m = q := by
  unfold invoke
  simp only [Option.pure_def, Option.bind_eq_bind, Option.bind_eq_some_iff, Option.some.injEq]

theorem invoke_actualizarRestriccion :
    invoke .actualizarRestriccion [ip, campo, valor, tipo, alerta] = some q ↔ ∃ i, varcharNotNull 18
      ip = some i ∧ ∃ c, campoMonitorizacion campo = some c ∧ ∃ v, smallint valor = some v ∧
        ∃ t, tipoValorAnticipacion tipo = some t ∧ ∃ m, bandera alerta = some m ∧
        actualizarRestriccion i c v t m = q := by
  unfold invoke
  simp only [Option.pure_def, Option.bind_eq_bind, Option.bind_eq_some_iff, Option.some.injEq]

theorem invoke_eliminarRestriccion : invoke .eliminarRestriccion [ip, campo, valor, tipo] = some q ↔
    ∃ i, varcharNotNull 18 ip = some i ∧ ∃ c, campoMonitorizacion campo = some c ∧
    ∃ v, smallint valor = some v ∧
      ∃ t, tipoValorAnticipacion tipo = some t ∧ eliminarRestriccion i c v t = q := by
  unfold invoke
  simp only [Option.pure_def, Option.bind_eq_bind, Option.bind_eq_some_iff, Option.some.injEq]

theorem invoke_insertarBitacora :
    invoke .insertarBitacoraSucesos [ip, campo, valor, tipo, suceso, prediccion, captura] = some q ↔
      ∃ i, varcharNotNull 18 ip = some i ∧ ∃ c, campoMonitorizacion campo = some c ∧
      ∃ v, smallint valor = some v ∧
        ∃ t, tipoValorAnticipacion tipo = some t ∧ ∃ s, marca suceso = some s ∧
        ∃ p, marca prediccion = some p ∧
          ∃ x, varcharNotNull 4 captura = some x ∧ insertarBitacoraSucesos i c v t s p x = q := by
  unfold invoke
  simp only [Option.pure_def, Option.bind_eq_bind, Option.bind_eq_some_iff, Option.some.injEq]

theorem invoke_eliminarBitacora :
    invoke .eliminarBitacoraSucesos [ip, campo, valor, tipo, suceso, prediccion] = some q ↔
      ∃ i, varcharNotNull 18 ip = some i ∧ ∃ c, campoMonitorizacion campo = some c ∧
      ∃ v, smallint valor = some v ∧
        ∃ t, tipoValorAnticipacion tipo = some t ∧ ∃ s, marca suceso = some s ∧
        ∃ p, marca prediccion = some p ∧
          eliminarBitacoraSucesos i c v t s p = q := by
  unfold invoke
  simp only [Option.pure_def, Option.bind_eq_bind, Option.bind_eq_some_iff, Option.some.injEq]

end Restriccion

end Procedures

theorem mapM_of_admite {cs : List Columna} {args : List Arg}
    (h : List.Forall₂ Columna.Admite cs args) :
    ∃ ls, args.mapM literal = some ls ∧ List.Forall₂ Columna.Contiene cs ls := by
  induction h with
  | nil => exact ⟨[], rfl, .nil⟩
  | cons hc _ ih =>
    obtain ⟨l, hl, hcontiene⟩ := hc
    obtain ⟨ls, hls, hall⟩ := ih
    refine ⟨l :: ls, ?_, .cons hcontiene hall⟩
    rw [List.mapM_cons, hl, hls]
    rfl

/-- A call whose arguments the columns admit has the server execute its procedure. -/
theorem ejecuta_of_admitidos {args : List Arg} (h : Admitidos p args) :
    ∃ ls, args.mapM literal = some ls ∧ invoke p ls = some (ejecuta p args) := by
  obtain ⟨ls, hls, hall⟩ := mapM_of_admite h
  obtain ⟨pasos, hpasos⟩ := Option.isSome_iff_exists.mp (isSome_invoke hall)
  refine ⟨ls, hls, ?_⟩
  rw [ejecuta, hls, Option.bind_some, hpasos, Option.getD_some]

end Calls

end ServiciosRed.Binding
