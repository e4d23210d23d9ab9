import ServiciosRed.Queries
import ServiciosRed.Programs

namespace ServiciosRed.Execution

open Text Php Lexer MySQL Relational Schema Calendar Interleaving Statements Fields Procedures
  Server Binding Programs
  Requests Queries

section Calls

variable [Engine]

/-- What the server does with the tokens of a statement. Of a call with one
literal for each argument it is known. -/
structure Servidor where
  ejecuta : List Token → List (Step BD)
  llamada : ∀ p args, ∀ fin ∈ [")", ");"], ejecuta (call p args fin).tokens = Server.ejecuta p args

/-- `mysqli_query` -/
def Servidor.query (s : Servidor) (consulta : Texto) : List (Step BD) :=
  match lex consulta with
  | some ts => s.ejecuta ts
  | none => rechazada

variable {s : Servidor}

theorem Servidor.query_call {p : Procedimiento} {args : List Arg} {fin : String}
    (hfin : fin ∈ [")", ");"]) (h : Faithful (call p args fin)) :
    s.query (call p args fin).text = Server.ejecuta p args := by
  rw [query, h]
  exact s.llamada p args fin hfin

end Calls

section Literals

/-- The parts of an argument list between its commas, up to the bracket that
ends the statement. -/
def separa : List Token → List (List Token)
  | [] => []
  | [.symbol ')'] | [.symbol ')', .symbol ';'] => [[]]
  | .symbol ',' :: ts => [] :: separa ts
  | t :: ts =>
    match separa ts with
    | [] => []
    | l :: ls => (t :: l) :: ls

def procedimientos : List Procedimiento :=
  [.insertarDispositivo, .actualizarDispositivo, .eliminarDispositivo, .insertarAdministrador,
    .actualizarAdministrador, .eliminarAdministrador, .insertarPermisosAdministracion,
    .actualizarPermisosAdministracion, .eliminarPermisosAdministracion, .insertarRestriccion,
    .actualizarRestriccion, .eliminarRestriccion, .insertarBitacoraSucesos,
    .eliminarBitacoraSucesos]

def procedimientoDe (nombre : Texto) : Option Procedimiento :=
  procedimientos.find? fun p ↦ p.nombre.toList = nombre

theorem nombre_injective {p q : Procedimiento} (h : p.nombre = q.nombre) : p = q := by
  cases p <;> cases q <;> first | rfl | exact absurd h (by decide)

theorem procedimientoDe_nombre (p : Procedimiento) : procedimientoDe p.nombre.toList = some p := by
  have hmem : p ∈ procedimientos := by
    cases p <;> decide
  cases h : procedimientoDe p.nombre.toList with
  | none => exact absurd (decide_eq_true rfl) (List.find?_eq_none.mp h p hmem)
  | some q =>
    rw [procedimientoDe] at h
    have hfound := List.find?_some h
    exact congrArg some (nombre_injective (String.toList_inj.mp (of_decide_eq_true hfound)))

def Inside (t : Token) : Prop := t ≠ .symbol ',' ∧ t ≠ .symbol ')'

theorem inside_number (s : Texto) : ∀ t ∈ numberTokens s, Inside t := by
  unfold numberTokens
  split <;> simp [Inside]

theorem Arg.inside (a : Arg) : ∀ t ∈ a.tokens, Inside t := by
  cases a with
  | quoted v => simp [Arg.tokens, Inside]
  | bare v =>
    simp only [Arg.tokens, bareTokens]
    split_ifs
    · simp [Inside]
    · exact inside_number _

theorem separa_inside {t : Token} (h : Inside t) (ts : List Token) :
    separa (t :: ts) = match separa ts with
      | [] => []
      | l :: ls => (t :: l) :: ls := by
  rw [separa.eq_def]
  split
  · rename_i he
    cases he
  · rename_i he
    exact absurd (List.cons.inj he).1 h.2
  · rename_i he
    exact absurd (List.cons.inj he).1 h.2
  · rename_i he
    exact absurd (List.cons.inj he).1 h.1
  · rename_i he
    obtain ⟨rfl, rfl⟩ := List.cons.inj he
    rfl

theorem separa_cons {t : Token} (h : Inside t) {ts : List Token} {l : List Token}
    {ls : List (List Token)} (hts : separa ts = l :: ls) : separa (t :: ts) = (t :: l) :: ls := by
  rw [separa_inside h, hts]

theorem separa_append {ts us l : List Token} {ls : List (List Token)} (h : ∀ t ∈ ts, Inside t)
    (hus : separa us = l :: ls) : separa (ts ++ us) = (ts ++ l) :: ls := by
  induction ts with
  | nil => exact hus
  | cons t ts ih =>
    have hrest := ih (fun u hu ↦ h u (List.mem_cons_of_mem t hu))
    exact separa_cons (h t List.mem_cons_self) hrest

theorem tokens_call (p : Procedimiento) (args : List Arg) (fin : String) :
    (call p args fin).tokens = .word "CALL".toList :: .word p.nombre.toList :: .symbol '(' ::
      Statement.partsTokens (call p args fin).parts := by
  rw [Statement.tokens]
  cases p <;> rfl

theorem parts_call_cons (p : Procedimiento) (a b : Arg) (args : List Arg) (fin : String) :
    (call p (a :: b :: args) fin).parts = (a, [',']) :: (call p (b :: args) fin).parts := rfl

theorem separa_parts (p : Procedimiento) (a : Arg) (args : List Arg) {fin : String}
    (hfin : fin ∈ [")", ");"]) :
    separa (Statement.partsTokens (call p (a :: args) fin).parts) = (a :: args).map Arg.tokens := by
  induction args generalizing a with
  | nil =>
    have hend : separa (Statement.fixedTokens fin.toList ++ Statement.partsTokens []) = [[]] := by
      simp only [List.mem_cons, List.not_mem_nil, or_false] at hfin
      rcases hfin with rfl | rfl <;> rfl
    have hparts : (call p [a] fin).parts = [(a, fin.toList)] := rfl
    rw [hparts, partsTokens_cons, separa_append (Arg.inside a) hend, List.append_nil]
    rfl
  | cons b args ih =>
    have hcomma : separa (Statement.fixedTokens [','] ++
      Statement.partsTokens (call p (b :: args) fin).parts) =
        [] :: (b :: args).map Arg.tokens := congrArg ([] :: ·) (ih b)
    rw [parts_call_cons, partsTokens_cons, separa_append (Arg.inside a) hcomma, List.append_nil]
    rfl

variable [Engine]

/-- A call is executed when every argument is a literal; other expressions are refused. -/
def ejecutaLiterales : List Token → List (Step BD)
  | .word c :: .word nombre :: .symbol '(' :: ts =>
    if c = "CALL".toList then
      ((procedimientoDe nombre).bind fun p ↦
        ((separa ts).mapM literalOf).bind (invoke p)).getD rechazada
    else rechazada
  | _ => rechazada

theorem mapM_literalOf (args : List Arg) :
    (args.map Arg.tokens).mapM literalOf = args.mapM literal := by
  induction args with
  | nil => rfl
  | cons a args ih =>
    have ha : literalOf a.tokens = literal a := by cases a <;> rfl
    rw [List.map_cons, List.mapM_cons, List.mapM_cons, ih, ha]

def literales : Servidor where
  ejecuta := ejecutaLiterales
  llamada p args fin hfin := by
    rw [tokens_call, ejecutaLiterales, if_pos rfl, procedimientoDe_nombre, Option.bind_some,
      Server.ejecuta]
    cases args with
    | nil => cases p <;> rfl
    | cons a args => rw [separa_parts p a args hfin, mapM_literalOf]

end Literals

section Dispositivo

variable [Engine]

/-- The steps of a request of `Dispositivo`, from the texts that it sends. The
address in the SELECT is read as it is. -/
def envia (s : Servidor) (d : Dispositivo) (oper : Operacion) : List (Step BD) :=
  if d.validarCamposDispositivo oper then
    match oper with
    | .insertar =>
      noExisteDispositivo d.direccionIP ::
        s.query (call .insertarDispositivo d.argumentosInsertar ")").text
    | .actualizar =>
      existeDispositivo d.direccionIP ::
        s.query (call .actualizarDispositivo d.argumentosActualizar ")").text
    | .eliminar =>
      existeDispositivo d.direccionIP ::
        s.query (call .eliminarDispositivo d.argumentosEliminar ");").text
    | .otra => rechazada
  else rechazada

theorem envia_eq_pasos {ahora : Reloj} {a : Dispositivo.Argumentos} {oper : Operacion}
    {s : Servidor} (h : (Peticion.dispositivo a oper).Limpia) :
    envia s (Dispositivo.construct ahora a) oper = (Dispositivo.construct ahora a).pasos oper := by
  by_cases hv : (Dispositivo.construct ahora a).validarCamposDispositivo oper
  · have hfaithful := (dispositivo_iff hv).mpr h
    unfold envia Dispositivo.pasos
    rw [if_pos hv, if_pos hv]
    cases oper with
    | otra => rfl
    | _ =>
      simp only [Dispositivo.consultas, List.forall_mem_cons] at hfaithful
      exact congrArg _ (Servidor.query_call (by decide) hfaithful.2.1)
  · unfold envia Dispositivo.pasos
    rw [if_neg hv, if_neg hv]

structure CambioDe (d : Dispositivo) (m : Bandera) (t : TipoDispositivo) (v : VersionSNMP)
    (c : Varchar 64) (b : LineaFila) : Prop where
  monitorizacionActiva : Server.bandera (.text (strval d.monitorizacionActiva)) = some m
  tipoDispositivo : Server.tipoDispositivo (.text (strval d.tipoDispositivo)) = some t
  versionSNMP : Server.versionSNMP (.text (strval d.versionSNMP)) = some v
  comunidadSNMP : varcharNotNull 64 (.text (strval d.comunidadSNMP)) = some c
  linea : lineaFila (numeros d.linea) = some b

theorem ejecuta_insertar {d : Dispositivo} {x : FilaDispositivo} (h : FilaDe d x) :
    ejecuta .insertarDispositivo d.argumentosInsertar = [insertDispositivo x] := by
  apply ejecuta_of_invoke (literales_insertar d)
  exact invoke_insertarDispositivo.mpr ⟨x, h, rfl⟩

theorem ejecuta_actualizar {d : Dispositivo} {ip : Varchar 18} {m : Bandera} {t : TipoDispositivo}
    {v : VersionSNMP} {c : Varchar 64} {b : LineaFila}
    (hip : varcharNotNull 18 (.text d.direccionIP) = some ip)
    (h : CambioDe d m t v c b) : ejecuta .actualizarDispositivo d.argumentosActualizar =
      [updateDispositivo (sortKey d.direccionIP) (setDispositivo m t v c b)] := by
  have hinvoke := invoke_actualizarDispositivo.mpr ⟨ip, m, t, v, c, b, hip, h.monitorizacionActiva,
    h.tipoDispositivo, h.versionSNMP, h.comunidadSNMP, h.linea, rfl⟩
  rw [ejecuta_of_invoke (literales_actualizar d) hinvoke, sortKey_varcharNotNull hip]

theorem pasos_insertar {d : Dispositivo} {x : FilaDispositivo} (hd : d.Valido) (h : FilaDe d x) :
    d.pasos .insertar = [noExisteDispositivo d.direccionIP, insertDispositivo x] := by
  have hvalida : d.validarCamposDispositivo .insertar :=
    Dispositivo.validarCamposDispositivo_iff.mpr hd
  rw [Dispositivo.pasos, if_pos hvalida, ejecuta_insertar h]

inductive Hace (d : Dispositivo) : Operacion → List (Step BD) → Prop
  | rechaza (oper : Operacion) {gs : List (Step BD)} (h : ∀ g ∈ gs, Mira g) :
    Hace d oper (gs ++ rechazada)
  | inserta {x : FilaDispositivo} (hd : d.Valido) (h : FilaDe d x) :
      Hace d .insertar [noExisteDispositivo d.direccionIP, insertDispositivo x]
  | actualiza {m : Bandera} {t : TipoDispositivo} {v : VersionSNMP} {c : Varchar 64} {b : LineaFila}
      (hd : d.Valido) (h : CambioDe d m t v c b) :
      Hace d .actualizar [existeDispositivo d.direccionIP,
        updateDispositivo (sortKey d.direccionIP) (setDispositivo m t v c b)]
  | elimina {ip : Varchar 18} (hd : direccionValida d.ip d.msk)
      (h : varcharNotNull 18 (.text d.direccionIP) = some ip) :
      Hace d .eliminar (existeDispositivo d.direccionIP :: eliminarDispositivo ip)

theorem hace_pasos (d : Dispositivo) (oper : Operacion) : Hace d oper (d.pasos oper) := by
  by_cases h : d.validarCamposDispositivo oper
  · have hvalido := Dispositivo.validarCamposDispositivo_iff.mp h
    by_cases hpide : ∃ P, PideDispositivo d oper P
    · obtain ⟨P, hP⟩ := hpide
      rw [pasos_dispositivo h hP]
      cases hP with
      | @alta x hx =>
        have hpasos : (Programa.altaDispositivo x).pasos =
            [noExisteDispositivo d.direccionIP, insertDispositivo x] := by
          rw [noExisteDispositivo_eq, ← hx.clave]
          rfl
        rw [hpasos]
        exact .inserta hvalido hx
      | @cambio ip m t v c b hip hm ht hv hc hb =>
        have hpasos : (Programa.cambioDispositivo (sortKey ip.texto) (setDispositivo m t v c b)
          (fun _ ↦ rfl)).pasos =
            [existeDispositivo d.direccionIP,
              updateDispositivo (sortKey d.direccionIP) (setDispositivo m t v c b)] := by
          rw [existeDispositivo_eq, ← sortKey_varcharNotNull hip]
          rfl
        rw [hpasos]
        exact .actualiza hvalido ⟨hm, ht, hv, hc, hb⟩
      | @baja ip hip =>
        have hpasos : (Programa.baja (.dispositivo ip)).pasos =
            existeDispositivo d.direccionIP :: eliminarDispositivo ip := by
          rw [existeDispositivo_eq, ← sortKey_varcharNotNull hip]
          rfl
        rw [hpasos]
        exact .elimina hvalido hip
    · obtain ⟨gs, hgs, hpasos⟩ := rechaza_dispositivo h (fun P hP ↦ hpide ⟨P, hP⟩)
      rw [hpasos]
      exact .rechaza oper hgs
  · have hpasos : d.pasos oper = [] ++ rechazada := if_neg h
    rw [hpasos]
    exact .rechaza oper (fun _ hg ↦ absurd hg List.not_mem_nil)

theorem Hace.mem_dispositivo {d : Dispositivo} {oper : Operacion} {pasos : List (Step BD)}
    (h : Hace d oper pasos) {f : Step BD} (hf : f ∈ pasos) {bd bd' : BD} (hs : f bd = some bd')
    {x : FilaDispositivo}
    (hx : x ∈ bd'.dispositivo) :
    (∃ y ∈ bd.dispositivo, y.direccionIP = x.direccionIP ∧ y.ruta = x.ruta) ∨ d.Valido ∧
      FilaDe d x := by
  have hsame {f : Step BD} (hf : Mira f) (hs : f bd = some bd') :
      ∃ y ∈ bd.dispositivo, y.direccionIP = x.direccionIP ∧ y.ruta = x.ruta := by
    rw [hf bd bd' hs] at hx
    exact ⟨x, hx, rfl, rfl⟩
  cases h with
  | rechaza oper hgs =>
    rcases List.mem_append.mp hf with hf | hf
    · exact Or.inl (hsame (hgs f hf) hs)
    · rw [List.mem_singleton.mp hf] at hs
      cases hs
  | inserta hd h =>
    rcases List.mem_pair.mp hf with rfl | rfl
    · exact Or.inl (hsame mira_guard hs)
    · obtain ⟨-, T, hT, rfl⟩ := insertDispositivo_cases hs
      rcases (Table.mem_insert? hT).mp hx with rfl | hx
      · exact Or.inr ⟨hd, h⟩
      · exact Or.inl ⟨x, hx, rfl, rfl⟩
  | actualiza hd h =>
    rcases List.mem_pair.mp hf with rfl | rfl
    · exact Or.inl (hsame mira_guard hs)
    · cases hs
      obtain ⟨y, hy, hxy⟩ := (Table.mem_modify _ _ _ x).mp hx
      refine Or.inl ⟨y, hy, ?_⟩
      rw [← hxy]
      split_ifs <;> exact ⟨rfl, rfl⟩
  | elimina hd h =>
    refine Or.inl ⟨x, ?_, rfl, rfl⟩
    rcases List.mem_cons.mp hf with rfl | hf
    · rw [mira_guard bd bd' hs] at hx
      exact hx
    · simp only [eliminarDispositivo, List.mem_cons, List.not_mem_nil, or_false] at hf
      rcases hf with rfl | rfl | rfl | rfl
      · cases hs
        exact hx
      · obtain ⟨-, rfl⟩ := Option.ite_some_none_eq_some.mp hs
        exact hx
      · cases hs
        exact hx
      · obtain ⟨-, rfl⟩ := Option.ite_some_none_eq_some.mp hs
        exact ((Table.mem_deleteWhere _ _ x).mp hx).1

structure Solicitud where
  ahora : Reloj
  argumentos : Dispositivo.Argumentos
  oper : Operacion

def Solicitud.Limpia (r : Solicitud) : Prop := (Peticion.dispositivo r.argumentos r.oper).Limpia

instance : DecidablePred Solicitud.Limpia := fun r ↦
  inferInstanceAs (Decidable (Peticion.dispositivo r.argumentos r.oper).Limpia)

def atiende (s : Servidor) (bd : BD) (r : Solicitud) : BD :=
  (solo (envia s (Dispositivo.construct r.ahora r.argumentos) r.oper) bd).1

def recorre (s : Servidor) (l : List Solicitud) (bd : BD) : BD := l.foldl (atiende s) bd

variable {s : Servidor}

/-- What every step of a clean request keeps, a run of clean requests keeps. -/
theorem recorre_preserves {P : BD → Prop} {l : List Solicitud} (hl : ∀ r ∈ l, r.Limpia)
    (hP : ∀ r ∈ l, ∀ f ∈ (Dispositivo.construct r.ahora r.argumentos).pasos r.oper, ∀ bd bd', P bd →
      f bd = some bd' → P bd') {bd : BD} (h : P bd) : P (recorre s l bd) := by
  induction l generalizing bd with
  | nil => exact h
  | cons r l ih =>
    have hatiende : P (atiende s bd r) := by
      rw [atiende, envia_eq_pasos (hl r List.mem_cons_self)]
      exact solo_preserves (hP r List.mem_cons_self) h
    exact ih (fun q hq ↦ hl q (List.mem_cons_of_mem r hq))
      (fun q hq ↦ hP q (List.mem_cons_of_mem r hq)) hatiende

end Dispositivo

end ServiciosRed.Execution
