import ServiciosRed.Domains
import ServiciosRed.Execution
import ServiciosRed.Baselines

namespace ServiciosRed.Fidelity

open Text Php Filters Lexer MySQL Relational Schema Calendar Interleaving Statements Procedures
  Fields Server Binding
  Programs Queries Requests Domains Execution Baselines
  Statement

section Columns

/-- The column of a whole number is NULL for the argument NULL, or has the digits of the
argument. -/
def GuardaEntero (v : Valor) (c : Option Texto) : Prop :=
  v = some "NULL".toList ∧ c = none ∨ ∃ z, filterValidateInt (strval v) = some z ∧
    c = some (intText z)

variable [Engine]

/-- The column of the ping time has what the server makes of the argument. -/
def GuardaNumero (v : Valor) (c : Option (Varchar 5)) : Prop :=
  varchar 5 (numero (strval v)) = some c

theorem guardaEntero_of_varchar {n : ℕ} {v : Valor} {c : Option (Varchar n)} (h : enteroONulo v)
    (hc : varchar n (numero (strval v)) = some c) : GuardaEntero v (c.map Varchar.texto) := by
  simp only [enteroONulo, Bool.or_eq_true, Bool.and_eq_true, decide_eq_true_eq] at h
  rcases h with h | hnull
  · obtain ⟨z, hz, -⟩ := validInt_cases h.2
    rw [numero_of_filterValidateInt hz] at hc
    obtain ⟨d, hd, rfl⟩ := Option.map_eq_some_iff.mp hc
    refine Or.inr ⟨z, hz, ?_⟩
    rw [Option.map_some, fit_intText hd]
  · subst hnull
    cases hc
    exact Or.inl ⟨rfl, rfl⟩

omit [Engine] in
theorem intText_injective : Function.Injective intText := by
  have hminus (n : ℕ) (t : Texto) : decimal n ≠ '-' :: t := by
    intro he
    have hdigit := isDigit_of_mem_decimal (he ▸ List.mem_cons_self : '-' ∈ decimal n)
    exact absurd hdigit (by decide)
  intro x y h
  unfold intText at h
  split_ifs at h with hx hy hy
  · have habs := decimal_injective (List.cons.inj h).2
    omega
  · exact absurd h.symm (hminus _ _)
  · exact absurd h (hminus _ _)
  · have habs := decimal_injective h
    omega

def Mismo (v w : Valor) : Prop :=
  v = some "NULL".toList ∧ w = some "NULL".toList ∨
    ∃ z, filterValidateInt (strval v) = some z ∧ filterValidateInt (strval w) = some z

omit [Engine] in
theorem guardaEntero_iff {v w : Valor} {c : Option Texto} (hw : GuardaEntero w c) :
    GuardaEntero v c ↔ Mismo v w := by
  constructor
  · rintro (⟨hv, rfl⟩ | ⟨z, hz, rfl⟩)
    · rcases hw with ⟨hw, -⟩ | ⟨z, -, hc⟩
      · exact Or.inl ⟨hv, hw⟩
      · cases hc
    · rcases hw with ⟨-, hc⟩ | ⟨y, hy, hc⟩
      · cases hc
      · rw [intText_injective (Option.some.inj hc)] at hz
        exact Or.inr ⟨y, hz, hy⟩
  · rintro (⟨hv, hwnull⟩ | ⟨z, hz, hy⟩)
    · rcases hw with ⟨-, rfl⟩ | ⟨z, hz, -⟩
      · exact Or.inl ⟨hv, rfl⟩
      · rw [hwnull] at hz
        cases hz
    · rcases hw with ⟨hwnull, -⟩ | ⟨y, hy', rfl⟩
      · rw [hwnull] at hy
        cases hy
      · rw [hy] at hy'
        exact Or.inr ⟨z, hz, congrArg (some ∘ intText) (Option.some.inj hy').symm⟩

end Columns

section Rows

def lineaDe (a : Dispositivo.Argumentos) : LineaBase Valor Valor Valor where
  min_cpu := a.minCPU
  max_cpu := a.maxCPU
  avg_cpu := a.avgCPU
  min_ram := a.minRAM
  max_ram := a.maxRAM
  avg_ram := a.avgRAM
  min_hdd := a.minHDD
  max_hdd := a.maxHDD
  avg_hdd := a.avgHDD
  min_temp := a.minTEMP
  max_temp := a.maxTEMP
  avg_temp := a.avgTEMP
  min_volt := a.minVOLT
  max_volt := a.maxVOLT
  avg_volt := a.avgVOLT
  ping_promedio := a.ping

variable [Engine]

structure GuardaLinea (l : LineaBase Valor Valor Valor) (m : LineaFila) : Prop where
  min_cpu : GuardaEntero l.min_cpu (textos m).min_cpu
  max_cpu : GuardaEntero l.max_cpu (textos m).max_cpu
  avg_cpu : GuardaEntero l.avg_cpu (textos m).avg_cpu
  min_ram : GuardaEntero l.min_ram (textos m).min_ram
  max_ram : GuardaEntero l.max_ram (textos m).max_ram
  avg_ram : GuardaEntero l.avg_ram (textos m).avg_ram
  min_hdd : GuardaEntero l.min_hdd (textos m).min_hdd
  max_hdd : GuardaEntero l.max_hdd (textos m).max_hdd
  avg_hdd : GuardaEntero l.avg_hdd (textos m).avg_hdd
  min_temp : GuardaEntero l.min_temp (textos m).min_temp
  max_temp : GuardaEntero l.max_temp (textos m).max_temp
  avg_temp : GuardaEntero l.avg_temp (textos m).avg_temp
  min_volt : GuardaEntero l.min_volt (textos m).min_volt
  max_volt : GuardaEntero l.max_volt (textos m).max_volt
  avg_volt : GuardaEntero l.avg_volt (textos m).avg_volt
  ping_promedio : GuardaNumero l.ping_promedio m.ping_promedio

theorem guardaLinea_of_lineaFila {l : LineaBase Valor Valor Valor} {m : LineaFila}
    (hall : l.All (enteroONulo ·) (enteroONulo ·) (flotanteONulo ·))
    (h : lineaFila (numeros l) = some m) :
    GuardaLinea l m := by
  simp only [LineaBase.All, LineaBase.map, LineaBase.toList, List.forall_mem_cons] at hall
  have hmap := LineaBase.map_of_mapOption h
  obtain ⟨e1, e2, e3, e4, e5, e6, e7, e8, e9, e10, e11, e12, e13, e14, e15, -⟩ := hall
  exact
    { min_cpu := guardaEntero_of_varchar e1 (congrArg LineaBase.min_cpu hmap)
      max_cpu := guardaEntero_of_varchar e2 (congrArg LineaBase.max_cpu hmap)
      avg_cpu := guardaEntero_of_varchar e3 (congrArg LineaBase.avg_cpu hmap)
      min_ram := guardaEntero_of_varchar e4 (congrArg LineaBase.min_ram hmap)
      max_ram := guardaEntero_of_varchar e5 (congrArg LineaBase.max_ram hmap)
      avg_ram := guardaEntero_of_varchar e6 (congrArg LineaBase.avg_ram hmap)
      min_hdd := guardaEntero_of_varchar e7 (congrArg LineaBase.min_hdd hmap)
      max_hdd := guardaEntero_of_varchar e8 (congrArg LineaBase.max_hdd hmap)
      avg_hdd := guardaEntero_of_varchar e9 (congrArg LineaBase.avg_hdd hmap)
      min_temp := guardaEntero_of_varchar e10 (congrArg LineaBase.min_temp hmap)
      max_temp := guardaEntero_of_varchar e11 (congrArg LineaBase.max_temp hmap)
      avg_temp := guardaEntero_of_varchar e12 (congrArg LineaBase.avg_temp hmap)
      min_volt := guardaEntero_of_varchar e13 (congrArg LineaBase.min_volt hmap)
      max_volt := guardaEntero_of_varchar e14 (congrArg LineaBase.max_volt hmap)
      avg_volt := guardaEntero_of_varchar e15 (congrArg LineaBase.avg_volt hmap)
      ping_promedio := congrArg LineaBase.ping_promedio hmap }

/-- The columns of a row that are set from the arguments of the same names. -/
structure Guarda (a : Dispositivo.Argumentos) (x : FilaDispositivo) : Prop where
  monitorizacionActiva : nombreDe Bandera.miembros x.monitorizacionActiva =
    some (strval a.monitActiv)
  tipoDispositivo : nombreDe TipoDispositivo.miembros x.tipoDispositivo = some (strval a.tipoDisp)
  versionSNMP : nombreDe VersionSNMP.miembros x.versionSNMP = some (strval a.verSNMP)
  comunidadSNMP : x.comunidadSNMP.texto = strval a.comSNMP
  linea : GuardaLinea (lineaDe a) x.linea

variable {ahora : Reloj} {a : Dispositivo.Argumentos} {x : FilaDispositivo} {oper : Operacion}

/-- The constructor passes the maximum of the voltage on as its average. -/
theorem guardaLinea_iff {m : LineaFila} (h : GuardaLinea (Dispositivo.construct ahora a).linea m) :
    GuardaLinea (lineaDe a) m ↔ Mismo a.avgVOLT a.maxVOLT := by
  have hmax : GuardaEntero a.maxVOLT (textos m).avg_volt := h.avg_volt
  refine Iff.trans ⟨GuardaLinea.avg_volt, fun havg ↦ ?_⟩ (guardaEntero_iff hmax)
  exact { h with avg_volt := havg }

omit [Engine] in
theorem nombreDe_of_named {α : Type} [DecidableEq α] {miembros : List (String × α)}
    {s : Texto} {y : α} (hnodup : (miembros.map Prod.snd).Nodup) (h : named miembros s = some y) :
    nombreDe miembros y = some s := by
  obtain ⟨p, hp, rfl⟩ := Option.map_eq_some_iff.mp h
  have hname : p.1.toList = s := by simpa using List.find?_some hp
  obtain ⟨q, hq⟩ : ∃ q, miembros.find? (fun m ↦ m.2 = p.2) = some q := by
    refine Option.isSome_iff_exists.mp (List.find?_isSome.mpr ⟨p, List.mem_of_find?_eq_some hp, ?_⟩)
    exact decide_eq_true rfl
  have hvalue : q.2 = p.2 := by simpa using List.find?_some hq
  have hqp : q = p :=
    List.inj_on_of_nodup_map hnodup (List.mem_of_find?_eq_some hq)
      (List.mem_of_find?_eq_some hp) hvalue
  rw [nombreDe, hq, hqp, Option.map_some, hname]

theorem guarda_iff (hd : (Dispositivo.construct ahora a).Valido)
    (hcabe : Cabe ahora (.dispositivo a oper)) (hx : FilaDe (Dispositivo.construct ahora a) x) :
    Guarda a x ↔ Mismo a.avgVOLT a.maxVOLT := by
  obtain ⟨-, hmonit, hver, hcom, -⟩ := hcabe
  have hlinea := guardaLinea_iff (guardaLinea_of_lineaFila hd.linea hx.linea)
  have htipo : strval a.tipoDisp ∈ (TipoDispositivo.miembros.map Prod.fst).map String.toList :=
    mem_of_inArray hd.tipoDispositivo (by decide)
  have hfit : fit 64 (strval a.comSNMP) = some x.comunidadSNMP :=
    fit_of_varcharNotNull hx.comunidadSNMP
  refine Iff.trans ⟨Guarda.linea, fun h ↦ ?_⟩ hlinea
  refine ⟨?_, ?_, ?_, ?_, h⟩
  · exact nombreDe_of_named (by decide) (named_of_enum hmonit hx.monitorizacionActiva)
  · exact nombreDe_of_named (by decide) (named_of_enum htipo hx.tipoDispositivo)
  · exact nombreDe_of_named (by decide) (named_of_enum hver hx.versionSNMP)
  · rw [fit_of_length hcom] at hfit
    rw [← Option.some.inj hfit]

end Rows

section Unclean

variable {vs : List Texto} {v u : Texto} {us ts : List Token} {ls : List Literal}
  {p : Procedimiento}

def cadenas (vs : List Texto) : List Token := vs.flatMap fun v ↦ [.str v, .symbol ',']

theorem inside_str (v : Texto) : Inside (.str v) := by simp [Inside]

theorem fixed_comma : Fixed [','] := ⟨rfl, rfl, rfl⟩

theorem lex_cadenas (hvs : ∀ w ∈ vs, isClean w) (a : Arg) (args : List Arg) (fin : String) :
    lex (partsText (call p (vs.map Arg.quoted ++ a :: args) fin).parts) =
      (lex (partsText (call p (a :: args) fin).parts)).map (cadenas vs ++ ·) := by
  induction vs with
  | nil => exact Option.map_id'.symm
  | cons v vs ih =>
    have hv : ∀ w, Arg.quoted v = .quoted w → isClean w := by
      rintro w ⟨⟩
      exact hvs v List.mem_cons_self
    have hrest := ih (fun w hw ↦ hvs w (List.mem_cons_of_mem v hw))
    obtain ⟨b, bs, hb⟩ : ∃ b bs, vs.map Arg.quoted ++ a :: args = b :: bs :=
      List.exists_cons_of_ne_nil (by simp)
    rw [List.map_cons, List.cons_append, hb, parts_call_cons,
      lex_part fixed_comma hv (fun w hw ↦ nomatch hw), ← hb, hrest, Option.map_map]
    rfl

/-- What the server reads of a call in which the text `v` is not clean. -/
theorem lex_sucia (hvs : ∀ w ∈ vs, isClean w) (hv : ¬ isClean v) (b : Arg) (bs : List Arg)
    (fin : String) {us : List Token}
    (h : lex (call p (vs.map Arg.quoted ++ .quoted v :: b :: bs) fin).text = some us) :
    ∃ ts, us = .word "CALL".toList :: .word p.nombre.toList :: .symbol '(' :: (cadenas vs ++ ts) ∧
      ((∃ u l, ts = .str u :: l ∧ u.length < v.length) ∨
        ∃ acc, lexFrom (.quoted '\'' acc) (',' :: partsText (call p (b :: bs) fin).parts) =
          some ts) := by
  have hhead : lex (call p (vs.map Arg.quoted ++ .quoted v :: b :: bs) fin).text =
      (lex (partsText (call p (vs.map Arg.quoted ++ .quoted v :: b :: bs) fin).parts)).map
        ([.word "CALL".toList, .word p.nombre.toList, .symbol '('] ++ ·) := by
    rw [Statement.text, lex_fixed (by cases p <;> rfl)]
    cases p <;> rfl
  have hsplit : partsText (call p (.quoted v :: b :: bs) fin).parts =
      Lexer.literal v (',' :: partsText (call p (b :: bs) fin).parts) := by
    rw [parts_call_cons, partsText_cons, Arg.text, List.cons_append, List.append_assoc]
    rfl
  rw [hhead, lex_cadenas hvs, hsplit, lex_literal_eq, Option.map_map] at h
  obtain ⟨ts, hts, rfl⟩ := Option.map_eq_some_iff.mp h
  refine ⟨ts, rfl, ?_⟩
  have hcomma : (',' :: partsText (call p (b :: bs) fin).parts).head? ≠ some '\'' := by simp
  exact string_unclean hcomma hv [] ts (Nat.zero_add _) hts

theorem str_slash {acc rest : Texto}
    (h : lexFrom (.quoted '\'' acc) (',' :: '\'' :: '/' :: 'h' :: rest) = some us) :
    ∃ u ts, us = .str u :: .symbol '/' :: ts := by
  rw [lexFrom_quoted_of_ne (by decide) (by decide), lexFrom_quoted_self,
    lexFrom_closed (by simp)] at h
  obtain ⟨ts, hts, rfl⟩ := Option.map_eq_some_iff.mp h
  have hlex : lex ('/' :: 'h' :: rest) = (lexFrom (.word ['h']) rest).map ([.symbol '/'] ++ ·) :=
    lexFrom_append .start ['/', 'h'] rest
  rw [hlex] at hts
  obtain ⟨ts, -, rfl⟩ := Option.map_eq_some_iff.mp hts
  exact ⟨_, ts, rfl⟩

theorem quotes_bares {args : List Arg} (hbares : Bares args)
    (hbare : ∀ a ∈ args, ∃ v, a = .bare v) :
    (partsText (call p args ")").parts).countP isQuote = 0 := by
  have hfixed : ∀ q ∈ (call p args ")").parts, Fixed q.2 := fixed_call fixed_fin.1
  rw [← args_call p args ")"] at hbares hbare
  generalize (call p args ")").parts = l at hbares hbare hfixed
  induction l with
  | nil => rfl
  | cons q l ih =>
    obtain ⟨a, f⟩ := q
    obtain ⟨v, rfl⟩ := hbare a List.mem_cons_self
    have hv : (Arg.bare v).text.countP isQuote = 0 := (hbares v List.mem_cons_self).quotes
    have hf : f.countP isQuote = 0 := (hfixed _ List.mem_cons_self).quotes
    have hrest := ih (fun w hw ↦ hbares w (List.mem_cons_of_mem _ hw))
      (fun b hb ↦ hbare b (List.mem_cons_of_mem _ hb))
        (fun r hr ↦ hfixed r (List.mem_cons_of_mem _ hr))
    rw [partsText_cons, List.countP_append, List.countP_append, hv, hf, hrest]

variable [Engine]

theorem leidos_cadenas (vs : List Texto) (us : List Token) :
    (separa (cadenas vs ++ us)).mapM literalOf =
      ((separa us).mapM literalOf).map (vs.map Literal.text ++ ·) := by
  induction vs with
  | nil => exact Option.map_id'.symm
  | cons v vs ih =>
    have hcomma : separa (.symbol ',' :: (cadenas vs ++ us)) = [] :: separa (cadenas vs ++ us) :=
      rfl
    have hsplit : separa (cadenas (v :: vs) ++ us) = [.str v] :: separa (cadenas vs ++ us) :=
      separa_cons (inside_str v) hcomma
    have hv : literalOf [.str v] = some (.text v) := rfl
    rw [hsplit, List.mapM_cons, hv, ih]
    cases (separa us).mapM literalOf <;> rfl

theorem leidos_str (h : (separa (.str u :: ts)).mapM literalOf = some ls) :
    ls = [] ∨ (∃ ms, separa ts = [] :: ms) ∧ ∃ ls', ls = .text u :: ls' := by
  rw [separa_inside (inside_str u)] at h
  cases hts : separa ts with
  | nil =>
    rw [hts] at h
    exact Or.inl (Option.some.inj h).symm
  | cons l ms =>
    rw [hts] at h
    simp only [List.mapM_cons, Option.pure_def, Option.bind_eq_bind, Option.bind_eq_some_iff,
      Option.some.injEq] at h
    obtain ⟨x, hx, ls', -, rfl⟩ := h
    cases l with
    | nil => exact Or.inr ⟨⟨ms, rfl⟩, ls', congrArg (· :: ls') (Option.some.inj hx).symm⟩
    | cons t l => cases hx

theorem leidos_slash (h : (separa (.str u :: .symbol '/' :: ts)).mapM literalOf = some ls) :
    ls = [] := by
  rcases leidos_str h with hnil | ⟨⟨ms, hms⟩, -⟩
  · exact hnil
  · rw [separa_inside (by simp [Inside])] at hms
    split at hms
    · cases hms
    · cases hms

/-- A call with a text that is not clean is refused, or has a shorter text at its place. -/
theorem query_sucia (hvs : ∀ w ∈ vs, isClean w) (hv : ¬ isClean v) {b : Arg} {bs : List Arg}
    {fin : String} (hrest : ∀ acc us, lexFrom (.quoted '\'' acc)
      (',' :: partsText (call p (b :: bs) fin).parts) = some us →
        ∃ u ts, us = .str u :: .symbol '/' :: ts) :
    literales.query (call p (vs.map Arg.quoted ++ .quoted v :: b :: bs) fin).text = rechazada ∨
      ∃ ls, (ls = [] ∨ ∃ u ls', u.length < v.length ∧ ls = .text u :: ls') ∧
        invoke p (vs.map Literal.text ++ ls) =
          some (literales.query (call p (vs.map Arg.quoted ++ .quoted v :: b :: bs) fin).text) := by
  rw [Servidor.query]
  cases hlex : lex (call p (vs.map Arg.quoted ++ .quoted v :: b :: bs) fin).text with
  | none => exact Or.inl rfl
  | some us =>
    obtain ⟨ts, rfl, hts⟩ := lex_sucia hvs hv b bs fin hlex
    have hejecuta : literales.ejecuta (.word "CALL".toList :: .word p.nombre.toList ::
      .symbol '(' ::
        (cadenas vs ++ ts)) = ((((separa ts).mapM literalOf).map (vs.map Literal.text ++ ·)).bind
          (invoke p)).getD rechazada := by
      have hliterales : literales.ejecuta = ejecutaLiterales := rfl
      rw [← leidos_cadenas, hliterales, ejecutaLiterales, if_pos rfl, procedimientoDe_nombre,
        Option.bind_some]
    simp only [hejecuta]
    cases hls : (separa ts).mapM literalOf with
    | none => exact Or.inl rfl
    | some ls =>
      rw [Option.map_some, Option.bind_some]
      cases hinvoke : invoke p (vs.map Literal.text ++ ls) with
      | none => exact Or.inl rfl
      | some pasos =>
        refine Or.inr ⟨ls, ?_, hinvoke⟩
        rcases hts with ⟨u, l, rfl, hlen⟩ | ⟨acc, hacc⟩
        · exact (leidos_str hls).imp id (fun h ↦ ⟨u, h.2.choose, hlen, h.2.choose_spec⟩)
        · obtain ⟨u, l, rfl⟩ := hrest acc ts hacc
          exact Or.inl (leidos_slash hls)

end Unclean

section Requests

variable [Engine] {s : Servidor} {ahora : Reloj} {a : Dispositivo.Argumentos} {bd : BD}
  {x r : FilaDispositivo}

def RutaLibre (ruta : Texto) (bd : BD) : Prop :=
  ∀ r ∈ bd.dispositivo, sortKey r.ruta.texto ≠ sortKey ruta

def AltaConserva (s : Servidor) (ahora : Reloj) (a : Dispositivo.Argumentos) (bd : BD) : Prop :=
  ∃ bd', solo (envia s (Dispositivo.construct ahora a) .insertar) bd = (bd', true) ∧
    ∃ x ∈ bd'.dispositivo, x.clave = sortKey (Dispositivo.construct ahora a).direccionIP ∧
    Guarda a x

def CambioConserva (s : Servidor) (ahora : Reloj) (a : Dispositivo.Argumentos) (bd : BD) : Prop :=
  ∃ bd', solo (envia s (Dispositivo.construct ahora a) .actualizar) bd = (bd', true) ∧
    ∃ x ∈ bd.dispositivo, x.clave = sortKey (Dispositivo.construct ahora a).direccionIP ∧
    ∃ y, Guarda a y ∧ y.direccionIP = x.direccionIP ∧ y.fechaRegistroHost = x.fechaRegistroHost ∧
    y.ruta = x.ruta ∧
      (∀ z, z ∈ bd'.dispositivo ↔ z = y ∨ z ∈ bd.dispositivo ∧ z ≠ x) ∧
      { bd' with dispositivo := bd.dispositivo } = bd

theorem altaConserva_iff (hpasos : envia s (Dispositivo.construct ahora a) .insertar =
      [noExisteDispositivo (Dispositivo.construct ahora a).direccionIP, insertDispositivo x])
    (hclave : x.clave = sortKey (Dispositivo.construct ahora a).direccionIP)
    (habsent : ¬ bd.dispositivo.Has (sortKey (Dispositivo.construct ahora a).direccionIP)) :
    AltaConserva s ahora a bd ↔ RutaLibre x.ruta.texto bd ∧ Guarda a x := by
  have hlook : noExisteDispositivo (Dispositivo.construct ahora a).direccionIP bd = some bd :=
    guard_eq_some.mpr ⟨habsent, rfl⟩
  rw [AltaConserva, hpasos, solo_cons_some hlook]
  constructor
  · rintro ⟨bd', hsolo, y, hy, hyclave, hguarda⟩
    cases hstep : insertDispositivo x bd with
    | none =>
      rw [solo_cons_none hstep] at hsolo
      cases hsolo
    | some bd'' =>
      rw [solo_cons_some hstep] at hsolo
      obtain rfl := (Prod.mk.inj hsolo).1
      obtain ⟨hfree, T, hT, rfl⟩ := insertDispositivo_cases hstep
      refine ⟨hfree, ?_⟩
      rcases (Table.mem_insert? hT).mp hy with rfl | hy
      · exact hguarda
      · exact absurd ⟨y, hy, hyclave⟩ habsent
  · rintro ⟨hruta, hguarda⟩
    have hfree : ¬ ∃ r ∈ bd.dispositivo.rows, sortKey r.ruta.texto = sortKey x.ruta.texto := by
      rintro ⟨r, hr, he⟩
      exact hruta r hr he
    obtain ⟨T, hT⟩ : ∃ T, bd.dispositivo.insert? x = some T := by
      refine Option.ne_none_iff_exists'.mp (fun hnone ↦ habsent ?_)
      rw [← hclave]
      exact Table.insert?_eq_none.mp hnone
    have hinsert : insertDispositivo x bd = some { bd with dispositivo := T } := by
      rw [insertDispositivo, if_neg hfree, hT]
      rfl
    rw [solo_cons_some hinsert]
    exact ⟨_, rfl, x, (Table.mem_insert? hT).mpr (Or.inl rfl), hclave, hguarda⟩

theorem cambioConserva_iff {f : Update FilaDispositivo.clave}
    (hpasos : envia s (Dispositivo.construct ahora a) .actualizar =
      [existeDispositivo (Dispositivo.construct ahora a).direccionIP,
        updateDispositivo (sortKey (Dispositivo.construct ahora a).direccionIP) f])
    (hf : ∀ z, (f.1 z).direccionIP = z.direccionIP ∧ (f.1 z).fechaRegistroHost =
      z.fechaRegistroHost ∧ (f.1 z).ruta = z.ruta)
    (hr : r ∈ bd.dispositivo)
      (hclave : r.clave = sortKey (Dispositivo.construct ahora a).direccionIP) :
    CambioConserva s ahora a bd ↔ Guarda a (f.1 r) := by
  have hlook : existeDispositivo (Dispositivo.construct ahora a).direccionIP bd = some bd :=
    guard_eq_some.mpr ⟨⟨r, hr, hclave⟩, rfl⟩
  have hupdate : updateDispositivo (sortKey (Dispositivo.construct ahora a).direccionIP) f bd =
      some { bd with dispositivo :=
        bd.dispositivo.modify (sortKey (Dispositivo.construct ahora a).direccionIP) f } := rfl
  have hmem := Table.mem_modify_of_mem bd.dispositivo _ f hr hclave
  rw [CambioConserva, hpasos, solo_cons_some hlook, solo_cons_some hupdate]
  constructor
  · rintro ⟨bd', hsolo, x, hx, hxclave, y, hguarda, -, -, -, hrows, -⟩
    obtain rfl := (Prod.mk.inj hsolo).1
    have hxr : x = r := bd.dispositivo.unique x hx r hr (hxclave.trans hclave.symm)
    rcases (hrows (f.1 r)).mp ((hmem (f.1 r)).mpr (Or.inl rfl)) with hy | ⟨hold, hne⟩
    · rw [hy]
      exact hguarda
    · refine absurd (bd.dispositivo.unique _ hold r hr ?_) (hxr ▸ hne)
      exact f.2 r
  · intro hguarda
    obtain ⟨hip, hfecha, hruta⟩ := hf r
    exact ⟨_, rfl, r, hr, hclave, f.1 r, hguarda, hip, hfecha, hruta, hmem, rfl⟩

theorem FilaDe.cambio {d : Dispositivo} (h : FilaDe d x) :
    CambioDe d x.monitorizacionActiva x.tipoDispositivo x.versionSNMP x.comunidadSNMP x.linea :=
  ⟨h.monitorizacionActiva, h.tipoDispositivo, h.versionSNMP, h.comunidadSNMP, h.linea⟩

theorem exists_fila {oper : Operacion} (hd : (Dispositivo.construct ahora a).Valido)
    (hcabe : Cabe ahora (.dispositivo a oper)) : ∃ x, FilaDe (Dispositivo.construct ahora a) x := by
  obtain ⟨ls, hls, hinvoke⟩ := ejecuta_of_admitidos ((admitidos_dispositivo hd).mpr hcabe)
  rw [literales_insertar, Option.some.injEq] at hls
  rw [← hls, invoke_insertarDispositivo] at hinvoke
  obtain ⟨x, hx, -⟩ := hinvoke
  exact ⟨x, hx⟩

omit [Engine] in
theorem limpia_iff {oper : Operacion} (hoper : oper = .insertar ∨ oper = .actualizar) :
    (Peticion.dispositivo a oper).Limpia ↔ isClean (strval a.comSNMP) := by
  rcases hoper with rfl | rfl <;> exact List.forall_mem_singleton

theorem alta_limpia_iff (hd : (Dispositivo.construct ahora a).Valido)
    (hcabe : Cabe ahora (.dispositivo a .insertar)) (hlimpia : isClean (strval a.comSNMP))
    (habsent : ¬ bd.dispositivo.Has (sortKey (Dispositivo.construct ahora a).direccionIP)) :
    AltaConserva s ahora a bd ↔ RutaLibre (Dispositivo.construct ahora a).ruta bd ∧
      Mismo a.avgVOLT a.maxVOLT := by
  obtain ⟨x, hx⟩ := exists_fila hd hcabe
  have hpasos :=
    (envia_eq_pasos (s := s) ((limpia_iff (Or.inl rfl)).mpr hlimpia)).trans (pasos_insertar hd hx)
  rw [altaConserva_iff hpasos (FilaDe.clave hx) habsent, guarda_iff hd hcabe hx,
    RutaLibre, RutaLibre, sortKey_varcharNotNull hx.ruta]

theorem cambio_limpio_iff (hd : (Dispositivo.construct ahora a).Valido)
    (hcabe : Cabe ahora (.dispositivo a .actualizar)) (hlimpia : isClean (strval a.comSNMP))
    (hpresent : bd.dispositivo.Has (sortKey (Dispositivo.construct ahora a).direccionIP)) :
    CambioConserva s ahora a bd ↔ Mismo a.avgVOLT a.maxVOLT := by
  obtain ⟨x, hx⟩ := exists_fila hd hcabe
  obtain ⟨r, hr, hclave⟩ := hpresent
  have hvalida : (Dispositivo.construct ahora a).validarCamposDispositivo .actualizar :=
    Dispositivo.validarCamposDispositivo_iff.mpr hd
  have hpasos : (Dispositivo.construct ahora a).pasos .actualizar =
      [existeDispositivo (Dispositivo.construct ahora a).direccionIP,
        updateDispositivo (sortKey (Dispositivo.construct ahora a).direccionIP)
          (setDispositivo x.monitorizacionActiva x.tipoDispositivo x.versionSNMP x.comunidadSNMP
            x.linea)] := by
    rw [Dispositivo.pasos, if_pos hvalida, ejecuta_actualizar hx.direccionIP (FilaDe.cambio hx)]
  have henvia := (envia_eq_pasos (s := s) ((limpia_iff (Or.inr rfl)).mpr hlimpia)).trans hpasos
  rw [cambioConserva_iff henvia (fun _ ↦ ⟨rfl, rfl, rfl⟩) hr hclave, ← guarda_iff hd hcabe hx]
  exact ⟨fun h ↦ ⟨h.1, h.2, h.3, h.4, h.5⟩, fun h ↦ ⟨h.1, h.2, h.3, h.4, h.5⟩⟩

theorem forma_insertar {ls : List Literal} {pasos : List (Step BD)}
    (h : invoke .insertarDispositivo ls = some pasos) :
    ∃ ip f monit tipo ver com ruta l, ls = [ip, f, monit, tipo, ver, com, ruta] ++
      LineaBase.toList l := by
  unfold invoke at h
  split at h
  · exact ⟨_, _, _, _, _, _, _, ⟨_, _, _, _, _, _, _, _, _, _, _, _, _, _, _, _⟩, rfl⟩
  all_goals simp_all

theorem forma_actualizar {ls : List Literal} {pasos : List (Step BD)}
    (h : invoke .actualizarDispositivo ls = some pasos) :
    ∃ ip monit tipo ver com l, ls = [ip, monit, tipo, ver, com] ++ LineaBase.toList l := by
  unfold invoke at h
  split at h
  · simp_all
  · exact ⟨_, _, _, _, _, ⟨_, _, _, _, _, _, _, _, _, _, _, _, _, _, _, _⟩, rfl⟩
  all_goals simp_all

theorem invoke_alta {n : ℕ} {ip f monit tipo ver : Literal} {ls : List Literal}
    {pasos : List (Step BD)} (hls : ls = [] ∨ ∃ u ls', u.length < n ∧ ls = .text u :: ls')
    (h : invoke .insertarDispositivo ([ip, f, monit, tipo, ver] ++ ls) = some pasos) :
    ∃ u x, u.length < n ∧ varcharNotNull 64 (.text u) = some x.comunidadSNMP ∧
      varcharNotNull 18 ip = some x.direccionIP ∧ pasos = [insertDispositivo x] := by
  obtain ⟨ip', f', monit', tipo', ver', com, ruta, l, hforma⟩ := forma_insertar h
  rw [hforma] at h
  obtain ⟨x, hx, rfl⟩ := invoke_insertarDispositivo.mp h
  simp only [List.cons_append, List.nil_append, List.cons.injEq] at hforma
  obtain ⟨rfl, -, -, -, -, hrest⟩ := hforma
  rcases hls with rfl | ⟨u, ls', hlen, rfl⟩
  · cases hrest
  · obtain ⟨rfl, -⟩ := List.cons.inj hrest
    exact ⟨u, x, hlen, hx.comunidadSNMP, hx.direccionIP, rfl⟩

theorem invoke_cambio {n : ℕ} {ip monit tipo ver : Literal} {ls : List Literal}
    {pasos : List (Step BD)} (hls : ls = [] ∨ ∃ u ls', u.length < n ∧ ls = .text u :: ls')
    (h : invoke .actualizarDispositivo ([ip, monit, tipo, ver] ++ ls) = some pasos) :
    ∃ u i m t v c b, u.length < n ∧ varcharNotNull 64 (.text u) = some c ∧
      varcharNotNull 18 ip = some i ∧
      pasos = [updateDispositivo (sortKey i.texto) (setDispositivo m t v c b)] := by
  obtain ⟨ip', monit', tipo', ver', com, l, hforma⟩ := forma_actualizar h
  rw [hforma] at h
  obtain ⟨i, m, t, v, c, b, hi, -, -, -, hc, -, rfl⟩ := invoke_actualizarDispositivo.mp h
  simp only [List.cons_append, List.nil_append, List.cons.injEq] at hforma
  obtain ⟨rfl, -, -, -, hrest⟩ := hforma
  rcases hls with rfl | ⟨u, ls', hlen, rfl⟩
  · cases l
    cases hrest
  · obtain ⟨rfl, -⟩ := List.cons.inj hrest
    exact ⟨u, i, m, t, v, c, b, hlen, hc, hi, rfl⟩

theorem not_guarda_of_corta {u : Texto} (hlen : u.length < (strval a.comSNMP).length)
    (hcom : varcharNotNull 64 (.text u) = some x.comunidadSNMP) : ¬ Guarda a x := by
  intro hguarda
  have hfit := fit_of_varcharNotNull hcom
  unfold fit at hfit
  split_ifs at hfit
  have htake : x.comunidadSNMP.texto = u.take 64 :=
    (congrArg Varchar.texto (Option.some.inj hfit)).symm
  have hle : x.comunidadSNMP.texto.length ≤ u.length := by
    rw [htake]
    exact List.length_take_le' 64 u
  rw [hguarda.comunidadSNMP] at hle
  omega

theorem solo_rechazada (f : Step BD) (bd : BD) : (solo (f :: rechazada) bd).2 = false := by
  cases h : f bd with
  | none => rw [solo_cons_none h]
  | some bd' =>
    rw [solo_cons_some h]
    rfl

theorem not_alta_sucia (hd : (Dispositivo.construct ahora a).Valido)
    (hsucia : ¬ isClean (strval a.comSNMP))
    (habsent : ¬ bd.dispositivo.Has (sortKey (Dispositivo.construct ahora a).direccionIP)) :
    ¬ AltaConserva literales ahora a bd := by
  intro halta
  have hvalida : (Dispositivo.construct ahora a).validarCamposDispositivo .insertar :=
    Dispositivo.validarCamposDispositivo_iff.mpr hd
  obtain ⟨b, bs, hlinea⟩ : ∃ b bs, (Dispositivo.construct ahora a).argumentosLinea = b :: bs :=
    ⟨_, _, rfl⟩
  have hargs : (Dispositivo.construct ahora a).argumentosInsertar =
      [(Dispositivo.construct ahora a).direccionIP,
      (Dispositivo.construct ahora a).fechaRegistroHost,
        strval a.monitActiv, strval a.tipoDisp, strval a.verSNMP].map Arg.quoted ++
        .quoted (strval a.comSNMP) :: .quoted (Dispositivo.construct ahora a).ruta :: b :: bs := by
    rw [← hlinea]
    rfl
  have hclean : ∀ w ∈ [(Dispositivo.construct ahora a).direccionIP,
    (Dispositivo.construct ahora a).fechaRegistroHost,
      strval a.monitActiv, strval a.tipoDisp, strval a.verSNMP], isClean w := by
    obtain ⟨hdir, hfecha, hmonit, htipo, hver, -⟩ := clean_dispositivo hd
    simp [hdir, hfecha, hmonit, htipo, hver]
  -- a text that runs on ends at the quote before the path
  have hrest (acc : Texto) (us : List Token) (hus : lexFrom (.quoted '\'' acc) (',' :: partsText
      (call .insertarDispositivo (.quoted (Dispositivo.construct ahora a).ruta :: b ::
        bs) ")").parts) = some us) :
      ∃ u ts, us = .str u :: .symbol '/' :: ts := by
    obtain ⟨t, ht⟩ : ∃ t, (Dispositivo.construct ahora a).ruta = '/' :: 'h' :: t := ⟨_, rfl⟩
    rw [parts_call_cons, partsText_cons, Arg.text, ht] at hus
    exact str_slash hus
  have henvia : envia literales (Dispositivo.construct ahora a) .insertar =
      noExisteDispositivo (Dispositivo.construct ahora a).direccionIP ::
        literales.query (call .insertarDispositivo
          (Dispositivo.construct ahora a).argumentosInsertar ")").text := by
    rw [envia, if_pos hvalida]
  rw [hargs] at henvia
  rcases query_sucia hclean hsucia hrest with hnone | ⟨ls, hls, hinvoke⟩
  · obtain ⟨bd', hsolo, -⟩ := halta
    rw [henvia, hnone] at hsolo
    exact Bool.false_ne_true ((solo_rechazada _ bd).symm.trans (congrArg Prod.snd hsolo))
  · obtain ⟨u, x, hlen, hcom, hip, hpasos⟩ := invoke_alta hls hinvoke
    rw [hpasos] at henvia
    obtain ⟨-, hguarda⟩ := (altaConserva_iff henvia (sortKey_varcharNotNull hip) habsent).mp halta
    exact not_guarda_of_corta hlen hcom hguarda

theorem not_cambio_sucio (hd : (Dispositivo.construct ahora a).Valido)
    (hsucia : ¬ isClean (strval a.comSNMP))
    (hpresent : bd.dispositivo.Has (sortKey (Dispositivo.construct ahora a).direccionIP)) :
    ¬ CambioConserva literales ahora a bd := by
  intro hcambio
  have hvalida : (Dispositivo.construct ahora a).validarCamposDispositivo .actualizar :=
    Dispositivo.validarCamposDispositivo_iff.mpr hd
  obtain ⟨b, bs, hlinea⟩ : ∃ b bs, (Dispositivo.construct ahora a).argumentosLinea = b :: bs :=
    ⟨_, _, rfl⟩
  have hargs : (Dispositivo.construct ahora a).argumentosActualizar =
      [(Dispositivo.construct ahora a).direccionIP, strval a.monitActiv, strval a.tipoDisp,
        strval a.verSNMP].map Arg.quoted ++ .quoted (strval a.comSNMP) :: b :: bs := by
    rw [← hlinea]
    rfl
  have hclean : ∀ w ∈ [(Dispositivo.construct ahora a).direccionIP, strval a.monitActiv,
    strval a.tipoDisp,
      strval a.verSNMP], isClean w := by
    obtain ⟨hdir, -, hmonit, htipo, hver, -⟩ := clean_dispositivo hd
    simp [hdir, hmonit, htipo, hver]
  -- no quote comes after the community that could end a text that runs on
  have hrest (acc : Texto) (us : List Token) (hus : lexFrom (.quoted '\'' acc)
      (',' :: partsText (call .actualizarDispositivo (b :: bs) ")").parts) = some us) :
      ∃ u ts, us = .str u :: .symbol '/' :: ts := by
    have hquotes : (partsText (call .actualizarDispositivo (b :: bs) ")").parts).countP isQuote =
        0 := by
      rw [← hlinea]
      exact quotes_bares (bares_linea hd.linea)
        (fun a ha ↦ (List.mem_map.mp ha).imp fun _ h ↦ h.2.symm)
    obtain ⟨u, ts, -, hw⟩ := (weight_after_string _).1 acc us hus
    rw [List.countP_cons_of_neg (by decide), hquotes] at hw
    omega
  have henvia : envia literales (Dispositivo.construct ahora a) .actualizar =
      existeDispositivo (Dispositivo.construct ahora a).direccionIP ::
        literales.query
          (call .actualizarDispositivo (Dispositivo.construct ahora a).argumentosActualizar
            ")").text := by
    rw [envia, if_pos hvalida]
  rw [hargs] at henvia
  rcases query_sucia hclean hsucia hrest with hnone | ⟨ls, hls, hinvoke⟩
  · obtain ⟨bd', hsolo, -⟩ := hcambio
    rw [henvia, hnone] at hsolo
    exact Bool.false_ne_true ((solo_rechazada _ bd).symm.trans (congrArg Prod.snd hsolo))
  · obtain ⟨u, i, m, t, v, c, b, hlen, hcom, hip, hpasos⟩ := invoke_cambio hls hinvoke
    obtain ⟨r, hr, hclave⟩ := hpresent
    rw [hpasos, sortKey_varcharNotNull hip] at henvia
    have hguarda := (cambioConserva_iff henvia (fun _ ↦ ⟨rfl, rfl, rfl⟩) hr hclave).mp hcambio
    exact not_guarda_of_corta hlen hcom hguarda

end Requests

/-- An accepted request stores its arguments exactly when the maximum of the voltage
is also its average, the community is clean and, of an insertion, the path is free. -/
theorem conserva_iff [Engine] (ahora : Reloj) (a : Dispositivo.Argumentos) (bd : BD) :
    ((Dispositivo.construct ahora a).validarCamposDispositivo .insertar →
      Cabe ahora (.dispositivo a .insertar) →
      ¬ bd.dispositivo.Has (sortKey (Dispositivo.construct ahora a).direccionIP) →
      (isClean (strval a.comSNMP) → ∀ s, AltaConserva s ahora a bd ↔
        RutaLibre (Dispositivo.construct ahora a).ruta bd ∧ Mismo a.avgVOLT a.maxVOLT) ∧
      (AltaConserva literales ahora a bd ↔ isClean (strval a.comSNMP) ∧
        RutaLibre (Dispositivo.construct ahora a).ruta bd ∧ Mismo a.avgVOLT a.maxVOLT)) ∧
    ((Dispositivo.construct ahora a).validarCamposDispositivo .actualizar →
    Cabe ahora (.dispositivo a .actualizar) →
      bd.dispositivo.Has (sortKey (Dispositivo.construct ahora a).direccionIP) →
      (isClean (strval a.comSNMP) → ∀ s, CambioConserva s ahora a bd ↔ Mismo a.avgVOLT a.maxVOLT) ∧
      (CambioConserva literales ahora a bd ↔ isClean (strval a.comSNMP) ∧
      Mismo a.avgVOLT a.maxVOLT)) := by
  constructor
  · intro hp hcabe habsent
    have hd : (Dispositivo.construct ahora a).Valido :=
      Dispositivo.validarCamposDispositivo_iff.mp hp
    refine ⟨fun hlimpia s ↦ alta_limpia_iff hd hcabe hlimpia habsent, ?_⟩
    by_cases hlimpia : isClean (strval a.comSNMP)
    · rw [alta_limpia_iff hd hcabe hlimpia habsent, and_iff_right hlimpia]
    · exact iff_of_false (not_alta_sucia hd hlimpia habsent) (fun h ↦ hlimpia h.1)
  · intro hp hcabe hpresent
    have hd : (Dispositivo.construct ahora a).Valido :=
      Dispositivo.validarCamposDispositivo_iff.mp hp
    refine ⟨fun hlimpia s ↦ cambio_limpio_iff hd hcabe hlimpia hpresent, ?_⟩
    by_cases hlimpia : isClean (strval a.comSNMP)
    · rw [cambio_limpio_iff hd hcabe hlimpia hpresent, and_iff_right hlimpia]
    · exact iff_of_false (not_cambio_sucio hd hlimpia hpresent) (fun h ↦ hlimpia h.1)

theorem valido_equipo : (Dispositivo.construct Requests.reloj equipo).Valido :=
  Dispositivo.validarCamposDispositivo_iff.mp aceptada_equipo.valida

theorem cabe_equipo (oper : Operacion) : Cabe Requests.reloj (.dispositivo equipo oper) := by
  refine ⟨by decide, by decide, by decide, by decide, ?_⟩
  simp only [LineaBase.All, LineaBase.map, LineaBase.toList, List.forall_mem_cons, List.not_mem_nil,
    false_imp_iff, implies_true, and_true]
  decide

def equipoEstable : Dispositivo.Argumentos := { equipo with avgVOLT := some "12".toList }

theorem conserva_equipo : AltaConserva literales Requests.reloj equipoEstable BD.vacia ∧
    CambioConserva literales Requests.reloj equipoEstable
      { BD.vacia with dispositivo := .single filaEquipo } := by
  have hmismo : Mismo equipoEstable.avgVOLT equipoEstable.maxVOLT :=
    Or.inr ⟨12, by decide, by decide⟩
  have hlimpia : isClean (strval equipoEstable.comSNMP) := by decide
  constructor
  · have hsettled := (conserva_iff Requests.reloj equipoEstable BD.vacia).1 aceptada_equipo.valida
      (cabe_equipo .insertar) (by decide)
    exact hsettled.2.mpr ⟨hlimpia, fun r hr ↦ absurd hr (Table.not_mem_empty r), hmismo⟩
  · have hsettled := (conserva_iff Requests.reloj equipoEstable
      { BD.vacia with dispositivo := .single filaEquipo }).2
      aceptada_equipo.valida (cabe_equipo .actualizar) (by decide)
    exact hsettled.2.mpr ⟨hlimpia, hmismo⟩

/-- An average of 5 volts is given and the maximum of 12 is stored in its place. -/
theorem not_conserva_equipo :
    (Dispositivo.construct Requests.reloj equipo).validarCamposDispositivo .insertar ∧
      Cabe Requests.reloj (.dispositivo equipo .insertar) ∧ isClean (strval equipo.comSNMP) ∧
      ¬ BD.vacia.dispositivo.Has
        (sortKey (Dispositivo.construct Requests.reloj equipo).direccionIP) ∧
      RutaLibre (Dispositivo.construct Requests.reloj equipo).ruta BD.vacia ∧
      ∀ s, ¬ AltaConserva s Requests.reloj equipo BD.vacia := by
  have hlimpia : isClean (strval equipo.comSNMP) := by decide
  have habsent : ¬ BD.vacia.dispositivo.Has
      (sortKey (Dispositivo.construct Requests.reloj equipo).direccionIP) := by
    decide
  refine ⟨aceptada_equipo.valida, cabe_equipo .insertar, hlimpia, habsent,
    fun r hr ↦ absurd hr (Table.not_mem_empty r), fun s halta ↦ ?_⟩
  obtain ⟨-, hmismo⟩ :=
    (alta_limpia_iff valido_equipo (cabe_equipo .insertar) hlimpia habsent).mp halta
  rcases hmismo with ⟨hnull, -⟩ | ⟨z, havg, hmax⟩
  · exact absurd hnull (by decide)
  · have hfive : filterValidateInt (strval equipo.avgVOLT) = some 5 := by decide
    have htwelve : filterValidateInt (strval equipo.maxVOLT) = some 12 := by decide
    have hfirst : (5 : ℤ) = z := Option.some.inj (hfive.symm.trans havg)
    have hsecond : (12 : ℤ) = z := Option.some.inj (htwelve.symm.trans hmax)
    omega

end ServiciosRed.Fidelity
