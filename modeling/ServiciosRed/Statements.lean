import ServiciosRed.Filters
import ServiciosRed.Lexer

namespace ServiciosRed.Statements

open Text Php Filters Lexer

/-- A value that is spliced into a statement, between quotes or bare. -/
inductive Arg
  | quoted (v : Texto)
  | bare (v : Texto)

def Arg.text : Arg → Texto
  | quoted v => '\'' :: (v ++ ['\''])
  | bare v => v

def numberTokens : Texto → List Token
  | '+' :: s => [.symbol '+', .number s]
  | '-' :: s => [.symbol '-', .number s]
  | s => [.number s]

def bareTokens (v : Texto) : List Token :=
  if v = "NULL".toList then [.word v] else numberTokens (trimmed v)

def Arg.tokens : Arg → List Token
  | quoted v => [.str v]
  | bare v => bareTokens v

/-- A statement built by concatenation: fixed text with the values between its parts. -/
structure Statement where
  head : Texto
  parts : List (Arg × Texto)

namespace Statement

def partsText (l : List (Arg × Texto)) : Texto := l.flatMap fun p ↦ p.1.text ++ p.2

def text (s : Statement) : Texto := s.head ++ partsText s.parts

def fixedTokens (s : Texto) : List Token := (run .start s).1

def partsTokens (l : List (Arg × Texto)) : List Token :=
  l.flatMap fun p ↦ p.1.tokens ++ fixedTokens p.2

/-- The tokens of the fixed text with one literal for each value. -/
def tokens (s : Statement) : List Token := fixedTokens s.head ++ partsTokens s.parts

end Statement

def isDelimiter (c : Char) : Bool := c = ',' || c = ')' || c = ';' || c = ' '

structure Fixed (s : Texto) : Prop where
  delimiter : s.head?.any isDelimiter
  complete : (run .start s).2 = .start
  quotes : s.countP isQuote = 0

structure Bare (v : Texto) : Prop where
  read : ∀ c rest, isDelimiter c → lex (v ++ c :: rest) = (lex (c :: rest)).map (bareTokens v ++ ·)
  quotes : v.countP isQuote = 0

/-- Every fixed part is complete and every bare value is a number or NULL. -/
structure Regular (s : Statement) : Prop where
  head : (run .start s.head).2 = .start
  fixed : ∀ p ∈ s.parts, Fixed p.2
  bare : ∀ p ∈ s.parts, ∀ v, p.1 = .bare v → Bare v

section Reading

open Statement

theorem lex_fixed {s : Texto} (h : (run .start s).2 = .start) (rest : Texto) :
    lex (s ++ rest) = (lex rest).map (fixedTokens s ++ ·) := by
  rw [lex, lexFrom_append, h]
  rfl

theorem Fixed.head_ne {s : Texto} (h : Fixed s) (rest : Texto) : (s ++ rest).head? ≠ some '\'' := by
  cases s with
  | nil => exact absurd h.delimiter (by decide)
  | cons c s =>
    intro he
    rw [List.cons_append, List.head?_cons, Option.some.injEq] at he
    subst he
    exact absurd h.delimiter (by simp [isDelimiter])

theorem partsText_cons (a : Arg) (f : Texto) (l : List (Arg × Texto)) :
    partsText ((a, f) :: l) = a.text ++ (f ++ partsText l) := List.append_assoc _ _ _

theorem partsTokens_cons (a : Arg) (f : Texto) (l : List (Arg × Texto)) :
    partsTokens ((a, f) :: l) = a.tokens ++ (fixedTokens f ++ partsTokens l) :=
      List.append_assoc _ _ _

theorem Arg.quotes_quoted (v : Texto) :
    (Arg.quoted v).text.countP isQuote = weight (Arg.quoted v).tokens := by
  simp only [Arg.text, Arg.tokens, List.countP_cons, List.countP_append, List.countP_nil,
    weight_cons, weight_nil, Token.quotes, isQuote, decide_true, Bool.true_or, if_true]
  omega

theorem quotes_le_weight {l : List (Arg × Texto)} (hf : ∀ p ∈ l, Fixed p.2)
    (hb : ∀ p ∈ l, ∀ v, p.1 = .bare v → Bare v) :
    (partsText l).countP isQuote ≤ weight (partsTokens l) := by
  induction l with
  | nil => exact le_refl 0
  | cons p l ih =>
    have hrest :=
      ih (fun q hq ↦ hf q (List.mem_cons_of_mem p hq)) (fun q hq ↦ hb q (List.mem_cons_of_mem p hq))
    have hfixed := (hf p List.mem_cons_self).quotes
    obtain ⟨arg, f⟩ := p
    simp only [partsText_cons, partsTokens_cons, List.countP_append, weight_append,
      hfixed] at hrest ⊢
    cases arg with
    | quoted v =>
      rw [Arg.quotes_quoted]
      omega
    | bare v =>
      have hv : (Arg.bare v).text.countP isQuote = 0 := (hb _ List.mem_cons_self v rfl).quotes
      omega

theorem lex_part {a : Arg} {f : Texto} (hf : Fixed f) (hclean : ∀ v, a = .quoted v → isClean v)
    (hbare : ∀ v, a = .bare v → Bare v) (l : List (Arg × Texto)) :
    lex (partsText ((a, f) :: l)) =
      (lex (partsText l)).map (fun ts ↦ a.tokens ++ (fixedTokens f ++ ts)) := by
  have htail : lex (f ++ partsText l) = (lex (partsText l)).map (fixedTokens f ++ ·) :=
    lex_fixed hf.complete _
  have hread : lex (partsText ((a, f) :: l)) = (lex (f ++ partsText l)).map (a.tokens ++ ·) := by
    rw [partsText_cons]
    cases a with
    | quoted v =>
      have hsplit : (Arg.quoted v).text ++ (f ++ partsText l) = literal v (f ++ partsText l) := by
        rw [Arg.text, List.cons_append, List.append_assoc]
        rfl
      rw [hsplit]
      exact lex_literal (hf.head_ne _) (hclean v rfl)
    | bare v =>
      cases f with
      | nil => exact absurd hf.delimiter Bool.false_ne_true
      | cons c f => exact (hbare v rfl).read c _ hf.delimiter
  rw [hread, htail, Option.map_map]
  rfl

theorem isClean_of_lex_part {v f : Texto} {l : List (Arg × Texto)} (hf : Fixed f)
    (hquotes : (partsText l).countP isQuote ≤ weight (partsTokens l))
    (h : lex (partsText ((.quoted v, f) :: l)) = some (partsTokens ((.quoted v, f) :: l))) :
    isClean v := by
  have hsplit : partsText ((.quoted v, f) :: l) = literal v (f ++ partsText l) := by
    rw [partsText_cons, Arg.text, List.cons_append, List.append_assoc]
    rfl
  rw [hsplit, partsTokens_cons] at h
  have hcount : (f ++ partsText l).countP isQuote ≤ weight (fixedTokens f ++ partsTokens l) := by
    rw [List.countP_append, weight_append, hf.quotes]
    omega
  exact isClean_of_lex_literal (hf.head_ne _) hcount h

theorem lex_parts_iff {l : List (Arg × Texto)} (hf : ∀ p ∈ l, Fixed p.2)
    (hb : ∀ p ∈ l, ∀ v, p.1 = .bare v → Bare v) :
    lex (partsText l) = some (partsTokens l) ↔ ∀ p ∈ l, ∀ v, p.1 = .quoted v → isClean v := by
  induction l with
  | nil => exact iff_of_true rfl (fun p hp ↦ absurd hp List.not_mem_nil)
  | cons p l ih =>
    have hf' := fun q hq ↦ hf q (List.mem_cons_of_mem p hq)
    have hb' := fun q hq ↦ hb q (List.mem_cons_of_mem p hq)
    have hfixed := hf p List.mem_cons_self
    have hbare := hb p List.mem_cons_self
    rw [List.forall_mem_cons, ← ih hf' hb']
    obtain ⟨arg, f⟩ := p
    have hrest (hclean : ∀ v, arg = .quoted v → isClean v) :
        lex (partsText ((arg, f) :: l)) = some (partsTokens ((arg, f) :: l)) ↔
          lex (partsText l) = some (partsTokens l) := by
      rw [lex_part hfixed hclean hbare, partsTokens_cons, Option.map_eq_some_iff]
      simp only [List.append_cancel_left_eq, exists_eq_right]
    constructor
    · intro h
      have hclean : ∀ v, arg = .quoted v → isClean v := by
        rintro v rfl
        exact isClean_of_lex_part hfixed (quotes_le_weight hf' hb') h
      exact ⟨hclean, (hrest hclean).mp h⟩
    · rintro ⟨hclean, h⟩
      exact (hrest hclean).mpr h

/-- A statement is read as its fixed tokens with one literal for each value, each of
them with that value, exactly when its quoted values are clean. -/
theorem lex_text_iff {s : Statement} (h : Regular s) :
    lex s.text = some s.tokens ↔ ∀ p ∈ s.parts, ∀ v, p.1 = .quoted v → isClean v := by
  rw [← lex_parts_iff h.fixed h.bare, Statement.text, lex_fixed h.head, Option.map_eq_some_iff]
  simp only [tokens, List.append_cancel_left_eq, exists_eq_right]

end Reading

section Numbers

variable {s v acc : Texto} {c : Char} {m : Mode} {ts us : List Token}

def isBreak (c : Char) : Bool := isDelimiter c || isSpace c

/-- The token at hand ends where a delimiter or white space comes next. -/
def Complete (m : Mode) (ts : List Token) : Prop := ∀ c, isBreak c → step m c = flush ts c

theorem break_cases (h : isBreak c) :
    c ∈ [',', ')', ';', ' ', '\t', '\n', '\x0b', '\x0c', '\r'] := by
  simp only [isBreak, isDelimiter, isSpace, Bool.or_eq_true, decide_eq_true_eq] at h
  simp only [List.mem_cons, List.not_mem_nil, or_false]
  tauto

theorem complete_start : Complete .start [] := fun _ _ ↦ rfl

theorem complete_word (s : Texto) : Complete (.word s) [.word s] := by
  intro c hc
  have hcases := break_cases hc
  simp only [List.mem_cons, List.not_mem_nil, or_false] at hcases
  rcases hcases with rfl | rfl | rfl | rfl | rfl | rfl | rfl | rfl | rfl <;> rfl

theorem complete_digits (s : Texto) : Complete (.digits s) [.number s] := by
  intro c hc
  have hcases := break_cases hc
  simp only [List.mem_cons, List.not_mem_nil, or_false] at hcases
  rcases hcases with rfl | rfl | rfl | rfl | rfl | rfl | rfl | rfl | rfl <;> rfl

theorem complete_fraction (s : Texto) : Complete (.fraction s) [.number s] := by
  intro c hc
  have hcases := break_cases hc
  simp only [List.mem_cons, List.not_mem_nil, or_false] at hcases
  rcases hcases with rfl | rfl | rfl | rfl | rfl | rfl | rfl | rfl | rfl <;> rfl

theorem complete_exponent (s : Texto) : Complete (.exponent s) [.number s] := by
  intro c hc
  have hcases := break_cases hc
  simp only [List.mem_cons, List.not_mem_nil, or_false] at hcases
  rcases hcases with rfl | rfl | rfl | rfl | rfl | rfl | rfl | rfl | rfl <;> rfl

theorem lex_complete (hrun : run .start v = (us, m)) (hm : Complete m ts) (rest : Texto)
    (hc : isBreak c) :
    lex (v ++ c :: rest) = (lex (c :: rest)).map (us ++ ts ++ ·) := by
  rw [lex, lexFrom_append, hrun, lexFrom_cons, hm c hc, lex, lexFrom_cons, Option.map_map,
    Option.map_map]
  congr 1
  funext us
  simp only [Function.comp_apply, flush, step, List.append_assoc]

theorem run_spaces {b : Texto} (hb : ∀ c ∈ b, isSpace c) : run .start b = ([], .start) := by
  induction b with
  | nil => rfl
  | cons c b ih =>
    have hc : ofStart c = ([], .start) := by rw [ofStart, if_pos (hb c List.mem_cons_self)]
    simp only [run, step, hc, ih (fun d hd ↦ hb d (List.mem_cons_of_mem c hd)), List.append_nil]

/-- White space around a value changes nothing but where its last token ends. -/
theorem run_padded {a b : Texto} (ha : ∀ c ∈ a, isSpace c) (hb : ∀ c ∈ b, isSpace c)
    (hrun : run .start v = (us, m)) (hm : Complete m ts) :
    ∃ us' m' ts', run .start (a ++ v ++ b) = (us', m') ∧ Complete m' ts' ∧
      us' ++ ts' = us ++ ts := by
  rw [List.append_assoc, run_append, run_spaces ha, run_append, hrun]
  cases b with
  | nil => exact ⟨us, m, ts, by simp only [run, List.append_nil, List.nil_append], hm, rfl⟩
  | cons c b =>
    have hc : isSpace c := hb c List.mem_cons_self
    have hstart : ofStart c = ([], .start) := by rw [ofStart, if_pos hc]
    have hstep : step m c = (ts, .start) := by
      rw [hm c (by simp only [isBreak, hc, Bool.or_true]), flush, hstart, List.append_nil]
    refine ⟨us ++ ts, .start, [], ?_, complete_start, List.append_nil _⟩
    simp only [run, hstep, run_spaces (fun d hd ↦ hb d (List.mem_cons_of_mem c hd)),
      List.append_nil, List.nil_append]

theorem run_while {f : Texto → Mode} (hf : ∀ s c, c.isDigit → step (f s) c = ([], f (s ++ [c])))
    (s : Texto) {d : Texto} (h : ∀ c ∈ d, c.isDigit) : run (f s) d = ([], f (s ++ d)) := by
  induction d generalizing s with
  | nil => simp only [run, List.append_nil]
  | cons c d ih =>
    simp only [run, hf s c (h c List.mem_cons_self),
      ih (s ++ [c]) (fun e he ↦ h e (List.mem_cons_of_mem c he)), List.append_assoc,
      List.nil_append, List.singleton_append]

theorem run_digits (s : Texto) {d : Texto} (h : ∀ c ∈ d, c.isDigit) :
    run (.digits s) d = ([], .digits (s ++ d)) :=
  run_while (fun _ _ hc ↦ by simp only [step, hc, if_true]) s h

theorem run_fraction (s : Texto) {d : Texto} (h : ∀ c ∈ d, c.isDigit) :
    run (.fraction s) d = ([], .fraction (s ++ d)) :=
  run_while (fun _ _ hc ↦ by simp only [step, hc, if_true]) s h

theorem run_exponent (s : Texto) {d : Texto} (h : ∀ c ∈ d, c.isDigit) :
    run (.exponent s) d = ([], .exponent (s ++ d)) :=
  run_while (fun _ _ hc ↦ by simp only [step, hc, if_true]) s h

theorem ofStart_digit (h : c.isDigit) : ofStart c = ([], .digits [c]) := by
  have hcases := digit_cases h
  simp only [List.mem_cons, List.not_mem_nil, or_false] at hcases
  rcases hcases with rfl | rfl | rfl | rfl | rfl | rfl | rfl | rfl | rfl | rfl <;> rfl

theorem run_start_digits {d : Texto} (h : ∀ c ∈ d, c.isDigit) (hd : d ≠ []) :
    run .start d = ([], .digits d) := by
  obtain ⟨c, d, rfl⟩ := List.exists_cons_of_ne_nil hd
  simp only [run, step, ofStart_digit (h c List.mem_cons_self),
    run_digits [c] (fun e he ↦ h e (List.mem_cons_of_mem c he)), List.append_nil,
    List.singleton_append]

def IsNumber (m : Mode) (acc s : Texto) : Prop :=
  ∃ m', run m s = ([], m') ∧ Complete m' [.number (acc ++ s)]

theorem readExponent_cases {s : Texto} {e : ℤ} (h : readExponent s = (e, [])) :
    s = [] ∨ ∃ c d, (c = 'e' ∨ c = 'E') ∧ (readSign d).2 ≠ [] ∧ (∀ x ∈ (readSign d).2, x.isDigit) ∧
      s = c :: d := by
  cases s with
  | nil => exact Or.inl rfl
  | cons c d =>
    simp only [readExponent] at h
    split_ifs at h with hc
    · obtain ⟨hmark, htake⟩ := hc
      have hall := List.dropWhile_eq_nil_iff.mp (Prod.mk.inj h).2
      refine Or.inr ⟨c, d, hmark, fun hnil ↦ htake ?_, hall, rfl⟩
      rw [hnil]
      rfl
    · cases (Prod.mk.inj h).2

theorem readSign_cases (s : Texto) :
    s = (readSign s).2 ∨ s = '+' :: (readSign s).2 ∨ s = '-' :: (readSign s).2 := by
  unfold readSign
  split <;> simp

theorem IsNumber.cons {n : Mode} (hstep : step m c = ([], n)) (h : IsNumber n (acc ++ [c]) s) :
    IsNumber m acc (c :: s) := by
  obtain ⟨m'', hrun, hm⟩ := h
  refine ⟨m'', by simp only [run, hstep, hrun, List.append_nil], ?_⟩
  simpa only [List.append_assoc, List.singleton_append] using hm

theorem isNumber_exponent (h : ∀ c ∈ s, c.isDigit) : IsNumber (.exponent acc) acc s :=
  ⟨_, run_exponent acc h, complete_exponent _⟩

theorem isNumber_exponent_of_step (hstep : ∀ c, c.isDigit → step m c = ([], .exponent (acc ++ [c])))
    (hs : s ≠ []) (h : ∀ c ∈ s, c.isDigit) : IsNumber m acc s := by
  obtain ⟨c, d, rfl⟩ := List.exists_cons_of_ne_nil hs
  exact .cons (hstep c (h c List.mem_cons_self))
    (isNumber_exponent (fun e he ↦ h e (List.mem_cons_of_mem c he)))

theorem isNumber_sign {f : Texto → Mode}
    (hf : ∀ s c, c.isDigit → step (f s) c = ([], .exponent (s ++ [c])))
    (hg : ∀ s c d, (c = '+' ∨ c = '-') → ∃ m, step (f s) c = ([], m) ∧
      (d.isDigit → step m d = ([], .exponent (s ++ [c, d]))))
    {d : Texto} (hd : (readSign d).2 ≠ [])
      (h : ∀ x ∈ (readSign d).2, x.isDigit) : IsNumber (f acc) acc d := by
  have hsigned {c : Char} (hc : c = '+' ∨ c = '-') (hcd : d = c :: (readSign d).2) :
      IsNumber (f acc) acc d := by
    obtain ⟨x, -, -⟩ := List.exists_cons_of_ne_nil hd
    obtain ⟨m, hm, -⟩ := hg acc c x hc
    rw [hcd]
    refine .cons hm (isNumber_exponent_of_step (fun y hy ↦ ?_) hd h)
    obtain ⟨m', hm', hy'⟩ := hg acc c y hc
    rw [List.append_assoc, List.singleton_append, ← hy' hy, ← (Prod.mk.inj (hm.symm.trans hm')).2]
  rcases readSign_cases d with hcd | hcd | hcd
  · rw [hcd]
    exact isNumber_exponent_of_step (hf acc) hd h
  · exact hsigned (Or.inl rfl) hcd
  · exact hsigned (Or.inr rfl) hcd

theorem isNumber_digits_end {e : ℤ} (h : readExponent s = (e, [])) :
    IsNumber (.digits acc) acc s := by
  rcases readExponent_cases h with rfl | ⟨c, d, hc, hd, hall, rfl⟩
  · exact ⟨.digits acc, rfl, by simpa only [List.append_nil] using complete_digits acc⟩
  · refine .cons (n := .mark (acc ++ [c])) (by rcases hc with rfl | rfl <;> rfl) ?_
    refine isNumber_sign (f := .mark) (fun s c hc ↦ by simp only [step, hc, if_true]) ?_ hd hall
    rintro s c x (rfl | rfl)
    · exact ⟨.markSign s '+', rfl, fun hx ↦ by simp only [step, hx, if_true]⟩
    · exact ⟨.markSign s '-', rfl, fun hx ↦ by simp only [step, hx, if_true]⟩

theorem isNumber_fraction_end {e : ℤ} (h : readExponent s = (e, [])) :
    IsNumber (.fraction acc) acc s := by
  rcases readExponent_cases h with rfl | ⟨c, d, hc, hd, hall, rfl⟩
  · exact ⟨.fraction acc, rfl, by simpa only [List.append_nil] using complete_fraction acc⟩
  · refine .cons (n := .fractionMark (acc ++ [c])) (by rcases hc with rfl | rfl <;> rfl) ?_
    refine isNumber_sign (f := .fractionMark)
      (fun s c hc ↦ by simp only [step, hc, if_true]) ?_ hd hall
    rintro s c x (rfl | rfl)
    · exact ⟨.fractionSign (s ++ ['+']), rfl,
      fun hx ↦ by simp only [step, hx, if_true, List.append_assoc, List.singleton_append]⟩
    · exact ⟨.fractionSign (s ++ ['-']), rfl,
      fun hx ↦ by simp only [step, hx, if_true, List.append_assoc, List.singleton_append]⟩

structure Parts (s i f e : Texto) : Prop where
  eq : s = i ++ (f ++ e)
  digits : ∀ c ∈ i, c.isDigit
  fraction : f = [] ∧ i ≠ [] ∨ ∃ d, f = '.' :: d ∧ (∀ c ∈ d, c.isDigit) ∧ (i ≠ [] ∨ d ≠ [])
  exponent : (readExponent e).2 = []

theorem parts_of_readNumeral {x : Numeral} (h : readNumeral s = some (x, [])) :
    ∃ e f p, Parts (readSign s).2 e f p := by
  simp only [readNumeral] at h
  split_ifs at h with hnone
  have hexp := (Prod.mk.inj (Option.some.inj h)).2
  have hsplit := List.takeWhile_append_dropWhile (p := Char.isDigit) (l := (readSign s).2)
  have hdigits : ∀ c ∈ (readSign s).2.takeWhile Char.isDigit, c.isDigit :=
    fun c hc ↦ List.mem_takeWhile_imp hc
  generalize (readSign s).2.takeWhile Char.isDigit = e at *
  generalize (readSign s).2.dropWhile Char.isDigit = r at *
  cases r with
  | nil =>
    refine ⟨e, [], [], ⟨hsplit.symm, hdigits, Or.inl ⟨rfl, fun he ↦ hnone ⟨he, rfl⟩⟩, rfl⟩⟩
  | cons c r =>
    by_cases hc : c = '.'
    · subst hc
      refine ⟨e, '.' :: r.takeWhile Char.isDigit, r.dropWhile Char.isDigit, ⟨?_, hdigits,
        Or.inr ⟨_, rfl, ?_, ?_⟩, hexp⟩⟩
      · rw [List.cons_append, List.takeWhile_append_dropWhile]
        exact hsplit.symm
      · exact fun c hc ↦ List.mem_takeWhile_imp hc
      · exact not_and_or.mp hnone
    · have hread : readFraction (c :: r) = ([], c :: r) := by
        unfold readFraction
        split
        · rename_i he
          exact absurd (List.cons.inj he).1 hc
        · rfl
      rw [hread] at hexp hnone
      exact ⟨e, [], c :: r, ⟨hsplit.symm, hdigits, Or.inl ⟨rfl, fun he ↦ hnone ⟨he, rfl⟩⟩, hexp⟩⟩

theorem IsNumber.append {m' : Mode} {d : Texto} (hrun : run m d = ([], m'))
    (h : IsNumber m' (acc ++ d) s) :
    IsNumber m acc (d ++ s) := by
  obtain ⟨m'', hrun', hm⟩ := h
  refine ⟨m'', by simp only [run_append, hrun, hrun', List.append_nil], ?_⟩
  simpa only [List.append_assoc] using hm

theorem Parts.isNumber {e f p : Texto} (h : Parts s e f p) : IsNumber .start [] s := by
  rw [h.eq]
  have hexp : readExponent p = ((readExponent p).1, []) := Prod.ext rfl h.exponent
  rcases h.fraction with ⟨rfl, he⟩ | ⟨d, rfl, hd, hne⟩
  · exact .append (run_start_digits h.digits he) (isNumber_digits_end hexp)
  · by_cases he : e = []
    · subst he
      obtain ⟨c, d, rfl⟩ := List.exists_cons_of_ne_nil (hne.resolve_left (fun hn ↦ hn rfl))
      refine .cons (n := .point) rfl (.cons (n := .fraction ['.', c]) ?_ ?_)
      · simp only [step, hd c List.mem_cons_self, if_true]
      · exact .append (run_fraction _ (fun x hx ↦ hd x (List.mem_cons_of_mem c hx)))
          (isNumber_fraction_end hexp)
    · refine .append (run_start_digits h.digits he) (.cons (n := .fraction (e ++ ['.'])) rfl ?_)
      exact .append (run_fraction _ hd) (isNumber_fraction_end hexp)

theorem Parts.head {e f p : Texto} (h : Parts s e f p) : ∃ c t, s = c :: t ∧ c ≠ '+' ∧ c ≠ '-' := by
  rw [h.eq]
  cases he : e with
  | cons c e =>
    have hc := h.digits c (he ▸ List.mem_cons_self)
    refine ⟨c, _, rfl, ?_, ?_⟩ <;> rintro rfl <;> cases hc
  | nil =>
    rcases h.fraction with ⟨-, hn⟩ | ⟨d, rfl, -, -⟩
    · exact absurd he hn
    · exact ⟨'.', _, rfl, by decide, by decide⟩

theorem plain_of_readSign {s : Texto} (h : Plain (readSign s).2) : Plain s := by
  rcases readSign_cases s with hs | hs | hs <;> rw [hs]
  · exact h
  · exact h.cons rfl
  · exact h.cons rfl

theorem Parts.plain {i f e : Texto} (h : Parts s i f e) : Plain s := by
  rw [h.eq]
  refine (plain_of_isDigit h.digits).append (.append ?_ ?_)
  · rcases h.fraction with ⟨rfl, -⟩ | ⟨d, rfl, hd, -⟩
    · exact plain_nil
    · exact (plain_of_isDigit hd).cons rfl
  · rcases readExponent_cases (Prod.ext rfl h.exponent) with rfl | ⟨c, d, hc, -, hall, rfl⟩
    · exact plain_nil
    · exact (plain_of_readSign (plain_of_isDigit hall)).cons (by rcases hc with rfl | rfl <;> rfl)

theorem Parts.run_signed {i f e : Texto} (h : Parts (readSign v).2 i f e) :
    ∃ us m ts, run .start v = (us, m) ∧ Complete m ts ∧ us ++ ts = numberTokens v := by
  obtain ⟨m, hrun, hm⟩ := h.isNumber
  obtain ⟨c, t, hct, hplus, hminus⟩ := h.head
  rcases readSign_cases v with hv | hv | hv
  · rw [← hv] at hrun hm hct
    refine ⟨[], m, _, hrun, hm, ?_⟩
    rw [hct, numberTokens]
    · rfl
    · exact fun s hs ↦ hplus (List.cons.inj hs).1
    · exact fun s hs ↦ hminus (List.cons.inj hs).1
  · refine ⟨[.symbol '+'], m, _, ?_, hm, by rw [hv]; rfl⟩
    rw [hv, run, show step .start '+' = ([.symbol '+'], .start) from rfl, hrun]
    rfl
  · refine ⟨[.symbol '-'], m, _, ?_, hm, by rw [hv]; rfl⟩
    rw [hv, run, show step .start '-' = ([], .dash) from rfl]
    rw [hct, run] at hrun ⊢
    have hdash : step .dash c = flush [.symbol '-'] c := by rw [step, ofDash, if_neg hminus]
    obtain ⟨hnil, hmode⟩ := Prod.mk.inj hrun
    rw [hdash]
    refine Prod.ext ?_ hmode
    change [] ++ ([Token.symbol '-'] ++ (ofStart c).1 ++ (run (ofStart c).2 t).1) = [.symbol '-']
    rw [List.nil_append, List.append_assoc]
    exact congrArg ([Token.symbol '-'] ++ ·) hnil

theorem trimmed_split (v : Texto) :
    ∃ a b, v = a ++ trimmed v ++ b ∧ (∀ c ∈ a, isSpace c) ∧ ∀ c ∈ b, isSpace c := by
  have hblank {c : Char} (h : isBlank c) : isSpace c := by
    simp only [isBlank, isSpace, Bool.or_eq_true, decide_eq_true_eq] at h ⊢
    tauto
  refine
    ⟨v.takeWhile isBlank, ((v.dropWhile isBlank).reverse.takeWhile isBlank).reverse, ?_, ?_, ?_⟩
  · rw [trimmed, List.append_assoc, ← List.reverse_append, List.takeWhile_append_dropWhile,
      List.reverse_reverse, List.takeWhile_append_dropWhile]
  · exact fun c hc ↦ hblank (List.mem_takeWhile_imp hc)
  · exact fun c hc ↦ hblank (List.mem_takeWhile_imp (List.mem_reverse.mp hc))

theorem plain_of_trimmed (h : Plain (trimmed v)) : Plain v := by
  obtain ⟨a, b, hsplit, ha, hb⟩ := trimmed_split v
  rw [hsplit]
  exact ((plain_of_isSpace ha).append h).append (plain_of_isSpace hb)

theorem bare_of_parts {i f e : Texto} (hv : v ≠ "NULL".toList)
    (h : Parts (readSign (trimmed v)).2 i f e) :
    Bare v := by
  obtain ⟨a, b, hsplit, ha, hb⟩ := trimmed_split v
  refine ⟨fun c rest hc ↦ ?_, (plain_of_trimmed (plain_of_readSign h.plain)).quotes⟩
  obtain ⟨us, m, ts, hrun, hm, htokens⟩ := h.run_signed
  obtain ⟨us', m', ts', hrun', hm', htokens'⟩ := run_padded ha hb hrun hm
  rw [← hsplit] at hrun'
  have hbreak : isBreak c := by simp only [isBreak, hc, Bool.true_or]
  rw [lex_complete hrun' hm' rest hbreak, htokens', htokens, bareTokens, if_neg hv]

theorem bare_null : Bare "NULL".toList where
  read c rest hc := by
    have hbreak : isBreak c := by simp only [isBreak, hc, Bool.true_or]
    have hrun : run .start "NULL".toList = ([], .word "NULL".toList) := rfl
    exact lex_complete hrun (complete_word _) rest hbreak
  quotes := rfl

theorem parts_of_filterValidateInt {n : ℤ} (h : filterValidateInt v = some n) :
    Parts (readSign (trimmed v)).2 (readSign (trimmed v)).2 [] [] := by
  simp only [filterValidateInt] at h
  split_ifs at h with hzero hdigits
  · rw [hzero]
    exact ⟨rfl, by decide, Or.inl ⟨rfl, by decide⟩, rfl⟩
  · obtain ⟨hne, hall, -⟩ := hdigits
    exact ⟨by rw [List.append_nil, List.append_nil], List.all_eq_true.mp hall,
      Or.inl ⟨rfl, hne⟩, rfl⟩

theorem bare_of_filterValidateInt {n : ℤ} (h : filterValidateInt v = some n) : Bare v := by
  refine bare_of_parts ?_ (parts_of_filterValidateInt h)
  rintro rfl
  cases h

theorem bare_of_validFloat (h : validFloat (some v)) : Bare v := by
  have hv : v ≠ "NULL".toList := by
    rintro rfl
    cases h
  unfold validFloat at h
  split at h
  · rename_i x hx
    obtain ⟨i, f, e, hp⟩ := parts_of_readNumeral hx
    exact bare_of_parts hv hp
  · cases h

theorem validInt_cases {x : Valor} (h : validInt x) :
    ∃ n, filterValidateInt (strval x) = some n ∧ n ≠ 0 := by
  unfold validInt at h
  cases hn : filterValidateInt (strval x) with
  | none => rw [hn] at h; cases h
  | some n =>
    rw [hn] at h
    exact ⟨n, rfl, of_decide_eq_true h⟩

theorem plain_of_validInt {x : Valor} (h : validInt x) : Plain (strval x) := by
  obtain ⟨n, hn, -⟩ := validInt_cases h
  exact plain_of_trimmed (plain_of_readSign (parts_of_filterValidateInt hn).plain)

theorem plain_of_numeric {x : Numeral} (h : numeric s = some x) : Plain s := by
  unfold numeric at h
  split at h
  · rename_i y hy
    obtain ⟨i, f, e, hp⟩ := parts_of_readNumeral hy
    rw [← List.takeWhile_append_dropWhile (p := isSpace) (l := s)]
    exact (plain_of_isSpace (fun c hc ↦ List.mem_takeWhile_imp hc)).append
      (plain_of_readSign hp.plain)
  · cases h

theorem plain_of_looselyEqual {t : Texto} (h : looselyEqual s t) (ht : Plain t) : Plain s := by
  simp only [looselyEqual, Bool.or_eq_true, decide_eq_true_eq] at h
  rcases h with rfl | h
  · exact ht
  · split at h
    · rename_i x y hx _
      exact plain_of_numeric hx
    · cases h

theorem plain_of_inArray {x : Valor} {l : List String} (h : inArray x l)
    (hl : ∀ t ∈ l, Plain t.toList) :
    Plain (strval x) := by
  cases x with
  | none => exact plain_nil
  | some s =>
    obtain ⟨t, ht, hs⟩ := List.any_eq_true.mp h
    exact plain_of_looselyEqual hs (hl t ht)

end Numbers

end ServiciosRed.Statements
