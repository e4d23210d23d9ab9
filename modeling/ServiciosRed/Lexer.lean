import ServiciosRed.Text

namespace ServiciosRed.Lexer

open Text

inductive Token
  | word (s : Texto)
  | symbol (c : Char)
  | number (s : Texto)
  | str (s : Texto)
  | quotedName (s : Texto)
  deriving DecidableEq

def isIdent (c : Char) : Bool := c.isAlphanum || c = '_' || c = '$' || 128 ≤ c.toNat

/-- The quotes of a string. A backtick quotes a name. -/
def isQuote (c : Char) : Bool := c = '\'' || c = '"'

def isExponentMark (c : Char) : Bool := c = 'e' || c = 'E'

/-- Between two characters the lexer of MySQL holds what it has read of the
token at hand. -/
inductive Mode
  | start
  | word (s : Texto)
  | quoted (q : Char) (s : Texto)
  | escape (q : Char) (s : Texto)
  | closed (q : Char) (s : Texto)
  | point
  | digits (s : Texto)
  | fraction (s : Texto)
  | mark (s : Texto)
  | markSign (s : Texto) (c : Char)
  | fractionMark (s : Texto)
  | fractionSign (s : Texto)
  | exponent (s : Texto)
  | dash
  | dashes
  | slash
  | line
  | open
  | block
  | star
  | broken

abbrev Output := List Token × Mode

def ofStart (c : Char) : Output :=
  if isSpace c then ([], .start)
  else if isQuote c || c = '`' then ([], .quoted c [])
  else if c.isDigit then ([], .digits [c])
  else if isIdent c then ([], .word [c])
  else if c = '.' then ([], .point)
  else if c = '-' then ([], .dash)
  else if c = '/' then ([], .slash)
  else if c = '#' then ([], .line)
  else if c = '\x00' then ([], .broken)
  else ([.symbol c], .start)

def flush (ts : List Token) (c : Char) : Output := (ts ++ (ofStart c).1, (ofStart c).2)

def quotedToken (q : Char) (s : Texto) : Token := if isQuote q then .str s else .quotedName s

def escaped (c : Char) : Texto :=
  if c = '%' ∨ c = '_' then ['\\', c]
  else if c = '0' then ['\x00']
  else if c = 'n' then ['\n']
  else if c = 't' then ['\t']
  else if c = 'r' then ['\r']
  else if c = 'b' then ['\x08']
  else if c = 'Z' then ['\x1a']
  else [c]

def ofDash (c : Char) : Output := if c = '-' then ([], .dashes) else flush [.symbol '-'] c

def ofQuoted (q : Char) (s : Texto) (c : Char) : Mode :=
  if c = q then .closed q s else if c = '\\' && isQuote q then .escape q s else .quoted q (s ++ [c])

def ofClosed (q : Char) (s : Texto) (c : Char) : Output :=
  if c = q then ([], .quoted q (s ++ [c])) else flush [quotedToken q s] c

/-- A word may stand for the prefix of a literal in another notation. -/
def ofWord (s : Texto) (c : Char) : Output :=
  if isIdent c then ([], .word (s ++ [c]))
  else if isQuote c && s.map Char.toLower ∈ [['x'], ['b'], ['n']] then ([], .broken)
  else flush [.word s] c

def step : Mode → Char → Output
  | .start, c => ofStart c
  | .word s, c => ofWord s c
  | .quoted q s, c => ([], ofQuoted q s c)
  | .escape q s, c => ([], .quoted q (s ++ escaped c))
  | .closed q s, c => ofClosed q s c
  | .point, c => if c.isDigit then ([], .fraction ['.', c]) else flush [.symbol '.'] c
  | .digits s, c =>
    if c.isDigit then ([], .digits (s ++ [c]))
    else if c = '.' then ([], .fraction (s ++ [c]))
    else if isExponentMark c then ([], .mark (s ++ [c]))
    else if isIdent c then ([], .word (s ++ [c]))
    else flush [.number s] c
  | .fraction s, c =>
    if c.isDigit then ([], .fraction (s ++ [c]))
    else if isExponentMark c then ([], .fractionMark (s ++ [c]))
    else flush [.number s] c
  | .mark s, c =>
    if c.isDigit then ([], .exponent (s ++ [c]))
    else if c = '+' ∨ c = '-' then ([], .markSign s c)
    else ofWord s c
  | .markSign s d, c =>
    if c.isDigit then ([], .exponent (s ++ [d, c]))
    else if d = '-' then (.word s :: (ofDash c).1, (ofDash c).2)
    else flush [.word s, .symbol d] c
  | .fractionMark s, c =>
    if c.isDigit then ([], .exponent (s ++ [c]))
    else if c = '+' ∨ c = '-' then ([], .fractionSign (s ++ [c]))
    else ([], .broken)
  | .fractionSign s, c => if c.isDigit then ([], .exponent (s ++ [c])) else ([], .broken)
  | .exponent s, c => if c.isDigit then ([], .exponent (s ++ [c])) else flush [.number s] c
  | .dash, c => ofDash c
  | .dashes, c =>
    if c = '\n' then ([], .start)
    else if c.toNat ≤ 32 then ([], .line)
    else (.symbol '-' :: (ofDash c).1, (ofDash c).2)
  | .slash, c => if c = '*' then ([], .open) else flush [.symbol '/'] c
  | .line, c => ([], if c = '\n' then .start else .line)
  | .open, c => ([], if c = '!' then .broken else if c = '*' then .star else .block)
  | .block, c => ([], if c = '*' then .star else .block)
  | .star, c => ([], if c = '/' then .start else if c = '*' then .star else .block)
  | .broken, _ => ([], .broken)

/-- The tokens that the end of the text completes. Inside a string, a name or a
comment the text cannot end. -/
def finish : Mode → Option (List Token)
  | .start | .dashes | .line => some []
  | .word s | .mark s => some [.word s]
  | .closed q s => some [quotedToken q s]
  | .point => some [.symbol '.']
  | .digits s | .fraction s | .exponent s => some [.number s]
  | .markSign s c => some [.word s, .symbol c]
  | .dash => some [.symbol '-']
  | .slash => some [.symbol '/']
  | .quoted _ _ | .escape _ _ | .fractionMark _ | .fractionSign
    _ | .open | .block | .star | .broken => none

def run : Mode → Texto → Output
  | m, [] => ([], m)
  | m, c :: s => ((step m c).1 ++ (run (step m c).2 s).1, (run (step m c).2 s).2)

def lexFrom (m : Mode) (s : Texto) : Option (List Token) :=
  (finish (run m s).2).map fun ts ↦ (run m s).1 ++ ts

def lex (s : Texto) : Option (List Token) := lexFrom .start s

theorem run_append (m : Mode) (s t : Texto) :
    run m (s ++ t) = ((run m s).1 ++ (run (run m s).2 t).1, (run (run m s).2 t).2) := by
  induction s generalizing m with
  | nil => rfl
  | cons c s ih => simp only [List.cons_append, run, ih, List.append_assoc]

theorem lexFrom_append (m : Mode) (s t : Texto) :
    lexFrom m (s ++ t) = (lexFrom (run m s).2 t).map fun ts ↦ (run m s).1 ++ ts := by
  simp only [lexFrom, run_append, Option.map_map]
  congr 1
  funext ts
  simp only [Function.comp_apply, List.append_assoc]

theorem lexFrom_cons (m : Mode) (c : Char) (s : Texto) :
    lexFrom m (c :: s) = (lexFrom (step m c).2 s).map fun ts ↦ (step m c).1 ++ ts := by
  have h := lexFrom_append m [c] s
  simpa only [List.singleton_append, run, List.append_nil] using h

section Quotes

def Token.quotes : Token → ℕ
  | .str s => 2 + s.countP isQuote
  | _ => 0

def weight (ts : List Token) : ℕ := (ts.map Token.quotes).sum

@[simp]
theorem weight_nil : weight [] = 0 := rfl

@[simp]
theorem weight_cons (t : Token) (ts : List Token) : weight (t :: ts) = t.quotes + weight ts := rfl

@[simp]
theorem weight_append (ts us : List Token) : weight (ts ++ us) = weight ts + weight us := by
  simp only [weight, List.map_append, List.sum_append]

def Mode.quotes : Mode → ℕ
  | .quoted q s | .escape q s => if isQuote q then 1 + s.countP isQuote else 0
  | .closed q s => if isQuote q then 2 + s.countP isQuote else 0
  | _ => 0

def cost (c : Char) : ℕ := if isQuote c then 1 else 0

def Pays (o : Output) (n : ℕ) : Prop := weight o.1 + o.2.quotes ≤ n

theorem Pays.mono {o : Output} {n k : ℕ} (h : Pays o n) (hk : n ≤ k) : Pays o k := Nat.le_trans h hk

theorem Pays.cons {t : Token} {o : Output} {n : ℕ} (ht : t.quotes = 0) (h : Pays o n) :
    Pays (t :: o.1, o.2) n := by
  simpa only [Pays, weight_cons, ht, Nat.zero_add] using h

theorem pays_silent {m : Mode} {n : ℕ} (h : m.quotes = 0) : Pays ([], m) n := by
  simp only [Pays, weight_nil, h]
  omega

theorem quotes_append_singleton (s : Texto) (c : Char) :
    (s ++ [c]).countP isQuote = s.countP isQuote + cost c := by
  simp only [List.countP_append, List.countP_singleton, cost]

theorem quotes_escaped (c : Char) : (escaped c).countP isQuote ≤ cost c := by
  unfold escaped
  split_ifs with h
  · rcases h with rfl | rfl <;> decide
  all_goals first
    | exact Nat.zero_le _
    | simp only [List.countP_singleton, cost, le_refl]

theorem quotes_quotedToken (q : Char) (s : Texto) :
    (quotedToken q s).quotes = (Mode.closed q s).quotes := by
  simp only [quotedToken, Mode.quotes]
  split_ifs <;> rfl

theorem pays_ofStart (c : Char) : Pays (ofStart c) (cost c) := by
  unfold ofStart
  split_ifs with _ hq
  · exact Nat.zero_le _
  · simp only [Pays, Mode.quotes, List.countP_nil, cost, weight_nil]
    split_ifs <;> omega
  all_goals exact Nat.zero_le _

theorem pays_flush (ts : List Token) (c : Char) : Pays (flush ts c) (weight ts + cost c) := by
  have h := pays_ofStart c
  simp only [Pays, flush, weight_append] at h ⊢
  omega

theorem pays_ofDash (c : Char) : Pays (ofDash c) (cost c) := by
  unfold ofDash
  split_ifs
  · exact Nat.zero_le _
  · simpa only [weight_cons, Token.quotes, weight_nil, Nat.zero_add] using pays_flush
      [.symbol '-'] c

theorem pays_ofWord (s : Texto) (c : Char) : Pays (ofWord s c) (cost c) := by
  unfold ofWord
  split_ifs
  · exact Nat.zero_le _
  · exact Nat.zero_le _
  · simpa only [weight_cons, Token.quotes, weight_nil, Nat.zero_add] using pays_flush [.word s] c

theorem pays_step (m : Mode) (c : Char) : Pays (step m c) (m.quotes + cost c) := by
  have hdash := (pays_ofDash c).mono (Nat.le_add_left _ m.quotes)
  have hword (s : Texto) := (pays_ofWord s c).mono (Nat.le_add_left _ m.quotes)
  have hflush (t : Token) (ht : t.quotes = 0) : Pays (flush [t] c) (m.quotes + cost c) :=
    (pays_flush [t] c).mono (by simp only [weight_cons, ht, weight_nil]; omega)
  cases m with
  | start => exact (pays_ofStart c).mono (Nat.le_add_left _ _)
  | word s => exact hword s
  | quoted q s =>
    simp only [step, ofQuoted, Pays, weight_nil]
    split_ifs with hc hb
    · subst hc
      simp only [Mode.quotes, cost]
      split_ifs <;> omega
    · simp only [Mode.quotes]
      omega
    · simp only [Mode.quotes, quotes_append_singleton]
      split_ifs <;> omega
  | escape q s =>
    have := quotes_escaped c
    simp only [step, Pays, weight_nil, Mode.quotes, List.countP_append]
    split_ifs <;> omega
  | closed q s =>
    simp only [step, ofClosed]
    split_ifs with hc
    · simp only [Pays, weight_nil, Mode.quotes, quotes_append_singleton]
      split_ifs <;> omega
    · refine (pays_flush _ c).mono ?_
      simp only [weight_cons, weight_nil, quotes_quotedToken]
      omega
  | point | digits s | fraction s | exponent s | slash =>
    simp only [step]
    split_ifs <;> first | exact pays_silent rfl | exact hflush _ rfl
  | mark s =>
    simp only [step]
    split_ifs
    · exact pays_silent rfl
    · exact pays_silent rfl
    · exact hword s
  | markSign s d =>
    simp only [step]
    split_ifs
    · exact pays_silent rfl
    · exact hdash.cons rfl
    · exact pays_flush _ c
  | dash => exact hdash
  | dashes =>
    simp only [step]
    split_ifs
    · exact pays_silent rfl
    · exact pays_silent rfl
    · exact hdash.cons rfl
  | line | «open» | block | star =>
    simp only [step]
    split_ifs <;> exact pays_silent rfl
  | fractionMark s | fractionSign s =>
    simp only [step]
    split_ifs <;> exact pays_silent rfl
  | broken => exact pays_silent rfl

theorem pays_run (m : Mode) (s : Texto) : Pays (run m s) (m.quotes + s.countP isQuote) := by
  induction s generalizing m with
  | nil => simp only [run, Pays, weight_nil, List.countP_nil, Nat.zero_add, Nat.add_zero, le_refl]
  | cons c s ih =>
    have hstep := pays_step m c
    have hrun := ih (step m c).2
    simp only [Pays, run, weight_append, List.countP_cons, cost] at hstep hrun ⊢
    omega

theorem weight_finish {m : Mode} {ts : List Token} (h : finish m = some ts) :
    weight ts ≤ m.quotes := by
  cases m with
  | closed q s =>
    cases h
    simp only [weight_cons, quotes_quotedToken, weight_nil, Nat.add_zero, le_refl]
  | _ => cases h <;> exact Nat.zero_le _

/-- The string tokens of a text fit into its quotes. -/
theorem weight_lexFrom {m : Mode} {s : Texto} {ts : List Token} (h : lexFrom m s = some ts) :
    weight ts ≤ m.quotes + s.countP isQuote := by
  obtain ⟨us, hus, rfl⟩ := Option.map_eq_some_iff.mp h
  have hrun := pays_run m s
  have hend := weight_finish hus
  simp only [Pays, weight_append] at hrun ⊢
  omega

end Quotes

section Literal

/-- A text that stands for itself between two quotes: it has no quote, and its
backslashes only come before a wildcard. -/
def isClean : Texto → Bool
  | [] => true
  | '\\' :: c :: s => (c = '%' || c = '_') && isClean s
  | c :: s => c ≠ '\'' && c ≠ '\\' && isClean s

def literal (v rest : Texto) : Texto := '\'' :: (v ++ '\'' :: rest)

variable {acc v rest : Texto} {u : Texto} {ts : List Token} {n : ℕ}

theorem lexFrom_quoted_self (acc s : Texto) :
    lexFrom (.quoted '\'' acc) ('\'' :: s) = lexFrom (.closed '\'' acc) s := by
  simp [lexFrom_cons, step, ofQuoted]

theorem lexFrom_quoted_backslash (acc s : Texto) :
    lexFrom (.quoted '\'' acc) ('\\' :: s) = lexFrom (.escape '\'' acc) s := by
  simp [lexFrom_cons, step, ofQuoted, isQuote]

theorem lexFrom_quoted_of_ne {c : Char} (h : c ≠ '\'') (h' : c ≠ '\\') (acc s : Texto) :
    lexFrom (.quoted '\'' acc) (c :: s) = lexFrom (.quoted '\'' (acc ++ [c])) s := by
  simp [lexFrom_cons, step, ofQuoted, h, h']

theorem lexFrom_escape (acc s : Texto) (c : Char) :
    lexFrom (.escape '\'' acc) (c :: s) = lexFrom (.quoted '\'' (acc ++ escaped c)) s := by
  simp [lexFrom_cons, step]

theorem lexFrom_closed_self (acc s : Texto) :
    lexFrom (.closed '\'' acc) ('\'' :: s) = lexFrom (.quoted '\'' (acc ++ ['\''])) s := by
  simp [lexFrom_cons, step, ofClosed]

theorem lexFrom_closed {s : Texto} (h : s.head? ≠ some '\'') (acc : Texto) :
    lexFrom (.closed '\'' acc) s = (lex s).map (Token.str acc :: ·) := by
  cases s with
  | nil => rfl
  | cons c s =>
    have hc : c ≠ '\'' := fun he ↦ h (congrArg some he)
    rw [lex, lexFrom_cons, lexFrom_cons, Option.map_map]
    simp only [step, ofClosed, if_neg hc, flush, quotedToken, isQuote, decide_true,
      Bool.true_or, if_true]
    rfl

theorem weight_after_string (s : Texto) :
    (∀ acc us, lexFrom (.quoted '\'' acc) s = some us →
      ∃ u ts, us = .str u :: ts ∧ weight ts + 1 ≤ s.countP isQuote) ∧
    (∀ acc us, lexFrom (.escape '\'' acc) s = some us →
      ∃ u ts, us = .str u :: ts ∧ weight ts + 1 ≤ s.countP isQuote) ∧
    ∀ acc us, lexFrom (.closed '\'' acc) s = some us →
      ∃ u ts, us = .str u :: ts ∧ weight ts ≤ s.countP isQuote := by
  induction s with
  | nil =>
    refine ⟨fun acc us h ↦ (by cases h), fun acc us h ↦ (by cases h), fun acc us h ↦ ?_⟩
    cases h
    exact ⟨acc, [], rfl, le_refl 0⟩
  | cons c s ih =>
    obtain ⟨hquoted, hescape, hclosed⟩ := ih
    refine ⟨fun acc us h ↦ ?_, fun acc us h ↦ ?_, fun acc us h ↦ ?_⟩
    · by_cases hq : c = '\''
      · subst hq
        rw [lexFrom_quoted_self] at h
        obtain ⟨u, ts, hu, hw⟩ := hclosed acc us h
        exact ⟨u, ts, hu, by rw [List.countP_cons_of_pos (by rfl)]; omega⟩
      · by_cases hb : c = '\\'
        · subst hb
          rw [lexFrom_quoted_backslash] at h
          obtain ⟨u, ts, hu, hw⟩ := hescape acc us h
          exact ⟨u, ts, hu, by rw [List.countP_cons]; omega⟩
        · rw [lexFrom_quoted_of_ne hq hb] at h
          obtain ⟨u, ts, hu, hw⟩ := hquoted _ us h
          exact ⟨u, ts, hu, by rw [List.countP_cons]; omega⟩
    · rw [lexFrom_escape] at h
      obtain ⟨u, ts, hu, hw⟩ := hquoted _ us h
      exact ⟨u, ts, hu, by rw [List.countP_cons]; omega⟩
    · by_cases hq : c = '\''
      · subst hq
        rw [lexFrom_closed_self] at h
        obtain ⟨u, ts, hu, hw⟩ := hquoted _ us h
        exact ⟨u, ts, hu, by rw [List.countP_cons]; omega⟩
      · rw [lexFrom_closed
          (by simpa only [List.head?_cons, ne_eq, Option.some.injEq] using hq)] at h
        obtain ⟨ts, hts, rfl⟩ := Option.map_eq_some_iff.mp h
        exact ⟨acc, ts, rfl, by simpa only [Mode.quotes, Nat.zero_add] using weight_lexFrom hts⟩

/-- Once an escape has shortened a string, it either ends shorter than `n` or it
takes its closing quote from the rest. -/
theorem string_short (w : Texto) (hrest : rest.head? ≠ some '\'') :
    (∀ acc us, acc.length + w.length < n →
      lexFrom (.quoted '\'' acc) (w ++ '\'' :: rest) = some us → (∃ u ts, us = .str u :: ts ∧
        u.length < n) ∨ ∃ acc', lexFrom (.quoted '\'' acc') rest = some us) ∧
    (∀ acc us, acc.length + 1 + w.length < n →
    lexFrom (.escape '\'' acc) (w ++ '\'' :: rest) = some us →
      (∃ u ts, us = .str u :: ts ∧ u.length < n) ∨
      ∃ acc', lexFrom (.quoted '\'' acc') rest = some us) ∧
    ∀ acc us, acc.length + w.length < n → lexFrom (.closed '\'' acc) (w ++ '\'' :: rest) = some us →
      (∃ u ts, us = .str u :: ts ∧ u.length < n) ∨ ∃ acc', lexFrom (.quoted '\'' acc') rest =
        some us := by
  induction w with
  | nil =>
    refine ⟨fun acc us hn h ↦ ?_, fun acc us hn h ↦ ?_, fun acc us hn h ↦ ?_⟩
    · rw [List.nil_append, lexFrom_quoted_self, lexFrom_closed hrest] at h
      obtain ⟨ts, -, rfl⟩ := Option.map_eq_some_iff.mp h
      exact Or.inl ⟨acc, ts, rfl, hn⟩
    · rw [List.nil_append, lexFrom_escape] at h
      exact Or.inr ⟨_, h⟩
    · rw [List.nil_append, lexFrom_closed_self] at h
      exact Or.inr ⟨_, h⟩
  | cons c w ih =>
    obtain ⟨hquoted, hescape, hclosed⟩ := ih
    simp only [List.cons_append, List.length_cons]
    refine ⟨fun acc us hn h ↦ ?_, fun acc us hn h ↦ ?_, fun acc us hn h ↦ ?_⟩
    · by_cases hq : c = '\''
      · subst hq
        rw [lexFrom_quoted_self] at h
        exact hclosed acc us (by omega) h
      · by_cases hb : c = '\\'
        · subst hb
          rw [lexFrom_quoted_backslash] at h
          exact hescape acc us (by omega) h
        · rw [lexFrom_quoted_of_ne hq hb] at h
          exact hquoted _ us (by rw [List.length_append, List.length_singleton]; omega) h
    · rw [lexFrom_escape] at h
      refine hquoted _ us ?_ h
      have hlen : (escaped c).length ≤ 2 := by unfold escaped; split_ifs <;> simp
      rw [List.length_append]
      omega
    · by_cases hq : c = '\''
      · subst hq
        rw [lexFrom_closed_self] at h
        exact hquoted _ us (by rw [List.length_append, List.length_singleton]; omega) h
      · rw [lexFrom_closed
          (by simpa only [List.head?_cons, ne_eq, Option.some.injEq] using hq)] at h
        obtain ⟨ts, -, rfl⟩ := Option.map_eq_some_iff.mp h
        exact Or.inl ⟨acc, ts, rfl, by omega⟩

/-- A text that is not clean is read as a shorter one, or runs into the rest. -/
theorem string_unclean (hrest : rest.head? ≠ some '\'') (hv : ¬ isClean v) :
    ∀ acc us, acc.length + v.length = n → lexFrom (.quoted '\'' acc) (v ++ '\'' :: rest) = some us →
      (∃ u ts, us = .str u :: ts ∧ u.length < n) ∨ ∃ acc', lexFrom (.quoted '\'' acc') rest =
        some us := by
  induction v using isClean.induct with
  | case1 => exact absurd rfl hv
  | case2 c s ih =>
    intro acc us hn h
    simp only [List.cons_append, List.length_cons] at hn h
    rw [lexFrom_quoted_backslash, lexFrom_escape] at h
    by_cases hw : c = '%' ∨ c = '_'
    · refine ih (fun hs ↦ hv ?_) _ us ?_ h
      · rcases hw with rfl | rfl <;> simp [isClean, hs]
      · rw [escaped, if_pos hw, List.length_append, List.length_cons, List.length_singleton]
        omega
    · have hone : (escaped c).length = 1 := by
        rw [escaped, if_neg hw]
        split_ifs <;> rfl
      exact (string_short s hrest).1 _ us (by rw [List.length_append]; omega) h
  | case3 c s hne ih =>
    intro acc us hn h
    simp only [List.cons_append, List.length_cons] at hn h
    by_cases hq : c = '\''
    · subst hq
      rw [lexFrom_quoted_self] at h
      exact (string_short s hrest).2.2 acc us (by omega) h
    · by_cases hb : c = '\\'
      · subst hb
        cases s with
        | nil =>
          rw [lexFrom_quoted_backslash, List.nil_append, lexFrom_escape] at h
          exact Or.inr ⟨_, h⟩
        | cons d s => exact absurd rfl (hne d s rfl)
      · rw [lexFrom_quoted_of_ne hq hb] at h
        refine ih (fun hs ↦ hv ?_) _ us (by rw [List.length_append, List.length_singleton]; omega) h
        rw [isClean.eq_3 c s hne]
        simp only [hq, hb, hs, ne_eq, not_false_eq_true, decide_true, Bool.and_self]

theorem lexFrom_clean (hrest : rest.head? ≠ some '\'') (hv : isClean v) :
    ∀ acc, lexFrom (.quoted '\'' acc) (v ++ '\'' :: rest) =
      (lex rest).map (Token.str (acc ++ v) :: ·) := by
  induction v using isClean.induct with
  | case1 =>
    intro acc
    rw [List.nil_append, lexFrom_quoted_self, lexFrom_closed hrest, List.append_nil]
  | case2 c s ih =>
    intro acc
    simp only [isClean, Bool.and_eq_true, Bool.or_eq_true, decide_eq_true_eq] at hv
    rw [List.cons_append, List.cons_append, lexFrom_quoted_backslash, lexFrom_escape,
      ih hv.2, escaped, if_pos hv.1, List.append_assoc]
    rfl
  | case3 c s hne ih =>
    intro acc
    rw [isClean.eq_3 c s hne] at hv
    simp only [Bool.and_eq_true, decide_eq_true_eq] at hv
    rw [List.cons_append, lexFrom_quoted_of_ne hv.1.1 hv.1.2, ih hv.2, List.append_assoc]
    rfl

theorem lex_literal_eq (v rest : Texto) :
    lex (literal v rest) = lexFrom (.quoted '\'' []) (v ++ '\'' :: rest) := by
  simp [lex, literal, lexFrom_cons, step, ofStart, isSpace, isQuote]

theorem lex_literal (hrest : rest.head? ≠ some '\'') (hv : isClean v) :
    lex (literal v rest) = (lex rest).map (Token.str v :: ·) := by
  rw [lex_literal_eq, lexFrom_clean hrest hv, List.nil_append]

/-- A text between quotes is read as itself only if it is clean, whenever the
rest accounts for all the quotes after it. -/
theorem isClean_of_lex_literal (hrest : rest.head? ≠ some '\'')
    (hts : rest.countP isQuote ≤ weight ts) (h : lex (literal v rest) = some (.str v :: ts)) :
    isClean v := by
  by_contra hv
  rw [lex_literal_eq] at h
  rcases string_unclean hrest hv [] _ (Nat.zero_add _) h with ⟨u, us, hu, hlen⟩ | ⟨acc, hacc⟩
  · rw [(Token.str.inj (List.cons.inj hu).1)] at hlen
    omega
  · obtain ⟨u, us, hu, hw⟩ := (weight_after_string rest).1 acc _ hacc
    rw [(List.cons.inj hu).2] at hts
    omega

end Literal

section Plain

variable {s t : Texto}

def isPlain (c : Char) : Bool := !isQuote c && c ≠ '\\'

def Plain (s : Texto) : Prop := ∀ c ∈ s, isPlain c

instance (s : Texto) : Decidable (Plain s) := inferInstanceAs (Decidable (∀ c ∈ s, _))

theorem Plain.isClean (h : Plain s) : isClean s := by
  induction s with
  | nil => rfl
  | cons c s ih =>
    have hc := h c List.mem_cons_self
    have hs := ih (fun d hd ↦ h d (List.mem_cons_of_mem c hd))
    simp only [isPlain, isQuote, Bool.and_eq_true, Bool.not_eq_true', Bool.or_eq_false_iff,
      decide_eq_false_iff_not, decide_eq_true_eq] at hc
    rw [isClean.eq_3 c s (fun d u he ↦ absurd he hc.2)]
    simp only [hc.1.1, hc.2, hs, ne_eq, not_false_eq_true, decide_true, Bool.and_self]

theorem Plain.quotes (h : Plain s) : s.countP isQuote = 0 := by
  refine List.countP_eq_zero.mpr (fun c hc hq ↦ ?_)
  have hcs := h c hc
  rw [isPlain, hq] at hcs
  cases hcs

theorem Plain.append (h : Plain s) (h' : Plain t) : Plain (s ++ t) := fun c hc ↦
  (List.mem_append.mp hc).elim (h c) (h' c)

theorem Plain.cons {c : Char} (hc : isPlain c) (h : Plain s) : Plain (c :: s) := fun d hd ↦
  (List.mem_cons.mp hd).elim (fun he ↦ he ▸ hc) (h d)

theorem plain_nil : Plain [] := fun _ hc ↦ absurd hc List.not_mem_nil

theorem plain_of_isDigit (h : ∀ c ∈ s, c.isDigit) : Plain s := by
  intro c hc
  exact of_isDigit (h c hc) (by decide)

theorem plain_of_isSpace (h : ∀ c ∈ s, isSpace c) : Plain s := by
  intro c hc
  have hcases := h c hc
  simp only [isSpace, Bool.or_eq_true, decide_eq_true_eq] at hcases
  rcases hcases with ((((rfl | rfl) | rfl) | rfl) | rfl) | rfl <;> rfl

theorem plain_intText (z : ℤ) : Plain (intText z) := by
  have hdecimal : Plain (decimal z.natAbs) := plain_of_isDigit (fun _ ↦ isDigit_of_mem_decimal)
  unfold intText
  split_ifs
  · exact hdecimal.cons rfl
  · exact hdecimal

end Plain

end ServiciosRed.Lexer
