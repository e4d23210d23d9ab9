import ServiciosRed.Text
import Mathlib.Data.List.Forall2

namespace ServiciosRed.Shell

open Text

/-- A character of a word. A quoted one stands for itself. -/
structure Letter where
  quoted : Bool
  char : Char
  deriving DecidableEq

abbrev Word := List Letter

/-- A redirection is the sign `>` and the word after it. -/
inductive Token
  | word (w : Word)
  | greater
  deriving DecidableEq

inductive Mode
  | free | escaped | single | double | doubleEscaped | comment
  deriving DecidableEq

structure State where
  mode : Mode
  current : Option Word
  tokens : List Token
  deriving DecidableEq

namespace State

def between (ts : List Token) : State := ⟨.free, none, ts⟩

def add (quoted : Bool) (c : Char) (σ : State) : State :=
  { σ with current := some (σ.current.getD [] ++ [⟨quoted, c⟩]) }

def enter (mode : Mode) (σ : State) : State := { σ with mode := mode }

def quote (mode : Mode) (σ : State) : State :=
  { σ with mode := mode, current := some (σ.current.getD []) }

def cut (σ : State) : State :=
  { σ with current := none, tokens := σ.tokens ++ (σ.current.map Token.word).toList }

end State

section Step

/-- The characters after which a dollar sign is a parameter or a command -/
def expands (c : Char) : Bool := c.isAlphanum || c ∈ "_@*#?-$!\x7b(".toList

/-- Digits in front of a redirection are the number of a descriptor. -/
def isDescriptor (w : Word) : Bool := w ≠ [] && w.all fun l ↦ !l.quoted && l.char.isDigit

/-- The characters that end a simple command, and the backquote and the sign of an input. -/
def operators : List Char := ['|', '&', ';', '<', '(', ')', '\n', '\x60']

def stepFree (σ : State) (c : Char) (next : Option Char) : Option State :=
  if c = ' ' ∨ c = '\t' then some σ.cut
  else if c ∈ operators then none
  else if c = '>' then
    if σ.current.any isDescriptor ∨ next ∈ [some '>', some '&', some '|'] then none
    else some { σ.cut with tokens := σ.cut.tokens ++ [.greater] }
  else if c = '$' ∧ next.any expands then none
  else if c = '\\' then some (σ.enter .escaped)
  else if c = '\'' then some (σ.quote .single)
  else if c = '"' then some (σ.quote .double)
  else if c = '#' ∧ σ.current = none then some (σ.enter .comment)
  else some (σ.add false c)

def stepDouble (σ : State) (c : Char) (next : Option Char) : Option State :=
  if c = '"' then some (σ.enter .free)
  else if c = '\x60' ∨ c = '$' ∧ next.any expands then none
  else if c = '\\' ∧ next.any (· ∈ ['$', '\x60', '"', '\\', '\n']) then
    some (σ.enter .doubleEscaped)
  else some (σ.add true c)

/-- One character of a line. There is no step where the line is not one simple command
whose words can be told from it alone, or where it cannot be a command line. -/
def step (σ : State) (c : Char) (next : Option Char) : Option State :=
  if c = '\x00' then none
  else
    match σ.mode with
    | .free => stepFree σ c next
    | .escaped => some ((if c = '\n' then σ else σ.add true c).enter .free)
    | .single => some (if c = '\'' then σ.enter .free else σ.add true c)
    | .double => stepDouble σ c next
    | .doubleEscaped => some ((if c = '\n' then σ else σ.add true c).enter .double)
    | .comment => if c = '\n' then none else some σ

def run (next : Option Char) : State → Texto → Option State
  | σ, [] => some σ
  | σ, c :: s => (step σ c (s.head?.or next)).bind fun σ' ↦ run next σ' s

def finish (σ : State) : Option (List Token) :=
  match σ.mode with
  | .free | .comment => some σ.cut.tokens
  | _ => none

def tokens (s : Texto) : Option (List Token) := (run none (.between []) s).bind finish

end Step

section Expansion

def arrange : List Token → Option (List Word × List Word)
  | [] => some ([], [])
  | .word w :: ts => (arrange ts).map fun p ↦ (w :: p.1, p.2)
  | .greater :: .word w :: ts => (arrange ts).map fun p ↦ (p.1, w :: p.2)
  | .greater :: _ => none

def value (w : Word) : Texto := w.map Letter.char

/-- A bracket that another one closes before the next slash. -/
def closes (w : Word) : Bool :=
  let inside := w.takeWhile fun l ↦ l.char ≠ '/'
  let members :=
    if inside.head?.any fun l ↦ l.char = '!' ∨ l.char = '^' then inside.drop 1 else inside
  (members.drop 1).any fun l ↦ !l.quoted && l.char = ']'

def isPattern : Word → Bool
  | [] => false
  | l :: w =>
    (!l.quoted && (l.char = '*' || l.char = '?' || l.char = '[' && closes w)) || isPattern w

/-- A word with a tilde or a pattern depends on the users and the files that there are. -/
def varies (w : Word) : Bool := w.head? = some ⟨false, '~'⟩ || isPattern w

abbrev Surroundings := Word → List Texto

def expand (e : Surroundings) (w : Word) : List Texto := if varies w then e w else [value w]

def reserved : List String :=
  ["!", "\x7b", "\x7d", "case", "do", "done", "elif", "else", "esac", "fi", "for", "if", "in",
    "then", "until", "while"]

def isAssignment (w : Word) : Bool :=
  let name := w.takeWhile fun l ↦ l.char ≠ '='
  name ≠ [] && (name.all fun l ↦ !l.quoted && (l.char.isAlphanum || l.char = '_')) &&
    !(name.head?.any fun l ↦ l.char.isDigit) && (w.drop name.length).head? = some ⟨false, '='⟩

def isName (w : Word) : Bool :=
  !isAssignment w && !((w.all fun l ↦ !l.quoted) && reserved.any fun r ↦ r.toList = value w)

structure Simple where
  words : List Texto
  outputs : List Texto
  deriving DecidableEq

def simple (e : Surroundings) (s : Texto) : Option Simple := do
  let (ws, rs) ← arrange (← tokens s)
  if ws.head?.all isName then some ⟨ws.flatMap (expand e), rs.flatMap (expand e)⟩ else none

end Expansion

section Run

variable {σ σ' : State} {next : Option Char} {c : Char} {s t : Texto}

theorem run_nil (next : Option Char) (σ : State) : run next σ [] = some σ := rfl

theorem run_cons_eq_some : run next σ (c :: s) = some σ' ↔
    ∃ τ, step σ c (s.head?.or next) = some τ ∧ run next τ s = some σ' := Option.bind_eq_some_iff

theorem run_append (σ : State) (s t : Texto) :
    run next σ (s ++ t) = (run (t.head?.or next) σ s).bind fun τ ↦ run next τ t := by
  induction s generalizing σ with
  | nil => rfl
  | cons c s ih =>
    have hnext : (s ++ t).head?.or next = s.head?.or (t.head?.or next) := by
      rw [List.head?_append, Option.or_assoc]
    rw [List.cons_append, run, run, hnext, Option.bind_assoc]
    congr 1
    funext τ
    exact ih τ

def Token.value : Token → Texto
  | word w => Shell.value w
  | greater => []

def written (σ : State) : Texto := σ.tokens.flatMap Token.value ++ value (σ.current.getD [])

theorem written_add (quoted : Bool) (c : Char) (σ : State) :
    written (σ.add quoted c) = written σ ++ [c] := by
  simp [written, State.add, value]

theorem written_cut (σ : State) : written σ.cut = written σ := by
  cases h : σ.current <;> simp [written, State.cut, h, value, Token.value]

end Run

section Literals

variable {σ σ' : State} {next : Option Char} {c : Char} {s t : Texto}

/-- The characters that never stand for themselves outside of quotes -/
def special : List Char := [' ', '\t', '>', '\\', '\'', '"', '\x00'] ++ operators

def openers : List Char := ['\\', '\'', '"', '#']

def isLiteral (first : Bool) (c : Char) (next : Option Char) : Bool :=
  c ∉ special && !(c = '$' && next.any expands) && !(first && c = '#')

theorem ne_null_of_step (h : step σ c next = some σ') : c ≠ '\x00' := by
  rintro rfl
  cases h

theorem step_of_isLiteral (hm : σ.mode = .free) (h : isLiteral σ.current.isNone c next) :
    step σ c next = some (σ.add false c) := by
  simp only [isLiteral, special, Bool.and_eq_true, decide_eq_true_eq, List.mem_append, not_or,
    Bool.not_eq_true', Bool.and_eq_false_iff, decide_eq_false_iff_not] at h
  obtain ⟨⟨⟨hspecial, hoperators⟩, hdollar⟩, hhash⟩ := h
  have hne (d : Char) (hd : d ∈ [' ', '\t', '>', '\\', '\'', '"', '\x00']) : c ≠ d :=
    fun hcd ↦ hspecial (hcd ▸ hd)
  have hdollar : ¬ (c = '$' ∧ next.any expands) := by
    rw [not_and_or]
    exact hdollar.imp_right (fun hnext ↦ by simp [hnext])
  have hhash : ¬ (c = '#' ∧ σ.current = none) := by
    rw [not_and_or, ← Option.isNone_iff_eq_none, Bool.not_eq_true]
    exact hhash.symm
  have hblank : ¬ (c = ' ' ∨ c = '\t') := not_or.mpr ⟨hne ' ' (by decide), hne '\t' (by decide)⟩
  rw [step, if_neg (hne '\x00' (by decide)), hm]
  simp only [stepFree, if_neg hblank, if_neg hoperators, if_neg (hne '>' (by decide)),
    if_neg hdollar, if_neg (hne '\\' (by decide)), if_neg (hne '\'' (by decide)),
    if_neg (hne '"' (by decide)), if_neg hhash]

theorem step_free_cases (hm : σ.mode = .free) (h : step σ c next = some σ') :
    isLiteral σ.current.isNone c next ∧ σ' = σ.add false c ∨
      written σ' = written σ ∧ (σ'.mode = .free ∨ c ∈ openers) := by
  have hcut : σ.cut.mode = .free := hm
  have hnull := ne_null_of_step h
  rw [step, if_neg hnull, hm] at h
  simp only [stepFree] at h
  split_ifs at h with hblank hoperators hgreater hrefused hdollar hbackslash hsingle hdouble hhash
  · cases h
    exact Or.inr ⟨written_cut σ, Or.inl hcut⟩
  · cases h
    have hwritten : written { σ.cut with tokens := σ.cut.tokens ++ [.greater] } =
        written σ.cut := by
      simp [written, Token.value]
    exact Or.inr ⟨hwritten.trans (written_cut σ), Or.inl hcut⟩
  · cases h
    exact Or.inr ⟨rfl, Or.inr (by rw [hbackslash]; decide)⟩
  · cases h
    exact Or.inr ⟨rfl, Or.inr (by rw [hsingle]; decide)⟩
  · cases h
    exact Or.inr ⟨rfl, Or.inr (by rw [hdouble]; decide)⟩
  · cases h
    exact Or.inr ⟨rfl, Or.inr (by rw [hhash.1]; decide)⟩
  · cases h
    refine Or.inl ⟨?_, rfl⟩
    have hspecial : c ∉ special := by
      rw [special, List.mem_append, not_or]
      refine ⟨?_, hoperators⟩
      simp only [not_or] at hblank
      simp [hblank.1, hblank.2, hgreater, hbackslash, hsingle, hdouble, hnull]
    have hdollar' : (c = '$' && next.any expands) = false := by
      rw [Bool.and_eq_false_iff, decide_eq_false_iff_not, ← Bool.not_eq_true, ← not_and_or]
      exact hdollar
    have hhash' : (σ.current.isNone && c = '#') = false := by
      rw [Bool.and_eq_false_iff, decide_eq_false_iff_not, ← Bool.not_eq_true,
        Option.isNone_iff_eq_none, ← not_and_or]
      exact fun h ↦ hhash h.symm
    simp [isLiteral, hspecial, hdollar', hhash']

theorem written_step (h : step σ c next = some σ') :
    written σ' = written σ ∨ written σ' = written σ ++ [c] := by
  have hadd (quoted : Bool) (mode : Mode) :
    written ((σ.add quoted c).enter mode) = written σ ++ [c] :=
    written_add quoted c σ
  have hnull := ne_null_of_step h
  cases hm : σ.mode with
  | free =>
    rcases step_free_cases hm h with ⟨-, rfl⟩ | ⟨hw, -⟩
    · exact Or.inr (written_add false c σ)
    · exact Or.inl hw
  | escaped | doubleEscaped =>
    rw [step, if_neg hnull, hm] at h
    by_cases hline : c = '\n'
    · simp only [if_pos hline, Option.some.injEq] at h
      rw [← h]
      exact Or.inl rfl
    · simp only [if_neg hline, Option.some.injEq] at h
      rw [← h]
      exact Or.inr (hadd true _)
  | single =>
    rw [step, if_neg hnull, hm] at h
    by_cases hquote : c = '\''
    · simp only [if_pos hquote, Option.some.injEq] at h
      rw [← h]
      exact Or.inl rfl
    · simp only [if_neg hquote, Option.some.injEq] at h
      rw [← h]
      exact Or.inr (written_add true c σ)
  | double =>
    rw [step, if_neg hnull, hm] at h
    simp only [stepDouble] at h
    split_ifs at h
    · cases h
      exact Or.inl rfl
    · cases h
      exact Or.inl rfl
    · cases h
      exact Or.inr (written_add true c σ)
  | comment =>
    rw [step, if_neg hnull, hm] at h
    simp only at h
    split_ifs at h
    cases h
    exact Or.inl rfl

theorem written_run (h : run next σ s = some σ') :
    ∃ u, u.Sublist s ∧ written σ' = written σ ++ u := by
  induction s generalizing σ with
  | nil =>
    rw [run_nil, Option.some.injEq] at h
    exact ⟨[], List.nil_sublist _, by rw [h, List.append_nil]⟩
  | cons c s ih =>
    obtain ⟨τ, hstep, hrun⟩ := run_cons_eq_some.mp h
    obtain ⟨u, hu, hwritten⟩ := ih hrun
    rcases written_step hstep with hτ | hτ
    · exact ⟨u, hu.cons c, by rw [hwritten, hτ]⟩
    · exact ⟨c :: u, hu.cons_cons c, by rw [hwritten, hτ, List.append_assoc]; rfl⟩

def literals (next : Option Char) : Bool → Texto → Bool
  | _, [] => true
  | first, c :: s => isLiteral first c (s.head?.or next) && literals next false s

theorem run_of_literals (hm : σ.mode = .free) (hne : s ≠ [])
    (h : literals next σ.current.isNone s) :
    run next σ s =
      some { σ with current := some (σ.current.getD [] ++ s.map (Letter.mk false)) } := by
  induction s generalizing σ with
  | nil => exact absurd rfl hne
  | cons c s ih =>
    obtain ⟨hc, hs⟩ := Bool.and_eq_true_iff.mp h
    rw [run, step_of_isLiteral hm hc, Option.bind_some]
    cases s with
    | nil => rfl
    | cons d s =>
      have hrun := ih (σ := σ.add false c) hm (List.cons_ne_nil d s) hs
      rw [hrun]
      simp [State.add]

theorem free_of_written {u : Texto} (hm : σ.mode = .free) (h : run next σ s = some σ')
    (hu : written σ' = written σ ++ u) (hcount : ∀ x ∈ openers, u.count x = s.count x) :
    σ'.mode = .free := by
  induction s generalizing σ u with
  | nil =>
    rw [run_nil, Option.some.injEq] at h
    rw [← h]
    exact hm
  | cons c s ih =>
    obtain ⟨τ, hstep, hrun⟩ := run_cons_eq_some.mp h
    obtain ⟨v, hv, hwritten⟩ := written_run hrun
    rcases step_free_cases hm hstep with ⟨-, rfl⟩ | ⟨hw, hmode⟩
    · rw [written_add, hu, List.append_assoc, List.append_cancel_left_eq] at hwritten
      subst hwritten
      refine ih (σ := σ.add false c) hm hrun (by rw [hu, written_add, List.append_assoc])
        (fun x hx ↦ ?_)
      have hx := hcount x hx
      rw [List.singleton_append, List.count_cons, List.count_cons] at hx
      omega
    · rw [hw, hu, List.append_cancel_left_eq] at hwritten
      subst hwritten
      have hle (x : Char) : u.count x ≤ s.count x := hv.count_le x
      have hsame (x : Char) (hx : x ∈ openers) : u.count x = s.count x ∧ c ≠ x := by
        have hx := hcount x hx
        have hlex := hle x
        by_cases hcx : c = x
        · rw [hcx, List.count_cons_self] at hx
          omega
        · rw [List.count_cons_of_ne hcx] at hx
          exact ⟨hx, hcx⟩
      rcases hmode with hmode | hopener
      · exact ih hmode hrun (by rw [hu, hw]) (fun x hx ↦ (hsame x hx).1)
      · exact absurd rfl (hsame c hopener).2

/-- A text that is written in full outside of quotes stands for itself. -/
theorem literals_of_written (hm : σ.mode = .free) (h : run next σ s = some σ')
    (hs : written σ' = written σ ++ s) :
    literals next σ.current.isNone s := by
  induction s generalizing σ with
  | nil => rfl
  | cons c s ih =>
    obtain ⟨τ, hstep, hrun⟩ := run_cons_eq_some.mp h
    obtain ⟨v, hv, hwritten⟩ := written_run hrun
    rcases step_free_cases hm hstep with ⟨hc, rfl⟩ | ⟨hw, -⟩
    · have hrest :=
        ih (σ := σ.add false c) hm hrun (by rw [hs, written_add, List.append_assoc]; rfl)
      exact Bool.and_eq_true_iff.mpr ⟨hc, hrest⟩
    · rw [hw, hs, List.append_cancel_left_eq] at hwritten
      have hlength := hv.length_le
      rw [← hwritten, List.length_cons] at hlength
      omega

end Literals

section Lines

variable {σ : State} {next : Option Char} {s t : Texto} {ss : List Texto} {ts us : List Token}

def Ends (next : Option Char) : Prop := next = none ∨ next = some ' '

/-- Between blanks, or at the end, a text is one token. -/
def Reads (s : Texto) (t : Token) : Prop :=
  ∀ ts next, Ends next → ∃ σ, run next (.between ts) s = some σ ∧ σ.mode = .free ∧
    σ.cut = .between (ts ++ [t])

def after (ss : List Texto) : Texto := ss.flatMap (' ' :: ·)

theorem step_blank (hm : σ.mode = .free) : step σ ' ' next = some σ.cut := by
  have hnull : ' ' ≠ '\x00' := by decide
  rw [step, if_neg hnull, hm]
  rfl

theorem ends_after (hnext : Ends next) (ss : List Texto) : Ends ((after ss).head?.or next) := by
  cases ss with
  | nil => exact hnext
  | cons s ss => exact Or.inr rfl

theorem run_after (hnext : Ends next) (h : List.Forall₂ Reads ss us) (hm : σ.mode = .free)
    (hσ : σ.cut = .between ts) :
    ∃ τ, run next σ (after ss) = some τ ∧ τ.mode = .free ∧ τ.cut = .between (ts ++ us) := by
  induction h generalizing σ ts with
  | nil => exact ⟨σ, rfl, hm, by rw [List.append_nil]; exact hσ⟩
  | @cons s t ss us hs hss ih =>
    obtain ⟨τ, hrun, hτm, hτ⟩ := hs ts _ (ends_after hnext ss)
    obtain ⟨τ', hrun', hτm', hτ'⟩ := ih hτm hτ
    refine ⟨τ', ?_, hτm', by rw [hτ', List.append_assoc]; rfl⟩
    have htext : after (s :: ss) = ' ' :: (s ++ after ss) := rfl
    rw [htext, run, step_blank hm, Option.bind_some, hσ, run_append, hrun, Option.bind_some, hrun']

theorem run_line {t : Token} (hnext : Ends next) (hs : Reads s t) (hss : List.Forall₂ Reads ss us) :
    ∃ τ, run next (.between []) (s ++ after ss) = some τ ∧ τ.mode = .free ∧
      τ.cut = .between (t :: us) := by
  obtain ⟨τ, hrun, hτm, hτ⟩ := hs [] _ (ends_after hnext ss)
  obtain ⟨τ', hrun', hτm', hτ'⟩ := run_after hnext hss hτm hτ
  refine ⟨τ', ?_, hτm', hτ'⟩
  rw [run_append, hrun, Option.bind_some, hrun']

theorem finish_of_free (hm : σ.mode = .free) (hσ : σ.cut = .between ts) : finish σ = some ts := by
  rw [finish, hm]
  simp only [hσ]
  rfl

theorem tokens_line {t : Token} (hs : Reads s t) (hss : List.Forall₂ Reads ss us) :
    tokens (s ++ after ss) = some (t :: us) := by
  obtain ⟨τ, hrun, hm, hτ⟩ := run_line (Or.inl rfl) hs hss
  rw [tokens, hrun, Option.bind_some, finish_of_free hm hτ]

def bare (s : Texto) : Word := s.map (Letter.mk false)

def quoted (s : Texto) : Word := s.map (Letter.mk true)

theorem value_bare (s : Texto) : value (bare s) = s := by
  rw [value, bare, List.map_map]
  exact List.map_id s

theorem value_quoted (s : Texto) : value (quoted s) = s := by
  rw [value, quoted, List.map_map]
  exact List.map_id s

theorem literals_none (first : Bool) (s : Texto) :
    literals none first s = literals (some ' ') first s := by
  induction s generalizing first with
  | nil => rfl
  | cons c s ih =>
    rw [literals, literals, ih]
    cases s with
    | nil => simp [isLiteral, expands]
    | cons d s => rfl

theorem reads_bare (hne : s ≠ []) (h : literals (some ' ') true s) : Reads s (.word (bare s)) := by
  intro ts next hnext
  have hliterals : literals next true s := by
    rcases hnext with rfl | rfl
    · rwa [literals_none]
    · exact h
  exact ⟨_, run_of_literals (σ := .between ts) rfl hne hliterals, rfl, rfl⟩

theorem reads_greater : Reads ['>'] .greater := by
  intro ts next hnext
  rcases hnext with rfl | rfl
  · exact ⟨.between (ts ++ [.greater]), by simp [run, step, stepFree, operators, State.between,
      State.cut], rfl, by simp [State.between, State.cut]⟩
  · exact ⟨.between (ts ++ [.greater]), by simp [run, step, stepFree, operators, State.between,
      State.cut], rfl, by simp [State.between, State.cut]⟩

theorem run_single (hm : σ.mode = .single) (h : ∀ c ∈ s, c ≠ '\'' ∧ c ≠ '\x00') :
    run next σ s = some { σ with current :=
      if s = [] then σ.current else some (σ.current.getD [] ++ quoted s) } := by
  induction s generalizing σ with
  | nil => rfl
  | cons c s ih =>
    obtain ⟨⟨hquote, hnull⟩, hs⟩ := List.forall_mem_cons.mp h
    have hstep (n : Option Char) : step σ c n = some (σ.add true c) := by
      rw [step, if_neg hnull, hm]
      simp only [if_neg hquote]
    rw [run, hstep, Option.bind_some, ih (σ := σ.add true c) hm hs]
    cases s <;> simp [State.add, quoted]

/-- Between single quotes everything stands for itself. -/
theorem reads_quoted (h : ∀ c ∈ s, c ≠ '\'' ∧ c ≠ '\x00') :
    Reads ('\'' :: (s ++ ['\''])) (.word (quoted s)) := by
  intro ts next hnext
  have hnull : '\'' ≠ '\x00' := by decide
  have hopen (n : Option Char) : step (.between ts) '\'' n = some ⟨.single, some [], ts⟩ := by
    rw [step, if_neg hnull]
    rfl
  have hclose (w : Word) (n : Option Char) :
      step ⟨.single, some w, ts⟩ '\'' n = some ⟨.free, some w, ts⟩ := by
    rw [step, if_neg hnull]
    rfl
  refine ⟨⟨.free, some (quoted s), ts⟩, ?_, rfl, rfl⟩
  have hcurrent : (if s = [] then some [] else some (quoted s)) = some (quoted s) := by
    split_ifs with hs
    · rw [hs]
      rfl
    · rfl
  rw [run, hopen, Option.bind_some, run_append, run_single rfl h, Option.bind_some]
  simp only [Option.getD_some, List.nil_append, hcurrent, run, hclose, Option.bind_some]

end Lines

section Field

variable {a s : Texto} {as bs : List Texto} {ts us : List Token} {fa : Token} {fas fbs : List Token}

theorem after_append (as bs : List Texto) : after (as ++ bs) = after as ++ after bs :=
  List.flatMap_append

theorem cut_between (ts : List Token) : (State.between ts).cut = .between ts :=
  congrArg (State.mk .free none) (List.append_nil ts)

theorem flatMap_of_cut {σ : State} (hσ : σ.cut = .between ts) :
    written σ = ts.flatMap Token.value := by
  rw [← written_cut, hσ]
  exact List.append_nil _

theorem written_of_finish {σ : State} (h : finish σ = some ts) :
    ts.flatMap Token.value = written σ := by
  have hcut : σ.cut.tokens = ts := by
    unfold finish at h
    split at h
    · exact Option.some.inj h
    · exact Option.some.inj h
    · cases h
  rw [← hcut, ← written_cut]
  exact (List.append_nil _).symm

theorem sublist_after (h : List.Forall₂ Reads bs fbs) :
    (fbs.flatMap Token.value).Sublist (after bs) := by
  obtain ⟨τ, hrun, -, hτ⟩ := run_after (Or.inl rfl) h rfl (cut_between [])
  obtain ⟨u, hu, hwritten⟩ := written_run hrun
  have hnil : written (.between []) = [] := rfl
  rw [flatMap_of_cut hτ, hnil, List.nil_append, List.nil_append] at hwritten
  rw [hwritten]
  exact hu

theorem literals_of_tokens (ha : Reads a fa) (has : List.Forall₂ Reads as fas)
    (hbs : List.Forall₂ Reads bs fbs) (hne : bs ≠ []) (hopen : ∀ x ∈ openers, x ∉ after bs)
    (h : tokens (a ++ after (as ++ s :: bs)) = some ts)
    (hperm : (ts.flatMap Token.value).Perm ((fa :: fas).flatMap Token.value ++
      (s ++ fbs.flatMap Token.value))) :
    literals (some ' ') true s ∧ ts = fa :: fas ++
      ((if s = [] then [] else [.word (bare s)]) ++ fbs) := by
  obtain ⟨σ, hrun, hσm, hσ⟩ := run_line (Or.inr rfl : Ends (some ' ')) ha has
  have hhead : (after bs).head?.or none = some ' ' := by
    cases bs with
    | nil => exact absurd rfl hne
    | cons b bs => rfl
  have htext : a ++ after (as ++ s :: bs) = (a ++ after as) ++ ' ' :: (s ++ after bs) := by
    rw [after_append, List.append_assoc]
    rfl
  -- the three parts of the run
  obtain ⟨σ₃, hrun₃, hfinish⟩ := Option.bind_eq_some_iff.mp h
  rw [htext, run_append, List.head?_cons, Option.some_or, hrun, Option.bind_some, run,
    step_blank hσm, Option.bind_some, hσ, run_append, hhead] at hrun₃
  obtain ⟨σ₂, hrun₂, hrun₃⟩ := Option.bind_eq_some_iff.mp hrun₃
  obtain ⟨u, hu, hwritten₂⟩ := written_run hrun₂
  obtain ⟨v, hv, hwritten₃⟩ := written_run hrun₃
  have hbetween : written (.between (fa :: fas)) = (fa :: fas).flatMap Token.value :=
    flatMap_of_cut (cut_between _)
  rw [written_of_finish hfinish, hwritten₃, hwritten₂, hbetween, List.append_assoc,
    List.perm_append_left_iff] at hperm
  have hfbs := sublist_after hbs
  have hfree : σ₂.mode = .free := by
    refine free_of_written rfl hrun₂ hwritten₂ (fun x hx ↦ ?_)
    have hafter : (after bs).count x = 0 := List.count_eq_zero.mpr (hopen x hx)
    have hcount := hperm.count_eq x
    have hvx := hv.count_le x
    have hfx := hfbs.count_le x
    rw [List.count_append, List.count_append] at hcount
    omega
  have hcut : σ₂.cut = .between σ₂.cut.tokens := by
    rw [State.between, ← hfree]
    rfl
  obtain ⟨τ, hτrun, hτm, hτ⟩ := run_after (Or.inl rfl) hbs hfree hcut
  obtain rfl : τ = σ₃ := Option.some.inj (hτrun.symm.trans hrun₃)
  have hts : ts = σ₂.cut.tokens ++ fbs :=
    Option.some.inj (hfinish.symm.trans (finish_of_free hτm hτ))
  have hvalue : v = fbs.flatMap Token.value := by
    have hσ₂ : written σ₂ = σ₂.cut.tokens.flatMap Token.value := flatMap_of_cut hcut
    rw [flatMap_of_cut hτ, List.flatMap_append, ← hσ₂, List.append_cancel_left_eq] at hwritten₃
    exact hwritten₃.symm
  have hus : u = s := by
    have hlength := hperm.length_eq
    rw [hvalue, List.length_append, List.length_append] at hlength
    exact hu.eq_of_length (by omega)
  have hliterals : literals (some ' ') true s := literals_of_written rfl hrun₂ (hus ▸ hwritten₂)
  refine ⟨hliterals, ?_⟩
  rw [hts, ← List.append_assoc]
  congr 1
  by_cases hs : s = []
  · rw [hs, run_nil, Option.some.injEq] at hrun₂
    rw [← hrun₂, if_pos hs, List.append_nil]
    exact List.append_nil _
  · rw [run_of_literals rfl hs hliterals, Option.some.injEq] at hrun₂
    rw [← hrun₂, if_neg hs]
    rfl

end Field

section Simple

variable {s l : Texto} {ts : List Token} {ws rs : List Word} {words outputs : List Texto}

/-- A text that is one word, the text itself, wherever it stands between blanks. -/
def isField (s : Texto) : Bool := s ≠ [] && literals (some ' ') true s && !varies (bare s)

theorem isField_iff : isField s ↔ s ≠ [] ∧ literals (some ' ') true s ∧
    varies (bare s) = false := by
  simp [isField, and_assoc]

theorem reads_field (h : isField s) : Reads s (.word (bare s)) := by
  obtain ⟨hne, hliterals, -⟩ := isField_iff.mp h
  exact reads_bare hne hliterals

theorem expand_of_steady (e : Surroundings) (h : ∀ w ∈ ws, varies w = false) :
    ws.flatMap (expand e) = ws.map value := by
  induction ws with
  | nil => rfl
  | cons w ws ih =>
    obtain ⟨hw, hws⟩ := List.forall_mem_cons.mp h
    have hexpand : expand e w = [value w] := if_neg (by rw [hw]; exact Bool.false_ne_true)
    rw [List.flatMap_cons, hexpand, ih hws]
    rfl

theorem simple_of_tokens (e : Surroundings) (h : tokens l = some ts)
    (harrange : arrange ts = some (ws, rs)) (hname : ws.head?.all isName)
    (hws : ∀ w ∈ ws, varies w = false) (hrs : ∀ w ∈ rs, varies w = false) :
    simple e l = some ⟨ws.map value, rs.map value⟩ := by
  simp only [simple, h, harrange, Option.bind_eq_bind, Option.bind_some, hname, if_true,
    expand_of_steady e hws, expand_of_steady e hrs]

theorem steady_of_forall (h : ∀ e, ws.flatMap (expand e) = words) :
    (∀ w ∈ ws, varies w = false) ∧ ws.map value = words := by
  have hmap (t : Texto) : ws.map (fun w ↦ if varies w then t else value w) = words := by
    have hexpand : expand (fun _ ↦ [t]) = fun w ↦ [if varies w then t else value w] := by
      funext w
      rw [expand]
      split_ifs <;> rfl
    rw [← h (fun _ ↦ [t]), hexpand, List.map_eq_flatMap]
  have hsteady : ∀ w ∈ ws, varies w = false := by
    intro w hw
    have hsame := List.map_inj_left.mp ((hmap []).trans (hmap [' ']).symm) w hw
    by_contra hvaries
    rw [if_pos (Bool.not_eq_false _ ▸ hvaries), if_pos (Bool.not_eq_false _ ▸ hvaries)] at hsame
    cases hsame
  refine ⟨hsteady, ?_⟩
  rw [← h (fun _ ↦ []), expand_of_steady _ hsteady]

theorem tokens_of_simple (h : ∀ e, simple e l = some ⟨words, outputs⟩) :
    ∃ ts ws rs, tokens l = some ts ∧ arrange ts = some (ws, rs) ∧
      ((∀ w ∈ ws, varies w = false) ∧ ws.map value = words) ∧
        (∀ w ∈ rs, varies w = false) ∧ rs.map value = outputs := by
  obtain ⟨ts, hts, hsimple⟩ := Option.bind_eq_some_iff.mp (h fun _ ↦ [])
  obtain ⟨⟨ws, rs⟩, harrange, -⟩ := Option.bind_eq_some_iff.mp hsimple
  have hparts (e : Surroundings) :
      ws.flatMap (expand e) = words ∧ rs.flatMap (expand e) = outputs := by
    have he := h e
    simp only [simple, hts, harrange, Option.bind_eq_bind, Option.bind_some,
      Option.ite_none_right_eq_some, Option.some.injEq, Simple.mk.injEq] at he
    exact he.2
  exact ⟨ts, ws, rs, hts, harrange, steady_of_forall fun e ↦ (hparts e).1,
    steady_of_forall fun e ↦ (hparts e).2⟩

theorem perm_of_arrange (h : arrange ts = some (ws, rs)) :
    (ts.flatMap Token.value).Perm (ws.flatMap value ++ rs.flatMap value) := by
  induction ts using arrange.induct generalizing ws rs with
  | case1 =>
    cases h
    exact List.Perm.refl _
  | case2 w ts ih =>
    obtain ⟨⟨ws', rs'⟩, harrange, heq⟩ := Option.map_eq_some_iff.mp h
    cases heq
    rw [List.flatMap_cons, List.flatMap_cons, List.append_assoc]
    exact (ih harrange).append_left _
  | case3 w ts ih =>
    obtain ⟨⟨ws', rs'⟩, harrange, heq⟩ := Option.map_eq_some_iff.mp h
    cases heq
    have hfirst : (Token.greater :: .word w :: ts).flatMap Token.value = value w ++
      ts.flatMap Token.value := rfl
    rw [hfirst, List.flatMap_cons, ← List.append_assoc]
    exact ((ih harrange).append_left _).trans
      (by rw [← List.append_assoc]; exact List.perm_append_comm.append_right _)
  | case4 ts hts =>
    rw [arrange.eq_4 _ hts] at h
    cases h

end Simple

section Plain

variable {s t : Texto} {c : Char}

def isPlain (c : Char) : Bool := c.isAlphanum || c ∈ ['.', ':', '/', '-', '_', '+']

def Plain (s : Texto) : Prop := s ≠ [] ∧ ∀ c ∈ s, isPlain c

theorem plain_ne (h : isPlain c) : c ∉ special ∧ c ∉ ['$', '#', '~', '*', '?', '['] := by
  have hall : ∀ d ∈ special ++ ['$', '#', '~', '*', '?', '['], isPlain d = false := by decide
  have hnot (l : List Char) (hl : l ⊆ special ++ ['$', '#', '~', '*', '?', '[']) : c ∉ l := by
    intro hc
    rw [hall c (hl hc)] at h
    cases h
  exact ⟨hnot _ (List.subset_append_left _ _), hnot _ (List.subset_append_right _ _)⟩

theorem Plain.append (hs : Plain s) (ht : ∀ c ∈ t, isPlain c) : Plain (s ++ t) :=
  ⟨List.append_ne_nil_of_left_ne_nil hs.1 t, List.forall_mem_append.mpr ⟨hs.2, ht⟩⟩

theorem literals_of_plain (h : ∀ c ∈ s, isPlain c) (first : Bool) :
    literals (some ' ') first s := by
  induction s generalizing first with
  | nil => rfl
  | cons c s ih =>
    obtain ⟨hc, hs⟩ := List.forall_mem_cons.mp h
    obtain ⟨hspecial, hsigns⟩ := plain_ne hc
    simp only [List.mem_cons, not_or] at hsigns
    simp [literals, isLiteral, hspecial, hsigns.1, hsigns.2.1, ih hs]

theorem isPattern_of_plain (h : ∀ c ∈ s, isPlain c) : isPattern (bare s) = false := by
  induction s with
  | nil => rfl
  | cons c s ih =>
    obtain ⟨hc, hs⟩ := List.forall_mem_cons.mp h
    have hsigns := (plain_ne hc).2
    simp only [List.mem_cons, not_or] at hsigns
    have hrest := ih hs
    rw [bare] at hrest
    simp [bare, isPattern, hsigns, hrest]

theorem Plain.isField (h : Plain s) : isField s := by
  have htilde : (bare s).head? ≠ some ⟨false, '~'⟩ := by
    cases s with
    | nil => exact absurd rfl h.1
    | cons c s =>
      have hsigns := (plain_ne (h.2 c List.mem_cons_self)).2
      simp only [List.mem_cons, not_or] at hsigns
      simp [bare, hsigns.2.2.1]
  exact isField_iff.mpr ⟨h.1,
    literals_of_plain h.2 true, by simp [varies, isPattern_of_plain h.2, htilde]⟩

theorem varies_quoted (s : Texto) : varies (quoted s) = false := by
  have hpattern : isPattern (quoted s) = false := by
    induction s with
    | nil => rfl
    | cons c s ih => exact ih
  have htilde : (quoted s).head? ≠ some ⟨false, '~'⟩ := by
    cases s <;> simp [quoted]
  simp [varies, hpattern, htilde]

end Plain

section Commands

variable {s l : Texto} {p : Texto × Word} {ps : List (Texto × Word)} {ts : List Token}
  {rs : List Word}

theorem arrange_words (ws : List Word) (ts : List Token) :
    arrange (ws.map Token.word ++ ts) = (arrange ts).map fun p ↦ (ws ++ p.1, p.2) := by
  induction ws with
  | nil => simp
  | cons w ws ih => simp [arrange, ih, Function.comp_def]

def IsWord (p : Texto × Word) : Prop := Reads p.1 (.word p.2) ∧ varies p.2 = false

theorem isWord_field (h : isField s) : IsWord (s, bare s) := ⟨reads_field h, (isField_iff.mp h).2.2⟩

theorem forall₂_words (h : ∀ p ∈ ps, IsWord p) :
    List.Forall₂ Reads (ps.map Prod.fst) (ps.map fun p ↦ .word p.2) := by
  induction ps with
  | nil => exact .nil
  | cons p ps ih =>
    obtain ⟨hp, hps⟩ := List.forall_mem_cons.mp h
    exact .cons hp.1 (ih hps)

/-- A line of words, and of redirections at its end. -/
theorem simple_of_words {bs : List Texto} (e : Surroundings) (hname : isName p.2) (hp : IsWord p)
    (hps : ∀ q ∈ ps, IsWord q) (hbs : List.Forall₂ Reads bs ts)
    (harrange : arrange ts = some ([], rs))
    (hrs : ∀ w ∈ rs, varies w = false) :
    simple e (p.1 ++ after (ps.map Prod.fst ++ bs)) =
      some ⟨(p :: ps).map fun q ↦ value q.2, rs.map value⟩ := by
  have hwords : (ps.map fun q ↦ Token.word q.2) = (ps.map Prod.snd).map Token.word := by
    rw [List.map_map]
    rfl
  have htokens := tokens_line hp.1 (List.rel_append (forall₂_words hps) hbs)
  have harr : arrange (.word p.2 :: ((ps.map fun q ↦ Token.word q.2) ++ ts)) =
      some (p.2 :: ps.map Prod.snd, rs) := by
    rw [hwords, arrange, arrange_words, harrange]
    simp
  have hsteady : ∀ w ∈ p.2 :: ps.map Prod.snd, varies w = false := by
    rw [List.forall_mem_cons, List.forall_mem_map]
    exact ⟨hp.2, fun q hq ↦ (hps q hq).2⟩
  rw [simple_of_tokens e htokens harr hname hsteady hrs, List.map_cons, List.map_cons, List.map_map]
  rfl

theorem isWord_fields {ws : List Texto} (h : ∀ s ∈ ws, isField s) :
    ∀ p ∈ ws.map fun s ↦ (s, bare s), IsWord p :=
  List.forall_mem_map.mpr fun s hs ↦ isWord_field (h s hs)

theorem simple_of_fields {w : Texto} {ws : List Texto} (e : Surroundings) (hname : isName (bare w))
    (hw : isField w) (hws : ∀ s ∈ ws, isField s) :
    simple e (w ++ after ws) = some ⟨w :: ws, []⟩ := by
  have h :=
    simple_of_words (p := (w, bare w)) e hname (isWord_field hw) (isWord_fields hws) .nil rfl
    (fun _ hw ↦ absurd hw List.not_mem_nil)
  simpa [value_bare, Function.comp_def] using h

theorem simple_of_output {w out : Texto} {ws : List Texto} (e : Surroundings)
    (hname : isName (bare w)) (hw : isField w) (hws : ∀ s ∈ ws, isField s) (hout : isField out) :
    simple e (w ++ after (ws ++ [['>'], out])) = some ⟨w :: ws, [out]⟩ := by
  have hreads : List.Forall₂ Reads [['>'], out] [.greater, .word (bare out)] :=
    .cons reads_greater (.cons (reads_field hout) .nil)
  have h :=
    simple_of_words (p := (w, bare w)) e hname (isWord_field hw) (isWord_fields hws) hreads rfl
    (List.forall_mem_singleton.mpr (isField_iff.mp hout).2.2)
  simpa [value_bare, Function.comp_def] using h

/-- A field inside of a line comes out as a word only if it is one by itself. -/
theorem isField_of_simple {w out : Texto} {ws us : List Texto} (hw : isField w)
    (hws : ∀ t ∈ ws, isField t) (hus : ∀ t ∈ us, isField t) (hout : isField out)
    (hopen : ∀ x ∈ openers, x ∉ after (us ++ [['>'], out]))
    (h : ∀ e, simple e (w ++ after (ws ++ s :: (us ++ [['>'], out]))) =
      some ⟨w :: (ws ++ s :: us), [out]⟩) :
    isField s := by
  have hwords (l : List Texto) (hl : ∀ t ∈ l, isField t) :
      List.Forall₂ Reads l (l.map fun t ↦ .word (bare t)) := by
    have hmap := forall₂_words (isWord_fields hl)
    simpa [Function.comp_def] using hmap
  have hchars (l : List Texto) :
      (l.map fun t ↦ Token.word (bare t)).flatMap Token.value = l.flatten := by
    induction l with
    | nil => rfl
    | cons t l ih =>
      rw [List.map_cons, List.flatMap_cons, ih, Token.value, value_bare, List.flatten_cons]
  have hafter : List.Forall₂ Reads (us ++ [['>'], out])
      ((us.map fun t ↦ .word (bare t)) ++ [.greater, .word (bare out)]) :=
    List.rel_append (hwords us hus) (.cons reads_greater (.cons (reads_field hout) .nil))
  obtain ⟨ts, ws', rs, htokens, harrange, ⟨hsteady, hvalues⟩, -, hrs⟩ := tokens_of_simple h
  have hperm := perm_of_arrange harrange
  have hflat (l : List Word) : l.flatMap value = (l.map value).flatten := rfl
  rw [hflat, hflat, hvalues, hrs] at hperm
  obtain ⟨hliterals, hts⟩ :=
    literals_of_tokens (reads_field hw) (hwords ws hws) hafter (by simp) hopen htokens
    (by simpa [hchars, Token.value, value_bare] using hperm)
  have hall : ts = (bare w ::
    (ws.map bare ++ ((if s = [] then [] else [bare s]) ++ us.map bare))).map Token.word ++
      [.greater, .word (bare out)] := by
    rw [hts]
    split_ifs <;> simp [Function.comp_def]
  rw [hall, arrange_words] at harrange
  have hws' : ws' = bare w ::
      (ws.map bare ++ ((if s = [] then [] else [bare s]) ++ us.map bare)) := by
    have heq := congrArg Prod.fst (Option.some.inj harrange)
    simpa using heq.symm
  have hne : s ≠ [] := by
    intro hs
    have hlength := congrArg List.length hvalues
    rw [hws', if_pos hs] at hlength
    simp at hlength
  have hmem : bare s ∈ ws' := by
    rw [hws', if_neg hne]
    simp
  exact isField_iff.mpr ⟨hne, hliterals, hsteady _ hmem⟩

end Commands

end ServiciosRed.Shell
