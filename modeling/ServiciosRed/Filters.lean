import ServiciosRed.Php
import ServiciosRed.Regex

namespace ServiciosRed.Filters

open Text Php

def isBlank (c : Char) : Bool := c = ' ' || c = '\t' || c = '\r' || c = '\x0b' || c = '\n'

def trimmed (s : Texto) : Texto := ((s.dropWhile isBlank).reverse.dropWhile isBlank).reverse

/-- `filter_var($s, FILTER_VALIDATE_INT)`. A leading zero is only allowed for zero itself. -/
def filterValidateInt (s : Texto) : Option ℤ :=
  let t := readSign (trimmed s)
  let n := signed t.1 (valueOf t.2)
  if t.2 = ['0'] then some 0
  else if t.2 ≠ [] ∧ t.2.all Char.isDigit ∧ t.2.head? ≠ some '0' ∧ longMin ≤ n ∧ n ≤ longMax then
    some n
  else none

/-- The result of `FILTER_VALIDATE_INT` as a condition, where zero counts as false. -/
def validInt (v : Valor) : Bool := (filterValidateInt (strval v)).any (· ≠ 0)

def validFloat (v : Valor) : Bool :=
  match readNumeral (trimmed (strval v)) with
  | some (x, []) => x.isFinite && !x.isZero
  | _ => false

def isOctet (s : Texto) : Bool :=
  s ≠ [] && s.all Char.isDigit && s.length ≤ 3 && valueOf s ≤
    255 && (s.head? ≠ some '0' || s.length = 1)

def isIPv4 (s : Texto) : Bool := (explode '.' s).length = 4 && (explode '.' s).all isOctet

def isHex (c : Char) : Bool := c.isDigit || ('a' ≤ c && c ≤ 'f') || ('A' ≤ c && c ≤ 'F')

def isGroup (s : Texto) : Bool := 1 ≤ s.length && s.length ≤ 4 && s.all isHex

/-- The number of 16 bit groups that the parts between colons stand for. An
IPv4 address may come last and stands for two. -/
def groups : List Texto → Option ℕ
  | [] => some 0
  | [g] => if isGroup g then some 1 else if isIPv4 g then some 2 else none
  | g :: gs => if isGroup g then (groups gs).map (· + 1) else none

def countGroups (s : Texto) : Option ℕ := if s = [] then some 0 else groups (explode ':' s)

def cutDoubleColon : Texto → Option (Texto × Texto)
  | ':' :: ':' :: s => some ([], s)
  | c :: s => (cutDoubleColon s).map fun t ↦ (c :: t.1, t.2)
  | [] => none

def isIPv6 (s : Texto) : Bool :=
  match cutDoubleColon s with
  | none => countGroups s = some 8
  | some (a, b) =>
    match countGroups a, countGroups b with
    | some m, some n => '.' ∉ a && m + n ≤ 7
    | _, _ => false

/-- `filter_var($s, FILTER_VALIDATE_IP)` -/
def validIp (s : Texto) : Bool := if ':' ∈ s then isIPv6 s else isIPv4 s

section Address

variable {s : Texto}

def isIpChar (c : Char) : Bool := isHex c || c = '.' || c = ':'

theorem isOctet_chars (h : isOctet s) : ∀ c ∈ s, c.isDigit := by
  simp only [isOctet, Bool.and_eq_true] at h
  exact List.all_eq_true.mp h.1.1.1.2

theorem isGroup_chars (h : isGroup s) : ∀ c ∈ s, isHex c := by
  simp only [isGroup, Bool.and_eq_true] at h
  exact List.all_eq_true.mp h.2

theorem isHex_of_isDigit {c : Char} (h : c.isDigit) : isHex c := by
  simp only [isHex, h, Bool.true_or]

theorem isIPv4_octet (h : isIPv4 s) {p : Texto} (hp : p ∈ explode '.' s) : isOctet p := by
  simp only [isIPv4, Bool.and_eq_true] at h
  exact List.all_eq_true.mp h.2 p hp

theorem isIPv4_chars (h : isIPv4 s) {c : Char} (hc : c ∈ s) : c.isDigit ∨ c = '.' := by
  by_cases hd : c = '.'
  · exact Or.inr hd
  · obtain ⟨p, hp, hcp⟩ := exists_mem_explode hc hd
    exact Or.inl (isOctet_chars (isIPv4_octet h hp) c hcp)

theorem isIPv4_count (h : isIPv4 s) : s.count '.' = 3 := by
  simp only [isIPv4, Bool.and_eq_true, decide_eq_true_eq, length_explode] at h
  omega

theorem isGroup_count (h : isGroup s) : s.count '.' = 0 :=
  List.count_eq_zero.mpr (fun hc ↦ absurd (isGroup_chars h _ hc) (by decide))

theorem groups_parts {l : List Texto} {n : ℕ} (h : groups l = some n) :
    (∀ p ∈ l, isGroup p ∨ isIPv4 p) ∧
      ((l.map (List.count '.')).sum = 0 ∨ (l.map (List.count '.')).sum = 3) := by
  induction l generalizing n with
  | nil => exact ⟨fun p hp ↦ absurd hp List.not_mem_nil, Or.inl rfl⟩
  | cons g gs ih =>
    by_cases hg : isGroup g
    · have hgs : ∃ m, groups gs = some m := by
        cases gs with
        | nil => exact ⟨0, rfl⟩
        | cons g' gs =>
          simp only [groups, hg, if_true, Option.map_eq_some_iff] at h
          exact ⟨h.choose, h.choose_spec.1⟩
      obtain ⟨m, hm⟩ := hgs
      obtain ⟨hp, hs⟩ := ih hm
      refine ⟨fun p hpm ↦ ?_, ?_⟩
      · rcases List.mem_cons.mp hpm with rfl | hpm
        · exact Or.inl hg
        · exact hp p hpm
      · simpa only [List.map_cons, List.sum_cons, isGroup_count hg, Nat.zero_add] using hs
    · cases gs with
      | nil =>
        by_cases h4 : isIPv4 g
        · refine ⟨fun p hp ↦ Or.inr ((List.mem_singleton.mp hp) ▸ h4), Or.inr ?_⟩
          simp only [List.map_cons, List.map_nil, List.sum_cons, List.sum_nil, isIPv4_count h4,
            Nat.add_zero]
        · simp [groups, hg, h4] at h
      | cons g' gs => simp [groups, hg] at h

theorem countGroups_parts {n : ℕ} (h : countGroups s = some n) :
    (∀ c ∈ s, isIpChar c) ∧ (s.count '.' = 0 ∨ s.count '.' = 3) := by
  unfold countGroups at h
  split_ifs at h with hs
  · subst hs
    exact ⟨fun c hc ↦ absurd hc List.not_mem_nil, Or.inl rfl⟩
  · obtain ⟨hp, hc⟩ := groups_parts h
    rw [← count_explode (by decide)] at hc
    refine ⟨fun c hcs ↦ ?_, hc⟩
    by_cases hcol : c = ':'
    · simp only [isIpChar, hcol, decide_true, Bool.or_true]
    · obtain ⟨p, hpm, hcp⟩ := exists_mem_explode hcs hcol
      rcases hp p hpm with h | h
      · simp only [isIpChar, isGroup_chars h c hcp, Bool.true_or]
      · rcases isIPv4_chars h hcp with h | rfl
        · simp only [isIpChar, isHex_of_isDigit h, Bool.true_or]
        · rfl

theorem cutDoubleColon_eq {a b : Texto} (h : cutDoubleColon s = some (a, b)) :
    s = a ++ ':' :: ':' :: b := by
  induction s using cutDoubleColon.induct generalizing a with
  | case1 s =>
    simp only [cutDoubleColon, Option.some.injEq, Prod.mk.injEq] at h
    rw [← h.1, ← h.2]
    rfl
  | case2 c s hne ih =>
    rw [cutDoubleColon.eq_2 c s hne, Option.map_eq_some_iff] at h
    obtain ⟨⟨a', b'⟩, ht, he⟩ := h
    cases he
    rw [ih ht, List.cons_append]
  | case3 => cases h

theorem validIp_parts (h : validIp s) :
    (∀ c ∈ s, isIpChar c) ∧ (s.count '.' = 0 ∨ s.count '.' = 3) := by
  unfold validIp at h
  split_ifs at h with hcol
  · unfold isIPv6 at h
    split at h
    · exact countGroups_parts (of_decide_eq_true h)
    · rename_i a b hab
      rw [cutDoubleColon_eq hab]
      split at h
      · rename_i m n ha hb
        simp only [Bool.and_eq_true, decide_eq_true_eq] at h
        obtain ⟨hac, -⟩ := countGroups_parts ha
        obtain ⟨hbc, hb⟩ := countGroups_parts hb
        refine ⟨fun c hc ↦ ?_, ?_⟩
        · simp only [List.mem_append, List.mem_cons] at hc
          rcases hc with hc | rfl | rfl | hc
          · exact hac c hc
          · rfl
          · rfl
          · exact hbc c hc
        · rw [List.count_append, List.count_eq_zero.mpr h.1, List.count_cons_of_ne (by decide),
            List.count_cons_of_ne (by decide), Nat.zero_add]
          exact hb
      · cases h
  · refine ⟨fun c hc ↦ ?_, Or.inr (isIPv4_count h)⟩
    rcases isIPv4_chars h hc with h | rfl
    · simp only [isIpChar, isHex_of_isDigit h, Bool.true_or]
    · rfl

theorem validIp_chars (h : validIp s) : ∀ c ∈ s, isIpChar c := (validIp_parts h).1

end Address

section Email

open Regex

def ranges (l : List (ℕ × ℕ)) : Regex := char fun c ↦ l.any fun r ↦ r.1 ≤ c.toNat && c.toNat ≤ r.2

def quote : Regex := char (· = '"')

def backslash : Regex := char (· = '\\')

/-- One character of a local part as its length is counted, with the quotes around it. -/
def unit : Regex :=
  alt (seq (opt quote) (seq backslash (seq (ranges [(0x00, 0x7e)]) (opt quote))))
    (seq (opt quote) (seq (char fun c ↦ c ≠ '\\' ∧ c ≠ '"') (opt quote)))

def atom : Regex :=
  plus (ranges [(0x21, 0x21), (0x23, 0x27), (0x2a, 0x2b), (0x2d, 0x2d), (0x2f, 0x39), (0x3d, 0x3d),
    (0x3f, 0x3f), (0x41, 0x5a), (0x5e, 0x7e)])

def quoted : Regex :=
  seq quote (seq (star (alt
    (ranges [(0x01, 0x08), (0x0b, 0x0c), (0x0e, 0x1f), (0x21, 0x21), (0x23, 0x5b), (0x5d, 0x7f)])
    (seq backslash (ranges [(0x00, 0x7f)])))) quote)

def word : Regex := alt atom quoted

def alnum : Regex := ranges [(0x30, 0x39), (0x41, 0x5a), (0x61, 0x7a)]

def letter : Regex := ranges [(0x41, 0x5a), (0x61, 0x7a)]

def xn : Regex :=
  seq (ranges [(0x58, 0x58), (0x78, 0x78)])
    (seq (ranges [(0x4e, 0x4e), (0x6e, 0x6e)]) (seq (char (· = '-')) (char (· = '-'))))

def hyphenated : Regex := star (seq (plus (char (· = '-'))) (plus alnum))

def labels : Regex :=
  seq (notAhead (seq (star (char (· ≠ '\n'))) (rep 64 (char (· ≠ '.')))))
    (seq (plus (seq (opt xn) (seq (plus alnum) (seq hyphenated (char (· = '.'))))))
      (seq (alt (seq letter (star alnum)) (seq xn (plus alnum))) hyphenated))

def hexGroup : Regex :=
  let hex := ranges [(0x30, 0x39), (0x41, 0x46), (0x61, 0x66)]
  seq hex (upto 3 hex)

def colonGroups (n : ℕ) : Regex := upto n (seq (char (· = ':')) hexGroup)

def hexThen (n : ℕ) (r : Regex) : Regex :=
  rep n (seq (star (char (· ≠ '\n'))) (seq (ranges [(0x30, 0x39), (0x41, 0x46), (0x61, 0x66)]) r))

def ipv6Tag : Regex :=
  [[(0x49, 0x69)], [(0x50, 0x70)], [(0x56, 0x76)]].foldr
    (fun l r ↦ seq (ranges (l.flatMap fun p ↦ [(p.1, p.1), (p.2, p.2)])) r) (literal "6:")

def doubleColon : Regex := literal "::"

def domainIPv6 : Regex :=
  seq ipv6Tag (alt (seq hexGroup (rep 7 (seq (char (· = ':')) hexGroup)))
    (seq (notAhead (hexThen 7 (char fun c ↦ c = ':' ∨ c = ']')))
      (seq (opt (seq hexGroup (colonGroups 5)))
        (seq doubleColon (opt (seq hexGroup (colonGroups 5)))))))

def ipv6Front : Regex :=
  seq ipv6Tag (alt (seq hexGroup (seq (rep 5 (seq (char (· = ':')) hexGroup)) (char (· = ':'))))
    (seq (notAhead (hexThen 5 (char (· = ':'))))
      (seq (opt (seq hexGroup (colonGroups 3)))
        (seq doubleColon (opt (seq hexGroup (seq (colonGroups 3) (char (· = ':')))))))))

def octet : Regex :=
  let digit := ranges [(0x30, 0x39)]
  alt (seq (literal "25") (ranges [(0x30, 0x35)]))
    (alt (seq (literal "2") (seq (ranges [(0x30, 0x34)]) digit))
      (alt (seq (literal "1") (rep 2 digit)) (seq (opt (ranges [(0x31, 0x39)])) digit)))

def domainIPv4 : Regex :=
  seq (opt ipv6Front) (seq octet (rep 3 (seq (char (· = '.')) octet)))

def email : Regex :=
  seq (notAhead (rep 255 unit))
    (seq (notAhead (seq (rep 65 unit) (seq (star unit) (char (· = '@')))))
    (seq (seq word (star (seq (char (· = '.')) word))) (seq (char (· = '@'))
      (alt labels (seq (char (· = '[')) (seq (alt domainIPv6 domainIPv4) (char (· = ']'))))))))

/-- `filter_var($s, FILTER_VALIDATE_EMAIL)` -/
def validEmail (s : Texto) : Bool := s.length ≤ 320 && email.matchesAll s

theorem endsIn_ranges {l : List (ℕ × ℕ)} (h : ∀ q ∈ l, 32 < q.1) :
    Consumes (ranges l).rests (EndsIn (· ≠ ' ')) := by
  refine endsIn_char (fun c hc ↦ ?_)
  obtain ⟨q, hq, hle⟩ := List.any_eq_true.mp hc
  rintro rfl
  have hlow := h q hq
  simp only [Bool.and_eq_true, decide_eq_true_eq] at hle
  exact absurd (Nat.lt_of_lt_of_le hlow hle.1) (by decide)

theorem endsIn_self {d : Char} (h : d ≠ ' ') : Consumes (char (· = d)).rests (EndsIn (· ≠ ' ')) :=
  endsIn_char (fun c hc ↦ by rwa [of_decide_eq_true hc])

theorem endsIn_word : Consumes word.rests (EndsIn (· ≠ ' ')) :=
  consumes_alt (endsIn_plus (endsIn_ranges (by decide)))
    (endsIn_seq (endsIn_seq (endsIn_self (by decide))))

theorem endsIn_labels : Consumes labels.rests (EndsIn (· ≠ ' ')) := by
  have halnum : Consumes alnum.rests (EndsIn (· ≠ ' ')) := endsIn_ranges (by decide)
  have hhyphenated : Consumes (seq (plus (char (· = '-'))) (plus alnum)).rests (EndsIn (· ≠ ' ')) :=
    endsIn_seq (endsIn_plus halnum)
  have htop : Consumes (alt (seq letter (star alnum)) (seq xn (plus alnum))).rests
    (EndsIn (· ≠ ' ')) :=
    consumes_alt (endsIn_seq_star (endsIn_ranges (by decide)) halnum)
      (endsIn_seq (endsIn_plus halnum))
  exact endsIn_seq (endsIn_seq (endsIn_seq_star htop hhyphenated))

theorem validEmail_parts {s : Texto} (h : validEmail s) :
    ∃ a b, s = a ++ '@' :: b ∧ EndsIn (· ≠ ' ') a ∧ EndsIn (· ≠ ' ') b := by
  simp only [validEmail, Bool.and_eq_true] at h
  have hlocal : Consumes (seq word (star (seq (char (· = '.')) word))).rests (EndsIn (· ≠ ' ')) :=
    endsIn_seq_star endsIn_word (endsIn_seq endsIn_word)
  have hdomain : Consumes
    (alt labels (seq (char (· = '[')) (seq (alt domainIPv6 domainIPv4) (char (· = ']'))))).rests
      (EndsIn (· ≠ ' ')) :=
        consumes_alt endsIn_labels (endsIn_seq (endsIn_seq (endsIn_self (by decide))))
  have hemail := consumes_seq (consumes_notAhead (rep 255 unit)) (consumes_seq
    (consumes_notAhead (seq (rep 65 unit) (seq (star unit) (char (· = '@')))))
    (consumes_seq hlocal (consumes_seq (consumes_char (· = '@')) hdomain)))
  obtain ⟨_, u, rfl, rfl, _, v, rfl, rfl, a, w, rfl, ha, _, b, rfl, ⟨c, hc, rfl⟩, hb⟩ :=
    of_matchesAll hemail h.2
  rw [of_decide_eq_true hc]
  exact ⟨a, b, rfl, ha, hb⟩

theorem validEmail_corto : validEmail "a@b.mx".toList := by
  have h255 : (notAhead (rep 255 unit)).rests ["a@b.mx".toList] = ["a@b.mx".toList] :=
    rests_notAhead (rests_rep_of_le (m := 8) (by decide) (by decide))
  have h65 : (rep 65 unit).rests ["a@b.mx".toList] = [] :=
    rests_rep_of_le (m := 8) (by decide) (by decide)
  have hlocal : (notAhead (seq (rep 65 unit) (seq (star unit) (char (· = '@'))))).rests
    ["a@b.mx".toList] =
      ["a@b.mx".toList] := by
    refine rests_notAhead ?_
    rw [rests, h65, rests_nil]
  have hword : (seq word (star (seq (char (· = '.')) word))).rests ["a@b.mx".toList] =
    ["@b.mx".toList] := by decide
  have hlabel : (notAhead (seq (star (char (· ≠ '\n'))) (rep 64 (char (· ≠ '.'))))).rests
    ["b.mx".toList] =
      ["b.mx".toList] := by
    refine rests_notAhead ?_
    rw [rests]
    exact rests_rep_of_le (m := 8) (by decide) (by decide)
  have hat : (char (· = '@')).rests ["@b.mx".toList] = ["b.mx".toList] := by decide
  have hrest : (seq (plus (seq (opt xn) (seq (plus alnum) (seq hyphenated (char (· = '.'))))))
      (seq (alt (seq letter (star alnum)) (seq xn (plus alnum))) hyphenated)).rests
        ["b.mx".toList] =
      [['x'], []] := by decide
  have hip : (seq (char (· = '[')) (seq (alt domainIPv6 domainIPv4) (char (· = ']')))).rests
      ["b.mx".toList] = [] := by
    decide
  have hemail : email.rests ["a@b.mx".toList] = [['x'], []] := by
    rw [email, rests, h255, rests, hlocal, rests, hword, rests, hat, rests, labels, rests,
      hlabel, hrest, hip]
    rfl
  rw [validEmail, Regex.matchesAll, rests, hemail]
  decide

end Email

end ServiciosRed.Filters
