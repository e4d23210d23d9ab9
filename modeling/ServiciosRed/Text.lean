import Mathlib.Data.List.DropRight
import Mathlib.Algebra.Order.Ring.Int

namespace ServiciosRed.Text

/-- Text as PHP and MySQL pass it around, character by character. -/
abbrev Texto := List Char

/-- The characters of a text are tried, and not all the characters that there are. -/
instance (priority := high) decidableForallMem (p : Char → Prop) [DecidablePred p] (s : Texto) :
    Decidable (∀ c ∈ s, p c) := List.decidableBAll p s

def decimal (n : ℕ) : Texto := Nat.toDigits 10 n

def intText (z : ℤ) : Texto := if z < 0 then '-' :: decimal z.natAbs else decimal z.natAbs

def valueOf (s : Texto) : ℕ := Nat.ofDigitChars 10 s 0

/-- The white space of C. -/
def isSpace (c : Char) : Bool :=
  c = ' ' || c = '\t' || c = '\n' || c = '\x0b' || c = '\x0c' || c = '\r'

theorem valueOf_decimal (n : ℕ) : valueOf (decimal n) = n := Nat.ofDigitChars_ten_toDigits

theorem decimal_injective : Function.Injective decimal := fun n m h ↦ by
  rw [← valueOf_decimal n, h, valueOf_decimal]

theorem isDigit_of_mem_decimal {n : ℕ} {c : Char} (h : c ∈ decimal n) : c.isDigit :=
  Nat.isDigit_of_mem_toDigits (by decide) (by decide) h

theorem dropWhile_of_forall {p : Char → Bool} {s : Texto} (h : ∀ c ∈ s, p c = false) :
    s.dropWhile p = s := by
  cases s with
  | nil => rfl
  | cons c s => rw [List.dropWhile_cons, h c List.mem_cons_self, if_neg Bool.false_ne_true]

theorem notMem_decimal {c : Char} (h : c.isDigit = false) (n : ℕ) : c ∉ decimal n := by
  intro hmem
  rw [isDigit_of_mem_decimal hmem] at h
  cases h

theorem digit_cases {c : Char} (h : c.isDigit) :
    c ∈ ['0', '1', '2', '3', '4', '5', '6', '7', '8', '9'] := by
  have hrange : c.toNat ∈ List.range' 48 10 := by
    simp only [Char.isDigit, Bool.and_eq_true, decide_eq_true_eq, UInt32.le_iff_toNat_le] at h
    exact List.mem_range'_1.mpr ⟨h.1, Nat.lt_succ_of_le h.2⟩
  have hall : ∀ n ∈ List.range' 48 10, Char.ofNat n ∈
      ['0', '1', '2', '3', '4', '5', '6', '7', '8', '9'] := by
    decide
  simpa only [Char.ofNat_toNat] using hall c.toNat hrange

@[elab_as_elim]
theorem of_isDigit {p : Char → Prop} {c : Char} (h : c.isDigit)
    (hall : ∀ d ∈ ['0', '1', '2', '3', '4', '5', '6', '7', '8', '9'], p d) : p c :=
  hall c (digit_cases h)

theorem decimal_ne_nil (n : ℕ) : decimal n ≠ [] := Nat.toDigits_ne_nil

end ServiciosRed.Text
