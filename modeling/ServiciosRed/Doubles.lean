import Mathlib.Algebra.Order.Field.Rat
import Mathlib.Data.List.ReduceOption

namespace ServiciosRed.Doubles

/-- A C double whose finite values are not rounded and have one zero: what is proved of
it is about exact arithmetic. -/
inductive Double
  | nan
  | negInf
  | num (q : ℚ)
  | inf
  deriving DecidableEq

namespace Double

def isnan : Double → Bool
  | nan => true
  | _ => false

def sgn : Double → ℤ
  | nan => 0
  | negInf => -1
  | num q => if q < 0 then -1 else if 0 < q then 1 else 0
  | inf => 1

def infinite (s : ℤ) : Double := if s < 0 then negInf else if 0 < s then inf else nan

def neg : Double → Double
  | nan => nan
  | negInf => inf
  | num q => num (-q)
  | inf => negInf

def add : Double → Double → Double
  | nan, _ => nan
  | _, nan => nan
  | num p, num q => num (p + q)
  | num _, y => y
  | x, num _ => x
  | inf, inf => inf
  | negInf, negInf => negInf
  | _, _ => nan

def mul : Double → Double → Double
  | nan, _ => nan
  | _, nan => nan
  | num p, num q => num (p * q)
  | x, y => infinite (x.sgn * y.sgn)

/-- Zero is not signed here, so a number divided by it takes its own sign. -/
def div : Double → Double → Double
  | nan, _ => nan
  | _, nan => nan
  | num p, num q => if q = 0 then infinite (num p).sgn else num (p / q)
  | num _, _ => num 0
  | x, num q => if q < 0 then x.neg else x
  | _, _ => nan

def lt : Double → Double → Bool
  | nan, _ => false
  | _, nan => false
  | _, negInf => false
  | negInf, _ => true
  | inf, _ => false
  | _, inf => true
  | num p, num q => p < q

def abs : Double → Double
  | nan => nan
  | num q => num |q|
  | _ => inf

instance : Add Double := ⟨add⟩
instance : Neg Double := ⟨neg⟩
instance : Sub Double := ⟨fun x y ↦ x + -y⟩
instance : Mul Double := ⟨mul⟩
instance : Div Double := ⟨div⟩

variable {p q : ℚ} {x : Double}

theorem num_ne_nan : num q ≠ nan := by
  intro h
  cases h

@[simp] theorem isnan_nan : isnan nan = true := rfl

@[simp] theorem isnan_num : isnan (num q) = false := rfl

@[simp] theorem isnan_negInf : isnan negInf = false := rfl

@[simp] theorem isnan_inf : isnan inf = false := rfl

@[simp] theorem num_add : num p + num q = num (p + q) := rfl

@[simp] theorem nan_mul : nan * x = nan := rfl

@[simp] theorem num_mul : num p * num q = num (p * q) := rfl

@[simp] theorem nan_div : nan / x = nan := rfl

@[simp] theorem num_sub : num p - num q = num (p - q) := by
  have h : num p - num q = num (p + -q) := rfl
  rw [h, sub_eq_add_neg]

theorem num_div (hq : q ≠ 0) : num p / num q = num (p / q) := by
  have h : num p / num q = if q = 0 then infinite (num p).sgn else num (p / q) := rfl
  rw [h, if_neg hq]

theorem zero_div_zero : num 0 / num 0 = nan := rfl

@[simp] theorem num_lt : lt (num p) (num q) = decide (p < q) := rfl

@[simp] theorem negInf_lt_num : lt negInf (num q) = true := rfl

@[simp] theorem num_lt_negInf : lt (num q) negInf = false := rfl

@[simp] theorem num_lt_inf : lt (num q) inf = true := rfl

@[simp] theorem inf_lt_num : lt inf (num q) = false := rfl

@[simp] theorem abs_num : abs (num q) = num |q| := rfl

def ofOption : Option ℚ → Double
  | none => nan
  | some q => num q

@[simp] theorem ofOption_none : ofOption none = nan := rfl

@[simp] theorem ofOption_some : ofOption (some q) = num q := rfl

def toOption : Double → Option ℚ
  | num q => some q
  | _ => none

theorem ofOption_toOption (h : x = nan ∨ ∃ q, x = num q) : ofOption x.toOption = x := by
  rcases h with rfl | ⟨q, rfl⟩ <;> rfl

def ifnan (x y : Double) : Double := if x.isnan then y else x

@[simp] theorem nan_ifnan : ifnan nan x = x := rfl

@[simp] theorem num_ifnan : ifnan (num q) x = num q := rfl

end Double

end ServiciosRed.Doubles
