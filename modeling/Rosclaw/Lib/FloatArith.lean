/-
Arithmetic on Python floats.

The result of an operation on finite floats is the exact one, rounded to the nearest float; the
two zeros are one number here.

* `le_trans`, `le_of_not_lt` — the order, on floats other than NaN.
-/
import Rosclaw.Lib.Double
import Rosclaw.Lib.PyVal

namespace PyFloat

def ofRat (q : ℚ) : PyFloat :=
  match Double.ofRat (q < 0) |q| with
  | .zero _ => .finite 0
  | .nonzero neg x => .finite (if neg then -x.value else x.value)
  | .inf neg => if neg then .negInf else .inf

def neg : PyFloat → PyFloat
  | .finite q => .finite (-q)
  | .inf => .negInf
  | .negInf => .inf
  | .nan => .nan

/-- `x + y`. -/
def add : PyFloat → PyFloat → PyFloat
  | .finite p, .finite q => ofRat (p + q)
  | .nan, _ | _, .nan | .inf, .negInf | .negInf, .inf => .nan
  | .inf, _ | _, .inf => .inf
  | .negInf, _ | _, .negInf => .negInf

/-- `x - y`. -/
def sub (x y : PyFloat) : PyFloat := x.add y.neg

def infinity (q : ℚ) : PyFloat := if 0 < q then .inf else if q < 0 then .negInf else .nan

/-- `1`, `-1` or `0`, as the float is above, below or at zero. -/
def sign : PyFloat → ℚ
  | .finite q => if 0 < q then 1 else if q < 0 then -1 else 0
  | .inf => 1
  | .negInf => -1
  | .nan => 0

/-- `x * y`. -/
def mul : PyFloat → PyFloat → PyFloat
  | .finite p, .finite q => ofRat (p * q)
  | .nan, _ | _, .nan => .nan
  | x, y => infinity (x.sign * y.sign)

/-- `x / y`, for a finite `y` other than zero. -/
def div : PyFloat → ℚ → PyFloat
  | .finite p, q => ofRat (p / q)
  | .nan, _ => .nan
  | x, q => infinity (x.sign * (PyFloat.finite q).sign)

def max (x y : PyFloat) : PyFloat := if x.lt y then y else x

/-- `round(x, n)`: to the nearest decimal, and of two to the even one. -/
def roundTo (n : Nat) : PyFloat → PyFloat
  | .finite q =>
      let digits : ℚ := Double.nearest (|q| * 10 ^ n)
      ofRat ((if q < 0 then -digits else digits) / 10 ^ n)
  | x => x

/-- `round(x)` of a finite float: to the nearest integer, and of two to the even one. -/
def roundInt (q : ℚ) : Int :=
  if q < 0 then -(Double.nearest |q| : Int) else Double.nearest |q|

/-- `int(x)` of a finite float: toward zero. -/
def truncate (q : ℚ) : Int := if q < 0 then -(⌊|q|⌋₊ : Int) else ⌊|q|⌋₊

/-- `abs(x)`. -/
def abs : PyFloat → PyFloat
  | .finite q => .finite |q|
  | .negInf => .inf
  | x => x

/-- `float(n)`; an integer that is too large raises. -/
def ofInt? (n : Int) : Option PyFloat :=
  match ofRat n with
  | .finite q => some (.finite q)
  | _ => none

/-! ### Order -/

theorem le_refl {x : PyFloat} (h : x ≠ .nan) : x.le x = true := by
  simp [le, h]

theorem not_nan_le (x : PyFloat) : PyFloat.nan.le x = false := by
  cases x <;> rfl

theorem le_of_not_lt {x y : PyFloat} (hx : x ≠ .nan) (hy : y ≠ .nan) (h : y.lt x = false) :
    x.le y = true := by
  cases x <;> cases y <;> simp_all [le, lt]
  next p q =>
    obtain hlt | heq := lt_or_eq_of_le h
    · exact .inl hlt
    · exact .inr heq

theorem le_trans {x y z : PyFloat} (h : x.le y = true) (h' : y.le z = true) : x.le z = true := by
  cases x <;> cases y <;> cases z <;> simp_all [le, lt]
  next p q r =>
    obtain hlt | rfl := h
    · obtain hlt' | rfl := h'
      · exact .inl (hlt.trans hlt')
      · exact .inl hlt
    · exact h'

theorem le_of_lt {x y : PyFloat} (h : x.lt y = true) : x.le y = true := by
  rw [le, h, Bool.true_or]

end PyFloat
