import Mathlib.Tactic.Common

/-! # Machine integer conversions

Values are unbounded integers; a conversion to a fixed-width type is the one
place where wrap-around enters. Comparisons between a signed value and an
unsigned constant go through `size64`, so that a negative value is large.
-/

namespace Foundation

/-- Value of `x` after conversion to a 32-bit signed integer. -/
def int32 (x : Int) : Int := (x + 2147483648) % 4294967296 - 2147483648

/-- Value of `x` after conversion to a 32-bit unsigned integer. -/
def uint32 (x : Int) : Nat := (x % 4294967296).toNat

/-- Value of `x` after conversion to a 64-bit unsigned size. -/
def size64 (x : Int) : Nat := (x % 18446744073709551616).toNat

theorem int32_eq_self {x : Int} (lo : -2147483648 ≤ x) (hi : x < 2147483648) : int32 x = x := by
  unfold int32
  omega

theorem int32_range (x : Int) : -2147483648 ≤ int32 x ∧ int32 x < 2147483648 := by
  unfold int32
  omega

/-- Wrapping an intermediate result does not change the wrapped difference. -/
theorem int32_sub (x y : Int) : int32 (int32 x - y) = int32 (x - y) := by
  unfold int32
  omega

theorem int32_add (x y : Int) : int32 (int32 x + y) = int32 (x + y) := by
  unfold int32
  omega

@[simp] theorem int32_zero : int32 0 = 0 := rfl

theorem size64_of_nonneg {x : Int} (lo : 0 ≤ x) (hi : x < 18446744073709551616) :
    size64 x = x.toNat := by
  unfold size64
  omega

/-- A signed value passes an unsigned lower bound exactly when it is negative
or really reaches the bound. -/
theorem le_size64_int32 {n : Nat} (hn : n ≤ 2147483648) (x : Int) :
    n ≤ size64 (int32 x) ↔ int32 x < 0 ∨ (n : Int) ≤ int32 x := by
  have hr := int32_range x
  unfold size64
  omega

end Foundation
