import AssetPlan.Decimal.Double

/-! # Reading decimals

Two ways to read a decimal. `nearest` rounds the exact decimal once. `scaled` keeps as many leading
digits as fit 64 bits and scales them by a power of ten in floating-point arithmetic, so a long
decimal may differ from the nearest double in the last bit; it has no infinite results.
-/

namespace AssetPlan.Decimal

/-- The value of a digit list read after `n`. -/
def digitsValue (n : Nat) (ds : List Nat) : Nat :=
  ds.foldl (fun value d => value * 10 + d) n

/-- The double nearest to `n * 10 ^ scale`, infinite when that is too large. Magnitudes out of range
are decided by the number of digits. -/
def nearest (n : Nat) (scale : Int) : Double :=
  if n = 0 then ⟨0⟩
  else
    let size : Int := (toString n).length + scale
    if size > 310 then .infinity
    else if size < -330 then ⟨0⟩
    else if scale ≥ 0 then .ofFloat (Float.ofScientific n false scale.toNat)
    else .ofFloat (Float.ofScientific n true (-scale).toNat)

/-- The largest significand that `scaled` keeps. -/
def significandBound : Nat := Nat.pow 2 64 - 1

/-- Appends digits to `n` while the bound is kept; also says how many were appended. -/
def appendWhile (bound : Nat) : Nat → List Nat → Nat × Nat
  | n, [] => (n, 0)
  | n, d :: ds =>
    if n * 10 + d ≤ bound then
      let (m, used) := appendWhile bound (n * 10 + d) ds
      (m, used + 1)
    else (n, 0)

/-- The power of ten as a double, for exponents up to 308. -/
def powerOfTen (e : Nat) : Float := Float.ofScientific 1 false e

/-- Multiplies by a power of ten; none when the result is too large. A power below `10 ^ -308` is
divided out in steps, after the third of which every significand has become zero. -/
def scaleFloat : Nat → Float → Int → Option Float
  | 0, _, _ => some 0.0
  | steps + 1, x, e =>
    if e.natAbs ≤ 308 then
      if e ≥ 0 then
        let y := x * powerOfTen e.toNat
        if y.isInf then none else some y
      else some (x / powerOfTen e.natAbs)
    else if x == 0.0 then some x
    else if e ≥ 0 then none
    else scaleFloat steps (x / powerOfTen 308) (e + 308)

/-- Reads the digits before and after the point and an exponent; none when the number is too
large. -/
def scaled (whole fraction : List Nat) (exponent : Int) : Option Double :=
  let (n, used) := appendWhile significandBound 0 whole
  let (n, usedFraction) := appendWhile significandBound n fraction
  let e : Int := exponent + (whole.length - used : Nat) - usedFraction
  (scaleFloat 4 (Float.ofScientific n false 0) e).map .ofFloat

end AssetPlan.Decimal
