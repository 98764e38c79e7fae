import AssetPlan.Decimal.Double

/-! # The fewest digits that read back

The reals that round to a double form an interval around it. `Double.shortest` finds the decimal
with the fewest digits in that interval, and of several with as few the nearest to the double, in
exact natural-number arithmetic. A tie goes to the even digit.
-/

namespace AssetPlan.Decimal

/-- A decimal `digits * 10 ^ scale`. -/
structure Digits where
  digits : Nat
  scale : Int
deriving DecidableEq, Repr

/-- The quotient `a * 2 ^ p * 10 ^ t` as numerator and denominator. -/
def ratio (a : Nat) (p t : Int) : Nat × Nat :=
  (a * Nat.pow 2 p.toNat * Nat.pow 10 t.toNat, Nat.pow 2 (-p).toNat * Nat.pow 10 (-t).toNat)

/-- Compares two quotients of positive denominators. -/
def compareRatio (x y : Nat × Nat) : Ordering :=
  compare (x.1 * y.2) (y.1 * x.2)

namespace Double

/-- The decimal lies between the halves of the way to the two neighbours; the ends count when the
significand is even, since a tie rounds to it. -/
def readsBack (x : Double) (d : Digits) : Bool :=
  let m := x.significand
  let value := ratio d.digits 0 d.scale
  let low := ratio (if x.narrowBelow then 4 * m - 1 else 4 * m - 2) (x.exponent - 2) 0
  let high := ratio (4 * m + 2) (x.exponent - 2) 0
  if m % 2 = 0 then compareRatio low value != .gt && compareRatio value high != .gt
  else compareRatio low value == .lt && compareRatio value high == .lt

/-- The number of decimal digits before the point, negative for zeros after the point: the least
`k` with `x < 10 ^ k`, found by correcting an estimate. -/
def pointPosition (x : Double) : Int :=
  let log2 : Int := x.significand.log2 + x.exponent
  let estimate := log2 * 30103 / 100000
  let below (k : Int) : Bool := compareRatio (ratio x.significand x.exponent 0) (ratio 1 0 k) == .lt
  if below (estimate - 1) then estimate - 1
  else if below estimate then estimate
  else if below (estimate + 1) then estimate + 1
  else estimate + 2

/-- The better of the two neighbours of the double on the grid `10 ^ scale`, if one reads back. -/
def onGrid (x : Double) (scale : Int) : Option Digits :=
  let value := ratio x.significand x.exponent (-scale)
  let floor := value.1 / value.2
  let down : Digits := ⟨floor, scale⟩
  let up : Digits := ⟨floor + 1, scale⟩
  match x.readsBack down && floor != 0, x.readsBack up with
  | false, false => none
  | true, false => some down
  | false, true => some up
  | true, true =>
    match compare (2 * value.1) ((2 * floor + 1) * value.2) with
    | .lt => some down
    | .gt => some up
    | .eq => some (if floor % 2 = 0 then down else up)

/-- Tries grids from coarse to fine: `steps` more of them, the next with unit `10 ^ scale`. -/
def search (x : Double) : Nat → Int → Option Digits
  | 0, _ => none
  | steps + 1, scale =>
    match x.onGrid scale with
    | some d => some d
    | none => x.search steps (scale - 1)

/-- The decimal with the fewest digits that reads back to the magnitude of a finite nonzero double.
Seventeen digits always suffice; the exact value stands behind the search. -/
def shortest (x : Double) : Digits :=
  match x.search 17 (x.pointPosition - 1) with
  | some d => d
  | none =>
    ⟨x.significand * Nat.pow 5 (-x.exponent).toNat * Nat.pow 2 x.exponent.toNat,
      min x.exponent 0⟩

end Double

end AssetPlan.Decimal
