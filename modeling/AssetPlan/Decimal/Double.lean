/-! # Double-precision numbers

A double is held by its 64 bits, so equality is decidable and a closed value can be compared. The
reading of the bits as a fraction is exact; arithmetic is only needed to read decimals.
-/

namespace AssetPlan.Decimal

/-- An IEEE 754 double by its bits. -/
structure Double where
  bits : UInt64
deriving DecidableEq, Repr, Inhabited

namespace Double

def ofFloat (x : Float) : Double := ⟨x.toBits⟩

def isNegative (x : Double) : Bool := x.bits.toNat ≥ Nat.pow 2 63

/-- The biased exponent field. -/
def exponentField (x : Double) : Nat := x.bits.toNat / Nat.pow 2 52 % Nat.pow 2 11

/-- The fraction field. -/
def fractionField (x : Double) : Nat := x.bits.toNat % Nat.pow 2 52

/-- Neither infinite nor undefined. -/
def isFinite (x : Double) : Bool := x.exponentField != 2047

def isZero (x : Double) : Bool := x.exponentField == 0 && x.fractionField == 0

/-- The magnitude is `significand * 2 ^ exponent` exactly. -/
def significand (x : Double) : Nat :=
  if x.exponentField = 0 then x.fractionField else x.fractionField + Nat.pow 2 52

/-- The power of two that the significand counts; below the normal range it no longer falls. -/
def exponent (x : Double) : Int :=
  if x.exponentField = 0 then -1074 else (x.exponentField : Int) - 1075

/-- The double below is half as far away as the double above. -/
def narrowBelow (x : Double) : Bool := x.fractionField == 0 && x.exponentField > 1

/-- The same magnitude with the other sign. -/
def negate (x : Double) : Double := ⟨x.bits ^^^ 0x8000000000000000⟩

/-- Positive infinity. -/
def infinity : Double := ⟨0x7FF0000000000000⟩

/-- The undefined number. -/
def undefined : Double := ⟨0x7FF8000000000000⟩

end Double

end AssetPlan.Decimal
