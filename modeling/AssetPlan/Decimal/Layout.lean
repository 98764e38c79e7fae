import AssetPlan.Decimal.Shortest

/-! # Decimal text of a double

A number is written with the fewest digits that read back: positionally, always with a point, from
`0.00001` up to sixteen digits before the point, and otherwise with a signed exponent.
-/

namespace AssetPlan.Decimal

/-- The decisions of a number format. -/
structure Layout where
  /-- the least position of the point, counted after the first digits, that is written
  positionally -/
  leastPoint : Int
  /-- the greatest such position -/
  greatestPoint : Int
deriving Repr

/-- Numbers in configuration text are positional from `0.00001` up to below `10 ^ 16`. -/
def plainLayout : Layout := ⟨-4, 16⟩

/-- A decimal without zeros at its end; `fuel` bounds how many are removed. -/
def Digits.strip : Nat → Digits → Digits
  | 0, d => d
  | fuel + 1, d =>
    if d.digits ≠ 0 ∧ d.digits % 10 = 0 then strip fuel ⟨d.digits / 10, d.scale + 1⟩ else d

def zeros (n : Nat) : String := .ofList (List.replicate n '0')

/-- Writes a positive decimal. -/
def Layout.write (layout : Layout) (d : Digits) : String :=
  let d := d.strip 400
  let text := toString d.digits
  let length : Int := text.length
  let point := length + d.scale
  if layout.leastPoint ≤ point ∧ point ≤ layout.greatestPoint then
    if point ≤ 0 then "0." ++ zeros (-point).toNat ++ text
    else if length ≤ point then text ++ zeros (point - length).toNat ++ ".0"
    else
      .ofList (text.toList.take point.toNat) ++ "." ++ .ofList (text.toList.drop point.toNat)
  else
    let rest := text.toList.drop 1
    let exponent := point - 1
    .ofList (text.toList.take 1) ++ (if rest.isEmpty then "" else "." ++ .ofList rest)
      ++ "e" ++ (if exponent < 0 then "-" else "+") ++ toString exponent.natAbs

/-- The text of a finite double. -/
def Double.text (x : Double) : String :=
  (if x.isNegative then "-" else "") ++
    (if x.isZero then "0.0" else plainLayout.write x.shortest)

end AssetPlan.Decimal
