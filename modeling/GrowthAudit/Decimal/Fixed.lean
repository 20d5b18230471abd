import GrowthAudit.Decimal.Binary

/-!
# Decimals with fixed places

A double with a fixed number of decimal places: the exact binary value is rounded, and an exact half
goes to the even neighbour.  The sign is that of the double, also where all digits are zero.
-/

namespace GrowthAudit.Decimal

/-- A number of units of the last place, with the point set. -/
def placesText (places units : Nat) : List Char :=
  let ds := Nat.toDigits 10 units
  let ds := List.replicate (places + 1 - ds.length) '0' ++ ds
  let whole := ds.length - places
  if places = 0 then ds else ds.take whole ++ '.' :: ds.drop whole

/-- A double with `places` decimal places. -/
def fixedText (places : Nat) (x : Float) : String :=
  match Binary.ofFloat x with
  | .nan => "nan"
  | .infinite negative => if negative then "-inf" else "inf"
  | .finite negative m e =>
    let units := ((Fraction.scaled m 2 e).mul (.scaled 1 10 places)).round
    String.ofList (if negative then '-' :: placesText places units else placesText places units)

end GrowthAudit.Decimal
