import GrowthAudit.Decimal.Binary

/-!
# Shortest decimals

The shortest decimal of a double has the fewest digits among the decimals that read back as that
double, and among those of this length it is the nearest.  For one digit, two digits and so on, the
two neighbours of the double on the grid of decimals of that length are tested in exact arithmetic;
seventeen digits always suffice.

`Layout` says how digits become text; `Layout.standard` is the layout of this library's numbers.
-/

namespace GrowthAudit.Decimal

/-- The numeral `digits · 10 ^ exponent`. -/
structure Numeral where
  digits : Nat
  exponent : Int
  deriving DecidableEq, Repr

namespace Shortest

/-- The least number of tenfold steps, at most `bound` of them, that bring a fraction to one. -/
def stepsToOne : (bound : Nat) → Fraction → Nat
  | 0, _ => 0
  | bound + 1, v => if v.den ≤ v.num then 0 else stepsToOne bound ⟨10 * v.num, v.den⟩ + 1

/-- The exponent `e` with `10 ^ (e - 1) ≤ v < 10 ^ e`, for a magnitude of a double. -/
def decade (v : Fraction) : Int :=
  if v.den ≤ v.num then (Nat.toDigits 10 v.floor).length else 1 - (stepsToOne 400 v : Int)

/-- The reals that read as one double: an interval whose ends belong to it or not. -/
structure Interval where
  low : Fraction
  high : Fraction
  closed : Bool

/-- The interval of the double `m · 2 ^ e`.  Below a power of two the next double is half as far. -/
def interval (m : Nat) (e : Int) : Interval :=
  let low := if m = hiddenBit ∧ leastExponent < e then .scaled (4 * m - 1) 2 (e - 2)
    else .scaled (2 * m - 1) 2 (e - 1)
  ⟨low, .scaled (2 * m + 1) 2 (e - 1), m % 2 = 0⟩

def Interval.contains (i : Interval) (v : Fraction) : Bool :=
  if i.closed then i.low.le v && v.le i.high else i.low.lt v && v.lt i.high

/-- The nearest decimal with `count` digits in the interval, `none` where there is none. -/
def onGrid? (v : Fraction) (i : Interval) (e : Int) (count : Nat) : Option Numeral :=
  let place := e - count
  let below := (v.mul (.scaled 1 10 (-place))).floor
  let inside (d : Nat) : Bool := i.contains (.scaled d 10 place)
  let nearest := (v.mul (.scaled 1 10 (-place))).round
  if inside nearest then some ⟨nearest, place⟩
  else if inside below then some ⟨below, place⟩
  else if inside (below + 1) then some ⟨below + 1, place⟩
  else none

/-- The shortest decimal of the positive double `m · 2 ^ e`. -/
def ofMantissa (m : Nat) (e : Int) : Numeral :=
  let v := Fraction.scaled m 2 e
  let d := decade v
  let i := interval m e
  ((List.range 17).findSome? fun k => onGrid? v i d (k + 1)).getD ⟨m, 0⟩

end Shortest

/-- How the digits of a decimal are laid out. -/
structure Layout where
  /-- The decades that are written without an exponent. -/
  positional : Int → Bool
  /-- Whether a whole number written without an exponent ends in a point and a zero. -/
  keepsPoint : Bool
  /-- The least number of digits of an exponent. -/
  exponentWidth : Nat
  infinity : String
  nan : String

/-- Numbers from `0.0001` up to `10 ^ 16` are written without an exponent. -/
def Layout.standard : Layout := ⟨fun d => -3 ≤ d && d ≤ 16, true, 2, "inf", "nan"⟩

namespace Layout

def zeros (n : Nat) : List Char := List.replicate n '0'

/-- The digits of a decimal without zeros at the end. -/
def significant (digits : Nat) : List Char :=
  ((Nat.toDigits 10 digits).reverse.dropWhile (· = '0')).reverse

def exponentText (l : Layout) (e : Int) : List Char :=
  let ds := Nat.toDigits 10 e.natAbs
  (if e < 0 then '-' else '+') :: (zeros (l.exponentWidth - ds.length) ++ ds)

/-- The text of significant digits whose first stands just below `10 ^ decade`. -/
def digitsText (l : Layout) (ds : List Char) (decade : Int) : List Char :=
  if l.positional decade then
    if decade ≤ 0 then '0' :: '.' :: (zeros (-decade).toNat ++ ds)
    else
      let whole := decade.toNat
      if ds.length ≤ whole then
        ds ++ zeros (whole - ds.length) ++ (if l.keepsPoint then ['.', '0'] else [])
      else ds.take whole ++ '.' :: ds.drop whole
  else
    let mantissa := if ds.length ≤ 1 then ds else ds.take 1 ++ '.' :: ds.drop 1
    mantissa ++ 'e' :: l.exponentText (decade - 1)

/-- The text of a positive decimal. -/
def decimalText (l : Layout) (d : Numeral) : List Char :=
  l.digitsText (significant d.digits) ((Nat.toDigits 10 d.digits).length + d.exponent)

/-- The shortest text of a double. -/
def floatText (l : Layout) (x : Float) : String :=
  match Binary.ofFloat x with
  | .nan => l.nan
  | .infinite negative => (if negative then "-" else "") ++ l.infinity
  | .finite negative m e =>
    let magnitude := if m = 0 then l.digitsText ['0'] 1 else l.decimalText (Shortest.ofMantissa m e)
    String.ofList (if negative then '-' :: magnitude else magnitude)

end Layout

end GrowthAudit.Decimal
