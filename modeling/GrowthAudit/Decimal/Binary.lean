/-!
# Binary fractions

A finite double is a sign and a binary fraction `mantissa · 2 ^ exponent`; `Binary.ofFloat` decodes
its bits.  `Fraction` holds the same magnitude as a quotient of natural numbers, on which rounding
is exact arithmetic.
-/

namespace GrowthAudit.Decimal

/-- What the bits of a double stand for. -/
inductive Binary where
  | nan
  | infinite (negative : Bool)
  | finite (negative : Bool) (mantissa : Nat) (exponent : Int)
  deriving DecidableEq, Repr

/-- The leading bit of a mantissa, which the bits of a double leave out. -/
def hiddenBit : Nat := 0x10000000000000

/-- The exponent of the smallest doubles. -/
def leastExponent : Int := -1074

def Binary.ofBits (bits : Nat) : Binary :=
  let negative : Bool := 0x8000000000000000 ≤ bits
  let field : Nat := bits / hiddenBit % 0x800
  let fraction := bits % hiddenBit
  if field = 0x7FF then if fraction = 0 then .infinite negative else .nan
  else if field = 0 then .finite negative fraction leastExponent
  else .finite negative (fraction + hiddenBit) (leastExponent + field - 1)

def Binary.ofFloat (x : Float) : Binary := .ofBits x.toBits.toNat

/-- A quotient of natural numbers; the denominator of one that is made here is positive. -/
structure Fraction where
  num : Nat
  den : Nat
  deriving DecidableEq, Repr

namespace Fraction

/-- `n · base ^ e`. -/
def scaled (n base : Nat) (e : Int) : Fraction :=
  ⟨n * Nat.pow base e.toNat, Nat.pow base (-e).toNat⟩

def mul (a b : Fraction) : Fraction := ⟨a.num * b.num, a.den * b.den⟩

def le (a b : Fraction) : Bool := a.num * b.den ≤ b.num * a.den

def lt (a b : Fraction) : Bool := a.num * b.den < b.num * a.den

def floor (a : Fraction) : Nat := a.num / a.den

/-- The nearest natural number, an exact half going to the even neighbour. -/
def round (a : Fraction) : Nat :=
  let q := a.num / a.den
  let twice := 2 * (a.num % a.den)
  if twice < a.den ∨ (twice = a.den ∧ q % 2 = 0) then q else q + 1

end Fraction

/-- The integer part of a double, toward zero; `none` for one that is not finite. -/
def integerPart? (x : Float) : Option Int :=
  match Binary.ofFloat x with
  | .finite negative m e =>
    let n : Int := (Fraction.scaled m 2 e).floor
    some (if negative then -n else n)
  | _ => none

end GrowthAudit.Decimal
