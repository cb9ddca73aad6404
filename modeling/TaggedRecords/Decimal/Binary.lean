/-!
# Decimal — binary floating point, exactly

A `Binary` is a finite, non-negative number of the 64-bit binary format: `mantissa * 2 ^ exponent`
with a mantissa below `2 ^ 53`, the exponent the least possible one and never below `-1074`.
Everything is computed on natural numbers; a result is rounded once, to the nearest such number,
and of two equally near ones to the one with the even mantissa (`Binary.nearest`).

`Binary.ofDecimal` gives the number that a decimal `significand * 10 ^ exponent` is read as: the
significand and the power of ten are rounded first, then their product or quotient.
-/

namespace TaggedRecords.Decimal

/-- A finite non-negative number of the 64-bit binary format. -/
structure Binary where
  mantissa : Nat
  exponent : Int
  deriving DecidableEq, Repr

/-- `2` to the power of `n`. -/
def powerOfTwo (n : Nat) : Nat := Nat.pow 2 n

/-- `10` to the power of `n`. -/
def powerOfTen (n : Nat) : Nat := Nat.pow 10 n

/-- The quotient rounded to the nearest natural number, a half to the even neighbour. -/
def roundDiv (num den : Nat) : Nat :=
  let q := num / den
  let r := num % den
  if 2 * r < den then q
  else if den < 2 * r then q + 1
  else if q % 2 = 0 then q else q + 1

/-- The greatest `e` with `2 ^ e ≤ num / den`, for positive `num` and `den`. -/
def log2Quotient (num den : Nat) : Int :=
  let guess : Int := (num.log2 : Int) - den.log2
  if den * powerOfTwo guess.toNat ≤ num * powerOfTwo (-guess).toNat then guess else guess - 1

namespace Binary

/-- Zero. -/
def zero : Binary := ⟨0, -1074⟩

/-- Whether a number is zero. -/
def isZero (x : Binary) : Bool := x.mantissa == 0

/-- The number nearest to `num / den`, if it is not too large for the format. -/
def nearest (num den : Nat) : Option Binary :=
  if num = 0 then some zero
  else
    let e := max (log2Quotient num den - 52) (-1074)
    let m := roundDiv (num * powerOfTwo (-e).toNat) (den * powerOfTwo e.toNat)
    let x : Binary := if m = powerOfTwo 53 then ⟨powerOfTwo 52, e + 1⟩ else ⟨m, e⟩
    if x.exponent ≤ 971 then some x else none

/-- The product, rounded. -/
def mul (x y : Binary) : Option Binary :=
  let e := x.exponent + y.exponent
  nearest (x.mantissa * y.mantissa * powerOfTwo e.toNat) (powerOfTwo (-e).toNat)

/-- The quotient by a positive `y`, rounded; it is never too large when `y` is at least one. -/
def div (x y : Binary) : Binary :=
  let e := x.exponent - y.exponent
  (nearest (x.mantissa * powerOfTwo e.toNat) (y.mantissa * powerOfTwo (-e).toNat)).getD zero

/-- The number nearest to `10 ^ k`, for `k` up to 308. -/
def tenPow (k : Nat) : Binary := (nearest (powerOfTen k) 1).getD zero

/-- The number nearest to a natural number below `2 ^ 64`. -/
def ofNat (n : Nat) : Binary := (nearest n 1).getD zero

/-- `x` divided by `10 ^ k`, in steps of at most 308 places, each of them rounded. -/
def divTenPow (x : Binary) (k : Nat) : Binary :=
  if k ≤ 308 ∨ x.isZero then x.div (tenPow (min k 308))
  else divTenPow (x.div (tenPow 308)) (k - 308)
  termination_by k

/-- The number that `significand * 10 ^ exponent` is read as, if it is not too large. -/
def ofDecimal (significand : Nat) (exponent : Int) : Option Binary :=
  let x := ofNat significand
  if exponent < 0 then some (x.divTenPow (-exponent).toNat)
  else if exponent ≤ 308 then x.mul (tenPow exponent.toNat)
  else if x.isZero then some zero
  else none

end Binary

end TaggedRecords.Decimal
