import TaggedRecords.Decimal.Binary

/-!
# Decimal — the shortest digits of a binary number

`Binary.shortest` finds the decimal with the fewest digits that is still read back as the number
it stands for, and of those with that many digits the nearest one.  A number is read back as `x`
when it lies between the midpoints to the neighbours of `x`; a midpoint itself counts when the
mantissa is even.  If any point of the grid of multiples of `10 ^ k` lies in that interval, so
does one of the two grid points around `x`, so two candidates are tried for each grid.

`Binary.text` writes those digits: positional from `10 ^ -5` up to below `10 ^ 16`, always with a
digit on both sides of the point; otherwise as one digit, the rest after a point, and a signed
power of ten.
-/

namespace TaggedRecords.Decimal

/-- A decimal number: `digits * 10 ^ exponent`. -/
structure Scientific where
  digits : Nat
  exponent : Int
  deriving DecidableEq, Repr

namespace Scientific

/-- The same number without trailing zeros, tried at most `fuel` times. -/
def trimZeros (d : Scientific) : Nat → Scientific
  | 0 => d
  | fuel + 1 =>
    if d.digits % 10 = 0 ∧ d.digits ≠ 0 then trimZeros ⟨d.digits / 10, d.exponent + 1⟩ fuel
    else d

end Scientific

/-- An interval of fractions with one denominator, around a value. -/
structure Interval where
  low : Nat
  value : Nat
  high : Nat
  den : Nat
  closed : Bool

namespace Interval

/-- Whether the interval has `num / den`. -/
def contains (i : Interval) (num den : Nat) : Bool :=
  if i.closed then i.low * den ≤ num * i.den && num * i.den ≤ i.high * den
  else i.low * den < num * i.den && num * i.den < i.high * den

/-- The grid point next to the value, among the multiples of `10 ^ k`, that lies in the interval;
the nearer one if both neighbours do, the even one if they are equally near. -/
def gridPoint? (i : Interval) (k : Int) : Option Scientific :=
  let up := powerOfTen k.toNat
  let down := powerOfTen (-k).toNat
  let q := i.value * down / (i.den * up)
  let r := i.value * down % (i.den * up)
  let below := i.contains (q * up) down
  let above := i.contains ((q + 1) * up) down
  match below, above with
  | false, false => none
  | true, false => some ⟨q, k⟩
  | false, true => some ⟨q + 1, k⟩
  | true, true => some ⟨roundDiv (q * (i.den * up) + r) (i.den * up), k⟩

end Interval

namespace Binary

/-- The numbers that are read back as `x`, in units of a quarter of its last place. -/
def interval (x : Binary) : Interval :=
  let e := x.exponent - 2
  let below := if x.mantissa = powerOfTwo 52 ∧ x.exponent ≠ -1074 then 1 else 2
  let scale (n : Nat) : Nat := n * powerOfTwo e.toNat
  ⟨scale (4 * x.mantissa - below), scale (4 * x.mantissa), scale (4 * x.mantissa + 2),
    powerOfTwo (-e).toNat, x.mantissa % 2 == 0⟩

/-- The least `d` with `x < 10 ^ d`, searched from `-330` upwards. -/
def magnitude (x : Binary) : Int :=
  let i := x.interval
  let below (d : Int) : Bool := i.value * powerOfTen (-d).toNat < i.den * powerOfTen d.toNat
  (((List.range 650).map fun n : Nat => (n : Int) - 330).find? below).getD 0

/-- The shortest decimal that is read back as `x`. -/
def shortest (x : Binary) : Scientific :=
  let top := x.magnitude
  let found := (List.range 17).findSome? fun n : Nat => x.interval.gridPoint? (top - (n + 1 : Nat))
  (found.getD ⟨0, 0⟩).trimZeros 18

/-- The text of a decimal: `12.5`, `0.00001`, `100.0`, or `1.25e+20` far from one. -/
def layout (d : Scientific) : String :=
  let ds := Nat.toDigits 10 d.digits
  let place := d.exponent + (ds.length : Int) - 1
  let zeros (n : Int) : List Char := List.replicate n.toNat '0'
  if -5 ≤ place ∧ place ≤ 15 then
    if place < 0 then String.ofList ('0' :: '.' :: zeros (-place - 1) ++ ds)
    else
      let whole := ds.take (place + 1).toNat ++ zeros d.exponent
      let part := ds.drop (place + 1).toNat
      String.ofList (whole ++ '.' :: (if part.isEmpty then ['0'] else part))
  else
    let tail := if ds.length ≤ 1 then [] else '.' :: ds.tail
    let power := (if place < 0 then '-' else '+') :: Nat.toDigits 10 place.natAbs
    String.ofList (ds.take 1 ++ tail ++ 'e' :: power)

/-- The text of a number: its shortest digits, laid out. -/
def text (x : Binary) : String :=
  if x.isZero then "0.0" else layout x.shortest

end Binary

end TaggedRecords.Decimal
