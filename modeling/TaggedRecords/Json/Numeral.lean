import TaggedRecords.Json.Reader

/-!
# JSON — numerals

A numeral is read as an optional minus sign, an integer part without superfluous zeros, an
optional fraction and an optional exponent.  Its digits are gathered into a significand of 64
bits; digits that no longer fit are dropped, those of the integer part counting as a power of
ten (`absorb`).  A numeral with neither fraction nor exponent whose digits all fit is an integer.
-/

namespace TaggedRecords.Json

/-- The greatest significand, of 64 bits. -/
def maxSignificand : Nat := 0xFFFFFFFFFFFFFFFF

/-- The greatest power of ten that an exponent may name. -/
def maxExponent : Nat := 0x7FFFFFFF

/-- The value of a decimal digit. -/
def digitValue (c : Char) : Nat := c.toNat - '0'.toNat

/-- `n` continued by decimal digits as long as the result is at most `bound`; the digits from the
first one that does not fit are left over. -/
def absorb (bound : Nat) : Nat → List Char → Nat × List Char
  | n, [] => (n, [])
  | n, d :: rest =>
    let m := n * 10 + digitValue d
    if m ≤ bound then absorb bound m rest else (n, d :: rest)

/-- The integer that a sign and a significand stand for, if it fits in 64 bits. -/
def wholeNumber (negative : Bool) (significand : Nat) : Number :=
  if negative then
    if 1 ≤ significand ∧ significand ≤ 0x8000000000000000 then .integer (-significand)
    else .real true (.ofNat significand)
  else .integer significand

namespace Reader

/-- The number `significand * 10 ^ exponent`, unless it is too large. -/
def scaled (negative : Bool) (significand : Nat) (exponent : Int) : Reader Number :=
  match Decimal.Binary.ofDecimal significand exponent with
  | some x => return .real negative x
  | none => fail .numberOutOfRange

/-- Takes an optional sign of an exponent: whether it is a minus sign. -/
def exponentSign : Reader Bool := do
  match ← peek with
  | some '-' => skip; return true
  | some '+' => skip; return false
  | _ => return false

/-- The number of a significand and the digits of an exponent, which begin at `start` and have
been read.  A power of ten beyond `maxExponent` makes any number but zero too large. -/
def poweredBy (negative : Bool) (significand : Nat) (shift : Int) (down : Bool)
    (start : Position) (digits : List Char) : Reader Number :=
  let (power, left) := absorb maxExponent 0 digits
  if left.isEmpty then
    scaled negative significand (if down then shift - power else shift + power)
  else if down || significand == 0 then return .real negative .zero
  else
    let seen := digits.take (digits.length - left.length + 1)
    failAt .numberOutOfRange (seen.foldl Position.advance start)

/-- The rest of a numeral from its exponent mark. -/
def exponentPart (negative : Bool) (significand : Nat) (shift : Int) : Reader Number := do
  skip
  let down ← exponentSign
  match ← peek with
  | none => fail .endInValue
  | some c =>
    if c.isDigit then
      let start := (← source).position
      poweredBy negative significand shift down start (← takeWhile Char.isDigit)
    else failNext .invalidNumber

/-- The rest of a numeral after its integer part and fraction. -/
def afterFraction (negative : Bool) (significand : Nat) (shift : Int) : Reader Number := do
  match ← peek with
  | some 'e' | some 'E' => exponentPart negative significand shift
  | _ => scaled negative significand shift

/-- The rest of a numeral from its decimal point. -/
def fractionPart (negative : Bool) (significand : Nat) (shift : Int) : Reader Number := do
  skip
  let digits ← takeWhile Char.isDigit
  if digits.isEmpty then
    match ← peek with
    | none => fail .endInValue
    | some _ => failNext .invalidNumber
  else
    let (longer, left) := absorb maxSignificand significand digits
    afterFraction negative longer (shift - (digits.length - left.length : Nat))

/-- The rest of a numeral after its integer part. -/
def afterInteger (negative : Bool) (digits : List Char) : Reader Number := do
  let (significand, left) := absorb maxSignificand 0 digits
  match ← peek with
  | some '.' => fractionPart negative significand left.length
  | some 'e' | some 'E' => exponentPart negative significand left.length
  | _ =>
    if left.isEmpty then return wholeNumber negative significand
    else scaled negative significand left.length

/-- A numeral without its sign. -/
def unsignedNumeral (negative : Bool) : Reader Number := do
  match ← peek with
  | none => fail .endInValue
  | some '0' =>
    skip
    match ← peek with
    | some c => if c.isDigit then failNext .invalidNumber else afterInteger negative ['0']
    | none => afterInteger negative ['0']
  | some c =>
    if c.isDigit then afterInteger negative (← takeWhile Char.isDigit)
    else failNext .invalidNumber

/-- A numeral. -/
def numeral : Reader Number := do
  if (← peek) = some '-' then skip; unsignedNumeral true
  else unsignedNumeral false

end Reader

end TaggedRecords.Json
