import TaggedRecords.Json.Reader

/-!
# JSON — quoted strings

A string is written between double quotes.  A quote, a backslash and the characters below
`U+0020` are escaped, with a letter where there is one and as `\u00xx` otherwise; every other
character stands for itself (`Quoted.encode`).

Reading accepts every escape there is.  A character beyond `U+FFFF` may be escaped as two
surrogate halves; half a pair is a fault.
-/

namespace TaggedRecords.Json

namespace Quoted

/-- The escape letter of a character that has one. -/
def letterOf? : Char → Option Char
  | '"' => some '"'
  | '\\' => some '\\'
  | '\x08' => some 'b'
  | '\x0c' => some 'f'
  | '\n' => some 'n'
  | '\r' => some 'r'
  | '\t' => some 't'
  | _ => none

/-- The character that an escape letter stands for. -/
def ofLetter? : Char → Option Char
  | '"' => some '"'
  | '\\' => some '\\'
  | '/' => some '/'
  | 'b' => some '\x08'
  | 'f' => some '\x0c'
  | 'n' => some '\n'
  | 'r' => some '\r'
  | 't' => some '\t'
  | _ => none

/-- A digit of base sixteen, in lower case. -/
def hexDigit (n : Nat) : Char :=
  if n < 10 then Char.ofNat ('0'.toNat + n) else Char.ofNat ('a'.toNat + (n - 10))

/-- The value of a digit of base sixteen, in either case. -/
def hexValue? (c : Char) : Option Nat :=
  if '0' ≤ c ∧ c ≤ '9' then some (c.toNat - '0'.toNat)
  else if 'a' ≤ c ∧ c ≤ 'f' then some (c.toNat - 'a'.toNat + 10)
  else if 'A' ≤ c ∧ c ≤ 'F' then some (c.toNat - 'A'.toNat + 10)
  else none

/-- A character as it is written inside a string. -/
def encodeChar (c : Char) : List Char :=
  match letterOf? c with
  | some l => ['\\', l]
  | none =>
    if c.toNat < 0x20 then ['\\', 'u', '0', '0', hexDigit (c.toNat / 16), hexDigit (c.toNat % 16)]
    else [c]

/-- A text between double quotes. -/
def encode (text : List Char) : List Char := '"' :: text.flatMap encodeChar ++ ['"']

/-- The code that four digits of base sixteen stand for. -/
def fourHex? (a b c d : Char) : Option Nat := do
  return (((← hexValue? a) * 16 + (← hexValue? b)) * 16 + (← hexValue? c)) * 16 + (← hexValue? d)

/-- The first half of a surrogate pair. -/
def isHigh (code : Nat) : Bool := 0xD800 ≤ code && code ≤ 0xDBFF

/-- The second half of a surrogate pair. -/
def isLow (code : Nat) : Bool := 0xDC00 ≤ code && code ≤ 0xDFFF

end Quoted

namespace Reader

open Quoted

/-- The code of four digits of base sixteen.  Four bytes are looked at, whatever they are. -/
def fourHex : Reader Nat := do
  let s ← source
  if !Source.hasBytes 4 s.rest then failAt .endInString s.endPosition
  else
    let bad : Reader Nat := failAt .invalidEscape (s.position.advanceBytes 4 s.rest)
    match s.rest with
    | a :: b :: c :: d :: _ =>
      match fourHex? a b c d with
      | some code => skip; skip; skip; skip; return code
      | none => bad
    | _ => bad

/-- Takes `c`, which has to come next in an escaped surrogate pair. -/
def pairMark (c : Char) : Reader Unit := do
  match ← peek with
  | none => fail .endInString
  | some d => if d = c then skip else failNext .unfinishedPair

/-- The character of an escape by code, whose backslash and letter have been read. -/
def codeEscape : Reader Char := do
  let high ← fourHex
  if isLow high then fail .loneSurrogate
  else if !isHigh high then return Char.ofNat high
  else
    pairMark '\\'
    pairMark 'u'
    let low ← fourHex
    if isLow low then return Char.ofNat ((high - 0xD800) * 0x400 + (low - 0xDC00) + 0x10000)
    else fail .loneSurrogate

/-- The character of an escape whose backslash has been read. -/
def escape : Reader Char := do
  match ← peek with
  | none => fail .endInString
  | some 'u' => skip; codeEscape
  | some c =>
    match ofLetter? c with
    | some d => skip; return d
    | none => failNext .invalidEscape

/-- One more character of a string, or its end. -/
def stringStep (done : List Char) : Reader (List Char ⊕ List Char) := do
  match ← peek with
  | none => fail .endInString
  | some '"' => skip; return .inr done.reverse
  | some '\\' => skip; return .inl ((← escape) :: done)
  | some c =>
    if c.toNat < 0x20 then failNext .controlCharacter
    else skip; return .inl (c :: done)

/-- The rest of a string whose opening quote has been read. -/
def restOfString : Reader String := return String.ofList (← loop stringStep [])

/-- A string, its opening quote coming next. -/
def quoted : Reader String := do
  skip
  restOfString

end Reader

end TaggedRecords.Json
