import TaggedRecords.Json.Numeral
import TaggedRecords.Json.Quoted

/-!
# JSON — values that are passed over

`Reader.pass` goes over one value of any content without taking it in.  It asks less of the text
than `Reader.value`: numbers may have any size, escapes by code may be half a surrogate pair, and
lists and objects may stand inside each other to any depth.  What is still open is kept as a
stack of brackets, the innermost first.
-/

namespace TaggedRecords.Json

/-- A list or an object that has been opened. -/
inductive Bracket where
  | list
  | object
  deriving DecidableEq, Repr

namespace Reader

/-! ### Numerals and strings -/

/-- Passes over digits, of which there has to be one; anything else is a fault. -/
def passDigits : Reader Unit := do
  match ← peek with
  | some c => if c.isDigit then discard (takeWhile Char.isDigit) else failNext .invalidNumber
  | none => fail .invalidNumber

/-- Passes over the rest of a numeral from its exponent mark, if there is one. -/
def passExponent : Reader Unit := do
  match ← peek with
  | some 'e' | some 'E' =>
    skip
    discard exponentSign
    passDigits
  | _ => return

/-- Passes over the rest of a numeral after its integer part. -/
def passFraction : Reader Unit := do
  match ← peek with
  | some '.' => skip; passDigits; passExponent
  | _ => passExponent

/-- Passes over a numeral. -/
def passNumeral : Reader Unit := do
  if (← peek) = some '-' then skip
  match ← peek with
  | some '0' =>
    skip
    match ← peek with
    | some c => if c.isDigit then failNext .invalidNumber else passFraction
    | none => return
  | _ => passDigits; passFraction

/-- Passes over an escape whose backslash has been read. -/
def passEscape : Reader Unit := do
  match ← peek with
  | none => fail .endInString
  | some 'u' => skip; discard fourHex
  | some c => if (Quoted.ofLetter? c).isSome then skip else failNext .invalidEscape

/-- Passes over one more character of a string, or its end. -/
def passStringStep (_ : Unit) : Reader (Unit ⊕ Unit) := do
  match ← peek with
  | none => fail .endInString
  | some '"' => skip; return .inr ()
  | some '\\' => skip; passEscape; return .inl ()
  | some c => if c.toNat < 0x20 then fail .controlCharacter else skip; return .inl ()

/-- Passes over a string, its opening quote coming next. -/
def passQuoted : Reader Unit := do
  skip
  loop passStringStep ()

/-! ### Values -/

/-- Passes over the name of a member and the colon after it. -/
def passName : Reader Unit := do
  match ← peekWord with
  | none => fail .endInObject
  | some '"' => passQuoted; colon
  | some _ => failNext .nameNotString

/-- Where passing over a value stands: it waits for a value, or for what comes
after one inside a bracket. -/
inductive Awaiting where
  | value
  | separator
  deriving DecidableEq, Repr

/-- What comes after a value has been passed over inside the brackets of `stack`. -/
def finished (stack : List Bracket) : Awaiting × List Bracket ⊕ Unit :=
  if stack.isEmpty then .inr () else .inl (.separator, stack)

/-- Passes over an opening bracket, and over the closing one if nothing stands between them. -/
def passOpening (bracket : Bracket) (stack : List Bracket) :
    Reader (Awaiting × List Bracket ⊕ Unit) := do
  skip
  match bracket, ← peekWord with
  | .list, none => fail .endInList
  | .object, none => fail .endInObject
  | .list, some ']' | .object, some '\x7d' => skip; return finished stack
  | .list, some _ => return .inl (.value, .list :: stack)
  | .object, some _ => passName; return .inl (.value, .object :: stack)

/-- Passes over a word, a numeral or a string, or over the opening bracket of a list or object. -/
def passValue (stack : List Bracket) : Reader (Awaiting × List Bracket ⊕ Unit) := do
  match ← peekWord with
  | none => fail .endInValue
  | some 'n' => skip; restOfWord ['u', 'l', 'l']; return finished stack
  | some 't' => skip; restOfWord ['r', 'u', 'e']; return finished stack
  | some 'f' => skip; restOfWord ['a', 'l', 's', 'e']; return finished stack
  | some '"' => passQuoted; return finished stack
  | some '[' => passOpening .list stack
  | some '\x7b' => passOpening .object stack
  | some c =>
    if c = '-' ∨ c.isDigit then passNumeral; return finished stack
    else failNext .expectedValue

/-- Passes over what follows a value inside the innermost bracket: a comma, or the bracket that
closes it. -/
def passEnd (bracket : Bracket) (stack : List Bracket) :
    Reader (Awaiting × List Bracket ⊕ Unit) := do
  match bracket, ← peekWord with
  | .list, none => fail .endInList
  | .object, none => fail .endInObject
  | .list, some ',' => skip; return .inl (.value, .list :: stack)
  | .object, some ',' => skip; passName; return .inl (.value, .object :: stack)
  | .list, some ']' | .object, some '\x7d' => skip; return finished stack
  | .list, some _ => failNext .expectedListEnd
  | .object, some _ => failNext .expectedObjectEnd

/-- One step of passing over a value. -/
def passStep : Awaiting × List Bracket → Reader (Awaiting × List Bracket ⊕ Unit)
  | (.value, stack) => passValue stack
  | (.separator, bracket :: stack) => passEnd bracket stack
  | (.separator, []) => return .inr ()

/-- Passes over one value. -/
def pass : Reader Unit := loop passStep (.value, [])

end Reader

end TaggedRecords.Json
