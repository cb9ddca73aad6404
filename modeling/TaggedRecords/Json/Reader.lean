import TaggedRecords.Json.Fault

/-!
# JSON — readers

A `Reader α` takes a source, and gives a value and the source after it, or an error.  This module
has the words that every reader is made of: single characters, the three literal words, what
separates the items of a list and the members of an object, and `Reader.loop`, which repeats a
reading step until it has its answer.

A loop is allowed one step more than the source has characters.  Every step used here takes at
least one character before it asks for another, so the allowance is never used up.
-/

namespace TaggedRecords.Json

/-- A way to read a value from the front of a text. -/
abbrev Reader (α : Type) := StateT Source (Except Error) α

namespace Reader

variable {α β : Type}

/-- The source as it stands. -/
def source : Reader Source := get

/-- The reader that fails at a given place. -/
def failAt (fault : Fault) (position : Position) : Reader α := throw ⟨fault, position⟩

/-- The reader that fails where reading stands. -/
def fail (fault : Fault) : Reader α := do failAt fault (← source).position

/-- The reader that fails at the character that comes next. -/
def failNext (fault : Fault) : Reader α := do failAt fault (← source).peekPosition

/-- The character that comes next, without taking it. -/
def peek : Reader (Option Char) := return (← source).next?

/-- The character that comes after any blanks, without taking it. -/
def peekWord : Reader (Option Char) := do
  modify Source.trim
  peek

/-- Takes the character that comes next. -/
def skip : Reader Unit := modify Source.drop

/-- The longest run of characters that satisfy `p`. -/
def takeWhile (p : Char → Bool) : Reader (List Char) := modifyGet (Source.span p)

/-- Repeats `step` until it answers, at most `fuel` times. -/
def iterate (step : α → Reader (α ⊕ β)) : Nat → α → Reader β
  | 0, _ => fail .endInValue
  | fuel + 1, a => do
    match ← step a with
    | .inl next => iterate step fuel next
    | .inr answer => return answer

/-- Repeats `step` until it answers. -/
def loop (step : α → Reader (α ⊕ β)) (start : α) : Reader β := do
  iterate step ((← source).rest.length + 1) start

/-- Takes the rest of a literal word whose first character has been read. -/
def restOfWord : List Char → Reader Unit
  | [] => return
  | expected :: rest => do
    match ← peek with
    | none => fail .endInValue
    | some c =>
      if c = expected then skip; restOfWord rest
      else failNext .expectedWord

/-! ### Lists and objects -/

/-- Whether another item of a list follows; what separates it from the one before is taken. -/
def anotherItem (first : Bool) : Reader Bool := do
  match ← peekWord with
  | none => fail .endInList
  | some ']' => return false
  | some c =>
    if first then return true
    else if c = ',' then
      skip
      match ← peekWord with
      | none => fail .endInValue
      | some ']' => failNext .trailingComma
      | some _ => return true
    else failNext .expectedListEnd

/-- Whether another member of an object follows; what separates it from the one before is taken,
and its name is next. -/
def anotherMember (first : Bool) : Reader Bool := do
  match ← peekWord with
  | none => fail .endInObject
  | some '\x7d' => return false
  | some c =>
    if first then
      if c = '"' then return true else failNext .nameNotString
    else if c = ',' then
      skip
      match ← peekWord with
      | none => fail .endInValue
      | some '"' => return true
      | some '\x7d' => failNext .trailingComma
      | some _ => failNext .nameNotString
    else failNext .expectedObjectEnd

/-- Takes the colon between a name and its value. -/
def colon : Reader Unit := do
  match ← peekWord with
  | none => fail .endInObject
  | some ':' => skip
  | some _ => failNext .expectedColon

/-- Takes the bracket that ends a list from which no more items are wanted. -/
def endOfList : Reader Unit := do
  match ← peekWord with
  | none => fail .endInList
  | some ']' => skip
  | some ',' =>
    skip
    match ← peekWord with
    | some ']' => failNext .trailingComma
    | _ => failNext .trailingCharacters
  | some _ => failNext .trailingCharacters

/-- The items of a list whose opening bracket has been read, and the closing bracket. -/
def items (item : Reader α) : Reader (List α) :=
  loop (fun (first, done) => do
    if ← anotherItem first then return .inl (false, (← item) :: done)
    else skip; return .inr done.reverse) (true, [])

/-- Nothing but blanks may follow. -/
def endOfText : Reader Unit := do
  match ← peekWord with
  | none => return
  | some _ => failNext .trailingCharacters

/-- The value of a whole text. -/
def run (reader : Reader α) (text : String) : Except Error α :=
  (do let a ← reader; endOfText; return a : Reader α).run' (.ofString text)

end Reader

end TaggedRecords.Json
