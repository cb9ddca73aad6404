import TaggedRecords.Json.Numeral
import TaggedRecords.Json.Quoted

/-!
# JSON — whole values

`Document.read` reads a text of one JSON value.  The members of an object come out in strictly
ascending order of their names, and of members with one name the last one counts
(`Members.insert`).  Lists and objects may stand inside each other up to `maxDepth` deep.

`Document.write` is the compact text of a value: no blanks, members in the order in which the
value lists them.
-/

namespace TaggedRecords.Json

/-- How many lists and objects may stand inside each other. -/
def maxDepth : Nat := 127

/-- Binds `name` among members in ascending order of names, in place of a member of that name. -/
def Members.insert (name : String) (value : Value) :
    List (String × Value) → List (String × Value)
  | [] => [(name, value)]
  | m :: rest =>
    match compare name m.1 with
    | .lt => (name, value) :: m :: rest
    | .eq => (name, value) :: rest
    | .gt => m :: Members.insert name value rest

namespace Reader

/-- The rest of an object whose opening brace has been read: its members, the last one of a name
counting. -/
def members (value : Reader Value) : Reader (List (String × Value)) :=
  loop (fun (first, done) => do
    if ← anotherMember first then
      let name ← quoted
      colon
      return .inl (false, Members.insert name (← value) done)
    else skip; return .inr done) (true, [])

/-- A value in which at most `room` lists and objects stand inside each other. -/
def value (room : Nat) : Reader Value := do
  match ← peekWord with
  | none => fail .endInValue
  | some 'n' => skip; restOfWord ['u', 'l', 'l']; return .null
  | some 't' => skip; restOfWord ['r', 'u', 'e']; return .bool true
  | some 'f' => skip; restOfWord ['a', 'l', 's', 'e']; return .bool false
  | some '"' => return .string (← quoted)
  | some '[' =>
    match room with
    | 0 => failNext .tooDeep
    | room + 1 => skip; return .array (← items (value room))
  | some '\x7b' =>
    match room with
    | 0 => failNext .tooDeep
    | room + 1 => skip; return .object (← members (value room))
  | some c =>
    if c = '-' ∨ c.isDigit then return .number (← numeral)
    else failNext .expectedValue

end Reader

namespace Document

/-- The value of a text. -/
def read (text : String) : Except Error Value := (Reader.value maxDepth).run text

mutual

/-- The compact text of a value. -/
def chars : Value → List Char
  | .null => ['n', 'u', 'l', 'l']
  | .bool true => ['t', 'r', 'u', 'e']
  | .bool false => ['f', 'a', 'l', 's', 'e']
  | .number (.integer n) => (toString n).toList
  | .number (.real negative x) => (Number.realText negative x).toList
  | .string s => Quoted.encode s.toList
  | .array [] => ['[', ']']
  | .array (v :: rest) => '[' :: chars v ++ itemChars rest
  | .object [] => ['\x7b', '\x7d']
  | .object (m :: rest) => '\x7b' :: Quoted.encode m.1.toList ++ ':' :: chars m.2 ++ memberChars rest

/-- The items of a list after the first one, and the closing bracket. -/
def itemChars : List Value → List Char
  | [] => [']']
  | v :: rest => ',' :: chars v ++ itemChars rest

/-- The members of an object after the first one, and the closing brace. -/
def memberChars : List (String × Value) → List Char
  | [] => ['\x7d']
  | m :: rest => ',' :: Quoted.encode m.1.toList ++ ':' :: chars m.2 ++ memberChars rest

end

/-- The compact text of a value. -/
def write (v : Value) : String := String.ofList (chars v)

end Document

end TaggedRecords.Json
