import TaggedRecords.Json.Passing
import TaggedRecords.SortedMap

/-!
# JSON — values of a given form

Readers for values whose form is known beforehand: strings, flags, bounded integers, optional
values, lists, maps, and structures of named fields.  A value of another form is a fault that
names what was found and what was expected (`Reader.otherForm`).

A structure is described by a `Form`.  It may be written as an object, its members in any order
and members of other names passed over, or as a list of its fields in the order of the form.
Fields are gathered in a draft; a field of which the draft already has a value is a fault, and so
is a draft that lacks a field that has to be there.
-/

namespace TaggedRecords.Json

namespace Reader

variable {α δ : Type}

/-- The fault that the value that comes next is not of the expected form.  A word, numeral or
string is read to its end first; a list or object is not entered. -/
def otherForm (expected : String) : Reader α := do
  match ← peekWord with
  | none => fail .endInValue
  | some 'n' => skip; restOfWord ['u', 'l', 'l']; fail (.invalidType .null expected)
  | some 't' => skip; restOfWord ['r', 'u', 'e']; fail (.invalidType (.bool true) expected)
  | some 'f' => skip; restOfWord ['a', 'l', 's', 'e']; fail (.invalidType (.bool false) expected)
  | some '"' => let s ← quoted; fail (.invalidType (.string s) expected)
  | some '[' => fail (.invalidType .list expected)
  | some '\x7b' => fail (.invalidType .object expected)
  | some c =>
    if c = '-' ∨ c.isDigit then let n ← numeral; fail (.invalidType (.number n) expected)
    else failNext .expectedValue

/-- A string. -/
def string : Reader String := do
  match ← peekWord with
  | some '"' => quoted
  | _ => otherForm "a string"

/-- One of the words `true` and `false`. -/
def flag : Reader Bool := do
  match ← peekWord with
  | some 't' => skip; restOfWord ['r', 'u', 'e']; return true
  | some 'f' => skip; restOfWord ['a', 'l', 's', 'e']; return false
  | _ => otherForm "a boolean"

/-- An integer, taken through `convert` if it is in range. -/
def integer (convert : Int → Option α) (expected : String) : Reader α := do
  match ← peekWord with
  | none => fail .endInValue
  | some c =>
    if c = '-' ∨ c.isDigit then
      match ← numeral with
      | .integer n =>
        match convert n with
        | some a => return a
        | none => fail (.invalidInteger n expected)
      | n => fail (.invalidType (.number n) expected)
    else otherForm expected

/-- A natural number of 64 bits. -/
def count : Reader UInt64 :=
  integer (fun n => if 0 ≤ n then some (.ofNat n.toNat) else none) "usize"

/-- An integer of 32 bits. -/
def word32 : Reader Int32 :=
  integer (fun n => if -0x80000000 ≤ n ∧ n < 0x80000000 then some (.ofInt n) else none) "i32"

/-- A value, or the word `null` for none. -/
def optional (reader : Reader α) : Reader (Option α) := do
  match ← peekWord with
  | some 'n' => skip; restOfWord ['u', 'l', 'l']; return none
  | _ => return some (← reader)

/-- A list. -/
def list (item : Reader α) : Reader (List α) := do
  match ← peekWord with
  | some '[' => skip; items item
  | _ => otherForm "a sequence"

/-- The rest of a map whose opening brace has been read, the last value of a name counting. -/
def entries (value : Reader α) : Reader (SortedMap String α) :=
  loop (fun (first, done) => do
    if ← anotherMember first then
      let name ← quoted
      colon
      return .inl (false, SortedMap.insert done name (← value))
    else skip; return .inr done) (true, SortedMap.empty)

/-- An object with any names and values of one form. -/
def map (value : Reader α) : Reader (SortedMap String α) := do
  match ← peekWord with
  | some '\x7b' => skip; entries value
  | _ => otherForm "a map"

end Reader

/-- A field of a structure that is gathered in a draft of type `δ`: its names, the first of which
is the one that messages use, whether a draft has it, and how its value is put into a draft. -/
structure Field (δ : Type) where
  names : List String
  filled : δ → Bool
  read : δ → Reader δ

/-- The name of a field that messages use. -/
def Field.name {δ : Type} (field : Field δ) : String := field.names.headD ""

/-- The field with a place in the draft that `get` and `set` give, and values read by `reader`. -/
def Field.ofLens {α δ : Type} (names : List String) (reader : Reader α) (get : δ → Option α)
    (set : δ → α → δ) : Field δ where
  names := names
  filled draft := (get draft).isSome
  read draft := return set draft (← reader)

/-- How a structure is read: its name, its fields in order, the draft without any of them, and
the structure that a draft makes, unless the field at some index is missing. -/
structure Form (δ α : Type) where
  name : String
  fields : List (Field δ)
  blank : δ
  finish : δ → Except Nat α

namespace Form

open Reader

variable {α δ : Type}

/-- Fails after an attempt to close an object. -/
def failInObject (fault : Fault) : Reader α := do
  if (← peekWord) = some '\x7d' then skip
  fail fault

/-- The member whose name has been read, put into the draft or passed over. -/
def member (form : Form δ α) (draft : δ) (name : String) : Reader δ :=
  match form.fields.find? (·.names.contains name) with
  | none => do colon; pass; return draft
  | some field =>
    if field.filled draft then failInObject (.duplicateField field.name)
    else do colon; field.read draft

/-- The rest of an object whose opening brace has been read. -/
def object (form : Form δ α) : Reader α := do
  let draft ← loop (fun (first, draft) => do
    if ← anotherMember first then return .inl (false, ← form.member draft (← quoted))
    else skip; return .inr draft) (true, form.blank)
  match form.finish draft with
  | .ok a => return a
  | .error i => fail (.missingField ((form.fields[i]?.map Field.name).getD ""))

/-- The rest of a list of fields, the first of which is the first one of the list if `first`. -/
def listed : List (Field δ) → (first : Bool) → δ → Reader δ
  | [], _, draft => do endOfList; return draft
  | field :: rest, first, draft => do
    if ← anotherItem first then listed rest false (← field.read draft)
    else skip; return draft

/-- The rest of a list whose opening bracket has been read. -/
def array (form : Form δ α) : Reader α := do
  let draft ← listed form.fields true form.blank
  match form.finish draft with
  | .ok a => return a
  | .error i =>
    fail (.invalidLength i
      ("struct " ++ form.name ++ " with " ++ toString form.fields.length ++ " elements"))

/-- A structure of the form. -/
def read (form : Form δ α) : Reader α := do
  match ← peekWord with
  | some '[' => skip; form.array
  | some '\x7b' => skip; form.object
  | _ => otherForm ("struct " ++ form.name)

end Form

end TaggedRecords.Json
