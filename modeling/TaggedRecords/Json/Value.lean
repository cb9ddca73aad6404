import TaggedRecords.Decimal.Shortest
import TaggedRecords.Text.Inspect

/-!
# JSON — values

A number is an `integer` when its text has no sign of a fraction or an exponent and it fits in 64
bits (from `-2 ^ 63` up to `2 ^ 64 - 1`, minus zero apart); any other number is a `real`.
The members of an object are listed by their names; `Value.members` of a value that was read are
in strictly ascending order of names (see `Json.Reader`), while values made to be written keep
the order in which they are to be written.
-/

namespace TaggedRecords.Json

/-- A number. -/
inductive Number where
  | integer (value : Int)
  | real (negative : Bool) (magnitude : Decimal.Binary)
  deriving DecidableEq, Repr

/-- The text of a number that is not an integer, as it is shown in messages. -/
def Number.realText (negative : Bool) (magnitude : Decimal.Binary) : String :=
  (if negative then "-" else "") ++ magnitude.text

/-- A JSON value. -/
inductive Value where
  | null
  | bool (b : Bool)
  | number (n : Number)
  | string (s : String)
  | array (items : List Value)
  | object (members : List (String × Value))
  deriving Repr

namespace Value

mutual

/-- Whether two values are the same. -/
def same : Value → Value → Bool
  | .null, .null => true
  | .bool a, .bool b => a == b
  | .number m, .number n => m = n
  | .string s, .string t => s == t
  | .array xs, .array ys => sameItems xs ys
  | .object xs, .object ys => sameMembers xs ys
  | _, _ => false

/-- Whether two lists hold the same values in the same order. -/
def sameItems : List Value → List Value → Bool
  | [], [] => true
  | x :: xs, y :: ys => same x y && sameItems xs ys
  | _, _ => false

/-- Whether two objects list the same members in the same order. -/
def sameMembers : List (String × Value) → List (String × Value) → Bool
  | [], [] => true
  | (k, x) :: xs, (l, y) :: ys => k == l && same x y && sameMembers xs ys
  | _, _ => false

end

mutual

theorem same_iff : ∀ x y : Value, same x y = true ↔ x = y
  | .null, y => by cases y <;> simp [same]
  | .bool _, y => by cases y <;> simp [same]
  | .number _, y => by cases y <;> simp [same]
  | .string _, y => by cases y <;> simp [same]
  | .array xs, y => by cases y <;> simp [same, sameItems_iff xs]
  | .object xs, y => by cases y <;> simp [same, sameMembers_iff xs]

theorem sameItems_iff : ∀ xs ys : List Value, sameItems xs ys = true ↔ xs = ys
  | [], ys => by cases ys <;> simp [sameItems]
  | x :: xs, ys => by cases ys <;> simp [sameItems, same_iff x, sameItems_iff xs]

theorem sameMembers_iff : ∀ xs ys : List (String × Value), sameMembers xs ys = true ↔ xs = ys
  | [], ys => by cases ys <;> simp [sameMembers]
  | (k, x) :: xs, ys => by
    rcases ys with _ | ⟨⟨l, y⟩, ys⟩ <;>
      simp [sameMembers, same_iff x, sameMembers_iff xs, and_assoc]

end

instance : DecidableEq Value := fun x y => decidable_of_iff _ (same_iff x y)

/-- The shown members of an object between braces. -/
def inspectObject (shown : List String) : String := "\x7b" ++ ", ".intercalate shown ++ "\x7d"

mutual

/-- A value shown for a reader, every part under the name of its kind. -/
def inspect : Value → String
  | .null => "Null"
  | .bool b => "Bool(" ++ (if b then "true" else "false") ++ ")"
  | .number (.integer n) => "Number(" ++ toString n ++ ")"
  | .number (.real negative x) => "Number(" ++ Number.realText negative x ++ ")"
  | .string s => "String(" ++ Text.inspect s ++ ")"
  | .array items => "Array [" ++ ", ".intercalate (inspectItems items) ++ "]"
  | .object members => "Object " ++ inspectObject (inspectMembers members)

/-- The items of a list, each shown. -/
def inspectItems : List Value → List String
  | [] => []
  | v :: rest => inspect v :: inspectItems rest

/-- The members of an object, each shown with its name. -/
def inspectMembers : List (String × Value) → List String
  | [] => []
  | (k, v) :: rest => (Text.inspect k ++ ": " ++ inspect v) :: inspectMembers rest

end

end Value

end TaggedRecords.Json
