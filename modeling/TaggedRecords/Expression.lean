/-!
# Expressions — what a search asks of a record's tags

An expression is a tree of conditions on tags.  A tag whose name begins with `~` is kept in the
clear and can be compared in every way; any other tag is kept encrypted and can only be matched
exactly (`Comparison.exact`).  Names and values are passed on as they are.
-/

namespace TaggedRecords

/-- How a tag is compared with a value. -/
inductive Comparison where
  | eq
  | neq
  | lt
  | lte
  | gt
  | gte
  | like
  | isIn
  deriving DecidableEq, Repr

namespace Comparison

/-- The name of a comparison in filters. -/
def keyword : Comparison → String
  | .eq => "$eq"
  | .neq => "$neq"
  | .lt => "$lt"
  | .lte => "$lte"
  | .gt => "$gt"
  | .gte => "$gte"
  | .like => "$like"
  | .isIn => "$in"

/-- Whether the comparison only asks for equal values, so that it works on encrypted tags. -/
def exact : Comparison → Bool
  | .eq | .neq | .isIn => true
  | .lt | .lte | .gt | .gte | .like => false

end Comparison

/-- A condition on the tags of a record. -/
inductive Expression where
  /-- Holds of every record. -/
  | always
  /-- Holds when every child does. -/
  | all (children : List Expression)
  /-- Holds when some child does, or when there is none. -/
  | any (children : List Expression)
  /-- Holds when the child does not. -/
  | not (child : Expression)
  /-- Compares a tag with one value. -/
  | compare (field : String) (op : Comparison) (value : String)
  /-- Holds when a tag has one of the values. -/
  | inSet (field : String) (values : List String)
  deriving Repr

namespace Expression

instance : Inhabited Expression := ⟨always⟩

/-- `field = value`. -/
def equal (field value : String) : Expression := compare field .eq value

/-- `field ≠ value`. -/
def unequal (field value : String) : Expression := compare field .neq value

/-- `field < value`. -/
def less (field value : String) : Expression := compare field .lt value

/-- `field ≤ value`. -/
def lessEqual (field value : String) : Expression := compare field .lte value

/-- `field > value`. -/
def greater (field value : String) : Expression := compare field .gt value

/-- `field ≥ value`. -/
def greaterEqual (field value : String) : Expression := compare field .gte value

/-- `field` matches a pattern. -/
def like (field pattern : String) : Expression := compare field .like pattern

mutual

/-- Whether two expressions are the same tree. -/
def same : Expression → Expression → Bool
  | .always, .always => true
  | .all xs, .all ys => sameAll xs ys
  | .any xs, .any ys => sameAll xs ys
  | .not x, .not y => same x y
  | .compare f op v, .compare g op' w => f == g && op = op' && v == w
  | .inSet f vs, .inSet g ws => f == g && vs == ws
  | _, _ => false

/-- Whether two lists hold the same trees in the same order. -/
def sameAll : List Expression → List Expression → Bool
  | [], [] => true
  | x :: xs, y :: ys => same x y && sameAll xs ys
  | _, _ => false

end

mutual

theorem same_iff : ∀ x y : Expression, same x y = true ↔ x = y
  | .always, y => by cases y <;> simp [same]
  | .all xs, y => by cases y <;> simp [same, sameAll_iff xs]
  | .any xs, y => by cases y <;> simp [same, sameAll_iff xs]
  | .not x, y => by cases y <;> simp [same, same_iff x]
  | .compare _ _ _, y => by cases y <;> simp [same, and_assoc]
  | .inSet _ _, y => by cases y <;> simp [same]

theorem sameAll_iff : ∀ xs ys : List Expression, sameAll xs ys = true ↔ xs = ys
  | [], ys => by cases ys <;> simp [sameAll]
  | x :: xs, ys => by cases ys <;> simp [sameAll, same_iff x, sameAll_iff xs]

end

instance : DecidableEq Expression := fun x y => decidable_of_iff _ (same_iff x y)

end Expression

end TaggedRecords
