import TaggedRecords.Expression
import TaggedRecords.Failure
import TaggedRecords.Filter
import TaggedRecords.Pattern
import TaggedRecords.Tags

/-!
# Queries — filters as a store reads them

A store reads the text of a filter into a `Query` and asks the query of each record's tags.  The
members of an object are conditions that have to hold together; a name that begins with `$` is a
connective, any other the name of a tag.  A tag that is not in the clear (its name does not begin
with `~`) can only be matched exactly.

Reading goes through the members in the order of their names and stops at the first that is no
condition (`Query.Refusal`).  A tag that a record lacks satisfies no comparison with it.
-/

namespace TaggedRecords

/-- What is asked of the value of one tag. -/
inductive Predicate where
  | compare (op : Comparison) (operand : String)
  | oneOf (values : List String)
  deriving DecidableEq, Repr

namespace Predicate

/-- Whether the predicate only asks for equal values. -/
def exact : Predicate → Bool
  | .compare op _ => op.exact
  | .oneOf _ => true

/-- Whether a comparison holds between the value of a tag and an operand; texts are ordered by
code points. -/
def compares (actual operand : String) : Comparison → Bool
  | .eq | .isIn => actual == operand
  | .neq => actual != operand
  | .lt => decide (actual < operand)
  | .lte => decide (actual ≤ operand)
  | .gt => decide (operand < actual)
  | .gte => decide (operand ≤ actual)
  | .like => Pattern.accepts operand.toList actual.toList

/-- Whether a predicate holds of the value of a tag. -/
def holds (actual : String) : Predicate → Bool
  | .compare op operand => compares actual operand op
  | .oneOf values => values.contains actual

end Predicate

/-- A filter that has been read. -/
inductive Query where
  | all (parts : List Query)
  | any (parts : List Query)
  | not (part : Query)
  | tag (name : String) (predicate : Predicate)
  deriving Repr

namespace Query

/-! ### Meaning -/

mutual

/-- Whether a record with the given tags satisfies the query. -/
def holds (tags : Tags) : Query → Bool
  | .all parts => holdsAll tags parts
  | .any parts => holdsAny tags parts
  | .not part => !holds tags part
  | .tag name predicate =>
    match tags.get? name with
    | some actual => predicate.holds actual
    | none => false

/-- Whether the tags satisfy each of the parts. -/
def holdsAll (tags : Tags) : List Query → Bool
  | [] => true
  | q :: rest => holds tags q && holdsAll tags rest

/-- Whether the tags satisfy one of the parts. -/
def holdsAny (tags : Tags) : List Query → Bool
  | [] => false
  | q :: rest => holds tags q || holdsAny tags rest

end

/-! ### Reading -/

/-- Why a filter is refused. -/
inductive Refusal where
  /-- The text is no JSON that can be read. -/
  | unreadable (error : Json.Error)
  /-- The JSON is no filter. -/
  | malformed
  /-- A tag that is not in the clear is compared other than exactly. -/
  | encryptedTag (name : String)
  deriving DecidableEq, Repr

/-- What a refused filter is reported as, whatever the reason. -/
def Refusal.failure (_ : Refusal) : Failure := .wallet .queryError

/-- Whether a tag of this name is kept in the clear. -/
def inClear (name : String) : Bool := name.toList.head? == some '~'

/-- Whether a member of this name is a connective rather than a tag. -/
def isReserved (name : String) : Bool := name.toList.head? == some '$'

/-- The comparison that a keyword names, `$in` apart. -/
def comparisonOf? (keyword : String) : Option Comparison :=
  [Comparison.eq, .neq, .gt, .gte, .lt, .lte, .like].find? (·.keyword == keyword)

/-- The text of a value that is a string. -/
def text? : Json.Value → Option String
  | .string s => some s
  | _ => none

/-- The predicate that a value asks of a tag. -/
def predicateOf? : Json.Value → Option Predicate
  | .string s => some (.compare .eq s)
  | .object [(keyword, .array values)] =>
    if keyword = Comparison.isIn.keyword then .oneOf <$> values.mapM text? else none
  | .object [(keyword, .string operand)] =>
    (comparisonOf? keyword).map fun op => .compare op operand
  | _ => none

/-- The condition on the tag of a name. -/
def ofTag (name : String) (value : Json.Value) : Except Refusal Query :=
  if isReserved name then .error .malformed
  else
    match predicateOf? value with
    | none => .error .malformed
    | some predicate =>
      if inClear name || predicate.exact then .ok (.tag name predicate)
      else .error (.encryptedTag name)

/-- The conjunction of several conditions; a single one stands for itself. -/
def conjunction : List Query → Query
  | [q] => q
  | parts => .all parts

mutual

/-- The condition that a member of a filter stands for. -/
def ofMember (name : String) : Json.Value → Except Refusal Query
  | .array items =>
    if name = "$and" then .all <$> ofItems items
    else if name = "$or" then .any <$> ofItems items
    else ofTag name (.array items)
  | .object members =>
    if name = "$not" then (.not ∘ conjunction) <$> ofMembers members
    else ofTag name (.object members)
  | value => ofTag name value

/-- The conditions that the members of a filter stand for. -/
def ofMembers : List (String × Json.Value) → Except Refusal (List Query)
  | [] => .ok []
  | m :: rest => do
    let q ← ofMember m.1 m.2
    return q :: (← ofMembers rest)

/-- The conditions that a list of filters stands for. -/
def ofItems : List Json.Value → Except Refusal (List Query)
  | [] => .ok []
  | .object members :: rest => do
    let parts ← ofMembers members
    return conjunction parts :: (← ofItems rest)
  | _ :: _ => .error .malformed

end

/-- The query that a filter stands for. -/
def ofValue : Json.Value → Except Refusal Query
  | .object members => conjunction <$> ofMembers members
  | _ => .error .malformed

/-- The query of a wire text. -/
def decode (text : String) : Except Refusal Query :=
  match Json.Document.read text with
  | .ok value => ofValue value
  | .error e => .error (.unreadable e)

end Query

end TaggedRecords
