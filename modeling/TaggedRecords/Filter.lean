import TaggedRecords.Expression
import TaggedRecords.Json.Document

/-!
# Filters — expressions on the wire

A filter is the JSON object that a store is given in place of an expression.  `Filter.compile`
never fails:

    always, all [], any []     the empty object
    all [a, b]                 "$and" with the list of both
    any [a, b]                 "$or" with the list of both
    not a                      "$not" with a
    compare f .eq v            f with v
    compare f op v             f with an object of the keyword of op and v
    inSet f [v, w]             f with an object of "$in" and the list of both

A comparison with `isIn` is a set of one value.
-/

namespace TaggedRecords

/-- A compiled filter: the members of its object. -/
structure Filter where
  members : List (String × Json.Value)
  deriving DecidableEq, Repr

namespace Filter

open Json (Value)

/-- The filter of one member. -/
def single (name : String) (value : Value) : Filter := ⟨[(name, value)]⟩

/-- A filter as a JSON value. -/
def toValue (f : Filter) : Value := .object f.members

/-- Whether the filter matches every record by having no conditions. -/
def isEmpty (f : Filter) : Bool := f.members.isEmpty

/-- The names of the members. -/
def names (f : Filter) : List String := f.members.map (·.1)

/-- The wire text of a filter. -/
def encode (f : Filter) : String := Json.Document.write f.toValue

/-- A filter shown for a reader. -/
def inspect (f : Filter) : String :=
  "CompiledFilter(" ++ Value.inspectObject (Value.inspectMembers f.members) ++ ")"

/-- The filter of a set of accepted values. -/
def ofSet (field : String) (values : List String) : Filter :=
  single field (.object [(Comparison.isIn.keyword, .array (values.map .string))])

/-- The filter of one comparison. -/
def ofComparison (field : String) (op : Comparison) (value : String) : Filter :=
  match op with
  | .eq => single field (.string value)
  | .isIn => ofSet field [value]
  | .neq | .lt | .lte | .gt | .gte | .like =>
    single field (.object [(op.keyword, .string value)])

/-- The filter that joins parts under a keyword; without parts it is empty. -/
def joined (keyword : String) (parts : List Value) : Filter :=
  if parts.isEmpty then ⟨[]⟩ else single keyword (.array parts)

mutual

/-- The filter of an expression. -/
def compile : Expression → Filter
  | .always => ⟨[]⟩
  | .all children => joined "$and" (compileAll children)
  | .any children => joined "$or" (compileAll children)
  | .not child => single "$not" (compile child).toValue
  | .compare field op value => ofComparison field op value
  | .inSet field values => ofSet field values

/-- The filters of several expressions, as JSON values. -/
def compileAll : List Expression → List Value
  | [] => []
  | e :: rest => (compile e).toValue :: compileAll rest

end

end Filter

end TaggedRecords
