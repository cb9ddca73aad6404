import TaggedRecords.Json.Document
import TaggedRecords.Json.Form

/-!
# Options — which parts of records a request asks for

There are no defaults: a request always carries all five flags, and options read from a text have
to name each of them.
-/

namespace TaggedRecords

/-- The parts of matching records that a store returns. -/
structure SearchOptions where
  includeRecords : Bool
  includeTags : Bool
  includeCount : Bool
  includeType : Bool
  includeValue : Bool
  deriving DecidableEq, Repr

namespace SearchOptions

/-- Options as a JSON value, the flags in their order on the wire. -/
def toValue (o : SearchOptions) : Json.Value :=
  .object [("retrieveRecords", .bool o.includeRecords), ("retrieveTags", .bool o.includeTags),
    ("retrieveTotalCount", .bool o.includeCount), ("retrieveType", .bool o.includeType),
    ("retrieveValue", .bool o.includeValue)]

/-- The wire text of options. -/
def encode (o : SearchOptions) : String := Json.Document.write o.toValue

/-- Options of which some flags have been read. -/
structure Draft where
  records : Option Bool := none
  tags : Option Bool := none
  count : Option Bool := none
  type : Option Bool := none
  value : Option Bool := none

/-- The options of a draft with every flag; otherwise the index of the first missing one. -/
def Draft.finish : Draft → Except Nat SearchOptions
  | ⟨none, _, _, _, _⟩ => .error 0
  | ⟨_, none, _, _, _⟩ => .error 1
  | ⟨_, _, none, _, _⟩ => .error 2
  | ⟨_, _, _, none, _⟩ => .error 3
  | ⟨_, _, _, _, none⟩ => .error 4
  | ⟨some records, some tags, some count, some type, some value⟩ =>
    .ok ⟨records, tags, count, type, value⟩

/-- The form of options on the wire. -/
def form : Json.Form Draft SearchOptions where
  name := "SearchOptions"
  fields :=
    [.ofLens ["retrieveRecords"] Json.Reader.flag (·.records) fun d b => { d with records := some b },
      .ofLens ["retrieveTags"] Json.Reader.flag (·.tags) fun d b => { d with tags := some b },
      .ofLens ["retrieveTotalCount"] Json.Reader.flag (·.count) fun d b => { d with count := some b },
      .ofLens ["retrieveType"] Json.Reader.flag (·.type) fun d b => { d with type := some b },
      .ofLens ["retrieveValue"] Json.Reader.flag (·.value) fun d b => { d with value := some b }]
  blank := {}
  finish := Draft.finish

/-- The options of a wire text. -/
def decode (text : String) : Except Json.Error SearchOptions := form.read.run text

/-- Options shown for a reader. -/
def inspect (o : SearchOptions) : String :=
  let flag (b : Bool) : String := if b then "true" else "false"
  "SearchOptions \x7b include_records: " ++ flag o.includeRecords ++
    ", include_tags: " ++ flag o.includeTags ++ ", include_count: " ++ flag o.includeCount ++
    ", include_type: " ++ flag o.includeType ++ ", include_value: " ++ flag o.includeValue ++ " \x7d"

end SearchOptions

end TaggedRecords
