import TaggedRecords.Tags
import TaggedRecords.Options

/-!
# Records and batches — what a store answers with

A record always has an id; its type, value and tags are there when the request asked for them.
A batch is one page of a search: the total number of matches and the records of the page, each
when asked for.  A batch without records says that the search is exhausted.

On the wire absent parts are left out.  Reading also takes `null` for an absent part, and two
names that some stores use: `referent` for the id and `count` for the total.
-/

namespace TaggedRecords

open Json (Value Reader Form Field)

/-- A stored record, as far as a request asked for it. -/
structure Record where
  id : String
  type : Option String
  value : Option String
  tags : Option Tags
  deriving DecidableEq

namespace Record

/-- A record as a JSON value. -/
def toValue (r : Record) : Value :=
  .object (("id", .string r.id) ::
    ((r.type.map fun t => ("type", Value.string t)).toList ++
      (r.value.map fun v => ("value", Value.string v)).toList ++
      (r.tags.map fun t => ("tags", t.toValue)).toList))

/-- The wire text of a record. -/
def encode (r : Record) : String := Json.Document.write r.toValue

/-- A record of which some fields have been read; a field read as `null` has been read too. -/
structure Draft where
  id : Option String := none
  type : Option (Option String) := none
  value : Option (Option String) := none
  tags : Option (Option Tags) := none

/-- The form of a record on the wire. -/
def form : Form Draft Record where
  name := "Record"
  fields :=
    [.ofLens ["id", "referent"] Reader.string (·.id) fun d a => { d with id := some a },
      .ofLens ["type"] (Reader.optional Reader.string) (·.type) fun d a => { d with type := some a },
      .ofLens ["value"] (Reader.optional Reader.string) (·.value) fun d a => { d with value := some a },
      .ofLens ["tags"] (Reader.optional Tags.read) (·.tags) fun d a => { d with tags := some a }]
  blank := {}
  finish d :=
    match d.id with
    | none => .error 0
    | some id => .ok ⟨id, d.type.join, d.value.join, d.tags.join⟩

/-- The record of a wire text. -/
def decode (text : String) : Except Json.Error Record := form.read.run text

end Record

/-- One page of a search. -/
structure Batch where
  totalCount : Option UInt64
  records : Option (List Record)
  deriving DecidableEq

namespace Batch

/-- The records of the page, none if they are absent. -/
def page (b : Batch) : List Record := b.records.getD []

/-- A batch as a JSON value. -/
def toValue (b : Batch) : Value :=
  .object (
    (b.totalCount.map fun n => ("totalCount", Value.number (.integer n.toNat))).toList ++
      (b.records.map fun rs => ("records", Value.array (rs.map Record.toValue))).toList)

/-- The wire text of a batch. -/
def encode (b : Batch) : String := Json.Document.write b.toValue

/-- A batch of which some fields have been read. -/
structure Draft where
  totalCount : Option (Option UInt64) := none
  records : Option (Option (List Record)) := none

/-- The form of a batch on the wire. -/
def form : Form Draft Batch where
  name := "Batch"
  fields :=
    [.ofLens ["totalCount", "count"] (Reader.optional Reader.count) (·.totalCount)
        fun d a => { d with totalCount := some a },
      .ofLens ["records"] (Reader.optional (Reader.list Record.form.read)) (·.records)
        fun d a => { d with records := some a }]
  blank := {}
  finish d := .ok ⟨d.totalCount.join, d.records.join⟩

/-- The batch of a wire text. -/
def decode (text : String) : Except Json.Error Batch := form.read.run text

end Batch

end TaggedRecords
