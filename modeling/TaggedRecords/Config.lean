import TaggedRecords.Failure
import TaggedRecords.Json.Document
import TaggedRecords.Json.Form

/-!
# Configuration — how many records a fetch asks for

A configuration that is made from a number or from a text is checked: it asks for at least one
record per fetch.  A text that does not name the size leaves it at `defaultBatchSize`.
-/

namespace TaggedRecords

/-- The configuration of searches. -/
structure SearchConfig where
  batchSize : UInt64
  deriving DecidableEq, Repr

namespace SearchConfig

/-- The number of records per fetch where nothing else is said. -/
def defaultBatchSize : UInt64 := 100

/-- The configuration where nothing else is said. -/
def standard : SearchConfig := ⟨defaultBatchSize⟩

/-- The wire text of a configuration. -/
def encode (c : SearchConfig) : String :=
  Json.Document.write (.object [("batchSize", .number (.integer c.batchSize.toNat))])

/-- The form of a configuration on the wire; the draft is the size, once it has been read. -/
def form : Json.Form (Option UInt64) SearchConfig where
  name := "SearchConfig"
  fields := [.ofLens ["batchSize"] Json.Reader.count id fun _ n => some n]
  blank := none
  finish size := .ok ⟨size.getD defaultBatchSize⟩

/-- The configuration of a wire text, not checked. -/
def decode (text : String) : Except Json.Error SearchConfig := form.read.run text

/-- A configuration that asks for at least one record per fetch. -/
def checked (c : SearchConfig) : Except Failure SearchConfig :=
  if c.batchSize = 0 then .error (.decoding "batchSize must be greater than zero") else .ok c

/-- The checked configuration of a size. -/
def ofBatchSize (size : UInt64) : Except Failure SearchConfig := checked ⟨size⟩

/-- The checked configuration of a text. -/
def ofText (text : String) : Except Failure SearchConfig :=
  match decode text with
  | .ok c => c.checked
  | .error e => .error (.decoding e.message)

/-- A configuration shown for a reader. -/
def inspect (c : SearchConfig) : String :=
  "SearchConfig \x7b batch_size: " ++ toString c.batchSize.toNat ++ " \x7d"

end SearchConfig

end TaggedRecords
