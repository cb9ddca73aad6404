import TaggedRecords.Json.Document
import TaggedRecords.Json.Form

/-!
# Tags — names and values attached to a record

Tags are a sorted map, so their wire text lists the names in ascending order of code points.
-/

namespace TaggedRecords

/-- The tags of a record: each name with its value. -/
abbrev Tags := SortedMap String String

namespace Tags

/-- Tags as a JSON value. -/
def toValue (tags : Tags) : Json.Value := .object (tags.entries.map fun e => (e.1, .string e.2))

/-- The wire text of tags. -/
def encode (tags : Tags) : String := Json.Document.write tags.toValue

/-- Reads an object with strings for values. -/
def read : Json.Reader Tags := Json.Reader.map Json.Reader.string

/-- The tags of a wire text. -/
def decode (text : String) : Except Json.Error Tags := read.run text

/-- The wire text of a list of tag names. -/
def encodeNames (names : List String) : String := Json.Document.write (.array (names.map .string))

/-- The tag names of a wire text. -/
def decodeNames (text : String) : Except Json.Error (List String) :=
  (Json.Reader.list Json.Reader.string).run text

end Tags

end TaggedRecords
