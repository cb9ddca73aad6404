/-!
# JSON — the text being read

A `Source` is what is left of a text together with the place reached in it.  Lines count from
one; a column counts the *bytes* of the line that have been read, so a character of two bytes
moves it by two, and right after a line break it is zero.

A fault is reported at one of two places: where reading stands (`Source.position`), or one byte
further, when the character looked at is itself at fault (`Source.peekPosition`).
-/

namespace TaggedRecords.Json

/-- A place in a text. -/
structure Position where
  line : Nat
  column : Nat
  deriving DecidableEq, Repr

namespace Position

/-- The place before the first character. -/
def start : Position := ⟨1, 0⟩

/-- The place after `c`. -/
def advance (p : Position) (c : Char) : Position :=
  if c = '\n' then ⟨p.line + 1, 0⟩ else ⟨p.line, p.column + c.utf8Size⟩

/-- The place after the first `n` bytes of a text, which may lie inside a character. -/
def advanceBytes : Position → Nat → List Char → Position
  | p, _, [] => p
  | p, n, c :: rest =>
    if n = 0 then p
    else if n < c.utf8Size then ⟨p.line, p.column + n⟩
    else advanceBytes (p.advance c) (n - c.utf8Size) rest

end Position

/-- What is left of a text, and the place reached in it. -/
structure Source where
  rest : List Char
  position : Position
  deriving DecidableEq, Repr

namespace Source

/-- The whole of `text`, nothing read yet. -/
def ofString (text : String) : Source := ⟨text.toList, .start⟩

/-- The character that comes next. -/
def next? (s : Source) : Option Char := s.rest.head?

/-- One character further. -/
def drop (s : Source) : Source :=
  match s.rest with
  | [] => s
  | c :: rest => ⟨rest, s.position.advance c⟩

/-- Where the end of the text is reached. -/
def endPosition (s : Source) : Position := s.rest.foldl Position.advance s.position

/-- One byte further than reading stands. -/
def peekPosition (s : Source) : Position := s.position.advanceBytes 1 s.rest

/-- Whether characters take at least `n` bytes. -/
def hasBytes : Nat → List Char → Bool
  | 0, _ => true
  | _ + 1, [] => false
  | n + 1, c :: rest => hasBytes (n + 1 - c.utf8Size) rest

/-- The longest run of characters that satisfy `p`, and what follows it. -/
def span (p : Char → Bool) (s : Source) : List Char × Source :=
  (s.rest.takeWhile p,
    ⟨s.rest.dropWhile p, (s.rest.takeWhile p).foldl Position.advance s.position⟩)

/-- Spaces, tabs and line breaks may stand between any two words of JSON. -/
def isBlank (c : Char) : Bool := c == ' ' || c == '\n' || c == '\t' || c == '\r'

/-- The source after any blanks. -/
def trim (s : Source) : Source := (s.span isBlank).2

end Source

end TaggedRecords.Json
