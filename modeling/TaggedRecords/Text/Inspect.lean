import TaggedRecords.Text.Hidden

/-!
# Text — quoting for a reader

`inspect` shows a text in double quotes so that a person sees every character of it: the usual
short escapes for quotes, backslashes, tabs and line breaks, and the code point of any character
that has no face of its own (`Text.isHidden`).
-/

namespace TaggedRecords.Text

/-- A character by its code point, as in `\u{301}`. -/
def codePoint (c : Char) : List Char :=
  '\\' :: 'u' :: '\x7b' :: Nat.toDigits 16 c.toNat ++ ['\x7d']

/-- A character as it is shown inside double quotes. -/
def inspectChar (c : Char) : List Char :=
  if c = '\x00' then ['\\', '0']
  else if c = '\t' then ['\\', 't']
  else if c = '\n' then ['\\', 'n']
  else if c = '\r' then ['\\', 'r']
  else if c = '\\' ∨ c = '"' then ['\\', c]
  else if c < ' ' ∨ isHidden c then codePoint c
  else [c]

/-- A text in double quotes, every character of it visible. -/
def inspect (text : String) : String :=
  String.ofList ('"' :: text.toList.flatMap inspectChar ++ ['"'])

end TaggedRecords.Text
