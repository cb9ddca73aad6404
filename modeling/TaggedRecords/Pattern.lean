/-!
# Patterns — matching with wildcards

In a pattern `%` stands for any run of characters, `_` for exactly one, and any other character
for itself, ASCII letters in either case.

`Pattern.accepts` walks pattern and text together.  When they disagree it goes back to the last
`%` and lets that stand for one character more; an earlier `%` is never looked at again, so at
most `(m + 1) * (n + 1)` steps are taken for a pattern of `m` and a text of `n` characters.
-/

namespace TaggedRecords.Pattern

/-- Whether a pattern character other than `%` stands for a character of the text. -/
def fits (expected actual : Char) : Bool :=
  expected == '_' || expected.toLower == actual.toLower

/-- Where matching stands: how much of the pattern and of the text is done, and, once a `%` has
been passed, the place in the pattern after it and the place in the text from which it may take
one character more. -/
structure Progress where
  pattern : Nat
  text : Nat
  resume : Option (Nat × Nat)
  deriving DecidableEq, Repr

namespace Progress

/-- Nothing done. -/
def start : Progress := ⟨0, 0, none⟩

/-- Back to the last `%`, which takes one character more; without one there is no match. -/
def back (s : Progress) : Progress ⊕ Bool :=
  match s.resume with
  | some (after, origin) => .inl ⟨after, origin + 1, some (after, origin + 1)⟩
  | none => .inr false

/-- One step: the next state, or whether the text is matched. -/
def step (pattern text : List Char) (s : Progress) : Progress ⊕ Bool :=
  match text[s.text]? with
  | none => .inr ((pattern.drop s.pattern).all (· == '%'))
  | some actual =>
    match pattern[s.pattern]? with
    | some '%' => .inl ⟨s.pattern + 1, s.text, some (s.pattern + 1, s.text)⟩
    | some expected =>
      if fits expected actual then .inl ⟨s.pattern + 1, s.text + 1, s.resume⟩ else s.back
    | none => s.back

/-- The answer after at most `fuel` steps. -/
def run (pattern text : List Char) : Nat → Progress → Option Bool
  | 0, _ => none
  | fuel + 1, s =>
    match s.step pattern text with
    | .inl next => run pattern text fuel next
    | .inr answer => some answer

end Progress

/-- The number of steps that is always enough. -/
def allowance (pattern text : List Char) : Nat := (pattern.length + 1) * (text.length + 1)

/-- Whether a text matches a pattern. -/
def accepts (pattern text : List Char) : Bool :=
  (Progress.run pattern text (allowance pattern text) .start).getD false

end TaggedRecords.Pattern
