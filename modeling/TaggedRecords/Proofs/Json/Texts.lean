import Mathlib.Data.List.Forall2

/-!
# JSON — the texts of values

What it is for a text to be a JSON value, apart from any reader: a word, a numeral, a string, a list
of values or an object of names and values, with blanks wherever they may stand.  No limit is set
to the size of a numeral, or to how many lists and objects stand inside each other; an escape by
code has to stand for a character, alone or with its other half.

A character may be spelled in a string as itself, by an escape letter, by the four digits of its
code, or by those of two surrogate halves (`SpellsChar`).  The parts of a list and of an object
stand between commas and before a closing bracket, with blanks anywhere between them (`Spaced`);
texts that are written have none (`enclosed`).  Parts are kept as texts (`IsList`, `IsObject`), so
that one can say which parts a text has, and in which order, without saying what a reader makes of
them.
-/

namespace TaggedRecords.Json

/-! ### Blanks -/

/-- Nothing but blanks. -/
def Blank (ws : List Char) : Prop := ∀ c ∈ ws, c = ' ' ∨ c = '\n' ∨ c = '\t' ∨ c = '\r'

instance (ws : List Char) : Decidable (Blank ws) := List.decidableBAll _ ws

theorem Blank.nil : Blank [] := by simp [Blank]

/-! ### Numerals -/

/-- One or more decimal digits. -/
def Digits (text : List Char) : Prop := text ≠ [] ∧ ∀ c ∈ text, c.isDigit = true

/-- Decimal digits without superfluous zeros in front of them. -/
def Whole (text : List Char) : Prop := Digits text ∧ (text.head? = some '0' → text = ['0'])

/-- The fraction of a numeral, if there is one. -/
inductive Fraction : List Char → Prop
  | absent : Fraction []
  | digits {digits : List Char} (h : Digits digits) : Fraction ('.' :: digits)

/-- The exponent of a numeral, if there is one. -/
inductive Exponent : List Char → Prop
  | absent : Exponent []
  | digits {mark : Char} {sign digits : List Char} (hm : mark = 'e' ∨ mark = 'E')
      (hs : sign = [] ∨ sign = ['+'] ∨ sign = ['-']) (h : Digits digits) :
      Exponent (mark :: (sign ++ digits))

/-- A numeral of any size. -/
inductive IsNumeral : List Char → Prop
  | mk {sign whole fraction exponent : List Char} (hs : sign = [] ∨ sign = ['-'])
      (hw : Whole whole) (hf : Fraction fraction) (he : Exponent exponent) :
      IsNumeral (sign ++ (whole ++ (fraction ++ exponent)))

theorem IsNumeral.head {text : List Char} (h : IsNumeral text) :
    ∃ c rest, text = c :: rest ∧ (c = '-' ∨ c.isDigit = true) := by
  obtain ⟨hs, hw, -, -⟩ := h
  obtain ⟨d, digits, rfl⟩ := List.exists_cons_of_ne_nil hw.1.1
  rcases hs with rfl | rfl
  · exact ⟨d, _, rfl, .inr (hw.1.2 d List.mem_cons_self)⟩
  · exact ⟨'-', _, rfl, .inl rfl⟩

/-! ### Strings -/

/-- The escape letters, each with the character that it stands for. -/
def escapes : List (Char × Char) :=
  [('"', '"'), ('\\', '\\'), ('/', '/'), ('b', '\x08'), ('f', '\x0c'), ('n', '\n'), ('r', '\r'),
    ('t', '\t')]

/-- A digit of base sixteen, in either case, and its value. -/
def HexDigit (c : Char) (n : Nat) : Prop :=
  "0123456789abcdef".toList[n]? = some c ∨ "0123456789ABCDEF".toList[n]? = some c

/-- Four digits of base sixteen and the code that they stand for. -/
inductive HexCode : List Char → Nat → Prop
  | mk {a b c d : Char} {i j k l : Nat} (ha : HexDigit a i) (hb : HexDigit b j)
      (hc : HexDigit c k) (hd : HexDigit d l) :
      HexCode [a, b, c, d] (((i * 16 + j) * 16 + k) * 16 + l)

/-- A way to spell a character inside a string. -/
inductive SpellsChar : List Char → Char → Prop
  | plain {c : Char} (hq : c ≠ '"') (hb : c ≠ '\\') (hc : ¬ c.toNat < 0x20) : SpellsChar [c] c
  | letter {l c : Char} (h : (l, c) ∈ escapes) : SpellsChar ['\\', l] c
  | code {digits : List Char} {n : Nat} (h : HexCode digits n) (hn : n < 0xD800 ∨ 0xDFFF < n) :
      SpellsChar ('\\' :: 'u' :: digits) (.ofNat n)
  | pair {digits digits' : List Char} {high low : Nat} (h : HexCode digits high)
      (hh : 0xD800 ≤ high ∧ high ≤ 0xDBFF) (h' : HexCode digits' low)
      (hl : 0xDC00 ≤ low ∧ low ≤ 0xDFFF) :
      SpellsChar ('\\' :: 'u' :: (digits ++ '\\' :: 'u' :: digits'))
        (.ofNat ((high - 0xD800) * 0x400 + (low - 0xDC00) + 0x10000))

/-- A way to spell a text inside a string. -/
inductive Spells : List Char → List Char → Prop
  | nil : Spells [] []
  | cons {piece text s : List Char} {c : Char} (h : SpellsChar piece c) (t : Spells text s) :
      Spells (piece ++ text) (c :: s)

/-- `text` is a string, between double quotes, that spells `s`. -/
def IsString (text : List Char) (s : String) : Prop :=
  ∃ inner, text = '"' :: (inner ++ ['"']) ∧ Spells inner s.toList

theorem SpellsChar.ne_nil {piece : List Char} {c : Char} (h : SpellsChar piece c) :
    piece ≠ [] := by
  cases h <;> exact List.cons_ne_nil _ _

/-! ### Parts of a list or an object -/

/-- What may stand before a part of a list or an object: blanks, and a comma among them unless the
part is the first one. -/
inductive Gap : (first : Bool) → List Char → Prop
  | first {ws : List Char} (hws : Blank ws) : Gap true ws
  | next {ws ws' : List Char} (hws : Blank ws) (hws' : Blank ws') : Gap false (ws ++ ',' :: ws')

/-- A text of parts that stand between commas, up to the closing bracket, with blanks around any of
them; `first` says that no part stands before them. -/
inductive Spaced (close : Char) : (first : Bool) → List (List Char) → List Char → Prop
  | close {first : Bool} {ws : List Char} (hws : Blank ws) : Spaced close first [] (ws ++ [close])
  | part {first : Bool} {gap part text : List Char} {parts : List (List Char)}
      (hg : Gap first gap) (t : Spaced close false parts text) :
      Spaced close first (part :: parts) (gap ++ (part ++ text))

theorem Spaced.nil_inv {close : Char} {first : Bool} {text : List Char}
    (h : Spaced close first [] text) : ∃ ws, Blank ws ∧ text = ws ++ [close] := by
  cases h with
  | close hws => exact ⟨_, hws, rfl⟩

theorem Spaced.cons_inv {close : Char} {first : Bool} {part text : List Char}
    {parts : List (List Char)} (h : Spaced close first (part :: parts) text) :
    ∃ gap rest, text = gap ++ (part ++ rest) ∧ Gap first gap ∧ Spaced close false parts rest := by
  cases h with
  | part hg t => exact ⟨_, _, rfl, hg, t⟩

/-- The text of parts that stand between commas, up to the closing bracket, without blanks. -/
def enclosed (close : Char) : (first : Bool) → List (List Char) → List Char
  | _, [] => [close]
  | true, part :: rest => part ++ enclosed close false rest
  | false, part :: rest => ',' :: part ++ enclosed close false rest

theorem spaced_enclosed (close : Char) : ∀ first parts,
    Spaced close first parts (enclosed close first parts)
  | true, [] | false, [] => .close .nil
  | true, _ :: rest => .part (.first .nil) (spaced_enclosed close false rest)
  | false, _ :: rest => .part (.next .nil .nil) (spaced_enclosed close false rest)

/-! ### Values -/

/-- A member of an object, with its name and the text of its value. -/
abbrev Member : Type := String × List Char

/-- The text of a member. -/
inductive MemberText : Member → List Char → Prop
  | mk {name : String} {quoted ws ws' v : List Char} (hn : IsString quoted name) (hws : Blank ws)
      (hws' : Blank ws') : MemberText (name, v) (quoted ++ (ws ++ ':' :: (ws' ++ v)))

/-- The text of a list with these texts for items. -/
inductive ListText (items : List (List Char)) : List Char → Prop
  | mk {text : List Char} (h : Spaced ']' true items text) : ListText items ('[' :: text)

/-- The text of an object with these members. -/
inductive ObjectText (ms : List Member) : List Char → Prop
  | mk {parts : List (List Char)} {text : List Char} (hp : List.Forall₂ MemberText ms parts)
      (h : Spaced '\x7d' true parts text) : ObjectText ms ('\x7b' :: text)

/-- The word for no value. -/
def nullText : List Char := ['n', 'u', 'l', 'l']

/-- A text that is one value, without blanks around it. -/
inductive IsValue : List Char → Prop
  | null : IsValue nullText
  | true : IsValue ['t', 'r', 'u', 'e']
  | false : IsValue ['f', 'a', 'l', 's', 'e']
  | numeral {text : List Char} (h : IsNumeral text) : IsValue text
  | string {text : List Char} {s : String} (h : IsString text s) : IsValue text
  | list {text : List Char} {items : List (List Char)} (h : ListText items text)
      (hi : ∀ item ∈ items, IsValue item) : IsValue text
  | object {text : List Char} {ms : List Member} (h : ObjectText ms text)
      (hm : ∀ m ∈ ms, IsValue m.2) : IsValue text

/-- A text that is a list of these values. -/
def IsList (items : List (List Char)) (text : List Char) : Prop :=
  ListText items text ∧ ∀ item ∈ items, IsValue item

/-- A text that is an object of these members, each with a value. -/
def IsObject (ms : List Member) (text : List Char) : Prop :=
  ObjectText ms text ∧ ∀ m ∈ ms, IsValue m.2

/-- A whole text that is an object of these members. -/
def ObjectDocument (text : String) (ms : List Member) : Prop :=
  ∃ ws v ws', text.toList = ws ++ (v ++ ws') ∧ Blank ws ∧ Blank ws' ∧ IsObject ms v

theorem IsObject.document {text : String} {ms : List Member} (h : IsObject ms text.toList) :
    ObjectDocument text ms :=
  ⟨[], text.toList, [], by rw [List.nil_append, List.append_nil], .nil, .nil, h⟩

end TaggedRecords.Json
