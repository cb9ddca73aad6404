import TaggedRecords.Json.Passing
import TaggedRecords.Proofs.Json.Gathering
import TaggedRecords.Proofs.Json.Numerals
import TaggedRecords.Proofs.Json.Strings

/-!
# JSON — what is passed over

**Every value is passed over whole, of any size and any content** (`takes_pass`).  Words, numerals
and strings are single steps.  Passing over a list or an object pushes a bracket and comes back to
the same stack behind the closing one, so the statement for the parts has to speak of any stack: a
value leads from waiting for a value to what comes after one (`Onward`).

Whoever looks at a value tells its kind by its first character (`IsValue.begins`).
-/

namespace TaggedRecords.Json

open Quoted Reader

/-! ### First characters -/

/-- What the first character of a value tells of it. -/
structure Begins (text : List Char) (c : Char) : Prop where
  blank : Source.isBlank c = false
  close : c ≠ ']'
  null : c = 'n' → text = nullText
  numeral : c = '-' ∨ c.isDigit = true → IsNumeral text
  string : c = '"' → ∃ s, IsString text s
  list : c = '[' → ∃ items, IsList items text
  object : c = '\x7b' → ∃ ms, IsObject ms text

theorem IsValue.begins {text : List Char} (h : IsValue text) :
    ∃ c rest, text = c :: rest ∧ Begins text c := by
  -- a first character that is known rules out all kinds of value but one
  cases h with
  | null =>
      refine ⟨'n', _, rfl, ?_⟩
      constructor <;> first | decide | exact fun h => absurd h (by decide)
  | true =>
      refine ⟨'t', _, rfl, ?_⟩
      constructor <;> first | decide | exact fun h => absurd h (by decide)
  | false =>
      refine ⟨'f', _, rfl, ?_⟩
      constructor <;> first | decide | exact fun h => absurd h (by decide)
  | numeral h =>
      obtain ⟨c, rest, rfl, hc⟩ := h.head
      refine ⟨c, rest, rfl, ?_⟩
      constructor
      case blank => exact (numeral_head hc).1
      case close => exact (numeral_head hc).2
      case numeral => exact fun _ => h
      all_goals (rintro rfl; exact absurd hc (by decide))
  | string h =>
      obtain ⟨inner, rfl, hs⟩ := h
      refine ⟨'"', _, rfl, ?_⟩
      constructor <;> first
        | decide
        | exact fun h => absurd h (by decide)
        | exact fun _ => ⟨_, _, rfl, hs⟩
  | list h hi =>
      obtain ⟨ht⟩ := h
      refine ⟨'[', _, rfl, ?_⟩
      constructor <;> first
        | decide
        | exact fun h => absurd h (by decide)
        | exact fun _ => ⟨_, .mk ht, hi⟩
  | object h hm =>
      obtain ⟨hp, ht⟩ := h
      refine ⟨'\x7b', _, rfl, ?_⟩
      constructor <;> first
        | decide
        | exact fun h => absurd h (by decide)
        | exact fun _ => ⟨_, .mk hp ht, hm⟩

/-! ### Numerals -/

/-- What follows the digits before an exponent cannot continue them. -/
theorem Exponent.endsDigits {exponent : List Char} (h : Exponent exponent) {tail : List Char}
    (ht : Stops tail) : EndsDigits (exponent ++ tail) := by
  cases h with
  | absent => exact ht.endsDigits
  | digits hm _ _ => rcases hm with rfl | rfl <;> simp [EndsDigits]

/-- What follows the integer part cannot continue its digits. -/
theorem Fraction.endsDigits {fraction exponent : List Char} (h : Fraction fraction)
    (he : Exponent exponent) {tail : List Char} (ht : Stops tail) :
    EndsDigits (fraction ++ exponent ++ tail) := by
  cases h with
  | absent => exact he.endsDigits ht
  | digits _ => simp [EndsDigits]

/-- An exponent does not begin like a fraction. -/
theorem Exponent.head_ne {exponent : List Char} (h : Exponent exponent) {tail : List Char}
    (ht : Stops tail) : (exponent ++ tail).head? ≠ some '.' := by
  cases h with
  | absent => exact fun hc => (ht _ hc).2.1 rfl
  | digits hm _ _ => rcases hm with rfl | rfl <;> simp

namespace Reader

variable {α : Type}

theorem Takes.discard {ahead : List Char → Prop} {reader : Reader α} {text : List Char} {a : α}
    (h : Takes ahead reader text a) : Takes ahead (discard reader) text () := fun tail p ht => by
  show StateT.run ((fun _ => ()) <$> reader) _ = _
  rw [StateT.run_map, h tail p ht]
  rfl

theorem takes_passDigits {digits : List Char} (h : Digits digits) :
    Takes EndsDigits passDigits digits () := by
  have ht := (takes_takeWhile h.2).discard
  obtain ⟨d, rest, rfl⟩ := List.exists_cons_of_ne_nil h.1
  refine .ofFirst (fun rest p => ?_) ht
  show StateT.run (if d.isDigit then _ else _) _ = _
  rw [if_pos (h.2 d List.mem_cons_self)]

/-- The sign of an exponent, before its digits. -/
theorem takes_exponentSign {sign : List Char} (h : sign = [] ∨ sign = ['+'] ∨ sign = ['-']) :
    ∃ down, Takes (fun tail => ∃ d ∈ tail.head?, d.isDigit = true) exponentSign sign down := by
  rcases h with rfl | rfl | rfl
  · refine ⟨false, fun tail p ht => ?_⟩
    obtain ⟨d, hd, hdigit⟩ := ht
    rw [exponentSign, run_bind_ok (run_peek _)]
    dsimp only [Source.next?]
    rw [List.nil_append, Option.mem_def.mp hd]
    split
    · rename_i h
      rw [Option.some.inj h] at hdigit
      exact absurd hdigit (by decide)
    · rename_i h
      rw [Option.some.inj h] at hdigit
      exact absurd hdigit (by decide)
    · rfl
  · exact ⟨false, fun _ _ _ => rfl⟩
  · exact ⟨true, fun _ _ _ => rfl⟩

theorem takes_passExponent {exponent : List Char} (h : Exponent exponent) :
    Takes Stops passExponent exponent () := by
  cases h with
  | absent =>
      intro tail p ht
      rw [passExponent, run_bind_ok (run_peek _)]
      dsimp only [Source.next?]
      split
      · rename_i hc
        exact absurd rfl (ht _ hc).2.2.1
      · rename_i hc
        exact absurd rfl (ht _ hc).2.2.2
      · rfl
  | @digits mark sign digits hm hs h =>
      obtain ⟨down, hsign⟩ := takes_exponentSign hs
      have hdigits : Takes Stops passDigits digits () :=
        (takes_passDigits h).weaken fun _ => Stops.endsDigits
      have ht : Takes Stops (do Functor.discard exponentSign; passDigits) (sign ++ digits) () := by
        refine hsign.discard.bind hdigits fun tail _ => ?_
        obtain ⟨d, rest, rfl⟩ := List.exists_cons_of_ne_nil h.1
        exact ⟨d, rfl, h.2 d List.mem_cons_self⟩
      rcases hm with rfl | rfl <;> exact .afterFirst (fun _ _ => rfl) ht

theorem takes_passFraction {fraction exponent : List Char} (hf : Fraction fraction)
    (he : Exponent exponent) : Takes Stops passFraction (fraction ++ exponent) () := by
  cases hf with
  | absent =>
      intro tail p ht
      refine Eq.trans ?_ (takes_passExponent he tail p ht)
      have hc := he.head_ne ht
      rw [List.nil_append, passFraction, run_bind_ok (run_peek _)]
      dsimp only [Source.next?]
      split
      · contradiction
      · rfl
  | digits h =>
      have ht : Takes Stops (do passDigits; passExponent) _ () :=
        (takes_passDigits h).bind (takes_passExponent he) fun _ => he.endsDigits
      exact .afterFirst (fun _ _ => rfl) ht

/-- Passes over the rest of a numeral after a zero in front. -/
def passAfterZero : Reader Unit := do
  match ← peek with
  | some c => if c.isDigit then failNext .invalidNumber else passFraction
  | none => return

/-- Passes over a numeral without its sign. -/
def passUnsigned : Reader Unit := do
  match ← peek with
  | some '0' => skip; passAfterZero
  | _ => passDigits; passFraction

theorem takes_passAfterZero {fraction exponent : List Char} (hf : Fraction fraction)
    (he : Exponent exponent) : Takes Stops passAfterZero (fraction ++ exponent) () := by
  intro tail p ht
  have hends := hf.endsDigits he ht
  have hrest := takes_passFraction hf he tail p ht
  cases htext : fraction ++ exponent ++ tail with
  | nil =>
      -- nothing is left, and nothing is read
      obtain ⟨hnil, rfl⟩ := List.append_eq_nil_iff.mp htext
      rw [hnil]
      rfl
  | cons c rest =>
      rw [htext] at hends hrest
      refine Eq.trans ?_ hrest
      show StateT.run (if c.isDigit then _ else _) _ = _
      rw [if_neg (by rw [hends c rfl]; decide)]

theorem takes_passUnsigned {whole fraction exponent : List Char} (hw : Whole whole)
    (hf : Fraction fraction) (he : Exponent exponent) :
    Takes Stops passUnsigned (whole ++ (fraction ++ exponent)) () := by
  by_cases hz : whole.head? = some '0'
  · obtain rfl := hw.2 hz
    show Takes Stops passUnsigned ('0' :: (fraction ++ exponent)) ()
    exact .afterFirst (fun _ _ => rfl) (takes_passAfterZero hf he)
  · have ht : Takes Stops (do passDigits; passFraction) _ () :=
      (takes_passDigits hw.1).bind (takes_passFraction hf he) fun _ => hf.endsDigits he
    obtain ⟨d, rest, rfl⟩ := List.exists_cons_of_ne_nil hw.1.1
    refine .ofFirst (fun rest p => ?_) ht
    rw [passUnsigned, run_bind_ok (run_peek _)]
    dsimp only [Source.next?]
    split
    · contradiction
    · rfl

theorem takes_passNumeral {text : List Char} (h : IsNumeral text) :
    Takes Stops passNumeral text () := by
  obtain ⟨hs, hw, hf, he⟩ := h
  have ht := takes_passUnsigned hw hf he
  rcases hs with rfl | rfl
  · obtain ⟨d, rest, rfl⟩ := List.exists_cons_of_ne_nil hw.1.1
    refine .ofFirst (fun rest p => ?_) ht
    have hm : ¬ some d = some '-' := by
      rintro ⟨⟩
      exact absurd (hw.1.2 _ List.mem_cons_self) (by decide)
    show StateT.run (if some d = some '-' then _ else _) _ = _
    rw [if_neg hm]
    rfl
  · exact .afterFirst (fun _ _ => rfl) ht

/-! ### Strings -/

theorem takes_passStringStep_plain {c : Char} (hq : c ≠ '"') (hb : c ≠ '\\')
    (hc : ¬ c.toNat < 0x20) : Takes anything (passStringStep ()) [c] (.inl ()) := by
  intro tail p _
  rw [passStringStep, List.singleton_append, run_bind_ok (run_peek _)]
  simp only [Source.next?, List.head?_cons]
  rw [if_neg hc]
  rfl

theorem takes_passEscape_letter {l c : Char} (h : (l, c) ∈ escapes) :
    Takes anything passEscape [l] () := by
  have hc := ofLetter?_of_mem h
  have hu := ne_of_ofLetter? hc
  intro tail p _
  rw [passEscape, List.singleton_append, run_bind_ok (run_peek _)]
  simp only [Source.next?, List.head?_cons, hc]
  rfl

theorem takes_passEscape_code {digits : List Char} {n : Nat} (h : HexCode digits n) :
    Takes anything passEscape ('u' :: digits) () :=
  .afterFirst (fun _ _ => rfl) (takes_fourHex h).discard

theorem takes_passStringStep_escape {text : List Char} (h : Takes anything passEscape text ()) :
    Takes anything (passStringStep ()) ('\\' :: text) (.inl ()) := by
  have ht : Takes anything (do passEscape; return .inl () : Reader (Unit ⊕ Unit)) text (.inl ()) :=
    h.give rfl
  exact .afterFirst (fun _ _ => rfl) ht

/-- A step over a string takes a piece in front of anything. -/
theorem pieces_passStringStep {piece text : List Char} (hp : piece ≠ [])
    (h : Takes anything (passStringStep ()) piece (.inl ()))
    (t : Pieces anything passStringStep () text ()) :
    Pieces anything passStringStep () (piece ++ text) () :=
  .more h hp (fun _ _ => trivial) t

/-- A text that is spelled in a string is passed over with the quote that ends it. -/
theorem pieces_passString {inner s : List Char} (h : Spells inner s) :
    Pieces anything passStringStep () (inner ++ ['"']) () := by
  induction h with
  | nil => exact .last (.afterFirst (fun _ _ => rfl) (.pure _))
  | @cons piece text s c h _ ih =>
      rw [List.append_assoc]
      cases h with
      | plain hq hb hc =>
          exact pieces_passStringStep (by simp) (takes_passStringStep_plain hq hb hc) ih
      | letter h =>
          exact pieces_passStringStep (by simp)
            (takes_passStringStep_escape (takes_passEscape_letter h)) ih
      | code h _ =>
          exact pieces_passStringStep (by simp)
            (takes_passStringStep_escape (takes_passEscape_code h)) ih
      | @pair digits digits' _ _ h _ h' _ =>
          -- the two halves are passed over one after the other
          have hlow : Pieces anything passStringStep ()
              (('\\' :: 'u' :: digits') ++ (text ++ ['"'])) () :=
            pieces_passStringStep (by simp)
              (takes_passStringStep_escape (takes_passEscape_code h')) ih
          have hhigh : Takes anything (passStringStep ()) ('\\' :: 'u' :: digits) (.inl ()) :=
            takes_passStringStep_escape (takes_passEscape_code h)
          have hpair := pieces_passStringStep (List.cons_ne_nil _ _) hhigh hlow
          simpa only [List.cons_append, List.append_assoc] using hpair

theorem takes_passQuoted {text : List Char} {s : String} (h : IsString text s) :
    Takes anything passQuoted text () := by
  obtain ⟨inner, rfl, hs⟩ := h
  exact .afterFirst (fun _ _ => rfl) (pieces_passString hs).takes

theorem takes_passName {quoted ws ws' : List Char} {name : String} (h : IsString quoted name)
    (hws : Blank ws) (hws' : Blank ws') :
    Takes anything passName (ws ++ (quoted ++ (ws' ++ [':']))) () := by
  have hcolon : Takes anything colon (ws' ++ [':']) () :=
    .afterBlank (.afterFirst (fun _ _ => rfl) (.pure _)) trims_colon hws'
  have ht : Takes anything (do passQuoted; colon) _ () :=
    (takes_passQuoted h).bind hcolon fun _ _ => trivial
  obtain ⟨inner, rfl, -⟩ := h
  refine .afterBlank ?_ (trims_peekWord.bind _) hws
  exact .ofFirst (fun _ _ => rfl) ht

/-- Behind the name of a member and its colon, passing waits for the value. -/
theorem takes_passMember (stack : List Bracket) {quoted ws ws' : List Char} {name : String}
    (h : IsString quoted name) (hws : Blank ws) (hws' : Blank ws') :
    Takes anything (do
      passName
      return .inl (.value, .object :: stack) : Reader (Awaiting × List Bracket ⊕ Unit))
      (ws ++ (quoted ++ (ws' ++ [':']))) (.inl (.value, .object :: stack)) :=
  (takes_passName h hws hws').give rfl

/-! ### Brackets -/

/-- What opens a list or an object. -/
def opening : Bracket → Char
  | .list => '['
  | .object => '\x7b'

/-- What closes a list or an object. -/
def closing : Bracket → Char
  | .list => ']'
  | .object => '\x7d'

theorem closing_eq (bracket : Bracket) : closing bracket = ']' ∨ closing bracket = '\x7d' := by
  cases bracket
  · exact .inl rfl
  · exact .inr rfl

/-- The text of a part of a list or an object, and the value in it. -/
inductive PartText : Bracket → List Char → List Char → Prop
  | item (v : List Char) : PartText .list v v
  | member {m : Member} {part : List Char} (h : MemberText m part) : PartText .object m.2 part

/-- How passing goes on after a value: not at all outside of all brackets, and with `text` up to
the end inside of some. -/
def Onward : List Bracket → List Char → Prop
  | [], text => text = []
  | bracket :: stack, text => Pieces Stops passStep (.separator, bracket :: stack) text () ∧
      ∀ tail, Stops tail → Stops (text ++ tail)

/-- A step that ends a value leads to what comes after it. -/
theorem Onward.pieces {state : Awaiting × List Bracket} {stack : List Bracket}
    {piece text : List Char} (h : Onward stack text)
    (ht : Takes Stops (passStep state) piece (finished stack)) (hp : piece ≠ []) :
    Pieces Stops passStep state (piece ++ text) () := by
  cases stack with
  | nil =>
      obtain rfl : text = [] := h
      rw [List.append_nil]
      exact .last ht
  | cons bracket stack => exact .more ht hp h.2 h.1

/-- `v` is passed over wherever a value may stand. -/
def Passes (v : List Char) : Prop :=
  ∀ stack ws text, Blank ws → Onward stack text →
    Pieces Stops passStep (.value, stack) (ws ++ (v ++ text)) ()

/-- A value that is one step. -/
theorem passes_of_takes {v : List Char} (hv : v ≠ [])
    (h : ∀ stack, Takes Stops (passValue stack) v (finished stack)) : Passes v :=
  fun stack ws text hws ho => by
    rw [← List.append_assoc]
    exact ho.pieces ((h stack).afterBlank (trims_peekWord.bind _) hws) (by simp [hv])

theorem takes_passClosing (bracket : Bracket) (stack : List Bracket) {ws : List Char}
    (hws : Blank ws) : Takes Stops (passStep (.separator, bracket :: stack))
      (ws ++ [closing bracket]) (finished stack) := by
  refine .afterBlank ?_ (trims_peekWord.bind _) hws
  cases bracket <;> exact .afterFirst (fun _ _ => rfl) (.pure _)

/-- Between two parts, passing comes to the value of the second one. -/
theorem PartText.next {bracket : Bracket} {v part gap : List Char} (h : PartText bracket v part)
    (hg : Gap false gap) (stack : List Bracket) :
    ∃ piece ws, gap ++ part = piece ++ (ws ++ v) ∧ piece ≠ [] ∧ Blank ws ∧
      Takes anything (passStep (.separator, bracket :: stack)) piece
        (.inl (.value, bracket :: stack)) := by
  obtain ⟨⟩ | @⟨ws, ws', hws, hws'⟩ := hg
  cases h with
  | item =>
      refine ⟨ws ++ [','], ws', by simp, by simp, hws', ?_⟩
      exact .afterBlank (.afterFirst (fun _ _ => rfl) (.pure _)) (trims_peekWord.bind _) hws
  | member h =>
      obtain @⟨name, quoted, ws₁, ws₂, v, hn, h₁, h₂⟩ := h
      refine ⟨ws ++ ',' :: (ws' ++ (quoted ++ (ws₁ ++ [':']))), ws₂, by simp, by simp, h₂, ?_⟩
      refine .afterBlank ?_ (trims_peekWord.bind _) hws
      exact .afterFirst (fun _ _ => rfl) (takes_passMember stack hn hws' h₁)

/-- Goes on behind an opening bracket that has been passed over. -/
def passInside (bracket : Bracket) (stack : List Bracket) :
    Reader (Awaiting × List Bracket ⊕ Unit) := do
  match bracket, ← peekWord with
  | .list, none => fail .endInList
  | .object, none => fail .endInObject
  | .list, some ']' | .object, some '\x7d' => skip; return finished stack
  | .list, some _ => return .inl (.value, .list :: stack)
  | .object, some _ => passName; return .inl (.value, .object :: stack)

theorem trims_passInside (bracket : Bracket) (stack : List Bracket) :
    Trims (passInside bracket stack) :=
  trims_peekWord.bind _

theorem run_passStep_opening (bracket : Bracket) (stack : List Bracket) (rest : List Char)
    (p : Position) : StateT.run (passStep (.value, stack)) ⟨opening bracket :: rest, p⟩ =
      StateT.run (passInside bracket stack) ⟨rest, p.advance (opening bracket)⟩ := by
  cases bracket <;> rfl

/-- What begins like an item of a list. -/
def StartsItem (text : List Char) : Prop :=
  ∃ c rest, text = c :: rest ∧ Source.isBlank c = false ∧ c ≠ ']'

theorem startsItem_value {v : List Char} (hv : IsValue v) (tail : List Char) :
    StartsItem (v ++ tail) := by
  obtain ⟨c, rest, rfl, hc⟩ := hv.begins
  exact ⟨c, rest ++ tail, rfl, hc.blank, hc.close⟩

theorem takes_passInside_list (stack : List Bracket) :
    Takes StartsItem (passInside .list stack) [] (.inl (.value, .list :: stack)) := by
  rintro _ p ⟨c, rest, rfl, hblank, hclose⟩
  rw [List.nil_append, passInside, run_bind_ok (run_peekWord hblank rest p)]
  split
  · contradiction
  · contradiction
  · rename_i h
    exact absurd (Option.some.inj h) hclose
  · contradiction
  · rfl
  · contradiction

theorem takes_passInside_object (stack : List Bracket) {quoted ws : List Char} {name : String}
    (hn : IsString quoted name) (hws : Blank ws) :
    Takes anything (passInside .object stack) (quoted ++ (ws ++ [':']))
      (.inl (.value, .object :: stack)) := by
  have ht := takes_passMember stack hn .nil hws
  obtain ⟨inner, rfl, -⟩ := hn
  exact .ofFirst (fun _ _ => rfl) ht

/-- Behind an opening bracket, passing comes to the value of the first part. -/
theorem PartText.first {bracket : Bracket} {v part gap : List Char}
    (h : PartText bracket v part) (hv : IsValue v) (hg : Blank gap) (stack : List Bracket) :
    ∃ piece ws, opening bracket :: (gap ++ part) = piece ++ (ws ++ v) ∧ piece ≠ [] ∧ Blank ws ∧
      ∃ ahead, Takes ahead (passStep (.value, stack)) piece (.inl (.value, bracket :: stack)) ∧
        ∀ tail, ahead (ws ++ (v ++ tail)) := by
  cases h with
  | item =>
      have ht := (takes_passInside_list stack).afterBlank (trims_passInside _ _) hg
      exact ⟨'[' :: (gap ++ []), [], by simp [opening], by simp, .nil, StartsItem,
        .afterFirst (run_passStep_opening .list stack) ht, startsItem_value hv⟩
  | member h =>
      obtain @⟨name, quoted, ws₁, ws₂, v, hn, h₁, h₂⟩ := h
      have ht := (takes_passInside_object stack hn h₁).afterBlank (trims_passInside _ _) hg
      exact ⟨'\x7b' :: (gap ++ (quoted ++ (ws₁ ++ [':']))), ws₂, by simp [opening], by simp, h₂,
        anything, .afterFirst (run_passStep_opening .object stack) ht, fun _ => trivial⟩

/-- An opening bracket and a closing one with nothing between them. -/
theorem takes_passEmpty (bracket : Bracket) (stack : List Bracket) {ws : List Char}
    (hws : Blank ws) : Takes Stops (passStep (.value, stack))
      (opening bracket :: (ws ++ [closing bracket])) (finished stack) := by
  refine .afterFirst (run_passStep_opening bracket stack) ?_
  refine .afterBlank ?_ (trims_passInside bracket stack) hws
  cases bracket <;> exact .afterFirst (fun _ _ => rfl) (.pure _)

/-- After a part of a list or an object, the other parts are passed over up to the end. -/
theorem onward_parts {bracket : Bracket} {stack : List Bracket} {vs parts : List (List Char)}
    (hp : List.Forall₂ (PartText bracket) vs parts) (hv : ∀ v ∈ vs, Passes v) {text : List Char}
    (ht : Spaced (closing bracket) false parts text) {behind : List Char}
    (ho : Onward stack behind) : Onward (bracket :: stack) (text ++ behind) := by
  refine ⟨?_, fun tail _ => by rw [List.append_assoc]; exact stops_spaced (closing_eq bracket) ht _⟩
  -- after each part the machine stands at a separator of the same stack again
  induction hp generalizing text with
  | nil =>
      obtain ⟨ws, hws, rfl⟩ := ht.nil_inv
      exact ho.pieces (takes_passClosing bracket stack hws) (by simp)
  | @cons v part vs parts h hrest ih =>
      obtain ⟨gap, text, rfl, hg, t⟩ := ht.cons_inv
      obtain ⟨piece, ws, heq, hpiece, hws, htakes⟩ := PartText.next h hg stack
      have hbehind : Onward (bracket :: stack) (text ++ behind) :=
        ⟨ih (fun v hmem => hv v (List.mem_cons_of_mem _ hmem)) t,
          fun tail _ => by rw [List.append_assoc]; exact stops_spaced (closing_eq bracket) t _⟩
      have hvalue := hv v List.mem_cons_self (bracket :: stack) ws (text ++ behind) hws hbehind
      rw [← List.append_assoc, heq]
      simpa using Pieces.more htakes hpiece (fun _ _ => trivial) hvalue

/-- A list or an object is passed over if its parts are. -/
theorem passes_parts {bracket : Bracket} {vs parts : List (List Char)}
    (hp : List.Forall₂ (PartText bracket) vs parts) (hv : ∀ v ∈ vs, IsValue v ∧ Passes v)
    {text : List Char} (ht : Spaced (closing bracket) true parts text) :
    Passes (opening bracket :: text) := by
  intro stack ws behind hws ho
  cases hp with
  | nil =>
      obtain ⟨ws', hws', rfl⟩ := ht.nil_inv
      rw [← List.append_assoc]
      exact ho.pieces ((takes_passEmpty bracket stack hws').afterBlank (trims_peekWord.bind _) hws)
        (by simp)
  | @cons v part vs parts h hrest =>
      obtain ⟨gap, text, rfl, hg, t⟩ := ht.cons_inv
      obtain ⟨hgap⟩ := hg
      obtain ⟨hvalue, hpass⟩ := hv v List.mem_cons_self
      obtain ⟨piece, ws', heq, hpiece, hws', ahead, htakes, hahead⟩ :=
        PartText.first h hvalue hgap stack
      have hbehind : Onward (bracket :: stack) (text ++ behind) :=
        onward_parts hrest (fun v hmem => (hv v (List.mem_cons_of_mem _ hmem)).2) t ho
      -- the first step ends where the value of the first part begins, not where the part does
      have htext : ws ++ (opening bracket :: (gap ++ (part ++ text)) ++ behind) =
          ws ++ piece ++ (ws' ++ (v ++ (text ++ behind))) := by
        simpa using congrArg (ws ++ · ++ (text ++ behind)) heq
      rw [htext]
      exact .more (htakes.afterBlank (trims_peekWord.bind _) hws) (by simp [hpiece])
        (fun tail _ => by simpa using hahead (text ++ behind ++ tail))
        (hpass (bracket :: stack) ws' (text ++ behind) hws' hbehind)

theorem passes_word {c : Char} {word : List Char}
    (hr : ∀ stack rest p, StateT.run (passValue stack) ⟨c :: rest, p⟩ =
      StateT.run (do restOfWord word; return finished stack) ⟨rest, p.advance c⟩) :
    Passes (c :: word) :=
  passes_of_takes (List.cons_ne_nil _ _) fun stack =>
    .afterFirst (hr stack) ((takes_restOfWord Stops word).give rfl)

theorem run_passValue_numeral {c : Char} (h : c = '-' ∨ c.isDigit = true)
    (stack : List Bracket) (rest : List Char) (p : Position) :
    StateT.run (passValue stack) ⟨c :: rest, p⟩ =
      StateT.run (do passNumeral; return finished stack) ⟨c :: rest, p⟩ := by
  rw [passValue, run_bind_ok (run_peekWord (numeral_head h).1 rest p)]
  split <;> rename_i hc
  · contradiction
  all_goals obtain rfl := Option.some.inj hc
  all_goals first
    | exact absurd h (by decide)
    | rw [if_pos h]

/-- **Every value is passed over**, wherever it stands. -/
theorem passes_value {v : List Char} (h : IsValue v) : Passes v := by
  induction h with
  | null => exact passes_word fun _ _ _ => rfl
  | true => exact passes_word fun _ _ _ => rfl
  | false => exact passes_word fun _ _ _ => rfl
  | @numeral text h =>
      have ht := takes_passNumeral h
      obtain ⟨c, rest, rfl, hc⟩ := h.head
      exact passes_of_takes (List.cons_ne_nil _ _) fun stack =>
        .ofFirst (run_passValue_numeral hc stack) (ht.give rfl)
  | @string text s h =>
      have ht := takes_passQuoted h
      obtain ⟨inner, rfl, -⟩ := h
      exact passes_of_takes (List.cons_ne_nil _ _) fun stack =>
        .ofFirst (fun _ _ => rfl) (ht.ofAnything.give (f := fun _ => return finished stack) rfl)
  | @list text items h hi ih =>
      obtain ⟨ht⟩ := h
      have hp : List.Forall₂ (PartText .list) items items :=
        List.forall₂_same.mpr fun v _ => .item v
      exact passes_parts hp (fun v hv => ⟨hi v hv, ih v hv⟩) ht
  | @object text ms h hm ih =>
      obtain ⟨hp, ht⟩ := h
      have hp' : List.Forall₂ (PartText .object) (ms.map (·.2)) _ :=
        List.forall₂_map_left_iff.mpr (hp.imp fun _ _ => .member)
      refine passes_parts hp' (fun v hv => ?_) ht
      obtain ⟨m, hmem, rfl⟩ := List.mem_map.mp hv
      exact ⟨hm m hmem, ih m hmem⟩

/-- **A value is passed over with any blanks before it.** -/
theorem takes_pass {v ws : List Char} (h : IsValue v) (hws : Blank ws) :
    Takes Stops pass (ws ++ v) () := by
  have hp := passes_value h [] ws [] hws rfl
  rw [List.append_nil] at hp
  exact hp.takes

end Reader

end TaggedRecords.Json
