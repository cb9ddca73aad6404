import TaggedRecords.Json.Reader
import TaggedRecords.Proofs.Json.Texts

/-!
# JSON — what a reader takes

`Takes ahead reader text a` says that `reader` takes exactly `text` from the front of a source and
gives `a`, whatever stands behind `text` as long as it satisfies `ahead`.  Most readers look no
further than the text they take (`Takes anything`); a numeral has to see that it is over, so a
reader of values takes its text in front of what cannot continue a numeral (`Takes (Stops ·)`).

A loop takes a text that is cut into pieces, one for each step (`Pieces`).  **A loop whose steps
take the pieces takes the whole** (`Pieces.takes`): each piece but the last has a character, so
there are never more steps than the loop is allowed.
-/

namespace TaggedRecords.Json

/-- The place after `text`. -/
def Position.after (p : Position) (text : List Char) : Position := text.foldl .advance p

@[simp] theorem Position.after_cons (p : Position) (c : Char) (text : List Char) :
    p.after (c :: text) = (p.advance c).after text := rfl

@[simp] theorem Position.after_append (p : Position) (text text' : List Char) :
    p.after (text ++ text') = (p.after text).after text' :=
  List.foldl_append

theorem Source.isBlank_iff (c : Char) :
    isBlank c = true ↔ c = ' ' ∨ c = '\n' ∨ c = '\t' ∨ c = '\r' := by
  simp [isBlank, or_assoc]

namespace Reader

variable {α β σ : Type}

/-! ### Readers on a source -/

theorem run_bind_ok {reader : Reader α} {f : α → Reader β} {s s' : Source} {a : α}
    (h : StateT.run reader s = .ok (a, s')) :
    StateT.run (reader >>= f) s = StateT.run (f a) s' := by
  rw [StateT.run_bind, h]
  rfl

theorem run_bind_error {reader : Reader α} {f : α → Reader β} {s : Source} {e : Error}
    (h : StateT.run reader s = .error e) : StateT.run (reader >>= f) s = .error e := by
  rw [StateT.run_bind, h]
  rfl

theorem run_peek (s : Source) : StateT.run peek s = .ok (s.next?, s) := rfl

/-- Blanks are passed over only where there are some. -/
theorem trim_cons {c : Char} (h : Source.isBlank c = false) (rest : List Char) (p : Position) :
    Source.trim ⟨c :: rest, p⟩ = ⟨c :: rest, p⟩ := by
  simp [Source.trim, Source.span, h]

theorem run_peekWord {c : Char} (h : Source.isBlank c = false) (rest : List Char)
    (p : Position) : StateT.run peekWord ⟨c :: rest, p⟩ = .ok (some c, ⟨c :: rest, p⟩) := by
  show Except.ok ((Source.trim ⟨c :: rest, p⟩).next?, Source.trim ⟨c :: rest, p⟩) = _
  rw [trim_cons h]
  rfl

/-! ### Blanks -/

/-- `reader` passes over blanks before it looks at anything. -/
def Trims (reader : Reader α) : Prop :=
  ∀ ws, Blank ws → ∀ rest p,
    StateT.run reader ⟨ws ++ rest, p⟩ = StateT.run reader ⟨rest, p.after ws⟩

theorem trims_peekWord : Trims peekWord := by
  intro ws hws rest p
  have htrim : Source.trim ⟨ws ++ rest, p⟩ = Source.trim ⟨rest, p.after ws⟩ := by
    rw [Source.trim, Source.trim, Source.span, Source.span]
    dsimp only
    have hblank : ∀ c ∈ ws, Source.isBlank c = true := fun c hc =>
      (Source.isBlank_iff c).mpr (hws c hc)
    rw [List.takeWhile_append_of_pos hblank, List.dropWhile_append_of_pos hblank, List.foldl_append]
    rfl
  show Except.ok ((Source.trim _).next?, Source.trim _) = _
  rw [htrim]
  rfl

theorem Trims.bind {reader : Reader α} (h : Trims reader) (f : α → Reader β) :
    Trims (reader >>= f) := fun ws hws rest p => by
  rw [StateT.run_bind, h ws hws, StateT.run_bind]

/-! ### Taking a text -/

/-- No condition on what stands behind a text. -/
def anything (_ : List Char) : Prop := True

/-- What cannot continue a numeral: the next character, if there is one, is no digit, decimal
point or exponent mark. -/
def Stops (tail : List Char) : Prop :=
  ∀ c ∈ tail.head?, c.isDigit = false ∧ c ≠ '.' ∧ c ≠ 'e' ∧ c ≠ 'E'

theorem Stops.nil : Stops [] := by simp [Stops]

/-- What the punctuation between values begins cannot continue a numeral. -/
theorem Stops.cons {c : Char} (h : c = ',' ∨ c = ']' ∨ c = '\x7d') (rest : List Char) :
    Stops (c :: rest) := by
  rcases h with rfl | rfl | rfl <;> simp [Stops]

/-- Blanks before what cannot continue a numeral do not change that. -/
theorem Stops.afterBlank {ws text : List Char} (hws : Blank ws) (h : Stops text) :
    Stops (ws ++ text) := by
  cases ws with
  | nil => exact h
  | cons c ws => rcases hws c List.mem_cons_self with rfl | rfl | rfl | rfl <;> simp [Stops]

/-- `reader` takes `text` in front of anything that satisfies `ahead`, and gives `a`. -/
def Takes (ahead : List Char → Prop) (reader : Reader α) (text : List Char) (a : α) : Prop :=
  ∀ tail p, ahead tail → StateT.run reader ⟨text ++ tail, p⟩ = .ok (a, ⟨tail, p.after text⟩)

namespace Takes

variable {ahead ahead' : List Char → Prop} {reader : Reader α} {text : List Char} {a : α}

/-- A reader that takes a text in front of anything takes it in front of what it likes. -/
theorem weaken (h : Takes ahead' reader text a) (hw : ∀ tail, ahead tail → ahead' tail) :
    Takes ahead reader text a := fun tail p ht => h tail p (hw tail ht)

theorem ofAnything (h : Takes anything reader text a) : Takes ahead reader text a :=
  h.weaken fun _ _ => trivial

protected theorem pure (a : α) : Takes ahead (pure a : Reader α) [] a := fun _ _ _ => rfl

/-- One reader after another takes one text after another, if the second text with what stands
behind it may stand behind the first. -/
theorem bind {f : α → Reader β} {text' : List Char} {b : β} (h : Takes ahead' reader text a)
    (h' : Takes ahead (f a) text' b) (hw : ∀ tail, ahead tail → ahead' (text' ++ tail)) :
    Takes ahead (reader >>= f) (text ++ text') b := fun tail p ht => by
  rw [List.append_assoc, run_bind_ok (h _ p (hw tail ht)), h' tail _ ht, Position.after_append]

/-- A reader followed by one that takes nothing. -/
theorem give {f : α → Reader β} {b : β} (h : Takes ahead reader text a) (hf : f a = pure b) :
    Takes ahead (reader >>= f) text b := fun tail p ht => by
  rw [run_bind_ok (h tail p ht), hf]
  rfl

/-- A reader that looks at the first character and goes on as another one. -/
theorem ofFirst {reader' : Reader α} {c : Char}
    (hr : ∀ rest p, StateT.run reader ⟨c :: rest, p⟩ = StateT.run reader' ⟨c :: rest, p⟩)
    (h : Takes ahead reader' (c :: text) a) : Takes ahead reader (c :: text) a :=
  fun tail p ht => (hr _ p).trans (h tail p ht)

/-- A reader that takes the first character and goes on as another one. -/
theorem afterFirst {reader' : Reader α} {c : Char}
    (hr : ∀ rest p, StateT.run reader ⟨c :: rest, p⟩ = StateT.run reader' ⟨rest, p.advance c⟩)
    (h : Takes ahead reader' text a) : Takes ahead reader (c :: text) a :=
  fun tail p ht => (hr _ p).trans (h tail _ ht)

/-- A reader that passes over `gap` before a first character and goes on as another one. -/
theorem afterGap {reader' : Reader α} {gap : List Char} {c : Char}
    (hr : ∀ rest p, StateT.run reader ⟨gap ++ c :: rest, p⟩ =
      StateT.run reader' ⟨c :: rest, p.after gap⟩)
    (h : Takes ahead reader' (c :: text) a) : Takes ahead reader (gap ++ c :: text) a :=
  fun tail p ht => by
    rw [List.append_assoc, List.cons_append, hr, ← List.cons_append, h tail _ ht,
      Position.after_append]

/-- A reader that passes over blanks takes them with what it takes behind them. -/
theorem afterBlank (h : Takes ahead reader text a) (ht : Trims reader) {ws : List Char}
    (hws : Blank ws) : Takes ahead reader (ws ++ text) a := fun tail p ha => by
  rw [List.append_assoc, ht ws hws, h tail _ ha, Position.after_append]

/-- There is only one value that a reader gives for a text. -/
theorem unique {b : α} (h : Takes ahead reader text a) (h' : Takes ahead reader text b)
    (hn : ahead []) : a = b :=
  (Prod.mk.inj (Except.ok.inj ((h [] .start hn).symm.trans (h' [] .start hn)))).1

end Takes

/-- A word whose first character has been read. -/
theorem takes_restOfWord (ahead : List Char → Prop) :
    ∀ word : List Char, Takes ahead (restOfWord word) word ()
  | [] => .pure ()
  | c :: word => .afterFirst (fun rest p => by
      show StateT.run (if c = c then _ else _) _ = _
      rw [if_pos rfl]
      rfl) (takes_restOfWord ahead word)

/-! ### Loops -/

/-- The steps of a loop from `a` take `text` piece by piece and end with the answer `b`; every
piece but the last has a character. -/
inductive Pieces (ahead : List Char → Prop) (step : σ → Reader (σ ⊕ β)) :
    σ → List Char → β → Prop where
  | last {s : σ} {text : List Char} {b : β} (h : Takes ahead (step s) text (.inr b)) :
      Pieces ahead step s text b
  | more {ahead' : List Char → Prop} {s s' : σ} {piece text : List Char} {b : β}
      (h : Takes ahead' (step s) piece (.inl s')) (hp : piece ≠ [])
      (hw : ∀ tail, ahead tail → ahead' (text ++ tail)) (t : Pieces ahead step s' text b) :
      Pieces ahead step s (piece ++ text) b

/-- Steps that take the pieces of a text need no more fuel than the text has characters. -/
theorem Pieces.iterate {ahead : List Char → Prop} {step : σ → Reader (σ ⊕ β)} {s : σ}
    {text : List Char} {b : β} (h : Pieces ahead step s text b) :
    ∀ fuel, text.length < fuel → Takes ahead (Reader.iterate step fuel s) text b := by
  induction h with
  | last h =>
      rintro (_ | fuel) hf
      · exact absurd hf (Nat.not_lt_zero _)
      · exact h.give rfl
  | more h hp hw _ ih =>
      rintro (_ | fuel) hf
      · exact absurd hf (Nat.not_lt_zero _)
      · refine h.bind (ih fuel ?_) hw
        have := List.length_pos_iff.mpr hp
        rw [List.length_append] at hf
        omega

/-- **A loop takes a text that its steps take piece by piece.** -/
theorem Pieces.takes {ahead : List Char → Prop} {step : σ → Reader (σ ⊕ β)} {s : σ}
    {text : List Char} {b : β} (h : Pieces ahead step s text b) :
    Takes ahead (loop step s) text b := fun tail p ht => by
  have hf : text.length < (text ++ tail).length + 1 := by
    rw [List.length_append]
    omega
  exact h.iterate _ hf tail p ht

/-! ### Whole texts -/

/-- A reader that takes all of a text up to its end reads it. -/
theorem Takes.run_eq {ahead : List Char → Prop} {reader : Reader α} {text : List Char} {a : α}
    (h : Takes ahead reader text a) (hn : ahead []) : reader.run (.ofList text) = .ok a := by
  have hr := h [] .start hn
  rw [List.append_nil] at hr
  rw [Reader.run, Source.ofString, String.toList_ofList, StateT.run'_eq, run_bind_ok hr]
  rfl

/-- A reader that fails on a text refuses it. -/
theorem run_error {reader : Reader α} {text : List Char} {e : Error}
    (h : StateT.run reader ⟨text, .start⟩ = .error e) :
    reader.run (.ofList text) = .error e := by
  rw [Reader.run, Source.ofString, String.toList_ofList, StateT.run'_eq, run_bind_error h]
  rfl

end Reader

end TaggedRecords.Json
