import TaggedRecords.Json.Form
import TaggedRecords.Json.Document
import TaggedRecords.Proofs.Json.Taking

/-!
# JSON — lists and objects, part by part

The items of a list and the members of an object are read by loops of one shape
(`gatherStep`): look whether another part follows, take it, go on.

A loop whose parts are all taken takes their text (`Gathers.takes`); **a loop that cannot
take one of them, after taking those before it, refuses the whole** (`Stumbles.refuses`).
-/

namespace TaggedRecords.Json.Reader

variable {α β σ : Type}

/-! ### Refusing a text -/

/-- `reader` fails on `text`, whatever stands behind it. -/
def Refuses (reader : Reader α) (text : List Char) : Prop :=
  ∀ tail p, ∃ e, StateT.run reader ⟨text ++ tail, p⟩ = .error e

namespace Refuses

variable {reader : Reader α} {text : List Char}

theorem bind (h : Refuses reader text) (f : α → Reader β) : Refuses (reader >>= f) text :=
  fun tail p => by
    obtain ⟨e, he⟩ := h tail p
    exact ⟨e, run_bind_error he⟩

/-- A reader that passes over `gap` before a first character and goes on as another one. -/
theorem afterGap {reader' : Reader α} {gap : List Char} {c : Char}
    (hr : ∀ rest p, StateT.run reader ⟨gap ++ c :: rest, p⟩ =
      StateT.run reader' ⟨c :: rest, p.after gap⟩)
    (h : Refuses reader' (c :: text)) : Refuses reader (gap ++ c :: text) := fun tail p => by
  obtain ⟨e, he⟩ := h tail (p.after gap)
  exact ⟨e, by rw [List.append_assoc, List.cons_append, hr, ← List.cons_append, he]⟩

/-- A reader that passes over blanks refuses behind them what it refuses. -/
theorem afterBlank (h : Refuses reader text) (ht : Trims reader) {ws : List Char}
    (hws : Blank ws) : Refuses reader (ws ++ text) := fun tail p => by
  obtain ⟨e, he⟩ := h tail (p.after ws)
  exact ⟨e, by rw [List.append_assoc, ht ws hws, he]⟩

theorem append (h : Refuses reader text) (text' : List Char) : Refuses reader (text ++ text') :=
  fun tail p => by
    rw [List.append_assoc]
    exact h (text' ++ tail) p

/-- A reader that takes one text and goes on as one that refuses another. -/
theorem afterTaking {ahead : List Char → Prop} {text' : List Char} {a : α} {f : α → Reader β}
    (h : Takes ahead reader text a) (h' : Refuses (f a) text')
    (hw : ∀ tail, ahead (text' ++ tail)) : Refuses (reader >>= f) (text ++ text') :=
  fun tail p => by
    obtain ⟨e, he⟩ := h' tail (p.after text)
    exact ⟨e, by rw [List.append_assoc, run_bind_ok (h _ p (hw tail)), he]⟩

/-- A reader that looks at the first character and goes on as another one. -/
theorem ofFirst {reader' : Reader α} {c : Char}
    (hr : ∀ rest p, StateT.run reader ⟨c :: rest, p⟩ = StateT.run reader' ⟨c :: rest, p⟩)
    (h : Refuses reader' (c :: text)) : Refuses reader (c :: text) := fun tail p => by
  obtain ⟨e, he⟩ := h tail p
  exact ⟨e, (hr _ p).trans he⟩

/-- A reader that takes the first character and goes on as another one. -/
theorem afterFirst {reader' : Reader α} {c : Char}
    (hr : ∀ rest p, StateT.run reader ⟨c :: rest, p⟩ = StateT.run reader' ⟨rest, p.advance c⟩)
    (h : Refuses reader' text) : Refuses reader (c :: text) := fun tail p => by
  obtain ⟨e, he⟩ := h tail (p.advance c)
  exact ⟨e, (hr _ p).trans he⟩

end Refuses

/-! ### Parts of a list or an object -/

/-- One step of reading parts: `another` says whether one follows, `body` takes it. -/
def gatherStep (another : Bool → Reader Bool) (body : σ → Reader σ) (finish : σ → β) :
    Bool × σ → Reader (Bool × σ ⊕ β)
  | (first, s) => do
    if ← another first then return .inl (false, ← body s)
    else skip; return .inr (finish s)

/-- `another` sees parts that begin as `begins` says, commas between them and the bracket
`close` after them, and passes over blanks around any of these. -/
structure Separates (another : Bool → Reader Bool) (close : Char) (begins : Char → Prop) :
    Prop where
  trims : ∀ first, Trims (another first)
  first : ∀ {c}, begins c → ∀ rest p,
    StateT.run (another true) ⟨c :: rest, p⟩ = .ok (true, ⟨c :: rest, p⟩)
  next : ∀ {c}, begins c → ∀ ws, Blank ws → ∀ rest p,
    StateT.run (another false) ⟨',' :: (ws ++ c :: rest), p⟩ =
      .ok (true, ⟨c :: rest, (p.advance ',').after ws⟩)
  atClose : ∀ first rest p,
    StateT.run (another first) ⟨close :: rest, p⟩ = .ok (false, ⟨close :: rest, p⟩)

theorem separates_items :
    Separates anotherItem ']' fun c => Source.isBlank c = false ∧ c ≠ ']' where
  trims _ := trims_peekWord.bind _
  first {c} h rest p := by
    rw [anotherItem, run_bind_ok (run_peekWord h.1 rest p)]
    split
    · contradiction
    · rename_i h'
      exact absurd (Option.some.inj h') h.2
    · rfl
  next {c} h ws hws rest p := by
    have hskip : StateT.run skip ⟨',' :: (ws ++ c :: rest), p⟩ =
        .ok ((), ⟨ws ++ c :: rest, p.advance ','⟩) := rfl
    rw [anotherItem, run_bind_ok (run_peekWord rfl (ws ++ c :: rest) p)]
    show StateT.run (skip >>= fun _ => peekWord >>= _) _ = _
    rw [run_bind_ok hskip, trims_peekWord.bind _ ws hws, run_bind_ok (run_peekWord h.1 rest _)]
    split
    · contradiction
    · rename_i h'
      exact absurd (Option.some.inj h') h.2
    · rfl
  atClose _ _ _ := rfl

theorem separates_members : Separates anotherMember '\x7d' fun c => c = '"' where
  trims _ := trims_peekWord.bind _
  first := by rintro c rfl rest p; rfl
  next := by
    rintro c rfl ws hws rest p
    have hskip : StateT.run skip ⟨',' :: (ws ++ '"' :: rest), p⟩ =
        .ok ((), ⟨ws ++ '"' :: rest, p.advance ','⟩) := rfl
    rw [anotherMember, run_bind_ok (run_peekWord rfl (ws ++ '"' :: rest) p)]
    show StateT.run (skip >>= fun _ => peekWord >>= _) _ = _
    rw [run_bind_ok hskip, trims_peekWord.bind _ ws hws]
    rfl
  atClose _ _ _ := rfl

/-! ### Taking all parts -/

/-- `body` takes the parts one after another, from `s` to `s'`. -/
inductive Gathers (begins : Char → Prop) (body : σ → Reader σ) : σ → List (List Char) → σ → Prop
  where
  | nil (s : σ) : Gathers begins body s [] s
  | cons {s s' s'' : σ} {c : Char} {part : List Char} {parts : List (List Char)}
      (hb : begins c) (h : Takes Stops (body s) (c :: part) s')
      (t : Gathers begins body s' parts s'') : Gathers begins body s ((c :: part) :: parts) s''

/-- What follows a part cannot continue a numeral. -/
theorem stops_spaced {close : Char} (hclose : close = ']' ∨ close = '\x7d')
    {parts : List (List Char)} {text : List Char} (h : Spaced close false parts text)
    (tail : List Char) : Stops (text ++ tail) := by
  cases h with
  | close hws =>
      rw [List.append_assoc]
      exact .afterBlank hws (.cons (.inr hclose) _)
  | part hg _ =>
      cases hg with
      | next hws _ =>
          rw [List.append_assoc, List.append_assoc]
          exact .afterBlank hws (.cons (.inl rfl) _)

section

variable {another : Bool → Reader Bool} {close : Char} {begins : Char → Prop}
  {body : σ → Reader σ} {finish : σ → β}

theorem Separates.trims_gatherStep (hs : Separates another close begins) (s : Bool × σ) :
    Trims (gatherStep another body finish s) :=
  (hs.trims s.1).bind _

/-- The last step of a loop over parts takes the closing bracket. -/
theorem Separates.takes_close (hs : Separates another close begins) (first : Bool) (s : σ)
    {ws : List Char} (hws : Blank ws) :
    Takes anything (gatherStep another body finish (first, s)) (ws ++ [close])
      (.inr (finish s)) := by
  refine Takes.afterBlank (fun tail p _ => ?_) (hs.trims_gatherStep (first, s)) hws
  rw [gatherStep, List.singleton_append, run_bind_ok (hs.atClose first tail p)]
  rfl

/-- What may stand before a part is passed over where one is looked for. -/
theorem Separates.run_gap (hs : Separates another close begins) {first : Bool} {gap : List Char}
    (hg : Gap first gap) {c : Char} (hb : begins c) (rest : List Char) (p : Position) :
    StateT.run (another first) ⟨gap ++ c :: rest, p⟩ = .ok (true, ⟨c :: rest, p.after gap⟩) := by
  cases hg with
  | first hws => rw [hs.trims _ _ hws, hs.first hb]
  | next hws hws' =>
      rw [List.append_assoc, hs.trims _ _ hws, List.cons_append, hs.next hb _ hws',
        Position.after_append, Position.after_cons]

/-- Every other step takes what stands before a part, and then the part. -/
theorem Separates.run_part (hs : Separates another close begins) {first : Bool}
    {gap : List Char} (hg : Gap first gap) {c : Char} (hb : begins c) (s : σ)
    (rest : List Char) (p : Position) :
    StateT.run (gatherStep another body finish (first, s)) ⟨gap ++ c :: rest, p⟩ =
      StateT.run (do return .inl (false, ← body s)) ⟨c :: rest, p.after gap⟩ := by
  rw [gatherStep, run_bind_ok (hs.run_gap hg hb rest p)]
  rfl

theorem Separates.takes_part (hs : Separates another close begins) {first : Bool}
    {gap : List Char} (hg : Gap first gap) {c : Char} {part : List Char} {s s' : σ}
    (hb : begins c) (h : Takes Stops (body s) (c :: part) s') :
    Takes Stops (gatherStep another body finish (first, s)) (gap ++ c :: part)
      (.inl (false, s')) :=
  .afterGap (hs.run_part hg hb s) (h.give rfl)

/-- The pieces of the text of parts that are all taken. -/
theorem Gathers.pieces (hs : Separates another close begins)
    (hclose : close = ']' ∨ close = '\x7d') {s s' : σ} {parts : List (List Char)}
    (h : Gathers begins body s parts s') : ∀ {first text}, Spaced close first parts text →
    Pieces anything (gatherStep another body finish) (first, s) text (finish s') := by
  induction h with
  | nil s =>
      intro first text ht
      obtain ⟨ws, hws, rfl⟩ := ht.nil_inv
      exact .last (hs.takes_close first s hws)
  | cons hb h _ ih =>
      intro first text ht
      obtain ⟨gap, rest, rfl, hg, t⟩ := ht.cons_inv
      rw [← List.append_assoc]
      exact .more (hs.takes_part hg hb h) (by simp) (fun tail _ => stops_spaced hclose t tail)
        (ih t)

/-- **Parts that are all taken are taken together.** -/
theorem Gathers.takes (hs : Separates another close begins)
    (hclose : close = ']' ∨ close = '\x7d') (finish : σ → β) {s s' : σ}
    {parts : List (List Char)} {text : List Char} (h : Gathers begins body s parts s')
    (ht : Spaced close true parts text) :
    Takes anything (loop (gatherStep another body finish) (true, s)) text (finish s') :=
  (h.pieces hs hclose ht).takes

/-! ### Stumbling over a part -/

/-- `body` takes some parts one after another and refuses the next one. -/
inductive Stumbles (begins : Char → Prop) (body : σ → Reader σ) : σ → List (List Char) → Prop
  where
  | here {s : σ} {c : Char} {part : List Char} {parts : List (List Char)} (hb : begins c)
      (h : Refuses (body s) (c :: part)) : Stumbles begins body s ((c :: part) :: parts)
  | later {s s' : σ} {c : Char} {part : List Char} {parts : List (List Char)} (hb : begins c)
      (h : Takes Stops (body s) (c :: part) s') (t : Stumbles begins body s' parts) :
      Stumbles begins body s ((c :: part) :: parts)

theorem Separates.refuses_part (hs : Separates another close begins) {first : Bool}
    {gap : List Char} (hg : Gap first gap) {c : Char} {part : List Char} {s : σ} (hb : begins c)
    (h : Refuses (body s) (c :: part)) :
    Refuses (gatherStep another body finish (first, s)) (gap ++ c :: part) :=
  .afterGap (hs.run_part hg hb s) (h.bind _)

/-- However many steps are allowed, the loop does not get past the part that is refused. -/
theorem Stumbles.refuses_iterate (hs : Separates another close begins)
    (hclose : close = ']' ∨ close = '\x7d') {s : σ} {parts : List (List Char)}
    (h : Stumbles begins body s parts) : ∀ fuel {first text}, Spaced close first parts text →
    Refuses (Reader.iterate (gatherStep another body finish) fuel (first, s)) text := by
  induction h with
  | here hb h =>
      rintro (_ | fuel) first text ht
      · -- a loop that may not take a step fails
        exact fun _ _ => ⟨_, rfl⟩
      · obtain ⟨gap, rest, rfl, hg, -⟩ := ht.cons_inv
        rw [← List.append_assoc]
        exact ((hs.refuses_part hg hb h).bind _).append _
  | later hb h _ ih =>
      rintro (_ | fuel) first text ht
      · exact fun _ _ => ⟨_, rfl⟩
      · obtain ⟨gap, rest, rfl, hg, t⟩ := ht.cons_inv
        rw [← List.append_assoc]
        exact .afterTaking (hs.takes_part hg hb h) (ih fuel t) (stops_spaced hclose t)

/-- **A part that is refused spoils the whole.** -/
theorem Stumbles.refuses (hs : Separates another close begins)
    (hclose : close = ']' ∨ close = '\x7d') (finish : σ → β) {s : σ} {parts : List (List Char)}
    {text : List Char} (h : Stumbles begins body s parts) (ht : Spaced close true parts text) :
    Refuses (loop (gatherStep another body finish) (true, s)) text :=
  fun tail p => h.refuses_iterate hs hclose _ ht tail p

end

/-! ### Colons -/

theorem trims_colon : Trims colon := trims_peekWord.bind _

theorem Takes.afterColon {ahead : List Char → Prop} {reader : Reader α} {text : List Char} {a : α}
    (h : Takes ahead reader text a) : Takes ahead (do colon; reader) (':' :: text) a :=
  .afterFirst (fun _ _ => rfl) h

theorem Refuses.afterColon {reader : Reader α} {text : List Char} (h : Refuses reader text) :
    Refuses (do colon; reader) (':' :: text) :=
  .afterFirst (fun _ _ => rfl) h

end TaggedRecords.Json.Reader
