import TaggedRecords.Proofs.Json.Forms
import TaggedRecords.Proofs.Json.Passing

/-!
# JSON — which values a reader accepts

`Reads reader Is` says what `reader` does with every value: it takes the values that `Is` gives a
meaning, with that meaning, and refuses all others.  This is so of the readers of strings
(`reads_string`) and of natural numbers (`reads_count`), and of those of optional values, lists and
maps if it is so of the readers that these are made of (`reads_optional`, `reads_list`,
`reads_map`).

A reader that takes or refuses every value, whatever stands behind it, *settles* (`Settles`); it
reads what it makes of the value alone (`Settles.reads`).
-/

namespace TaggedRecords.Json.Reader

variable {α β σ μ : Type}

/-- `reader` takes the values that `Is` gives a meaning, and refuses all others. -/
structure Reads (reader : Reader α) (Is : List Char → α → Prop) : Prop where
  trims : Trims reader
  isValue : ∀ {v a}, Is v a → IsValue v
  takes : ∀ {v a}, Is v a → Takes Stops reader v a
  refuses : ∀ {v}, IsValue v → (∀ a, ¬ Is v a) → Refuses reader v

/-- `reader` takes or refuses every value. -/
structure Settles (reader : Reader α) : Prop where
  trims : Trims reader
  takes_or_refuses : ∀ {v}, IsValue v → (∃ a, Takes Stops reader v a) ∨ Refuses reader v

theorem Reads.settles {reader : Reader α} {Is : List Char → α → Prop} (h : Reads reader Is) :
    Settles reader where
  trims := h.trims
  takes_or_refuses {v} hv := by
    by_cases ha : ∃ a, Is v a
    · obtain ⟨a, ha⟩ := ha
      exact .inl ⟨a, h.takes ha⟩
    · exact .inr (h.refuses hv (not_exists.mp ha))

/-! ### Whole texts -/

theorem run_endOfText {ws : List Char} (hws : Blank ws) (p : Position) :
    StateT.run endOfText ⟨ws, p⟩ = .ok ((), ⟨[], p.after ws⟩) := by
  have htrims : Trims endOfText := trims_peekWord.bind _
  have h := htrims ws hws [] p
  rw [List.append_nil] at h
  exact h

section

variable {reader : Reader α} {v ws ws' : List Char} {text : String} {a : α}

/-- Blanks around a value that is taken do not matter. -/
theorem Takes.run_spaced (h : Takes Stops reader v a) (ht : Trims reader)
    (htext : text.toList = ws ++ (v ++ ws')) (hws : Blank ws) (hws' : Blank ws') :
    reader.run text = .ok a := by
  have hstops : Stops ws' := by simpa using Stops.nil.afterBlank hws'
  have hr := (h.afterBlank ht hws) ws' .start hstops
  rw [Reader.run, Source.ofString, htext, ← List.append_assoc, StateT.run'_eq, run_bind_ok hr,
    run_bind_ok (run_endOfText hws' _)]
  rfl

theorem Refuses.run_spaced (h : Refuses reader v) (ht : Trims reader)
    (htext : text.toList = ws ++ (v ++ ws')) (hws : Blank ws) :
    ∃ e, reader.run text = .error e := by
  obtain ⟨e, he⟩ := (h.afterBlank ht hws) ws' .start
  refine ⟨e, ?_⟩
  rw [Reader.run, Source.ofString, htext, ← List.append_assoc, StateT.run'_eq, run_bind_error he]
  rfl

end

/-- A reader that settles takes exactly what it gives for a value alone. -/
theorem Settles.takes_iff {reader : Reader α} (h : Settles reader) {v : List Char}
    (hv : IsValue v) {a : α} : Takes Stops reader v a ↔ reader.run (.ofList v) = .ok a := by
  refine ⟨fun ht => ht.run_eq .nil, fun hr => ?_⟩
  rcases h.takes_or_refuses hv with ⟨b, hb⟩ | hn
  · rw [hb.run_eq .nil] at hr
    rwa [← Except.ok.inj hr]
  · obtain ⟨e, he⟩ := hn [] .start
    rw [List.append_nil] at he
    rw [run_error he] at hr
    contradiction

/-- **A reader that settles reads what it makes of a value alone.** -/
theorem Settles.reads {reader : Reader α} (h : Settles reader) :
    Reads reader fun v a => IsValue v ∧ reader.run (.ofList v) = .ok a where
  trims := h.trims
  isValue h := h.1
  takes ha := (h.takes_iff ha.1).mpr ha.2
  refuses hv hn := by
    rcases h.takes_or_refuses hv with ⟨a, ha⟩ | hr
    · exact absurd ⟨hv, (h.takes_iff hv).mp ha⟩ (hn a)
    · exact hr

theorem Reads.run_iff {reader : Reader α} {Is : List Char → α → Prop} (h : Reads reader Is)
    {v : List Char} (hv : IsValue v) {a : α} : reader.run (.ofList v) = .ok a ↔ Is v a := by
  rw [← h.settles.takes_iff hv]
  refine ⟨fun ht => ?_, h.takes⟩
  by_contra hn
  by_cases hb : ∃ b, Is v b
  · obtain ⟨b, hb⟩ := hb
    exact hn (ht.unique (h.takes hb) .nil ▸ hb)
  · obtain ⟨e, he⟩ := h.refuses hv (not_exists.mp hb) [] .start
    rw [ht [] .start .nil] at he
    contradiction

/-- A value has one meaning. -/
theorem Reads.unique {reader : Reader α} {Is : List Char → α → Prop} (h : Reads reader Is)
    {v : List Char} {a b : α} (ha : Is v a) (hb : Is v b) : a = b :=
  (h.takes ha).unique (h.takes hb) .nil

/-- What is read is put into something else. -/
theorem Reads.map {reader : Reader α} {Is : List Char → α → Prop} (h : Reads reader Is)
    (f : α → β) : Reads (do return f (← reader)) fun v b => ∃ a, Is v a ∧ b = f a where
  trims := h.trims.bind _
  isValue := fun ⟨_, ha, _⟩ => h.isValue ha
  takes := by
    rintro v b ⟨a, ha, rfl⟩
    exact (h.takes ha).give rfl
  refuses hv hn := (h.refuses hv fun a ha => hn (f a) ⟨a, ha, rfl⟩).bind _

/-! ### Values of another form -/

/-- `reader` fails on every text. -/
def Fails (reader : Reader α) : Prop := ∀ s, ∃ e, StateT.run reader s = .error e

theorem fails_fail (fault : Fault) : Fails (fail fault : Reader α) := fun _ => ⟨_, rfl⟩

theorem fails_failNext (fault : Fault) : Fails (failNext fault : Reader α) := fun _ => ⟨_, rfl⟩

theorem Fails.bind {reader : Reader α} {f : α → Reader β} (h : ∀ a, Fails (f a)) :
    Fails (reader >>= f) := fun s => by
  rw [StateT.run_bind]
  cases StateT.run reader s with
  | error e => exact ⟨e, rfl⟩
  | ok r => exact h r.1 r.2

theorem fails_otherForm (expected : String) : Fails (otherForm expected : Reader α) := by
  refine .bind fun next => ?_
  split
  · exact fails_fail _
  · exact .bind fun _ => .bind fun _ => fails_fail _
  · exact .bind fun _ => .bind fun _ => fails_fail _
  · exact .bind fun _ => .bind fun _ => fails_fail _
  · exact .bind fun _ => fails_fail _
  · exact fails_fail _
  · exact fails_fail _
  · split
    · exact .bind fun _ => fails_fail _
    · exact fails_failNext _

/-- A reader that fails once it has seen the first character. -/
theorem refuses_of_first {f : Option Char → Reader α} {c : Char} {text : List Char}
    (hb : Source.isBlank c = false) (hf : Fails (f (some c))) :
    Refuses (peekWord >>= f) (c :: text) := fun tail p => by
  rw [List.cons_append, run_bind_ok (run_peekWord hb _ p)]
  exact hf _

/-! ### Single values -/

theorem reads_string : Reads string IsString where
  trims := trims_peekWord.bind _
  isValue := .string
  takes h := by
    have ht := takes_isString h
    obtain ⟨inner, rfl, -⟩ := h
    exact .ofFirst (fun _ _ => rfl) ht.ofAnything
  refuses hv hn := by
    obtain ⟨c, text, rfl, hc⟩ := hv.begins
    refine refuses_of_first hc.blank ?_
    split
    · rename_i h
      obtain ⟨s, hs⟩ := hc.string (Option.some.inj h)
      exact absurd hs (hn s)
    · exact fails_otherForm _

/-- A natural number of 64 bits, written in digits alone. -/
def IsCount (v : List Char) (n : UInt64) : Prop :=
  Whole v ∧ Nat.ofDigitChars 10 v 0 = n.toNat

/-- A numeral that is read as a natural number is written in digits alone, and fits. -/
theorem whole_of_integer {text tail : List Char} {p : Position} {s' : Source} {n : Int}
    (h : IsNumeral text) (hr : StateT.run numeral ⟨text ++ tail, p⟩ = .ok (.integer n, s'))
    (hn : 0 ≤ n) : Whole text ∧ Nat.ofDigitChars 10 text 0 ≤ maxSignificand := by
  obtain @⟨sign, whole, fraction, exponent, hs, hw, hf, he⟩ := h
  rcases hs with rfl | rfl
  · have hu : StateT.run (unsignedNumeral false)
        ⟨whole ++ (fraction ++ exponent ++ tail), p⟩ = .ok (.integer n, s') := by
      obtain ⟨d, digits, rfl⟩ := List.exists_cons_of_ne_nil hw.1.1
      rw [List.nil_append, List.append_assoc] at hr
      exact (run_numeral_unsigned (hw.1.2 d List.mem_cons_self) _ p).symm.trans hr
    obtain ⟨hends, hle, -⟩ := unsignedNumeral_integer hu
    dsimp only at hends hle
    rw [List.dropWhile_append_of_pos hw.1.2] at hends
    rw [List.takeWhile_append_of_pos hw.1.2, Nat.ofDigitChars_append] at hle
    -- a fraction or an exponent would be seen behind the digits
    cases hf with
    | digits _ => exact absurd rfl (hends '.' rfl).1
    | absent =>
        cases he with
        | absent =>
            rw [List.append_nil, List.nil_append, List.append_nil]
            exact ⟨hw, Nat.le_trans (le_ofDigitChars _ _) hle⟩
        | digits hm _ _ =>
            rcases hm with rfl | rfl
            · exact absurd rfl (hends 'e' rfl).2.1
            · exact absurd rfl (hends 'E' rfl).2.2
  · have hu : StateT.run (unsignedNumeral true)
        ⟨whole ++ (fraction ++ exponent) ++ tail, p.advance '-'⟩ = .ok (.integer n, s') := hr
    obtain ⟨-, -, hneg⟩ := unsignedNumeral_integer hu
    rw [wholeNumber, if_pos rfl] at hneg
    split at hneg
    · have := Number.integer.inj hneg
      omega
    · contradiction

/-- An integer is refused if the numeral stands for none that is in range. -/
theorem integer_error {convert : Int → Option α} {expected : String} {c : Char}
    {rest : List Char} {p : Position} (hc : c = '-' ∨ c.isDigit = true)
    (h : ∀ n s', StateT.run numeral ⟨c :: rest, p⟩ = .ok (.integer n, s') → convert n = none) :
    ∃ e, StateT.run (integer convert expected) ⟨c :: rest, p⟩ = .error e := by
  rw [integer, run_bind_ok (run_peekWord (numeral_head hc).1 _ p)]
  dsimp only
  rw [if_pos hc]
  cases hr : StateT.run numeral ⟨c :: rest, p⟩ with
  | error e => exact ⟨e, run_bind_error hr⟩
  | ok r =>
      obtain ⟨number, s'⟩ := r
      rw [run_bind_ok hr]
      cases number with
      | integer n =>
          simp only [h n s' hr]
          exact fails_fail _ _
      | real negative x => exact fails_fail _ _

theorem reads_count : Reads count IsCount where
  trims := trims_peekWord.bind _
  isValue := by
    intro v n h
    have hnumeral := IsNumeral.mk (.inl rfl) h.1 .absent .absent
    rw [List.nil_append, List.append_nil, List.append_nil] at hnumeral
    exact .numeral hnumeral
  takes := by
    intro v n h
    have hn := n.toNat_lt
    have ht := takes_numeral_unsigned h.1 (by rw [h.2, maxSignificand]; omega)
    obtain ⟨d, digits, rfl⟩ := List.exists_cons_of_ne_nil h.1.1.1
    rw [h.2] at ht
    exact takes_integer (.inr (h.1.1.2 d List.mem_cons_self)) ht (by simp)
  refuses := by
    intro v hv hn
    obtain ⟨c, text, rfl, hc⟩ := hv.begins
    by_cases hnumeral : c = '-' ∨ c.isDigit = true
    · refine fun tail p => integer_error hnumeral fun n s' hr => if_neg fun hpos => ?_
      obtain ⟨hw, hle⟩ := whole_of_integer (hc.numeral hnumeral) hr hpos
      have hlt : Nat.ofDigitChars 10 (c :: text) 0 < 2 ^ 64 := by
        rw [maxSignificand] at hle
        omega
      exact hn _ ⟨hw, (UInt64.toNat_ofNat_of_lt' hlt).symm⟩
    · refine refuses_of_first hc.blank ?_
      show Fails (if c = '-' ∨ c.isDigit = true then _ else _)
      rw [if_neg hnumeral]
      exact fails_otherForm _

/-- A value, or `null` for none. -/
inductive Nullable (Is : List Char → α → Prop) : List Char → Option α → Prop
  | null : Nullable Is nullText none
  | some {v : List Char} {a : α} (h : Is v a) : Nullable Is v (some a)

theorem reads_optional {reader : Reader α} {Is : List Char → α → Prop} (h : Reads reader Is)
    (hnull : ∀ a, ¬ Is nullText a) : Reads (optional reader) (Nullable Is) where
  trims := trims_peekWord.bind _
  isValue := by
    rintro _ _ (_ | ha)
    · exact .null
    · exact h.isValue ha
  takes := by
    rintro _ _ (_ | @⟨v, a, ha⟩)
    · exact .afterFirst (fun _ _ => rfl)
        ((takes_restOfWord Stops _).give (f := fun _ => return none) rfl)
    · obtain ⟨c, rest, rfl, hc⟩ := (h.isValue ha).begins
      have hn : c ≠ 'n' := fun hn => hnull a (hc.null hn ▸ ha)
      exact .ofFirst (run_optional reader hc.blank hn)
        ((h.takes ha).give (f := fun a => return some a) rfl)
  refuses := by
    intro v hv hn
    obtain ⟨c, rest, rfl, hc⟩ := hv.begins
    have hn' : c ≠ 'n' := fun h => hn none (hc.null h ▸ .null)
    exact .ofFirst (run_optional reader hc.blank hn')
      ((h.refuses hv fun a ha => hn (some a) (.some ha)).bind _)

/-! ### Loops -/

/-- A run from `s` to `s'`, one step of `R` for each of the parts. -/
inductive Builds (R : σ → μ → σ → Prop) : σ → List μ → σ → Prop
  | nil (s : σ) : Builds R s [] s
  | cons {s s' s'' : σ} {m : μ} {ms : List μ} (h : R s m s') (t : Builds R s' ms s'') :
      Builds R s (m :: ms) s''

theorem Builds.append {R : σ → μ → σ → Prop} {ms ms' : List μ} {s s'' : σ} :
    Builds R s (ms ++ ms') s'' ↔ ∃ s', Builds R s ms s' ∧ Builds R s' ms' s'' := by
  constructor
  · intro h
    induction ms generalizing s with
    | nil => exact ⟨s, .nil s, h⟩
    | cons m ms ih =>
        obtain _ | ⟨hm, t⟩ := h
        obtain ⟨s', h, h'⟩ := ih t
        exact ⟨s', .cons hm h, h'⟩
  · rintro ⟨s', h, h'⟩
    induction h with
    | nil s => exact h'
    | cons hm _ ih => exact .cons hm (ih h')

/-- A step that adds the meaning of a part to what there is. -/
def Adds (Is : μ → α → Prop) (add : σ → α → σ) (s : σ) (m : μ) (s' : σ) : Prop :=
  ∃ a, Is m a ∧ s' = add s a

theorem builds_adds {Is : μ → α → Prop} {add : σ → α → σ} {ms : List μ} {s s' : σ} :
    Builds (Adds Is add) s ms s' ↔ ∃ as, List.Forall₂ Is ms as ∧ s' = as.foldl add s := by
  constructor
  · intro h
    induction h with
    | nil s => exact ⟨[], .nil, rfl⟩
    | cons hm _ ih =>
        obtain ⟨a, ha, rfl⟩ := hm
        obtain ⟨as, has, rfl⟩ := ih
        exact ⟨a :: as, .cons ha has, rfl⟩
  · rintro ⟨as, has, rfl⟩
    induction has generalizing s with
    | nil => exact .nil s
    | cons ha _ ih => exact .cons ⟨_, ha, rfl⟩ ih

/-- `body` takes the parts that `R` has a step for, and refuses all others. -/
structure ReadsParts (begins : Char → Prop) (PartOf : μ → List Char → Prop)
    (body : σ → Reader σ) (R : σ → μ → σ → Prop) : Prop where
  begins : ∀ {m part}, PartOf m part → ∃ c rest, part = c :: rest ∧ begins c
  takes_part : ∀ {m part s s'}, PartOf m part → R s m s' → Takes Stops (body s) part s'
  refuses_part : ∀ {m part s}, PartOf m part → (∀ s', ¬ R s m s') → Refuses (body s) part

section

variable {another : Bool → Reader Bool} {close : Char} {begins : Char → Prop}
  {PartOf : μ → List Char → Prop} {body : σ → Reader σ} {R : σ → μ → σ → Prop}
  {ms : List μ} {parts : List (List Char)} {text : List Char} {s s' : σ}

theorem ReadsParts.gathers (h : ReadsParts begins PartOf body R)
    (hp : List.Forall₂ PartOf ms parts) (hb : Builds R s ms s') :
    Gathers begins body s parts s' := by
  induction hp generalizing s with
  | nil =>
      cases hb
      exact .nil _
  | cons hm _ ih =>
      obtain _ | ⟨hr, t⟩ := hb
      have ht := h.takes_part hm hr
      obtain ⟨c, rest, rfl, hc⟩ := h.begins hm
      exact .cons hc ht (ih t)

theorem ReadsParts.stumbles (h : ReadsParts begins PartOf body R)
    (hp : List.Forall₂ PartOf ms parts) (hb : ∀ s', ¬ Builds R s ms s') :
    Stumbles begins body s parts := by
  induction hp generalizing s with
  | nil => exact absurd (.nil s) (hb s)
  | @cons m part ms parts hm _ ih =>
      have hbegins := h.begins hm
      by_cases hr : ∃ s', R s m s'
      · obtain ⟨s', hr⟩ := hr
        have ht := h.takes_part hm hr
        obtain ⟨c, rest, rfl, hc⟩ := hbegins
        exact .later hc ht (ih fun s'' t => hb s'' (.cons hr t))
      · have ht := h.refuses_part hm (not_exists.mp hr)
        obtain ⟨c, rest, rfl, hc⟩ := hbegins
        exact .here hc ht

variable {Is : μ → α → Prop} {add : σ → α → σ}

/-- A loop over parts takes them all if each has a meaning. -/
theorem ReadsParts.takes (h : ReadsParts begins PartOf body (Adds Is add))
    (hs : Separates another close begins) (hclose : close = ']' ∨ close = '\x7d')
    (finish : σ → β) (s : σ) (hp : List.Forall₂ PartOf ms parts)
    (ht : Spaced close true parts text) {as : List α} (has : List.Forall₂ Is ms as) :
    Takes anything (loop (gatherStep another body finish) (true, s)) text
      (finish (as.foldl add s)) :=
  (h.gathers hp (builds_adds.mpr ⟨as, has, rfl⟩)).takes hs hclose finish ht

/-- A loop over parts refuses them if one has no meaning. -/
theorem ReadsParts.refuses (h : ReadsParts begins PartOf body (Adds Is add))
    (hs : Separates another close begins) (hclose : close = ']' ∨ close = '\x7d')
    (finish : σ → β) (s : σ) (hp : List.Forall₂ PartOf ms parts)
    (ht : Spaced close true parts text) (hn : ∀ as, ¬ List.Forall₂ Is ms as) :
    Refuses (loop (gatherStep another body finish) (true, s)) text := by
  refine (h.stumbles hp fun s' hb => ?_).refuses hs hclose finish ht
  obtain ⟨as, has, -⟩ := builds_adds.mp hb
  exact hn as has

end

/-! ### Lists -/

/-- A list of values that each have a meaning. -/
def ListOf (Is : List Char → α → Prop) (v : List Char) (as : List α) : Prop :=
  ∃ items, IsList items v ∧ List.Forall₂ Is items as

/-- An item of a list is its own text. -/
def ItemText (item part : List Char) : Prop := part = item ∧ IsValue item

theorem forall₂_itemText {items : List (List Char)} (h : ∀ item ∈ items, IsValue item) :
    List.Forall₂ ItemText items items :=
  List.forall₂_same.mpr fun item hi => ⟨rfl, h item hi⟩

theorem readsParts_items {item : Reader α} {Is : List Char → α → Prop} (h : Reads item Is) :
    ReadsParts BeginsItem ItemText (itemsBody item) (Adds Is fun done a => a :: done) where
  begins := by
    rintro v _ ⟨rfl, hv⟩
    obtain ⟨c, rest, rfl, hc⟩ := hv.begins
    exact ⟨c, rest, rfl, hc.blank, hc.close⟩
  takes_part := by
    rintro v _ done _ ⟨rfl, -⟩ ⟨a, ha, rfl⟩
    exact takes_itemsBody done (h.takes ha)
  refuses_part := by
    rintro v _ done ⟨rfl, hv⟩ hn
    exact (h.refuses hv fun a ha => hn _ ⟨a, ha, rfl⟩).bind _

theorem reads_list {item : Reader α} {Is : List Char → α → Prop} (h : Reads item Is) :
    Reads (list item) (ListOf Is) where
  trims := trims_peekWord.bind _
  isValue := fun ⟨_, hv, _⟩ => .list hv.1 hv.2
  takes := by
    rintro _ as ⟨items, ⟨⟨ht⟩, hi⟩, has⟩
    have hg := (readsParts_items h).takes separates_items (.inl rfl) List.reverse []
      (forall₂_itemText hi) ht has
    rw [← items_eq, List.foldl_flip_cons_eq_append, List.append_nil, List.map_id',
      List.reverse_reverse] at hg
    exact .afterFirst (fun _ _ => rfl) hg.ofAnything
  refuses := by
    intro v hv hn
    obtain ⟨c, text, rfl, hc⟩ := hv.begins
    by_cases hl : c = '['
    · obtain ⟨items, hitems⟩ := hc.list hl
      obtain ⟨⟨ht⟩, hi⟩ := id hitems
      have hg := (readsParts_items h).refuses separates_items (.inl rfl) List.reverse []
        (forall₂_itemText hi) ht fun as has => hn as ⟨items, hitems, has⟩
      rw [← items_eq] at hg
      exact .afterFirst (fun _ _ => rfl) hg
    · refine refuses_of_first hc.blank ?_
      split
      · rename_i h
        exact absurd (Option.some.inj h) hl
      · exact fails_otherForm _

/-! ### Objects -/

/-- A member of an object with a value. -/
def MemberOf (m : Member) (part : List Char) : Prop := MemberText m part ∧ IsValue m.2

theorem forall₂_memberOf {ms : List Member} {parts : List (List Char)}
    (hp : List.Forall₂ MemberText ms parts) (h : ∀ m ∈ ms, IsValue m.2) :
    List.Forall₂ MemberOf ms parts := by
  induction hp with
  | nil => exact .nil
  | cons hm _ ih =>
      exact .cons ⟨hm, h _ List.mem_cons_self⟩ (ih fun m hmem => h m (List.mem_cons_of_mem _ hmem))

theorem MemberOf.begins {m : Member} {part : List Char} (h : MemberOf m part) :
    ∃ c rest, part = c :: rest ∧ BeginsMember c := by
  obtain ⟨@⟨name, quoted, ws, ws', v, hn, -, -⟩, -⟩ := h
  obtain ⟨inner, rfl, -⟩ := hn
  exact ⟨'"', _, rfl, rfl⟩

/-- A member is taken by taking its name, the colon and its value. -/
theorem MemberOf.takes {m : Member} {part : List Char} (h : MemberOf m part)
    {f : String → Reader β} {reader : Reader β} {b : β} (hf : f m.1 = do colon; reader)
    (hr : ∀ ws, Blank ws → Takes Stops reader (ws ++ m.2) b) :
    Takes Stops (do f (← quoted)) part b := by
  obtain ⟨@⟨name, quoted, ws, ws', v, hn, hws, hws'⟩, -⟩ := h
  refine (takes_isString hn).bind ?_ fun _ _ => trivial
  rw [hf]
  exact .afterBlank (.afterColon (hr ws' hws')) (trims_colon.bind _) hws

theorem MemberOf.refuses {m : Member} {part : List Char} (h : MemberOf m part)
    {f : String → Reader β} {reader : Reader β} (hf : f m.1 = do colon; reader)
    (hr : ∀ ws, Blank ws → Refuses reader (ws ++ m.2)) :
    Refuses (do f (← quoted)) part := by
  obtain ⟨@⟨name, quoted, ws, ws', v, hn, hws, hws'⟩, -⟩ := h
  refine .afterTaking (takes_isString hn) ?_ fun _ => trivial
  rw [hf]
  exact .afterBlank (.afterColon (hr ws' hws')) (trims_colon.bind _) hws

/-- A member is refused if reading fails once its name is known. -/
theorem MemberOf.refuses_name {m : Member} {part : List Char} (h : MemberOf m part)
    {f : String → Reader β} (hf : Fails (f m.1)) : Refuses (do f (← quoted)) part := by
  obtain ⟨@⟨name, quoted, ws, ws', v, hn, -, -⟩, -⟩ := h
  exact .afterTaking (takes_isString hn) (fun _ _ => hf _) fun _ => trivial

/-! ### Maps -/

/-- The binding that a member stands for. -/
def BindingOf (Is : List Char → α → Prop) (m : Member) (e : String × α) : Prop :=
  m.1 = e.1 ∧ Is m.2 e.2

/-- An object with names, and values that each have a meaning, the last one of a name counting. -/
def MapOf (Is : List Char → α → Prop) (v : List Char) (m : SortedMap String α) : Prop :=
  ∃ ms es, IsObject ms v ∧ List.Forall₂ (BindingOf Is) ms es ∧ m = .ofList es

theorem readsParts_entries {value : Reader α} {Is : List Char → α → Prop}
    (h : Reads value Is) : ReadsParts BeginsMember MemberOf (entriesBody value)
      (Adds (BindingOf Is) fun done e => done.insert e.1 e.2) where
  begins := MemberOf.begins
  takes_part := by
    rintro m part done _ hp ⟨⟨name, a⟩, ⟨rfl, he⟩, rfl⟩
    exact hp.takes rfl fun ws hws => ((h.takes he).afterBlank h.trims hws).give rfl
  refuses_part := by
    intro m part done hp hn
    exact hp.refuses rfl fun ws hws => ((h.refuses hp.2 fun a ha =>
      hn _ ⟨(m.1, a), ⟨rfl, ha⟩, rfl⟩).afterBlank h.trims hws).bind _

theorem reads_map {value : Reader α} {Is : List Char → α → Prop} (h : Reads value Is) :
    Reads (map value) (MapOf Is) where
  trims := trims_peekWord.bind _
  isValue := fun ⟨_, _, hv, _⟩ => .object hv.1 hv.2
  takes := by
    rintro _ _ ⟨ms, es, ⟨⟨hp, ht⟩, hm⟩, hes, rfl⟩
    have hg := (readsParts_entries h).takes separates_members (.inr rfl) id .empty
      (forall₂_memberOf hp hm) ht hes
    rw [← entries_eq] at hg
    exact .afterFirst (fun _ _ => rfl) hg.ofAnything
  refuses := by
    intro v hv hn
    obtain ⟨c, text, rfl, hc⟩ := hv.begins
    by_cases hl : c = '\x7b'
    · obtain ⟨ms, hms⟩ := hc.object hl
      obtain ⟨⟨hp, ht⟩, hm⟩ := id hms
      have hg := (readsParts_entries h).refuses separates_members (.inr rfl) id .empty
        (forall₂_memberOf hp hm) ht fun es hes => hn _ ⟨ms, es, hms, hes, rfl⟩
      rw [← entries_eq] at hg
      exact .afterFirst (fun _ _ => rfl) hg
    · refine refuses_of_first hc.blank ?_
      split
      · rename_i h
        exact absurd (Option.some.inj h) hl
      · exact fails_otherForm _

end TaggedRecords.Json.Reader
