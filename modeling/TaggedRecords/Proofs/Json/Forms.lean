import TaggedRecords.Json.Form
import TaggedRecords.Proofs.Json.Documents

/-!
# JSON — what is written is read back

A reader undoes a way to write values as JSON if it takes the text of each value and gives that
value (`Undoes`).  Strings, flags and numbers are read back, and so are lists and maps of what is
read back.

A structure is read field by field into a draft.  **A form undoes a way to write structures as
objects if the members lead from the blank draft to one that makes the structure**
(`Undoes.form`); each member under the name of a field fills that field (`Gathers.field`), and a
member that may be left out does so if it is there (`Gathers.part`).
-/

namespace TaggedRecords.Json.Reader

variable {α β δ : Type}

/-- `reader` reads back whatever `write` writes.  The text begins neither like a blank or the end
of a list nor like `null`, so that it may stand wherever a value may. -/
def Undoes (reader : Reader α) (write : α → Value) : Prop :=
  ∀ a, ∃ c text, Document.chars (write a) = c :: text ∧
    (Source.isBlank c = false ∧ c ≠ ']' ∧ c ≠ 'n') ∧ Takes Stops reader (c :: text) a

theorem Undoes.takes {reader : Reader α} {write : α → Value} (h : Undoes reader write) (a : α) :
    Takes Stops reader (Document.chars (write a)) a := by
  obtain ⟨c, text, hc, -, ht⟩ := h a
  rwa [hc]

/-- **What is written as a whole text is read back.** -/
theorem Undoes.run_write {reader : Reader α} {write : α → Value} (h : Undoes reader write)
    (a : α) : reader.run (Document.write (write a)) = .ok a :=
  (h.takes a).run_eq .nil

/-! ### Single values -/

theorem undoes_string : Undoes string .string := fun s =>
  ⟨'"', _, rfl, by decide, .ofFirst (fun _ _ => rfl) (takes_quoted s).ofAnything⟩

theorem undoes_flag : Undoes flag .bool
  | true => ⟨'t', _, rfl, by decide, .afterFirst (fun _ _ => rfl)
      ((takes_restOfWord Stops _).give (f := fun _ => return true) rfl)⟩
  | false => ⟨'f', _, rfl, by decide, .afterFirst (fun _ _ => rfl)
      ((takes_restOfWord Stops _).give (f := fun _ => return false) rfl)⟩

/-- A numeral that is an integer, if it is in range. -/
theorem takes_integer {convert : Int → Option α} {expected : String} {c : Char}
    {text : List Char} {n : Int} {a : α} (hc : c = '-' ∨ c.isDigit = true)
    (h : Takes Stops numeral (c :: text) (.integer n)) (ha : convert n = some a) :
    Takes Stops (integer convert expected) (c :: text) a := by
  intro tail p hs
  rw [integer, List.cons_append, run_bind_ok (run_peekWord (numeral_head hc).1 _ p)]
  show StateT.run (if c = '-' ∨ c.isDigit = true then _ else _) _ = _
  rw [if_pos hc, ← List.cons_append, run_bind_ok (h tail p hs)]
  simp only [ha]
  rfl

/-- Integers that `convert` undoes the writing of. -/
theorem undoes_integer {convert : Int → Option α} {expected : String} {write : α → Int}
    (hbound : ∀ a, -0x8000000000000000 ≤ write a ∧ write a ≤ 0xFFFFFFFFFFFFFFFF)
    (hconvert : ∀ a, convert (write a) = some a) :
    Undoes (integer convert expected) fun a => .number (.integer (write a)) := fun a => by
  obtain ⟨c, text, hc, hn⟩ := toString_head (write a)
  obtain ⟨hblank, hend⟩ := numeral_head hn
  have hn' : c ≠ 'n' := by
    rintro rfl
    exact absurd hn (by decide)
  have ht := takes_numeral (hbound a).1 (hbound a).2
  rw [hc] at ht
  exact ⟨c, text, hc, ⟨hblank, hend, hn'⟩, takes_integer hn ht (hconvert a)⟩

theorem undoes_count : Undoes count fun n => .number (.integer n.toNat) :=
  undoes_integer (fun n => by have := n.toNat_lt; omega) fun n => by simp

theorem undoes_word32 : Undoes word32 fun n => .number (.integer n.toInt) := by
  have hbound : ∀ n : Int32, -0x80000000 ≤ n.toInt ∧ n.toInt < 0x80000000 := fun n =>
    ⟨n.le_toInt, n.toInt_lt⟩
  refine undoes_integer (fun n => ?_) fun n => ?_
  · have := hbound n
    omega
  · rw [if_pos (hbound n), Int32.ofInt_toInt]

/-- What is read is turned into something else, which is turned back before it is written. -/
theorem Undoes.wrap {reader : Reader α} {write : α → Value} (h : Undoes reader write)
    {f : α → β} {g : β → α} (hfg : ∀ b, f (g b) = b) :
    Undoes (do return f (← reader)) fun b => write (g b) := fun b => by
  obtain ⟨c, text, hc, hhead, ht⟩ := h (g b)
  exact ⟨c, text, hc, hhead, ht.give (f := fun a => return f a) (by rw [hfg])⟩

/-- What does not begin as `null` does is no absent value. -/
theorem run_optional (reader : Reader α) {c : Char} (hblank : Source.isBlank c = false)
    (hn : c ≠ 'n') (rest : List Char) (p : Position) :
    StateT.run (optional reader) ⟨c :: rest, p⟩ =
      StateT.run (do return some (← reader)) ⟨c :: rest, p⟩ := by
  rw [optional, run_bind_ok (run_peekWord hblank rest p)]
  split
  · rename_i h
    exact absurd (Option.some.inj h) hn
  · rfl

/-- Reading also what may be `null`. -/
theorem Undoes.optional {reader : Reader α} {write : α → Value} (h : Undoes reader write) (a : α) :
    Takes Stops (optional reader) (Document.chars (write a)) (some a) := by
  obtain ⟨c, text, hc, ⟨hblank, -, hn⟩, ht⟩ := h a
  rw [hc]
  exact .ofFirst (run_optional reader hblank hn) (ht.give (f := fun a => return some a) rfl)

/-! ### Lists and maps -/

theorem Undoes.gathers_list {item : Reader α} {write : α → Value} (h : Undoes item write)
    (as done : List α) : Gathers BeginsItem (itemsBody item) done
      ((as.map write).map Document.chars) (as.reverse ++ done) := by
  induction as generalizing done with
  | nil => exact .nil done
  | cons a rest ih =>
      obtain ⟨c, text, hc, ⟨hblank, hend, -⟩, ht⟩ := h a
      have hrest := ih (a :: done)
      rw [List.map_cons, List.map_cons, List.reverse_cons, List.append_assoc, hc]
      exact .cons ⟨hblank, hend⟩ (takes_itemsBody done ht) hrest

theorem Undoes.list {item : Reader α} {write : α → Value} (h : Undoes item write) :
    Undoes (list item) fun as => .array (as.map write) := fun as => by
  have hg := (h.gathers_list as []).takes separates_items (.inl rfl) List.reverse
      (spaced_enclosed ..)
  rw [← items_eq, List.append_nil, List.reverse_reverse] at hg
  exact ⟨'[', _, chars_array _, by decide, .afterFirst (fun _ _ => rfl) hg.ofAnything⟩

/-- Takes one more entry of a map. -/
def entriesBody (value : Reader α) (done : SortedMap String α) : Reader (SortedMap String α) := do
  let name ← quoted
  colon
  return done.insert name (← value)

theorem entries_eq (value : Reader α) :
    entries value = loop (gatherStep anotherMember (entriesBody value) id) (true, .empty) := by
  unfold entries
  congr 1
  ext s
  obtain ⟨first, done⟩ := s
  simp [gatherStep, entriesBody]

/-- The member that a binding is written as. -/
def entryMember (write : α → Value) (e : String × α) : String × Value := (e.1, write e.2)

/-- Bindings that come in ascending order are bound one behind the other. -/
theorem Undoes.gathers_map {value : Reader α} {write : α → Value} (h : Undoes value write)
    {m : SortedMap String α} (es : List (String × α)) (done : SortedMap String α)
    (hm : m.entries = done.entries ++ es) : Gathers BeginsMember (entriesBody value) done
      ((es.map (entryMember write)).map memberText) m := by
  induction es generalizing done with
  | nil =>
      obtain rfl : m = done := SortedMap.ext_entries (hm.trans (List.append_nil _))
      exact .nil m
  | cons e rest ih =>
      have hlast : (done.insert e.1 e.2).entries = done.entries ++ [e] := by
        refine SortedMap.place_last fun e' he' => ?_
        have hsorted := m.ascending
        rw [hm] at hsorted
        exact (List.pairwise_append.mp hsorted).2.2 e' he' e List.mem_cons_self
      have hrest := ih (done.insert e.1 e.2)
        (by rw [hm, hlast, List.append_assoc]; rfl)
      have he : Takes Stops (entriesBody value done) (memberText (entryMember write e))
          (done.insert e.1 e.2) :=
        (takes_quoted e.1).bind (.afterColon ((h.takes e.2).give rfl)) fun _ _ => trivial
      exact .cons rfl he hrest

theorem Undoes.map {value : Reader α} {write : α → Value} (h : Undoes value write) :
    Undoes (map value) fun m => .object (m.entries.map (entryMember write)) := fun m => by
  have hg := (h.gathers_map m.entries .empty rfl).takes separates_members (.inr rfl) id
      (spaced_enclosed ..)
  rw [← entries_eq] at hg
  exact ⟨'\x7b', _, chars_object _, by decide, .afterFirst (fun _ _ => rfl) hg.ofAnything⟩

/-! ### Structures -/

/-- Takes one more member of a structure. -/
def formBody (form : Form δ α) (draft : δ) : Reader δ := do form.member draft (← quoted)

theorem object_eq (form : Form δ α) :
    form.object = (do
      let draft ← loop (gatherStep anotherMember (formBody form) id) (true, form.blank)
      match form.finish draft with
      | .ok a => return a
      | .error i => fail (.missingField ((form.fields[i]?.map Field.name).getD ""))) := by
  unfold Form.object
  congr 2
  ext s
  obtain ⟨first, draft⟩ := s
  simp [gatherStep, formBody]

theorem takes_object (form : Form δ α) {text : List Char} {draft : δ} {a : α}
    (h : Takes anything (loop (gatherStep anotherMember (formBody form) id) (true, form.blank))
      text draft) (hf : form.finish draft = .ok a) : Takes anything form.object text a := by
  rw [object_eq]
  exact h.give (by rw [hf])

/-- A member under the name of a field that the draft lacks fills that field. -/
theorem takes_formBody {form : Form δ α} {names : List String} {reader : Reader β}
    {get : δ → Option β} {set : δ → β → δ} {d : δ} {name : String} {v : Value} {b : β}
    (hf : form.fields.find? (·.names.contains name) = some (.ofLens names reader get set))
    (hd : get d = none) (h : Takes Stops reader (Document.chars v) b) :
    Takes Stops (formBody form d) (memberText (name, v)) (set d b) := by
  refine (takes_quoted name).bind (f := form.member d) ?_ fun _ _ => trivial
  have hm : form.member d name = do colon; return set d (← reader) := by
    rw [Form.member, hf]
    show (if (get d).isSome then _ else _) = _
    rw [hd]
    rfl
  rw [hm]
  exact .afterColon (h.give rfl)

namespace Gathers

variable {form : Form δ α} {names : List String} {reader : Reader β} {write : β → Value}
  {get : δ → Option β} {set : δ → β → δ} {d d' : δ} {name : String}
  {ms : List (String × Value)}

/-- A field that is always written. -/
theorem field (h : Undoes reader write)
    (hf : form.fields.find? (·.names.contains name) = some (.ofLens names reader get set))
    (hd : get d = none) (b : β)
    (t : Gathers BeginsMember (formBody form) (set d b) (ms.map memberText) d') :
    Gathers BeginsMember (formBody form) d (((name, write b) :: ms).map memberText) d' :=
  .cons rfl (takes_formBody hf hd (h.takes b)) t

/-- A field that is left out where there is nothing to write. -/
theorem part {get : δ → Option (Option β)} {set : δ → Option β → δ} (h : Undoes reader write)
    (hf : form.fields.find? (·.names.contains name) =
      some (.ofLens names (Reader.optional reader) get set))
    (hd : get d = none) (b : Option β)
    (t : Gathers BeginsMember (formBody form) (b.elim d fun b => set d (some b))
      (ms.map memberText) d') :
    Gathers BeginsMember (formBody form) d
      (((b.map fun b => (name, write b)).toList ++ ms).map memberText) d' := by
  cases b with
  | none => exact t
  | some b => exact .cons rfl (takes_formBody hf hd (h.optional b)) t

end Gathers

theorem Undoes.form {form : Form δ α} {write : α → Value}
    (h : ∀ a, ∃ ms d, write a = .object ms ∧
      Gathers BeginsMember (formBody form) form.blank (ms.map memberText) d ∧
      form.finish d = .ok a) : Undoes form.read write := fun a => by
  obtain ⟨ms, d, hw, hg, hd⟩ := h a
  have ho := takes_object form
    (hg.takes separates_members (.inr rfl) id (spaced_enclosed ..)) hd
  rw [hw, chars_object]
  exact ⟨'\x7b', _, rfl, by decide, .afterFirst (fun _ _ => rfl) ho.ofAnything⟩

end TaggedRecords.Json.Reader
