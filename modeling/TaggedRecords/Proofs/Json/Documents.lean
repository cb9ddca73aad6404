import TaggedRecords.Json.Document
import TaggedRecords.Proofs.Json.Gathering
import TaggedRecords.Proofs.Json.Numerals
import TaggedRecords.Proofs.Json.Strings

/-!
# JSON — documents are read back

A value is *plain* when its numbers are integers of 64 bits and its objects list their members in
ascending order of names (`Value.Plain`): the values that have a text of their own.

**The text of a plain value is read as that value if no more lists and objects stand inside each
other than there is room for, and is refused otherwise** (`value_chars`).  So `Document.read` reads
back what `Document.write` writes exactly up to `maxDepth` (`read_write`, `read_write_deep`).
-/

namespace TaggedRecords.Json

namespace Value

mutual

/-- How many lists and objects stand inside each other. -/
def depth : Value → Nat
  | .null | .bool _ | .number _ | .string _ => 0
  | .array items => 1 + depthItems items
  | .object members => 1 + depthMembers members

def depthItems : List Value → Nat
  | [] => 0
  | v :: rest => max (depth v) (depthItems rest)

def depthMembers : List (String × Value) → Nat
  | [] => 0
  | m :: rest => max (depth m.2) (depthMembers rest)

end

mutual

/-- All numbers are integers of 64 bits, and members are listed in ascending order of names. -/
def Plain : Value → Prop
  | .null | .bool _ | .string _ => True
  | .number (.integer n) => -0x8000000000000000 ≤ n ∧ n ≤ 0xFFFFFFFFFFFFFFFF
  | .number (.real _ _) => False
  | .array items => PlainItems items
  | .object members => (members.Pairwise fun m n => compare m.1 n.1 = .lt) ∧ PlainMembers members

def PlainItems : List Value → Prop
  | [] => True
  | v :: rest => Plain v ∧ PlainItems rest

def PlainMembers : List (String × Value) → Prop
  | [] => True
  | m :: rest => Plain m.2 ∧ PlainMembers rest

end

end Value

/-! ### Texts of lists and objects -/

/-- The text of a member of an object. -/
def memberText (m : String × Value) : List Char :=
  Quoted.encode m.1.toList ++ ':' :: Document.chars m.2

theorem itemChars_eq : ∀ vs : List Value,
    Document.itemChars vs = enclosed ']' false (vs.map Document.chars)
  | [] => rfl
  | v :: rest => by
      rw [Document.itemChars, itemChars_eq rest]
      rfl

theorem chars_array (vs : List Value) :
    Document.chars (.array vs) = '[' :: enclosed ']' true (vs.map Document.chars) := by
  cases vs with
  | nil => rfl
  | cons v rest =>
      rw [Document.chars, itemChars_eq rest]
      rfl

theorem memberChars_eq : ∀ ms : List (String × Value),
    Document.memberChars ms = enclosed '\x7d' false (ms.map memberText)
  | [] => rfl
  | m :: rest => by
      rw [Document.memberChars, memberChars_eq rest]
      rfl

theorem chars_object (ms : List (String × Value)) :
    Document.chars (.object ms) = '\x7b' :: enclosed '\x7d' true (ms.map memberText) := by
  cases ms with
  | nil => rfl
  | cons m rest =>
      rw [Document.chars, memberChars_eq rest]
      rfl

/-- Members that are written without blanks are an object. -/
theorem isObject_enclosed {v : List Char} {ms : List Member}
    (hv : v = '\x7b' ::
      enclosed '\x7d' true (ms.map fun m => Quoted.encode m.1.toList ++ ':' :: m.2))
    (hm : ∀ m ∈ ms, IsValue m.2) : IsObject ms v := by
  subst hv
  have hp : List.Forall₂ MemberText ms
      (ms.map fun m => Quoted.encode m.1.toList ++ ':' :: m.2) :=
    List.forall₂_map_right_iff.mpr (List.forall₂_same.mpr fun m _ =>
      .mk (Quoted.isString_encode m.1) .nil .nil)
  exact ⟨.mk hp (spaced_enclosed '\x7d' true _), hm⟩

/-- An integer begins with a digit or a minus sign. -/
theorem toString_head (n : Int) : ∃ c rest, (toString n).toList = c :: rest ∧
    (c = '-' ∨ c.isDigit = true) := by
  rw [Int.toString_eq_repr, Int.repr_eq_if]
  split
  · obtain ⟨d, digits, hd, hdigit, -⟩ := toDigits_head n.toNat
    exact ⟨d, digits, by rw [Nat.toList_repr, hd], .inr hdigit⟩
  · exact ⟨'-', _, by rw [String.toList_append]; rfl, .inl rfl⟩

/-- A written value begins with neither a blank nor a closing bracket. -/
theorem chars_head : ∀ v : Value, v.Plain →
    ∃ c rest, Document.chars v = c :: rest ∧ Source.isBlank c = false ∧ c ≠ ']'
  | .null, _ | .bool true, _ | .bool false, _ => ⟨_, _, rfl, by decide⟩
  | .number (.integer n), _ => by
      obtain ⟨c, rest, hc, h⟩ := toString_head n
      exact ⟨c, rest, hc, numeral_head h⟩
  | .number (.real _ _), h => h.elim
  | .string _, _ => ⟨_, _, rfl, by decide⟩
  | .array vs, _ => ⟨_, _, chars_array vs, by decide⟩
  | .object ms, _ => ⟨_, _, chars_object ms, by decide⟩

namespace Reader

/-! ### Loops over items and members -/

/-- Takes one more item of a list. -/
def itemsBody {α : Type} (item : Reader α) (done : List α) : Reader (List α) :=
  return (← item) :: done

theorem items_eq {α : Type} (item : Reader α) :
    items item = loop (gatherStep anotherItem (itemsBody item) List.reverse) (true, []) := by
  unfold items
  congr 1
  ext s
  obtain ⟨first, done⟩ := s
  simp [gatherStep, itemsBody]

theorem takes_itemsBody {α : Type} {item : Reader α} {text : List Char} {a : α} (done : List α)
    (h : Takes Stops item text a) : Takes Stops (itemsBody item done) text (a :: done) :=
  h.give rfl

/-- Takes one more member of an object. -/
def membersBody (value : Reader Value) (done : List (String × Value)) :
    Reader (List (String × Value)) := do
  let name ← quoted
  colon
  return Members.insert name (← value) done

theorem members_eq (value : Reader Value) :
    members value = loop (gatherStep anotherMember (membersBody value) id) (true, []) := by
  unfold members
  congr 1
  ext s
  obtain ⟨first, done⟩ := s
  simp [gatherStep, membersBody]

theorem takes_membersBody {value : Reader Value} {m : String × Value}
    (done : List (String × Value)) (h : Takes Stops value (Document.chars m.2) m.2) :
    Takes Stops (membersBody value done) (memberText m) (Members.insert m.1 m.2 done) :=
  (takes_quoted m.1).bind (.afterColon (h.give rfl)) fun _ _ => trivial

theorem refuses_membersBody {value : Reader Value} {m : String × Value}
    (done : List (String × Value)) (h : Refuses value (Document.chars m.2)) :
    Refuses (membersBody value done) (memberText m) :=
  .afterTaking (takes_quoted m.1) (.afterColon (h.bind _)) fun _ => trivial

/-- A name beyond those that are bound is bound behind them. -/
theorem insert_last {m : String × Value} (done : List (String × Value))
    (h : ∀ n ∈ done, compare n.1 m.1 = .lt) : Members.insert m.1 m.2 done = done ++ [m] := by
  induction done with
  | nil => rfl
  | cons n rest ih =>
      have hn := h n List.mem_cons_self
      rw [Members.insert, Std.OrientedOrd.eq_swap, hn]
      exact congrArg (n :: ·) (ih fun n hn => h n (List.mem_cons_of_mem _ hn))

/-! ### Values -/

/-- What an item of a list and a member of an object begin with. -/
abbrev BeginsItem (c : Char) : Prop := Source.isBlank c = false ∧ c ≠ ']'

abbrev BeginsMember (c : Char) : Prop := c = '"'

section

variable (room : Nat) (rest : List Char) (p : Position)

theorem run_value_string : StateT.run (value room) ⟨'"' :: rest, p⟩ =
    StateT.run (do return .string (← quoted)) ⟨'"' :: rest, p⟩ := by
  rw [value.eq_def]
  rfl

theorem run_value_list : StateT.run (value (room + 1)) ⟨'[' :: rest, p⟩ =
    StateT.run (do return .array (← items (value room))) ⟨rest, p.advance '['⟩ := by
  rw [value]
  rfl

theorem run_value_object : StateT.run (value (room + 1)) ⟨'\x7b' :: rest, p⟩ =
    StateT.run (do return .object (← members (value room))) ⟨rest, p.advance '\x7b'⟩ := by
  rw [value]
  rfl

theorem run_value_numeral {c : Char} (h : c = '-' ∨ c.isDigit = true) :
    StateT.run (value room) ⟨c :: rest, p⟩ =
      StateT.run (do return .number (← numeral)) ⟨c :: rest, p⟩ := by
  rw [value.eq_def, run_bind_ok (run_peekWord (numeral_head h).1 rest p)]
  split <;> rename_i hc
  · contradiction
  all_goals obtain rfl := Option.some.inj hc
  all_goals first
    | exact absurd h (by decide)
    | rw [if_pos h]

end

theorem takes_value_word {room : Nat} {v : Value} {c : Char} {word : List Char}
    (hr : ∀ rest p, StateT.run (value room) ⟨c :: rest, p⟩ =
      StateT.run (do restOfWord word; return v) ⟨rest, p.advance c⟩) :
    Takes Stops (value room) (c :: word) v :=
  .afterFirst hr ((takes_restOfWord Stops word).give rfl)

mutual

/-- **The text of a plain value is read as that value**, if there is room. -/
theorem takes_value : ∀ (v : Value) (room : Nat), v.Plain → v.depth ≤ room →
    Takes Stops (value room) (Document.chars v) v
  | .null, _, _, _ | .bool true, _, _, _ | .bool false, _, _, _ =>
      takes_value_word fun _ _ => by rw [value.eq_def]; rfl
  | .number (.integer n), room, h, _ => by
      obtain ⟨c, text, hc, hn⟩ := toString_head n
      have ht := takes_numeral h.1 h.2
      rw [Document.chars]
      rw [hc] at ht ⊢
      exact .ofFirst (fun rest p => run_value_numeral room rest p hn) (ht.give rfl)
  | .number (.real _ _), _, h, _ => h.elim
  | .string s, room, _, _ =>
      .ofFirst (run_value_string room) ((takes_quoted s).ofAnything.give rfl)
  | .array vs, 0, _, hd => absurd hd (by rw [Value.depth]; omega)
  | .array vs, room + 1, h, hd => by
      rw [Value.depth] at hd
      have hv := (gathers_items vs room [] h (by omega)).takes separates_items (.inl rfl)
        List.reverse (spaced_enclosed ..)
      rw [← items_eq, List.append_nil, List.reverse_reverse] at hv
      rw [chars_array]
      exact .afterFirst (run_value_list room) (hv.ofAnything.give rfl)
  | .object ms, 0, _, hd => absurd hd (by rw [Value.depth]; omega)
  | .object ms, room + 1, h, hd => by
      rw [Value.depth] at hd
      have hm := (gathers_members ms room [] h.2 (by omega) h.1).takes separates_members
        (.inr rfl) id (spaced_enclosed ..)
      rw [← members_eq] at hm
      rw [chars_object]
      exact .afterFirst (run_value_object room) (hm.ofAnything.give rfl)

theorem gathers_items : ∀ (vs : List Value) (room : Nat) (done : List Value),
    Value.PlainItems vs → Value.depthItems vs ≤ room →
      Gathers BeginsItem (itemsBody (value room)) done (vs.map Document.chars) (vs.reverse ++ done)
  | [], _, done, _, _ => .nil done
  | v :: rest, room, done, h, hd => by
      rw [Value.depthItems] at hd
      obtain ⟨c, text, hc, hb⟩ := chars_head v h.1
      have hv := takes_itemsBody done (takes_value v room h.1 (by omega))
      have hrest := gathers_items rest room (v :: done) h.2 (by omega)
      rw [List.map_cons, List.reverse_cons, List.append_assoc]
      rw [hc] at hv ⊢
      exact .cons hb hv hrest

theorem gathers_members : ∀ (ms : List (String × Value)) (room : Nat)
    (done : List (String × Value)), Value.PlainMembers ms → Value.depthMembers ms ≤ room →
      (done ++ ms).Pairwise (fun m n => compare m.1 n.1 = .lt) →
      Gathers BeginsMember (membersBody (value room)) done (ms.map memberText) (done ++ ms)
  | [], _, done, _, _, _ => by
      rw [List.append_nil]
      exact .nil done
  | m :: rest, room, done, h, hd, ha => by
      rw [Value.depthMembers] at hd
      -- names ascend, so this member is bound behind those before it
      have hlast := insert_last done fun n hn => (List.pairwise_append.mp ha).2.2 n hn m (by simp)
      have hm := takes_membersBody done (takes_value m.2 room h.1 (by omega))
      rw [hlast] at hm
      rw [List.append_cons] at ha ⊢
      exact .cons rfl hm (gathers_members rest room (done ++ [m]) h.2 (by omega) ha)

end

/-! ### Values that are too deep -/

theorem refuses_list_zero (text : List Char) : Refuses (value 0) ('[' :: text) := fun tail p => by
  rw [value]
  exact ⟨_, rfl⟩

theorem refuses_object_zero (text : List Char) : Refuses (value 0) ('\x7b' :: text) :=
  fun tail p => by
    rw [value]
    exact ⟨_, rfl⟩

mutual

/-- **The text of a plain value is refused** if there is too little room. -/
theorem refuses_value : ∀ (v : Value) (room : Nat), v.Plain → room < v.depth →
    Refuses (value room) (Document.chars v)
  | .null, _, _, hd | .bool _, _, _, hd | .number _, _, _, hd | .string _, _, _, hd =>
      absurd hd (by rw [Value.depth]; omega)
  | .array vs, 0, _, _ => by
      rw [chars_array]
      exact refuses_list_zero _
  | .array vs, room + 1, h, hd => by
      rw [Value.depth] at hd
      have hv := (stumbles_items vs room [] h (by omega)).refuses separates_items (.inl rfl)
        List.reverse (spaced_enclosed ..)
      rw [← items_eq] at hv
      rw [chars_array]
      exact .afterFirst (run_value_list room) (hv.bind _)
  | .object ms, 0, _, _ => by
      rw [chars_object]
      exact refuses_object_zero _
  | .object ms, room + 1, h, hd => by
      rw [Value.depth] at hd
      have hm := (stumbles_members ms room [] h.2 (by omega)).refuses separates_members (.inr rfl)
        id (spaced_enclosed ..)
      rw [← members_eq] at hm
      rw [chars_object]
      exact .afterFirst (run_value_object room) (hm.bind _)

theorem stumbles_items : ∀ (vs : List Value) (room : Nat) (done : List Value),
    Value.PlainItems vs → room < Value.depthItems vs →
      Stumbles BeginsItem (itemsBody (value room)) done (vs.map Document.chars)
  | [], _, _, _, hd => absurd hd (Nat.not_lt_zero _)
  | v :: rest, room, done, h, hd => by
      rw [Value.depthItems] at hd
      obtain ⟨c, text, hc, hb⟩ := chars_head v h.1
      rw [List.map_cons]
      by_cases hv : v.depth ≤ room
      · -- this item is taken, and a later one is refused
        have ht := takes_itemsBody done (takes_value v room h.1 hv)
        rw [hc] at ht ⊢
        exact .later hb ht (stumbles_items rest room (v :: done) h.2 (by omega))
      · have hr : Refuses (itemsBody (value room) done) (Document.chars v) :=
          (refuses_value v room h.1 (by omega)).bind _
        rw [hc] at hr ⊢
        exact .here hb hr

theorem stumbles_members : ∀ (ms : List (String × Value)) (room : Nat)
    (done : List (String × Value)), Value.PlainMembers ms → room < Value.depthMembers ms →
      Stumbles BeginsMember (membersBody (value room)) done (ms.map memberText)
  | [], _, _, _, hd => absurd hd (Nat.not_lt_zero _)
  | m :: rest, room, done, h, hd => by
      rw [Value.depthMembers] at hd
      by_cases hv : m.2.depth ≤ room
      · exact .later rfl (takes_membersBody done (takes_value m.2 room h.1 hv))
          (stumbles_members rest room _ h.2 (by omega))
      · exact .here rfl (refuses_membersBody done (refuses_value m.2 room h.1 (by omega)))

end

end Reader

namespace Document

/-- **A plain value within the limit is read back from its text.** -/
theorem read_write {v : Value} (h : v.Plain) (hd : v.depth ≤ maxDepth) :
    read (write v) = .ok v :=
  (Reader.takes_value v maxDepth h hd).run_eq .nil

/-- A plain value beyond the limit is refused. -/
theorem read_write_deep {v : Value} (h : v.Plain) (hd : maxDepth < v.depth) :
    ∃ e, read (write v) = .error e := by
  obtain ⟨e, he⟩ := Reader.refuses_value v maxDepth h hd [] .start
  rw [List.append_nil] at he
  exact ⟨e, Reader.run_error he⟩

/-- **Plain values of one text are the same**, however deep they are. -/
theorem write_inj {v w : Value} (hv : v.Plain) (hw : w.Plain) (h : write v = write w) : v = w := by
  -- a reader with room for both reads either from the one text
  have hreadv := (Reader.takes_value v (max v.depth w.depth) hv (Nat.le_max_left ..)).run_eq .nil
  have hreadw := (Reader.takes_value w (max v.depth w.depth) hw (Nat.le_max_right ..)).run_eq .nil
  rw [← write, h, write, hreadw] at hreadv
  exact (Except.ok.inj hreadv).symm

end Document

end TaggedRecords.Json
