import Mathlib.Data.List.Induction
import TaggedRecords.Proofs.Json.Documents

/-!
# JSON — objects that name a member more than once

`Document.read` gives objects in which each name stands once.  `Document.written` reads the same
texts and lists the members of every object as they are written there.

**What is read is what is written, settled** (`read_eq_settled`): at every depth an object keeps,
of the members of one name, the last one (`Value.settled`).  So a member of an object counts
exactly if no later one has its name (`Members.Counts`, `mem_keepLast`).

The two readers take the same steps, and the settled result of the one is the result of the other
after every step; a loop whose steps correspond in this way corresponds as a whole (`loop_map`).
-/

namespace TaggedRecords.Json

/-! ### The members that count -/

namespace Members

variable {m n : String × Value} {l : List (String × Value)}

/-- The member stands in the list, and no later one has its name. -/
def Counts (m : String × Value) (l : List (String × Value)) : Prop :=
  ∃ before after, l = before ++ m :: after ∧ ∀ n ∈ after, n.1 ≠ m.1

/-- The member is the only one that counts. -/
def Only (m : String × Value) (l : List (String × Value)) : Prop := ∀ n, Counts n l ↔ n = m

/-- The members that count, in ascending order of names. -/
def keepLast (l : List (String × Value)) : List (String × Value) :=
  l.foldl (fun done m => insert m.1 m.2 done) []

theorem Counts.mem (h : Counts m l) : m ∈ l := by
  obtain ⟨before, after, rfl, -⟩ := h
  simp

theorem counts_nil : ¬ Counts m [] := fun h => List.not_mem_nil h.mem

/-- One more member counts, and keeps those of its name from counting. -/
theorem counts_append : Counts m (l ++ [n]) ↔ m = n ∨ m.1 ≠ n.1 ∧ Counts m l := by
  constructor
  · -- either nothing stands behind the member, or what stands last there is the new one
    rintro ⟨before, after, h, hafter⟩
    rcases List.eq_nil_or_concat after with rfl | ⟨after, x, rfl⟩
    · obtain ⟨-, h⟩ := List.append_inj' h rfl
      exact .inl (List.cons.inj h).1.symm
    · rw [List.concat_eq_append, ← List.cons_append, ← List.append_assoc] at h
      obtain ⟨rfl, hx⟩ := List.append_inj' h rfl
      obtain rfl := (List.cons.inj hx).1
      exact .inr ⟨(hafter n (by simp)).symm, before, after, rfl,
        fun k hk => hafter k (by simp [hk])⟩
  · rintro (rfl | ⟨hn, before, after, rfl, hafter⟩)
    · exact ⟨l, [], rfl, by simp⟩
    · refine ⟨before, after ++ [n], by simp, fun k hk => ?_⟩
      rcases List.mem_append.mp hk with hk | hk
      · exact hafter k hk
      · rw [List.mem_singleton.mp hk]
        exact hn.symm

theorem keepLast_append (l : List (String × Value)) (m : String × Value) :
    keepLast (l ++ [m]) = insert m.1 m.2 (keepLast l) := by
  rw [keepLast, List.foldl_append]
  rfl

/-- Members are bound as the entries of a sorted map are. -/
theorem insert_eq_place (name : String) (v : Value) (l : List (String × Value)) :
    insert name v l = SortedMap.place name v l := by
  induction l with
  | nil => rfl
  | cons m rest ih => cases h : compare name m.1 <;> simp [insert, SortedMap.place, h, ih]

theorem keepLast_ascending (l : List (String × Value)) :
    (keepLast l).Pairwise fun m n => compare m.1 n.1 = .lt := by
  induction l using List.reverseRecOn with
  | nil => exact .nil
  | append_singleton l m ih =>
    rw [keepLast_append, insert_eq_place]
    exact SortedMap.place_ascending _ _ ih

theorem mem_insert (hl : l.Pairwise fun m n => compare m.1 n.1 = .lt) :
    m ∈ insert n.1 n.2 l ↔ m = n ∨ m.1 ≠ n.1 ∧ m ∈ l := by
  obtain ⟨name, v⟩ := m
  rw [insert_eq_place, SortedMap.mem_iff_lookup (SortedMap.place_ascending _ _ hl),
    SortedMap.lookup_place, SortedMap.mem_iff_lookup hl]
  by_cases h : name = n.1
  · simp [h, Prod.ext_iff, eq_comm]
  · simp [h, Prod.ext_iff]

/-- **The members that are kept are those that count.** -/
theorem mem_keepLast : m ∈ keepLast l ↔ Counts m l := by
  -- from the end of the list, where the member stands that is bound last
  induction l using List.reverseRecOn with
  | nil => exact ⟨fun h => absurd h List.not_mem_nil, fun h => absurd h counts_nil⟩
  | append_singleton l n ih =>
    rw [keepLast_append, mem_insert (keepLast_ascending l), counts_append, ih]

/-- A single member is kept exactly if it is the only one that counts. -/
theorem keepLast_eq_singleton : keepLast l = [m] ↔ Only m l := by
  constructor
  · intro h n
    rw [← mem_keepLast, h, List.mem_singleton]
  · intro h
    have hmem : ∀ n, n ∈ keepLast l ↔ n = m := fun n => mem_keepLast.trans (h n)
    have hsorted := keepLast_ascending l
    match hl : keepLast l with
    | [] => exact absurd ((hmem m).mpr rfl) (by simp [hl])
    | [n] => rw [(hmem n).mp (by simp [hl])]
    | n :: k :: rest =>
      obtain rfl := (hmem n).mp (by simp [hl])
      obtain rfl := (hmem k).mp (by simp [hl])
      rw [hl] at hsorted
      exact absurd (List.rel_of_pairwise_cons hsorted List.mem_cons_self) (by simp)

/-- Members in ascending order of names all count. -/
theorem keepLast_eq_self (h : l.Pairwise fun m n => compare m.1 n.1 = .lt) : keepLast l = l := by
  induction l using List.reverseRecOn with
  | nil => rfl
  | append_singleton l m ih =>
    obtain ⟨hl, -, hm⟩ := List.pairwise_append.mp h
    rw [keepLast_append, ih hl]
    exact Reader.insert_last l fun n hn => hm n hn m List.mem_cons_self

/-- Which members are kept has nothing to do with their values. -/
theorem keepLast_map (f : Value → Value) (l : List (String × Value)) :
    keepLast (l.map fun m => (m.1, f m.2)) = (keepLast l).map fun m => (m.1, f m.2) := by
  have hinsert : ∀ (name : String) (v : Value) (l : List (String × Value)),
      insert name (f v) (l.map fun m => (m.1, f m.2)) =
        (insert name v l).map fun m => (m.1, f m.2) := fun name v l => by
    induction l with
    | nil => rfl
    | cons m rest ih =>
      rw [List.map_cons, insert, insert, ih]
      cases compare name m.1 <;> rfl
  induction l using List.reverseRecOn with
  | nil => rfl
  | append_singleton l m ih =>
    rw [List.map_append, List.map_singleton, keepLast_append, keepLast_append, ih, hinsert]

end Members

namespace Value

/-! ### Values and their parts -/

theorem sizeOf_member {m : String × Value} {members : List (String × Value)} (h : m ∈ members) :
    sizeOf m.2 < sizeOf (Value.object members) := by
  have hm := List.sizeOf_lt_of_mem h
  obtain ⟨name, v⟩ := m
  simp only [Prod.mk.sizeOf_spec, object.sizeOf_spec] at hm ⊢
  omega

theorem sizeOf_item {v : Value} {items : List Value} (h : v ∈ items) :
    sizeOf v < sizeOf (Value.array items) := by
  have hv := List.sizeOf_lt_of_mem h
  simp only [array.sizeOf_spec]
  omega

/-- Induction on a value: on the items of a list and the values of the members of an object. -/
@[elab_as_elim]
theorem induct_parts {motive : Value → Prop}
    (array : ∀ items, (∀ v ∈ items, motive v) → motive (.array items))
    (object : ∀ members, (∀ m ∈ members, motive m.2) → motive (.object members))
    (leaf : ∀ v, (∀ items, v = .array items → False) → (∀ members, v = .object members → False) →
      motive v) : ∀ v, motive v
  | .array items => array items fun v _ => induct_parts array object leaf v
  | .object members => object members fun m _ => induct_parts array object leaf m.2
  | .null | .bool _ | .number _ | .string _ => leaf _ nofun nofun
termination_by v => sizeOf v
decreasing_by
  · exact sizeOf_item ‹_›
  · exact sizeOf_member ‹_›

/-! ### Settled values -/

mutual

/-- The value, every object in it keeping only the members that count. -/
def settled : Value → Value
  | .array items => .array (settledItems items)
  | .object members => .object (Members.keepLast (settledMembers members))
  | .null => .null
  | .bool b => .bool b
  | .number n => .number n
  | .string s => .string s

def settledItems : List Value → List Value
  | [] => []
  | v :: rest => settled v :: settledItems rest

def settledMembers : List (String × Value) → List (String × Value)
  | [] => []
  | m :: rest => (m.1, settled m.2) :: settledMembers rest

end

theorem settledItems_eq : ∀ items : List Value, settledItems items = items.map settled
  | [] => rfl
  | v :: rest => by rw [settledItems, settledItems_eq rest, List.map_cons]

theorem settledMembers_eq : ∀ members : List (String × Value),
    settledMembers members = members.map fun m => (m.1, m.2.settled)
  | [] => rfl
  | m :: rest => by rw [settledMembers, settledMembers_eq rest, List.map_cons]

theorem settled_array (items : List Value) :
    settled (.array items) = .array (items.map settled) := by
  rw [settled, settledItems_eq]

theorem settled_object (members : List (String × Value)) :
    settled (.object members) =
      .object ((Members.keepLast members).map fun m => (m.1, m.2.settled)) := by
  rw [settled, settledMembers_eq, Members.keepLast_map]

theorem settled_leaf : ∀ {v : Value}, (∀ items, v = .array items → False) →
    (∀ members, v = .object members → False) → v.settled = v
  | .array _, h, _ => (h _ rfl).elim
  | .object _, _, h => (h _ rfl).elim
  | .null, _, _ | .bool _, _, _ | .number _, _, _ | .string _, _, _ => by rw [settled]

/-- Only texts settle to texts, and only lists of texts to lists of texts. -/
theorem settled_eq_string {v : Value} {s : String} : v.settled = .string s ↔ v = .string s := by
  cases v <;> simp [settled]

theorem settled_eq_strings {v : Value} {values : List String} :
    v.settled = .array (values.map .string) ↔ v = .array (values.map .string) := by
  cases v with
  | array items =>
    rw [settled_array, array.injEq, array.injEq]
    induction items generalizing values with
    | nil => simp
    | cons v rest ih =>
      cases values with
      | nil => simp
      | cons s values => simp [settled_eq_string, ih]
  | null | bool _ | number _ | string _ | object _ => simp [settled]

/-- A settled object has a certain single member exactly if that one was written and no other one
counts, provided its value is one that settles to itself only. -/
theorem settled_eq_single {members : List (String × Value)} {keyword : String} {v : Value}
    (hv : ∀ w : Value, w.settled = v ↔ w = v) :
    (Value.object members).settled = .object [(keyword, v)] ↔
      Members.Only (keyword, v) members := by
  rw [settled_object, object.injEq, ← Members.keepLast_eq_singleton,
    List.map_eq_singleton_iff]
  constructor
  · rintro ⟨⟨name, w⟩, hm, hw⟩
    obtain ⟨rfl, hw⟩ := Prod.ext_iff.mp hw
    rw [hm, (hv w).mp hw]
  · intro h
    exact ⟨_, h, by rw [(hv v).mpr rfl]⟩

mutual

/-- A plain value names every member once. -/
theorem settled_plain : ∀ {v : Value}, v.Plain → v.settled = v
  | .null, _ | .bool _, _ | .number _, _ | .string _, _ => by rw [settled]
  | .array items, h => by rw [settled, settledItems_plain h]
  | .object members, h => by rw [settled, settledMembers_plain h.2, Members.keepLast_eq_self h.1]

theorem settledItems_plain : ∀ {items : List Value}, PlainItems items → settledItems items = items
  | [], _ => rfl
  | v :: rest, h => by rw [settledItems, settled_plain h.1, settledItems_plain h.2]

theorem settledMembers_plain : ∀ {members : List (String × Value)}, PlainMembers members →
    settledMembers members = members
  | [], _ => rfl
  | m :: rest, h => by rw [settledMembers, settled_plain h.1, settledMembers_plain h.2]

end

end Value

/-! ### Reading members as they are written -/

namespace Reader

variable {α β γ σ τ : Type}

/-- The rest of an object whose opening brace has been read: its members as they are written. -/
def writtenMembers (value : Reader Value) : Reader (List (String × Value)) :=
  loop (fun (first, done) => do
    if ← anotherMember first then
      let name ← quoted
      colon
      return .inl (false, done ++ [(name, ← value)])
    else skip; return .inr done) (true, [])

/-- A value in which at most `room` lists and objects stand inside each other, the members of its
objects as they are written. -/
def written (room : Nat) : Reader Value := do
  match ← peekWord with
  | none => fail .endInValue
  | some 'n' => skip; restOfWord ['u', 'l', 'l']; return .null
  | some 't' => skip; restOfWord ['r', 'u', 'e']; return .bool true
  | some 'f' => skip; restOfWord ['a', 'l', 's', 'e']; return .bool false
  | some '"' => return .string (← quoted)
  | some '[' =>
    match room with
    | 0 => failNext .tooDeep
    | room + 1 => skip; return .array (← items (written room))
  | some '\x7b' =>
    match room with
    | 0 => failNext .tooDeep
    | room + 1 => skip; return .object (← writtenMembers (written room))
  | some c =>
    if c = '-' ∨ c.isDigit then return .number (← numeral)
    else failNext .expectedValue

/-- Loops whose steps correspond. -/
theorem iterate_map {step : σ → Reader (σ ⊕ β)} {step' : τ → Reader (τ ⊕ γ)} {h : τ → σ}
    {g : γ → β} (hs : ∀ t, step (h t) = Sum.map h g <$> step' t) (fuel : Nat) :
    ∀ t, iterate step fuel (h t) = g <$> iterate step' fuel t := by
  induction fuel with
  | zero => intro t; rfl
  | succ fuel ih =>
    intro t
    rw [iterate, iterate, hs, bind_map_left, map_bind]
    refine congrArg (step' t >>= ·) (funext fun r => ?_)
    cases r with
    | inl t => exact ih t
    | inr c => rfl

theorem loop_map {step : σ → Reader (σ ⊕ β)} {step' : τ → Reader (τ ⊕ γ)} {h : τ → σ}
    {g : γ → β} (hs : ∀ t, step (h t) = Sum.map h g <$> step' t) (t : τ) :
    loop step (h t) = g <$> loop step' t := by
  rw [loop, loop, map_bind]
  exact congrArg (source >>= ·) (funext fun s => iterate_map hs _ t)

/-- The items of a list after each has been changed. -/
theorem items_map (f : α → β) (item : Reader α) :
    items (f <$> item) = List.map f <$> items item := by
  refine loop_map (h := fun s => (s.1, s.2.map f)) ?_ (true, [])
  rintro ⟨first, done⟩
  simp only [map_bind]
  refine congrArg (anotherItem first >>= ·) (funext fun another => ?_)
  cases another <;> simp

/-- The members of an object after their values have been settled: keeping the last one of a name
after every member comes to keeping those that count in the end. -/
theorem members_map (value : Reader Value) :
    members (Value.settled <$> value) =
      (fun l => Members.keepLast (Value.settledMembers l)) <$> writtenMembers value := by
  refine loop_map (h := fun s => (s.1, Members.keepLast (Value.settledMembers s.2))) ?_ (true, [])
  rintro ⟨first, done⟩
  simp only [map_bind]
  refine congrArg (anotherMember first >>= ·) (funext fun another => ?_)
  cases another <;> simp [Value.settledMembers_eq, Members.keepLast_append]

/-- **What is read is what is written, settled.** -/
theorem value_eq_settled (room : Nat) : value room = Value.settled <$> written room := by
  have hnumeral : ∀ c : Char, Value.settled <$>
      (if c = '-' ∨ c.isDigit then Value.number <$> numeral else failNext .expectedValue) =
        if c = '-' ∨ c.isDigit then Value.number <$> numeral else failNext .expectedValue := by
    intro c
    split
    · simp [Value.settled]
    · rfl
  induction room with
  | zero =>
    -- a fault, such as a list or an object here, is the same one to both readers
    rw [value.eq_def, written.eq_def, map_bind]
    refine congrArg (peekWord >>= ·) (funext fun c => ?_)
    split <;> first | rfl | simp [Value.settled, hnumeral]
  | succ room ih =>
    rw [value.eq_def, written.eq_def, map_bind]
    refine congrArg (peekWord >>= ·) (funext fun c => ?_)
    split <;> first
      | rfl
      | simp [Value.settled, Value.settledItems_eq, ih, items_map, members_map, hnumeral]

end Reader

namespace Document

/-- The value of a text, the members of its objects as they are written. -/
def written (text : String) : Except Error Value := (Reader.written maxDepth).run text

/-- **A text is read as what is written in it, settled.** -/
theorem read_eq_settled (text : String) : read text = Value.settled <$> written text := by
  rw [read, written, Reader.value_eq_settled]
  simp [Reader.run]

end Document

end TaggedRecords.Json
