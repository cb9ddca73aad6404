/-!
# Sorted maps — finite maps with one order of entries

A `SortedMap κ α` keeps its entries in strictly ascending key order, so a finite map has exactly
one representation: maps with the same look-ups are equal (`SortedMap.ext_get?`), and the order
in which entries are listed never depends on the order in which they were put in.  Tags are
sorted by name, the records of a type by id, and open wallets and searches by handle.

Each operation is described by its effect on `get?`.
-/

namespace TaggedRecords

/-- A finite map from `κ` to `α`, listed in strictly ascending key order. -/
structure SortedMap (κ : Type) (α : Type) [Ord κ] where
  entries : List (κ × α)
  ascending : entries.Pairwise fun a b => compare a.1 b.1 = .lt

namespace SortedMap

variable {κ α : Type} [Ord κ]

/-! ### Entries -/

/-- The value listed for `k`. -/
def lookup (k : κ) : List (κ × α) → Option α
  | [] => none
  | e :: rest => if compare k e.1 = .eq then some e.2 else lookup k rest

/-- The entries with `k` bound to `a`, at its place in the order. -/
def place (k : κ) (a : α) : List (κ × α) → List (κ × α)
  | [] => [(k, a)]
  | e :: rest =>
    match compare k e.1 with
    | .lt => (k, a) :: e :: rest
    | .eq => (k, a) :: rest
    | .gt => e :: place k a rest

theorem mem_place {k : κ} {a : α} {e : κ × α} {l : List (κ × α)} (h : e ∈ place k a l) :
    e = (k, a) ∨ e ∈ l := by
  induction l with
  | nil => simpa [place] using h
  | cons x rest ih =>
    simp only [place] at h
    split at h <;> grind

theorem place_ascending [Std.TransOrd κ] [Std.LawfulEqOrd κ] (k : κ) (a : α)
    {l : List (κ × α)} (h : l.Pairwise fun a b => compare a.1 b.1 = .lt) :
    (place k a l).Pairwise fun a b => compare a.1 b.1 = .lt := by
  induction l with
  | nil => simp [place]
  | cons x rest ih =>
    obtain ⟨hx, hrest⟩ := List.pairwise_cons.1 h
    simp only [place]
    split
    · rename_i hlt
      refine List.pairwise_cons.2 ⟨fun e he => ?_, h⟩
      rcases List.mem_cons.1 he with rfl | he
      · exact hlt
      · exact Std.TransCmp.lt_trans hlt (hx e he)
    · rename_i heq
      obtain rfl := Std.LawfulEqCmp.eq_of_compare heq
      exact List.pairwise_cons.2 ⟨fun e he => hx e he, hrest⟩
    · rename_i hgt
      refine List.pairwise_cons.2 ⟨fun e he => ?_, ih hrest⟩
      rcases mem_place he with rfl | he
      · exact Std.OrientedCmp.lt_of_gt hgt
      · exact hx e he

/-- A key beyond those that are listed has its place behind them. -/
theorem place_last {k : κ} {a : α} {l : List (κ × α)} [Std.OrientedOrd κ]
    (h : ∀ e ∈ l, compare e.1 k = .lt) : place k a l = l ++ [(k, a)] := by
  induction l with
  | nil => rfl
  | cons x rest ih =>
    rw [place, Std.OrientedOrd.eq_swap, h x List.mem_cons_self]
    exact congrArg (x :: ·) (ih fun e he => h e (List.mem_cons_of_mem _ he))

/-! ### Operations -/

/-- The map with no entries. -/
def empty : SortedMap κ α := ⟨[], .nil⟩

instance : Inhabited (SortedMap κ α) := ⟨empty⟩

instance [DecidableEq κ] [DecidableEq α] : DecidableEq (SortedMap κ α) := fun m n =>
  decidable_of_iff (m.entries = n.entries)
    ⟨fun h => by cases m; cases n; cases h; rfl, fun h => h ▸ rfl⟩

/-- The value bound to `k`. -/
def get? (m : SortedMap κ α) (k : κ) : Option α := lookup k m.entries

/-- Whether `k` is bound. -/
def contains (m : SortedMap κ α) (k : κ) : Bool := (m.get? k).isSome

/-- The number of entries. -/
def size (m : SortedMap κ α) : Nat := m.entries.length

/-- `k` bound to `a`, every other binding as before. -/
def insert [Std.TransOrd κ] [Std.LawfulEqOrd κ] (m : SortedMap κ α) (k : κ) (a : α) :
    SortedMap κ α :=
  ⟨place k a m.entries, place_ascending k a m.ascending⟩

/-- The bindings whose key and value satisfy `p`. -/
def filter (m : SortedMap κ α) (p : κ → α → Bool) : SortedMap κ α :=
  ⟨m.entries.filter fun e => p e.1 e.2, m.ascending.filter _⟩

/-- `k` unbound, every other binding as before. -/
def erase (m : SortedMap κ α) (k : κ) : SortedMap κ α :=
  m.filter fun k' _ => compare k k' != .eq

/-- The bindings of `l` added one after the other, so that the last one of a key stays. -/
def insertAll [Std.TransOrd κ] [Std.LawfulEqOrd κ] (m : SortedMap κ α) (l : List (κ × α)) :
    SortedMap κ α :=
  l.foldl (fun m e => m.insert e.1 e.2) m

/-- The map of a list of bindings, the last one of a key counting. -/
def ofList [Std.TransOrd κ] [Std.LawfulEqOrd κ] (l : List (κ × α)) : SortedMap κ α :=
  empty.insertAll l

/-- Both maps, the bindings of `n` counting where both have one. -/
def merge [Std.TransOrd κ] [Std.LawfulEqOrd κ] (m n : SortedMap κ α) : SortedMap κ α :=
  m.insertAll n.entries

/-- The map with the keys of `ks` unbound. -/
def eraseAll (m : SortedMap κ α) (ks : List κ) : SortedMap κ α :=
  ks.foldl erase m

/-- The value of `k` replaced by its image under `f`, if `k` is bound. -/
def modify [Std.TransOrd κ] [Std.LawfulEqOrd κ] (m : SortedMap κ α) (k : κ) (f : α → α) :
    SortedMap κ α :=
  match m.get? k with
  | some a => m.insert k (f a)
  | none => m

/-! ### Look-ups -/

@[simp] theorem get?_empty (k : κ) : (empty : SortedMap κ α).get? k = none := rfl

theorem lookup_place [Std.TransOrd κ] [Std.LawfulEqOrd κ] (k k' : κ) (a : α)
    (l : List (κ × α)) :
    lookup k' (place k a l) = if compare k' k = .eq then some a else lookup k' l := by
  induction l with
  | nil => simp [place, lookup]
  | cons x rest ih =>
    simp only [place]
    split
    · simp [lookup]
    · rename_i heq
      obtain rfl := Std.LawfulEqCmp.eq_of_compare heq
      simp only [lookup]
      split <;> simp_all
    · rename_i hgt
      simp only [lookup, ih]
      split
      · rename_i h
        obtain rfl := Std.LawfulEqCmp.eq_of_compare h
        rw [if_neg]
        rw [Std.OrientedOrd.eq_swap, hgt]
        decide
      · rfl

/-- Putting in a binding changes the look-up of its key only. -/
theorem get?_insert [Std.TransOrd κ] [Std.LawfulEqOrd κ] [DecidableEq κ] (m : SortedMap κ α)
    (k k' : κ) (a : α) : (m.insert k a).get? k' = if k' = k then some a else m.get? k' := by
  have h := lookup_place k k' a m.entries
  simpa [get?, insert, Std.LawfulEqOrd.compare_eq_iff_eq] using h

theorem lookup_eq_none {k : κ} {l : List (κ × α)} (h : ∀ e ∈ l, compare k e.1 = .lt) :
    lookup k l = none := by
  induction l with
  | nil => rfl
  | cons x rest ih =>
    rw [lookup, if_neg (by simp [h x])]
    exact ih fun e he => h e (List.mem_cons_of_mem _ he)

theorem lookup_filter [Std.LawfulEqOrd κ] (k : κ) (p : κ → α → Bool) {l : List (κ × α)}
    (h : l.Pairwise fun a b => compare a.1 b.1 = .lt) :
    lookup k (l.filter fun e => p e.1 e.2) = (lookup k l).filter (p k) := by
  induction l with
  | nil => rfl
  | cons x rest ih =>
    obtain ⟨hx, hrest⟩ := List.pairwise_cons.1 h
    by_cases hk : compare k x.1 = .eq
    · obtain rfl := Std.LawfulEqCmp.eq_of_compare hk
      by_cases hp : p x.1 x.2 <;>
        simp [lookup, Option.filter, hp, lookup_eq_none hx, ih hrest]
    · by_cases hp : p x.1 x.2 <;> simp [lookup, hp, hk, ih hrest]

theorem mem_iff_lookup [Std.LawfulEqOrd κ] {k : κ} {a : α} {l : List (κ × α)}
    (h : l.Pairwise fun a b => compare a.1 b.1 = .lt) : (k, a) ∈ l ↔ lookup k l = some a := by
  induction l with
  | nil => simp [lookup]
  | cons x rest ih =>
    obtain ⟨hx, hrest⟩ := List.pairwise_cons.1 h
    rw [List.mem_cons, lookup, ih hrest]
    by_cases hk : compare k x.1 = .eq
    · obtain rfl := Std.LawfulEqCmp.eq_of_compare hk
      simp [lookup_eq_none hx, Prod.ext_iff, eq_comm]
    · have : k ≠ x.1 := fun e => hk (by simp [e])
      simp [hk, Prod.ext_iff, this]

/-- A binding is kept by `filter` exactly if its key and value satisfy the predicate. -/
theorem get?_filter [Std.LawfulEqOrd κ] (m : SortedMap κ α) (p : κ → α → Bool) (k : κ) :
    (m.filter p).get? k = (m.get? k).filter (p k) :=
  lookup_filter k p m.ascending

/-- Unbinding a key changes the look-up of that key only. -/
theorem get?_erase [Std.LawfulEqOrd κ] [DecidableEq κ] (m : SortedMap κ α) (k k' : κ) :
    (m.erase k).get? k' = if k' = k then none else m.get? k' := by
  rw [erase, get?_filter]
  by_cases h : k' = k
  · subst h
    cases m.get? k' <;> simp [Option.filter]
  · have h' : ¬ k = k' := fun e => h e.symm
    cases hm : m.get? k' <;> simp [Option.filter, h, h']

/-- Replacing the value of a key changes the look-up of that key only. -/
theorem get?_modify [Std.TransOrd κ] [Std.LawfulEqOrd κ] [DecidableEq κ] (m : SortedMap κ α)
    (k : κ) (f : α → α) (k' : κ) :
    (m.modify k f).get? k' = if k' = k then (m.get? k).map f else m.get? k' := by
  rw [modify]
  cases hk : m.get? k with
  | some a => exact get?_insert _ _ _ _
  | none =>
      show m.get? k' = _
      split
      · rename_i h
        rw [h, hk, Option.map_none]
      · rfl

/-- The entries are the bindings that look-ups find. -/
theorem mem_entries [Std.LawfulEqOrd κ] {m : SortedMap κ α} {k : κ} {a : α} :
    (k, a) ∈ m.entries ↔ m.get? k = some a :=
  mem_iff_lookup m.ascending

/-- Maps with the same entries are equal. -/
theorem ext_entries {m n : SortedMap κ α} (h : m.entries = n.entries) : m = n := by
  cases m
  cases n
  congr

/-- Maps with the same look-ups are equal. -/
theorem ext_get? [Std.TransOrd κ] [Std.LawfulEqOrd κ] {m n : SortedMap κ α}
    (h : ∀ k, m.get? k = n.get? k) : m = n := by
  have same : ∀ e : κ × α, e ∈ m.entries ↔ e ∈ n.entries := fun e => by
    rw [mem_entries, mem_entries, h]
  obtain ⟨l, hl⟩ := m
  obtain ⟨l', hl'⟩ := n
  congr 1
  have irrefl : ∀ e : κ × α, compare e.1 e.1 ≠ .lt := fun e => by simp
  have nodup : ∀ {l : List (κ × α)}, l.Pairwise (fun a b => compare a.1 b.1 = .lt) → l.Nodup :=
    fun h => h.imp fun {a b} hab (e : a = b) => irrefl a (by rwa [← e] at hab)
  have perm : l.Perm l' := (List.perm_ext_iff_of_nodup (nodup hl) (nodup hl')).2 same
  refine perm.eq_of_pairwise (fun a b _ _ hab hba => ?_) hl hl'
  exact absurd (Std.TransCmp.lt_trans hab hba) (irrefl a)

theorem get?_insertAll [Std.TransOrd κ] [Std.LawfulEqOrd κ] [DecidableEq κ] {l : List (κ × α)}
    (h : l.Pairwise fun a b => compare a.1 b.1 = .lt) (m : SortedMap κ α) (k : κ) :
    (m.insertAll l).get? k = (lookup k l).or (m.get? k) := by
  induction l generalizing m with
  | nil => rfl
  | cons e rest ih =>
    obtain ⟨he, hrest⟩ := List.pairwise_cons.1 h
    rw [insertAll, List.foldl_cons, ← insertAll, ih hrest, get?_insert, lookup]
    by_cases hk : k = e.1
    · rw [if_pos hk, if_pos (Std.LawfulEqOrd.compare_eq_iff_eq.2 hk), hk, lookup_eq_none he]
      rfl
    · rw [if_neg hk, if_neg (mt Std.LawfulEqOrd.compare_eq_iff_eq.1 hk)]

/-- Of two maps the bindings of the second one count. -/
theorem get?_merge [Std.TransOrd κ] [Std.LawfulEqOrd κ] [DecidableEq κ] (m n : SortedMap κ α)
    (k : κ) : (m.merge n).get? k = (n.get? k).or (m.get? k) :=
  get?_insertAll n.ascending m k

/-- The keys that are unbound are those of the list, whether they were bound or not. -/
theorem get?_eraseAll [Std.LawfulEqOrd κ] [DecidableEq κ] (ks : List κ) (m : SortedMap κ α)
    (k : κ) : (m.eraseAll ks).get? k = if k ∈ ks then none else m.get? k := by
  induction ks generalizing m with
  | nil => rfl
  | cons k' rest ih =>
    rw [eraseAll, List.foldl_cons, ← eraseAll, ih, get?_erase]
    by_cases hk : k = k'
    · simp [hk]
    · simp [hk]

/-- Of two bindings of a key in a row the second one stays. -/
theorem insert_insert [Std.TransOrd κ] [Std.LawfulEqOrd κ] [DecidableEq κ] (m : SortedMap κ α)
    (k : κ) (a a' : α) : (m.insert k a).insert k a' = m.insert k a' := by
  refine ext_get? fun k' => ?_
  rw [get?_insert, get?_insert, get?_insert]
  split <;> rfl

/-- A key that is bound again to what it is bound to stays as it is. -/
theorem insert_eq_self [Std.TransOrd κ] [Std.LawfulEqOrd κ] [DecidableEq κ] {m : SortedMap κ α}
    {k : κ} {a : α} (h : m.get? k = some a) : m.insert k a = m := by
  refine ext_get? fun k' => ?_
  rw [get?_insert]
  split
  · rename_i hk
    rw [hk, h]
  · rfl

/-- Unbinding a key forgets what it was bound to last. -/
theorem erase_insert [Std.TransOrd κ] [Std.LawfulEqOrd κ] [DecidableEq κ] (m : SortedMap κ α)
    (k : κ) (a : α) : (m.insert k a).erase k = m.erase k := by
  refine ext_get? fun k' => ?_
  rw [get?_erase, get?_erase, get?_insert]
  split <;> rfl

/-- A key that is not bound need not be unbound. -/
theorem erase_eq_self [Std.TransOrd κ] [Std.LawfulEqOrd κ] [DecidableEq κ] {m : SortedMap κ α}
    {k : κ} (h : m.get? k = none) : m.erase k = m := by
  refine ext_get? fun k' => ?_
  rw [get?_erase]
  split
  · rename_i hk
    rw [hk, h]
  · rfl

/-- A key need not be unbound before it is bound again. -/
theorem insert_erase [Std.TransOrd κ] [Std.LawfulEqOrd κ] [DecidableEq κ] (m : SortedMap κ α)
    (k : κ) (a : α) : (m.erase k).insert k a = m.insert k a := by
  refine ext_get? fun k' => ?_
  rw [get?_insert, get?_insert, get?_erase]
  split <;> rfl

/-- The binding of one key is an entry, and no other entry has that key. -/
theorem filter_key [Std.TransOrd κ] [Std.LawfulEqOrd κ] [DecidableEq κ] {m : SortedMap κ α}
    {k : κ} {a : α} (h : m.get? k = some a) :
    (m.filter fun k' _ => k' == k) = empty.insert k a := by
  refine ext_get? fun k' => ?_
  rw [get?_filter, get?_insert, get?_empty]
  by_cases hk : k' = k
  · rw [if_pos hk, hk, h, Option.filter, if_pos (beq_self_eq_true k)]
  · rw [if_neg hk]
    cases m.get? k' with
    | none => rfl
    | some a' => exact if_neg (mt beq_iff_eq.mp hk)

/-- Bindings that all satisfy a predicate are all kept. -/
theorem filter_eq_self [Std.TransOrd κ] [Std.LawfulEqOrd κ] {m : SortedMap κ α}
    {p : κ → α → Bool} (h : ∀ k a, m.get? k = some a → p k a = true) : m.filter p = m := by
  refine ext_get? fun k => ?_
  rw [get?_filter]
  cases hm : m.get? k with
  | none => rfl
  | some a => exact Option.filter_eq_some_iff.2 ⟨rfl, h k a hm⟩

/-! ### What is listed -/

theorem map_place [Std.TransOrd κ] [Std.LawfulEqOrd κ] {β : Type} {k : κ} {a a' : α}
    {f : κ × α → β} {l : List (κ × α)} (hl : l.Pairwise fun a b => compare a.1 b.1 = .lt)
    (h : lookup k l = some a) (hf : f (k, a') = f (k, a)) :
    (place k a' l).map f = l.map f := by
  induction l with
  | nil => cases h
  | cons x rest ih =>
    obtain ⟨hx, hrest⟩ := List.pairwise_cons.1 hl
    rw [lookup] at h
    rw [place]
    split
    · rename_i hlt
      have hnone := lookup_eq_none fun e he => Std.TransCmp.lt_trans hlt (hx e he)
      rw [if_neg (by simp [hlt]), hnone] at h
      cases h
    · rename_i heq
      rw [if_pos heq] at h
      obtain rfl := Std.LawfulEqCmp.eq_of_compare heq
      rw [List.map_cons, hf, ← Option.some.inj h]
      rfl
    · rename_i hgt
      rw [if_neg (by simp [hgt])] at h
      exact congrArg (f x :: ·) (ih hrest h)

/-- Binding a key again to what looks the same changes nothing that can be seen. -/
theorem map_insert [Std.TransOrd κ] [Std.LawfulEqOrd κ] {β : Type} {m : SortedMap κ α} {k : κ}
    {a a' : α} {f : κ × α → β} (h : m.get? k = some a) (hf : f (k, a') = f (k, a)) :
    (m.insert k a').entries.map f = m.entries.map f :=
  map_place m.ascending h hf

/-! ### The number of entries -/

theorem length_place {k : κ} {a : α} {l : List (κ × α)} (h : lookup k l = none) :
    (place k a l).length = l.length + 1 := by
  induction l with
  | nil => rfl
  | cons x rest ih =>
    rw [lookup] at h
    split at h
    · contradiction
    · rw [place]
      split
      · rfl
      · contradiction
      · exact congrArg (· + 1) (ih h)

/-- A key has one entry once it is bound. -/
theorem size_insert [Std.TransOrd κ] [Std.LawfulEqOrd κ] [DecidableEq κ] (m : SortedMap κ α)
    (k : κ) (a : α) : (m.insert k a).size = (m.erase k).size + 1 := by
  have hnone : (m.erase k).get? k = none := by rw [get?_erase, if_pos rfl]
  rw [← insert_erase]
  exact length_place hnone

/-- Unbinding a key takes one entry away if the key was bound. -/
theorem size_erase [Std.TransOrd κ] [Std.LawfulEqOrd κ] [DecidableEq κ] (m : SortedMap κ α)
    (k : κ) : (m.erase k).size + (m.get? k).toList.length = m.size := by
  cases h : m.get? k with
  | none => rw [erase_eq_self h]; rfl
  | some a => rw [← insert_eq_self h, erase_insert, size_insert]; rfl

end SortedMap

end TaggedRecords
