import TaggedRecords.Proofs.Memory.Registers

/-!
# Memories — of the writes to a tag the last one counts

The tags of a record are written to as a whole, added to, or removed (`TagWrite`).  Each write
concerns some names and leaves the values of all others alone (`TagWrite.get?_apply`), so what a name
has after some writes is told by the last one that concerns it (`Leaves`).

In a run of a memory that keeps a record, its tags are written to by the calls on it that succeed and
by nothing else (`Memory.tags_after`).  **So a name has what the last such call that concerns it gives
it, and what it had if there is none** (`Memory.last_write_counts`); calls that concern different names
may be exchanged, and the last call may be repeated.
-/

namespace TaggedRecords

/-! ### Writes -/

/-- A write to the tags of a record. -/
inductive TagWrite where
  | replace (tags : Tags)
  | merge (tags : Tags)
  | remove (names : List String)

namespace TagWrite

/-- The tags after a write. -/
def apply : TagWrite → Tags → Tags
  | .replace tags, _ => tags
  | .merge tags, old => old.merge tags
  | .remove names, old => old.eraseAll names

/-- The write decides what a name has. -/
def Concerns : TagWrite → String → Prop
  | .replace _, _ => True
  | .merge tags, name => (tags.get? name).isSome
  | .remove names, name => name ∈ names

/-- What a name has after a write that concerns it. -/
def value? : TagWrite → String → Option String
  | .replace tags, name | .merge tags, name => tags.get? name
  | .remove _, _ => none

instance (w : TagWrite) (name : String) : Decidable (w.Concerns name) :=
  match w with
  | .replace _ => inferInstanceAs (Decidable True)
  | .merge tags => inferInstanceAs (Decidable (tags.get? name).isSome)
  | .remove names => inferInstanceAs (Decidable (name ∈ names))

/-- **A write decides what the names have that it concerns, and leaves the others alone.** -/
theorem get?_apply (w : TagWrite) (tags : Tags) (name : String) :
    (w.apply tags).get? name = if w.Concerns name then w.value? name else tags.get? name := by
  cases w with
  | replace new => exact (if_pos trivial).symm
  | merge new =>
      rw [apply, SortedMap.get?_merge]
      cases h : new.get? name with
      | none => exact (if_neg (by rw [Concerns, h]; exact Bool.false_ne_true)).symm
      | some value =>
          have hconcerns : (merge new).Concerns name := by rw [Concerns, h]; rfl
          rw [if_pos hconcerns, value?, h, Option.some_or]
  | remove names => exact SortedMap.get?_eraseAll names tags name

/-- The tags after several writes. -/
def applyAll (writes : List TagWrite) (tags : Tags) : Tags :=
  writes.foldl (fun tags w => w.apply tags) tags

/-- What a name has after some writes, if it had `initial` before: what the last write gives it that
concerns it, or what it had. -/
inductive Leaves (name : String) (initial : Option String) :
    List TagWrite → Option String → Prop where
  | untouched {writes : List TagWrite} (h : ∀ w ∈ writes, ¬ w.Concerns name) :
      Leaves name initial writes initial
  | written (before : List TagWrite) {w : TagWrite} {later : List TagWrite}
      (hw : w.Concerns name) (h : ∀ w' ∈ later, ¬ w'.Concerns name) :
      Leaves name initial (before ++ w :: later) (w.value? name)

theorem Leaves.cons {name : String} {initial final : Option String} {w : TagWrite}
    {writes : List TagWrite}
    (h : Leaves name (if w.Concerns name then w.value? name else initial) writes final) :
    Leaves name initial (w :: writes) final := by
  cases h with
  | untouched h =>
      split
      · rename_i hw
        exact .written [] hw h
      · rename_i hw
        exact .untouched (List.forall_mem_cons.mpr ⟨hw, h⟩)
  | @written before _ _ hw h => exact .written (w :: before) hw h

/-- **The last write that concerns a name counts.** -/
theorem leaves_applyAll (name : String) (writes : List TagWrite) (tags : Tags) :
    Leaves name (tags.get? name) writes ((applyAll writes tags).get? name) := by
  induction writes generalizing tags with
  | nil => exact .untouched nofun
  | cons w writes ih =>
      have hrest := ih (w.apply tags)
      rw [get?_apply] at hrest
      exact hrest.cons

/-- No name is concerned by both writes. -/
def Apart (w w' : TagWrite) : Prop := ∀ name, ¬ (w.Concerns name ∧ w'.Concerns name)

theorem apply_comm {w w' : TagWrite} (h : w.Apart w') (tags : Tags) :
    w.apply (w'.apply tags) = w'.apply (w.apply tags) := by
  refine SortedMap.ext_get? fun name => ?_
  rw [get?_apply, get?_apply, get?_apply, get?_apply]
  split
  · rename_i hw
    rw [if_neg fun hw' => h name ⟨hw, hw'⟩]
  · rfl

theorem apply_apply (w : TagWrite) (tags : Tags) : w.apply (w.apply tags) = w.apply tags := by
  refine SortedMap.ext_get? fun name => ?_
  rw [get?_apply, get?_apply]
  split <;> rfl

/-- The same writes but for two neighbours that are exchanged, or the last one repeated. -/
inductive Rearranged : List TagWrite → List TagWrite → Prop where
  | swap (before : List TagWrite) {w w' : TagWrite} (h : w.Apart w') (later : List TagWrite) :
      Rearranged (before ++ w :: w' :: later) (before ++ w' :: w :: later)
  | again (before : List TagWrite) (w : TagWrite) :
      Rearranged (before ++ [w]) (before ++ [w, w])

theorem Rearranged.applyAll_eq {writes writes' : List TagWrite} (h : Rearranged writes writes')
    (tags : Tags) : applyAll writes tags = applyAll writes' tags := by
  cases h with
  | swap before h later => simp [applyAll, apply_comm h]
  | again before w => simp [applyAll, apply_apply]

end TagWrite

namespace Memory

variable {m : Memory} {wallet : WalletHandle} {type id : String} {r : StoredRecord}

/-! ### Calls on the tags of a record -/

/-- What a call on the tags of a record writes, if its payload can be read; nothing for another
operation. -/
def Operation.onTags? (wallet : WalletHandle) (type id : String) :
    Operation → Option (Except Json.Error TagWrite)
  | .call (.updateRecordTags w t i tags) =>
    if w = wallet ∧ t = type ∧ i = id then some ((Tags.decode tags).map .replace) else none
  | .call (.addRecordTags w t i tags) =>
    if w = wallet ∧ t = type ∧ i = id then some ((Tags.decode tags).map .merge) else none
  | .call (.deleteRecordTags w t i names) =>
    if w = wallet ∧ t = type ∧ i = id then some ((Tags.decodeNames names).map .remove) else none
  | _ => none

/-- What an operation writes to the tags of a record. -/
def Operation.tagWrite? (wallet : WalletHandle) (type id : String) (op : Operation) :
    Option TagWrite :=
  (op.onTags? wallet type id).bind Except.toOption

/-- The operation may take a record away: it deletes the record or closes the wallet. -/
def Operation.Discards (wallet : WalletHandle) (type id : String) : Operation → Prop
  | .closeWallet w => w = wallet
  | .call (.deleteRecord w t i) => w = wallet ∧ t = type ∧ i = id
  | _ => False

/-! ### What becomes of a record -/

theorem stored_congr {m' : Memory} (h : m'.wallets = m.wallets) :
    m'.stored wallet type id = m.stored wallet type id := by
  rw [stored, stored, h]

/-- Records that differ in one place only. -/
theorem stored_place {w : WalletHandle} {c : Collections} {t i : String}
    {records : SortedMap String StoredRecord} {placed : Option StoredRecord}
    (hw : m.wallets.get? w = some c)
    (hr : ∀ j, records.get? j = if j = i then placed else (ofType c t).get? j) :
    (m.putType w c t records).stored wallet type id =
      if w = wallet ∧ t = type ∧ i = id then placed else m.stored wallet type id := by
  rw [stored_putType hw, hr]
  by_cases hwt : wallet = w ∧ type = t
  · obtain ⟨rfl, rfl⟩ := hwt
    by_cases hi : id = i
    · rw [if_pos ⟨rfl, rfl⟩, if_pos hi, if_pos ⟨rfl, rfl, hi.symm⟩]
    · rw [if_pos ⟨rfl, rfl⟩, if_neg hi, if_neg fun h => hi h.2.2.symm, stored_eq hw, find?_eq]
  · rw [if_neg hwt, if_neg fun h => hwt ⟨h.1.symm, h.2.1.symm⟩]

/-- A record that is kept lies in an open wallet. -/
theorem wallet_of_stored (h : m.stored wallet type id = some r) :
    ∃ c, m.wallets.get? wallet = some c ∧ find? c type id = some r :=
  Option.bind_eq_some_iff.mp h

/-- Updating a record changes that record and no other. -/
theorem stored_update (h : m.stored wallet type id = some r) (w : WalletHandle) (t i : String)
    (change : StoredRecord → StoredRecord) :
    (m.update w t i change).memory.stored wallet type id =
      some (if w = wallet ∧ t = type ∧ i = id then change r else r) := by
  obtain ⟨c₀, hw₀, hf₀⟩ := wallet_of_stored h
  cases hw : m.wallets.get? w with
  | none =>
      rw [update_closed t i change hw, if_neg]
      · exact h
      · rintro ⟨rfl, -⟩
        rw [hw₀] at hw
        contradiction
  | some c =>
      cases hf : find? c t i with
      | none =>
          rw [update_absent t i change hw hf, if_neg]
          · exact h
          · rintro ⟨rfl, rfl, rfl⟩
            rw [hw₀] at hw
            obtain rfl := Option.some.inj hw
            rw [hf₀] at hf
            contradiction
      | some r' =>
          rw [update_present t i change hw hf]
          refine (stored_place hw fun j => SortedMap.get?_insert _ _ _ _).trans ?_
          split
          · rename_i hthis
            obtain ⟨rfl, rfl, rfl⟩ := hthis
            rw [← stored_eq hw, h] at hf
            rw [Option.some.inj hf]
          · exact h

/-- An operation that reads a payload first leaves the memory as it was, or goes on. -/
theorem memory_withPayload {α β : Type} {P : Memory → Prop} {payload : Except Json.Error β}
    {go : β → Answer α} (hm : P m) (h : ∀ b, P (go b).memory) :
    P (m.withPayload payload go).memory := by
  cases payload with
  | ok b => exact h b
  | error e => exact hm

/-- Adding a record leaves those alone that are there. -/
theorem stored_add (h : m.stored wallet type id = some r) (w : WalletHandle)
    (t i value tags : String) :
    (m.add w t i value tags).memory.stored wallet type id = some r := by
  refine memory_withPayload (P := fun m => m.stored wallet type id = some r) h fun tags => ?_
  split
  · exact h
  · rename_i c hc
    have hw := collections_eq.mp hc
    split
    · exact h
    · rename_i hf
      refine (stored_place hw fun j => SortedMap.get?_insert _ _ _ _).trans ?_
      rw [if_neg]
      · exact h
      · rintro ⟨rfl, rfl, rfl⟩
        rw [← stored_eq hw, h] at hf
        exact hf rfl

/-- Deleting a record leaves the others alone. -/
theorem stored_delete (h : m.stored wallet type id = some r) {w : WalletHandle} {t i : String}
    (hne : ¬ (w = wallet ∧ t = type ∧ i = id)) :
    (m.delete w t i).memory.stored wallet type id = some r := by
  rw [delete]
  split
  · exact h
  · rename_i c hc
    split
    · exact h
    · refine (stored_place (collections_eq.mp hc) fun j => SortedMap.get?_erase _ _ _).trans ?_
      rw [if_neg hne, h]

theorem memory_get (m : Memory) (w : WalletHandle) (t i options : String) :
    (m.get w t i options).memory = m := by
  refine memory_withPayload (P := (· = m)) rfl fun o => ?_
  split <;> rfl

theorem stored_search (h : m.stored wallet type id = some r) {reply : Reply}
    {request : Call reply} (hr : request.OfSearch) :
    (m.after (.call request)).stored wallet type id = some r :=
  (stored_congr ((changes_perform m request).wallets_eq hr)).trans h

/-- A record whose tags are what a write, if there is one, makes of those of another. -/
def Written (written : Option TagWrite) (r : StoredRecord) (found : Option StoredRecord) : Prop :=
  ∃ r', found = some r' ∧ r'.tags = written.elim r.tags (·.apply r.tags)

/-- A call on the tags of some record, whether its payload can be read or not. -/
theorem written_update (h : m.stored wallet type id = some r) (w : WalletHandle) (t i : String)
    {α : Type} (write : α → TagWrite) (payload : Except Json.Error α) :
    Written ((if w = wallet ∧ t = type ∧ i = id then some (payload.map write) else none).bind
        Except.toOption) r
      ((m.withPayload payload fun a => m.update w t i fun r =>
        { r with tags := (write a).apply r.tags }).memory.stored wallet type id) := by
  cases payload with
  | error e =>
      refine ⟨r, h, ?_⟩
      split <;> rfl
  | ok a =>
      refine ⟨_, stored_update h w t i _, ?_⟩
      split <;> rfl

/-- **An operation that keeps a record writes to its tags what it says, and nothing else.** -/
theorem written_after (hm : m.Numbered) (h : m.stored wallet type id = some r) {op : Operation}
    (hop : ¬ op.Discards wallet type id)
    (hi : op = .openWallet → (m.after op).issued ≤ 0x7FFFFFFF) :
    Written (op.tagWrite? wallet type id) r ((m.after op).stored wallet type id) := by
  obtain ⟨c, hw, hf⟩ := wallet_of_stored h
  match op with
  | .openWallet =>
      -- the handle of the new wallet is not that of the record
      have hne : wallet ≠ ⟨m.nextNumber⟩ := by
        rintro rfl
        rw [hm.newWallet (hi rfl)] at hw
        contradiction
      refine ⟨r, ?_, rfl⟩
      rw [← h, stored, stored, after, openWallet, SortedMap.get?_insert, if_neg hne]
  | .closeWallet w =>
      refine ⟨r, ?_, rfl⟩
      rw [← h, stored, stored, after, closeWallet, SortedMap.get?_erase, if_neg (Ne.symm hop)]
  | .call (.addRecord w t i value tags) => exact ⟨r, stored_add h w t i value tags, rfl⟩
  | .call (.updateRecordValue w t i value) =>
      refine ⟨_, stored_update h w t i _, ?_⟩
      split <;> rfl
  | .call (.updateRecordTags w t i tags) => exact written_update h w t i .replace (Tags.decode tags)
  | .call (.addRecordTags w t i tags) => exact written_update h w t i .merge (Tags.decode tags)
  | .call (.deleteRecordTags w t i names) => exact written_update h w t i .remove (Tags.decodeNames names)
  | .call (.deleteRecord w t i) => exact ⟨r, stored_delete h hop, rfl⟩
  | .call (.getRecord w t i options) =>
      refine ⟨r, ?_, rfl⟩
      rw [after, perform, memory_get, h]
  | .call (.openSearch w t query options) => exact ⟨r, stored_search h trivial, rfl⟩
  | .call (.fetchNextRecords w search count) => exact ⟨r, stored_search h trivial, rfl⟩
  | .call (.closeSearch search) => exact ⟨r, stored_search h trivial, rfl⟩

/-! ### Runs -/

/-- What the calls of a run that can be read write to the tags of a record, in order. -/
def tagWrites (wallet : WalletHandle) (type id : String) (ops : List Operation) : List TagWrite :=
  ops.filterMap (Operation.tagWrite? wallet type id)

/-- The run keeps a record; if it opens wallets, there are numbers for their handles. -/
structure Keeps (m : Memory) (wallet : WalletHandle) (type id : String) (ops : List Operation) :
    Prop where
  spared : ∀ op ∈ ops, ¬ op.Discards wallet type id
  issued : .openWallet ∈ ops → (m.afterAll ops).issued ≤ 0x7FFFFFFF

/-- **A run that keeps a record writes to its tags what its calls say, one after another.** -/
theorem tags_afterAll (hm : m.Reachable) (h : m.stored wallet type id = some r)
    {ops : List Operation} (hk : m.Keeps wallet type id ops) :
    ∃ r', (m.afterAll ops).stored wallet type id = some r' ∧
      r'.tags = TagWrite.applyAll (tagWrites wallet type id ops) r.tags := by
  induction ops generalizing m r with
  | nil => exact ⟨r, h, rfl⟩
  | cons op ops ih =>
      obtain ⟨hop, hops⟩ := List.forall_mem_cons.mp hk.spared
      obtain ⟨r₁, h₁, htags₁⟩ := written_after hm.numbered h hop fun hopen =>
        Nat.le_trans (issued_le_afterAll ops _) (hk.issued (hopen ▸ List.mem_cons_self))
      obtain ⟨r', h', htags'⟩ := ih (hm.after op) h₁
        ⟨hops, fun hopen => hk.issued (List.mem_cons_of_mem op hopen)⟩
      refine ⟨r', h', ?_⟩
      rw [htags', htags₁, tagWrites, tagWrites, List.filterMap_cons]
      cases op.tagWrite? wallet type id <;> rfl

/-- A part of a run that keeps a record keeps it as well. -/
theorem Keeps.before {before later : List Operation}
    (hk : m.Keeps wallet type id (before ++ later)) : m.Keeps wallet type id before where
  spared op hop := hk.spared op (List.mem_append_left later hop)
  issued hopen := by
    have hissued := hk.issued (List.mem_append_left later hopen)
    rw [afterAll_append] at hissued
    exact Nat.le_trans (issued_le_afterAll later _) hissued

/-- A write to the tags of a record that is there succeeds if its payload can be read. -/
theorem succeeds_write (h : m.stored wallet type id = some r) {α : Type} (write : α → TagWrite)
    (payload : Except Json.Error α) :
    (∃ a, (m.withPayload payload fun b => m.update wallet type id fun r =>
      { r with tags := (write b).apply r.tags }).result = .ok a) ↔
      ∃ w, payload.map write = .ok w := by
  obtain ⟨c, hw, hf⟩ := wallet_of_stored h
  cases payload with
  | error e => exact ⟨nofun, nofun⟩
  | ok b =>
      refine ⟨fun _ => ⟨write b, rfl⟩, fun _ => ⟨(), ?_⟩⟩
      rw [withPayload, update_present type id _ hw hf]

/-- **A call on the tags of a record that is there succeeds exactly if its payload can be read.** -/
theorem succeeds_onTags (h : m.stored wallet type id = some r) {reply : Reply}
    {request : Call reply} {written : Except Json.Error TagWrite}
    (hon : (Operation.call request).onTags? wallet type id = some written) :
    (∃ a, (m.perform reply request).result = .ok a) ↔ ∃ w, written = .ok w := by
  match request with
  | .updateRecordTags w t i tags =>
      obtain ⟨⟨rfl, rfl, rfl⟩, ⟨⟩⟩ := Option.ite_none_right_eq_some.mp hon
      exact succeeds_write h .replace (Tags.decode tags)
  | .addRecordTags w t i tags =>
      obtain ⟨⟨rfl, rfl, rfl⟩, ⟨⟩⟩ := Option.ite_none_right_eq_some.mp hon
      exact succeeds_write h .merge (Tags.decode tags)
  | .deleteRecordTags w t i names =>
      obtain ⟨⟨rfl, rfl, rfl⟩, ⟨⟩⟩ := Option.ite_none_right_eq_some.mp hon
      exact succeeds_write h .remove (Tags.decodeNames names)

/-- **Of the writes to a tag the last one counts.**  In a run that keeps a record, whatever else is
done in it, a call on the tags of the record succeeds exactly if its payload can be read, and in the
end each name has what the last such call gives it that concerns the name, or what it had in the
beginning if no call does.  So two runs leave the same tags if they differ in their other operations
only, if two neighbouring calls that concern different names are exchanged, or if the last call is
repeated. -/
theorem last_write_counts (hm : m.Reachable) (h : m.stored wallet type id = some r)
    {ops : List Operation} (hk : m.Keeps wallet type id ops) :
    (∀ before later reply (request : Call reply) written,
      ops = before ++ .call request :: later →
      (Operation.call request).onTags? wallet type id = some written →
      ((∃ a, ((m.afterAll before).perform reply request).result = .ok a) ↔
        ∃ w, written = .ok w)) ∧
    (∃ r', (m.afterAll ops).stored wallet type id = some r' ∧ ∀ name,
      TagWrite.Leaves name (r.tags.get? name) (tagWrites wallet type id ops)
        (r'.tags.get? name)) ∧
    ∀ ops', m.Keeps wallet type id ops' →
      (tagWrites wallet type id ops = tagWrites wallet type id ops' ∨
        TagWrite.Rearranged (tagWrites wallet type id ops) (tagWrites wallet type id ops')) →
      ((m.afterAll ops').stored wallet type id).map (·.tags) =
        ((m.afterAll ops).stored wallet type id).map (·.tags) := by
  obtain ⟨r', h', htags⟩ := tags_afterAll hm h hk
  refine ⟨?_, ⟨r', h', fun name => ?_⟩, fun ops' hk' hwrites => ?_⟩
  · rintro before later reply request written rfl hon
    obtain ⟨r₁, h₁, -⟩ := tags_afterAll hm h hk.before
    exact succeeds_onTags h₁ hon
  · rw [htags]
    exact TagWrite.leaves_applyAll name _ r.tags
  · obtain ⟨r₂, h₂, htags₂⟩ := tags_afterAll hm h hk'
    have happly : TagWrite.applyAll (tagWrites wallet type id ops') r.tags =
        TagWrite.applyAll (tagWrites wallet type id ops) r.tags := by
      rcases hwrites with hsame | hrearranged
      · rw [hsame]
      · exact (hrearranged.applyAll_eq r.tags).symm
    rw [h', h₂, Option.map_some, Option.map_some, htags, htags₂, happly]

/-- A wallet with a record that has two tags. -/
def taggedRecord : Memory :=
  empty.afterAll [.openWallet,
    .call (.addRecord ⟨1⟩ "type" "id" "value" "\x7b\"a\":\"1\",\"b\":\"2\"\x7d")]

/-- Tags are added and removed, one of them twice and one that is not there; the value is replaced and
a wallet opened meanwhile. -/
def taggingRun : List Operation :=
  [.call (.addRecordTags ⟨1⟩ "type" "id" "\x7b\"c\":\"3\",\"a\":\"4\"\x7d"), .openWallet,
    .call (.updateRecordValue ⟨1⟩ "type" "id" "changed"),
    .call (.deleteRecordTags ⟨1⟩ "type" "id" "[\"b\",\"d\",\"b\"]")]

/-- The same writes in the other order, and nothing else. -/
def taggingAgain : List Operation :=
  [.call (.deleteRecordTags ⟨1⟩ "type" "id" "[\"b\",\"d\",\"b\"]"),
    .call (.addRecordTags ⟨1⟩ "type" "id" "\x7b\"c\":\"3\",\"a\":\"4\"\x7d")]

theorem last_write_counts_taggingRun :
    let r : StoredRecord := ⟨"value", .ofList [("a", "1"), ("b", "2")]⟩
    taggedRecord.Reachable ∧ taggedRecord.stored ⟨1⟩ "type" "id" = some r ∧
      taggedRecord.Keeps ⟨1⟩ "type" "id" taggingRun ∧
      (∃ r', (taggedRecord.afterAll taggingRun).stored ⟨1⟩ "type" "id" = some r' ∧ ∀ name,
        TagWrite.Leaves name (r.tags.get? name) (tagWrites ⟨1⟩ "type" "id" taggingRun)
          (r'.tags.get? name)) ∧
      ((taggedRecord.afterAll taggingAgain).stored ⟨1⟩ "type" "id").map (·.tags) =
        ((taggedRecord.afterAll taggingRun).stored ⟨1⟩ "type" "id").map (·.tags) := by
  intro r
  have hm : taggedRecord.Reachable := Reachable.empty.afterAll _
  have h : taggedRecord.stored ⟨1⟩ "type" "id" = some r := by decide
  have hk : taggedRecord.Keeps ⟨1⟩ "type" "id" taggingRun :=
    ⟨by simp [taggingRun, Operation.Discards],
      fun _ => Nat.le_trans (issued_afterAll_le _ _) (by decide)⟩
  have hk' : taggedRecord.Keeps ⟨1⟩ "type" "id" taggingAgain :=
    ⟨by simp [taggingAgain, Operation.Discards], by simp [taggingAgain]⟩
  have hapart : (TagWrite.merge (.ofList [("c", "3"), ("a", "4")])).Apart
      (.remove ["b", "d", "b"]) := by
    rintro name ⟨hmerged, hremoved⟩
    have hname : name ∈ ["b", "d", "b"] := hremoved
    simp only [List.mem_cons, List.not_mem_nil, or_false] at hname
    rcases hname with rfl | rfl | rfl <;> exact absurd hmerged (by decide)
  obtain ⟨-, hlast, hsame⟩ := last_write_counts hm h hk
  exact ⟨hm, h, hk, hlast, hsame taggingAgain hk' (.inr (.swap [] hapart []))⟩

end Memory

end TaggedRecords
