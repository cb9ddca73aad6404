import TaggedRecords.Store.Memory

/-!
# Memories — operations and runs

A memory changes by opening and closing wallets and by calls (`Memory.Operation`).  What a call
may do to it is one of five things (`Memory.Changes`): nothing at all, new records in an open
wallet, and the three steps of a search.

**In a memory that has been reached from the empty one every open handle has been issued**
(`Memory.Reachable.numbered`), so the next handle is new as long as the numbers of 32 bits last
(`Memory.Numbered.newWallet`, `Memory.Numbered.newSearch`).
-/

namespace TaggedRecords

/-- The call is one of a search. -/
def Call.OfSearch {reply : Reply} : Call reply → Prop
  | .openSearch .. | .fetchNextRecords .. | .closeSearch .. => True
  | _ => False

namespace Memory

/-! ### Runs -/

/-- What can be done to a memory. -/
inductive Operation where
  | openWallet
  | closeWallet (wallet : WalletHandle)
  | call {reply : Reply} (request : Call reply)

/-- The memory after an operation. -/
def after (m : Memory) : Operation → Memory
  | .openWallet => m.openWallet.2.1
  | .closeWallet wallet => (m.closeWallet wallet).2
  | .call request => (m.perform _ request).memory

/-- The memory after several operations. -/
def afterAll (m : Memory) (ops : List Operation) : Memory := ops.foldl after m

@[simp] theorem afterAll_cons (m : Memory) (op : Operation) (ops : List Operation) :
    m.afterAll (op :: ops) = (m.after op).afterAll ops := rfl

theorem afterAll_append (m : Memory) (ops ops' : List Operation) :
    m.afterAll (ops ++ ops') = (m.afterAll ops).afterAll ops' := List.foldl_append

/-- A memory that the empty one has become. -/
inductive Reachable : Memory → Prop where
  | empty : Reachable empty
  | after {m : Memory} (h : Reachable m) (op : Operation) : Reachable (m.after op)

theorem Reachable.afterAll {m : Memory} (h : m.Reachable) (ops : List Operation) :
    (m.afterAll ops).Reachable := by
  induction ops generalizing m with
  | nil => exact h
  | cons op ops ih => exact ih (h.after op)

/-! ### What a call changes -/

/-- The memory after a search has been opened. -/
def withSearch (m : Memory) (s : OpenSearch) : Memory :=
  { m with issued := m.issued + 1, searches := m.searches.insert ⟨m.nextNumber⟩ s }

/-- The memory with other records left in a search. -/
def withPending (m : Memory) (search : SearchHandle) (s : OpenSearch) (pending : List Record) :
    Memory :=
  { m with searches := m.searches.insert search { s with pending := pending } }

theorem get?_withSearch (m : Memory) (s : OpenSearch) (search : SearchHandle) :
    (m.withSearch s).searches.get? search =
      if search = ⟨m.nextNumber⟩ then some s else m.searches.get? search :=
  SortedMap.get?_insert _ _ _ _

theorem get?_withPending (m : Memory) (search : SearchHandle) (s : OpenSearch)
    (pending : List Record) (search' : SearchHandle) :
    (m.withPending search s pending).searches.get? search' =
      if search' = search then some { s with pending := pending } else m.searches.get? search' :=
  SortedMap.get?_insert _ _ _ _

/-- What a call may make of a memory. -/
inductive Changes (m : Memory) : {reply : Reply} → Call reply → Memory → Prop where
  | nothing {reply : Reply} (request : Call reply) : Changes m request m
  | records {reply : Reply} {request : Call reply} {wallet : WalletHandle} {c : Collections}
      (hr : ¬ request.OfSearch) (h : m.wallets.get? wallet = some c) (c' : Collections) :
      Changes m request { m with wallets := m.wallets.insert wallet c' }
  | opened {wallet : WalletHandle} {type query options : String} {c : Collections}
      (h : m.wallets.get? wallet = some c) (pending : List Record) (o : SearchOptions) :
      Changes m (.openSearch wallet type query options)
        (m.withSearch ⟨wallet, pending.length, pending, o⟩)
  | fetched {search : SearchHandle} {count : UInt64} {s : OpenSearch}
      (h : m.searches.get? search = some s) :
      Changes m (.fetchNextRecords s.wallet search count)
        (m.withPending search s (s.pending.drop count.toNat))
  | closed {search : SearchHandle} :
      Changes m (.closeSearch search) { m with searches := m.searches.erase search }

variable {m m' : Memory} {α β : Type} {reply : Reply} {request : Call reply}

theorem collections_eq {wallet : WalletHandle} {c : Collections} :
    m.collections wallet = .ok c ↔ m.wallets.get? wallet = some c := by
  rw [collections]
  cases m.wallets.get? wallet <;> simp

/-- A payload that cannot be read changes nothing. -/
theorem Changes.withPayload {payload : Except Json.Error β} {go : β → Answer α}
    (h : ∀ b, m.Changes request (go b).memory) :
    m.Changes request (m.withPayload payload go).memory := by
  cases payload with
  | ok b => exact h b
  | error e => exact .nothing request

theorem changes_update (hr : ¬ request.OfSearch) (wallet : WalletHandle) (type id : String)
    (change : StoredRecord → StoredRecord) :
    m.Changes request (m.update wallet type id change).memory := by
  rw [update]
  split
  · exact .nothing request
  · rename_i c hc
    split
    · exact .nothing request
    · exact .records hr (collections_eq.mp hc) _

/-- **Whatever a call asks for, it changes the memory in one of the five ways.** -/
theorem changes_perform (m : Memory) : ∀ {reply : Reply} (request : Call reply),
    m.Changes request (m.perform reply request).memory
  | _, .addRecord wallet type id value tags => .withPayload fun _ => by
      split
      · exact .nothing _
      · rename_i c hc
        split
        · exact .nothing _
        · exact .records (by exact fun h => h) (collections_eq.mp hc) _
  | _, .updateRecordValue wallet type id value =>
      changes_update (by exact fun h => h) wallet type id _
  | _, .updateRecordTags wallet type id _ | _, .addRecordTags wallet type id _
  | _, .deleteRecordTags wallet type id _ =>
      .withPayload fun _ => changes_update (by exact fun h => h) wallet type id _
  | _, .deleteRecord wallet type id => by
      rw [perform, delete]
      split
      · exact .nothing _
      · rename_i c hc
        split
        · exact .nothing _
        · exact .records (by exact fun h => h) (collections_eq.mp hc) _
  | _, .getRecord wallet type id options => .withPayload fun _ => by
      split <;> exact .nothing _
  | _, .openSearch wallet type query options => by
      rw [perform, openSearch]
      split
      · exact .nothing _
      · refine .withPayload fun o => ?_
        split
        · exact .nothing _
        · rename_i c hc
          exact .opened (collections_eq.mp hc) _ o
  | _, .fetchNextRecords wallet search count => by
      rw [perform, fetch]
      split
      · exact .nothing _
      · -- the search that is found is one of the wallet that was given
        rename_i s hfound
        obtain ⟨hs, hw⟩ := Option.filter_eq_some_iff.mp hfound
        obtain rfl := of_decide_eq_true hw
        exact .fetched hs
  | _, .closeSearch search => by
      rw [perform, closeSearch]
      split
      · exact .closed
      · exact .nothing _

/-- The calls of a search do not touch the wallets. -/
theorem Changes.wallets_eq (h : m.Changes request m') (hr : request.OfSearch) :
    m'.wallets = m.wallets := by
  cases h with
  | nothing | opened | fetched | closed => rfl
  | records hn => exact absurd hr hn

/-! ### Records -/

/-- The record of a type and id in a wallet, if the wallet is open and has it. -/
def stored (m : Memory) (wallet : WalletHandle) (type id : String) : Option StoredRecord :=
  (m.wallets.get? wallet).bind (find? · type id)

theorem find?_eq (c : Collections) (type id : String) :
    find? c type id = (ofType c type).get? id := by
  rw [find?, ofType]
  cases c.get? type <;> rfl

theorem stored_eq {wallet : WalletHandle} {c : Collections} (h : m.wallets.get? wallet = some c)
    (type id : String) : m.stored wallet type id = find? c type id := by
  rw [stored, h, Option.bind_some]

/-- **Other records of a type in a wallet change nothing else.** -/
theorem stored_putType {wallet : WalletHandle} {c : Collections}
    (h : m.wallets.get? wallet = some c) (type : String) (records : SortedMap String StoredRecord)
    (wallet' : WalletHandle) (type' id' : String) :
    (m.putType wallet c type records).stored wallet' type' id' =
      if wallet' = wallet ∧ type' = type then records.get? id'
      else m.stored wallet' type' id' := by
  rw [stored, putType, SortedMap.get?_insert]
  by_cases hw : wallet' = wallet
  · subst hw
    rw [if_pos rfl, Option.bind_some, find?, SortedMap.get?_insert, stored_eq h, find?]
    by_cases ht : type' = type
    · rw [if_pos ht, if_pos ⟨rfl, ht⟩, Option.bind_some]
    · rw [if_neg ht, if_neg fun hwt => ht hwt.2]
  · rw [if_neg hw, if_neg fun hwt => hw hwt.1, stored]

/-! ### Wallets that are not open -/

section

variable {wallet : WalletHandle}

theorem collections_closed (h : m.wallets.get? wallet = none) :
    m.collections wallet = .error (.wallet .invalidHandle) := by
  rw [collections, h]

theorem update_closed (type id : String) (change : StoredRecord → StoredRecord)
    (h : m.wallets.get? wallet = none) :
    m.update wallet type id change = m.refuse (.wallet .invalidHandle) := by
  rw [update, collections_closed h]

theorem record_closed (h : m.wallets.get? wallet = none) (type id : String) :
    m.record wallet type id = .error (.wallet .invalidHandle) := by
  rw [record, collections_closed h]
  rfl

end

/-! ### Numbers of handles -/

/-- The number of a handle that has been issued. -/
def Issued (m : Memory) (raw : Int32) : Prop := ∃ n, 1 ≤ n ∧ n ≤ m.issued ∧ raw = .ofNat n

/-- Every open wallet and every open search has a number that has been issued, and every search is
one of an open wallet. -/
structure Numbered (m : Memory) : Prop where
  wallets : ∀ {wallet c}, m.wallets.get? wallet = some c → m.Issued wallet.raw
  searches : ∀ {search s}, m.searches.get? search = some s →
    m.Issued search.raw ∧ (m.wallets.get? s.wallet).isSome

theorem Issued.mono {raw : Int32} (h : m.Issued raw) (hle : m.issued ≤ m'.issued) :
    m'.Issued raw := by
  obtain ⟨n, h1, hn, hraw⟩ := h
  exact ⟨n, h1, Nat.le_trans hn hle, hraw⟩

theorem Issued.next (m : Memory) {m' : Memory} (h : m'.issued = m.issued + 1) :
    m'.Issued m.nextNumber :=
  ⟨m.issued + 1, Nat.succ_le_succ (Nat.zero_le _), Nat.le_of_eq h.symm, rfl⟩

theorem Changes.issued_le (h : m.Changes request m') : m.issued ≤ m'.issued := by
  cases h with
  | nothing | records | fetched | closed => exact Nat.le_refl _
  | opened => exact Nat.le_succ _

/-- No operation takes numbers back. -/
theorem issued_le_after (m : Memory) : ∀ op : Operation, m.issued ≤ (m.after op).issued
  | .openWallet => Nat.le_succ _
  | .closeWallet _ => Nat.le_refl _
  | .call request => (changes_perform m request).issued_le

theorem issued_le_afterAll (ops : List Operation) (m : Memory) :
    m.issued ≤ (m.afterAll ops).issued := by
  induction ops generalizing m with
  | nil => exact Nat.le_refl _
  | cons op ops ih => exact Nat.le_trans (issued_le_after m op) (ih _)

theorem Changes.issued_le_succ (h : m.Changes request m') : m'.issued ≤ m.issued + 1 := by
  cases h with
  | nothing | records | fetched | closed => exact Nat.le_succ _
  | opened => exact Nat.le_refl _

/-- No operation takes more than one number. -/
theorem issued_after_le (m : Memory) : ∀ op : Operation, (m.after op).issued ≤ m.issued + 1
  | .openWallet => Nat.le_refl _
  | .closeWallet _ => Nat.le_succ _
  | .call request => (changes_perform m request).issued_le_succ

theorem issued_afterAll_le (ops : List Operation) (m : Memory) :
    (m.afterAll ops).issued ≤ m.issued + ops.length := by
  induction ops generalizing m with
  | nil => exact Nat.le_refl _
  | cons op ops ih =>
      have hstep := issued_after_le m op
      have hrest := ih (m.after op)
      rw [afterAll_cons, List.length_cons]
      omega

theorem numbered_empty : empty.Numbered := ⟨nofun, nofun⟩

/-- Records are put into wallets that are open already. -/
theorem Numbered.records (h : m.Numbered) {wallet : WalletHandle} {c : Collections}
    (hw : m.wallets.get? wallet = some c) (c' : Collections) :
    Numbered { m with wallets := m.wallets.insert wallet c' } where
  wallets {w _} hget := by
    rw [SortedMap.get?_insert] at hget
    split at hget
    · rename_i heq
      subst heq
      exact h.wallets hw
    · exact h.wallets hget
  searches {_ s} hget := by
    obtain ⟨hissued, hopen⟩ := h.searches hget
    refine ⟨hissued, ?_⟩
    rw [SortedMap.get?_insert]
    split
    · rfl
    · exact hopen

/-- A search is bound that is one of an open wallet and whose number has been issued. -/
theorem Numbered.search (h : m.Numbered) {issued : Nat} (hle : m.issued ≤ issued)
    {search : SearchHandle} {s : OpenSearch} (hs : Issued { m with issued := issued } search.raw)
    (hw : (m.wallets.get? s.wallet).isSome) :
    Numbered { m with issued := issued, searches := m.searches.insert search s } where
  wallets hget := (h.wallets hget).mono hle
  searches {_ _} hget := by
    rw [SortedMap.get?_insert] at hget
    split at hget
    · rename_i heq
      obtain rfl := Option.some.inj hget
      exact ⟨heq ▸ hs, hw⟩
    · exact ⟨(h.searches hget).1.mono hle, (h.searches hget).2⟩

theorem Numbered.changes (h : m.Numbered) (hc : m.Changes request m') : m'.Numbered := by
  cases hc with
  | nothing => exact h
  | records _ hw c' => exact h.records hw c'
  | opened hw pending o =>
      refine h.search (Nat.le_succ _) (.next m rfl) ?_
      rw [hw]
      rfl
  | fetched hs =>
      obtain ⟨hissued, hopen⟩ := h.searches hs
      exact h.search (Nat.le_refl _) hissued hopen
  | closed =>
      refine ⟨h.wallets, fun {_ _} hget => ?_⟩
      rw [SortedMap.get?_erase] at hget
      split at hget
      · contradiction
      · exact h.searches hget

/-- **No operation opens what has not been issued, nor leaves a search of a closed wallet.** -/
theorem Numbered.after (h : m.Numbered) : ∀ op : Operation, (m.after op).Numbered
  | .openWallet =>
      { wallets := fun {w _} hget => by
          rw [Memory.after, openWallet, SortedMap.get?_insert] at hget
          split at hget
          · rename_i heq
            exact heq ▸ .next m rfl
          · exact (h.wallets hget).mono (Nat.le_succ _)
        searches := fun {_ s} hget => by
          obtain ⟨hissued, hopen⟩ := h.searches hget
          refine ⟨hissued.mono (Nat.le_succ _), ?_⟩
          rw [Memory.after, openWallet, SortedMap.get?_insert]
          split
          · rfl
          · exact hopen }
  | .closeWallet wallet =>
      { wallets := fun {w _} hget => by
          rw [Memory.after, closeWallet, SortedMap.get?_erase] at hget
          split at hget
          · contradiction
          · exact h.wallets hget
        searches := fun {_ s} hget => by
          rw [Memory.after, closeWallet, SortedMap.get?_filter] at hget
          obtain ⟨hget, hw⟩ := Option.filter_eq_some_iff.mp hget
          obtain ⟨hissued, hopen⟩ := h.searches hget
          refine ⟨hissued, ?_⟩
          rw [Memory.after, closeWallet, SortedMap.get?_erase, if_neg (of_decide_eq_true hw)]
          exact hopen }
  | .call request => h.changes (changes_perform m request)

theorem Reachable.numbered (h : m.Reachable) : m.Numbered := by
  induction h with
  | empty => exact numbered_empty
  | after _ op ih => exact ih.after op

/-- The numbers of 32 bits are different. -/
theorem ofNat_inj {a b : Nat} (ha : a ≤ 0x7FFFFFFF) (hb : b ≤ 0x7FFFFFFF)
    (h : Int32.ofNat a = Int32.ofNat b) : a = b := by
  have := congrArg Int32.toInt h
  rw [Int32.toInt_ofNat_of_lt (by omega), Int32.toInt_ofNat_of_lt (by omega)] at this
  omega

/-- While numbers last the next one has not been issued. -/
theorem not_issued_nextNumber (h : m.issued < 0x7FFFFFFF) : ¬ m.Issued m.nextNumber := by
  rintro ⟨n, -, hn, hraw⟩
  have := ofNat_inj (by omega) (by omega) hraw
  omega

/-- **The handle of the next wallet is new.** -/
theorem Numbered.newWallet (h : m.Numbered) (hi : m.issued < 0x7FFFFFFF) :
    m.wallets.get? ⟨m.nextNumber⟩ = none :=
  Option.eq_none_iff_forall_ne_some.mpr fun _ hc => not_issued_nextNumber hi (h.wallets hc)

/-- **The handle of the next search is new.** -/
theorem Numbered.newSearch (h : m.Numbered) (hi : m.issued < 0x7FFFFFFF) :
    m.searches.get? ⟨m.nextNumber⟩ = none :=
  Option.eq_none_iff_forall_ne_some.mpr fun _ hs => not_issued_nextNumber hi (h.searches hs).1

end Memory

end TaggedRecords
