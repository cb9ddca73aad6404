import TaggedRecords.Proofs.Memory.Answers
import TaggedRecords.Proofs.Memory.Snapshots

/-!
# Memories — what is refused leaves no trace

**A call that fails changes nothing, and neither does closing a wallet that is not open**
(`Memory.refused_unchanged`).  Three operations look as if they might.

A record is added by first making a place for its type; but an id that is present lies in a type
that has a place already (`Memory.addInPlace_eq`).  A wallet is closed by first discarding its
searches; but a wallet that is not open has none (`Memory.Numbered.closeWallet_eq`).  A fetch takes
records away before its batch is written; but from there on nothing fails (`Memory.fetch_eq`), and a
fetch through another wallet takes none (`Memory.fetch_elsewhere`).
-/

namespace TaggedRecords.Memory

variable {m : Memory} {wallet : WalletHandle}

/-! ### Adding a record -/

/-- Adds a record in place: its type gets a place before its id is looked up. -/
def addInPlace (m : Memory) (wallet : WalletHandle) (type id value tags : String) : Answer Unit :=
  m.withPayload (Tags.decode tags) fun tags =>
    match m.collections wallet with
    | .error e => m.refuse e
    | .ok c =>
      let records := ofType c type
      let placed := m.putType wallet c type records
      if records.contains id then placed.refuse (.wallet .itemAlreadyExists)
      else
        ⟨.ok (),
          placed.putType wallet (c.insert type records) type (records.insert id ⟨value, tags⟩), []⟩

/-- A type with records has a place. -/
theorem get?_of_find? {c : Collections} {type id : String} {r : StoredRecord}
    (h : find? c type id = some r) : c.get? type = some (ofType c type) := by
  rw [find?] at h
  rw [ofType]
  cases ht : c.get? type with
  | none =>
      rw [ht] at h
      contradiction
  | some records => rfl

/-- Making a place that is there changes nothing. -/
theorem putType_eq_self {c : Collections} {type : String} (h : m.wallets.get? wallet = some c)
    (ht : c.get? type = some (ofType c type)) : m.putType wallet c type (ofType c type) = m := by
  rw [putType, SortedMap.insert_eq_self ht, SortedMap.insert_eq_self h]

/-- Of two changes to a type in a row the second one stays. -/
theorem putType_putType (m : Memory) (wallet : WalletHandle) (c : Collections) (type : String)
    (records records' : SortedMap String StoredRecord) :
    (m.putType wallet c type records).putType wallet (c.insert type records) type records' =
      m.putType wallet c type records' := by
  rw [putType, putType, putType, SortedMap.insert_insert, SortedMap.insert_insert]

/-- **Adding a record in place comes to the same**, whether it is refused or not. -/
theorem addInPlace_eq (m : Memory) (wallet : WalletHandle) (type id value tags : String) :
    m.addInPlace wallet type id value tags = m.add wallet type id value tags := by
  rw [addInPlace, add]
  congr 1
  funext tags
  cases hc : m.collections wallet with
  | error e => rfl
  | ok c =>
      have hw := collections_eq.mp hc
      have hfound : (ofType c type).contains id = (find? c type id).isSome := by
        rw [SortedMap.contains, find?_eq]
      cases hf : find? c type id with
      | none =>
          rw [hf] at hfound
          simp [hfound, hf, putType_putType]
      | some r =>
          rw [hf] at hfound
          simp [hfound, hf, putType_eq_self hw (get?_of_find? hf)]

/-! ### Closing a wallet -/

/-- **A wallet that is not open has neither records nor searches that closing it could discard.** -/
theorem Numbered.closeWallet_eq (h : m.Numbered) (hw : (m.closeWallet wallet).1 = false) :
    (m.closeWallet wallet).2 = m := by
  have hnone : m.wallets.get? wallet = none :=
    Option.isNone_iff_eq_none.mp (Option.isSome_eq_false_iff.mp hw)
  have hsearches : m.searches.filter (fun _ search => search.wallet ≠ wallet) = m.searches := by
    refine SortedMap.filter_eq_self fun search s hs => decide_eq_true ?_
    rintro rfl
    -- the wallet of an open search would be open
    have hopen := (h.searches hs).2
    rw [hnone] at hopen
    contradiction
  rw [closeWallet, SortedMap.erase_eq_self hnone, hsearches]

/-! ### Fetching -/

/-- A fetch through a wallet that is not that of the search is refused. -/
theorem fetch_elsewhere {search : SearchHandle} {s : OpenSearch}
    (h : m.searches.get? search = some s) (hw : wallet ≠ s.wallet) (count : UInt64) :
    m.fetch wallet search count = m.refuse (.wallet .invalidHandle) := by
  have hnone : (m.searches.get? search).filter (·.wallet = wallet) = none := by
    rw [h, Option.filter, if_neg]
    exact fun he => hw (of_decide_eq_true he).symm
  rw [fetch, hnone]

/-! ### Refusals -/

/-- **What is refused changes nothing.**  A call that is completed with a failure leaves the memory
as it was, whatever its arguments are, and so does closing a wallet that is not open.  Neither is a
place for a type left behind where a record is added in place and refused; a fetch through another
wallet takes nothing away, and one that takes records away succeeds and brings them. -/
theorem refused_unchanged (hm : m.Reachable) :
    (∀ (reply : Reply) (request : Call reply) (e : Failure),
      (store.respond m reply request).1.completion.outcome = .error e →
        (store.respond m reply request).2.2 = m) ∧
    (∀ wallet, (m.closeWallet wallet).1 = false → (m.closeWallet wallet).2 = m) ∧
    (∀ wallet type id value tags,
      m.addInPlace wallet type id value tags = m.add wallet type id value tags) ∧
    (∀ search s, m.searches.get? search = some s → ∀ count : UInt64,
      (∀ wallet, wallet ≠ s.wallet →
        m.fetch wallet search count = m.refuse (.wallet .invalidHandle)) ∧
      (store.respond m .text (.fetchNextRecords s.wallet search count)).1.completion.outcome =
          .ok (s.batch count).encode ∧
      (store.respond m .text (.fetchNextRecords s.wallet search count)).2.2 =
          m.withPending search s (s.pending.drop count.toNat)) := by
  refine ⟨fun reply request e he => ?_, fun wallet hw => hm.numbered.closeWallet_eq hw,
    addInPlace_eq m, fun search s hs count => ⟨fun wallet hw => ?_, ?_, ?_⟩⟩
  · rw [outcome_respond] at he
    exact (settled_perform m request).memory_eq he
  · exact fetch_elsewhere hs hw count
  · rw [outcome_respond, perform, fetch_eq hs]
    rfl
  · show (m.fetch s.wallet search count).memory = _
    rw [fetch_eq hs]

/-- A search is opened over four records of the filled wallet, and one of them is fetched. -/
def searching : List Operation :=
  filling ++
    [.call (.openSearch ⟨1⟩ "type" (Filter.compile .always).encode onlyValues.encode),
      .call (.fetchNextRecords ⟨1⟩ ⟨2⟩ 1)]

/-- The memory with that search. -/
def searched : Memory := empty.afterAll searching

/-- The search has three records left. -/
def searchedLeft : OpenSearch := ⟨⟨1⟩, 4, filledListing.drop 1, onlyValues⟩

theorem searched_eq :
    searched = ⟨2, .ofList [(⟨1⟩, filledCollections)], .ofList [(⟨2⟩, searchedLeft)]⟩ := by
  have hopen := after_openSearch_filled filled_wallet
  rw [searched, searching, afterAll_append, ← filled, afterAll_cons, hopen, filled_eq]
  decide

/-- An id that is present cannot be added, a record of another type not be deleted, and the handle of
a search is none of a wallet; a fetch of the right wallet brings the next records. -/
theorem refused_unchanged_searched : searched.Reachable ∧
    (store.respond searched .nothing (.addRecord ⟨1⟩ "type" "a" "again" "\x7b\x7d")).2.2 =
      searched ∧
    (store.respond searched .nothing (.deleteRecord ⟨1⟩ "type" "e")).2.2 = searched ∧
    (searched.closeWallet ⟨2⟩).2 = searched ∧
    searched.fetch ⟨2⟩ ⟨2⟩ 2 = searched.refuse (.wallet .invalidHandle) ∧
    (store.respond searched .text (.fetchNextRecords ⟨1⟩ ⟨2⟩ 2)).1.completion.outcome =
      .ok (Batch.encode ⟨some 4, some [⟨"b", none, some "two", none⟩,
        ⟨"c", none, some "three", none⟩]⟩) := by
  have hm : searched.Reachable := Reachable.empty.afterAll searching
  obtain ⟨hcalls, hclose, -, hfetch⟩ := refused_unchanged hm
  have hsearch : searched.searches.get? ⟨2⟩ = some searchedLeft := by
    rw [searched_eq]
    decide
  refine ⟨hm, hcalls .nothing _ (.wallet .itemAlreadyExists) ?_,
    hcalls .nothing _ (.wallet .itemNotFound) ?_, hclose ⟨2⟩ ?_,
    (hfetch ⟨2⟩ _ hsearch 2).1 ⟨2⟩ (by decide), (hfetch ⟨2⟩ _ hsearch 2).2.1⟩
  · rw [outcome_respond, searched_eq]
    rfl
  · rw [outcome_respond, searched_eq]
    rfl
  · rw [searched_eq]
    decide

end TaggedRecords.Memory
