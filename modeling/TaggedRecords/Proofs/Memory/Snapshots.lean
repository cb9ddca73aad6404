import TaggedRecords.Proofs.Filters
import TaggedRecords.Proofs.Memory.Operations
import TaggedRecords.Proofs.Payloads

/-!
# Memories — searches as snapshots

What a search hands out is settled when it is opened: the records of a wallet and type whose tags
are accepted, in ascending order of their ids (`Memory.Lists`), which is one list only
(`Memory.Lists.unique`).

**Whatever is done to the memory as long as neither the search nor its wallet is closed, a fetch
brings the next part of that list** (`Memory.fetch_snapshot`).  An operation moves a search on by
what it fetches from it, and by nothing else (`Memory.search_after`); by induction a run moves it on
by all that it fetches (`Memory.search_afterAll`).
-/

namespace TaggedRecords

/-- The batch of a page of a search with a total number of matches: the total if it was asked for,
the records if they were asked for and there are some. -/
def Batch.ofPage (o : SearchOptions) (total : Nat) (page : List Record) : Batch where
  totalCount := if o.includeCount then some (.ofNat total) else none
  records := if o.includeRecords && !page.isEmpty then some page else none

theorem Batch.page_ofPage (o : SearchOptions) (total : Nat) (page : List Record) :
    (ofPage o total page).page = if o.includeRecords then page else [] := by
  rw [Batch.page, ofPage]
  cases o.includeRecords <;> cases page <;> rfl

/-- What a fetch of `count` records from a search brings. -/
def OpenSearch.batch (s : OpenSearch) (count : UInt64) : Batch :=
  .ofPage s.options s.totalCount (s.pending.take count.toNat)

namespace Memory

/-! ### Listings -/

/-- The records of a wallet and type whose tags are accepted, each with the parts that options ask
for and no others: each once, in ascending order of their ids. -/
structure Lists (m : Memory) (wallet : WalletHandle) (type : String) (accepts : Tags → Prop)
    (o : SearchOptions) (records : List Record) : Prop where
  ascending : records.Pairwise fun r r' => r.id < r'.id
  mem_iff : ∀ r, r ∈ records ↔
    ∃ s, m.stored wallet type r.id = some s ∧ accepts s.tags ∧
      r.type = (if o.includeType then some type else none) ∧
      r.value = (if o.includeValue then some s.value else none) ∧
      r.tags = (if o.includeTags then some s.tags else none)

variable {m : Memory} {wallet : WalletHandle} {search : SearchHandle} {s : OpenSearch}

theorem ascending_select (c : Collections) (type : String) (query : Query) (o : SearchOptions) :
    (select c type query o).Pairwise fun r r' => r.id < r'.id := by
  have hsorted := (ofType c type).ascending.filter fun e => query.holds e.2.tags
  exact List.pairwise_map.mpr (hsorted.imp fun hlt => compareOfLessAndEq_eq_lt.mp hlt)

/-- **A store selects what the listing lists.** -/
theorem lists_select {c : Collections} (h : m.wallets.get? wallet = some c) (type : String)
    (query : Query) (o : SearchOptions) :
    m.Lists wallet type (fun tags => query.holds tags = true) o (select c type query o) where
  ascending := ascending_select c type query o
  mem_iff r := by
    simp only [select, List.mem_map, List.mem_filter]
    constructor
    · rintro ⟨⟨id, s⟩, ⟨hmem, hq⟩, rfl⟩
      refine ⟨s, ?_, hq, rfl, rfl, rfl⟩
      rw [stored_eq h, find?_eq]
      exact SortedMap.mem_entries.mp hmem
    · obtain ⟨id, type', value, tags⟩ := r
      rintro ⟨s, hs, hq, rfl, rfl, rfl⟩
      rw [stored_eq h, find?_eq] at hs
      exact ⟨(id, s), ⟨SortedMap.mem_entries.mpr hs, hq⟩, rfl⟩

theorem Lists.congr {type : String} {accepts accepts' : Tags → Prop} {o : SearchOptions}
    {records : List Record} (h : m.Lists wallet type accepts o records)
    (hiff : ∀ tags, accepts tags ↔ accepts' tags) : m.Lists wallet type accepts' o records := by
  obtain rfl : accepts = accepts' := funext fun tags => propext (hiff tags)
  exact h

/-- **There is only one listing.** -/
theorem Lists.unique {type : String} {accepts : Tags → Prop} {o : SearchOptions}
    {records records' : List Record} (h : m.Lists wallet type accepts o records)
    (h' : m.Lists wallet type accepts o records') : records = records' := by
  have hne {r r' : Record} (hlt : r.id < r'.id) : r ≠ r' := by
    rintro rfl
    exact String.lt_irrefl _ hlt
  have hasymm {r r' : Record} (hlt : r.id < r'.id) (hgt : r'.id < r.id) : r = r' :=
    absurd (String.lt_trans hlt hgt) (String.lt_irrefl _)
  have hperm : records.Perm records' :=
    (List.perm_ext_iff_of_nodup (h.ascending.imp hne) (h'.ascending.imp hne)).mpr fun r =>
      (h.mem_iff r).trans (h'.mem_iff r).symm
  exact hperm.eq_of_pairwise (fun _ _ _ _ => hasymm) h.ascending h'.ascending

/-! ### One operation -/

/-- **A fetch brings the next page and leaves the rest.** -/
theorem fetch_eq (h : m.searches.get? search = some s) (count : UInt64) :
    m.fetch s.wallet search count =
      ⟨.ok (s.batch count).encode, m.withPending search s (s.pending.drop count.toNat), []⟩ := by
  have hfound : (m.searches.get? search).filter (·.wallet = s.wallet) = some s :=
    Option.filter_eq_some_iff.mpr ⟨h, decide_eq_true rfl⟩
  rw [fetch, hfound]
  rfl

namespace Operation

/-- How many records an operation asks of a search. -/
def asks (wallet : WalletHandle) (search : SearchHandle) : Operation → Nat
  | .call (.fetchNextRecords w h count) => if w = wallet ∧ h = search then count.toNat else 0
  | _ => 0

/-- The operation closes neither a search nor its wallet. -/
def Spares (wallet : WalletHandle) (search : SearchHandle) : Operation → Prop
  | .closeWallet w => w ≠ wallet
  | .call (.closeSearch h) => h ≠ search
  | _ => True

theorem asks_fetch (wallet : WalletHandle) (search : SearchHandle) (count : UInt64) :
    (Operation.call (.fetchNextRecords wallet search count)).asks wallet search = count.toNat :=
  if_pos ⟨rfl, rfl⟩

theorem asks_eq_zero {op : Operation} {wallet : WalletHandle} {search : SearchHandle}
    (h : ∀ count, op ≠ .call (.fetchNextRecords wallet search count)) :
    op.asks wallet search = 0 := by
  unfold asks
  split
  · rename_i w h' count
    refine if_neg ?_
    rintro ⟨rfl, rfl⟩
    exact h count rfl
  · rfl

end Operation

/-- A call that does not fetch from a search leaves it as it is, unless it closes it. -/
theorem Changes.search_eq {reply : Reply} {request : Call reply} {m' : Memory}
    (hc : m.Changes request m') (h : m.searches.get? search = some s)
    (hissued : m.Issued search.raw) (hlast : m'.issued ≤ 0x7FFFFFFF)
    (hspares : (Operation.call request).Spares s.wallet search)
    (hfetch : ∀ count, Operation.call request ≠ .call (.fetchNextRecords s.wallet search count)) :
    m'.searches.get? search = some s := by
  cases hc with
  | nothing => exact h
  | records => exact h
  | opened hw pending o =>
      -- the new search has a new number
      rw [get?_withSearch, if_neg, h]
      rintro rfl
      exact not_issued_nextNumber hlast hissued
  | @fetched search' count s' hs =>
      -- a fetch from the same search would be one of its own wallet
      rw [get?_withPending, if_neg, h]
      rintro rfl
      obtain rfl : s' = s := Option.some.inj (hs.symm.trans h)
      exact hfetch count rfl
  | closed =>
      rw [SortedMap.get?_erase, if_neg, h]
      exact fun he => hspares he.symm

/-- **An operation moves a search on by what it asks of it.** -/
theorem search_after {op : Operation} (h : m.searches.get? search = some s)
    (hissued : m.Issued search.raw) (hspares : op.Spares s.wallet search)
    (hlast : (m.after op).issued ≤ 0x7FFFFFFF) :
    (m.after op).searches.get? search =
      some { s with pending := s.pending.drop (op.asks s.wallet search) } := by
  by_cases hfetch : ∀ count, op ≠ .call (.fetchNextRecords s.wallet search count)
  · rw [Operation.asks_eq_zero hfetch, List.drop_zero]
    match op with
    | .openWallet => exact h
    | .closeWallet w =>
        -- closing a wallet keeps the searches of the others
        rw [after, closeWallet, SortedMap.get?_filter, h]
        exact Option.filter_eq_some_iff.mpr ⟨rfl, decide_eq_true hspares.symm⟩
    | .call request =>
        exact (changes_perform m request).search_eq h hissued hlast hspares hfetch
  · obtain ⟨count, hop⟩ := Classical.not_forall.mp hfetch
    obtain rfl := Classical.not_not.mp hop
    rw [after, perform, fetch_eq h, get?_withPending, if_pos rfl, Operation.asks_fetch]

/-! ### Runs -/

/-- How many records a run asks of a search. -/
def asked (wallet : WalletHandle) (search : SearchHandle) : List Operation → Nat
  | [] => 0
  | op :: ops => op.asks wallet search + asked wallet search ops

/-- **A run moves a search on by all that it asks of it.** -/
theorem search_afterAll (ops : List Operation) (h : m.searches.get? search = some s)
    (hissued : m.Issued search.raw) (hspares : ∀ op ∈ ops, op.Spares s.wallet search)
    (hlast : (m.afterAll ops).issued ≤ 0x7FFFFFFF) :
    (m.afterAll ops).searches.get? search =
      some { s with pending := s.pending.drop (asked s.wallet search ops) } := by
  induction ops generalizing m s with
  | nil => exact h
  | cons op ops ih =>
      have hstep := search_after h hissued (hspares op List.mem_cons_self)
        (Nat.le_trans (issued_le_afterAll ops _) hlast)
      have hrun := ih hstep (hissued.mono (issued_le_after m op))
        (fun op' hop => hspares op' (List.mem_cons_of_mem _ hop)) hlast
      rw [afterAll_cons, hrun, List.drop_drop, asked]

/-- The records that a run hands out of a search, page after page. -/
def handedOut (wallet : WalletHandle) (search : SearchHandle) :
    Memory → List Operation → List Record
  | _, [] => []
  | m, op :: ops => page m op ++ handedOut wallet search (m.after op) ops
where
  /-- The records of one answer. -/
  page (m : Memory) : Operation → List Record
    | .call (.fetchNextRecords w h count) =>
      if w = wallet ∧ h = search then
        match (m.fetch w h count).result with
        | .ok text => (Batch.decode text).toOption.elim [] Batch.page
        | .error _ => []
      else []
    | _ => []

/-- An answer brings what was asked for, as long as there is some. -/
theorem page_eq (h : m.searches.get? search = some s) (op : Operation) :
    handedOut.page s.wallet search m op =
      if s.options.includeRecords then s.pending.take (op.asks s.wallet search) else [] := by
  by_cases hfetch : ∀ count, op ≠ .call (.fetchNextRecords s.wallet search count)
  · rw [Operation.asks_eq_zero hfetch, List.take_zero, ite_self]
    unfold handedOut.page
    split
    · rename_i w h' count
      refine if_neg ?_
      rintro ⟨rfl, rfl⟩
      exact hfetch count rfl
    · rfl
  · obtain ⟨count, hop⟩ := Classical.not_forall.mp hfetch
    obtain rfl := Classical.not_not.mp hop
    rw [handedOut.page, if_pos ⟨rfl, rfl⟩, fetch_eq h, Operation.asks_fetch]
    show (Batch.decode _).toOption.elim [] Batch.page = _
    rw [Batch.decode_encode]
    exact Batch.page_ofPage _ _ _

theorem handedOut_eq (ops : List Operation) (h : m.searches.get? search = some s)
    (hissued : m.Issued search.raw) (hspares : ∀ op ∈ ops, op.Spares s.wallet search)
    (hlast : (m.afterAll ops).issued ≤ 0x7FFFFFFF) :
    handedOut s.wallet search m ops =
      if s.options.includeRecords then s.pending.take (asked s.wallet search ops) else [] := by
  induction ops generalizing m s with
  | nil => rw [handedOut, asked, List.take_zero, ite_self]
  | cons op ops ih =>
      have hstep := search_after h hissued (hspares op List.mem_cons_self)
        (Nat.le_trans (issued_le_afterAll ops _) hlast)
      have hrun := ih hstep (hissued.mono (issued_le_after m op))
        (fun op' hop => hspares op' (List.mem_cons_of_mem _ hop)) hlast
      rw [handedOut, page_eq h, hrun, asked, List.take_add]
      cases s.options.includeRecords <;> rfl

/-! ### Snapshots -/

theorem after_openSearch (m : Memory) (wallet : WalletHandle) (type query options : String) :
    m.after (.call (.openSearch wallet type query options)) =
      (m.openSearch wallet type query options).memory := rfl

/-- A search that can be opened holds what the listing lists. -/
theorem openSearch_eq {c : Collections} {type query options : String} {q : Query}
    {o : SearchOptions} (hw : m.wallets.get? wallet = some c) (hq : Query.decode query = .ok q)
    (ho : SearchOptions.decode options = .ok o) :
    m.openSearch wallet type query options =
      ⟨.ok ⟨m.nextNumber⟩,
        m.withSearch ⟨wallet, (select c type q o).length, select c type q o, o⟩, []⟩ := by
  rw [openSearch, hq]
  show m.withPayload _ _ = _
  rw [ho, withPayload, collections_eq.mpr hw]
  rfl

/-- Opening a search is refused, or the search is a snapshot of an open wallet. -/
theorem openSearch_cases (m : Memory) (wallet : WalletHandle) (type query options : String) :
    (∃ e log, m.openSearch wallet type query options = m.refuse e log) ∨
      ∃ c q o, m.wallets.get? wallet = some c ∧ m.openSearch wallet type query options =
        ⟨.ok ⟨m.nextNumber⟩,
          m.withSearch ⟨wallet, (select c type q o).length, select c type q o, o⟩, []⟩ := by
  cases hq : Query.decode query with
  | error refusal =>
      rw [openSearch, hq]
      exact .inl ⟨_, _, rfl⟩
  | ok q =>
      cases ho : SearchOptions.decode options with
      | error e =>
          rw [openSearch, hq, ho]
          exact .inl ⟨_, _, rfl⟩
      | ok o =>
          cases hw : m.wallets.get? wallet with
          | none =>
              rw [openSearch, hq, ho, collections_closed hw]
              exact .inl ⟨_, _, rfl⟩
          | some c => exact .inr ⟨c, q, o, rfl, openSearch_eq hw hq ho⟩

/-- Opening a search takes one number at most. -/
theorem issued_openSearch_le (m : Memory) (wallet : WalletHandle) (type query options : String) :
    (m.openSearch wallet type query options).memory.issued ≤ m.issued + 1 :=
  issued_after_le m (.call (.openSearch wallet type query options))

/-- **A search is a snapshot.**  It can be opened on any open wallet with a filter and options that
can be read.  From then on, whatever is done to the memory as long as neither the search nor its
wallet is closed, a fetch brings the next part of what the listing listed when the search was
opened; and what a run has been handed out is that listing up to the number of records asked for. -/
theorem fetch_snapshot {query options : String} {q : Query} {o : SearchOptions}
    (hw : (m.wallets.get? wallet).isSome) (type : String) (hq : Query.decode query = .ok q)
    (ho : SearchOptions.decode options = .ok o) :
    ∃ search listing, (m.openSearch wallet type query options).result = .ok search ∧
      m.Lists wallet type (fun tags => q.holds tags = true) o listing ∧
      ∀ ops : List Operation, (∀ op ∈ ops, op.Spares wallet search) →
        ((m.openSearch wallet type query options).memory.afterAll ops).issued ≤ 0x7FFFFFFF →
        (∀ count, ∃ text,
          (((m.openSearch wallet type query options).memory.afterAll ops).fetch wallet search
            count).result = .ok text ∧
          Batch.decode text = .ok (.ofPage o listing.length
            ((listing.drop (asked wallet search ops)).take count.toNat))) ∧
        handedOut wallet search (m.openSearch wallet type query options).memory ops =
          if o.includeRecords then listing.take (asked wallet search ops) else [] := by
  obtain ⟨c, hc⟩ := Option.isSome_iff_exists.mp hw
  refine ⟨⟨m.nextNumber⟩, select c type q o, ?_, lists_select hc type q o, ?_⟩
  · rw [openSearch_eq hc hq ho]
  · rw [openSearch_eq hc hq ho]
    intro ops hspares hlast
    have hfound := get?_withSearch m ⟨wallet, (select c type q o).length, select c type q o, o⟩
      ⟨m.nextNumber⟩
    rw [if_pos rfl] at hfound
    have hrun := search_afterAll ops hfound (.next m rfl) hspares hlast
    refine ⟨fun count => ?_, handedOut_eq ops hfound (.next m rfl) hspares hlast⟩
    exact ⟨_, congrArg Answer.result (fetch_eq hrun count), Batch.decode_encode _⟩

/-! ### A filled wallet -/

/-- A wallet is opened and filled with five records, in no order: four of one type, and one of
another. -/
def filling : List Operation :=
  [.openWallet,
    .call (.addRecord ⟨1⟩ "type" "c" "three" "\x7b\"~n\":\"3\"\x7d"),
    .call (.addRecord ⟨1⟩ "type" "a" "one" "\x7b\"~n\":\"1\"\x7d"),
    .call (.addRecord ⟨1⟩ "other" "e" "five" "\x7b\"~n\":\"5\"\x7d"),
    .call (.addRecord ⟨1⟩ "type" "d" "four" "\x7b\"~n\":\"4\"\x7d"),
    .call (.addRecord ⟨1⟩ "type" "b" "two" "\x7b\"~n\":\"2\"\x7d")]

/-- The memory with those records. -/
def filled : Memory := empty.afterAll filling

/-- The records of the wallet. -/
def filledCollections : Collections :=
  .ofList [("other", .ofList [("e", ⟨"five", .ofList [("~n", "5")]⟩)]),
    ("type", .ofList [("a", ⟨"one", .ofList [("~n", "1")]⟩), ("b", ⟨"two", .ofList [("~n", "2")]⟩),
      ("c", ⟨"three", .ofList [("~n", "3")]⟩), ("d", ⟨"four", .ofList [("~n", "4")]⟩)])]

theorem filled_eq : filled = ⟨1, .ofList [(⟨1⟩, filledCollections)], .empty⟩ := by decide

theorem filled_wallet : filled.wallets.get? ⟨1⟩ = some filledCollections := by
  rw [filled_eq]
  decide

/-- Records and their number are asked for, of the records the values. -/
def onlyValues : SearchOptions := ⟨true, false, true, false, true⟩

/-- The four records of one type, as they are handed out. -/
def filledListing : List Record :=
  [⟨"a", none, some "one", none⟩, ⟨"b", none, some "two", none⟩, ⟨"c", none, some "three", none⟩,
    ⟨"d", none, some "four", none⟩]

theorem select_filled : select filledCollections "type" (.all []) onlyValues = filledListing := by
  decide

/-- A search over those records, in any memory that has them. -/
theorem after_openSearch_filled (hw : m.wallets.get? ⟨1⟩ = some filledCollections) :
    m.after (.call (.openSearch ⟨1⟩ "type" (Filter.compile .always).encode onlyValues.encode)) =
      m.withSearch ⟨⟨1⟩, 4, filledListing, onlyValues⟩ := by
  have hopen : m.openSearch ⟨1⟩ "type" _ _ = _ :=
    openSearch_eq hw Query.decode_always (SearchOptions.decode_encode onlyValues)
  rw [after_openSearch, hopen, select_filled]
  rfl

/-- Between two fetches from a search one of its records is deleted, one is changed, and one that it
would list is added. -/
def meddling (search : SearchHandle) : List Operation :=
  [.call (.fetchNextRecords ⟨1⟩ search 1), .call (.deleteRecord ⟨1⟩ "type" "b"),
    .call (.updateRecordValue ⟨1⟩ "type" "c" "changed"),
    .call (.addRecord ⟨1⟩ "type" "bb" "late" "\x7b\x7d"),
    .call (.fetchNextRecords ⟨1⟩ search 2)]

/-- What is deleted or changed while a search is open is handed out as it was, and what is added is
not. -/
theorem fetch_snapshot_deleted : ∃ search,
    (filled.openSearch ⟨1⟩ "type" (Filter.compile .always).encode onlyValues.encode).result =
      .ok search ∧
    handedOut ⟨1⟩ search
      (filled.openSearch ⟨1⟩ "type" (Filter.compile .always).encode onlyValues.encode).memory
      (meddling search) =
      [⟨"a", none, some "one", none⟩, ⟨"b", none, some "two", none⟩,
        ⟨"c", none, some "three", none⟩] := by
  have hw : (filled.wallets.get? ⟨1⟩).isSome := by
    rw [filled_wallet]
    rfl
  obtain ⟨search, listing, hopen, hlists, hruns⟩ :=
    fetch_snapshot hw "type" Query.decode_always (SearchOptions.decode_encode onlyValues)
  obtain rfl : listing = filledListing :=
    hlists.unique (select_filled ▸ lists_select filled_wallet "type" (.all []) onlyValues)
  have hasked : asked ⟨1⟩ search (meddling search) = 3 := by
    simp [meddling, asked, Operation.asks]
  have hspared : ∀ op ∈ meddling search, op.Spares ⟨1⟩ search := by
    simp [meddling, Operation.Spares]
  -- opening the search and the calls take at most one number each
  have hopened := issued_openSearch_le filled ⟨1⟩ "type" (Filter.compile .always).encode
    onlyValues.encode
  have hfilled : filled.issued = 1 := by rw [filled_eq]
  have hlast := issued_afterAll_le (meddling search)
    (filled.openSearch ⟨1⟩ "type" (Filter.compile .always).encode onlyValues.encode).memory
  have hlength : (meddling search).length = 5 := rfl
  refine ⟨search, hopen, (hruns _ hspared ?_).2.trans ?_⟩
  · omega
  · rw [hasked]
    rfl

end Memory

end TaggedRecords
