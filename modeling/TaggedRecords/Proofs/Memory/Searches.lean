import TaggedRecords.Proofs.Filters
import TaggedRecords.Proofs.Memory.Answers
import TaggedRecords.Proofs.Memory.Snapshots

/-!
# Memories — searches to the end

**A client that searches to the end gets the listing**, however many records it fetches at a time
(`Memory.searchAll_listing`): it opens a search, drains it page by page and closes it, and the
memory is as before but for the number that the search took.

Draining is an induction on the fetches that are left (`Memory.run_drain`): each one but the last
brings at least one record.
-/

namespace TaggedRecords

open Client (Attempt Cursor Records)
open Program (Event calls)

namespace Memory

variable {m : Memory} {search : SearchHandle} {s : OpenSearch}

/-! ### Single calls -/

/-- What a client does not see of a run: the messages of the store and its own. -/
theorem calls_observed (m : Memory) {reply : Reply} (request : Call reply) :
    calls (m.observed request) = [⟨reply, request⟩] := by
  rw [observed, Program.calls_called, Program.calls_logged]

theorem run_fetch (h : m.searches.get? search = some s) {count : UInt64} (hc : count ≠ 0) :
    (Client.fetchNextRecords s.wallet search count).run.run store m =
      ⟨.finished (.ok (s.batch count)), m.withPending search s (s.pending.drop count.toNat),
        m.observed (.fetchNextRecords s.wallet search count)⟩ := by
  have hinvoke := run_invoke m (.fetchNextRecords s.wallet search count)
  rw [perform, fetch_eq h] at hinvoke
  rw [Client.fetchNextRecords, if_neg hc]
  refine (Client.run_bind_ok hinvoke _).trans ?_
  rw [Batch.decode_encode]
  exact Program.Run.after_silent _ _ _

theorem run_fetch_none (wallet : WalletHandle) (search : SearchHandle) (m : Memory) :
    (Client.fetchNextRecords wallet search 0).run.run store m =
      ⟨.finished (.error (.common (.invalidParameter 4))), m, []⟩ := rfl

theorem run_close (h : m.searches.get? search = some s) :
    ∃ events, (Client.closeSearch search).run.run store m =
      ⟨.finished (.ok ()), { m with searches := m.searches.erase search }, events⟩ ∧
      calls events = [⟨.nothing, .closeSearch search⟩] := by
  have hcontains : m.searches.contains search = true := by
    rw [SortedMap.contains, h]
    rfl
  have hclose : m.closeSearch search =
      ⟨.ok (), { m with searches := m.searches.erase search }, []⟩ := if_pos hcontains
  have hinvoke := run_invoke m (.closeSearch search)
  rw [perform, hclose] at hinvoke
  refine ⟨m.observed (.closeSearch search) ++ [.logged (.closedSearch search)], ?_, ?_⟩
  · rw [Client.closeSearch, Client.run_bind_ok hinvoke, Client.run_note]
    rfl
  · rw [Program.calls_append, calls_observed]
    rfl

/-! ### Draining -/

/-- How many fetches of `size` records drain a search that has `n` left; the last brings none. -/
def rounds (n size : Nat) : Nat := (n + size - 1) / size + 1

theorem rounds_zero {size : Nat} (hs : 0 < size) : rounds 0 size = 1 := by
  rw [rounds, Nat.div_eq_of_lt (by omega)]

/-- A page that brings records leaves one round less. -/
theorem rounds_sub {n size : Nat} (hn : 0 < n) (hs : 0 < size) :
    rounds n size = rounds (n - size) size + 1 := by
  rw [rounds, rounds]
  congr 1
  rcases Nat.le_total size n with h | h
  · rw [← Nat.add_div_right _ hs]
    congr 1
    omega
  · rw [Nat.sub_eq_zero_of_le h, Nat.div_eq_of_lt (a := 0 + size - 1) (by omega),
      Nat.div_eq_of_lt_le (k := 1) (by omega) (by omega)]

/-- The records that a search has left to hand out, none if it was not asked for records. -/
def left (s : OpenSearch) : List Record := if s.options.includeRecords then s.pending else []

theorem page_batch (s : OpenSearch) (count : UInt64) :
    (s.batch count).page = (left s).take count.toNat := by
  rw [OpenSearch.batch, Batch.page_ofPage, left]
  split
  · rfl
  · exact List.take_nil.symm

theorem left_drop (s : OpenSearch) (n : Nat) :
    left { s with pending := s.pending.drop n } = (left s).drop n := by
  rw [left, left]
  split
  · rfl
  · exact List.drop_nil.symm

theorem withPending_withPending (m : Memory) (search : SearchHandle) (s : OpenSearch)
    (pending pending' : List Record) :
    (m.withPending search s pending).withPending search { s with pending := pending } pending' =
      m.withPending search s pending' :=
  congrArg (fun searches => { m with searches := searches }) (SortedMap.insert_insert _ _ _ _)

/-- **Draining a search brings all that it has left to hand out**, page by page. -/
theorem run_drain {c : Cursor} {count : UInt64} (hc : count ≠ 0) (total : Option UInt64)
    (patience : Nat) (done : Cursor.Collected) (h : m.searches.get? c.handle = some s)
    (hw : c.wallet = s.wallet)
    (ht : (if s.options.includeCount then some (.ofNat s.totalCount) else none) = total)
    (hdone : (total <|> done.totalCount) = total)
    (hp : rounds (left s).length count.toNat ≤ patience) :
    ∃ events pending, (c.drain count patience done).run.run store m =
        ⟨.finished (.ok ⟨total, some (done.records ++ left s)⟩), m.withPending c.handle s pending,
          events⟩ ∧
      calls events = List.replicate (rounds (left s).length count.toNat)
        ⟨.text, .fetchNextRecords c.wallet c.handle count⟩ := by
  induction patience generalizing m s done with
  | zero => exact absurd hp (Nat.not_succ_le_zero _)
  | succ patience ih =>
      have hsize : 0 < count.toNat :=
        Nat.pos_of_ne_zero fun h0 => hc (UInt64.toNat_inj.mp h0)
      have hfetch := run_fetch h hc
      rw [← hw] at hfetch
      have hadd : done.add (s.batch count) =
          ⟨total, done.records ++ (left s).take count.toNat⟩ := by
        rw [Cursor.Collected.add, page_batch, ← hdone, ← ht]
        rfl
      have hstep : (c.drain count (patience + 1) done).run.run store m =
          ((if (s.batch count).page.isEmpty then pure (done.add (s.batch count)).toBatch
            else c.drain count patience (done.add (s.batch count)) : Attempt Batch).run.run store
              (m.withPending c.handle s (s.pending.drop count.toNat))).after
            (m.observed (.fetchNextRecords c.wallet c.handle count)) :=
        Client.run_bind_ok hfetch _
      rw [hstep, page_batch, hadd]
      by_cases hleft : left s = []
      · -- the page is empty, which ends it
        refine ⟨m.observed (.fetchNextRecords c.wallet c.handle count),
          s.pending.drop count.toNat, ?_, ?_⟩
        · rw [hleft, List.take_nil, if_pos List.isEmpty_nil, Client.run_pure,
            Program.Run.after_silent]
          rfl
        · rw [calls_observed, hleft, List.length_nil, rounds_zero hsize]
          rfl
      · -- the page has records, and draining goes on with what is left
        have hpage : ¬ ((left s).take count.toNat).isEmpty = true := by
          rw [List.isEmpty_iff, List.take_eq_nil_iff]
          rintro (h0 | h0)
          · exact absurd h0 (Nat.ne_of_gt hsize)
          · exact hleft h0
        have hrounds := rounds_sub (List.length_pos_iff.mpr hleft) hsize
        have hfound := get?_withPending m c.handle s (s.pending.drop count.toNat) c.handle
        rw [if_pos rfl] at hfound
        have htotal : (total <|> total) = total := by cases total <;> rfl
        obtain ⟨events, pending, hrun, hcalls⟩ := ih
          ⟨total, done.records ++ (left s).take count.toNat⟩ hfound hw ht htotal
          (by rw [left_drop, List.length_drop]; omega)
        refine ⟨m.observed (.fetchNextRecords c.wallet c.handle count) ++ events, pending, ?_, ?_⟩
        · rw [if_neg hpage, hrun, left_drop, List.append_assoc, List.take_append_drop,
            withPending_withPending]
          rfl
        · rw [Program.calls_append, calls_observed, hcalls, left_drop, List.length_drop, hrounds]
          rfl

/-! ### From opening to closing -/

variable {type : String} {e : Expression} {o : SearchOptions} {wallet : WalletHandle}

theorem run_openOn_refused {failure : Failure} {log : List Log.Message}
    (h : m.openSearch wallet type (Filter.compile e).encode o.encode = m.refuse failure log) :
    (Cursor.openOn wallet type e o).run.run store m =
      ⟨.finished (.error failure), m,
        m.observed (.openSearch wallet type (Filter.compile e).encode o.encode)⟩ := by
  have hinvoke := run_invoke m (.openSearch wallet type (Filter.compile e).encode o.encode)
  rw [perform, h] at hinvoke
  exact Client.run_bind_error (Client.run_bind_error hinvoke _) _

/-- A client that opens a search holds a cursor to the selected records. -/
theorem run_openOn {c : Collections} {q : Query} (hw : m.wallets.get? wallet = some c)
    (hq : Query.decode (Filter.compile e).encode = .ok q) (type : String) (o : SearchOptions) :
    ∃ events, (Cursor.openOn wallet type e o).run.run store m =
        ⟨.finished (.ok ⟨wallet, ⟨m.nextNumber⟩, type, Filter.compile e, o⟩),
          m.withSearch ⟨wallet, (select c type q o).length, select c type q o, o⟩, events⟩ ∧
      calls events = [⟨.search, .openSearch wallet type (Filter.compile e).encode o.encode⟩] := by
  have hinvoke := run_invoke m (.openSearch wallet type (Filter.compile e).encode o.encode)
  rw [perform, openSearch_eq hw hq (SearchOptions.decode_encode o)] at hinvoke
  refine ⟨m.observed (.openSearch wallet type (Filter.compile e).encode o.encode) ++
    [.logged (.openedSearch ⟨m.nextNumber⟩ type (Filter.compile e).encode)], ?_, ?_⟩
  · have hopen : (Client.openSearch wallet type (Filter.compile e) o).run.run store m =
        ⟨.finished (.ok ⟨m.nextNumber⟩),
          m.withSearch ⟨wallet, (select c type q o).length, select c type q o, o⟩,
          m.observed (.openSearch wallet type (Filter.compile e).encode o.encode) ++
            [.logged (.openedSearch ⟨m.nextNumber⟩ type (Filter.compile e).encode)]⟩ :=
      Client.run_bind_ok hinvoke _
    exact (Client.run_bind_ok hopen _).trans (Program.Run.after_silent _ _ _)
  · rw [Program.calls_append, calls_observed]
    rfl

theorem withSearch_withPending (m : Memory) (s : OpenSearch) (pending : List Record) :
    (m.withSearch s).withPending ⟨m.nextNumber⟩ s pending =
      m.withSearch { s with pending := pending } :=
  congrArg (fun searches => { m with issued := m.issued + 1, searches := searches })
    (SortedMap.insert_insert _ _ _ _)

/-- Closing the search that was opened last leaves nothing of it but its number. -/
theorem run_close_withSearch (hm : m.Numbered) (hi : m.issued < 0x7FFFFFFF) (s : OpenSearch) :
    ∃ events, (Client.closeSearch ⟨m.nextNumber⟩).run.run store (m.withSearch s) =
        ⟨.finished (.ok ()), { m with issued := m.issued + 1 }, events⟩ ∧
      calls events = [⟨.nothing, .closeSearch ⟨m.nextNumber⟩⟩] := by
  obtain ⟨events, hrun, hcalls⟩ := run_close ((get?_withSearch m s _).trans (if_pos rfl))
  have herase : (m.withSearch s).searches.erase ⟨m.nextNumber⟩ = m.searches := by
    rw [withSearch, SortedMap.erase_insert, SortedMap.erase_eq_self (hm.newSearch hi)]
  rw [herase] at hrun
  exact ⟨events, hrun, hcalls⟩

/-- Draining with a batch size of zero is turned down without a call. -/
theorem run_drain_none (c : Cursor) {patience : Nat} (hp : 0 < patience) (m : Memory) :
    (c.drain 0 patience {}).run.run store m =
      ⟨.finished (.error (.common (.invalidParameter 4))), m, []⟩ := by
  obtain ⟨p, rfl⟩ := Nat.exists_eq_succ_of_ne_zero (Nat.ne_of_gt hp)
  exact Client.run_bind_error (run_fetch_none c.wallet c.handle m) _

/-- A client that collects a search that was just opened gets all of its listing. -/
theorem run_collectAll (hm : m.Numbered) (hi : m.issued < 0x7FFFFFFF) {c : Cursor}
    (hh : c.handle = ⟨m.nextNumber⟩) (listing : List Record) {count : UInt64} {patience : Nat}
    (hp : rounds (if o.includeRecords then listing.length else 0) count.toNat ≤ patience) :
    ∃ events, (c.collectAll count patience).run.run store
          (m.withSearch ⟨c.wallet, listing.length, listing, o⟩) =
        ⟨.finished (if count = 0 then .error (.common (.invalidParameter 4))
          else .ok ⟨if o.includeCount then some (.ofNat listing.length) else none,
            some (if o.includeRecords then listing else [])⟩),
          { m with issued := m.issued + 1 }, events⟩ ∧
      calls events =
        List.replicate (if count = 0 then 0
            else rounds (if o.includeRecords then listing.length else 0) count.toNat)
          ⟨.text, .fetchNextRecords c.wallet c.handle count⟩ ++
        [⟨.nothing, .closeSearch c.handle⟩] := by
  have hclose := run_close_withSearch hm hi
  rw [← hh] at hclose
  by_cases hc : count = 0
  · -- no page can be fetched, but the search is closed all the same
    subst hc
    obtain ⟨events, hrun, hcalls⟩ := hclose ⟨c.wallet, listing.length, listing, o⟩
    have hdrain := run_drain_none c (Nat.lt_of_lt_of_le (Nat.succ_pos _) hp)
      (m.withSearch ⟨c.wallet, listing.length, listing, o⟩)
    exact ⟨events, Cursor.run_collectAll hdrain hrun, hcalls⟩
  · have hfound := get?_withSearch m ⟨c.wallet, listing.length, listing, o⟩ ⟨m.nextNumber⟩
    have hleft : (left ⟨c.wallet, listing.length, listing, o⟩).length =
        if o.includeRecords then listing.length else 0 := by
      rw [left]
      split <;> rfl
    rw [if_pos rfl, ← hh] at hfound
    rw [← hleft] at hp
    have htotal : ((if o.includeCount then some (.ofNat listing.length) else none) <|> none) =
        if o.includeCount then some (UInt64.ofNat listing.length) else none := by
      cases o.includeCount <;> rfl
    obtain ⟨events, pending, hdrain, hcalls⟩ := run_drain hc _ patience {} hfound rfl rfl
      htotal hp
    rw [hh, withSearch_withPending] at hdrain
    obtain ⟨events', hrun, hcalls'⟩ := hclose ⟨c.wallet, listing.length, pending, o⟩
    refine ⟨events ++ events', ?_, ?_⟩
    · rw [if_neg hc]
      exact Cursor.run_collectAll hdrain hrun
    · rw [if_neg hc, Program.calls_append, hcalls, hcalls', hleft]

/-- **Searching to the end comes to the listing.**  A filter that is refused and a wallet that is
not open are reported, and change nothing.  Else a search is opened, drained and closed whatever
the batch size is, and leaves nothing but its number; a batch size of zero is reported. -/
theorem searchAll_listing (hm : m.Reachable) (hi : m.issued < 0x7FFFFFFF) (r : Records)
    (type : String) (e : Expression) (o : SearchOptions) :
    (∀ refusal, Query.decode (Filter.compile e).encode = .error refusal →
      ∀ patience, ∃ events, (r.searchAll type e o patience).run.run store m =
        ⟨.finished (.error (.wallet .queryError)), m, events⟩) ∧
    (∀ q, Query.decode (Filter.compile e).encode = .ok q → m.wallets.get? r.wallet = none →
      ∀ patience, ∃ events, (r.searchAll type e o patience).run.run store m =
        ⟨.finished (.error (.wallet .invalidHandle)), m, events⟩) ∧
    (∀ q, Query.decode (Filter.compile e).encode = .ok q → (m.wallets.get? r.wallet).isSome →
      ∃ listing, m.Lists r.wallet type e.Holds o listing ∧
        ∀ patience, rounds (if o.includeRecords then listing.length else 0)
            r.config.batchSize.toNat ≤ patience →
          ∃ events, (r.searchAll type e o patience).run.run store m =
              ⟨.finished (if r.config.batchSize = 0 then .error (.common (.invalidParameter 4))
                else .ok ⟨if o.includeCount then some (.ofNat listing.length) else none,
                  some (if o.includeRecords then listing else [])⟩),
                { m with issued := m.issued + 1 }, events⟩ ∧
            calls events =
              ⟨.search, .openSearch r.wallet type (Filter.compile e).encode o.encode⟩ ::
                List.replicate (if r.config.batchSize = 0 then 0
                  else rounds (if o.includeRecords then listing.length else 0)
                    r.config.batchSize.toNat)
                  ⟨.text, .fetchNextRecords r.wallet ⟨m.nextNumber⟩ r.config.batchSize⟩ ++
                [⟨.nothing, .closeSearch ⟨m.nextNumber⟩⟩]) := by
  refine ⟨fun refusal hq patience => ?_, fun q hq hw patience => ?_, fun q hq hw => ?_⟩
  · have hopen : m.openSearch r.wallet type (Filter.compile e).encode o.encode =
        m.refuse (.wallet .queryError) (refusalLog refusal) := by
      rw [openSearch, hq]
      rfl
    exact ⟨_, Client.run_bind_error (run_openOn_refused hopen) _⟩
  · have hopen : m.openSearch r.wallet type (Filter.compile e).encode o.encode =
        m.refuse (.wallet .invalidHandle) := by
      rw [openSearch, hq, SearchOptions.decode_encode, collections, hw]
      rfl
    exact ⟨_, Client.run_bind_error (run_openOn_refused hopen) _⟩
  · obtain ⟨c, hc⟩ := Option.isSome_iff_exists.mp hw
    obtain ⟨events, hopen, hcalls⟩ := run_openOn hc hq type o
    refine ⟨select c type q o, ?_, fun patience hp => ?_⟩
    · exact (lists_select hc type q o).congr (Query.holds_of_decode hq)
    · obtain ⟨events', hcollect, hcalls'⟩ := run_collectAll hm.numbered hi
        (c := ⟨r.wallet, ⟨m.nextNumber⟩, type, Filter.compile e, o⟩) rfl (select c type q o) hp
      refine ⟨events ++ events', ?_, ?_⟩
      · refine (Client.run_bind_ok hopen _).trans ?_
        rw [hcollect]
        rfl
      · rw [Program.calls_append, hcalls, hcalls']
        rfl

/-- The records of the filled wallet with a certain tag, which are three, are listed by three fetches
of two. -/
theorem searchAll_listing_pages : ∃ events,
    (Records.searchAll ⟨⟨1⟩, ⟨2⟩⟩ "type" (.compare "~n" .gt "1") onlyValues 3).run.run store filled =
      ⟨.finished (.ok ⟨some 3, some [⟨"b", none, some "two", none⟩,
        ⟨"c", none, some "three", none⟩, ⟨"d", none, some "four", none⟩]⟩),
        { filled with issued := 2 }, events⟩ ∧
    calls events =
      [⟨.search, .openSearch ⟨1⟩ "type" (Filter.compile (.compare "~n" .gt "1")).encode
          onlyValues.encode⟩,
        ⟨.text, .fetchNextRecords ⟨1⟩ ⟨2⟩ 2⟩, ⟨.text, .fetchNextRecords ⟨1⟩ ⟨2⟩ 2⟩,
        ⟨.text, .fetchNextRecords ⟨1⟩ ⟨2⟩ 2⟩, ⟨.nothing, .closeSearch ⟨2⟩⟩] := by
  have hlegal : (Expression.compare "~n" .gt "1").Legal ∧
      (Expression.compare "~n" .gt "1").depth ≤ Json.maxDepth :=
    ⟨⟨by decide, fun _ => by decide⟩, by decide⟩
  obtain ⟨q, -, hq, -⟩ :=
    (Query.decode_compile_cases (.compare "~n" .gt "1")).resolve_right fun h => h.choose_spec.1 hlegal
  have hw : (filled.wallets.get? ⟨1⟩).isSome := by
    rw [filled_wallet]
    rfl
  obtain ⟨-, -, hopen⟩ := searchAll_listing (Reachable.empty.afterAll filling) (by decide)
    ⟨⟨1⟩, ⟨2⟩⟩ "type" (.compare "~n" .gt "1") onlyValues
  obtain ⟨listing, hlists, hruns⟩ := hopen q hq hw
  -- the listing is what a store selects that has read the expression
  have hselect : select filledCollections "type" (.tag "~n" (.compare .gt "1")) onlyValues =
      filledListing.drop 1 := by decide
  obtain rfl : listing = filledListing.drop 1 :=
    hlists.unique (hselect ▸ (lists_select filled_wallet "type" _ onlyValues).congr fun tags =>
      Query.holds_compare tags "~n" .gt "1")
  exact hruns 3 (by decide)

end Memory

end TaggedRecords
