import TaggedRecords.Proofs.Memory.Handles

/-!
# Memories — what holds in every state

Three tables hang together in a memory: the numbers that have been issued, the open wallets and the
open searches.  **In every state of a run the handles that are open are different numbers among
those that have been issued, every search belongs to an open wallet and has left to hand out an
ascending part of what it counted, and the searches that are open are those that the run has opened
and not ended** (`Memory.consistent_run`).

What an operation leaves of a search it has found, or it has taken a snapshot
(`Memory.search_left`), so what holds of snapshots and of what is left of them holds of every
search.  The open searches are followed as a list: an operation takes out those that it ends and
puts the one that it opens at the end (`Memory.Numbered.openings_after`), and a run does the same
(`Memory.Numbered.openings_afterAll`).
-/

namespace TaggedRecords

/-- What always holds of an open search: the records it has left ascend by their ids, there are no
more of them than it counted, and each has the parts that it was asked for and no others. -/
structure OpenSearch.Proper (s : OpenSearch) : Prop where
  ascending : s.pending.Pairwise fun r r' => r.id < r'.id
  length_le : s.pending.length ≤ s.totalCount
  parts : ∀ r ∈ s.pending, r.type.isSome = s.options.includeType ∧
    r.value.isSome = s.options.includeValue ∧ r.tags.isSome = s.options.includeTags

/-- What is left of a search after some of its records have been handed out. -/
theorem OpenSearch.Proper.drop {s : OpenSearch} (h : s.Proper) (n : Nat) :
    OpenSearch.Proper { s with pending := s.pending.drop n } where
  ascending := h.ascending.sublist (List.drop_sublist n _)
  length_le := Nat.le_trans (List.length_drop ▸ Nat.sub_le _ _) h.length_le
  parts r hr := h.parts r (List.mem_of_mem_drop hr)

theorem StoredRecord.parts_project (r : StoredRecord) (type id : String) (o : SearchOptions) :
    (r.project type id o).type.isSome = o.includeType ∧
      (r.project type id o).value.isSome = o.includeValue ∧
      (r.project type id o).tags.isSome = o.includeTags := by
  have asked {α : Type} (flag : Bool) (a : α) :
      (if flag = true then some a else none).isSome = flag := by cases flag <;> rfl
  exact ⟨asked _ _, asked _ _, asked _ _⟩

/-- The call opens a search. -/
def Call.Opens {reply : Reply} : Call reply → Prop
  | .openSearch .. => True
  | _ => False

namespace Memory

variable {m : Memory} {search : SearchHandle}

/-! ### Searches -/

/-- A snapshot of the records that a query accepts. -/
theorem proper_select (wallet : WalletHandle) (c : Collections) (type : String) (q : Query)
    (o : SearchOptions) :
    OpenSearch.Proper ⟨wallet, (select c type q o).length, select c type q o, o⟩ where
  ascending := ascending_select c type q o
  length_le := Nat.le_refl _
  parts r hr := by
    obtain ⟨e, -, rfl⟩ := List.mem_map.mp hr
    exact e.2.parts_project type e.1 o

/-- A call that opens no search leaves some of what it finds. -/
theorem Changes.search_left {reply : Reply} {request : Call reply} {m' : Memory}
    (hc : m.Changes request m') (hr : ¬ request.Opens) {s' : OpenSearch}
    (h : m'.searches.get? search = some s') :
    ∃ s n, m.searches.get? search = some s ∧ s' = { s with pending := s.pending.drop n } := by
  cases hc with
  | nothing | records => exact ⟨s', 0, h, rfl⟩
  | opened => exact absurd trivial hr
  | @fetched search' count s hs =>
      rw [get?_withPending] at h
      split at h
      · rename_i heq
        exact ⟨s, count.toNat, heq ▸ hs, (Option.some.inj h).symm⟩
      · exact ⟨s', 0, h, rfl⟩
  | closed =>
      rw [SortedMap.get?_erase] at h
      split at h
      · contradiction
      · exact ⟨s', 0, h, rfl⟩

/-- **What an operation leaves of a search it has found, or it has taken a snapshot.** -/
theorem search_left {op : Operation} {s' : OpenSearch}
    (h : (m.after op).searches.get? search = some s') :
    (∃ s n, m.searches.get? search = some s ∧ s' = { s with pending := s.pending.drop n }) ∨
      ∃ wallet c type q o,
        s' = ⟨wallet, (select c type q o).length, select c type q o, o⟩ := by
  cases op with
  | openWallet => exact .inl ⟨s', 0, h, rfl⟩
  | closeWallet wallet =>
      rw [after, closeWallet, SortedMap.get?_filter] at h
      exact .inl ⟨s', 0, (Option.filter_eq_some_iff.mp h).1, rfl⟩
  | call request =>
      by_cases hr : request.Opens
      · cases request with
        | openSearch wallet type query options =>
            rw [after_openSearch] at h
            rcases openSearch_cases m wallet type query options with
              ⟨e, log, hopen⟩ | ⟨c, q, o, -, hopen⟩
            · rw [hopen] at h
              exact .inl ⟨s', 0, h, rfl⟩
            · rw [hopen, get?_withSearch] at h
              split at h
              · exact .inr ⟨wallet, c, type, q, o, (Option.some.inj h).symm⟩
              · exact .inl ⟨s', 0, h, rfl⟩
        | _ => exact hr.elim
      · exact .inl ((changes_perform m request).search_left hr h)

/-- Every open search is as searches always are. -/
theorem Reachable.proper (hm : m.Reachable) {s : OpenSearch}
    (h : m.searches.get? search = some s) : s.Proper := by
  induction hm generalizing search s with
  | empty => cases h
  | after _ op ih =>
      rcases search_left h with ⟨s, n, hs, rfl⟩ | ⟨wallet, c, type, q, o, rfl⟩
      · exact (ih hs).drop n
      · exact proper_select wallet c type q o

/-! ### Numbers -/

/-- A number that has been issued is one from 1 up to how many have been issued. -/
theorem Issued.range {raw : Int32} (h : m.Issued raw) (hlast : m.issued ≤ 0x7FFFFFFF) :
    1 ≤ raw.toInt ∧ raw.toInt ≤ m.issued := by
  obtain ⟨n, h1, hn, rfl⟩ := h
  rw [Int32.toInt_ofNat_of_lt (by omega)]
  omega

/-- No number is that of an open wallet and of an open search. -/
def Apart (m : Memory) : Prop :=
  ∀ wallet search, (m.wallets.get? wallet).isSome → (m.searches.get? search).isSome →
    wallet.raw ≠ search.raw

/-- An operation opens a wallet or a search, but not both, so of two handles of one number that are
open after it one was open before. -/
theorem Numbered.issued_of_both (h : m.Numbered) {op : Operation} {wallet : WalletHandle}
    (hw : ((m.after op).wallets.get? wallet).isSome)
    (hs : ((m.after op).searches.get? search).isSome) (heq : wallet.raw = search.raw) :
    m.Issued search.raw := by
  have ofWallet : (m.wallets.get? wallet).isSome → m.Issued search.raw := fun hw => by
    obtain ⟨c, hc⟩ := Option.isSome_iff_exists.mp hw
    exact heq ▸ h.wallets hc
  match op with
  | .openWallet =>
      obtain ⟨s, hs⟩ := Option.isSome_iff_exists.mp hs
      exact (h.searches hs).1
  | .closeWallet w =>
      rw [Memory.after, closeWallet, SortedMap.get?_erase] at hw
      split at hw
      · contradiction
      · exact ofWallet hw
  | .call request => exact ofWallet ((changes_perform m request).wallet_isSome hw)

/-- **The next number is new to wallets and to searches.** -/
theorem Apart.after (ha : m.Apart) (h : m.Numbered) {op : Operation}
    (hlast : (m.after op).issued ≤ 0x7FFFFFFF) : (m.after op).Apart := by
  intro wallet search hw hs heq
  have hissued := h.issued_of_both hw hs heq
  obtain ⟨s', hs'⟩ := Option.isSome_iff_exists.mp hs
  obtain ⟨s, hs, -⟩ := search_origin hissued hlast hs'
  exact ha wallet search (wallet_origin (heq ▸ hissued) hlast hw)
    (Option.isSome_iff_exists.mpr ⟨s, hs⟩) heq

theorem Reachable.apart (hm : m.Reachable) (hlast : m.issued ≤ 0x7FFFFFFF) : m.Apart := by
  induction hm with
  | empty => exact fun _ _ h => by cases h
  | @after m hm op ih =>
      exact (ih (Nat.le_trans (issued_le_after m op) hlast)).after hm.numbered hlast

/-- The tables of a memory hang together. -/
structure Consistent (m : Memory) : Prop where
  wallet_range : ∀ {wallet c}, m.wallets.get? wallet = some c →
    1 ≤ wallet.raw.toInt ∧ wallet.raw.toInt ≤ m.issued
  search_range : ∀ {search s}, m.searches.get? search = some s →
    1 ≤ search.raw.toInt ∧ search.raw.toInt ≤ m.issued
  apart : m.Apart
  wallet_open : ∀ {search s}, m.searches.get? search = some s →
    (m.wallets.get? s.wallet).isSome
  proper : ∀ {search s}, m.searches.get? search = some s → s.Proper

theorem Reachable.consistent (hm : m.Reachable) (hlast : m.issued ≤ 0x7FFFFFFF) :
    m.Consistent where
  wallet_range h := (hm.numbered.wallets h).range hlast
  search_range h := (hm.numbered.searches h).1.range hlast
  apart := hm.apart hlast
  wallet_open h := (hm.numbered.searches h).2
  proper := hm.proper

/-! ### Searches that are open -/

/-- The open searches with their wallets, in the order of their handles. -/
def openings (m : Memory) : List (SearchHandle × WalletHandle) :=
  m.searches.entries.map fun e => (e.1, e.2.wallet)

/-- The search that an operation succeeds in opening, with its wallet. -/
def opens? (m : Memory) : Operation → Option (SearchHandle × WalletHandle)
  | .call (.openSearch wallet type query options) =>
    (m.openSearch wallet type query options).result.toOption.map fun search => (search, wallet)
  | _ => none

/-- Whether an operation succeeds in closing a search or its wallet. -/
def ends (m : Memory) (x : SearchHandle × WalletHandle) : Operation → Bool
  | .closeWallet wallet => x.2 = wallet && (m.closeWallet wallet).1
  | .call (.closeSearch search) => x.1 = search && (m.closeSearch search).result.toOption.isSome
  | _ => false

/-- Whether some operation of a run does. -/
def endedBy (x : SearchHandle × WalletHandle) : Memory → List Operation → Bool
  | _, [] => false
  | m, op :: ops => m.ends x op || endedBy x (m.after op) ops

/-- The searches that a run opens and does not end afterwards, in the order in which it opens
them. -/
def leftOpen : Memory → List Operation → List (SearchHandle × WalletHandle)
  | _, [] => []
  | m, op :: ops =>
    ((m.opens? op).toList.filter fun x => !endedBy x (m.after op) ops) ++
      leftOpen (m.after op) ops

/-- Calls that are none of a search leave all searches as they are. -/
theorem Changes.searches_eq {reply : Reply} {request : Call reply} {m' : Memory}
    (hc : m.Changes request m') (hr : ¬ request.OfSearch) : m'.searches = m.searches := by
  cases hc with
  | nothing | records => rfl
  | opened | fetched | closed => exact absurd trivial hr

theorem filter_openings (m : Memory) (p : SearchHandle × WalletHandle → Bool) :
    m.openings.filter p =
      (m.searches.entries.filter fun e => p (e.1, e.2.wallet)).map fun e => (e.1, e.2.wallet) :=
  List.filter_map

/-- A search that has been issued comes before the next one. -/
theorem Issued.lt_next (h : m.Issued search.raw) (hlast : m.issued < 0x7FFFFFFF) :
    compare search (⟨m.nextNumber⟩ : SearchHandle) = .lt := by
  obtain ⟨n, -, hn, hraw⟩ := h
  have hlt : search.raw < m.nextNumber := hraw ▸ ofNat_lt (Nat.lt_succ_of_le hn) hlast
  exact compareOfLessAndEq_eq_lt.mpr hlt

/-- A new search is listed at the end. -/
theorem Numbered.openings_withSearch (h : m.Numbered) (hlast : m.issued < 0x7FFFFFFF)
    (s : OpenSearch) : (m.withSearch s).openings = m.openings ++ [(⟨m.nextNumber⟩, s.wallet)] := by
  have hlater : ∀ e ∈ m.searches.entries, compare e.1 (⟨m.nextNumber⟩ : SearchHandle) = .lt :=
    fun e he => (h.searches (SortedMap.mem_entries.mp he)).1.lt_next hlast
  rw [openings, withSearch]
  show (SortedMap.place _ s m.searches.entries).map _ = _
  rw [SortedMap.place_last hlater, List.map_append]
  rfl

/-- A search from which records are fetched keeps its place. -/
theorem openings_withPending {s : OpenSearch} (h : m.searches.get? search = some s)
    (pending : List Record) : (m.withPending search s pending).openings = m.openings :=
  SortedMap.map_insert h rfl

theorem ends_closeSearch (m : Memory) (x : SearchHandle × WalletHandle) (search : SearchHandle) :
    m.ends x (.call (.closeSearch search)) = (x.1 = search && m.searches.contains search) := by
  rw [ends, closeSearch]
  split
  · rename_i hc
    rw [hc]
    rfl
  · rename_i hc
    rw [Bool.eq_false_iff.mpr hc]
    rfl

/-- Closing a search takes it out. -/
theorem openings_closeSearch (m : Memory) (search : SearchHandle) :
    (m.closeSearch search).memory.openings =
      m.openings.filter fun x => !m.ends x (.call (.closeSearch search)) := by
  simp only [ends_closeSearch]
  rw [closeSearch]
  split
  · rename_i hc
    rw [filter_openings, hc]
    refine congrArg (List.map _) (List.filter_congr fun e _ => ?_)
    by_cases he : e.1 = search
    · simp [he]
    · simp [he, Ne.symm he]
  · rename_i hc
    refine (List.filter_eq_self.mpr fun x _ => ?_).symm
    simp [hc]

/-- Closing a wallet takes out its searches, and one that is not open has none. -/
theorem Numbered.openings_closeWallet (h : m.Numbered) (wallet : WalletHandle) :
    (m.closeWallet wallet).2.openings =
      m.openings.filter fun x => !m.ends x (.closeWallet wallet) := by
  rw [filter_openings]
  refine congrArg (List.map _) (List.filter_congr fun e he => ?_)
  have hopen := (h.searches (SortedMap.mem_entries.mp he)).2
  by_cases hw : e.2.wallet = wallet
  · subst hw
    simp [ends, closeWallet, SortedMap.contains, hopen]
  · simp [ends, hw]

/-- An operation that neither opens nor ends a search. -/
theorem openings_spared {op : Operation} (h : (m.after op).openings = m.openings)
    (hends : ∀ x, m.ends x op = false) (hopens : m.opens? op = none) :
    (m.after op).openings =
      (m.openings.filter fun x => !m.ends x op) ++ (m.opens? op).toList := by
  rw [h, hopens, Option.toList_none, List.append_nil]
  refine (List.filter_eq_self.mpr fun x _ => ?_).symm
  rw [hends]
  rfl

theorem openings_call {reply : Reply} {request : Call reply} (hr : ¬ request.OfSearch) :
    (m.after (.call request)).openings = m.openings := by
  rw [openings, Memory.after, (changes_perform m request).searches_eq hr]
  rfl

theorem openings_fetch (m : Memory) (wallet : WalletHandle) (search : SearchHandle)
    (count : UInt64) :
    (m.after (.call (.fetchNextRecords wallet search count))).openings = m.openings := by
  have hc := changes_perform m (.fetchNextRecords wallet search count)
  rw [Memory.after]
  generalize (m.perform _ (.fetchNextRecords wallet search count)).memory = m' at hc ⊢
  cases hc with
  | nothing => rfl
  | records hr => exact absurd trivial hr
  | fetched hs => exact openings_withPending hs _

/-- **An operation takes out the searches that it ends and puts the one that it opens at the
end.** -/
theorem Numbered.openings_after (h : m.Numbered) : ∀ {op : Operation},
    (m.after op).issued ≤ 0x7FFFFFFF → (m.after op).openings =
      (m.openings.filter fun x => !m.ends x op) ++ (m.opens? op).toList
  | .openWallet, _ => openings_spared rfl (fun _ => rfl) rfl
  | .closeWallet wallet, _ => (h.openings_closeWallet wallet).trans (List.append_nil _).symm
  | .call (.closeSearch search), _ =>
      (openings_closeSearch m search).trans (List.append_nil _).symm
  | .call (.openSearch wallet type query options), hlast => by
      rcases openSearch_cases m wallet type query options with
        ⟨e, log, hopen⟩ | ⟨c, q, o, -, hopen⟩
      · refine openings_spared ?_ (fun _ => rfl) ?_
        · rw [after_openSearch, hopen]
          rfl
        · rw [opens?, hopen]
          rfl
      · rw [after_openSearch, hopen] at hlast ⊢
        rw [opens?, hopen, h.openings_withSearch hlast]
        refine congrArg (· ++ _) (List.filter_eq_self.mpr fun x _ => rfl).symm
  | .call (.fetchNextRecords wallet search count), _ =>
      openings_spared (openings_fetch m wallet search count) (fun _ => rfl) rfl
  | .call (.addRecord ..), _ | .call (.updateRecordValue ..), _ | .call (.updateRecordTags ..), _
  | .call (.addRecordTags ..), _ | .call (.deleteRecordTags ..), _ | .call (.deleteRecord ..), _
  | .call (.getRecord ..), _ =>
      openings_spared (openings_call (by exact fun h => h)) (fun _ => rfl) rfl

/-- **A run leaves open what it has found and not ended, and then what it has opened and not
ended.** -/
theorem Numbered.openings_afterAll (h : m.Numbered) (ops : List Operation)
    (hlast : (m.afterAll ops).issued ≤ 0x7FFFFFFF) : (m.afterAll ops).openings =
      (m.openings.filter fun x => !endedBy x m ops) ++ leftOpen m ops := by
  induction ops generalizing m with
  | nil => exact ((List.append_nil _).trans (List.filter_eq_self.mpr fun _ _ => rfl)).symm
  | cons op ops ih =>
      have hstep := h.openings_after (Nat.le_trans (issued_le_afterAll ops (m.after op)) hlast)
      have hrun := ih (h.after op) hlast
      rw [afterAll_cons, hrun, hstep, leftOpen, List.filter_append, List.filter_filter,
        List.append_assoc]
      simp [endedBy, Bool.and_comm]

/-- **Every state of a run hangs together**, as long as the run does not use up the numbers of 32
bits: the open wallets and searches have different numbers, all of them issued; every search is
one of an open wallet and has left to hand out, in ascending order of ids, at most as many records
as it counted, each with the parts that were asked for; and there are as many open searches as the
run has opened without closing them, or their wallet, afterwards. -/
theorem consistent_run (ops : List Operation) (hlast : (empty.afterAll ops).issued ≤ 0x7FFFFFFF) :
    (empty.afterAll ops).Consistent ∧
      (empty.afterAll ops).openSearchCount = (leftOpen empty ops).length := by
  refine ⟨(Reachable.empty.afterAll ops).consistent hlast, ?_⟩
  have hopen : (empty.afterAll ops).openings = leftOpen empty ops :=
    numbered_empty.openings_afterAll ops hlast
  rw [← hopen, openings, List.length_map]
  rfl

/-- The records that are searched are searched once more and fetched from the new search, one of them
is deleted, and the first search is closed. -/
def twoSearches : List Operation :=
  searching ++
    [.call (.openSearch ⟨1⟩ "type" (Filter.compile .always).encode onlyValues.encode),
      .call (.fetchNextRecords ⟨1⟩ ⟨3⟩ 3), .call (.deleteRecord ⟨1⟩ "type" "d"),
      .call (.closeSearch ⟨2⟩)]

/-- The second search has one record left, which has been deleted. -/
theorem searches_twoSearches : (empty.afterAll twoSearches).searches =
    .ofList [(⟨3⟩, ⟨⟨1⟩, 4, [⟨"d", none, some "four", none⟩], onlyValues⟩)] := by
  have hw : searched.wallets.get? ⟨1⟩ = some filledCollections := by
    rw [searched_eq]
    decide
  have hopen := after_openSearch_filled hw
  rw [twoSearches, afterAll_append, ← searched, afterAll_cons, hopen, searched_eq]
  decide

theorem consistent_run_twoSearches : (empty.afterAll twoSearches).issued ≤ 0x7FFFFFFF ∧
    (empty.afterAll twoSearches).Consistent ∧
    OpenSearch.Proper ⟨⟨1⟩, 4, [⟨"d", none, some "four", none⟩], onlyValues⟩ ∧
    (leftOpen empty twoSearches).length = 1 := by
  have hlast : (empty.afterAll twoSearches).issued ≤ 0x7FFFFFFF :=
    Nat.le_trans (issued_afterAll_le _ _) (by decide)
  obtain ⟨hconsistent, hcount⟩ := consistent_run twoSearches hlast
  have hsearch : (empty.afterAll twoSearches).searches.get? ⟨3⟩ =
      some ⟨⟨1⟩, 4, [⟨"d", none, some "four", none⟩], onlyValues⟩ := by
    rw [searches_twoSearches]
    decide
  refine ⟨hlast, hconsistent, hconsistent.proper hsearch, hcount.symm.trans ?_⟩
  rw [openSearchCount, searches_twoSearches]
  decide

end Memory

end TaggedRecords
