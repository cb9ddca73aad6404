import TaggedRecords.Proofs.Memory.Refusals

/-!
# Memories — handles over a whole run

Wallets and searches are numbered from one sequence.  **The handles that a run issues ascend, and
what is closed stays closed** (`Memory.handles_final`): no later operation, of whatever kind, brings
back a search or a wallet that is not open although its number has been issued.

What an operation leaves open it has found open or opened itself, and then under a new number
(`Memory.search_origin`, `Memory.wallet_origin`); by induction the same holds of a run.
-/

namespace TaggedRecords

/-- A call about the records of a wallet, or one that opens a search over them, with payloads that
can be read. -/
def Call.ReadableOn (wallet : WalletHandle) {reply : Reply} : Call reply → Prop
  | .addRecord w _ _ _ tags | .updateRecordTags w _ _ tags | .addRecordTags w _ _ tags =>
    w = wallet ∧ ∃ t, Tags.decode tags = .ok t
  | .deleteRecordTags w _ _ names => w = wallet ∧ ∃ n, Tags.decodeNames names = .ok n
  | .updateRecordValue w .. | .deleteRecord w .. => w = wallet
  | .getRecord w _ _ options => w = wallet ∧ ∃ o, SearchOptions.decode options = .ok o
  | .openSearch w _ query options =>
    w = wallet ∧ (∃ q, Query.decode query = .ok q) ∧ ∃ o, SearchOptions.decode options = .ok o
  | .fetchNextRecords .. | .closeSearch _ => False

namespace Memory

variable {m : Memory} {wallet : WalletHandle} {search : SearchHandle}

/-! ### Handles that are issued -/

/-- The number of the handle that an operation issues, if it issues one. -/
def issues (m : Memory) : Operation → Option Int32
  | .openWallet => some m.openWallet.1.raw
  | .call (.openSearch wallet type query options) =>
    (m.openSearch wallet type query options).result.toOption.map SearchHandle.raw
  | _ => none

/-- The numbers of the handles that a run issues, in order. -/
def handles : Memory → List Operation → List Int32
  | _, [] => []
  | m, op :: ops => (m.issues op).toList ++ handles (m.after op) ops

/-- A search that is opened takes the next number. -/
theorem openSearch_ok {type query options : String}
    (h : (m.openSearch wallet type query options).result = .ok search) :
    search = ⟨m.nextNumber⟩ ∧ ∃ s, s.wallet = wallet ∧
      (m.openSearch wallet type query options).memory = m.withSearch s := by
  rcases openSearch_cases m wallet type query options with ⟨e, log, hopen⟩ | ⟨c, q, o, -, hopen⟩
  · rw [hopen] at h
    contradiction
  · rw [hopen] at h ⊢
    exact ⟨(Except.ok.inj h).symm, _, rfl, rfl⟩

/-- **A handle that is issued takes the next number.** -/
theorem issues_eq {op : Operation} {raw : Int32} (h : m.issues op = some raw) :
    raw = m.nextNumber ∧ (m.after op).issued = m.issued + 1 := by
  unfold issues at h
  split at h
  · exact ⟨(Option.some.inj h).symm, rfl⟩
  · rename_i wallet type query options
    cases hopen : (m.openSearch wallet type query options).result with
    | error e =>
        rw [hopen] at h
        contradiction
    | ok search =>
        rw [hopen] at h
        obtain ⟨rfl, s, -, hs⟩ := openSearch_ok hopen
        exact ⟨(Option.some.inj h).symm, congrArg Memory.issued hs⟩
  · contradiction

/-- The numbers that a run issues lie between those before and those after it. -/
theorem mem_handles {ops : List Operation} {raw : Int32} (h : raw ∈ handles m ops) :
    ∃ n, m.issued < n ∧ n ≤ (m.afterAll ops).issued ∧ raw = .ofNat n := by
  induction ops generalizing m with
  | nil => contradiction
  | cons op ops ih =>
      rcases List.mem_append.mp h with hop | hops
      · obtain ⟨rfl, hissued⟩ := issues_eq (Option.mem_toList.mp hop)
        have hle := issued_le_afterAll ops (m.after op)
        exact ⟨m.issued + 1, Nat.lt_succ_self _, hissued ▸ hle, rfl⟩
      · obtain ⟨n, hlt, hle, hraw⟩ := ih hops
        exact ⟨n, Nat.lt_of_le_of_lt (issued_le_after m op) hlt, hle, hraw⟩

theorem ofNat_lt {a b : Nat} (h : a < b) (hb : b ≤ 0x7FFFFFFF) : Int32.ofNat a < Int32.ofNat b := by
  rw [Int32.lt_iff_toInt_lt, Int32.toInt_ofNat_of_lt (by omega), Int32.toInt_ofNat_of_lt (by omega)]
  omega

/-- **The handles that a run issues ascend**, as long as there are numbers. -/
theorem handles_ascending (ops : List Operation) (hlast : (m.afterAll ops).issued ≤ 0x7FFFFFFF) :
    (handles m ops).Pairwise (· < ·) := by
  induction ops generalizing m with
  | nil => exact .nil
  | cons op ops ih =>
      refine List.pairwise_append.mpr ⟨?_, ih hlast, fun raw hop raw' hops => ?_⟩
      · cases m.issues op with
        | none => exact .nil
        | some raw => exact List.pairwise_singleton _ _
      · obtain ⟨rfl, hissued⟩ := issues_eq (Option.mem_toList.mp hop)
        obtain ⟨n, hlt, hle, rfl⟩ := mem_handles hops
        exact ofNat_lt (hissued ▸ hlt) (Nat.le_trans hle hlast)

/-! ### Where what is open comes from -/

/-- What a call leaves of a search it has found, and it is one of the same wallet. -/
theorem Changes.search_origin {reply : Reply} {request : Call reply} {m' : Memory}
    (hc : m.Changes request m') (hissued : m.Issued search.raw) (hlast : m'.issued ≤ 0x7FFFFFFF)
    {s' : OpenSearch} (h : m'.searches.get? search = some s') :
    ∃ s, m.searches.get? search = some s ∧ s.wallet = s'.wallet := by
  cases hc with
  | nothing => exact ⟨s', h, rfl⟩
  | records => exact ⟨s', h, rfl⟩
  | opened hw pending o =>
      -- the new search has a new number
      rw [get?_withSearch, if_neg] at h
      · exact ⟨s', h, rfl⟩
      · rintro rfl
        exact not_issued_nextNumber hlast hissued
  | @fetched search' count s hs =>
      rw [get?_withPending] at h
      split at h
      · rename_i heq
        obtain rfl := Option.some.inj h
        exact ⟨s, heq ▸ hs, rfl⟩
      · exact ⟨s', h, rfl⟩
  | closed =>
      rw [SortedMap.get?_erase] at h
      split at h
      · contradiction
      · exact ⟨s', h, rfl⟩

/-- **A search whose number had been issued was open before, in the same wallet.** -/
theorem search_origin {op : Operation} (hissued : m.Issued search.raw)
    (hlast : (m.after op).issued ≤ 0x7FFFFFFF) {s' : OpenSearch}
    (h : (m.after op).searches.get? search = some s') :
    ∃ s, m.searches.get? search = some s ∧ s.wallet = s'.wallet := by
  match op with
  | .openWallet => exact ⟨s', h, rfl⟩
  | .closeWallet wallet =>
      rw [after, closeWallet, SortedMap.get?_filter] at h
      exact ⟨s', (Option.filter_eq_some_iff.mp h).1, rfl⟩
  | .call request => exact (changes_perform m request).search_origin hissued hlast h

theorem search_origin_afterAll {ops : List Operation} (hissued : m.Issued search.raw)
    (hlast : (m.afterAll ops).issued ≤ 0x7FFFFFFF) {s' : OpenSearch}
    (h : (m.afterAll ops).searches.get? search = some s') :
    ∃ s, m.searches.get? search = some s ∧ s.wallet = s'.wallet := by
  induction ops generalizing m with
  | nil => exact ⟨s', h, rfl⟩
  | cons op ops ih =>
      obtain ⟨s, hs, hw⟩ := ih (hissued.mono (issued_le_after m op)) hlast h
      obtain ⟨s₀, hs₀, hw₀⟩ :=
        search_origin hissued (Nat.le_trans (issued_le_afterAll ops _) hlast) hs
      exact ⟨s₀, hs₀, hw₀.trans hw⟩

/-- No call opens a wallet. -/
theorem Changes.wallet_isSome {reply : Reply} {request : Call reply} {m' : Memory}
    (hc : m.Changes request m')
    (h : (m'.wallets.get? wallet).isSome) : (m.wallets.get? wallet).isSome := by
  cases hc with
  | nothing | opened | fetched | closed => exact h
  | records _ hw c' =>
      rw [SortedMap.get?_insert] at h
      split at h
      · rename_i heq
        rw [heq, hw]
        rfl
      · exact h

/-- **A wallet whose number had been issued was open before.** -/
theorem wallet_origin {op : Operation} (hissued : m.Issued wallet.raw)
    (hlast : (m.after op).issued ≤ 0x7FFFFFFF)
    (h : ((m.after op).wallets.get? wallet).isSome) : (m.wallets.get? wallet).isSome := by
  match op with
  | .openWallet =>
      rw [after, openWallet, SortedMap.get?_insert, if_neg] at h
      · exact h
      · rintro rfl
        exact not_issued_nextNumber hlast hissued
  | .closeWallet w =>
      rw [after, closeWallet, SortedMap.get?_erase] at h
      split at h
      · contradiction
      · exact h
  | .call request => exact (changes_perform m request).wallet_isSome h

theorem wallet_origin_afterAll {ops : List Operation} (hissued : m.Issued wallet.raw)
    (hlast : (m.afterAll ops).issued ≤ 0x7FFFFFFF)
    (h : ((m.afterAll ops).wallets.get? wallet).isSome) : (m.wallets.get? wallet).isSome := by
  induction ops generalizing m with
  | nil => exact h
  | cons op ops ih =>
      have hstep := ih (hissued.mono (issued_le_after m op)) hlast h
      exact wallet_origin hissued (Nat.le_trans (issued_le_afterAll ops _) hlast) hstep

/-! ### What is closed -/

/-- Neither a fetch from the search, through whichever wallet, nor closing it finds it. -/
def Gone (m : Memory) (search : SearchHandle) : Prop :=
  (∀ wallet count, (m.fetch wallet search count).result = .error (.wallet .invalidHandle)) ∧
    (m.closeSearch search).result = .error (.wallet .invalidHandle)

theorem gone_of_none (h : m.searches.get? search = none) : m.Gone search := by
  refine ⟨fun wallet count => ?_, ?_⟩
  · rw [fetch, h]
    rfl
  · rw [closeSearch, if_neg]
    · rfl
    · rw [SortedMap.contains, h]
      exact Bool.false_ne_true

/-- A wallet that is not open turns down every call about it whose payloads can be read. -/
theorem result_closed (h : m.wallets.get? wallet = none) : ∀ {reply : Reply}
    {request : Call reply}, request.ReadableOn wallet →
      (m.perform reply request).result = .error (.wallet .invalidHandle)
  | _, .addRecord .., hr => by
      obtain ⟨rfl, _, ht⟩ := hr
      rw [perform, add, ht, withPayload, collections_closed h]
      rfl
  | _, .updateRecordValue .., hr => by
      obtain rfl := hr
      rw [perform, updateValue, update_closed _ _ _ h]
      rfl
  | _, .updateRecordTags .., hr => by
      obtain ⟨rfl, _, ht⟩ := hr
      rw [perform, updateTags, ht, withPayload, update_closed _ _ _ h]
      rfl
  | _, .addRecordTags .., hr => by
      obtain ⟨rfl, _, ht⟩ := hr
      rw [perform, addTags, ht, withPayload, update_closed _ _ _ h]
      rfl
  | _, .deleteRecordTags .., hr => by
      obtain ⟨rfl, _, hn⟩ := hr
      rw [perform, deleteTags, hn, withPayload, update_closed _ _ _ h]
      rfl
  | _, .deleteRecord .., hr => by
      obtain rfl := hr
      rw [perform, delete, collections_closed h]
      rfl
  | _, .getRecord .., hr => by
      obtain ⟨rfl, _, ho⟩ := hr
      rw [perform, get, ho, withPayload, record_closed h]
      rfl
  | _, .openSearch .., hr => by
      obtain ⟨rfl, ⟨_, hq⟩, _, ho⟩ := hr
      rw [perform, openSearch, hq, ho, collections_closed h]
      rfl
  | _, .fetchNextRecords .., hr | _, .closeSearch _, hr => hr.elim

/-- A search that has been issued and is not open is gone for the rest of the run. -/
theorem gone_afterAll {ops : List Operation} (hissued : m.Issued search.raw)
    (hlast : (m.afterAll ops).issued ≤ 0x7FFFFFFF) (h : m.searches.get? search = none) :
    (m.afterAll ops).Gone search := by
  refine gone_of_none (Option.eq_none_iff_forall_ne_some.mpr fun s' hs' => ?_)
  obtain ⟨s, hs, -⟩ := search_origin_afterAll hissued hlast hs'
  rw [h] at hs
  contradiction

/-- A wallet that has been issued and is not open stays closed for the rest of the run. -/
theorem closed_afterAll {ops : List Operation} (hissued : m.Issued wallet.raw)
    (hlast : (m.afterAll ops).issued ≤ 0x7FFFFFFF) (h : m.wallets.get? wallet = none) :
    (m.afterAll ops).wallets.get? wallet = none := by
  refine Option.eq_none_iff_forall_ne_some.mpr fun c hc => ?_
  have hopen := wallet_origin_afterAll hissued hlast (Option.isSome_iff_exists.mpr ⟨c, hc⟩)
  rw [h] at hopen
  contradiction

/-- Only an open search can be closed. -/
theorem contains_of_closeSearch (h : (m.closeSearch search).result = .ok ()) :
    m.searches.contains search = true := by
  rw [closeSearch] at h
  split at h
  · assumption
  · contradiction

/-- As long as a search is open it is one of the wallet that it was opened in. -/
theorem wallet_of_opened {type query options : String} {ops : List Operation}
    (hopen : (m.openSearch wallet type query options).result = .ok search)
    (hlast : ((m.openSearch wallet type query options).memory.afterAll ops).issued ≤ 0x7FFFFFFF) :
    ((m.openSearch wallet type query options).memory.afterAll ops).Issued search.raw ∧
    ∀ s, ((m.openSearch wallet type query options).memory.afterAll ops).searches.get? search =
      some s → s.wallet = wallet := by
  obtain ⟨rfl, s₀, hw, hmem⟩ := openSearch_ok hopen
  rw [hmem] at hlast ⊢
  have hissued : (m.withSearch s₀).Issued (SearchHandle.raw ⟨m.nextNumber⟩) := .next m rfl
  refine ⟨hissued.mono (issued_le_afterAll ops _), fun s hs => ?_⟩
  obtain ⟨s', hs', hw'⟩ := search_origin_afterAll hissued hlast hs
  rw [get?_withSearch, if_pos rfl] at hs'
  rw [← hw', ← Option.some.inj hs', hw]

/-- Closing a wallet closes the searches that were opened in it. -/
theorem get?_closeWallet (h : ∀ s, m.searches.get? search = some s → s.wallet = wallet) :
    (m.closeWallet wallet).2.searches.get? search = none := by
  rw [closeWallet, SortedMap.get?_filter]
  cases hs : m.searches.get? search with
  | none => rfl
  | some s =>
      rw [Option.filter, if_neg]
      exact fun hne => of_decide_eq_true hne (h s hs)

/-- **Handles are never issued twice, and what is closed stays closed.**  In a run that does not use
up the numbers of 32 bits the handles of wallets and of searches ascend in the order in which they
are issued.  From the moment on at which a search is closed no call finds it; and from the moment on
at which a wallet is closed it cannot be closed again, it turns down every call about its records
whose payloads can be read, and no call finds a search that was opened in it. -/
theorem handles_final (ops : List Operation) (hlast : (empty.afterAll ops).issued ≤ 0x7FFFFFFF) :
    (handles empty ops).Pairwise (· < ·) ∧
    (∀ before search later, ops = before ++ .call (.closeSearch search) :: later →
      ((empty.afterAll before).closeSearch search).result = .ok () →
        (empty.afterAll ops).Gone search) ∧
    (∀ before wallet later, ops = before ++ .closeWallet wallet :: later →
      ((empty.afterAll before).closeWallet wallet).1 = true →
        ((empty.afterAll ops).closeWallet wallet).1 = false ∧
        (∀ (reply : Reply) (request : Call reply), request.ReadableOn wallet →
          ((empty.afterAll ops).perform reply request).result = .error (.wallet .invalidHandle)) ∧
        ∀ earlier type query options between search,
          before = earlier ++ .call (.openSearch wallet type query options) :: between →
          ((empty.afterAll earlier).openSearch wallet type query options).result = .ok search →
            (empty.afterAll ops).Gone search) := by
  refine ⟨handles_ascending ops hlast, ?_, ?_⟩
  · rintro before search later rfl hclose
    rw [afterAll_append, afterAll_cons] at hlast ⊢
    have hm : (empty.afterAll before).Reachable := Reachable.empty.afterAll before
    generalize empty.afterAll before = m at hm hclose hlast ⊢
    -- a search that can be closed is open, so its number has been issued
    have hopen := contains_of_closeSearch hclose
    obtain ⟨s, hs⟩ := Option.isSome_iff_exists.mp hopen
    have hissued := (hm.numbered.searches hs).1
    refine gone_afterAll (hissued.mono (issued_le_after m _)) hlast ?_
    rw [after, perform, closeSearch, if_pos hopen, SortedMap.get?_erase, if_pos rfl]
  · rintro before wallet later rfl hclose
    rw [afterAll_append, afterAll_cons] at hlast ⊢
    have hm : (empty.afterAll before).Reachable := Reachable.empty.afterAll before
    obtain ⟨c, hc⟩ := Option.isSome_iff_exists.mp hclose
    have hissued := (hm.numbered.wallets hc).mono (issued_le_after _ (.closeWallet wallet))
    have hclosed := closed_afterAll hissued hlast (by
      rw [after, closeWallet, SortedMap.get?_erase, if_pos rfl])
    refine ⟨?_, fun _ _ hr => result_closed hclosed hr, ?_⟩
    · rw [closeWallet, SortedMap.contains, hclosed]
      rfl
    · rintro earlier type query options between search rfl hopen
      rw [afterAll_append, afterAll_cons] at hlast ⊢
      have hbefore := Nat.le_trans (issued_le_after _ (.closeWallet wallet))
        (Nat.le_trans (issued_le_afterAll later _) hlast)
      obtain ⟨hsearch, hwallet⟩ := wallet_of_opened hopen hbefore
      exact gone_afterAll (hsearch.mono (issued_le_after _ _)) hlast (get?_closeWallet hwallet)

/-- A wallet is filled, searched and closed, and another one is opened. -/
def walletRun : List Operation := searching ++ [.closeWallet ⟨1⟩, .openWallet]

theorem handles_final_walletRun : (empty.afterAll walletRun).issued ≤ 0x7FFFFFFF ∧
    (handles empty walletRun).Pairwise (· < ·) ∧
    ((empty.afterAll walletRun).closeWallet ⟨1⟩).1 = false ∧
    ((empty.afterAll walletRun).perform .text
      (.getRecord ⟨1⟩ "type" "a" onlyValues.encode)).result = .error (.wallet .invalidHandle) ∧
    (empty.afterAll walletRun).Gone ⟨2⟩ := by
  have hlast : (empty.afterAll walletRun).issued ≤ 0x7FFFFFFF :=
    Nat.le_trans (issued_afterAll_le _ _) (by decide)
  obtain ⟨hascending, -, hclosed⟩ := handles_final walletRun hlast
  have hwallet : (searched.closeWallet ⟨1⟩).1 = true := by
    rw [searched_eq]
    decide
  have hsearch : (filled.openSearch ⟨1⟩ "type" (Filter.compile .always).encode
      onlyValues.encode).result = .ok ⟨2⟩ := by
    rw [openSearch_eq filled_wallet Query.decode_always (SearchOptions.decode_encode _)]
    decide
  obtain ⟨hagain, hrefused, hgone⟩ := hclosed searching ⟨1⟩ [.openWallet] rfl hwallet
  exact ⟨hlast, hascending, hagain, hrefused _ _ ⟨rfl, onlyValues, SearchOptions.decode_encode _⟩,
    hgone filling _ _ _ _ _ rfl hsearch⟩

end Memory

end TaggedRecords
