import TaggedRecords.Proofs.Memory.Answers

/-!
# Memories — why a call fails

A call needs several things (`Call.needs`): payloads that can be read, an open wallet, a record
that is there or is not, an open search.  **A call succeeds exactly if it has all that it needs, and
otherwise it fails for the first thing that is missing** (`Memory.invoke_needs`), which is what the
client is told.

Each operation looks at what it needs one after the other, so its result is decided by the first
need that is not met (`Decided`).  What several operations have in common is dealt with once:
reading a payload (`decided_withPayload`), having an open wallet (`decided_wallet`), and finding a
record (`decided_record`), on which updating, deleting and getting a record depend alike.
-/

namespace TaggedRecords

/-! ### Needs -/

/-- Something that a call needs, and the failure that is told when it is missing. -/
structure Need where
  met : Prop
  failure : Failure

/-- The failure of the first need that is not met. -/
inductive FirstUnmet : List Need → Failure → Prop where
  | here {n : Need} {rest : List Need} (h : ¬ n.met) : FirstUnmet (n :: rest) n.failure
  | later {n : Need} {rest : List Need} {e : Failure} (h : n.met) (t : FirstUnmet rest e) :
      FirstUnmet (n :: rest) e

/-- A result that is decided by needs: success if they are all met, and otherwise the failure of the
first one that is not. -/
def Decided {α : Type} (needs : List Need) : Except Failure α → Prop
  | .ok _ => ∀ n ∈ needs, n.met
  | .error e => FirstUnmet needs e

theorem FirstUnmet.not_met {needs : List Need} {e : Failure} (h : FirstUnmet needs e) :
    ¬ ∀ n ∈ needs, n.met := by
  induction h with
  | here h => exact fun hall => h (hall _ List.mem_cons_self)
  | later _ _ ih => exact fun hall => ih fun n hn => hall n (List.mem_cons_of_mem _ hn)

/-- Only one need is the first that is not met. -/
theorem FirstUnmet.unique {needs : List Need} {e e' : Failure} (h : FirstUnmet needs e)
    (h' : FirstUnmet needs e') : e = e' := by
  induction h with
  | here h =>
      cases h' with
      | here => rfl
      | later h' => exact absurd h' h
  | later h _ ih =>
      cases h' with
      | here h' => exact absurd h h'
      | later _ t => exact ih t

namespace Decided

variable {α : Type} {needs : List Need} {result : Except Failure α}

theorem ok_iff (h : Decided needs result) :
    (∃ a, result = .ok a) ↔ ∀ n ∈ needs, n.met := by
  cases result with
  | ok a => exact ⟨fun _ => h, fun _ => ⟨a, rfl⟩⟩
  | error e => exact ⟨nofun, fun hall => absurd hall h.not_met⟩

theorem error_iff (h : Decided needs result) (e : Failure) :
    result = .error e ↔ FirstUnmet needs e := by
  cases result with
  | ok a => exact ⟨nofun, fun he => absurd h he.not_met⟩
  | error e' =>
      constructor
      · rintro ⟨⟩
        exact h
      · exact fun he => congrArg Except.error (h.unique he)

theorem done (a : α) : Decided [] (.ok a : Except Failure α) := nofun

/-- A need that is met leaves the others to decide. -/
theorem met {n : Need} (hn : n.met) (h : Decided needs result) : Decided (n :: needs) result := by
  cases result with
  | ok a => exact List.forall_mem_cons.mpr ⟨hn, h⟩
  | error e => exact .later hn h

theorem map {β : Type} (h : Decided needs result) (f : α → β) : Decided needs (result.map f) := by
  cases result with
  | ok a => exact h
  | error e => exact h

end Decided

namespace Need

variable {α : Type}

/-- A payload that can be read. -/
def readable (payload : Except Json.Error α) : Need :=
  ⟨∃ a, payload = .ok a, .common .invalidStructure⟩

/-- A filter that can be read. -/
def query (query : String) : Need := ⟨∃ q, Query.decode query = .ok q, .wallet .queryError⟩

/-- A wallet that is open. -/
def wallet (m : Memory) (wallet : WalletHandle) : Need :=
  ⟨(m.wallets.get? wallet).isSome, .wallet .invalidHandle⟩

/-- A record that is there. -/
def present (m : Memory) (wallet : WalletHandle) (type id : String) : Need :=
  ⟨(m.stored wallet type id).isSome, .wallet .itemNotFound⟩

/-- A record that is not there. -/
def absent (m : Memory) (wallet : WalletHandle) (type id : String) : Need :=
  ⟨m.stored wallet type id = none, .wallet .itemAlreadyExists⟩

/-- A search that is open. -/
def search (m : Memory) (search : SearchHandle) : Need :=
  ⟨(m.searches.get? search).isSome, .wallet .invalidHandle⟩

/-- A search that is open and one of a wallet. -/
def searchOf (m : Memory) (wallet : WalletHandle) (search : SearchHandle) : Need :=
  ⟨∃ s, m.searches.get? search = some s ∧ s.wallet = wallet, .wallet .invalidHandle⟩

end Need

/-- What a call needs, in the order in which it is looked at. -/
def Call.needs (m : Memory) : {reply : Reply} → Call reply → List Need
  | _, .addRecord wallet type id _ tags =>
    [.readable (Tags.decode tags), .wallet m wallet, .absent m wallet type id]
  | _, .updateRecordTags wallet type id tags | _, .addRecordTags wallet type id tags =>
    [.readable (Tags.decode tags), .wallet m wallet, .present m wallet type id]
  | _, .deleteRecordTags wallet type id names =>
    [.readable (Tags.decodeNames names), .wallet m wallet, .present m wallet type id]
  | _, .getRecord wallet type id options =>
    [.readable (SearchOptions.decode options), .wallet m wallet, .present m wallet type id]
  | _, .updateRecordValue wallet type id _ | _, .deleteRecord wallet type id =>
    [.wallet m wallet, .present m wallet type id]
  | _, .openSearch wallet _ query options =>
    [.query query, .readable (SearchOptions.decode options), .wallet m wallet]
  | _, .fetchNextRecords wallet search _ => [.searchOf m wallet search]
  | _, .closeSearch search => [.search m search]

namespace Memory

variable {α β : Type} {m : Memory} {wallet : WalletHandle} {rest : List Need}

/-! ### What operations look at -/

theorem decided_withPayload {payload : Except Json.Error β} {go : β → Answer α}
    (h : ∀ b, Decided rest (go b).result) :
    Decided (.readable payload :: rest) (m.withPayload payload go).result := by
  cases payload with
  | ok b => exact .met ⟨b, rfl⟩ (h b)
  | error e => exact .here nofun

variable {result : Except Failure α}

/-- A result that tells of a wallet that is not open. -/
theorem decided_wallet
    (hclosed : m.wallets.get? wallet = none → result = .error (.wallet .invalidHandle))
    (hopen : ∀ c, m.wallets.get? wallet = some c → Decided rest result) :
    Decided (.wallet m wallet :: rest) result := by
  cases hw : m.wallets.get? wallet with
  | none =>
      rw [hclosed hw]
      refine .here ?_
      rw [Need.wallet, hw]
      exact Bool.false_ne_true
  | some c => exact .met (Option.isSome_iff_exists.mpr ⟨c, hw⟩) (hopen c hw)

/-! ### Single records -/

theorem result_update (m : Memory) (wallet : WalletHandle) (type id : String)
    (change : StoredRecord → StoredRecord) :
    (m.update wallet type id change).result = (m.record wallet type id).map fun _ => () := by
  rw [update, record]
  cases m.collections wallet with
  | error e => rfl
  | ok c =>
      dsimp only [bind, Except.bind]
      cases find? c type id <;> rfl

theorem result_delete (m : Memory) (wallet : WalletHandle) (type id : String) :
    (m.delete wallet type id).result = (m.record wallet type id).map fun _ => () := by
  rw [delete, record]
  cases m.collections wallet with
  | error e => rfl
  | ok c =>
      dsimp only [bind, Except.bind]
      cases find? c type id <;> rfl

/-- A record that is there can be had. -/
theorem decided_record (m : Memory) (wallet : WalletHandle) (type id : String) :
    Decided [.wallet m wallet, .present m wallet type id] (m.record wallet type id) := by
  refine decided_wallet (fun hw => record_closed hw type id) fun c hw => ?_
  have hstored := stored_eq hw type id
  rw [record, collections_eq.mpr hw]
  dsimp only [bind, Except.bind]
  cases hf : find? c type id with
  | none =>
      refine .here ?_
      rw [Need.present, hstored, hf]
      exact Bool.false_ne_true
  | some r =>
      refine .met ?_ (.done r)
      rw [Need.present, hstored, hf]
      rfl

theorem decided_update (m : Memory) (wallet : WalletHandle) (type id : String)
    (change : StoredRecord → StoredRecord) :
    Decided [.wallet m wallet, .present m wallet type id]
      (m.update wallet type id change).result := by
  rw [result_update]
  exact (decided_record m wallet type id).map _

/-- A record that is not there can be added. -/
theorem decided_add (m : Memory) (wallet : WalletHandle) (type id value tags : String) :
    Decided [.readable (Tags.decode tags), .wallet m wallet, .absent m wallet type id]
      (m.add wallet type id value tags).result := by
  refine decided_withPayload fun tags => decided_wallet (fun hw => ?_) fun c hw => ?_
  · rw [collections_closed hw]
    rfl
  · have hstored := stored_eq hw type id
    rw [collections_eq.mpr hw]
    dsimp only
    split
    · rename_i hf
      refine .here ?_
      rw [Need.absent, hstored]
      exact Option.isSome_iff_ne_none.mp hf
    · rename_i hf
      refine .met ?_ (.done ())
      rw [Need.absent, hstored]
      exact Option.not_isSome_iff_eq_none.mp hf

/-! ### Searches -/

theorem decided_openSearch (m : Memory) (wallet : WalletHandle) (type query options : String) :
    Decided [.query query, .readable (SearchOptions.decode options), .wallet m wallet]
      (m.openSearch wallet type query options).result := by
  rw [openSearch]
  cases hq : Query.decode query with
  | error refusal =>
      refine .here ?_
      rintro ⟨q, h⟩
      rw [hq] at h
      contradiction
  | ok q =>
      refine .met ⟨q, hq⟩ ?_
      refine decided_withPayload fun o => decided_wallet (fun hw => ?_) fun c hw => ?_
      · rw [collections_closed hw]
        rfl
      · rw [collections_eq.mpr hw]
        exact .done _

theorem decided_fetch (m : Memory) (wallet : WalletHandle) (search : SearchHandle)
    (count : UInt64) :
    Decided [.searchOf m wallet search] (m.fetch wallet search count).result := by
  rw [fetch]
  split
  · rename_i hnone
    refine .here ?_
    rintro ⟨s, hs, hw⟩
    rw [hs, Option.filter, if_pos (decide_eq_true hw)] at hnone
    contradiction
  · rename_i s hfound
    obtain ⟨hs, hw⟩ := Option.filter_eq_some_iff.mp hfound
    exact .met ⟨s, hs, of_decide_eq_true hw⟩ (.done _)

theorem decided_closeSearch (m : Memory) (search : SearchHandle) :
    Decided [.search m search] (m.closeSearch search).result := by
  rw [closeSearch]
  split
  · rename_i hopen
    exact .met hopen (.done ())
  · rename_i hopen
    exact .here hopen

/-- **The result of a call is decided by what it needs.** -/
theorem decided_perform (m : Memory) : ∀ {reply : Reply} (request : Call reply),
    Decided (request.needs m) (m.perform reply request).result
  | _, .addRecord wallet type id value tags => decided_add m wallet type id value tags
  | _, .updateRecordValue wallet type id value => decided_update m wallet type id _
  | _, .updateRecordTags wallet type id _ | _, .addRecordTags wallet type id _
  | _, .deleteRecordTags wallet type id _ =>
      decided_withPayload fun _ => decided_update m wallet type id _
  | _, .deleteRecord wallet type id => by
      rw [perform, result_delete]
      exact (decided_record m wallet type id).map _
  | _, .getRecord wallet type id options => decided_withPayload fun o => by
      have h := (decided_record m wallet type id).map fun r => (r.project type id o).encode
      cases hr : m.record wallet type id <;> rw [hr] at h <;> exact h
  | _, .openSearch wallet type query options => decided_openSearch m wallet type query options
  | _, .fetchNextRecords wallet search count => decided_fetch m wallet search count
  | _, .closeSearch search => decided_closeSearch m search

/-- **A call succeeds exactly if it has all that it needs, and otherwise fails for the first thing
that is missing**, and that is what the client is told. -/
theorem invoke_needs (m : Memory) {reply : Reply} (request : Call reply) :
    ((∃ payload, ((Program.invoke request).run store m).exit = .finished (.ok payload)) ↔
      ∀ n ∈ request.needs m, n.met) ∧
    ∀ e, ((Program.invoke request).run store m).exit = .finished (.error e) ↔
      FirstUnmet (request.needs m) e := by
  have hdecided := decided_perform m request
  have hrun : ((Program.invoke request).run store m).exit =
      .finished (m.perform reply request).result := congrArg Program.Run.exit (run_invoke m request)
  rw [hrun]
  simp only [Program.Exit.finished.injEq]
  exact ⟨hdecided.ok_iff, hdecided.error_iff⟩

end Memory

end TaggedRecords
