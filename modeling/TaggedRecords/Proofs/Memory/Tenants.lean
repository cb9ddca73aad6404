import TaggedRecords.Proofs.Memory.Snapshots

/-!
# Memories — tenants

A tenant acts on a wallet of its own in a memory that it may share with others.  Searches stand in
one table and all handles come from one sequence, so a tenant does not know the numbers of its
searches beforehand: it names a search by the step that has opened it (`Tenant.named`), and what it
is told of a new handle counts up to its number (`Tenant.Told.masked`).

What an act does is an `Effect`, in which no number occurs, and **which effect it is depends only on
what the tenant can see** (`Tenant.Alike.act_eq`).  As long as tenants name searches of their own
(`Tenant.Owns`), an effect keeps memories alike to the tenant itself (`Tenant.Alike.run`), and what
other tenants see it does not reach (`Tenant.Alike.spared`).
-/

namespace TaggedRecords.Tenant

open Memory (Answer)

/-! ### Acts -/

/-- An operation of a tenant on its wallet; a search is named by the step that has opened it. -/
inductive Act where
  | add (type id value tags : String)
  | updateValue (type id value : String)
  | updateTags (type id tags : String)
  | addTags (type id tags : String)
  | deleteTags (type id names : String)
  | delete (type id : String)
  | get (type id options : String)
  | openSearch (type query options : String)
  | fetch (step : Nat) (count : UInt64)
  | closeSearch (step : Nat)
  | closeWallet

/-- What a tenant is told of an act; an act on a search that has not been opened is not done. -/
inductive Told where
  | done (result : Except Failure Unit)
  | opened (result : Except Failure SearchHandle)
  | read (result : Except Failure String)
  | closed (wasOpen : Bool)
  | unnamed

/-- The handle of the search that has been opened. -/
def Told.handle? : Told → Option SearchHandle
  | .opened (.ok search) => some search
  | _ => none

/-- What is told up to the number of a new handle. -/
def Told.masked : Told → Told
  | .opened (.ok _) => .opened (.ok ⟨0⟩)
  | told => told

/-- The search that a step has opened. -/
def named (log : List Told) (step : Nat) : Option SearchHandle := log[step]?.bind Told.handle?

/-- An answer as it is told, and the memory after it. -/
def telling {α : Type} (tell : Except Failure α → Told) (a : Answer α) : Told × Memory :=
  (tell a.result, a.memory)

/-- What a tenant is told of an act, and the memory after it. -/
def act (wallet : WalletHandle) (log : List Told) (m : Memory) : Act → Told × Memory
  | .add type id value tags => telling .done (m.add wallet type id value tags)
  | .updateValue type id value => telling .done (m.updateValue wallet type id value)
  | .updateTags type id tags => telling .done (m.updateTags wallet type id tags)
  | .addTags type id tags => telling .done (m.addTags wallet type id tags)
  | .deleteTags type id names => telling .done (m.deleteTags wallet type id names)
  | .delete type id => telling .done (m.delete wallet type id)
  | .get type id options => telling .read (m.get wallet type id options)
  | .openSearch type query options => telling .opened (m.openSearch wallet type query options)
  | .fetch step count =>
    match named log step with
    | some search => telling .read (m.fetch wallet search count)
    | none => (.unnamed, m)
  | .closeSearch step =>
    match named log step with
    | some search => telling .done (m.closeSearch search)
    | none => (.unnamed, m)
  | .closeWallet => (.closed (m.closeWallet wallet).1, (m.closeWallet wallet).2)

/-! ### What a tenant sees -/

/-- What there is of the search that a step has opened, nothing if it is closed. -/
def search? (m : Memory) (log : List Told) (step : Nat) : Option (Option OpenSearch) :=
  (named log step).map m.searches.get?

/-- Two memories are alike to a tenant: it has been told the same in both, up to the numbers of new
handles, its wallet has the same records, and its searches have the same left to hand out. -/
structure Alike (wallet : WalletHandle) (log : List Told) (m : Memory) (log' : List Told)
    (m' : Memory) : Prop where
  told : log.map Told.masked = log'.map Told.masked
  records : m.wallets.get? wallet = m'.wallets.get? wallet
  searches : ∀ step, search? m log step = search? m' log' step

/-- The searches that a tenant can name are its own: their numbers have been issued, each to one
step, and those that are open are searches of its wallet. -/
structure Owns (wallet : WalletHandle) (log : List Told) (m : Memory) : Prop where
  issued : ∀ {step search}, named log step = some search → m.Issued search.raw
  step_eq : ∀ {step step' search}, named log step = some search →
    named log step' = some search → step = step'
  wallet_eq : ∀ {step search s}, named log step = some search →
    m.searches.get? search = some s → s.wallet = wallet

variable {wallet : WalletHandle} {log log' : List Told} {m m' : Memory}

theorem Alike.refl (wallet : WalletHandle) (log : List Told) (m : Memory) :
    Alike wallet log m log m := ⟨rfl, rfl, fun _ => rfl⟩

theorem owns_nil (wallet : WalletHandle) (m : Memory) : Owns wallet [] m := ⟨nofun, nofun, nofun⟩

theorem named_append (log : List Told) (told : Told) (step : Nat) :
    named (log ++ [told]) step = if step = log.length then told.handle? else named log step := by
  rw [named, named]
  rcases Nat.lt_trichotomy step log.length with h | h | h
  · rw [if_neg (Nat.ne_of_lt h), List.getElem?_append_left h]
  · rw [if_pos h, h, List.getElem?_concat_length, Option.bind_some]
  · rw [if_neg (Nat.ne_of_gt h), List.getElem?_eq_none, List.getElem?_eq_none (Nat.le_of_lt h)]
    rw [List.length_append]
    exact h

/-! ### Effects -/

/-- What an act comes to, with what is told of it where that is not settled by what is done. -/
inductive Effect where
  | nothing (told : Told) (h : told.handle? = none)
  | records (c : Collections)
  | opened (pending : List Record) (o : SearchOptions)
  | fetched (text : String) (step n : Nat)
  | closed (step : Nat)
  | closedWallet (wasOpen : Bool)

namespace Effect

/-- What is told of an effect, and the memory after it. -/
def run (wallet : WalletHandle) (log : List Told) (m : Memory) : Effect → Told × Memory
  | .nothing told _ => (told, m)
  | .records c => (.done (.ok ()), { m with wallets := m.wallets.insert wallet c })
  | .opened pending o =>
    (.opened (.ok ⟨m.nextNumber⟩), m.withSearch ⟨wallet, pending.length, pending, o⟩)
  | .fetched text step n =>
    (.read (.ok text),
      { m with
        searches := (named log step).elim m.searches fun search =>
          m.searches.modify search fun s => { s with pending := s.pending.drop n } })
  | .closed step =>
    (.done (.ok ()), { m with searches := (named log step).elim m.searches m.searches.erase })
  | .closedWallet wasOpen => (.closed wasOpen, (m.closeWallet wallet).2)

/-- How many numbers an effect takes. -/
def taken : Effect → Nat
  | .opened .. => 1
  | _ => 0

/-- What an effect makes of the records of its wallet. -/
def onRecords : Effect → Option Collections → Option Collections
  | .records c, _ => some c
  | .closedWallet _, _ => none
  | _, old => old

/-- What an effect makes of the search that a step of the tenant has opened. -/
def onSearch (wallet : WalletHandle) (step : Nat) : Effect → Option OpenSearch → Option OpenSearch
  | .fetched _ step' n, old =>
    if step = step' then old.map fun s => { s with pending := s.pending.drop n } else old
  | .closed step', old => if step = step' then none else old
  | .closedWallet _, old => old.filter (·.wallet ≠ wallet)
  | _, old => old

variable (e : Effect)

theorem issued_run : (e.run wallet log m).2.issued = m.issued + e.taken := by
  cases e with
  | nothing | records | opened | fetched | closed | closedWallet => rfl

theorem taken_le_one : e.taken ≤ 1 := by
  cases e with
  | opened => exact Nat.le_refl _
  | nothing | records | fetched | closed | closedWallet => exact Nat.zero_le _

theorem issued_le_run : m.issued ≤ (e.run wallet log m).2.issued := by
  rw [issued_run]
  exact Nat.le_add_right _ _

theorem masked_run : (e.run wallet log m).1.masked = (e.run wallet log' m').1.masked := by
  cases e with
  | nothing | records | opened | fetched | closed | closedWallet => rfl

theorem records_run :
    (e.run wallet log m).2.wallets.get? wallet = e.onRecords (m.wallets.get? wallet) := by
  cases e with
  | nothing | opened | fetched | closed => rfl
  | records c => exact (SortedMap.get?_insert _ _ _ _).trans (if_pos rfl)
  | closedWallet wasOpen => exact (SortedMap.get?_erase _ _ _).trans (if_pos rfl)

/-- An effect does not touch the records of another wallet. -/
theorem records_spared {wallet' : WalletHandle} (hne : wallet ≠ wallet') :
    (e.run wallet' log m).2.wallets.get? wallet = m.wallets.get? wallet := by
  cases e with
  | nothing | opened | fetched | closed => rfl
  | records c => exact (SortedMap.get?_insert _ _ _ _).trans (if_neg hne)
  | closedWallet wasOpen => exact (SortedMap.get?_erase _ _ _).trans (if_neg hne)

/-- Where a handle is told of, a search of the wallet has been opened under the next number. -/
theorem handle?_run {search : SearchHandle}
    (h : (e.run wallet log m).1.handle? = some search) :
    search = ⟨m.nextNumber⟩ ∧ ∃ pending o, e = .opened pending o := by
  cases e with
  | nothing told hnone => exact absurd (hnone.symm.trans h) nofun
  | opened pending o => exact ⟨(Option.some.inj h).symm, pending, o, rfl⟩
  | records | fetched | closed | closedWallet => cases h

/-- What is left of a search is a search of the same wallet. -/
theorem wallet_onSearch {step : Nat} {old : Option OpenSearch} {s : OpenSearch}
    (h : ∀ s, old = some s → s.wallet = wallet) (hs : e.onSearch wallet step old = some s) :
    s.wallet = wallet := by
  cases e with
  | nothing | records | opened => exact h s hs
  | fetched text step' n =>
      rw [onSearch] at hs
      split at hs
      · obtain ⟨s', hs', rfl⟩ := Option.map_eq_some_iff.mp hs
        exact h s' hs'
      · exact h s hs
  | closed step' =>
      rw [onSearch] at hs
      split at hs
      · contradiction
      · exact h s hs
  | closedWallet wasOpen => exact h s (Option.filter_eq_some_iff.mp hs).1

/-- The search that an effect opens. -/
def newSearch? (wallet : WalletHandle) : Effect → Option OpenSearch
  | .opened pending o => some ⟨wallet, pending.length, pending, o⟩
  | _ => none

theorem newSearch?_run : (e.run wallet log m).1.handle?.map (e.run wallet log m).2.searches.get? =
    (e.newSearch? wallet).map some := by
  cases e with
  | nothing told hnone => exact congrArg (Option.map _) hnone
  | opened pending o => exact congrArg some ((Memory.get?_withSearch _ _ _).trans (if_pos rfl))
  | records | fetched | closed | closedWallet => rfl

theorem run_fetched {step : Nat} {search : SearchHandle} {s : OpenSearch}
    (hn : named log step = some search) (hs : m.searches.get? search = some s) (text : String)
    (n : Nat) : (fetched text step n).run wallet log m =
      (.read (.ok text), m.withPending search s (s.pending.drop n)) := by
  rw [run, hn, Option.elim_some, SortedMap.modify, hs]
  rfl

end Effect

/-! ### What an effect does to the searches -/

section

variable (e : Effect) {step : Nat} {search : SearchHandle}

/-- Changing the search of one step changes no search of another. -/
theorem Owns.get?_atStep (h : Owns wallet log m) (hn : named log step = some search)
    {f : SearchHandle → SortedMap SearchHandle OpenSearch}
    (new : Option OpenSearch → Option OpenSearch)
    (hf : ∀ search', (f search').get? search =
      if search = search' then new (m.searches.get? search') else m.searches.get? search)
    (step' : Nat) : ((named log step').elim m.searches f).get? search =
      if step = step' then new (m.searches.get? search) else m.searches.get? search := by
  by_cases hstep : step = step'
  · rw [← hstep, hn, Option.elim_some, hf, if_pos rfl, if_pos rfl]
  · rw [if_neg hstep]
    cases hn' : named log step' with
    | none => rfl
    | some search' =>
        rw [Option.elim_some, hf, if_neg]
        rintro rfl
        exact hstep (h.step_eq hn hn')

/-- **What an effect makes of a search of the tenant depends on that search alone.** -/
theorem Owns.get?_run (h : Owns wallet log m)
    (hlast : (e.run wallet log m).2.issued ≤ 0x7FFFFFFF) (hn : named log step = some search) :
    (e.run wallet log m).2.searches.get? search =
      e.onSearch wallet step (m.searches.get? search) := by
  cases e with
  | nothing | records => rfl
  | opened pending o =>
      -- the new search has a new number
      refine (Memory.get?_withSearch _ _ _).trans (if_neg ?_)
      rintro rfl
      exact Memory.not_issued_nextNumber hlast (h.issued hn)
  | fetched text step' n =>
      exact h.get?_atStep hn (Option.map _) (fun _ => SortedMap.get?_modify _ _ _ _) step'
  | closed step' =>
      exact h.get?_atStep hn (fun _ => none) (fun _ => SortedMap.get?_erase _ _ _) step'
  | closedWallet wasOpen => exact SortedMap.get?_filter _ _ _

/-- Changing a search of another tenant changes no search of a wallet of one's own. -/
theorem Owns.get?_atForeign {wallet' : WalletHandle} (h : Owns wallet' log m)
    (hne : wallet ≠ wallet') (hown : ∀ s, m.searches.get? search = some s → s.wallet = wallet)
    {f : SearchHandle → SortedMap SearchHandle OpenSearch}
    (new : Option OpenSearch → Option OpenSearch) (hnew : new none = none)
    (hf : ∀ search', (f search').get? search =
      if search = search' then new (m.searches.get? search') else m.searches.get? search)
    (step : Nat) : ((named log step).elim m.searches f).get? search = m.searches.get? search := by
  cases hn : named log step with
  | none => rfl
  | some search' =>
      rw [Option.elim_some, hf]
      split
      · -- a search that both could name would be one of both wallets, unless it is closed
        rename_i heq
        subst heq
        cases hs : m.searches.get? search with
        | none => exact hnew
        | some s => exact absurd ((hown s hs).symm.trans (h.wallet_eq hn hs)) hne
      · rfl

/-- **An effect does not reach a search of another wallet.** -/
theorem Owns.get?_spared {wallet' : WalletHandle} (h : Owns wallet' log m) (hne : wallet ≠ wallet')
    (hlast : (e.run wallet' log m).2.issued ≤ 0x7FFFFFFF) (hissued : m.Issued search.raw)
    (hown : ∀ s, m.searches.get? search = some s → s.wallet = wallet) :
    (e.run wallet' log m).2.searches.get? search = m.searches.get? search := by
  cases e with
  | nothing | records => rfl
  | opened pending o =>
      refine (Memory.get?_withSearch _ _ _).trans (if_neg ?_)
      rintro rfl
      exact Memory.not_issued_nextNumber hlast hissued
  | fetched text step n =>
      exact h.get?_atForeign hne hown (Option.map _) rfl (fun _ => SortedMap.get?_modify _ _ _ _)
        step
  | closed step =>
      exact h.get?_atForeign hne hown (fun _ => none) rfl (fun _ => SortedMap.get?_erase _ _ _)
        step
  | closedWallet wasOpen =>
      refine (SortedMap.get?_filter _ _ _).trans ?_
      cases hs : m.searches.get? search with
      | none => rfl
      | some s =>
          refine Option.filter_eq_some_iff.mpr ⟨rfl, decide_eq_true ?_⟩
          rwa [hown s hs]

/-- An effect of a tenant leaves it with searches of its own. -/
theorem Owns.run (h : Owns wallet log m) (hlast : (e.run wallet log m).2.issued ≤ 0x7FFFFFFF) :
    Owns wallet (log ++ [(e.run wallet log m).1]) (e.run wallet log m).2 where
  issued {step search} hn := by
    rw [named_append] at hn
    split at hn
    · obtain ⟨rfl, pending, o, rfl⟩ := e.handle?_run hn
      exact .next m rfl
    · exact (h.issued hn).mono e.issued_le_run
  step_eq {step step' search} hn hn' := by
    have hnew {step : Nat} (hold : named log step = some search)
        (hnew : (e.run wallet log m).1.handle? = some search) : False := by
      obtain ⟨rfl, pending, o, rfl⟩ := e.handle?_run hnew
      exact Memory.not_issued_nextNumber hlast (h.issued hold)
    rw [named_append] at hn hn'
    split at hn <;> split at hn'
    · rename_i hstep hstep'
      exact hstep.trans hstep'.symm
    · exact (hnew hn' hn).elim
    · exact (hnew hn hn').elim
    · exact h.step_eq hn hn'
  wallet_eq {step search s} hn hs := by
    rw [named_append] at hn
    split at hn
    · obtain ⟨rfl, pending, o, rfl⟩ := e.handle?_run hn
      rw [Effect.run, Memory.get?_withSearch, if_pos rfl] at hs
      exact congrArg OpenSearch.wallet (Option.some.inj hs).symm
    · rw [h.get?_run e hlast hn] at hs
      exact e.wallet_onSearch (fun s hs => h.wallet_eq hn hs) hs

/-- An effect of another tenant leaves a tenant with searches of its own. -/
theorem Owns.spared {wallet' : WalletHandle} (h : Owns wallet log m) (h' : Owns wallet' log' m)
    (hne : wallet ≠ wallet') (hlast : (e.run wallet' log' m).2.issued ≤ 0x7FFFFFFF) :
    Owns wallet log (e.run wallet' log' m).2 where
  issued hn := (h.issued hn).mono e.issued_le_run
  step_eq := h.step_eq
  wallet_eq hn hs := by
    rw [h'.get?_spared e hne hlast (h.issued hn) fun s hs => h.wallet_eq hn hs] at hs
    exact h.wallet_eq hn hs

theorem Owns.search?_run (h : Owns wallet log m)
    (hlast : (e.run wallet log m).2.issued ≤ 0x7FFFFFFF) (step : Nat) :
    search? (e.run wallet log m).2 (log ++ [(e.run wallet log m).1]) step =
      if step = log.length then (e.newSearch? wallet).map some
      else (search? m log step).map (e.onSearch wallet step) := by
  rw [search?, named_append]
  split
  · exact e.newSearch?_run
  · rw [search?]
    cases hn : named log step with
    | none => rfl
    | some search => exact congrArg some (h.get?_run e hlast hn)

/-- **An effect keeps memories alike to the tenant.** -/
theorem Alike.run (h : Alike wallet log m log' m') (ho : Owns wallet log m)
    (ho' : Owns wallet log' m') (hlast : (e.run wallet log m).2.issued ≤ 0x7FFFFFFF)
    (hlast' : (e.run wallet log' m').2.issued ≤ 0x7FFFFFFF) :
    Alike wallet (log ++ [(e.run wallet log m).1]) (e.run wallet log m).2
      (log' ++ [(e.run wallet log' m').1]) (e.run wallet log' m').2 where
  told := by
    rw [List.map_append, List.map_append, h.told, List.map_singleton, List.map_singleton,
      e.masked_run]
  records := by rw [e.records_run, e.records_run, h.records]
  searches step := by
    have hlength : log.length = log'.length := by
      rw [← List.length_map Told.masked, h.told, List.length_map]
    rw [ho.search?_run e hlast, ho'.search?_run e hlast', h.searches, hlength]

/-- **An effect of another tenant keeps memories alike.** -/
theorem Alike.spared {wallet' : WalletHandle} {log'' : List Told}
    (h : Alike wallet log m log' m') (ho : Owns wallet log m) (ho' : Owns wallet' log'' m)
    (hne : wallet ≠ wallet') (hlast : (e.run wallet' log'' m).2.issued ≤ 0x7FFFFFFF) :
    Alike wallet log (e.run wallet' log'' m).2 log' m' where
  told := h.told
  records := (e.records_spared hne).trans h.records
  searches step := by
    rw [← h.searches, search?, search?]
    cases hn : named log step with
    | none => rfl
    | some search =>
        exact congrArg some (ho'.get?_spared e hne hlast (ho.issued hn) fun s => ho.wallet_eq hn)

end

/-! ### Acts as effects -/

/-- What is done in one memory and in another is the same effect. -/
def Agree (wallet : WalletHandle) (log : List Told) (m : Memory) (log' : List Told) (m' : Memory)
    (x x' : Told × Memory) : Prop :=
  ∃ e : Effect, x = e.run wallet log m ∧ x' = e.run wallet log' m'

section

variable {α β : Type} {tell : Except Failure α → Told}

/-- What is refused has no effect. -/
theorem agree_refuse (htell : ∀ e, (tell (.error e)).handle? = none) (e : Failure)
    (messages messages' : List Log.Message) :
    Agree wallet log m log' m' (telling tell (m.refuse e messages))
      (telling tell (m'.refuse e messages')) :=
  ⟨.nothing (tell (.error e)) (htell e), rfl, rfl⟩

theorem agree_withPayload (htell : ∀ e, (tell (.error e)).handle? = none)
    (payload : Except Json.Error β) {go go' : β → Answer α}
    (h : ∀ b, Agree wallet log m log' m' (telling tell (go b)) (telling tell (go' b))) :
    Agree wallet log m log' m' (telling tell (m.withPayload payload go))
      (telling tell (m'.withPayload payload go')) := by
  cases payload with
  | ok b => exact h b
  | error e => exact agree_refuse htell _ _ _

variable (h : Alike wallet log m log' m')

include h

theorem Alike.collections_eq : m.collections wallet = m'.collections wallet := by
  rw [Memory.collections, Memory.collections, h.records]

theorem Alike.record_eq (type id : String) :
    m.record wallet type id = m'.record wallet type id := by
  rw [Memory.record, Memory.record, h.collections_eq]

/-- A step has opened a search in both memories or in none, and what there is of it is the same. -/
theorem Alike.named_cases (step : Nat) : (named log step = none ∧ named log' step = none) ∨
    ∃ search search', named log step = some search ∧ named log' step = some search' ∧
      m.searches.get? search = m'.searches.get? search' := by
  have hstep := h.searches step
  rw [search?, search?] at hstep
  cases hn : named log step with
  | none =>
      rw [hn] at hstep
      exact .inl ⟨rfl, Option.map_eq_none_iff.mp hstep.symm⟩
  | some search =>
      rw [hn] at hstep
      obtain ⟨search', hn', hs⟩ := Option.map_eq_some_iff.mp hstep.symm
      exact .inr ⟨search, search', rfl, hn', hs.symm⟩

theorem Alike.update (type id : String) (change : StoredRecord → StoredRecord) :
    Agree wallet log m log' m' (telling .done (m.update wallet type id change))
      (telling .done (m'.update wallet type id change)) := by
  rw [Memory.update, Memory.update, h.collections_eq]
  cases m'.collections wallet with
  | error e => exact agree_refuse (fun _ => rfl) _ _ _
  | ok c =>
      dsimp only
      cases Memory.find? c type id with
      | none => exact agree_refuse (fun _ => rfl) _ _ _
      | some r => exact ⟨.records _, rfl, rfl⟩

theorem Alike.add (type id value tags : String) :
    Agree wallet log m log' m' (telling .done (m.add wallet type id value tags))
      (telling .done (m'.add wallet type id value tags)) := by
  refine agree_withPayload (fun _ => rfl) _ fun tags => ?_
  rw [h.collections_eq]
  cases m'.collections wallet with
  | error e => exact agree_refuse (fun _ => rfl) _ _ _
  | ok c =>
      dsimp only
      cases (Memory.find? c type id).isSome with
      | true => exact agree_refuse (fun _ => rfl) _ _ _
      | false => exact ⟨.records _, rfl, rfl⟩

theorem Alike.delete (type id : String) :
    Agree wallet log m log' m' (telling .done (m.delete wallet type id))
      (telling .done (m'.delete wallet type id)) := by
  rw [Memory.delete, Memory.delete, h.collections_eq]
  cases m'.collections wallet with
  | error e => exact agree_refuse (fun _ => rfl) _ _ _
  | ok c =>
      dsimp only
      cases Memory.find? c type id with
      | none => exact agree_refuse (fun _ => rfl) _ _ _
      | some r => exact ⟨.records _, rfl, rfl⟩

theorem Alike.get (type id options : String) :
    Agree wallet log m log' m' (telling .read (m.get wallet type id options))
      (telling .read (m'.get wallet type id options)) := by
  refine agree_withPayload (fun _ => rfl) _ fun o => ?_
  rw [h.record_eq]
  cases m'.record wallet type id with
  | error e => exact agree_refuse (fun _ => rfl) _ _ _
  | ok r => exact ⟨.nothing (.read (.ok (r.project type id o).encode)) rfl, rfl, rfl⟩

theorem Alike.openSearch (type query options : String) :
    Agree wallet log m log' m' (telling .opened (m.openSearch wallet type query options))
      (telling .opened (m'.openSearch wallet type query options)) := by
  rw [Memory.openSearch, Memory.openSearch]
  cases Query.decode query with
  | error refusal => exact agree_refuse (fun _ => rfl) _ _ _
  | ok q =>
      refine agree_withPayload (fun _ => rfl) _ fun o => ?_
      rw [h.collections_eq]
      cases m'.collections wallet with
      | error e => exact agree_refuse (fun _ => rfl) _ _ _
      | ok c => exact ⟨.opened (Memory.select c type q o) o, rfl, rfl⟩

theorem Alike.fetch (step : Nat) (count : UInt64) :
    Agree wallet log m log' m' (act wallet log m (.fetch step count))
      (act wallet log' m' (.fetch step count)) := by
  rw [act, act]
  rcases h.named_cases step with ⟨hn, hn'⟩ | ⟨search, search', hn, hn', hs⟩
  · rw [hn, hn']
    exact ⟨.nothing .unnamed rfl, rfl, rfl⟩
  · rw [hn, hn']
    dsimp only
    cases hfound : (m.searches.get? search).filter (·.wallet = wallet) with
    | none =>
        have hfound' := hs ▸ hfound
        rw [Memory.fetch, Memory.fetch, hfound, hfound']
        exact agree_refuse (fun _ => rfl) _ _ _
    | some s =>
        obtain ⟨hopen, hw⟩ := Option.filter_eq_some_iff.mp hfound
        obtain rfl := of_decide_eq_true hw
        refine ⟨.fetched (s.batch count).encode step count.toNat, ?_, ?_⟩
        · rw [Memory.fetch_eq hopen, Effect.run_fetched hn hopen]
          rfl
        · rw [Memory.fetch_eq (hs ▸ hopen), Effect.run_fetched hn' (hs ▸ hopen)]
          rfl

theorem Alike.closeSearch (step : Nat) :
    Agree wallet log m log' m' (act wallet log m (.closeSearch step))
      (act wallet log' m' (.closeSearch step)) := by
  rw [act, act]
  rcases h.named_cases step with ⟨hn, hn'⟩ | ⟨search, search', hn, hn', hs⟩
  · rw [hn, hn']
    exact ⟨.nothing .unnamed rfl, rfl, rfl⟩
  · rw [hn, hn']
    dsimp only
    rw [Memory.closeSearch, Memory.closeSearch, SortedMap.contains, SortedMap.contains, hs]
    cases (m'.searches.get? search').isSome with
    | true =>
        refine ⟨.closed step, ?_, ?_⟩
        · rw [Effect.run, hn]
          rfl
        · rw [Effect.run, hn']
          rfl
    | false => exact agree_refuse (fun _ => rfl) _ _ _

/-- **An act has the same effect on memories that are alike to the tenant.** -/
theorem Alike.act_eq (a : Act) :
    Agree wallet log m log' m' (act wallet log m a) (act wallet log' m' a) := by
  cases a with
  | add type id value tags => exact h.add type id value tags
  | updateValue type id value => exact h.update type id _
  | updateTags type id tags | addTags type id tags | deleteTags type id names =>
      exact agree_withPayload (fun _ => rfl) _ fun _ => h.update type id _
  | delete type id => exact h.delete type id
  | get type id options => exact h.get type id options
  | openSearch type query options => exact h.openSearch type query options
  | fetch step count => exact h.fetch step count
  | closeSearch step => exact h.closeSearch step
  | closeWallet =>
      refine ⟨.closedWallet (m.wallets.contains wallet), rfl, ?_⟩
      rw [SortedMap.contains, h.records]
      rfl

end

end TaggedRecords.Tenant
