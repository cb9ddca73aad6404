import TaggedRecords.Proofs.Memory.Answers

/-!
# Memories — a store as a plain map

A `Register` is what a client of single records may think a store is: some open wallets, and a map
from a wallet, a type and an id to a value and tags.  `Register.Action.outcome` says of one entry
of the map what each action makes of it and what the client is told; `Register.Step` says it of the
whole.

**Every run of a memory is a run of its register** (`Memory.runs_register`): wallets being opened
and closed, clients acting on records and calls of searches in any order, each answer is that of the
register.  One move is one step (`Memory.step_register`), and all that is needed of the memory is
that handles are new.
-/

namespace TaggedRecords

open Client (Attempt Records)

/-! ### Registers -/

namespace Register

/-- What a register keeps of a record: its value, and the value of each of its tags. -/
structure Entry where
  value : String
  tags : String → Option String

/-- The part of a record that a client is shown. -/
structure Shown where
  id : String
  type : Option String
  value : Option String
  tags : Option (String → Option String)

/-- What a client asks of one record. -/
inductive Action where
  | add (value : String) (tags : Tags)
  | updateValue (value : String)
  | updateTags (tags : Tags)
  | addTags (tags : Tags)
  | deleteTags (names : List String)
  | delete
  | get (o : SearchOptions)

end Register

/-- Which wallets are open, and the entry of each wallet, type and id. -/
@[ext] structure Register where
  isOpen : WalletHandle → Bool
  entry : WalletHandle → String → String → Option Register.Entry

namespace Register

/-- The part of an entry that options ask for. -/
def Entry.shown (e : Entry) (type id : String) (o : SearchOptions) : Shown where
  id := id
  type := if o.includeType then some type else none
  value := if o.includeValue then some e.value else none
  tags := if o.includeTags then some e.tags else none

/-- What an action tells of an entry, which may be absent, and what it makes of it. -/
def Action.outcome (type id : String) :
    Action → Option Entry → Except Failure (Option Shown) × Option Entry
  | .add value tags, none => (.ok none, some ⟨value, tags.get?⟩)
  | .add _ _, some e => (.error (.wallet .itemAlreadyExists), some e)
  | _, none => (.error (.wallet .itemNotFound), none)
  | .updateValue value, some e => (.ok none, some { e with value := value })
  | .updateTags tags, some e => (.ok none, some { e with tags := tags.get? })
  | .addTags tags, some e =>
    (.ok none, some { e with tags := fun name => (tags.get? name).or (e.tags name) })
  | .deleteTags names, some e =>
    (.ok none, some { e with tags := fun name => if name ∈ names then none else e.tags name })
  | .delete, some _ => (.ok none, none)
  | .get o, some e => (.ok (some (e.shown type id o)), some e)

variable (R : Register)

/-- The register with another entry, or none, in one place. -/
def put (wallet : WalletHandle) (type id : String) (e : Option Entry) : Register where
  isOpen := R.isOpen
  entry w t i := if w = wallet ∧ t = type ∧ i = id then e else R.entry w t i

/-- The register with a wallet opened or closed, which has no entries. -/
def reset (wallet : WalletHandle) (isOpen : Bool) : Register where
  isOpen w := if w = wallet then isOpen else R.isOpen w
  entry w t i := if w = wallet then none else R.entry w t i

/-- What an action on a record tells, and the register after it. -/
def act (wallet : WalletHandle) (type id : String) (a : Action) :
    Except Failure (Option Shown) × Register :=
  if R.isOpen wallet then
    let (told, e) := a.outcome type id (R.entry wallet type id)
    (told, R.put wallet type id e)
  else (.error (.wallet .invalidHandle), R)

theorem isOpen_put (wallet : WalletHandle) (type id : String) (e : Option Entry) :
    (R.put wallet type id e).isOpen = R.isOpen := rfl

theorem entry_put (wallet : WalletHandle) (type id : String) (e : Option Entry)
    (w : WalletHandle) (t i : String) : (R.put wallet type id e).entry w t i =
      if w = wallet ∧ t = type ∧ i = id then e else R.entry w t i := rfl

theorem isOpen_reset (wallet : WalletHandle) (isOpen : Bool) (w : WalletHandle) :
    (R.reset wallet isOpen).isOpen w = if w = wallet then isOpen else R.isOpen w := rfl

theorem entry_reset (wallet : WalletHandle) (isOpen : Bool) (w : WalletHandle) (t i : String) :
    (R.reset wallet isOpen).entry w t i = if w = wallet then none else R.entry w t i := rfl

/-- What is done to a store. -/
inductive Move where
  | openWallet
  | closeWallet (wallet : WalletHandle)
  | act (r : Records) (type id : String) (a : Action)
  | search {reply : Reply} (request : Call reply) (h : request.OfSearch)

/-- What is told of a move. -/
inductive Told where
  | opened (wallet : WalletHandle)
  | closed (wasOpen : Bool)
  | acted (result : Except Failure (Option Shown))
  | searched
  | left

/-- A move of a register.  Any wallet that is not open may be opened, and searches change
nothing. -/
inductive Step : Register → Move → Told → Register → Prop where
  | openWallet {R : Register} {wallet : WalletHandle} (h : R.isOpen wallet = false) :
      Step R .openWallet (.opened wallet) (R.reset wallet true)
  | closeWallet (R : Register) (wallet : WalletHandle) :
      Step R (.closeWallet wallet) (.closed (R.isOpen wallet)) (R.reset wallet false)
  | act (R : Register) (r : Records) (type id : String) (a : Action) :
      Step R (.act r type id a) (.acted (R.act r.wallet type id a).1) (R.act r.wallet type id a).2
  | search (R : Register) {reply : Reply} (request : Call reply) (h : request.OfSearch) :
      Step R (.search request h) .searched R

/-- Several moves of a register, and what is told of each. -/
inductive Runs : Register → List Move → List Told → Register → Prop where
  | nil (R : Register) : Runs R [] [] R
  | cons {R R' R'' : Register} {move : Move} {moves : List Move} {told : Told}
      {tolds : List Told} (h : Step R move told R') (t : Runs R' moves tolds R'') :
      Runs R (move :: moves) (told :: tolds) R''

/-- The activity of a client for an action: the record that it reads, if it reads one. -/
def Action.attempt (r : Records) (type id : String) : Action → Attempt (Option Record)
  | .add value tags => (fun _ => none) <$> r.add type id value tags
  | .updateValue value => (fun _ => none) <$> r.updateValue type id value
  | .updateTags tags => (fun _ => none) <$> r.updateTags type id tags
  | .addTags tags => (fun _ => none) <$> r.addTags type id tags
  | .deleteTags names => (fun _ => none) <$> r.deleteTags type id names
  | .delete => (fun _ => none) <$> r.delete type id
  | .get o => some <$> r.get type id o

end Register

/-! ### The register of a memory -/

open Register (Entry Action Move Told Step Runs)

/-- What a register keeps of a stored record. -/
def StoredRecord.entry (r : StoredRecord) : Entry := ⟨r.value, r.tags.get?⟩

/-- A record as a register shows it. -/
def Record.shown (r : Record) : Register.Shown :=
  ⟨r.id, r.type, r.value, r.tags.map SortedMap.get?⟩

theorem StoredRecord.shown_project (r : StoredRecord) (type id : String) (o : SearchOptions) :
    (r.project type id o).shown = r.entry.shown type id o := by
  rw [project, Record.shown, Entry.shown, entry]
  cases o.includeTags <;> rfl

namespace Memory

/-- The register that a memory implements. -/
def register (m : Memory) : Register where
  isOpen wallet := (m.wallets.get? wallet).isSome
  entry wallet type id := (m.stored wallet type id).map StoredRecord.entry

variable {m : Memory} {wallet : WalletHandle} {c : Collections} {type id : String}

theorem isOpen_register (m : Memory) (wallet : WalletHandle) :
    m.register.isOpen wallet = (m.wallets.get? wallet).isSome := rfl

theorem entry_register (m : Memory) (wallet : WalletHandle) (type id : String) :
    m.register.entry wallet type id = (m.stored wallet type id).map StoredRecord.entry := rfl

/-- A memory in which one record has been changed, added or deleted. -/
theorem register_putType (h : m.wallets.get? wallet = some c)
    {records : SortedMap String StoredRecord} {r : Option StoredRecord}
    (hr : ∀ i, records.get? i = if i = id then r else (ofType c type).get? i) :
    (m.putType wallet c type records).register =
      m.register.put wallet type id (r.map StoredRecord.entry) := by
  ext1
  · funext w
    rw [Register.isOpen_put, isOpen_register, isOpen_register, putType, SortedMap.get?_insert]
    split
    · rename_i hw
      rw [hw, h]
      rfl
    · rfl
  · funext w t i
    rw [Register.entry_put, entry_register, entry_register, stored_putType h, hr]
    by_cases hwt : w = wallet ∧ t = type
    · -- the records that are replaced: they differ in the one only
      obtain ⟨rfl, rfl⟩ := hwt
      rw [if_pos ⟨rfl, rfl⟩]
      by_cases hi : i = id
      · rw [if_pos hi, if_pos ⟨rfl, rfl, hi⟩]
      · rw [if_neg hi, if_neg fun h => hi h.2.2, stored_eq h, find?_eq]
    · rw [if_neg hwt, if_neg fun h => hwt ⟨h.1, h.2.1⟩]

/-- An entry that is put back as it was. -/
theorem put_find? (h : m.wallets.get? wallet = some c) (type id : String) :
    m.register.put wallet type id ((find? c type id).map StoredRecord.entry) = m.register := by
  ext1
  · rfl
  · funext w t i
    rw [Register.entry_put, entry_register]
    split
    · rename_i hwti
      obtain ⟨rfl, rfl, rfl⟩ := hwti
      rw [stored_eq h]
    · rfl

theorem act_closed (h : m.wallets.get? wallet = none) (type id : String) (a : Action) :
    m.register.act wallet type id a = (.error (.wallet .invalidHandle), m.register) := by
  rw [Register.act, isOpen_register, h]
  rfl

theorem act_open (h : m.wallets.get? wallet = some c) {a : Action}
    {told : Except Failure (Option Register.Shown)} {e : Option Entry}
    (ha : a.outcome type id ((find? c type id).map StoredRecord.entry) = (told, e)) :
    m.register.act wallet type id a = (told, m.register.put wallet type id e) := by
  rw [Register.act, isOpen_register, entry_register, stored_eq h, h, ha]
  rfl

/-! ### Operations on one record -/

section

variable (type id : String) (value : String) (tags : Tags) (change : StoredRecord → StoredRecord)

theorem add_closed (h : m.wallets.get? wallet = none) :
    m.add wallet type id value tags.encode = m.refuse (.wallet .invalidHandle) := by
  rw [add, Tags.decode_encode, withPayload, collections_closed h]

theorem add_present {r : StoredRecord} (h : m.wallets.get? wallet = some c)
    (hf : find? c type id = some r) :
    m.add wallet type id value tags.encode = m.refuse (.wallet .itemAlreadyExists) := by
  rw [add, Tags.decode_encode, withPayload, collections_eq.mpr h]
  exact if_pos (by rw [hf]; rfl)

theorem add_absent (h : m.wallets.get? wallet = some c) (hf : find? c type id = none) :
    m.add wallet type id value tags.encode =
      ⟨.ok (), m.putType wallet c type ((ofType c type).insert id ⟨value, tags⟩), []⟩ := by
  rw [add, Tags.decode_encode, withPayload, collections_eq.mpr h]
  exact if_neg (by rw [hf]; exact Bool.false_ne_true)

theorem update_absent (h : m.wallets.get? wallet = some c) (hf : find? c type id = none) :
    m.update wallet type id change = m.refuse (.wallet .itemNotFound) := by
  simp [update, collections_eq.mpr h, hf]

theorem update_present {r : StoredRecord} (h : m.wallets.get? wallet = some c)
    (hf : find? c type id = some r) : m.update wallet type id change =
      ⟨.ok (), m.putType wallet c type ((ofType c type).insert id (change r)), []⟩ := by
  simp [update, collections_eq.mpr h, hf]

end

theorem record_absent (h : m.wallets.get? wallet = some c) (hf : find? c type id = none) :
    m.record wallet type id = .error (.wallet .itemNotFound) := by
  simp [record, collections_eq.mpr h, hf, bind, Except.bind]

theorem record_present {r : StoredRecord} (h : m.wallets.get? wallet = some c)
    (hf : find? c type id = some r) : m.record wallet type id = .ok r := by
  simp [record, collections_eq.mpr h, hf, bind, Except.bind]

theorem get_refused {o : SearchOptions} {e : Failure}
    (h : m.record wallet type id = .error e) : m.get wallet type id o.encode = m.refuse e := by
  rw [get, SearchOptions.decode_encode, withPayload, h]

theorem get_present {o : SearchOptions} {r : StoredRecord}
    (h : m.record wallet type id = .ok r) :
    m.get wallet type id o.encode = ⟨.ok (r.project type id o).encode, m, []⟩ := by
  rw [get, SearchOptions.decode_encode, withPayload, h]

/-! ### One action -/

/-- An answer that is what the register tells, with a memory that is what the register becomes. -/
def Tells {α : Type} (m : Memory) (wallet : WalletHandle) (type id : String) (a : Action)
    (seen : α → Option Register.Shown) (answer : Answer α) : Prop :=
  m.register.act wallet type id a = (answer.result.map seen, answer.memory.register)

variable {α : Type} {seen : α → Option Register.Shown} {a : Action}

theorem tells_closed (h : m.wallets.get? wallet = none) :
    m.Tells wallet type id a seen (m.refuse (.wallet .invalidHandle)) :=
  act_closed h type id a

/-- An action that leaves the entry as it was, such as one that is refused. -/
theorem act_kept (h : m.wallets.get? wallet = some c) {r : Option StoredRecord}
    {told : Except Failure (Option Register.Shown)} (hf : find? c type id = r)
    (ha : a.outcome type id (r.map StoredRecord.entry) = (told, r.map StoredRecord.entry)) :
    m.register.act wallet type id a = (told, m.register) := by
  subst hf
  exact (act_open h ha).trans (congrArg _ (put_find? h type id))

/-- An action that is done changes the entry. -/
theorem tells_done (h : m.wallets.get? wallet = some c) {r : Option StoredRecord}
    (r' : Option StoredRecord) {records : SortedMap String StoredRecord} (hf : find? c type id = r)
    (ha : a.outcome type id (r.map StoredRecord.entry) = (.ok none, r'.map StoredRecord.entry))
    (hr : ∀ i, records.get? i = if i = id then r' else (ofType c type).get? i) :
    m.Tells wallet type id a (fun _ => none)
      (⟨.ok (), m.putType wallet c type records, []⟩ : Answer Unit) := by
  subst hf
  exact (act_open h ha).trans (congrArg _ (register_putType h hr).symm)

theorem tells_add (value : String) (tags : Tags) :
    m.Tells wallet type id (.add value tags) (fun _ => none)
      (m.add wallet type id value tags.encode) := by
  cases hw : m.wallets.get? wallet with
  | none =>
      rw [add_closed type id value tags hw]
      exact tells_closed hw
  | some c =>
      cases hf : find? c type id with
      | none =>
          rw [add_absent type id value tags hw hf]
          exact tells_done hw (some ⟨value, tags⟩) hf rfl
            fun i => SortedMap.get?_insert _ _ _ _
      | some r =>
          rw [add_present type id value tags hw hf]
          exact act_kept hw hf rfl

/-- Every action that changes a record that is there does so in the same way. -/
theorem tells_update {change : StoredRecord → StoredRecord}
    (habsent : a.outcome type id none = (.error (.wallet .itemNotFound), none))
    (hpresent : ∀ r : StoredRecord,
      a.outcome type id (some r.entry) = (.ok none, some (change r).entry)) :
    m.Tells wallet type id a (fun _ => none) (m.update wallet type id change) := by
  cases hw : m.wallets.get? wallet with
  | none =>
      rw [update_closed type id change hw]
      exact tells_closed hw
  | some c =>
      cases hf : find? c type id with
      | none =>
          rw [update_absent type id change hw hf]
          exact act_kept hw hf habsent
      | some r =>
          rw [update_present type id change hw hf]
          exact tells_done hw (some (change r)) hf (hpresent r)
            fun i => SortedMap.get?_insert _ _ _ _

theorem tells_updateTags (tags : Tags) :
    m.Tells wallet type id (.updateTags tags) (fun _ => none)
      (m.updateTags wallet type id tags.encode) := by
  rw [updateTags, Tags.decode_encode]
  exact tells_update rfl fun _ => rfl

theorem tells_addTags (tags : Tags) :
    m.Tells wallet type id (.addTags tags) (fun _ => none)
      (m.addTags wallet type id tags.encode) := by
  rw [addTags, Tags.decode_encode]
  refine tells_update rfl fun r => ?_
  have hmerge : (r.tags.merge tags).get? = fun name => (tags.get? name).or (r.tags.get? name) :=
    funext fun name => SortedMap.get?_merge r.tags tags name
  rw [StoredRecord.entry, StoredRecord.entry, hmerge]
  rfl

theorem tells_deleteTags (names : List String) :
    m.Tells wallet type id (.deleteTags names) (fun _ => none)
      (m.deleteTags wallet type id (Tags.encodeNames names)) := by
  rw [deleteTags, Tags.decodeNames_encodeNames]
  refine tells_update rfl fun r => ?_
  have herase : (r.tags.eraseAll names).get? = fun name =>
      if name ∈ names then none else r.tags.get? name :=
    funext fun name => SortedMap.get?_eraseAll names r.tags name
  rw [StoredRecord.entry, StoredRecord.entry, herase]
  rfl

theorem tells_delete :
    m.Tells wallet type id .delete (fun _ => none) (m.delete wallet type id) := by
  rw [delete]
  cases hw : m.wallets.get? wallet with
  | none =>
      rw [collections_closed hw]
      exact tells_closed hw
  | some c =>
      cases hf : find? c type id with
      | none =>
          simp only [collections_eq.mpr hw, hf]
          exact act_kept hw hf rfl
      | some r =>
          simp only [collections_eq.mpr hw, hf]
          exact tells_done hw none hf rfl fun i => SortedMap.get?_erase _ _ _

/-! ### One action of a client -/

/-- What a client observes of an action: what the register tells, and a memory after a call that is
what the register becomes. -/
def Observes (m : Memory) (wallet : WalletHandle) (type id : String) (a : Action)
    (activity : Attempt (Option Record)) : Prop :=
  ∃ result m' events, activity.run.run store m = ⟨.finished result, m', events⟩ ∧
    m.register.act wallet type id a = (result.map (Option.map Record.shown), m'.register) ∧
    ∃ (reply : Reply) (request : Call reply), m' = m.after (.call request)

theorem observes_write {request : Call .nothing}
    (h : m.Tells wallet type id a (fun _ => none) (m.perform .nothing request)) :
    m.Observes wallet type id a ((fun _ => none) <$> Client.invoke request) := by
  refine ⟨_, _, _, Client.run_map (run_invoke m request) _, h.trans ?_, _, request, rfl⟩
  cases (m.perform .nothing request).result with
  | ok | error => rfl

theorem observes_get (r : Records) (type id : String) (o : SearchOptions) :
    m.Observes r.wallet type id (.get o) (some <$> r.get type id o) := by
  -- what the memory answers, whichever of the three ways it goes
  have hinvoke : ∀ answer, m.get r.wallet type id o.encode = answer →
      (Client.invoke (.getRecord r.wallet type id o.encode)).run.run store m =
          ⟨.finished answer.result, answer.memory,
            m.observed (.getRecord r.wallet type id o.encode)⟩ ∧
        answer.memory = m.after (.call (.getRecord r.wallet type id o.encode)) := by
    rintro _ rfl
    exact ⟨run_invoke m _, rfl⟩
  cases hw : m.wallets.get? r.wallet with
  | none =>
      obtain ⟨hrun, hafter⟩ := hinvoke _ (get_refused (record_closed hw type id))
      exact ⟨_, _, _, Client.run_map (Client.run_bind_error hrun _) _, act_closed hw type id _,
        _, _, hafter⟩
  | some c =>
      cases hf : find? c type id with
      | none =>
          obtain ⟨hrun, hafter⟩ := hinvoke _ (get_refused (record_absent hw hf))
          exact ⟨_, _, _, Client.run_map (Client.run_bind_error hrun _) _,
            act_kept hw hf rfl, _, _, hafter⟩
      | some s =>
          obtain ⟨hrun, hafter⟩ := hinvoke _ (get_present (record_present hw hf))
          have hget : (r.get type id o).run.run store m =
              ⟨.finished (.ok (s.project type id o)), m,
                m.observed (.getRecord r.wallet type id o.encode)⟩ := by
            refine (Client.run_bind_ok hrun _).trans ?_
            rw [Record.decode_encode]
            exact Program.Run.after_silent _ _ _
          refine ⟨_, _, _, Client.run_map hget _, (act_kept hw hf rfl).trans ?_, _, _, hafter⟩
          rw [← StoredRecord.shown_project]
          rfl

theorem observes_attempt (m : Memory) (r : Records) (type id : String) : ∀ a : Action,
    m.Observes r.wallet type id a (a.attempt r type id)
  | .add value tags => observes_write (tells_add value tags)
  | .updateValue _ => observes_write (tells_update rfl fun _ => rfl)
  | .updateTags tags => observes_write (tells_updateTags tags)
  | .addTags tags => observes_write (tells_addTags tags)
  | .deleteTags names => observes_write (tells_deleteTags names)
  | .delete => observes_write tells_delete
  | .get o => observes_get r type id o

/-! ### Moves -/

/-- What a move on a memory tells, and the memory after it. -/
def tell (m : Memory) : Move → Told × Memory
  | .openWallet => (.opened m.openWallet.1, m.openWallet.2.1)
  | .closeWallet wallet => (.closed (m.closeWallet wallet).1, (m.closeWallet wallet).2)
  | .act r type id a =>
    let run := (a.attempt r type id).run.run store m
    match run.exit with
    | .finished result => (.acted (result.map (Option.map Record.shown)), run.state)
    | .left => (.left, run.state)
  | .search request _ => (.searched, m.after (.call request))

/-- What several moves tell, and the memory after them. -/
def tellAll (m : Memory) : List Move → List Told × Memory
  | [] => ([], m)
  | move :: moves =>
    ((m.tell move).1 :: ((m.tell move).2.tellAll moves).1, ((m.tell move).2.tellAll moves).2)

/-- What a client does to a record is one operation of the memory. -/
theorem tell_act (m : Memory) (r : Records) (type id : String) (a : Action) :
    ∃ m', m.tell (.act r type id a) = (.acted (m.register.act r.wallet type id a).1, m') ∧
      (m.register.act r.wallet type id a).2 = m'.register ∧ ∃ op, m' = m.after op := by
  obtain ⟨result, m', events, hrun, hact, _, request, hafter⟩ := observes_attempt m r type id a
  refine ⟨m', ?_, congrArg Prod.snd hact, _, hafter⟩
  rw [tell, hrun, hact]

theorem after_tell (m : Memory) : ∀ move : Move, ∃ op, (m.tell move).2 = m.after op
  | .openWallet => ⟨.openWallet, rfl⟩
  | .closeWallet wallet => ⟨.closeWallet wallet, rfl⟩
  | .act r type id a => by
      obtain ⟨m', htell, -, op, hafter⟩ := tell_act m r type id a
      exact ⟨op, (congrArg Prod.snd htell).trans hafter⟩
  | .search request _ => ⟨.call request, rfl⟩

theorem issued_le_tellAll (moves : List Move) (m : Memory) :
    m.issued ≤ (m.tellAll moves).2.issued := by
  induction moves generalizing m with
  | nil => exact Nat.le_refl _
  | cons move moves ih =>
      obtain ⟨op, hop⟩ := after_tell m move
      have hrest := ih (m.tell move).2
      exact Nat.le_trans (hop ▸ issued_le_after m op) hrest

theorem issued_tellAll_le (moves : List Move) (m : Memory) :
    (m.tellAll moves).2.issued ≤ m.issued + moves.length := by
  induction moves generalizing m with
  | nil => exact Nat.le_refl _
  | cons move moves ih =>
      obtain ⟨op, hop⟩ := after_tell m move
      have hstep := issued_after_le m op
      have hrest := ih (m.tell move).2
      rw [hop] at hrest
      rw [tellAll, List.length_cons, hop]
      show ((m.after op).tellAll moves).2.issued ≤ _
      omega

/-- A new wallet is open and has no records. -/
theorem register_openWallet (m : Memory) :
    m.openWallet.2.1.register = m.register.reset m.openWallet.1 true := by
  ext1
  · funext w
    rw [Register.isOpen_reset, isOpen_register, isOpen_register, openWallet,
      SortedMap.get?_insert]
    split <;> rfl
  · funext w t i
    rw [Register.entry_reset, entry_register, entry_register, stored, stored, openWallet,
      SortedMap.get?_insert]
    split <;> rfl

/-- A wallet that is closed takes its records with it. -/
theorem register_closeWallet (m : Memory) (wallet : WalletHandle) :
    (m.closeWallet wallet).2.register = m.register.reset wallet false := by
  ext1
  · funext w
    rw [Register.isOpen_reset, isOpen_register, isOpen_register, closeWallet,
      SortedMap.get?_erase]
    split <;> rfl
  · funext w t i
    rw [Register.entry_reset, entry_register, entry_register, stored, stored, closeWallet,
      SortedMap.get?_erase]
    split <;> rfl

theorem register_congr {m m' : Memory} (h : m'.wallets = m.wallets) :
    m'.register = m.register := by
  rw [register, register, h]
  congr 1
  funext w t i
  rw [stored, stored, h]

/-- **A move on a memory is a move of its register**, as long as handles are new. -/
theorem step_register (hm : m.Numbered) {move : Move}
    (hi : (m.tell move).2.issued ≤ 0x7FFFFFFF) :
    Step m.register move (m.tell move).1 (m.tell move).2.register := by
  cases move with
  | openWallet =>
      rw [tell, register_openWallet]
      refine .openWallet ?_
      rw [isOpen_register, openWallet, hm.newWallet hi]
      rfl
  | closeWallet wallet =>
      rw [tell, register_closeWallet]
      exact .closeWallet m.register wallet
  | act r type id a =>
      obtain ⟨m', htell, hregister, -⟩ := tell_act m r type id a
      rw [htell, ← hregister]
      exact .act m.register r type id a
  | search request h =>
      have hwallets : (m.after (.call request)).wallets = m.wallets :=
        (changes_perform m request).wallets_eq h
      rw [tell, register_congr hwallets]
      exact .search m.register request h

/-- **Every run of a memory is a run of its register**, as long as there are numbers for handles:
whatever wallets are opened and closed, whatever clients do to single records and whatever searches
do in between, each answer is the one that the register gives. -/
theorem runs_register (hm : m.Reachable) (moves : List Move)
    (hi : (m.tellAll moves).2.issued ≤ 0x7FFFFFFF) :
    Runs m.register moves (m.tellAll moves).1 (m.tellAll moves).2.register := by
  induction moves generalizing m with
  | nil => exact .nil m.register
  | cons move moves ih =>
      obtain ⟨op, hop⟩ := after_tell m move
      have hstep := step_register hm.numbered (Nat.le_trans (issued_le_tellAll moves _) hi)
      exact .cons hstep (ih (hop ▸ hm.after op) hi)

/-- A client acts on a wallet before it is opened, while it is open and after it is closed. -/
def walletMoves : List Move :=
  [.act ⟨⟨1⟩, .standard⟩ "type" "id" .delete, .openWallet,
    .act ⟨⟨1⟩, .standard⟩ "type" "id" (.add "value" .empty),
    .act ⟨⟨1⟩, .standard⟩ "type" "id" (.deleteTags ["name", "name"]), .closeWallet ⟨1⟩,
    .act ⟨⟨1⟩, .standard⟩ "type" "id" (.get ⟨true, true, true, true, true⟩)]

theorem runs_register_wallet : (empty.tellAll walletMoves).2.issued ≤ 0x7FFFFFFF ∧
    Runs empty.register walletMoves (empty.tellAll walletMoves).1
      (empty.tellAll walletMoves).2.register := by
  have hi : (empty.tellAll walletMoves).2.issued ≤ 0x7FFFFFFF :=
    Nat.le_trans (issued_tellAll_le _ _) (by decide)
  exact ⟨hi, runs_register .empty walletMoves hi⟩

end Memory

end TaggedRecords
