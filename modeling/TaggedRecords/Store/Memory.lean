import TaggedRecords.Query
import TaggedRecords.Record
import TaggedRecords.Store.Call

/-!
# Stores — records in memory

A `Memory` holds open wallets, each with its records by type and id, and open searches.  A search
takes a snapshot of the records that match when it is opened, in ascending order of their ids,
and hands them out page by page; later changes to the wallet do not reach it.  Wallets and
searches are numbered from one sequence, so that no handle is ever issued twice.

Every operation gives its result together with the memory after it and what it logs.  Payloads
are read before anything is looked up: first the filter, then the options or tags, then the
wallet, then the record.
-/

namespace TaggedRecords

open Log (Message)

/-- A record as it is kept. -/
structure StoredRecord where
  value : String
  tags : Tags
  deriving DecidableEq

/-- The part of a kept record that options ask for. -/
def StoredRecord.project (r : StoredRecord) (type id : String) (o : SearchOptions) : Record where
  id := id
  type := if o.includeType then some type else none
  value := if o.includeValue then some r.value else none
  tags := if o.includeTags then some r.tags else none

/-- The records of one wallet, by type and id. -/
abbrev Collections := SortedMap String (SortedMap String StoredRecord)

/-- A search that has been opened: the number of its matches, those not yet handed out, and what
it was asked for. -/
structure OpenSearch where
  wallet : WalletHandle
  totalCount : Nat
  pending : List Record
  options : SearchOptions
  deriving DecidableEq

/-- A record store in memory; `issued` is the number of handles issued so far. -/
structure Memory where
  issued : Nat
  wallets : SortedMap WalletHandle Collections
  searches : SortedMap SearchHandle OpenSearch
  deriving DecidableEq

namespace Memory

/-- The store without wallets. -/
def empty : Memory := ⟨0, .empty, .empty⟩

/-- The number of the next handle. -/
def nextNumber (m : Memory) : Int32 := .ofNat (m.issued + 1)

/-- The result of an operation, the memory after it, and what was logged. -/
structure Answer (α : Type) where
  result : Except Failure α
  memory : Memory
  log : List Message := []

variable {α : Type}

/-- The operation fails and leaves the memory as it was. -/
def refuse (m : Memory) (failure : Failure) (log : List Message := []) : Answer α :=
  ⟨.error failure, m, log⟩

/-! ### Wallets -/

/-- Opens a new wallet without records. -/
def openWallet (m : Memory) : WalletHandle × Memory × List Message :=
  let wallet : WalletHandle := ⟨m.nextNumber⟩
  (wallet, { m with issued := m.issued + 1, wallets := m.wallets.insert wallet .empty },
    [.openedWallet wallet])

/-- Discards a wallet, its records and its open searches; whether it was open. -/
def closeWallet (m : Memory) (wallet : WalletHandle) : Bool × Memory :=
  (m.wallets.contains wallet,
    { m with
      wallets := m.wallets.erase wallet
      searches := m.searches.filter fun _ search => search.wallet ≠ wallet })

/-- The number of open searches. -/
def openSearchCount (m : Memory) : Nat := m.searches.size

/-! ### Records -/

/-- The records of an open wallet. -/
def collections (m : Memory) (wallet : WalletHandle) : Except Failure Collections :=
  match m.wallets.get? wallet with
  | some c => .ok c
  | none => .error (.wallet .invalidHandle)

/-- The record of a type and id in some collections. -/
def find? (c : Collections) (type id : String) : Option StoredRecord :=
  (c.get? type).bind (·.get? id)

/-- A record of an open wallet. -/
def record (m : Memory) (wallet : WalletHandle) (type id : String) :
    Except Failure StoredRecord := do
  match find? (← m.collections wallet) type id with
  | some r => .ok r
  | none => .error (.wallet .itemNotFound)

/-- The records of a type in some collections, none if there is no such type. -/
def ofType (c : Collections) (type : String) : SortedMap String StoredRecord :=
  (c.get? type).getD .empty

/-- The memory with other records of one type in a wallet. -/
def putType (m : Memory) (wallet : WalletHandle) (c : Collections) (type : String)
    (records : SortedMap String StoredRecord) : Memory :=
  { m with wallets := m.wallets.insert wallet (c.insert type records) }

/-- Goes on with the payload of a request, or refuses one that cannot be read. -/
def withPayload {β : Type} (m : Memory) (payload : Except Json.Error β) (go : β → Answer α) :
    Answer α :=
  match payload with
  | .ok b => go b
  | .error e =>
    m.refuse (.common .invalidStructure) [.refusedPayload (.decoding e.message)]

/-- Adds a record. -/
def add (m : Memory) (wallet : WalletHandle) (type id value tags : String) : Answer Unit :=
  m.withPayload (Tags.decode tags) fun tags =>
    match m.collections wallet with
    | .error e => m.refuse e
    | .ok c =>
      if (find? c type id).isSome then m.refuse (.wallet .itemAlreadyExists)
      else ⟨.ok (), m.putType wallet c type ((ofType c type).insert id ⟨value, tags⟩), []⟩

/-- Changes a record. -/
def update (m : Memory) (wallet : WalletHandle) (type id : String)
    (change : StoredRecord → StoredRecord) : Answer Unit :=
  match m.collections wallet with
  | .error e => m.refuse e
  | .ok c =>
    match find? c type id with
    | none => m.refuse (.wallet .itemNotFound)
    | some r => ⟨.ok (), m.putType wallet c type ((ofType c type).insert id (change r)), []⟩

/-- Replaces the value of a record. -/
def updateValue (m : Memory) (wallet : WalletHandle) (type id value : String) : Answer Unit :=
  m.update wallet type id fun r => { r with value := value }

/-- Replaces the tags of a record. -/
def updateTags (m : Memory) (wallet : WalletHandle) (type id tags : String) : Answer Unit :=
  m.withPayload (Tags.decode tags) fun tags =>
    m.update wallet type id fun r => { r with tags := tags }

/-- Adds tags to a record, in place of those of the same names. -/
def addTags (m : Memory) (wallet : WalletHandle) (type id tags : String) : Answer Unit :=
  m.withPayload (Tags.decode tags) fun tags =>
    m.update wallet type id fun r => { r with tags := r.tags.merge tags }

/-- Removes tags from a record; names that it does not have do not matter. -/
def deleteTags (m : Memory) (wallet : WalletHandle) (type id names : String) : Answer Unit :=
  m.withPayload (Tags.decodeNames names) fun names =>
    m.update wallet type id fun r => { r with tags := r.tags.eraseAll names }

/-- Deletes a record. -/
def delete (m : Memory) (wallet : WalletHandle) (type id : String) : Answer Unit :=
  match m.collections wallet with
  | .error e => m.refuse e
  | .ok c =>
    match find? c type id with
    | none => m.refuse (.wallet .itemNotFound)
    | some _ => ⟨.ok (), m.putType wallet c type ((ofType c type).erase id), []⟩

/-- The text of the part of a record that options ask for. -/
def get (m : Memory) (wallet : WalletHandle) (type id options : String) : Answer String :=
  m.withPayload (SearchOptions.decode options) fun o =>
    match m.record wallet type id with
    | .error e => m.refuse e
    | .ok r => ⟨.ok (r.project type id o).encode, m, []⟩

/-! ### Searches -/

/-- The records of a type that a query accepts, as far as options ask for them, in ascending order
of their ids. -/
def select (c : Collections) (type : String) (query : Query) (o : SearchOptions) : List Record :=
  ((ofType c type).entries.filter fun e => query.holds e.2.tags).map fun e =>
    e.2.project type e.1 o

/-- What is logged about a filter that is refused. -/
def refusalLog : Query.Refusal → List Message
  | .unreadable e => [.unreadableFilter e]
  | .malformed => []
  | .encryptedTag name => [.encryptedTag name]

/-- Opens a search over the records of a type. -/
def openSearch (m : Memory) (wallet : WalletHandle) (type query options : String) :
    Answer SearchHandle :=
  match Query.decode query with
  | .error refusal => m.refuse refusal.failure (refusalLog refusal)
  | .ok query =>
    m.withPayload (SearchOptions.decode options) fun o =>
      match m.collections wallet with
      | .error e => m.refuse e
      | .ok c =>
        let pending := select c type query o
        let search : SearchHandle := ⟨m.nextNumber⟩
        ⟨.ok search,
          { m with
            issued := m.issued + 1
            searches := m.searches.insert search ⟨wallet, pending.length, pending, o⟩ },
          []⟩

/-- The text of the next page of a search, of at most `count` records. -/
def fetch (m : Memory) (wallet : WalletHandle) (search : SearchHandle) (count : UInt64) :
    Answer String :=
  match (m.searches.get? search).filter (·.wallet = wallet) with
  | none => m.refuse (.wallet .invalidHandle)
  | some s =>
    let page := s.pending.take count.toNat
    let batch : Batch :=
      { totalCount := if s.options.includeCount then some (.ofNat s.totalCount) else none
        records := if s.options.includeRecords && !page.isEmpty then some page else none }
    let rest : OpenSearch := { s with pending := s.pending.drop count.toNat }
    ⟨.ok batch.encode, { m with searches := m.searches.insert search rest }, []⟩

/-- Closes a search. -/
def closeSearch (m : Memory) (search : SearchHandle) : Answer Unit :=
  if m.searches.contains search then ⟨.ok (), { m with searches := m.searches.erase search }, []⟩
  else m.refuse (.wallet .invalidHandle)

/-! ### As a store -/

/-- The operation that a call asks for. -/
def perform (m : Memory) : (reply : Reply) → Call reply → Answer reply.Payload
  | _, .addRecord wallet type id value tags => m.add wallet type id value tags
  | _, .updateRecordValue wallet type id value => m.updateValue wallet type id value
  | _, .updateRecordTags wallet type id tags => m.updateTags wallet type id tags
  | _, .addRecordTags wallet type id tags => m.addTags wallet type id tags
  | _, .deleteRecordTags wallet type id names => m.deleteTags wallet type id names
  | _, .deleteRecord wallet type id => m.delete wallet type id
  | _, .getRecord wallet type id options => m.get wallet type id options
  | _, .openSearch wallet type query options => m.openSearch wallet type query options
  | _, .fetchNextRecords wallet search count => m.fetch wallet search count
  | _, .closeSearch search => m.closeSearch search

/-- The number of records in all wallets. -/
def recordCount (m : Memory) : Nat :=
  m.wallets.entries.foldr (fun w n => w.2.entries.foldr (fun t n => t.2.size + n) n) 0

/-- The number of records that open searches have yet to hand out. -/
def pendingCount (m : Memory) : Nat :=
  m.searches.entries.foldr (fun s n => s.2.pending.length + n) 0

/-- A memory completes every call at once. -/
def store : Store Memory where
  respond m reply request :=
    let answer := m.perform reply request
    (⟨.resolve answer.result, .duringCall⟩, answer.log, answer.memory)
  pages m := m.recordCount + m.pendingCount

end Memory

end TaggedRecords
