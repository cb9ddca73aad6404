import TaggedRecords.Filter
import TaggedRecords.Record
import TaggedRecords.Store.Program

/-!
# Clients — searches and cursors

`openSearch`, `fetchNextRecords` and `closeSearch` are the three calls of a search, on handles.
A `Cursor` is an open search together with what it was opened for.  Whoever has a cursor either
closes it, alone or by collecting what is left of it (`Cursor.collectAll`), or gives it up; giving
up an open cursor leaves the search open in the store, which is logged (`Cursor.leak`).

`collectAll` fetches page after page until one comes without records or fails, and then closes
the search whatever happened.  A caller that leaves while pages are being fetched gives the
cursor up; once the closing call has been made it is no longer open.
-/

namespace TaggedRecords.Client

open Log (Message)

/-- An activity that may fail. -/
abbrev Attempt (α : Type) := ExceptT Failure Program α

variable {α : Type}

/-- Makes one call of the store. -/
def invoke {reply : Reply} (request : Call reply) : Attempt reply.Payload :=
  .mk (Program.invoke request)

/-- Logs a message. -/
def note (message : Message) : Attempt Unit := .mk (.log message (.done (.ok ())))

/-- The place of the batch size among the parameters of a fetch. -/
def fetchCountPlace : UInt8 := 4

/-- Reads the payload of an answer. -/
def received (payload : Except Json.Error α) : Attempt α :=
  match payload with
  | .ok a => return a
  | .error e => throw (.decoding e.message)

/-- Opens a search and gives its handle. -/
def openSearch (wallet : WalletHandle) (type : String) (filter : Filter)
    (options : SearchOptions) : Attempt SearchHandle := do
  let search : SearchHandle ← invoke (.openSearch wallet type filter.encode options.encode)
  note (.openedSearch search type filter.encode)
  return search

/-- Fetches at most `count` more records of a search; a fetch of none is turned down without a
call. -/
def fetchNextRecords (wallet : WalletHandle) (search : SearchHandle) (count : UInt64) :
    Attempt Batch := do
  if count = 0 then throw (.common (.invalidParameter fetchCountPlace))
  else
    let payload : String ← invoke (.fetchNextRecords wallet search count)
    received (Batch.decode payload)

/-- Closes a search. -/
def closeSearch (search : SearchHandle) : Attempt Unit := do
  let () ← invoke (.closeSearch search)
  note (.closedSearch search)

/-- An open search. -/
structure Cursor where
  wallet : WalletHandle
  handle : SearchHandle
  type : String
  filter : Filter
  options : SearchOptions
  deriving DecidableEq

namespace Cursor

/-- Opens a search with the filter of an expression. -/
def openOn (wallet : WalletHandle) (type : String) (e : Expression) (options : SearchOptions) :
    Attempt Cursor := do
  let filter := Filter.compile e
  let handle ← openSearch wallet type filter options
  return ⟨wallet, handle, type, filter, options⟩

/-- What is logged when a cursor is given up while it is open. -/
def leak (c : Cursor) : Message := .leakedSearch c.handle c.type

/-- Fetches at most `count` more records.  The cursor stays open even if this fails. -/
def fetch (c : Cursor) (count : UInt64) : Attempt Batch := fetchNextRecords c.wallet c.handle count

/-- Closes the search; the cursor is gone even if this fails. -/
def close (c : Cursor) : Attempt Unit := closeSearch c.handle

/-- What has been collected of a search: the last total that was reported, and the records. -/
structure Collected where
  totalCount : Option UInt64 := none
  records : List Record := []

/-- Another page collected. -/
def Collected.add (done : Collected) (b : Batch) : Collected :=
  ⟨b.totalCount <|> done.totalCount, done.records ++ b.page⟩

/-- Everything collected, as one batch. -/
def Collected.toBatch (done : Collected) : Batch := ⟨done.totalCount, some done.records⟩

/-- Fetches pages of `count` records until one comes without records; a caller whose patience for
that many fetches is used up leaves. -/
def drain (c : Cursor) (count : UInt64) : (patience : Nat) → Collected → Attempt Batch
  | 0, _ => .mk (.leave [])
  | patience + 1, done => do
    let b ← c.fetch count
    if b.page.isEmpty then return (done.add b).toBatch
    else c.drain count patience (done.add b)

/-- Fetches all records in pages of `count`, then closes the search.  A failed fetch counts more
than a failed closing. -/
def collectAll (c : Cursor) (count : UInt64) (patience : Nat) : Attempt Batch := .mk do
  let drained ← Program.leaving [c.leak] (c.drain count patience {}).run
  let closed ← c.close.run
  match drained, closed with
  | .ok batch, .ok () => return .ok batch
  | .ok _, .error e => return .error e
  | .error e, .ok () => return .error e
  | .error e, .error e' => .log (.closeFailed e') (return .error e)

/-- A cursor shown for a reader. -/
def inspect (c : Cursor) : String :=
  "Cursor \x7b wallet: " ++ c.wallet.inspect ++ ", handle: " ++ c.handle.inspect ++
    ", record_type: " ++ Text.inspect c.type ++ ", filter: " ++ c.filter.inspect ++
    ", options: " ++ c.options.inspect ++ ", .. \x7d"

end Cursor

end TaggedRecords.Client
