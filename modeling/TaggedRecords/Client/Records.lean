import TaggedRecords.Client.Cursor
import TaggedRecords.Config

/-!
# Clients — the records of one wallet

`Records` is a client bound to one wallet of a store.  Each operation but `searchAll` is a single
call; its failure is the store's own, or that of a payload that cannot be read.
-/

namespace TaggedRecords.Client

/-- A client of one wallet. -/
structure Records where
  wallet : WalletHandle
  config : SearchConfig := .standard
  deriving DecidableEq

namespace Records

/-- Adds a record. -/
def add (r : Records) (type id value : String) (tags : Tags) : Attempt Unit :=
  invoke (.addRecord r.wallet type id value tags.encode)

/-- Replaces the value of a record. -/
def updateValue (r : Records) (type id value : String) : Attempt Unit :=
  invoke (.updateRecordValue r.wallet type id value)

/-- Replaces all tags of a record. -/
def updateTags (r : Records) (type id : String) (tags : Tags) : Attempt Unit :=
  invoke (.updateRecordTags r.wallet type id tags.encode)

/-- Adds tags to a record, in place of those of the same names. -/
def addTags (r : Records) (type id : String) (tags : Tags) : Attempt Unit :=
  invoke (.addRecordTags r.wallet type id tags.encode)

/-- Removes tags from a record. -/
def deleteTags (r : Records) (type id : String) (names : List String) : Attempt Unit :=
  invoke (.deleteRecordTags r.wallet type id (Tags.encodeNames names))

/-- Deletes a record. -/
def delete (r : Records) (type id : String) : Attempt Unit :=
  invoke (.deleteRecord r.wallet type id)

/-- Reads one record. -/
def get (r : Records) (type id : String) (options : SearchOptions) : Attempt Record := do
  let payload : String ← invoke (.getRecord r.wallet type id options.encode)
  received (Record.decode payload)

/-- Opens a search; the cursor has to be closed. -/
def openSearch (r : Records) (type : String) (e : Expression) (options : SearchOptions) :
    Attempt Cursor :=
  Cursor.openOn r.wallet type e options

/-- Runs a search to its end, with the configured number of records per fetch. -/
def searchAll (r : Records) (type : String) (e : Expression) (options : SearchOptions)
    (patience : Nat) : Attempt Batch := do
  let cursor ← r.openSearch type e options
  cursor.collectAll r.config.batchSize patience

/-- A client shown for a reader. -/
def inspect (r : Records) : String :=
  "WalletRecords \x7b wallet: " ++ r.wallet.inspect ++ ", config: " ++ r.config.inspect ++ ", .. \x7d"

end Records

end TaggedRecords.Client
