import TaggedRecords.Failure
import TaggedRecords.Handle

/-!
# Log — what is reported beside the answers

`Message` lists everything that stores and clients log.  An entry reaches the host's logger when
it is of some weight, at least informative, or when it comes from a module of this library
(`Log.forwards`); the library's own messages always do.

A host installs its logger once; later loggers are turned away (`Routing.install`).
-/

namespace TaggedRecords.Log

/-- How much weight an entry has, the greatest first. -/
inductive Level where
  | error
  | warn
  | info
  | debug
  | trace
  deriving DecidableEq, Repr

/-- The level as hosts know it. -/
def Level.name : Level → String
  | .error => "Error"
  | .warn => "Warn"
  | .info => "Info"
  | .debug => "Debug"
  | .trace => "Trace"

/-- Whether entries of a level are of interest wherever they come from. -/
def Level.isGeneral : Level → Bool
  | .error | .warn | .info => true
  | .debug | .trace => false

/-- What is logged. -/
inductive Message where
  /-- A wallet was opened in memory. -/
  | openedWallet (wallet : WalletHandle)
  /-- A payload of a request could not be read. -/
  | refusedPayload (failure : Failure)
  /-- A filter is no JSON. -/
  | unreadableFilter (error : Json.Error)
  /-- A filter compares an encrypted tag other than exactly. -/
  | encryptedTag (name : String)
  /-- A call was completed after its caller had left. -/
  | unheard (code : Int32)
  /-- A call will never be completed. -/
  | dropped
  /-- A call succeeded without the payload it promises. -/
  | missingPayload
  /-- A search was opened. -/
  | openedSearch (search : SearchHandle) (type filter : String)
  /-- A search was closed. -/
  | closedSearch (search : SearchHandle)
  /-- A search was given up without being closed. -/
  | leakedSearch (search : SearchHandle) (type : String)
  /-- Closing a search failed after a fetch had failed. -/
  | closeFailed (failure : Failure)
  deriving DecidableEq, Repr

namespace Message

/-- The level of a message. -/
def level : Message → Level
  | .openedWallet _ | .refusedPayload _ | .unreadableFilter _ | .encryptedTag _ | .unheard _
  | .openedSearch .. | .closedSearch _ => .debug
  | .dropped | .missingPayload | .leakedSearch .. | .closeFailed _ => .warn

/-- The wording of a message. -/
def text : Message → String
  | .openedWallet wallet => "opened in-memory " ++ wallet.label
  | .refusedPayload failure => "rejecting request payload: " ++ failure.message
  | .unreadableFilter error => "filter is not valid JSON: " ++ error.message
  | .encryptedTag name => "operator not supported on encrypted tag `" ++ name ++ "`"
  | .unheard code =>
    "store completion with code " ++ toString code.toInt ++ " dropped: caller no longer waiting"
  | .dropped => "record store dropped a completion sink without reporting a result"
  | .missingPayload => "record store reported success without a payload"
  | .openedSearch search type filter =>
    "opened " ++ search.label ++ " over `" ++ type ++ "` with filter " ++ filter
  | .closedSearch search => "closed " ++ search.label
  | .leakedSearch search type =>
    search.label ++ " over `" ++ type ++
      "` dropped without being closed; the store-side search leaks"
  | .closeFailed failure => "closing search after a failed fetch also failed: " ++ failure.message

end Message

/-- An entry of the log: its level, the module it comes from, and its text. -/
structure Entry where
  level : Level
  target : String
  text : String
  deriving DecidableEq, Repr

/-- What the targets of this library's modules begin with. -/
def ownTarget : String := "vaultquery"

/-- Whether entries of a level and a target are passed on to the host. -/
def forwards (level : Level) (target : String) : Bool :=
  level.isGeneral || ownTarget.toList.isPrefixOf target.toList

/-- A message as an entry. -/
def Message.entry (m : Message) : Entry := ⟨m.level, ownTarget, m.text⟩

/-- A logger of the host, which puts a mark before every text. -/
structure Logger where
  mark : String
  deriving DecidableEq, Repr

/-- Where entries go. -/
structure Routing where
  logger : Option Logger
  deriving DecidableEq, Repr

namespace Routing

/-- Installs a logger unless there is one. -/
def install (r : Routing) (logger : Logger) : Routing := ⟨r.logger <|> some logger⟩

/-- Whether entries can still be sent to the console, which takes the place of a logger. -/
def acceptsConsole (r : Routing) : Bool := r.logger.isNone

/-- What the host's logger receives of some entries. -/
def deliver (r : Routing) (entries : List Entry) : List (Level × String) :=
  match r.logger with
  | none => []
  | some logger =>
    (entries.filter fun e => forwards e.level e.target).map fun e => (e.level, logger.mark ++ e.text)

end Routing

end TaggedRecords.Log
