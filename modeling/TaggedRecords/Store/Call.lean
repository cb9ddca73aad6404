import TaggedRecords.Failure
import TaggedRecords.Handle
import TaggedRecords.Log

/-!
# Stores — calls and their completion

A store is driven by calls, each of which names what it is answered with: nothing, the handle of
a search, or a text.  Structured arguments travel as JSON texts.

A store settles a call at most once: it reports a code, zero for success, with or without a
payload, or it lets the call go for good (`Completion`).  What the caller makes of that is
`Completion.outcome`; a code other than zero counts even beside a payload, and success without
the payload is a fault of the store.
-/

namespace TaggedRecords

open Log (Message)

/-- What a call is answered with. -/
inductive Reply where
  | nothing
  | search
  | text
  deriving DecidableEq, Repr

/-- The payload of an answer. -/
def Reply.Payload : Reply → Type
  | .nothing => Unit
  | .search => SearchHandle
  | .text => String

/-- A call of a record store. -/
inductive Call : Reply → Type where
  | addRecord (wallet : WalletHandle) (type id value tags : String) : Call .nothing
  | updateRecordValue (wallet : WalletHandle) (type id value : String) : Call .nothing
  | updateRecordTags (wallet : WalletHandle) (type id tags : String) : Call .nothing
  | addRecordTags (wallet : WalletHandle) (type id tags : String) : Call .nothing
  | deleteRecordTags (wallet : WalletHandle) (type id names : String) : Call .nothing
  | deleteRecord (wallet : WalletHandle) (type id : String) : Call .nothing
  | getRecord (wallet : WalletHandle) (type id options : String) : Call .text
  | openSearch (wallet : WalletHandle) (type query options : String) : Call .search
  | fetchNextRecords (wallet : WalletHandle) (search : SearchHandle) (count : UInt64) : Call .text
  | closeSearch (search : SearchHandle) : Call .nothing
  deriving DecidableEq, Repr

/-- How a store settles a call. -/
inductive Completion (α : Type) where
  | reported (code : Int32) (payload : Option α)
  | dropped
  deriving DecidableEq, Repr

namespace Completion

variable {α : Type}

/-- Success with a payload. -/
def succeed (payload : α) : Completion α := .reported 0 (some payload)

/-- Failure with a code. -/
def fail (code : Int32) : Completion α := .reported code none

/-- The status of a call that is answered with nothing. -/
def finish (code : Int32) : Completion Unit := .reported code (some ())

/-- The payload of a success, or the code of a failure; failures without a code of their own are
reported as an invalid internal state. -/
def resolve : Except Failure α → Completion α
  | .ok payload => succeed payload
  | .error e => fail (e.code?.getD CommonFailure.invalidInternalState.code)

/-- What a completion means to the caller. -/
def outcome : Completion α → Except Failure α
  | .dropped => .error .invalidState
  | .reported code payload =>
    if code ≠ 0 then .error (.ofCode code)
    else
      match payload with
      | some a => .ok a
      | none => .error .invalidState

/-- What is logged about a completion that reaches the caller. -/
def heard : Completion α → List Message
  | .dropped => [.dropped]
  | .reported code payload => if code = 0 ∧ payload.isNone then [.missingPayload] else []

/-- What is logged about a completion whose caller has left. -/
def unheard : Completion α → List Message
  | .dropped => []
  | .reported code _ => [.unheard code]

end Completion

/-- When a store settles a call. -/
inductive Arrival where
  /-- Before the call returns. -/
  | duringCall
  /-- After the call has returned, while the caller waits. -/
  | whileWaiting
  /-- Not before the caller has given up and left. -/
  | afterLeaving
  deriving DecidableEq, Repr

/-- How and when a store settles a call. -/
structure Response (reply : Reply) where
  completion : Completion reply.Payload
  arrival : Arrival := .duringCall

/-- A record store with states of type `σ`: how it responds to a call, what it logs meanwhile,
and its state afterwards; and a bound on how many fetches in a row can bring records. -/
structure Store (σ : Type) where
  respond : σ → (reply : Reply) → Call reply → Response reply × List Message × σ
  pages : σ → Nat

end TaggedRecords
