import TaggedRecords.Store.Call

/-!
# Stores — a store that follows a script

A scripted store settles each call as the next line of its script says, whatever the call is, and
so shows how a client fares with any store.  When the script is over, calls succeed with nothing,
with a fixed search, or with the text of an empty object.
-/

namespace TaggedRecords.Scripted

/-- A payload in a script, which does not know yet what it answers. -/
inductive Material where
  | number (n : Int32)
  | text (s : String)
  | other
  deriving DecidableEq, Repr

/-- The payload that a script provides for a call, with a stand-in where it does not fit. -/
def Material.payload : (reply : Reply) → Material → reply.Payload
  | .nothing, _ => ()
  | .search, .number n => (⟨n⟩ : SearchHandle)
  | .search, _ => (⟨7⟩ : SearchHandle)
  | .text, .text s => s
  | .text, _ => "\x7b\x7d"

/-- How a line of a script settles a call. -/
inductive Settlement where
  | complete (code : Int32) (payload : Option Material)
  | succeed (payload : Material)
  | fail (code : Int32)
  | finish (code : Int32)
  | resolve (result : Except Failure Material)
  | drop

/-- The completion that a line of a script makes of a call. -/
def Settlement.completion (reply : Reply) : Settlement → Completion reply.Payload
  | .complete code payload => .reported code (payload.map (Material.payload reply))
  | .succeed payload => .succeed (payload.payload reply)
  | .fail code => .fail code
  | .finish code => .reported code (some (Material.other.payload reply))
  | .resolve result => .resolve (result.map (Material.payload reply))
  | .drop => .dropped

/-- A line of a script. -/
structure Line where
  settlement : Settlement
  arrival : Arrival

/-- A store that follows a script; its state is what is left of the script. -/
def store : Store (List Line) where
  respond script reply _ :=
    match script with
    | [] => (⟨.succeed (Material.other.payload reply), .duringCall⟩, [], [])
    | line :: rest => (⟨line.settlement.completion reply, line.arrival⟩, [], rest)
  pages script := script.length

end TaggedRecords.Scripted
