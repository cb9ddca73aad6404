import TaggedRecords.Client.Records

/-!
# Clients — a session with cursors by name

A `Session` is a store together with the cursors that are kept open, each under a name.  A move
opens a cursor under a name, fetches from a kept cursor, or takes one away to close it, to collect
what is left of it, or to give it up.  A cursor that is opened under a name in use takes the place
of the other one, which is given up then; the cursors left at the end are given up in the order of
their names.

So each cursor that was opened ends in one of two ways: a closing call is made for it, or its leak
is logged.
-/

namespace TaggedRecords.Client

open Log (Message)
open Program (Event Exit)

/-- A store in some state, and the cursors kept open. -/
structure Session (σ : Type) where
  state : σ
  cursors : SortedMap String Cursor

/-- What the caller gets: a result, a failure, nothing because it has left, or nothing because
there is no cursor of the name it gave. -/
inductive Answer (α : Type) where
  | ok (result : α)
  | failed (failure : Failure)
  | left
  | noCursor
  deriving DecidableEq

/-- The answer that the end of a run gives. -/
def Answer.ofExit {α : Type} : Exit (Except Failure α) → Answer α
  | .finished (.ok a) => .ok a
  | .finished (.error e) => .failed e
  | .left => .left

/-- An answer, the session after it, and the events meanwhile. -/
structure Step (σ α : Type) where
  answer : Answer α
  session : Session σ
  events : List Event

/-- A move with cursors. -/
inductive Move where
  | openAs (name : String) (wallet : WalletHandle) (type : String) (e : Expression)
      (options : SearchOptions)
  | fetch (name : String) (count : UInt64)
  | close (name : String)
  | collect (name : String) (count : UInt64)
  | giveUp (name : String)

/-- What a move gives. -/
inductive Outcome where
  | opened (search : SearchHandle)
  | batch (b : Batch)
  | nothing
  deriving DecidableEq

namespace Session

variable {σ α : Type}

/-- A session without cursors. -/
def start (state : σ) : Session σ := ⟨state, .empty⟩

/-- The fetches that a caller makes before it runs out of patience: more than any search of the
store needs. -/
def patience (store : Store σ) (s : Session σ) : Nat := store.pages s.state + 1

/-- Plays an activity that has nothing to do with the kept cursors. -/
def play (store : Store σ) (s : Session σ) (activity : Attempt α) : Step σ α :=
  let run := Program.run store activity.run s.state
  ⟨.ofExit run.exit, { s with state := run.state }, run.events⟩

/-- The leak of a cursor, if there is one, as an event. -/
def leakOf (cursor : Option Cursor) : List Event :=
  cursor.toList.map fun c => .logged c.leak

/-- Keeps a cursor under a name; another one of that name is given up. -/
def keep (s : Session σ) (name : String) (cursor : Cursor) : Session σ × List Event :=
  ({ s with cursors := s.cursors.insert name cursor }, leakOf (s.cursors.get? name))

/-- Takes away the cursor of a name. -/
def remove (s : Session σ) (name : String) : Session σ :=
  { s with cursors := s.cursors.erase name }

/-- Opens a cursor under a name. -/
def openAs (store : Store σ) (s : Session σ) (name : String) (opening : Attempt Cursor) :
    Step σ Outcome :=
  let step := s.play store opening
  match step.answer with
  | .ok cursor =>
    let (session, given) := step.session.keep name cursor
    ⟨.ok (.opened cursor.handle), session, step.events ++ given⟩
  | .failed e => ⟨.failed e, step.session, step.events⟩
  | .left => ⟨.left, step.session, step.events⟩
  | .noCursor => ⟨.noCursor, step.session, step.events⟩

/-- Goes on with the cursor of a name, if there is one. -/
def withCursor (s : Session σ) (name : String) (go : Cursor → Step σ Outcome) : Step σ Outcome :=
  match s.cursors.get? name with
  | some cursor => go cursor
  | none => ⟨.noCursor, s, []⟩

/-- Makes a move. -/
def step (store : Store σ) (s : Session σ) : Move → Step σ Outcome
  | .openAs name wallet type e options =>
    s.openAs store name (Cursor.openOn wallet type e options)
  | .fetch name count =>
    s.withCursor name fun c => s.play store (.batch <$> c.fetch count)
  | .close name =>
    s.withCursor name fun c => (s.remove name).play store ((fun _ => .nothing) <$> c.close)
  | .collect name count =>
    s.withCursor name fun c =>
      (s.remove name).play store (.batch <$> c.collectAll count (s.patience store))
  | .giveUp name =>
    s.withCursor name fun c => ⟨.ok .nothing, s.remove name, leakOf (some c)⟩

/-- Gives up all cursors that are left, in the order of their names. -/
def finish (s : Session σ) : List Event :=
  s.cursors.entries.flatMap fun e => leakOf (some e.2)

end Session

end TaggedRecords.Client
