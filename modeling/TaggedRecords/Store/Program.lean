import TaggedRecords.Store.Call

/-!
# Programs — what a client does against a store

A `Program` is a client's activity as a tree: it is done, it logs a message, it leaves, or it
makes a call and goes on with the completion of that call, whatever it is.  Nothing is assumed of
the store; `Program.run` plays a program against one.

A caller may leave while it waits for a call.  Then the messages attached to that call are logged
(`Program.call`), and a completion that arrives later reaches nobody.
-/

namespace TaggedRecords

open Log (Message)

/-- The activity of a client that ends with an `α`. -/
inductive Program (α : Type) : Type where
  /-- The activity is over. -/
  | done (result : α)
  /-- The caller leaves for good, logging some messages. -/
  | leave (farewell : List Message)
  /-- A message is logged. -/
  | log (message : Message) (rest : Program α)
  /-- A call is made; `farewell` is logged if the caller leaves before it is completed. -/
  | call (reply : Reply) (request : Call reply) (farewell : List Message)
      (resume : Completion reply.Payload → Program α)

namespace Program

variable {α β σ : Type}

/-- One activity after another. -/
def bind : Program α → (α → Program β) → Program β
  | .done a, f => f a
  | .leave farewell, _ => .leave farewell
  | .log m rest, f => .log m (rest.bind f)
  | .call reply request farewell resume, f =>
    .call reply request farewell fun completion => (resume completion).bind f

instance : Monad Program where
  pure := .done
  bind := .bind

/-- Several messages logged in order. -/
def logAll (messages : List Message) (rest : Program α) : Program α :=
  messages.foldr .log rest

/-- The activity, with messages that are logged if the caller leaves in the midst of it. -/
def leaving (farewell : List Message) : Program α → Program α
  | .done a => .done a
  | .leave earlier => .leave (earlier ++ farewell)
  | .log m rest => .log m (rest.leaving farewell)
  | .call reply request earlier resume =>
    .call reply request (earlier ++ farewell) fun completion =>
      (resume completion).leaving farewell

/-- Makes one call and waits for its completion. -/
def invoke {reply : Reply} (request : Call reply) : Program (Except Failure reply.Payload) :=
  .call reply request [] fun completion => logAll completion.heard (.done completion.outcome)

/-! ### Running a program -/

/-- What can be observed of a run beside its result. -/
inductive Event where
  | called (reply : Reply) (request : Call reply)
  | logged (message : Message)
  deriving DecidableEq

/-- How a run ends. -/
inductive Exit (α : Type) where
  | finished (result : α)
  | left
  deriving DecidableEq, Repr

/-- A run: how it ends, the state of the store after it, and its events in order. -/
structure Run (σ α : Type) where
  exit : Exit α
  state : σ
  events : List Event

/-- A run with earlier events. -/
def Run.after (events : List Event) (r : Run σ α) : Run σ α := { r with events := events ++ r.events }

/-- Plays a program against a store. -/
def run (store : Store σ) : Program α → σ → Run σ α
  | .done a, s => ⟨.finished a, s, []⟩
  | .leave farewell, s => ⟨.left, s, farewell.map .logged⟩
  | .log m rest, s => (rest.run store s).after [.logged m]
  | .call reply request farewell resume, s =>
    let (response, logged, s) := store.respond s reply request
    let events := .called reply request :: logged.map .logged
    match response.arrival with
    | .duringCall | .whileWaiting => ((resume response.completion).run store s).after events
    | .afterLeaving =>
      ⟨.left, s, events ++ (farewell ++ response.completion.unheard).map .logged⟩

/-- The messages among some events. -/
def messages (events : List Event) : List Message :=
  events.filterMap fun
    | .logged m => some m
    | .called _ _ => none

end Program

end TaggedRecords
