import TaggedRecords.Client.Cursor

/-!
# Programs — running one activity after another

**A run of two activities in a row is the run of the first and, from where it ends, the run of the
second** (`Program.run_bind`); if the caller leaves during the first there is no second.  For
activities that may fail the same is said of each way in which the first one ends
(`Client.run_bind_ok`, `Client.run_bind_error`).
-/

namespace TaggedRecords

open Log (Message)

namespace Program

variable {α β σ : Type} {store : Store σ}

theorem Run.after_silent (events : List Event) (exit : Exit α) (s : σ) :
    Run.after events ⟨exit, s, []⟩ = ⟨exit, s, events⟩ := by
  rw [after, List.append_nil]

theorem Run.after_append (events events' : List Event) (r : Run σ α) :
    r.after (events ++ events') = (r.after events').after events := by
  simp [Run.after]

/-- What follows a run: the activity that is chosen by its result, unless the caller has left. -/
def Run.andThen (store : Store σ) (r : Run σ α) (f : α → Program β) : Run σ β :=
  match r.exit with
  | .finished a => ((f a).run store r.state).after r.events
  | .left => ⟨.left, r.state, r.events⟩

theorem Run.andThen_after (events : List Event) (r : Run σ α) (f : α → Program β) :
    (r.after events).andThen store f = (r.andThen store f).after events := by
  obtain ⟨exit, state, events'⟩ := r
  cases exit with
  | finished a => exact Run.after_append _ _ _
  | left => rfl

/-- A call that is completed while the caller is there. -/
theorem run_call {s s' : σ} {reply : Reply} {request : Call reply} {farewell logged : List Message}
    {resume : Completion reply.Payload → Program α} {response : Response reply}
    (h : store.respond s reply request = (response, logged, s'))
    (ha : response.arrival ≠ .afterLeaving) :
    (Program.call reply request farewell resume).run store s =
      ((resume response.completion).run store s').after
        (.called reply request :: logged.map .logged) := by
  rw [run, h]
  show (match response.arrival with | _ => _) = _
  cases hr : response.arrival with
  | duringCall | whileWaiting => rfl
  | afterLeaving => exact absurd hr ha

/-- A call whose caller leaves. -/
theorem run_call_left {s s' : σ} {reply : Reply} {request : Call reply}
    {farewell logged : List Message} {resume : Completion reply.Payload → Program α}
    {response : Response reply} (h : store.respond s reply request = (response, logged, s'))
    (ha : response.arrival = .afterLeaving) :
    (Program.call reply request farewell resume).run store s =
      ⟨.left, s', .called reply request :: logged.map .logged ++
        (farewell ++ response.completion.unheard).map .logged⟩ := by
  rw [run, h]
  show (match response.arrival with | _ => _) = _
  rw [ha]

theorem run_bind (p : Program α) (f : α → Program β) : ∀ s : σ,
    (p >>= f).run store s = (p.run store s).andThen store f := by
  induction p with
  | done a => exact fun s => rfl
  | leave farewell => exact fun s => rfl
  | log m rest ih =>
      intro s
      rw [run, Run.andThen_after, ← ih]
      rfl
  | call reply request farewell resume ih =>
      intro s
      show run store (.call reply request farewell fun completion => resume completion >>= f) s = _
      rcases hr : store.respond s reply request with ⟨response, logged, s'⟩
      by_cases ha : response.arrival = .afterLeaving
      · rw [run_call_left hr ha, run_call_left hr ha]
        rfl
      · rw [run_call hr ha, run_call hr ha, Run.andThen_after, ← ih]

/-- The events of two activities in a row: those of the first, and if it comes to a result, then
those of the second. -/
theorem events_bind (p : Program α) (f : α → Program β) (s : σ) :
    ((p >>= f).run store s).events = (p.run store s).events ∨
      ∃ a s', ((p >>= f).run store s).events =
        (p.run store s).events ++ ((f a).run store s').events := by
  rw [run_bind]
  obtain ⟨exit, s', events⟩ := p.run store s
  cases exit with
  | finished a => exact .inr ⟨a, s', rfl⟩
  | left => exact .inl rfl

theorem run_logAll (messages : List Message) (a : α) (s : σ) :
    (logAll messages (.done a)).run store s = ⟨.finished a, s, messages.map .logged⟩ := by
  induction messages with
  | nil => rfl
  | cons m rest ih =>
      show Run.after [.logged m] ((logAll rest (.done a)).run store s) = _
      rw [ih]
      rfl

/-- Messages for a caller that leaves do not matter to one that stays. -/
theorem run_leaving (farewell : List Message) (p : Program α) : ∀ {s : σ},
    (p.run store s).exit ≠ .left → (p.leaving farewell).run store s = p.run store s := by
  induction p with
  | done a => exact fun _ => rfl
  | leave earlier => exact fun h => absurd rfl h
  | log m rest ih =>
      intro s h
      rw [leaving, run, run, ih h]
  | call reply request earlier resume ih =>
      intro s h
      rcases hr : store.respond s reply request with ⟨response, logged, s'⟩
      by_cases ha : response.arrival = .afterLeaving
      · -- the caller would have left
        rw [run_call_left hr ha] at h
        exact absurd rfl h
      · rw [run_call hr ha] at h ⊢
        rw [leaving, run_call hr ha, ih _ h]

end Program

/-! ### Calls -/

namespace Program

/-- The calls among some events, in order. -/
def calls (events : List Event) : List ((reply : Reply) × Call reply) :=
  events.filterMap fun
    | .called reply request => some ⟨reply, request⟩
    | .logged _ => none

@[simp] theorem calls_nil : calls [] = [] := rfl

@[simp] theorem calls_append (events events' : List Event) :
    calls (events ++ events') = calls events ++ calls events' := List.filterMap_append

@[simp] theorem calls_logged (messages : List Message) : calls (messages.map .logged) = [] := by
  induction messages with
  | nil => rfl
  | cons m rest ih => exact ih

@[simp] theorem calls_called {reply : Reply} (request : Call reply) (events : List Event) :
    calls (.called reply request :: events) = ⟨reply, request⟩ :: calls events := rfl

end Program

/-! ### Activities that may fail -/

namespace Client

open Program (Event Exit Run)

variable {α β σ : Type} {store : Store σ} {s s' : σ} {events : List Event} {a : Attempt α}

theorem run_bind_ok {x : α} (h : a.run.run store s = ⟨.finished (.ok x), s', events⟩)
    (f : α → Attempt β) : (a >>= f).run.run store s = ((f x).run.run store s').after events := by
  show Program.run store (a.run >>= _) s = _
  rw [Program.run_bind, h]
  rfl

theorem run_bind_error {e : Failure} (h : a.run.run store s = ⟨.finished (.error e), s', events⟩)
    (f : α → Attempt β) : (a >>= f).run.run store s = ⟨.finished (.error e), s', events⟩ := by
  show Program.run store (a.run >>= _) s = _
  rw [Program.run_bind, h]
  exact Run.after_silent _ _ _

/-- The events of two attempts in a row: those of the first, and if it succeeds, then those of the
second. -/
theorem events_bind (a : Attempt α) (f : α → Attempt β) (s : σ) :
    ((a >>= f).run.run store s).events = (a.run.run store s).events ∨
      ∃ x s', ((a >>= f).run.run store s).events =
        (a.run.run store s).events ++ ((f x).run.run store s').events := by
  rcases Program.events_bind a.run (ExceptT.bindCont f) s with hevents | ⟨result, s', hevents⟩
  · exact .inl hevents
  · cases result with
    | ok x => exact .inr ⟨x, s', hevents⟩
    | error e => exact .inl (hevents.trans (List.append_nil _))

/-- Where two attempts in a row succeed, the second one has run and succeeded. -/
theorem exit_bind_ok {a : Attempt α} {f : α → Attempt β} {y : β}
    (h : ((a >>= f).run.run store s).exit = .finished (.ok y)) :
    ∃ x s', ((f x).run.run store s').exit = .finished (.ok y) := by
  rcases hrun : a.run.run store s with ⟨exit, s', events⟩
  match exit with
  | .finished (.ok x) => exact ⟨x, s', (run_bind_ok hrun f ▸ h :)⟩
  | .finished (.error e) =>
      rw [run_bind_error hrun] at h
      cases h
  | .left =>
      change (Program.run store (a.run >>= _) s).exit = _ at h
      rw [Program.run_bind, hrun] at h
      cases h

theorem run_map {result : Except Failure α}
    (h : a.run.run store s = ⟨.finished result, s', events⟩) (f : α → β) :
    (f <$> a).run.run store s = ⟨.finished (result.map f), s', events⟩ := by
  show Program.run store (a.run >>= _) s = _
  rw [Program.run_bind, h]
  cases result with
  | ok x | error e => exact Run.after_silent _ _ _

theorem run_pure (x : α) (s : σ) :
    (pure x : Attempt α).run.run store s = ⟨.finished (.ok x), s, []⟩ := rfl

theorem run_note (message : Message) (s : σ) :
    (note message).run.run store s = ⟨.finished (.ok ()), s, [.logged message]⟩ := rfl

/-- What is logged beside a failed fetch when closing the search has failed as well. -/
def Cursor.aftermath : Except Failure Batch → Except Failure Unit → List Message
  | .error _, .error e => [.closeFailed e]
  | _, _ => []

/-- **Collecting what is left of a search closes it, whatever came of fetching.**  A failed fetch
counts more than a failed closing. -/
theorem Cursor.run_collectAll_closing {c : Cursor} {count : UInt64} {patience : Nat} {s'' : σ}
    {drained : Except Failure Batch} {closed : Except Failure Unit} {events' : List Event}
    (hdrain : (c.drain count patience {}).run.run store s = ⟨.finished drained, s', events⟩)
    (hclose : c.close.run.run store s' = ⟨.finished closed, s'', events'⟩) :
    (c.collectAll count patience).run.run store s =
      ⟨.finished (drained.bind fun b => closed.map fun _ => b), s'',
        events ++ (events' ++ (aftermath drained closed).map .logged)⟩ := by
  have hleaving : (Program.leaving [c.leak] (c.drain count patience {}).run).run store s =
      (c.drain count patience {}).run.run store s :=
    Program.run_leaving _ _ (by rw [hdrain]; nofun)
  show Program.run store (Program.leaving [c.leak] (c.drain count patience {}).run >>= _) s = _
  rw [Program.run_bind, hleaving, hdrain]
  show Run.after events (Program.run store (c.close.run >>= _) s') = _
  rw [Program.run_bind, hclose]
  cases drained with
  | ok b => cases closed <;> rfl
  | error e => cases closed <;> rfl

theorem Cursor.run_collectAll {c : Cursor} {count : UInt64} {patience : Nat} {s'' : σ}
    {drained : Except Failure Batch} {events' : List Event}
    (hdrain : (c.drain count patience {}).run.run store s = ⟨.finished drained, s', events⟩)
    (hclose : c.close.run.run store s' = ⟨.finished (.ok ()), s'', events'⟩) :
    (c.collectAll count patience).run.run store s =
      ⟨.finished drained, s'', events ++ events'⟩ := by
  have hnone : aftermath drained (.ok ()) = [] := by cases drained <;> rfl
  rw [run_collectAll_closing hdrain hclose, hnone, List.map_nil, List.append_nil]
  cases drained <;> rfl

end Client

end TaggedRecords
