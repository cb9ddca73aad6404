import TaggedRecords.Proofs.Clients.Traffic

/-!
# Clients — what a move does

**A move opens a cursor, fetches from one, brings one to its end, or does nothing**
(`Session.does_step`).  Whatever else is said of the moves of a session is read off that.  Here it
is the balance: a move ends as many cursors as are kept no longer (`Session.Does.balance`), and so a
whole run, which keeps none at last, ends as many as it opens (`Session.balance`).

The store may be muted for that, as this changes neither the answers nor the session
(`Session.step_muted`).
-/

namespace TaggedRecords.Client

open Program (Event Within calls traffic)

variable {σ : Type} {store : Store σ}

/-- Whether an answer brings a cursor. -/
def Answer.opens : Answer Outcome → Bool
  | .ok (.opened _) => true
  | _ => false

namespace Move

/-- The name of the cursor that a move is about. -/
def name : Move → String
  | .openAs name .. | .fetch name _ | .close name | .collect name _ | .giveUp name => name

/-- The call by which a move opens a cursor, if it is meant to open one. -/
def opening : Move → List Event
  | .openAs _ wallet type e options =>
    [.called .search (.openSearch wallet type (Filter.compile e).encode options.encode)]
  | _ => []

/-- Whether a move is meant to close a cursor. -/
def closes : Move → Bool
  | .close _ | .collect .. => true
  | _ => false

end Move

/-- The closing calls among some events. -/
def closings (events : List Event) : Nat :=
  (calls events).countP fun
    | ⟨_, .closeSearch _⟩ => true
    | _ => false

/-- The leaks among some events. -/
def leaks (events : List Event) : Nat :=
  events.countP fun
    | .logged (.leakedSearch _ _) => true
    | _ => false

theorem closings_append (events events' : List Event) :
    closings (events ++ events') = closings events + closings events' := by
  rw [closings, Program.calls_append, List.countP_append]
  rfl

theorem leaks_append (events events' : List Event) :
    leaks (events ++ events') = leaks events + leaks events' := List.countP_append ..

theorem closings_traffic (events : List Event) : closings (traffic events) = closings events := by
  rw [closings, Program.calls_traffic, closings]

theorem leaks_traffic (events : List Event) : leaks (traffic events) = leaks events := by
  induction events with
  | nil => rfl
  | cons event rest ih =>
      rw [← List.singleton_append, Program.traffic_append, leaks_append, leaks_append, ih]
      rcases event with ⟨reply, request⟩ | message
      · rfl
      · cases message <;> rfl

namespace Session

/-- The session after some moves. -/
def after (store : Store σ) : Session σ → List Move → Session σ
  | s, [] => s
  | s, move :: moves => after store (s.step store move).session moves

/-- The events of a run: those of some moves, and the leaks of the cursors that are left. -/
def events (store : Store σ) : Session σ → List Move → List Event
  | s, [] => s.finish
  | s, move :: moves => (s.step store move).events ++ events store (s.step store move).session moves

/-- The number of moves that open a cursor. -/
def openings (store : Store σ) : Session σ → List Move → Nat
  | _, [] => 0
  | s, move :: moves =>
    (if (s.step store move).answer.opens then 1 else 0) +
      openings store (s.step store move).session moves

/-! ### Muting the store -/

theorem play_muted {α : Type} (store : Store σ) (s : Session σ) (activity : Attempt α) :
    (s.play store.muted activity).answer = (s.play store activity).answer ∧
      (s.play store.muted activity).session = (s.play store activity).session ∧
      Within (s.play store.muted activity).events (s.play store activity).events := by
  obtain ⟨hexit, hstate, hevents⟩ := Program.run_muted store activity.run s.state
  refine ⟨congrArg Answer.ofExit hexit, ?_, hevents⟩
  rw [play, play, hstate]

/-- **Muting the store changes neither the answers nor the session.** -/
theorem step_muted (store : Store σ) (s : Session σ) (move : Move) :
    (s.step store.muted move).answer = (s.step store move).answer ∧
      (s.step store.muted move).session = (s.step store move).session ∧
      Within (s.step store.muted move).events (s.step store move).events := by
  cases move with
  | openAs name wallet type e options =>
      rw [step, step, openAs, openAs]
      have h := play_muted store s (Cursor.openOn wallet type e options)
      generalize s.play store.muted (Cursor.openOn wallet type e options) = muted at h
      generalize s.play store (Cursor.openOn wallet type e options) = heard at h
      obtain ⟨answer, session, events⟩ := muted
      obtain ⟨answer', session', events'⟩ := heard
      obtain ⟨rfl, rfl, hevents⟩ := h
      cases answer with
      | ok c => exact ⟨rfl, rfl, hevents.append (.refl _)⟩
      | failed e | left | noCursor => exact ⟨rfl, rfl, hevents⟩
  | fetch name count | close name | collect name count =>
      rw [step, step, withCursor, withCursor]
      cases s.cursors.get? name with
      | none => exact ⟨rfl, rfl, .refl _⟩
      | some c => exact play_muted store _ _
  | giveUp name =>
      exact ⟨rfl, rfl, .refl _⟩

theorem events_muted (store : Store σ) (s : Session σ) (moves : List Move) :
    Within (s.events store.muted moves) (s.events store moves) := by
  induction moves generalizing s with
  | nil => exact .refl _
  | cons move moves ih =>
      obtain ⟨-, hsession, hevents⟩ := step_muted store s move
      rw [events, events, hsession]
      exact hevents.append (ih _)

/-! ### What a move does -/

/-- What a move does: its answer, the cursors that are kept after it, and its traffic. -/
inductive Does (kept : SortedMap String Cursor) :
    Move → Answer Outcome → SortedMap String Cursor → List Event → Prop where
  | opened (name : String) (wallet : WalletHandle) (type : String) (e : Expression)
      (options : SearchOptions) (search : SearchHandle) :
      Does kept (.openAs name wallet type e options) (.ok (.opened search))
        (kept.insert name ⟨wallet, search, type, .compile e, options⟩)
        ((Move.openAs name wallet type e options).opening ++ leakOf (kept.get? name))
  | unopened {move : Move} {answer : Answer Outcome} (hopens : answer.opens = false) :
      Does kept move answer kept move.opening
  | fetched {move : Move} {answer : Answer Outcome} {c : Cursor} {fetches : List Event}
      (hmove : move.opening = []) (hopens : answer.opens = false)
      (h : kept.get? move.name = some c) (hfetches : ∀ event ∈ fetches, c.IsFetch event) :
      Does kept move answer kept fetches
  | ended {move : Move} {answer : Answer Outcome} {c : Cursor} {events : List Event}
      (hmove : move.opening = []) (hopens : answer.opens = false)
      (h : kept.get? move.name = some c) (hended : c.Ended events)
      (hcloses : move.closes = true ∨ closings events = 0) :
      Does kept move answer (kept.erase move.name) events

theorem traffic_leakOf (cursor : Option Cursor) : traffic (leakOf cursor) = leakOf cursor :=
  Cursor.traffic_leaks id cursor.toList

/-- An activity whose results are no cursors opens none. -/
theorem opens_play {α : Type} {f : α → Outcome} (hf : ∀ x, (Answer.ok (f x)).opens = false)
    (s : Session σ) (a : Attempt α) : (s.play store (f <$> a)).answer.opens = false := by
  show (Answer.ofExit (Program.run store (a.run >>= _) s.state).exit).opens = false
  rw [Program.run_bind]
  rcases a.run.run store s.state with ⟨exit, s', events⟩
  match exit with
  | .finished (.ok x) => exact hf x
  | .finished (.error e) | .left => rfl

theorem does_openAs (s : Session σ) (name : String) (wallet : WalletHandle) (type : String)
    (e : Expression) (options : SearchOptions) :
    Does s.cursors (.openAs name wallet type e options)
      (s.step store.muted (.openAs name wallet type e options)).answer
      (s.step store.muted (.openAs name wallet type e options)).session.cursors
      (traffic (s.step store.muted (.openAs name wallet type e options)).events) := by
  have htraffic : traffic ((Cursor.openOn wallet type e options).run.run store.muted s.state).events
      = _ := Cursor.traffic_openOn wallet type e options s.state
  have hcursor : ∀ c, ((Cursor.openOn wallet type e options).run.run store.muted s.state).exit =
      .finished (.ok c) → _ := fun c => Cursor.openOn_finished
  rw [step, openAs, play]
  generalize (Cursor.openOn wallet type e options).run.run store.muted s.state = run at *
  obtain ⟨exit, s', events⟩ := run
  match exit with
  | .finished (.ok c) =>
      obtain ⟨search, rfl⟩ := hcursor c rfl
      have hall : traffic (events ++ leakOf (s.cursors.get? name)) =
          (Move.openAs name wallet type e options).opening ++ leakOf (s.cursors.get? name) := by
        rw [Program.traffic_append, traffic_leakOf, htraffic, Move.opening]
      exact hall ▸ .opened name wallet type e options search
  | .finished (.error _) | .left => exact htraffic ▸ .unopened rfl

/-- **What a move does.**  The answer and the cursors do not depend on what the store logs. -/
theorem does_step (store : Store σ) (s : Session σ) (move : Move) :
    Does s.cursors move (s.step store move).answer (s.step store move).session.cursors
      (traffic (s.step store.muted move).events) := by
  obtain ⟨hanswer, hsession, -⟩ := step_muted store s move
  rw [← hanswer, ← hsession]
  cases move with
  | openAs name wallet type e options => exact does_openAs s name wallet type e options
  | fetch name count =>
      rw [step, withCursor]
      cases h : s.cursors.get? name with
      | none => exact .unopened rfl
      | some c =>
          refine .fetched rfl (opens_play (fun _ => rfl) s _) h ?_
          show ∀ event ∈ traffic ((Outcome.batch <$> c.fetch count).run.run _ s.state).events,
            c.IsFetch event
          rw [traffic_map]
          exact Cursor.traffic_fetch count s.state
  | close name =>
      rw [step, withCursor]
      cases h : s.cursors.get? name with
      | none => exact .unopened rfl
      | some c =>
          refine .ended rfl (opens_play (fun _ => rfl) _ _) h ?_ (.inl rfl)
          show c.Ended (traffic (((fun _ => Outcome.nothing) <$> c.close).run.run _ s.state).events)
          rw [traffic_map, Cursor.close, traffic_closeSearch]
          exact Cursor.ended_close
  | collect name count =>
      rw [step, withCursor]
      cases h : s.cursors.get? name with
      | none => exact .unopened rfl
      | some c =>
          refine .ended rfl (opens_play (fun _ => rfl) _ _) h ?_ (.inl rfl)
          show c.Ended (traffic ((Outcome.batch <$> c.collectAll count _).run.run _ s.state).events)
          rw [traffic_map]
          exact Cursor.ended_collectAll count _ s.state
  | giveUp name =>
      rw [step, withCursor]
      cases h : s.cursors.get? name with
      | none => exact .unopened rfl
      | some c => exact .ended rfl rfl h Cursor.ended_leak (.inr rfl)

end Session

/-! ### Balance -/

theorem Cursor.balance_fetches {c : Cursor} {fetches : List Event}
    (h : ∀ event ∈ fetches, c.IsFetch event) : closings fetches = 0 ∧ leaks fetches = 0 := by
  induction fetches with
  | nil => exact ⟨rfl, rfl⟩
  | cons event rest ih =>
      obtain ⟨⟨count, rfl⟩, hrest⟩ := List.forall_mem_cons.mp h
      obtain ⟨hclosings, hleaks⟩ := ih hrest
      rw [← List.singleton_append, closings_append, leaks_append, hclosings, hleaks]
      exact ⟨rfl, rfl⟩

theorem Cursor.Ended.balance {c : Cursor} {events : List Event} (h : c.Ended events) :
    closings events + leaks events = 1 := by
  obtain ⟨fetches, ending, rfl, hfetches, hending⟩ := h
  obtain ⟨hclosings, hleaks⟩ := Cursor.balance_fetches hfetches
  rw [closings_append, leaks_append, hclosings, hleaks]
  rcases hending with rfl | rfl <;> rfl

namespace Session

theorem closings_leakOf (cursor : Option Cursor) : closings (leakOf cursor) = 0 := by
  cases cursor <;> rfl

theorem leaks_leakOf (cursor : Option Cursor) : leaks (leakOf cursor) = cursor.toList.length := by
  cases cursor <;> rfl

theorem closings_opening (move : Move) : closings move.opening = 0 := by
  cases move <;> rfl

theorem leaks_opening (move : Move) : leaks move.opening = 0 := by
  cases move <;> rfl

variable {kept kept' : SortedMap String Cursor} {move : Move} {answer : Answer Outcome}
  {events : List Event}

/-- **The balance of a move**: the cursors that were kept, and one that is opened, are kept or have
come to an end. -/
theorem Does.balance (h : Does kept move answer kept' events) :
    kept.size + (if answer.opens then 1 else 0) =
      kept'.size + (closings events + leaks events) := by
  cases h with
  | opened name wallet type e options search =>
      rw [closings_append, leaks_append, closings_opening, leaks_opening, closings_leakOf,
        leaks_leakOf, SortedMap.size_insert, ← SortedMap.size_erase kept name]
      show _ + _ + 1 = _
      omega
  | unopened hopens =>
      rw [hopens, closings_opening, leaks_opening]
      rfl
  | fetched _ hopens _ hfetches =>
      obtain ⟨hclosings, hleaks⟩ := Cursor.balance_fetches hfetches
      rw [hopens, hclosings, hleaks]
      rfl
  | ended _ hopens hname hended =>
      rw [hopens, hended.balance, ← SortedMap.size_erase kept move.name, hname]
      rfl

/-- Closing calls are made by the moves that are meant to close. -/
theorem Does.closings_eq (h : Does kept move answer kept' events) (hmove : move.closes = false) :
    closings events = 0 := by
  cases h with
  | opened => rw [closings_append, closings_opening, closings_leakOf]
  | unopened => exact closings_opening _
  | fetched _ _ _ hfetches => exact (Cursor.balance_fetches hfetches).1
  | ended _ _ _ _ hcloses => exact hcloses.resolve_left (by simp [hmove])

theorem closings_step (s : Session σ) (h : move.closes = false) :
    closings (s.step store move).events = 0 := by
  obtain ⟨-, -, hevents⟩ := step_muted store s move
  rw [closings, ← hevents.calls_eq, ← closings, ← closings_traffic]
  exact (s.does_step store move).closings_eq h

theorem balance_finish (s : Session σ) : s.cursors.size = closings s.finish + leaks s.finish := by
  rw [SortedMap.size, finish]
  generalize s.cursors.entries = left
  induction left with
  | nil => rfl
  | cons e rest ih =>
      rw [List.flatMap_cons, closings_append, leaks_append, closings_leakOf, leaks_leakOf,
        List.length_cons, ih]
      show _ = 0 + _ + (1 + _)
      omega

/-- **The balance of a run**: as many cursors come to an end as were kept at first or are opened. -/
theorem balance (store : Store σ) (s : Session σ) (moves : List Move) :
    s.cursors.size + s.openings store moves =
      closings (s.events store.muted moves) + leaks (s.events store.muted moves) := by
  induction moves generalizing s with
  | nil => exact s.balance_finish
  | cons move moves ih =>
      obtain ⟨-, hsession, -⟩ := step_muted store s move
      have hmove := (s.does_step store move).balance
      have hmoves := ih (s.step store move).session
      rw [closings_traffic, leaks_traffic] at hmove
      rw [events, openings, hsession, closings_append, leaks_append]
      omega

end Session

end TaggedRecords.Client
