import TaggedRecords.Client.Session
import TaggedRecords.Proofs.Programs

/-!
# Clients — the traffic of an activity

The *traffic* of a run is what it shows of searches: its calls, and the leaks that are logged.  A
store may log what it likes, even what reads like a leak, so traffic is told of the muted store,
which logs nothing itself (`Store.muted`).  Muting a store changes neither how a run ends nor the
calls that it makes, and takes only messages away (`Program.run_muted`).

Opening a cursor makes the opening call, fetching from it at most one fetch, and closing it the
closing call.  **Collecting from a cursor fetches and then ends it** (`Cursor.ended_collectAll`): by
the closing call, or, if the caller leaves before that call, by a leak.
-/

namespace TaggedRecords

open Log (Message)

variable {α β σ : Type} {store : Store σ}

/-- The store, which logs nothing now. -/
def Store.muted (store : Store σ) : Store σ where
  respond s reply request :=
    let (response, _, s') := store.respond s reply request
    (response, [], s')
  pages := store.pages

theorem Store.muted_respond (s : σ) (reply : Reply) (request : Call reply) :
    store.muted.respond s reply request =
      ((store.respond s reply request).1, [], (store.respond s reply request).2.2) := rfl

namespace Program

/-- The same calls, and some of the same messages, all in the same order. -/
structure Within (events events' : List Event) : Prop where
  calls_eq : calls events = calls events'
  sublist : events.Sublist events'

theorem Within.refl (events : List Event) : Within events events := ⟨rfl, .refl _⟩

theorem Within.append {events₁ events₁' events₂ events₂' : List Event}
    (h₁ : Within events₁ events₁') (h₂ : Within events₂ events₂') :
    Within (events₁ ++ events₂) (events₁' ++ events₂') where
  calls_eq := by rw [calls_append, calls_append, h₁.calls_eq, h₂.calls_eq]
  sublist := h₁.sublist.append h₂.sublist

theorem Within.called {reply : Reply} (request : Call reply) (logged : List Message) :
    Within [.called reply request] (.called reply request :: logged.map .logged) where
  calls_eq := by rw [calls_called, calls_called, calls_logged, calls_nil]
  sublist := (List.nil_sublist _).cons_cons _

/-- **Muting a store changes nothing but what the store logs.** -/
theorem run_muted (store : Store σ) (p : Program α) : ∀ s : σ,
    (p.run store.muted s).exit = (p.run store s).exit ∧
      (p.run store.muted s).state = (p.run store s).state ∧
      Within (p.run store.muted s).events (p.run store s).events := by
  induction p with
  | done a => exact fun s => ⟨rfl, rfl, .refl _⟩
  | leave farewell => exact fun s => ⟨rfl, rfl, .refl _⟩
  | log m rest ih =>
      intro s
      obtain ⟨hexit, hstate, hevents⟩ := ih s
      exact ⟨hexit, hstate, (Within.refl [.logged m]).append hevents⟩
  | call reply request farewell resume ih =>
      intro s
      rcases hr : store.respond s reply request with ⟨response, logged, s'⟩
      have hmuted : store.muted.respond s reply request = (response, [], s') := by
        rw [Store.muted_respond, hr]
      by_cases ha : response.arrival = .afterLeaving
      · rw [run_call_left hr ha, run_call_left hmuted ha]
        exact ⟨rfl, rfl, (Within.called request logged).append (.refl _)⟩
      · rw [run_call hr ha, run_call hmuted ha]
        obtain ⟨hexit, hstate, hevents⟩ := ih response.completion s'
        exact ⟨hexit, hstate, (Within.called request logged).append hevents⟩

/-! ### Traffic -/

/-- The calls and the leaks among some events. -/
def traffic (events : List Event) : List Event :=
  events.filter fun
    | .called _ _ | .logged (.leakedSearch _ _) => true
    | .logged _ => false

theorem traffic_called {reply : Reply} (request : Call reply) (events : List Event) :
    traffic (.called reply request :: events) = .called reply request :: traffic events := rfl

@[simp] theorem traffic_append (events events' : List Event) :
    traffic (events ++ events') = traffic events ++ traffic events' := List.filter_append ..

@[simp] theorem traffic_heard {γ : Type} (completion : Completion γ) :
    traffic (completion.heard.map .logged) = [] := by
  cases completion with
  | dropped => rfl
  | reported code payload =>
      rw [Completion.heard]
      split <;> rfl

@[simp] theorem traffic_unheard {γ : Type} (completion : Completion γ) :
    traffic (completion.unheard.map .logged) = [] := by
  cases completion <;> rfl

theorem calls_traffic (events : List Event) : calls (traffic events) = calls events := by
  induction events with
  | nil => rfl
  | cons event rest ih =>
      rw [← List.singleton_append, traffic_append, calls_append, calls_append, ih]
      rcases event with ⟨reply, request⟩ | message
      · rfl
      · cases message <;> rfl

/-- The traffic of an activity is that of its first part if nothing that follows has any. -/
theorem traffic_bind (p : Program α) {f : α → Program β}
    (h : ∀ a s, traffic ((f a).run store s).events = []) (s : σ) :
    traffic ((p >>= f).run store s).events = traffic (p.run store s).events := by
  rcases events_bind p f s with hevents | ⟨a, s', hevents⟩
  · rw [hevents]
  · rw [hevents, traffic_append, h, List.append_nil]

/-- A caller that leaves leaves its farewell behind. -/
theorem traffic_leaving (farewell : List Message) (p : Program α) : ∀ {s : σ},
    (p.run store s).exit = .left →
      ((p.leaving farewell).run store s).exit = .left ∧
      traffic ((p.leaving farewell).run store s).events =
        traffic (p.run store s).events ++ traffic (farewell.map .logged) := by
  induction p with
  | done a => exact fun h => nomatch h
  | leave earlier =>
      intro s _
      refine ⟨rfl, ?_⟩
      rw [leaving, run, run, List.map_append, traffic_append]
  | log m rest ih =>
      intro s h
      obtain ⟨hexit, htraffic⟩ := ih h
      refine ⟨hexit, ?_⟩
      show traffic ([.logged m] ++ ((rest.leaving farewell).run store s).events) =
        traffic ([.logged m] ++ (rest.run store s).events) ++ _
      rw [traffic_append, htraffic, traffic_append, List.append_assoc]
  | call reply request earlier resume ih =>
      intro s h
      rcases hr : store.respond s reply request with ⟨response, logged, s'⟩
      by_cases ha : response.arrival = .afterLeaving
      · rw [leaving, run_call_left hr ha, run_call_left hr ha]
        refine ⟨rfl, ?_⟩
        simp [traffic_called]
      · rw [run_call hr ha] at h
        rw [leaving, run_call hr ha, run_call hr ha]
        obtain ⟨hexit, htraffic⟩ := ih _ h
        refine ⟨hexit, ?_⟩
        show traffic (_ ++ _) = traffic (_ ++ _) ++ _
        rw [traffic_append, htraffic, traffic_append, List.append_assoc]

end Program

/-! ### The traffic of searches -/

namespace Client

open Program (Event traffic)

theorem traffic_bind (a : Attempt α) {f : α → Attempt β}
    (h : ∀ x s, traffic ((f x).run.run store s).events = []) (s : σ) :
    traffic ((a >>= f).run.run store s).events = traffic (a.run.run store s).events := by
  refine Program.traffic_bind a.run (fun result s => ?_) s
  cases result with
  | ok x => exact h x s
  | error e => rfl

theorem traffic_map (f : α → β) (a : Attempt α) (s : σ) :
    traffic ((f <$> a).run.run store s).events = traffic (a.run.run store s).events := by
  refine Program.traffic_bind a.run (fun result s => ?_) s
  cases result with
  | ok x | error e => rfl

/-- A call is all the traffic that it makes, whatever comes of it. -/
theorem traffic_invoke {reply : Reply} (request : Call reply) (s : σ) :
    traffic ((invoke request).run.run store.muted s).events = [.called reply request] := by
  show traffic (Program.run store.muted (Program.invoke request) s).events = _
  rcases hr : store.muted.respond s reply request with ⟨response, logged, s'⟩
  obtain rfl : logged = [] := (congrArg (fun r => r.2.1) hr).symm
  by_cases ha : response.arrival = .afterLeaving
  · rw [Program.invoke, Program.run_call_left hr ha]
    simp [Program.traffic_called]
  · rw [Program.invoke, Program.run_call hr ha, Program.run_logAll]
    simp [Program.Run.after, Program.traffic_called]

theorem traffic_closeSearch (search : SearchHandle) (s : σ) :
    traffic ((closeSearch search).run.run store.muted s).events =
      [.called .nothing (.closeSearch search)] :=
  (traffic_bind _ (fun _ _ => rfl) s).trans (traffic_invoke _ s)

namespace Cursor

variable {c : Cursor}

/-- An event is a fetch from a cursor. -/
def IsFetch (c : Cursor) (event : Event) : Prop :=
  ∃ count, event = .called .text (.fetchNextRecords c.wallet c.handle count)

/-- Events that bring a cursor to its end: fetches from it, and then either the closing call or a
leak. -/
def Ended (c : Cursor) (events : List Event) : Prop :=
  ∃ fetches ending, events = fetches ++ [ending] ∧ (∀ event ∈ fetches, c.IsFetch event) ∧
    (ending = .called .nothing (.closeSearch c.handle) ∨ ending = .logged c.leak)

theorem Ended.after {fetches events : List Event} (hfetches : ∀ event ∈ fetches, c.IsFetch event)
    (h : c.Ended events) : c.Ended (fetches ++ events) := by
  obtain ⟨fetches', ending, rfl, hfetches', hending⟩ := h
  refine ⟨fetches ++ fetches', ending, (List.append_assoc ..).symm, fun event hmem => ?_, hending⟩
  exact (List.mem_append.mp hmem).elim (hfetches event) (hfetches' event)

theorem ended_close : c.Ended [.called .nothing (.closeSearch c.handle)] :=
  ⟨[], _, rfl, List.forall_mem_nil _, .inl rfl⟩

theorem ended_leak : c.Ended [.logged c.leak] := ⟨[], _, rfl, List.forall_mem_nil _, .inr rfl⟩

theorem traffic_leaks {γ : Type} (f : γ → Cursor) (l : List γ) :
    traffic (l.map fun x => .logged (f x).leak) = l.map fun x => .logged (f x).leak := by
  refine List.filter_eq_self.mpr fun event hmem => ?_
  obtain ⟨x, -, rfl⟩ := List.mem_map.mp hmem
  rfl

theorem traffic_openOn (wallet : WalletHandle) (type : String) (e : Expression)
    (options : SearchOptions) (s : σ) :
    traffic ((openOn wallet type e options).run.run store.muted s).events =
      [.called .search (.openSearch wallet type (Filter.compile e).encode options.encode)] := by
  refine (traffic_bind (openSearch wallet type (.compile e) options) (fun _ _ => rfl) s).trans ?_
  exact (traffic_bind _ (fun _ _ => rfl) s).trans (traffic_invoke _ s)

/-- A cursor that is opened has what it was opened with. -/
theorem openOn_finished {wallet : WalletHandle} {type : String} {e : Expression}
    {options : SearchOptions} {s : σ}
    (h : ((openOn wallet type e options).run.run store s).exit = .finished (.ok c)) :
    ∃ search, c = ⟨wallet, search, type, .compile e, options⟩ := by
  obtain ⟨search, s', hexit⟩ := exit_bind_ok h
  cases hexit
  exact ⟨search, rfl⟩

theorem traffic_fetch (count : UInt64) (s : σ) :
    ∀ event ∈ traffic ((c.fetch count).run.run store.muted s).events, c.IsFetch event := by
  rw [fetch, fetchNextRecords]
  by_cases hc : count = 0
  · rw [if_pos hc]
    exact List.forall_mem_nil _
  · have hquiet : ∀ (payload : String) (s : σ),
        traffic ((received (Batch.decode payload)).run.run store.muted s).events = [] := by
      intro payload s
      cases Batch.decode payload with
      | ok b | error e => rfl
    have htraffic : traffic ((invoke (.fetchNextRecords c.wallet c.handle count) >>= fun payload =>
        received (Batch.decode payload)).run.run store.muted s).events = _ :=
      (traffic_bind _ hquiet s).trans (traffic_invoke _ s)
    rw [if_neg hc]
    intro event hmem
    obtain rfl := List.mem_singleton.mp (htraffic ▸ hmem)
    exact ⟨count, rfl⟩

/-- Draining a cursor makes fetches only. -/
theorem traffic_drain (count : UInt64) (patience : Nat) : ∀ (done : Collected) (s : σ),
    ∀ event ∈ traffic ((c.drain count patience done).run.run store.muted s).events,
      c.IsFetch event := by
  induction patience with
  | zero => exact fun _ _ => List.forall_mem_nil _
  | succ patience ih =>
      intro done s event hmem
      rw [drain] at hmem
      rcases events_bind (c.fetch count) _ s with hevents | ⟨b, s', hevents⟩
      · rw [hevents] at hmem
        exact traffic_fetch count s event hmem
      · rw [hevents, Program.traffic_append] at hmem
        rcases List.mem_append.mp hmem with hmem | hmem
        · exact traffic_fetch count s event hmem
        · split at hmem
          · contradiction
          · exact ih _ _ event hmem

/-- **Collecting fetches from a cursor and brings it to its end.**  A caller that leaves while pages
are being fetched leaks it; once the closing call has been made it makes no difference whether the
caller stays. -/
theorem ended_collectAll (count : UInt64) (patience : Nat) (s : σ) :
    c.Ended (traffic ((c.collectAll count patience).run.run store.muted s).events) := by
  have hfetches : ∀ event ∈ traffic ((c.drain count patience {}).run.run store.muted s).events,
      c.IsFetch event := traffic_drain count patience {} s
  show c.Ended (traffic (Program.run store.muted (Program.leaving [c.leak] _ >>= _) s).events)
  rw [Program.run_bind]
  cases hexit : ((c.drain count patience {}).run.run store.muted s).exit with
  | left =>
      obtain ⟨hleft, htraffic⟩ := Program.traffic_leaving [c.leak] _ hexit
      rw [Program.Run.andThen, hleft]
      show c.Ended (traffic (Program.run store.muted (Program.leaving _ _) s).events)
      rw [htraffic]
      exact ended_leak.after hfetches
  | finished drained =>
      have hstays : (Program.leaving [c.leak] (c.drain count patience {}).run).run store.muted s =
          (c.drain count patience {}).run.run store.muted s :=
        Program.run_leaving _ _ (by rw [hexit]; nofun)
      rw [hstays, Program.Run.andThen, hexit]
      show c.Ended (traffic (_ ++ (Program.run store.muted (c.close.run >>= _) _).events))
      rw [Program.traffic_append, Program.traffic_bind, close, traffic_closeSearch]
      · exact ended_close.after hfetches
      · -- what follows the closing call only sorts the results
        intro closed s
        cases drained <;> cases closed <;> rfl

end Cursor

end Client

end TaggedRecords
