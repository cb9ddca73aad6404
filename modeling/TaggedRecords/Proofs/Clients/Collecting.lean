import TaggedRecords.Client.Records
import TaggedRecords.Proofs.Payloads
import TaggedRecords.Proofs.Programs
import TaggedRecords.Store.Scripted

/-!
# Clients — collecting from any store

Nothing is known of the store here but how it settles the calls that are made (`Store.Settles`),
and the caller waits for each of them.  What a store does in answer to fetches in a row
(`Cursor.Fetches`) says nothing of a loop; that the caller stops at the first answer that is a
failure or brings no records, and what it makes of the answers up to there, is `Cursor.Collects`.

**Whatever the store does, collecting fetches up to the answer that ends it, then closes the search,
once and last** (`Client.collectAll_closes`).  The loop is an induction on the pages that bring
records (`Cursor.run_drain_fetches`).
-/

namespace TaggedRecords

open Program (calls)

variable {σ : Type} {store : Store σ} {s s' s'' : σ}

/-- The store settles a call while its caller waits: with an outcome, and going into a state. -/
def Store.Settles (store : Store σ) (s : σ) {reply : Reply} (request : Call reply)
    (outcome : Except Failure reply.Payload) (s' : σ) : Prop :=
  ∃ response logged, store.respond s reply request = (response, logged, s') ∧
    response.arrival ≠ .afterLeaving ∧ response.completion.outcome = outcome

namespace Client

/-! ### Single calls -/

theorem run_invoke_settles {reply : Reply} {request : Call reply}
    {outcome : Except Failure reply.Payload} (h : store.Settles s request outcome s') :
    ∃ events, (invoke request).run.run store s = ⟨.finished outcome, s', events⟩ ∧
      calls events = [⟨reply, request⟩] := by
  obtain ⟨response, logged, hrespond, harrival, rfl⟩ := h
  refine ⟨.called reply request :: logged.map .logged ++ response.completion.heard.map .logged,
    ?_, ?_⟩
  · show Program.run store (Program.invoke request) s = _
    rw [Program.invoke, Program.run_call hrespond harrival, Program.run_logAll]
    rfl
  · rw [Program.calls_append, Program.calls_called, Program.calls_logged, Program.calls_logged]
    rfl

/-- What the payload of a fetch comes to: the batch that it holds, or that it cannot be read. -/
def brought (payload : Except Failure String) : Except Failure Batch :=
  payload.bind fun text => (Batch.decode text).mapError fun e => .decoding e.message

theorem run_fetch_settles {wallet : WalletHandle} {search : SearchHandle} {count : UInt64}
    {payload : Except Failure String} (hc : count ≠ 0)
    (h : store.Settles s (.fetchNextRecords wallet search count) payload s') :
    ∃ events, (fetchNextRecords wallet search count).run.run store s =
        ⟨.finished (brought payload), s', events⟩ ∧
      calls events = [⟨.text, .fetchNextRecords wallet search count⟩] := by
  obtain ⟨events, hrun, hcalls⟩ := run_invoke_settles h
  refine ⟨events, ?_, hcalls⟩
  rw [fetchNextRecords, if_neg hc]
  cases payload with
  | error e => exact run_bind_error hrun _
  | ok text =>
      refine (run_bind_ok hrun _).trans ?_
      rw [brought, Except.bind]
      cases Batch.decode text with
      | ok b | error e => exact Program.Run.after_silent _ _ _

theorem run_close_settles {search : SearchHandle} {closed : Except Failure Unit}
    (h : store.Settles s (.closeSearch search) closed s') :
    ∃ events, (closeSearch search).run.run store s = ⟨.finished closed, s', events⟩ ∧
      calls events = [⟨.nothing, .closeSearch search⟩] := by
  obtain ⟨events, hrun, hcalls⟩ := run_invoke_settles h
  cases closed with
  | error e => exact ⟨events, run_bind_error hrun _, hcalls⟩
  | ok u =>
      refine ⟨events ++ [.logged (.closedSearch search)], (run_bind_ok hrun _).trans rfl, ?_⟩
      rw [Program.calls_append, hcalls]
      rfl

/-! ### Fetches in a row -/

namespace Cursor

/-- What several fetches in a row bring, and the state of the store after them. -/
inductive Fetches (c : Cursor) (store : Store σ) (count : UInt64) :
    σ → List (Except Failure Batch) → σ → Prop where
  | nil (s : σ) : c.Fetches store count s [] s
  | cons {s s' s'' : σ} {payload : Except Failure String} {answers : List (Except Failure Batch)}
      (h : store.Settles s (.fetchNextRecords c.wallet c.handle count) payload s')
      (rest : c.Fetches store count s' answers s'') :
      c.Fetches store count s (brought payload :: answers) s''

/-- The answer to a fetch is a failure, or brings no records. -/
def Ends (answer : Except Failure Batch) : Prop := ∀ b, answer = .ok b → b.page = []

/-- What comes of collecting: from the batches with records, the answer that ends them, and the
answer to the closing call. -/
def collected (pages : List Batch) (last : Except Failure Batch) (closed : Except Failure Unit) :
    Except Failure Batch := do
  let b ← last
  closed
  return ⟨((pages ++ [b]).filterMap Batch.totalCount).getLast?,
    some ((pages ++ [b]).flatMap Batch.page)⟩

/-- What a store makes of collecting: the number of fetches, the result, and its state afterwards.
The first answer that is a failure or brings no records is the last one. -/
inductive Collects (c : Cursor) (store : Store σ) (count : UInt64) (s : σ) :
    Nat → Except Failure Batch → σ → Prop where
  | unfetched {closed : Except Failure Unit} {s' : σ} (hc : count = 0)
      (hclose : store.Settles s (.closeSearch c.handle) closed s') :
      c.Collects store count s 0 (.error (.common (.invalidParameter 4))) s'
  | fetched {pages : List Batch} {last : Except Failure Batch} {closed : Except Failure Unit}
      {s' s'' : σ} (hc : count ≠ 0)
      (hfetch : c.Fetches store count s (pages.map .ok ++ [last]) s')
      (hpages : ∀ b ∈ pages, b.page ≠ []) (hlast : Ends last)
      (hclose : store.Settles s' (.closeSearch c.handle) closed s'') :
      c.Collects store count s (pages.length + 1) (collected pages last closed) s''

variable {c : Cursor} {count : UInt64}

/-- What has been collected after several pages. -/
theorem foldl_add (pages : List Batch) (done : Collected) :
    pages.foldl Collected.add done =
      ⟨(pages.filterMap Batch.totalCount).getLast? <|> done.totalCount,
        done.records ++ pages.flatMap Batch.page⟩ := by
  induction pages generalizing done with
  | nil => simp
  | cons b rest ih =>
      rw [List.foldl_cons, ih, Collected.add, List.flatMap_cons, List.append_assoc]
      congr 1
      cases hb : b.totalCount with
      | none => rw [List.filterMap_cons_none hb]; rfl
      | some n =>
          rw [List.filterMap_cons_some hb, List.getLast?_cons]
          cases (rest.filterMap Batch.totalCount).getLast? <;> rfl

theorem toBatch_foldl_add (pages : List Batch) : (pages.foldl Collected.add {}).toBatch =
    ⟨(pages.filterMap Batch.totalCount).getLast?, some (pages.flatMap Batch.page)⟩ := by
  rw [foldl_add, Collected.toBatch]
  cases (pages.filterMap Batch.totalCount).getLast? <;> rfl

/-- The first of several fetches, and the others. -/
theorem Fetches.of_cons {answer : Except Failure Batch} {answers : List (Except Failure Batch)}
    (h : c.Fetches store count s (answer :: answers) s'') : ∃ payload s', answer = brought payload ∧
      store.Settles s (.fetchNextRecords c.wallet c.handle count) payload s' ∧
      c.Fetches store count s' answers s'' := by
  cases h with
  | cons h rest => exact ⟨_, _, rfl, h, rest⟩

theorem Fetches.of_nil (h : c.Fetches store count s [] s') : s' = s := by
  cases h
  rfl

/-- **Where one of several fetches ends the loop there is a first one that does.** -/
theorem Fetches.first_end {answers : List (Except Failure Batch)}
    (h : c.Fetches store count s answers s') (hend : ∃ answer ∈ answers, Ends answer) :
    ∃ (pages : List Batch) (last : Except Failure Batch) (s₁ : σ),
      c.Fetches store count s (pages.map .ok ++ [last]) s₁ ∧
      (∀ b ∈ pages, b.page ≠ []) ∧ Ends last := by
  induction h with
  | nil s =>
      obtain ⟨_, hmem, -⟩ := hend
      contradiction
  | @cons s s' s'' payload answers hsettles rest ih =>
      by_cases hfirst : Ends (brought payload)
      · exact ⟨[], brought payload, s', .cons hsettles (.nil s'), nofun, hfirst⟩
      · -- the first answer brings records, so it is one of the others that ends the loop
        have hothers : ∃ answer ∈ answers, Ends answer := by
          obtain ⟨answer, hmem, hanswer⟩ := hend
          rcases List.mem_cons.mp hmem with rfl | hmem
          · exact absurd hanswer hfirst
          · exact ⟨answer, hmem, hanswer⟩
        obtain ⟨pages, last, s₁, hfetches, hpages, hlast⟩ := ih hothers
        obtain ⟨b, hb⟩ := Classical.not_forall.mp hfirst
        obtain ⟨hok, hne⟩ := Classical.not_imp.mp hb
        refine ⟨b :: pages, last, s₁, ?_, ?_, hlast⟩
        · rw [List.map_cons, ← hok]
          exact .cons hsettles hfetches
        · rintro b' hb'
          rcases List.mem_cons.mp hb' with rfl | hb'
          · exact hne
          · exact hpages b' hb'

/-- Collecting comes to an end if some fetch does and the closing call is settled. -/
theorem collects_of_ends {answers : List (Except Failure Batch)}
    (hend : count = 0 ∨ c.Fetches store count s answers s' ∧ ∃ answer ∈ answers, Ends answer)
    (hclose : ∀ s, ∃ closed s', store.Settles s (.closeSearch c.handle) closed s') :
    ∃ n result s'', c.Collects store count s n result s'' := by
  by_cases hc : count = 0
  · obtain ⟨closed, s', hsettles⟩ := hclose s
    exact ⟨_, _, s', .unfetched hc hsettles⟩
  · obtain ⟨h, hanswer⟩ := hend.resolve_left hc
    obtain ⟨pages, last, s₁, hfetches, hpages, hlast⟩ := h.first_end hanswer
    obtain ⟨closed, s₂, hsettles⟩ := hclose s₁
    exact ⟨_, _, s₂, .fetched hc hfetches hpages hlast hsettles⟩

/-- **Draining fetches up to the first answer that is a failure or brings no records.** -/
theorem run_drain_fetches {pages : List Batch} {last : Except Failure Batch} {patience : Nat}
    (done : Collected) (hc : count ≠ 0)
    (h : c.Fetches store count s (pages.map .ok ++ [last]) s')
    (hpages : ∀ b ∈ pages, b.page ≠ []) (hlast : Ends last) (hp : pages.length < patience) :
    ∃ events, (c.drain count patience done).run.run store s =
        ⟨.finished (last.map fun b => ((pages ++ [b]).foldl Collected.add done).toBatch), s',
          events⟩ ∧
      calls events =
        List.replicate (pages.length + 1) ⟨.text, .fetchNextRecords c.wallet c.handle count⟩ := by
  induction pages generalizing s done patience with
  | nil =>
      obtain ⟨patience, rfl⟩ := Nat.exists_eq_succ_of_ne_zero (Nat.ne_of_gt hp)
      obtain ⟨payload, s₁, rfl, hsettles, hrest⟩ := h.of_cons
      obtain rfl := hrest.of_nil
      obtain ⟨events, hrun, hcalls⟩ := run_fetch_settles hc hsettles
      refine ⟨events, ?_, hcalls⟩
      cases hb : brought payload with
      | error e =>
          rw [hb] at hrun
          exact run_bind_error hrun _
      | ok b =>
          rw [hb] at hrun
          refine (run_bind_ok hrun _).trans ?_
          rw [hlast b hb, if_pos List.isEmpty_nil]
          exact Program.Run.after_silent _ _ _
  | cons b rest ih =>
      obtain ⟨patience, rfl⟩ := Nat.exists_eq_succ_of_ne_zero (Nat.ne_of_gt (Nat.zero_lt_of_lt hp))
      obtain ⟨payload, s₁, hb, hsettles, hrest⟩ := h.of_cons
      obtain ⟨events, hrun, hcalls⟩ := run_fetch_settles hc hsettles
      rw [← hb] at hrun
      have hmore : ¬ b.page.isEmpty = true := fun hempty =>
        hpages b List.mem_cons_self (List.isEmpty_iff.mp hempty)
      obtain ⟨events', hrun', hcalls'⟩ := ih (done.add b) hrest
        (fun b' hb' => hpages b' (List.mem_cons_of_mem _ hb')) (Nat.lt_of_succ_lt_succ hp)
      refine ⟨events ++ events', (run_bind_ok hrun _).trans ?_, ?_⟩
      · rw [if_neg hmore, hrun']
        rfl
      · rw [Program.calls_append, hcalls, hcalls']
        rfl

/-- **Collecting fetches as often as is needed, then closes the search once.** -/
theorem run_collectAll_collects {n patience : Nat} {result : Except Failure Batch}
    (h : c.Collects store count s n result s') (hp : n ≤ patience) (hpos : 0 < patience) :
    ∃ events, (c.collectAll count patience).run.run store s = ⟨.finished result, s', events⟩ ∧
      calls events = List.replicate n ⟨.text, .fetchNextRecords c.wallet c.handle count⟩ ++
        [⟨.nothing, .closeSearch c.handle⟩] := by
  cases h with
  | unfetched hc hclose =>
      subst hc
      obtain ⟨patience, rfl⟩ := Nat.exists_eq_succ_of_ne_zero (Nat.ne_of_gt hpos)
      obtain ⟨events, hrun, hcalls⟩ := run_close_settles hclose
      have hdrain : (c.drain 0 (patience + 1) {}).run.run store s =
          ⟨.finished (.error (.common (.invalidParameter 4))), s, []⟩ := rfl
      refine ⟨_, run_collectAll_closing hdrain hrun, ?_⟩
      rw [Program.calls_append, Program.calls_append, hcalls, Program.calls_logged]
      rfl
  | @fetched pages last closed s₁ s₂ hc hfetch hpages hlast hclose =>
      obtain ⟨events, hrun, hcalls⟩ := run_drain_fetches {} hc hfetch hpages hlast hp
      obtain ⟨events', hrun', hcalls'⟩ := run_close_settles hclose
      have hcollected : ((last.map fun b => ((pages ++ [b]).foldl Collected.add {}).toBatch).bind
          fun b => closed.map fun _ => b) = collected pages last closed := by
        cases last with
        | error e => rfl
        | ok b =>
            cases closed with
            | error e => rfl
            | ok u => exact congrArg Except.ok (toBatch_foldl_add (pages ++ [b]))
      refine ⟨_, (run_collectAll_closing hrun hrun').trans (by rw [hcollected]), ?_⟩
      rw [Program.calls_append, Program.calls_append, hcalls, hcalls', Program.calls_logged]
      rfl

end Cursor

/-! ### Searching to the end -/

theorem run_openOn_settles {wallet : WalletHandle} {type : String} {e : Expression}
    {o : SearchOptions} {opened : Except Failure SearchHandle}
    (h : store.Settles s (.openSearch wallet type (Filter.compile e).encode o.encode) opened s') :
    ∃ events, (Cursor.openOn wallet type e o).run.run store s =
        ⟨.finished (opened.map fun search => ⟨wallet, search, type, Filter.compile e, o⟩), s',
          events⟩ ∧
      calls events = [⟨.search, .openSearch wallet type (Filter.compile e).encode o.encode⟩] := by
  obtain ⟨events, hrun, hcalls⟩ := run_invoke_settles h
  cases opened with
  | error failure => exact ⟨events, run_bind_error (run_bind_error hrun _) _, hcalls⟩
  | ok search =>
      have hopen : (openSearch wallet type (Filter.compile e) o).run.run store s =
          ⟨.finished (.ok search), s', events ++
            [.logged (.openedSearch search type (Filter.compile e).encode)]⟩ :=
        run_bind_ok hrun _
      refine ⟨_, (run_bind_ok hopen _).trans (Program.Run.after_silent _ _ _), ?_⟩
      rw [Program.calls_append, hcalls]
      rfl

/-- **Collecting from any store is done right and always closes the search.**  If one of the fetches
in a row ends the loop and the closing call is settled, collecting comes to a result.  It fetches
from the cursor's search until an answer is a failure or brings no records, and not at all with a
batch size of zero; then it closes the search, by one call, which is the last one.  A search to the
end opens a search first; if this fails nothing else is called. -/
theorem collectAll_closes (store : Store σ) :
    (∀ (c : Cursor) (count : UInt64) (s s' : σ) (answers : List (Except Failure Batch)),
      count = 0 ∨ c.Fetches store count s answers s' ∧ (∃ answer ∈ answers, Cursor.Ends answer) →
      (∀ s, ∃ closed s', store.Settles s (.closeSearch c.handle) closed s') →
        ∃ n result s'', c.Collects store count s n result s'') ∧
    (∀ (c : Cursor) (count : UInt64) (s s' : σ) (n : Nat) (result : Except Failure Batch),
      c.Collects store count s n result s' → ∀ patience, max n 1 ≤ patience →
        ∃ events, (c.collectAll count patience).run.run store s = ⟨.finished result, s', events⟩ ∧
          calls events = List.replicate n ⟨.text, .fetchNextRecords c.wallet c.handle count⟩ ++
            [⟨.nothing, .closeSearch c.handle⟩]) ∧
    (∀ (r : Records) (type : String) (e : Expression) (o : SearchOptions) (s s' : σ)
        (failure : Failure),
      store.Settles s (.openSearch r.wallet type (Filter.compile e).encode o.encode)
          (.error failure) s' → ∀ patience,
        ∃ events, (r.searchAll type e o patience).run.run store s =
            ⟨.finished (.error failure), s', events⟩ ∧
          calls events =
            [⟨.search, .openSearch r.wallet type (Filter.compile e).encode o.encode⟩]) ∧
    (∀ (r : Records) (type : String) (e : Expression) (o : SearchOptions) (s s' s'' : σ)
        (search : SearchHandle) (n : Nat) (result : Except Failure Batch),
      store.Settles s (.openSearch r.wallet type (Filter.compile e).encode o.encode)
          (.ok search) s' →
      Cursor.Collects ⟨r.wallet, search, type, Filter.compile e, o⟩ store r.config.batchSize s' n
          result s'' → ∀ patience, max n 1 ≤ patience →
        ∃ events, (r.searchAll type e o patience).run.run store s =
            ⟨.finished result, s'', events⟩ ∧
          calls events =
            ⟨.search, .openSearch r.wallet type (Filter.compile e).encode o.encode⟩ ::
              List.replicate n ⟨.text, .fetchNextRecords r.wallet search r.config.batchSize⟩ ++
            [⟨.nothing, .closeSearch search⟩]) := by
  refine ⟨fun c count s s' answers hend hclose => Cursor.collects_of_ends hend hclose,
    fun c count s s' n result h patience hp => ?_,
    fun r type e o s s' failure h patience => ?_,
    fun r type e o s s' s'' search n result hopen h patience hp => ?_⟩
  · exact Cursor.run_collectAll_collects h (Nat.le_trans (Nat.le_max_left n 1) hp)
      (Nat.le_trans (Nat.le_max_right n 1) hp)
  · obtain ⟨events, hrun, hcalls⟩ := run_openOn_settles h
    exact ⟨events, run_bind_error hrun _, hcalls⟩
  · obtain ⟨events, hrun, hcalls⟩ := run_openOn_settles hopen
    obtain ⟨events', hrun', hcalls'⟩ := Cursor.run_collectAll_collects h
      (Nat.le_trans (Nat.le_max_left n 1) hp) (Nat.le_trans (Nat.le_max_right n 1) hp)
    refine ⟨events ++ events', (run_bind_ok hrun _).trans ?_, ?_⟩
    · show Program.Run.after events (Program.run store (Cursor.collectAll _ _ _).run s') = _
      rw [hrun']
      rfl
    · rw [Program.calls_append, hcalls, hcalls']
      rfl

/-- A search is opened, brings one record and then none, with other totals, and is closed. -/
def oneRecordScript : List Scripted.Line :=
  [⟨.succeed (.number 7), .duringCall⟩,
    ⟨.succeed (.text (Batch.encode ⟨some 3, some [⟨"id", none, none, none⟩]⟩)), .whileWaiting⟩,
    ⟨.succeed (.text (Batch.encode ⟨some 2, none⟩)), .duringCall⟩, ⟨.finish 0, .duringCall⟩]

theorem brought_encode (b : Batch) : brought (.ok b.encode) = .ok b := by
  rw [brought, Except.bind, Batch.decode_encode]
  rfl

theorem collectAll_closes_script :
    ∃ events, (Records.searchAll ⟨⟨1⟩, ⟨5⟩⟩ "type" .always ⟨true, true, true, true, true⟩
        2).run.run Scripted.store oneRecordScript =
      ⟨.finished (.ok ⟨some 2, some [⟨"id", none, none, none⟩]⟩), [], events⟩ ∧
    calls events =
      [⟨.search, .openSearch ⟨1⟩ "type" (Filter.compile .always).encode
          (SearchOptions.encode ⟨true, true, true, true, true⟩)⟩,
        ⟨.text, .fetchNextRecords ⟨1⟩ ⟨7⟩ 5⟩, ⟨.text, .fetchNextRecords ⟨1⟩ ⟨7⟩ 5⟩,
        ⟨.nothing, .closeSearch ⟨7⟩⟩] := by
  have hsettles : ∀ (line : Scripted.Line) (rest : List Scripted.Line) {reply : Reply}
      (request : Call reply), line.arrival ≠ .afterLeaving →
      Scripted.store.Settles (line :: rest) request (line.settlement.completion reply).outcome
        rest := fun line rest _ request h => ⟨_, _, rfl, h, rfl⟩
  have hfetches : (⟨⟨1⟩, ⟨7⟩, "type", Filter.compile .always, ⟨true, true, true, true, true⟩⟩ :
      Cursor).Fetches Scripted.store 5 oneRecordScript.tail
        ([⟨some 3, some [⟨"id", none, none, none⟩]⟩].map .ok ++ [.ok ⟨some 2, none⟩])
        [⟨.finish 0, .duringCall⟩] := by
    rw [← brought_encode ⟨some 2, none⟩, List.map_singleton, ← brought_encode]
    exact .cons (hsettles _ _ _ (by decide)) (.cons (hsettles _ _ _ (by decide)) (.nil _))
  obtain ⟨-, -, -, hsearch⟩ := collectAll_closes Scripted.store
  exact hsearch _ "type" .always _ oneRecordScript _ [] ⟨7⟩ 2 _ (hsettles _ _ _ (by decide))
    (.fetched (by decide) hfetches (by simp [Batch.page]) (by rintro _ ⟨⟩; rfl)
      (hsettles _ _ _ (by decide))) 2 (by decide)

end Client

end TaggedRecords
