import TaggedRecords.Proofs.Clients.Sessions
import TaggedRecords.Store.Scripted

/-!
# Clients — how cursors end

Cursors are told apart by the number of the move that opened them, for a store may give one handle
to several searches.  The `ledger` of a run lists its events, each with the number of the move whose
cursor it concerns, and the `share` of a number is the traffic that is listed under it.  **The share
of a cursor is its opening, then fetches, then one ending**: a closing call or a leak
(`Client.closed_or_leaked`).

A move changes only the share of its own number and, at most, of the one cursor that it is about
(`Session.Does.own`, `Session.Does.keeps`, `Session.Does.lacks`).  By induction on the moves that
follow, a cursor that is kept comes to its end (`Book.ended_share_run`), and a number without a
cursor stays without one (`Book.share_run_lacks`).
-/

namespace TaggedRecords.Client

open Program (Event Within calls traffic)
open Session (Does)

variable {σ : Type} {store : Store σ}

/-! ### Whose event an event is -/

section Owners

variable {kept kept' : SortedMap String Cursor} {move : Move} {answer : Answer Outcome}
  {events : List Event} {opener : String → Nat} {made number : Nat}

/-- The number of the move that opened the cursor that an event concerns, where `made` is the number
of the move that is being made, and `opener` says by which move the cursor of a name was opened.  In
the midst of an opening a leak is that of the cursor that is replaced. -/
def owner (opener : String → Nat) (made : Nat) : Move → Event → Nat
  | .openAs name .., .logged (.leakedSearch _ _) => opener name
  | .openAs .., _ => made
  | .fetch name _, _ | .close name, _ | .collect name _, _ | .giveUp name, _ => opener name

/-- By which moves the cursors were opened after a move has been made. -/
def openerAfter (opener : String → Nat) (made : Nat) (move : Move) (answer : Answer Outcome)
    (name : String) : Nat :=
  if answer.opens = true ∧ name = move.name then made else opener name

theorem openerAfter_new {name : String} (h : answer.opens = true ∧ name = move.name) :
    openerAfter opener made move answer name = made := if_pos h

theorem openerAfter_old {name : String} (h : ¬ (answer.opens = true ∧ name = move.name)) :
    openerAfter opener made move answer name = opener name := if_neg h

/-- The events that concern the cursor of a number. -/
def ownedBy (opener : String → Nat) (made : Nat) (move : Move) (number : Nat)
    (events : List Event) : List Event :=
  events.filter fun event => owner opener made move event == number

theorem owner_of_opening (h : move.opening = []) (event : Event) :
    owner opener made move event = opener move.name := by
  cases move with
  | openAs => contradiction
  | fetch | close | collect | giveUp => rfl

theorem ownedBy_self (h : move.opening = []) :
    ownedBy opener made move (opener move.name) events = events := by
  refine List.filter_eq_self.mpr fun event _ => ?_
  rw [owner_of_opening h]
  exact beq_self_eq_true _

theorem ownedBy_other (h : move.opening = []) (hne : opener move.name ≠ number) :
    ownedBy opener made move number events = [] := by
  refine List.filter_eq_nil_iff.mpr fun event _ => ?_
  rw [owner_of_opening h]
  exact mt beq_iff_eq.mp hne

theorem ownedBy_opening (hne : made ≠ number) :
    ownedBy opener made move number move.opening = [] := by
  cases move with
  | openAs name wallet type e options =>
      exact List.filter_cons_of_neg (mt beq_iff_eq.mp hne)
  | fetch | close | collect | giveUp => rfl

theorem ownedBy_opening_self : ownedBy opener made move made move.opening = move.opening := by
  cases move with
  | openAs name wallet type e options =>
      exact List.filter_cons_of_pos (beq_self_eq_true made)
  | fetch | close | collect | giveUp => rfl

theorem ownedBy_append (events events' : List Event) :
    ownedBy opener made move number (events ++ events') =
      ownedBy opener made move number events ++ ownedBy opener made move number events' :=
  List.filter_append ..

/-- The leak of a cursor that is replaced is its own. -/
theorem ownedBy_leakOf_self (name : String) (wallet : WalletHandle) (type : String)
    (e : Expression) (options : SearchOptions) (cursor : Option Cursor) :
    ownedBy opener made (.openAs name wallet type e options) (opener name)
      (Session.leakOf cursor) = Session.leakOf cursor := by
  cases cursor with
  | none => rfl
  | some c => exact List.filter_cons_of_pos (beq_self_eq_true _)

theorem ownedBy_leakOf (name : String) (wallet : WalletHandle) (type : String) (e : Expression)
    (options : SearchOptions) {cursor : Option Cursor}
    (h : ∀ c, cursor = some c → opener name ≠ number) :
    ownedBy opener made (.openAs name wallet type e options) number
      (Session.leakOf cursor) = [] := by
  cases cursor with
  | none => rfl
  | some c => exact List.filter_cons_of_neg (mt beq_iff_eq.mp (h c rfl))

/-- A move keeps a cursor that was kept before, or one that it has opened. -/
theorem Session.Does.kept_before (h : Does kept move answer kept' events) {name : String}
    {c : Cursor} (hc : kept'.get? name = some c)
    (hold : ¬ (answer.opens = true ∧ name = move.name)) : kept.get? name = some c := by
  cases h with
  | opened name' wallet type e options search =>
      have hne : name ≠ name' := fun hname => hold ⟨rfl, hname⟩
      rw [SortedMap.get?_insert, if_neg hne] at hc
      exact hc
  | unopened | fetched => exact hc
  | ended =>
      rw [SortedMap.get?_erase] at hc
      split at hc
      · contradiction
      · exact hc

/-- What a move does to a number that no cursor has: nothing. -/
theorem Session.Does.lacks (h : Does kept move answer kept' events) (hmade : made ≠ number)
    (hlacks : ∀ name c, kept.get? name = some c → opener name ≠ number) :
    ownedBy opener made move number events = [] ∧
      ∀ name c, kept'.get? name = some c → openerAfter opener made move answer name ≠ number := by
  constructor
  · cases h with
    | opened name wallet type e options search =>
        rw [ownedBy_append, ownedBy_opening hmade, ownedBy_leakOf name wallet type e options]
        · rfl
        · exact hlacks name
    | unopened => exact ownedBy_opening hmade
    | fetched hmove _ hname | ended hmove _ hname => exact ownedBy_other hmove (hlacks _ _ hname)
  · intro name c hc
    by_cases hnew : answer.opens = true ∧ name = move.name
    · rw [openerAfter_new hnew]
      exact hmade
    · rw [openerAfter_old hnew]
      exact hlacks name c (h.kept_before hc hnew)

/-- A move about one cursor leaves the others alone. -/
theorem Session.Does.spares {name : String} {c : Cursor} (h : Does kept move answer kept' events)
    (hname : kept.get? name = some c) (hmade : opener name ≠ made) (hne : name ≠ move.name)
    (hother : ∀ c', kept.get? move.name = some c' → opener move.name ≠ opener name) :
    ownedBy opener made move (opener name) events = [] ∧ kept'.get? name = some c := by
  cases h with
  | opened name' wallet type e options search =>
      change ∀ c', kept.get? name' = some c' → opener name' ≠ opener name at hother
      rw [ownedBy_append, ownedBy_opening hmade.symm,
        ownedBy_leakOf name' wallet type e options hother, SortedMap.get?_insert]
      exact ⟨rfl, (if_neg hne).trans hname⟩
  | unopened => exact ⟨ownedBy_opening hmade.symm, hname⟩
  | fetched hmove _ hc => exact ⟨ownedBy_other hmove (hother _ hc), hname⟩
  | ended hmove _ hc =>
      rw [ownedBy_other hmove (hother _ hc), SortedMap.get?_erase]
      exact ⟨rfl, (if_neg hne).trans hname⟩

/-- **What a move does to a kept cursor**: it fetches from it, or it ends it. -/
theorem Session.Does.keeps {name : String} {c : Cursor} (h : Does kept move answer kept' events)
    (hname : kept.get? name = some c) (hmade : opener name ≠ made)
    (hinj : ∀ name' c', kept.get? name' = some c' → opener name' = opener name → name' = name) :
    ((∀ event ∈ ownedBy opener made move (opener name) events, c.IsFetch event) ∧
        kept'.get? name = some c ∧ openerAfter opener made move answer name = opener name) ∨
      (c.Ended (ownedBy opener made move (opener name) events) ∧
        ∀ name' c', kept'.get? name' = some c' →
          openerAfter opener made move answer name' ≠ opener name) := by
  -- a name that is free, or has been given to a new cursor, leaves nothing of the old one
  have hgone : (∀ c', kept'.get? name = some c' → answer.opens = true ∧ name = move.name) →
      ∀ name' c', kept'.get? name' = some c' →
        openerAfter opener made move answer name' ≠ opener name := by
    intro hold name' c' hname'
    by_cases hnew : answer.opens = true ∧ name' = move.name
    · rw [openerAfter_new hnew]
      exact hmade.symm
    · rw [openerAfter_old hnew]
      intro he
      obtain rfl := hinj name' c' (h.kept_before hname' hnew) he
      exact hnew (hold c' hname')
  by_cases hsame : name = move.name
  · subst hsame
    cases h with
    | opened name wallet type e options search =>
        refine .inr ⟨?_, hgone fun _ _ => ⟨rfl, rfl⟩⟩
        rw [ownedBy_append, ownedBy_opening hmade.symm, List.nil_append]
        change kept.get? name = some c at hname
        show c.Ended (ownedBy _ _ _ (opener name) (leakOf (kept.get? name)))
        rw [ownedBy_leakOf_self, hname]
        exact Cursor.ended_leak
    | unopened hopens =>
        rw [ownedBy_opening hmade.symm]
        exact .inl ⟨List.forall_mem_nil _, hname, openerAfter_old (by simp [hopens])⟩
    | fetched hmove hopens hc hfetches =>
        obtain rfl := Option.some.inj (hname.symm.trans hc)
        rw [ownedBy_self hmove]
        exact .inl ⟨hfetches, hname, openerAfter_old (by simp [hopens])⟩
    | ended hmove _ hc hended =>
        obtain rfl := Option.some.inj (hname.symm.trans hc)
        rw [ownedBy_self hmove]
        refine .inr ⟨hended, hgone fun c' hc' => ?_⟩
        rw [SortedMap.get?_erase, if_pos rfl] at hc'
        contradiction
  · obtain ⟨hnone, hkept⟩ := h.spares hname hmade hsame fun c' hc' he =>
      hsame (hinj _ c' hc' he).symm
    rw [hnone]
    exact .inl ⟨List.forall_mem_nil _, hkept, openerAfter_old fun hnew => hsame hnew.2⟩

/-- **What a move does under its own number**: it makes the opening call. -/
theorem Session.Does.own (h : Does kept move answer kept' events)
    (hmade : ∀ name c, kept.get? name = some c → opener name ≠ made) :
    ownedBy opener made move made events = move.opening := by
  cases h with
  | opened name wallet type e options search =>
      rw [ownedBy_append, ownedBy_opening_self,
        ownedBy_leakOf name wallet type e options (hmade name), List.append_nil]
  | unopened => exact ownedBy_opening_self
  | fetched hmove _ hname | ended hmove _ hname =>
      rw [ownedBy_other hmove (hmade _ _ hname), hmove]

/-- A move that opens no cursor leaves none with its number. -/
theorem Session.Does.own_lacks (h : Does kept move answer kept' events)
    (hopens : answer.opens = false)
    (hmade : ∀ name c, kept.get? name = some c → opener name ≠ made) :
    ∀ name c, kept'.get? name = some c → openerAfter opener made move answer name ≠ made := by
  intro name c hname
  have hold : ¬ (answer.opens = true ∧ name = move.name) := by simp [hopens]
  rw [openerAfter_old hold]
  exact hmade name c (h.kept_before hname hold)

/-- A cursor that is opened is kept under the name that was given. -/
theorem Session.Does.get?_opened {name : String} {wallet : WalletHandle} {type : String}
    {e : Expression} {options : SearchOptions} {search : SearchHandle}
    (h : Does kept (.openAs name wallet type e options) (.ok (.opened search)) kept' events) :
    kept'.get? name = some ⟨wallet, search, type, .compile e, options⟩ := by
  cases h with
  | opened => rw [SortedMap.get?_insert, if_pos rfl]
  | unopened hopens => contradiction
  | fetched hmove | ended hmove => contradiction

/-- An opening that fails leaves the cursors as they are. -/
theorem Session.Does.kept_eq (h : Does kept move answer kept' events)
    (hmove : move.opening ≠ []) (hopens : answer.opens = false) : kept' = kept := by
  cases h with
  | opened => contradiction
  | unopened | fetched => rfl
  | ended hnone => exact absurd hnone hmove

end Owners

/-! ### The ledger -/

/-- A session that is accounted for: how many moves have been made, and by which of them the cursor
of a name was opened. -/
structure Book (σ : Type) where
  session : Session σ
  opener : String → Nat
  made : Nat

namespace Book

/-- The account of a session without cursors. -/
def start (state : σ) : Book σ := ⟨.start state, fun _ => 0, 0⟩

/-- The account after a move. -/
def next (store : Store σ) (b : Book σ) (move : Move) : Book σ :=
  let step := b.session.step store move
  ⟨step.session, openerAfter b.opener b.made move step.answer, b.made + 1⟩

/-- The account after some moves. -/
def after (store : Store σ) (b : Book σ) (moves : List Move) : Book σ := moves.foldl (next store) b

/-- The events of a move, but for what the store logs, each with its owner. -/
def entries (store : Store σ) (b : Book σ) (move : Move) : List (Nat × Event) :=
  (b.session.step store.muted move).events.map fun event =>
    (owner b.opener b.made move event, event)

/-- The leaks of the cursors that are left, each with its owner. -/
def closing (b : Book σ) : List (Nat × Event) :=
  b.session.cursors.entries.map fun e => (b.opener e.1, .logged e.2.leak)

/-- The events of a run, but for what the store logs, each with its owner. -/
def run (store : Store σ) : Book σ → List Move → List (Nat × Event)
  | b, [] => b.closing
  | b, move :: moves => b.entries store move ++ run store (b.next store move) moves

end Book

/-- The ledger of a run: its events, but for what the store logs, each with the number of the move
that opened the cursor it concerns. -/
def ledger (store : Store σ) (state : σ) (moves : List Move) : List (Nat × Event) :=
  (Book.start state).run store moves

/-- The traffic under a number. -/
def share (number : Nat) (entries : List (Nat × Event)) : List Event :=
  traffic ((entries.filter (·.1 == number)).map (·.2))

theorem share_append (number : Nat) (l l' : List (Nat × Event)) :
    share number (l ++ l') = share number l ++ share number l' := by
  rw [share, List.filter_append, List.map_append, Program.traffic_append]
  rfl

namespace Book

variable {b : Book σ} {number : Nat} {c : Cursor}

theorem share_entries (move : Move) : share number (b.entries store move) =
    ownedBy b.opener b.made move number (traffic (b.session.step store.muted move).events) := by
  have hown : ((b.entries store move).filter (·.1 == number)).map (·.2) =
      ownedBy b.opener b.made move number (b.session.step store.muted move).events := by
    rw [entries, List.filter_map, List.map_map]
    exact List.map_id _
  rw [share, hown, traffic, ownedBy, List.filter_filter, traffic, ownedBy, List.filter_filter]
  exact List.filter_congr fun _ _ => Bool.and_comm ..

theorem share_closing : share number b.closing =
    (b.session.cursors.entries.filter (b.opener ·.1 == number)).map (.logged ·.2.leak) := by
  rw [share, closing, List.filter_map, List.map_map]
  exact Cursor.traffic_leaks Prod.snd _

/-- The cursors that are kept were opened by different moves, and by moves that have been made. -/
structure Sound (b : Book σ) : Prop where
  opener_lt : ∀ {name c}, b.session.cursors.get? name = some c → b.opener name < b.made
  name_eq : ∀ {name name' c c'}, b.session.cursors.get? name = some c →
    b.session.cursors.get? name' = some c' → b.opener name = b.opener name' → name = name'

theorem sound_start (state : σ) : (start state).Sound where
  opener_lt h := nomatch h
  name_eq h := nomatch h

theorem Sound.next (hb : b.Sound) (move : Move) : (b.next store move).Sound where
  opener_lt {name c} h := by
    have hdoes := b.session.does_step store move
    show openerAfter _ _ _ _ _ < b.made + 1
    by_cases hnew : (b.session.step store move).answer.opens = true ∧ name = move.name
    · rw [openerAfter_new hnew]
      exact Nat.lt_succ_self _
    · rw [openerAfter_old hnew]
      exact Nat.lt_succ_of_lt (hb.opener_lt (hdoes.kept_before h hnew))
  name_eq {name name' c c'} h h' he := by
    have hdoes := b.session.does_step store move
    change openerAfter _ _ _ _ _ = openerAfter _ _ _ _ _ at he
    by_cases hnew : (b.session.step store move).answer.opens = true ∧ name = move.name
    · by_cases hnew' : (b.session.step store move).answer.opens = true ∧ name' = move.name
      · exact hnew.2.trans hnew'.2.symm
      · rw [openerAfter_new hnew, openerAfter_old hnew'] at he
        exact absurd he (Nat.ne_of_gt (hb.opener_lt (hdoes.kept_before h' hnew')))
    · have hname := hdoes.kept_before h hnew
      by_cases hnew' : (b.session.step store move).answer.opens = true ∧ name' = move.name
      · rw [openerAfter_old hnew, openerAfter_new hnew'] at he
        exact absurd he (Nat.ne_of_lt (hb.opener_lt hname))
      · rw [openerAfter_old hnew, openerAfter_old hnew'] at he
        exact hb.name_eq hname (hdoes.kept_before h' hnew') he

theorem Sound.after (hb : b.Sound) (moves : List Move) : (b.after store moves).Sound := by
  induction moves generalizing b with
  | nil => exact hb
  | cons move moves ih => exact ih (hb.next move)

/-- A number that no kept cursor has, and none will have, has no share in what follows. -/
theorem share_run_lacks {moves : List Move}
    (hlacks : ∀ name c, b.session.cursors.get? name = some c → b.opener name ≠ number)
    (hnumber : number < b.made ∨ b.made + moves.length ≤ number) :
    share number (b.run store moves) = [] := by
  induction moves generalizing b with
  | nil =>
      rw [run, share_closing]
      refine List.map_eq_nil_iff.mpr (List.filter_eq_nil_iff.mpr fun e he => ?_)
      exact mt beq_iff_eq.mp (hlacks e.1 e.2 (SortedMap.mem_entries.mp he))
  | cons move moves ih =>
      rw [List.length_cons] at hnumber
      have hmade : b.made ≠ number := by omega
      obtain ⟨hshare, hnext⟩ := (b.session.does_step store move).lacks hmade hlacks
      rw [run, share_append, share_entries, hshare, List.nil_append]
      refine ih hnext ?_
      show number < b.made + 1 ∨ b.made + 1 + moves.length ≤ number
      omega

/-- **What follows brings a kept cursor to its end.** -/
theorem ended_share_run {moves : List Move} {name : String} (hb : b.Sound)
    (hname : b.session.cursors.get? name = some c) :
    c.Ended (share (b.opener name) (b.run store moves)) := by
  induction moves generalizing b with
  | nil =>
      have hentries : b.session.cursors.entries.filter (b.opener ·.1 == b.opener name) =
          (b.session.cursors.filter fun name' _ => name' == name).entries := by
        refine List.filter_congr fun e he => ?_
        rw [Bool.eq_iff_iff, beq_iff_eq, beq_iff_eq]
        exact ⟨hb.name_eq (SortedMap.mem_entries.mp he) hname, congrArg _⟩
      rw [run, share_closing, hentries, SortedMap.filter_key hname]
      exact Cursor.ended_leak
  | cons move moves ih =>
      have hmade := hb.opener_lt hname
      rw [run, share_append, share_entries]
      rcases (b.session.does_step store move).keeps hname (Nat.ne_of_lt hmade)
        fun name' c' hname' he => hb.name_eq hname' hname he with
        ⟨hfetches, hkept, hopener⟩ | ⟨hended, hgone⟩
      · refine .after hfetches ?_
        have hrest := ih (hb.next move) hkept
        rwa [show (b.next store move).opener name = b.opener name from hopener] at hrest
      · rw [share_run_lacks hgone (.inl (Nat.lt_succ_of_lt hmade)), List.append_nil]
        exact hended

theorem made_after (moves : List Move) : (b.after store moves).made = b.made + moves.length := by
  induction moves generalizing b with
  | nil => rfl
  | cons move moves ih =>
      refine ih.trans ?_
      show b.made + 1 + moves.length = b.made + (moves.length + 1)
      omega

/-- The moves before one have nothing to do with its number. -/
theorem share_run_append (hb : b.Sound) (moves rest : List Move) :
    share (b.after store moves).made (b.run store (moves ++ rest)) =
      share (b.after store moves).made ((b.after store moves).run store rest) := by
  induction moves generalizing b with
  | nil => rfl
  | cons move moves ih =>
      have hlt : b.made < (b.after store (move :: moves)).made := by
        rw [made_after, List.length_cons]
        omega
      obtain ⟨hshare, -⟩ := (b.session.does_step store move).lacks (Nat.ne_of_lt hlt)
        fun name c hname => Nat.ne_of_lt (Nat.lt_trans (hb.opener_lt hname) hlt)
      rw [List.cons_append, run, share_append, share_entries, hshare, List.nil_append]
      exact ih (hb.next move)

theorem session_after (moves : List Move) :
    (b.after store moves).session = b.session.after store moves := by
  induction moves generalizing b with
  | nil => rfl
  | cons move moves ih => exact ih

theorem Sound.opener_ne (hb : b.Sound) (name : String) (c : Cursor)
    (h : b.session.cursors.get? name = some c) : b.opener name ≠ b.made :=
  Nat.ne_of_lt (hb.opener_lt h)

theorem share_run_cons (hb : b.Sound) (move : Move) (moves : List Move) :
    share b.made (b.run store (move :: moves)) =
      move.opening ++ share b.made ((b.next store move).run store moves) := by
  rw [run, share_append, share_entries, (b.session.does_step store move).own hb.opener_ne]

/-- **The share of a cursor that is opened**: the opening call, and then what ends it. -/
theorem share_opened {name : String} {wallet : WalletHandle} {type : String} {e : Expression}
    {options : SearchOptions} {search : SearchHandle} (hb : b.Sound)
    (h : (b.session.step store (.openAs name wallet type e options)).answer = .ok (.opened search))
    (moves : List Move) :
    ∃ events, share b.made (b.run store (.openAs name wallet type e options :: moves)) =
        (Move.openAs name wallet type e options).opening ++ events ∧
      Cursor.Ended ⟨wallet, search, type, .compile e, options⟩ events := by
  have hdoes := b.session.does_step store (.openAs name wallet type e options)
  have hopener : (b.next store (.openAs name wallet type e options)).opener name = b.made := by
    exact openerAfter_new ⟨congrArg Answer.opens h, rfl⟩
  rw [h] at hdoes
  refine ⟨_, share_run_cons hb _ _, ?_⟩
  rw [← hopener]
  exact ended_share_run (hb.next _) hdoes.get?_opened

/-- The share of a move that opens no cursor: the opening call, if there is one. -/
theorem share_unopened {move : Move} (hb : b.Sound)
    (h : (b.session.step store move).answer.opens = false) (moves : List Move) :
    share b.made (b.run store (move :: moves)) = move.opening := by
  have hlacks := (b.session.does_step store move).own_lacks h hb.opener_ne
  rw [share_run_cons hb, share_run_lacks hlacks (.inl (Nat.lt_succ_self _)), List.append_nil]

theorem map_entries (move : Move) :
    (b.entries store move).map (·.2) = (b.session.step store.muted move).events := by
  rw [entries, List.map_map]
  exact List.map_id _

theorem map_closing : b.closing.map (·.2) = b.session.finish := by
  rw [closing, List.map_map, Session.finish]
  exact List.map_eq_flatMap ..

/-- The ledger has the events of the run against the muted store. -/
theorem map_run (moves : List Move) :
    (b.run store moves).map (·.2) = b.session.events store.muted moves := by
  induction moves generalizing b with
  | nil => exact map_closing
  | cons move moves ih =>
      obtain ⟨-, hsession, -⟩ := Session.step_muted store b.session move
      rw [run, List.map_append, map_entries, ih, Session.events, hsession]
      rfl

end Book

/-- The share of a move in the ledger is what the account of the moves before it says. -/
theorem share_ledger (state : σ) (before rest : List Move) :
    share before.length (ledger store state (before ++ rest)) =
      share ((Book.start state).after store before).made
        (((Book.start state).after store before).run store rest) := by
  have hmade : ((Book.start state).after store before).made = before.length :=
    (Book.made_after before).trans (Nat.zero_add _)
  rw [← hmade]
  exact Book.share_run_append (Book.sound_start state) before rest

/-- **Every cursor that is opened is closed once or leaked once.**  The ledger has the events of the
run, all calls among them, but for what the store logs.  Of a move that opens a cursor it tells the
opening call, fetches from the search, and at last one ending, which is the closing call of that
search or a leak of it; there is no call after that one.  Of a move that opens none it tells the
opening call if that was made, and no leak, and the cursors stay as they are; nothing is told of
moves that are not made.  Only closing and collecting make closing calls, and altogether as many
cursors are opened as are closed or leaked. -/
theorem closed_or_leaked (store : Store σ) (state : σ) :
    (∀ moves,
      (ledger store state moves).map (·.2) = (Session.start state).events store.muted moves ∧
      Within ((Session.start state).events store.muted moves)
        ((Session.start state).events store moves)) ∧
    (∀ before later name wallet type e options search,
      (((Session.start state).after store before).step store
        (.openAs name wallet type e options)).answer = .ok (.opened search) →
      ∃ fetches ending,
        share before.length
            (ledger store state (before ++ .openAs name wallet type e options :: later)) =
          .called .search (.openSearch wallet type (Filter.compile e).encode options.encode) ::
            fetches ++ [ending] ∧
        (∀ event ∈ fetches,
          ∃ count, event = .called .text (.fetchNextRecords wallet search count)) ∧
        (ending = .called .nothing (.closeSearch search) ∨
          ending = .logged (.leakedSearch search type))) ∧
    (∀ before later move,
      (((Session.start state).after store before).step store move).answer.opens = false →
      share before.length (ledger store state (before ++ move :: later)) = move.opening ∧
      (move.opening ≠ [] →
        (((Session.start state).after store before).step store move).session.cursors =
          ((Session.start state).after store before).cursors)) ∧
    (∀ moves number, moves.length ≤ number → share number (ledger store state moves) = []) ∧
    (∀ (s : Session σ) (move : Move), move.closes = false →
      closings (s.step store move).events = 0) ∧
    (∀ moves, (Session.start state).openings store moves =
      closings ((Session.start state).events store moves) +
        leaks ((Session.start state).events store.muted moves)) := by
  refine ⟨fun moves => ⟨Book.map_run moves, Session.events_muted store _ moves⟩,
    fun before later name wallet type e options search h => ?_, fun before later move h => ?_,
    fun moves number h => ?_, fun s move h => s.closings_step h, fun moves => ?_⟩
  · have hsession : ((Book.start state).after store before).session = _ :=
      Book.session_after before
    obtain ⟨events, hshare, fetches, ending, rfl, hfetches, hending⟩ :=
      Book.share_opened ((Book.sound_start state).after before) (hsession ▸ h) later
    refine ⟨fetches, ending, ?_, hfetches, hending⟩
    rw [share_ledger, hshare]
    rfl
  · have hsession : ((Book.start state).after store before).session = _ :=
      Book.session_after before
    refine ⟨?_, fun hmove => (Session.does_step store _ move).kept_eq hmove h⟩
    rw [share_ledger]
    exact Book.share_unopened ((Book.sound_start state).after before) (hsession ▸ h) later
  · refine Book.share_run_lacks (fun name c hname => nomatch hname) (.inr ?_)
    show 0 + moves.length ≤ number
    omega
  · have hbalance := (Session.start state).balance store moves
    rw [closings, (Session.events_muted store _ moves).calls_eq] at hbalance
    exact (Nat.zero_add _).symm.trans hbalance

/-- An opening under a name. -/
def openingAs (name : String) : Move :=
  .openAs name ⟨1⟩ "type" .always ⟨true, true, true, true, true⟩

/-- A cursor is opened, then another one under another name, and then one that takes the place of
the first one and is closed. -/
def replacement : List Move := [openingAs "a", openingAs "b", openingAs "a", .close "a"]

/-- The second opening is given up while the store is waited for, and closing fails. -/
def replacementScript : List Scripted.Line :=
  [⟨.succeed (.number 7), .duringCall⟩, ⟨.succeed (.number 8), .afterLeaving⟩,
    ⟨.succeed (.number 9), .whileWaiting⟩, ⟨.fail 212, .duringCall⟩]

theorem closed_or_leaked_replacement :
    (∃ fetches ending, share 0 (ledger Scripted.store replacementScript replacement) =
        (openingAs "a").opening ++ fetches ++ [ending] ∧
      (ending = .called .nothing (.closeSearch ⟨7⟩) ∨
        ending = .logged (.leakedSearch ⟨7⟩ "type"))) ∧
    share 1 (ledger Scripted.store replacementScript replacement) = (openingAs "b").opening ∧
    share 4 (ledger Scripted.store replacementScript replacement) = [] ∧
    closings ((Session.start replacementScript).step Scripted.store (openingAs "a")).events = 0 ∧
    closings ((Session.start replacementScript).events Scripted.store replacement) +
      leaks ((Session.start replacementScript).events Scripted.store.muted replacement) = 2 := by
  obtain ⟨-, hopened, hunopened, hlast, hclosings, hbalance⟩ :=
    closed_or_leaked Scripted.store replacementScript
  refine ⟨?_, ?_, hlast replacement 4 (by decide), hclosings _ _ rfl, (hbalance replacement).symm⟩
  · obtain ⟨fetches, ending, hshare, -, hending⟩ :=
      hopened [] [openingAs "b", openingAs "a", .close "a"] "a" ⟨1⟩ "type" .always
        ⟨true, true, true, true, true⟩ ⟨7⟩ rfl
    exact ⟨fetches, ending, hshare, hending⟩
  · exact (hunopened [openingAs "a"] [openingAs "a", .close "a"] (openingAs "b") rfl).1

end TaggedRecords.Client
