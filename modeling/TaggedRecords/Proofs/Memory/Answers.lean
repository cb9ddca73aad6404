import TaggedRecords.Client.Records
import TaggedRecords.Proofs.Payloads
import TaggedRecords.Proofs.Programs
import TaggedRecords.Proofs.Memory.Operations

/-!
# Memories — what clients hear of them

A memory either does what a call asks for or refuses it, in one of five ways and without any
change (`Memory.settled_perform`).  Each of the five is told by its code, so **a client that makes
a call gets the very result of the operation** (`Memory.run_invoke`).
-/

namespace TaggedRecords

/-- A failure that is told by a code other than that of success. -/
def Failure.Told (e : Failure) : Prop := ∃ c, e.code? = some c ∧ c ≠ 0 ∧ ofCode c = e

namespace Completion

variable {α : Type}

theorem outcome_resolve {result : Except Failure α} (h : ∀ e, result = .error e → e.Told) :
    (resolve result).outcome = result ∧ (resolve result).heard = [] := by
  cases result with
  | ok payload => exact ⟨rfl, rfl⟩
  | error e =>
      obtain ⟨c, hc, hne, he⟩ := h e rfl
      rw [resolve, hc]
      refine ⟨?_, ?_⟩
      · rw [Option.getD_some, fail, outcome, if_pos hne, he]
      · rw [Option.getD_some, fail, heard, if_neg fun h => hne h.1]

end Completion

namespace Memory

variable {m : Memory} {α β : Type}

/-! ### Failures of a memory -/

/-- The ways in which a call of a memory fails. -/
inductive Fails : Failure → Prop where
  | payload : Fails (.common .invalidStructure)
  | query : Fails (.wallet .queryError)
  | handle : Fails (.wallet .invalidHandle)
  | present : Fails (.wallet .itemAlreadyExists)
  | absent : Fails (.wallet .itemNotFound)

theorem Fails.told {e : Failure} (h : Fails e) : e.Told := by
  cases h with
  | payload | query | handle | present | absent => exact ⟨_, rfl, by decide, by decide⟩

/-- The operation has succeeded, or it has been refused and left the memory as it was. -/
inductive Settled (m : Memory) : Answer α → Prop where
  | ok (a : α) (m' : Memory) (log : List Log.Message) : Settled m ⟨.ok a, m', log⟩
  | refused {e : Failure} (h : Fails e) (log : List Log.Message) : Settled m (m.refuse e log)

theorem Settled.withPayload {payload : Except Json.Error β} {go : β → Answer α}
    (h : ∀ b, m.Settled (go b)) : m.Settled (m.withPayload payload go) := by
  cases payload with
  | ok b => exact h b
  | error e => exact .refused .payload _

theorem fails_collections {wallet : WalletHandle} {e : Failure}
    (h : m.collections wallet = .error e) : Fails e := by
  rw [collections] at h
  split at h
  · contradiction
  · exact Except.error.inj h ▸ .handle

theorem fails_record {wallet : WalletHandle} {type id : String} {e : Failure}
    (h : m.record wallet type id = .error e) : Fails e := by
  rw [record] at h
  cases hc : m.collections wallet with
  | error e' =>
      rw [hc] at h
      exact Except.error.inj h ▸ fails_collections hc
  | ok c =>
      cases hf : find? c type id with
      | none =>
          simp only [hc, hf, bind, Except.bind] at h
          exact Except.error.inj h ▸ .absent
      | some r => simp [hc, hf, bind, Except.bind] at h

theorem settled_update (wallet : WalletHandle) (type id : String)
    (change : StoredRecord → StoredRecord) : m.Settled (m.update wallet type id change) := by
  rw [update]
  split
  · rename_i e he
    exact .refused (fails_collections he) _
  · split
    · exact .refused .absent _
    · exact .ok _ _ _

/-- **A call is done or refused, and what is refused changes nothing.** -/
theorem settled_perform (m : Memory) : ∀ {reply : Reply} (request : Call reply),
    m.Settled (m.perform reply request)
  | _, .addRecord wallet type id value tags => .withPayload fun _ => by
      split
      · rename_i e he
        exact .refused (fails_collections he) _
      · split
        · exact .refused .present _
        · exact .ok _ _ _
  | _, .updateRecordValue wallet type id value => settled_update wallet type id _
  | _, .updateRecordTags wallet type id _ | _, .addRecordTags wallet type id _
  | _, .deleteRecordTags wallet type id _ => .withPayload fun _ => settled_update wallet type id _
  | _, .deleteRecord wallet type id => by
      rw [perform, delete]
      split
      · rename_i e he
        exact .refused (fails_collections he) _
      · split
        · exact .refused .absent _
        · exact .ok _ _ _
  | _, .getRecord wallet type id options => .withPayload fun _ => by
      split
      · rename_i e he
        exact .refused (fails_record he) _
      · exact .ok _ _ _
  | _, .openSearch wallet type query options => by
      rw [perform, openSearch]
      split
      · exact .refused .query _
      · refine .withPayload fun o => ?_
        split
        · rename_i e he
          exact .refused (fails_collections he) _
        · exact .ok _ _ _
  | _, .fetchNextRecords wallet search count => by
      rw [perform, fetch]
      split
      · exact .refused .handle _
      · exact .ok _ _ _
  | _, .closeSearch search => by
      rw [perform, closeSearch]
      split
      · exact .ok _ _ _
      · exact .refused .handle _

theorem Settled.told {answer : Answer α} (h : m.Settled answer) {e : Failure}
    (he : answer.result = .error e) : e.Told := by
  cases h with
  | ok => contradiction
  | refused hf _ => exact Except.error.inj he ▸ hf.told

theorem Settled.memory_eq {answer : Answer α} (h : m.Settled answer) {e : Failure}
    (he : answer.result = .error e) : answer.memory = m := by
  cases h with
  | ok => contradiction
  | refused => rfl

/-- **The completion of a call tells the result of the operation.** -/
theorem outcome_respond (m : Memory) {reply : Reply} (request : Call reply) :
    (store.respond m reply request).1.completion.outcome = (m.perform reply request).result :=
  (Completion.outcome_resolve fun _ => (settled_perform m request).told).1

/-! ### Calls of a client -/

/-- What a client observes of an operation: the call and what the memory logged meanwhile. -/
def observed (m : Memory) {reply : Reply} (request : Call reply) : List Program.Event :=
  .called reply request :: (m.perform reply request).log.map .logged

/-- **A client that makes a call gets the result of the operation.** -/
theorem run_invoke (m : Memory) {reply : Reply} (request : Call reply) :
    (Client.invoke request).run.run store m =
      ⟨.finished (m.perform reply request).result, (m.perform reply request).memory,
        m.observed request⟩ := by
  obtain ⟨hout, hheard⟩ := Completion.outcome_resolve fun _ => (settled_perform m request).told
  have hr : store.respond m reply request =
      (⟨.resolve (m.perform reply request).result, .duringCall⟩, (m.perform reply request).log,
        (m.perform reply request).memory) := rfl
  show Program.run store (Program.invoke request) m = _
  rw [Program.invoke, Program.run_call hr Arrival.noConfusion, hheard, hout]
  exact Program.Run.after_silent _ _ _

end Memory

end TaggedRecords
