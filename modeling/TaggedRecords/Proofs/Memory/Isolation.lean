import TaggedRecords.Proofs.Memory.Tenants

/-!
# Memories — tenants do not notice each other

Several tenants act by turns on one memory (`Tenant.Shared`).  **What each of them is told, and what
becomes of its wallet and its searches, is the same as if it had been alone** (`Tenant.isolated`).

The shared memory is followed by that of the tenant alone (`Tenant.Follows`): an act of the tenant
is done in both, an act of another one in the shared memory only, and either way they stay alike to
the tenant.  The run is an induction on the trace (`Tenant.Follows.run`).
-/

namespace TaggedRecords.Tenant

/-! ### Sharing a memory -/

/-- A memory, and what each of its tenants has been told. -/
structure Shared (κ : Type) where
  memory : Memory
  told : κ → List Told

section

variable {κ : Type} [DecidableEq κ] (wallet : κ → WalletHandle)

namespace Shared

/-- A memory with tenants that have not done anything yet. -/
def start (m : Memory) : Shared κ := ⟨m, fun _ => []⟩

/-- An act of a tenant. -/
def step (s : Shared κ) (x : κ × Act) : Shared κ :=
  let (told, m) := act (wallet x.1) (s.told x.1) s.memory x.2
  ⟨m, fun k => if k = x.1 then s.told k ++ [told] else s.told k⟩

/-- Several acts in order. -/
def run (s : Shared κ) (trace : List (κ × Act)) : Shared κ := trace.foldl (step wallet) s

end Shared

/-- In a trace each tenant does what its program says, in order. -/
def Interleaves (programs : κ → List Act) (trace : List (κ × Act)) : Prop :=
  ∀ k, trace.filter (·.1 = k) = (programs k).map fun a => (k, a)

variable {wallet} {s s' : Shared κ} {k : κ}

/-- The memory of a tenant alone follows the one that it shares: they are alike to it, all tenants
of the shared one name searches of their own, and so does the one that is alone, with fewer numbers
taken. -/
structure Follows (wallet : κ → WalletHandle) (k : κ) (s s' : Shared κ) : Prop where
  alike : Alike (wallet k) (s.told k) s.memory (s'.told k) s'.memory
  owns : ∀ k, Owns (wallet k) (s.told k) s.memory
  owns_alone : Owns (wallet k) (s'.told k) s'.memory
  issued_le : s'.memory.issued ≤ s.memory.issued

theorem step_of_act {a : Act} {x : Told × Memory}
    (h : act (wallet k) (s.told k) s.memory a = x) : s.step wallet (k, a) =
      ⟨x.2, fun k' => if k' = k then s.told k' ++ [x.1] else s.told k'⟩ := by
  subst h
  rfl

/-- An act of a tenant is an effect on the memory that it shares. -/
theorem step_effect (s : Shared κ) (wallet : κ → WalletHandle) (k : κ) (a : Act) :
    ∃ e : Effect, s.step wallet (k, a) =
      ⟨(e.run (wallet k) (s.told k) s.memory).2, fun k' =>
        if k' = k then s.told k' ++ [(e.run (wallet k) (s.told k) s.memory).1] else s.told k'⟩ := by
  obtain ⟨e, he, -⟩ := (Alike.refl (wallet k) (s.told k) s.memory).act_eq a
  exact ⟨e, step_of_act he⟩

theorem issued_le_step (s : Shared κ) (x : κ × Act) :
    s.memory.issued ≤ (s.step wallet x).memory.issued := by
  obtain ⟨e, he⟩ := step_effect s wallet x.1 x.2
  rw [he]
  exact e.issued_le_run

theorem issued_le_run (trace : List (κ × Act)) (s : Shared κ) :
    s.memory.issued ≤ (s.run wallet trace).memory.issued := by
  induction trace generalizing s with
  | nil => exact Nat.le_refl _
  | cons x trace ih => exact Nat.le_trans (issued_le_step s x) (ih _)

/-- A trace takes one number for each act at most. -/
theorem issued_run_le (trace : List (κ × Act)) (s : Shared κ) :
    (s.run wallet trace).memory.issued ≤ s.memory.issued + trace.length := by
  induction trace generalizing s with
  | nil => exact Nat.le_refl _
  | cons x trace ih =>
      obtain ⟨e, he⟩ := step_effect s wallet x.1 x.2
      have hstep : (s.step wallet x).memory.issued ≤ s.memory.issued + 1 := by
        rw [he, e.issued_run]
        exact Nat.add_le_add_left e.taken_le_one _
      have hrest := ih (s.step wallet x)
      rw [List.length_cons]
      show ((s.step wallet x).run wallet trace).memory.issued ≤ _
      omega

/-- An effect of one tenant leaves all of them with searches of their own. -/
theorem owns_effect (hwallet : Function.Injective wallet)
    (h : ∀ k, Owns (wallet k) (s.told k) s.memory) (e : Effect)
    (hlast : (e.run (wallet k) (s.told k) s.memory).2.issued ≤ 0x7FFFFFFF) (k' : κ) :
    Owns (wallet k')
      (if k' = k then s.told k' ++ [(e.run (wallet k) (s.told k) s.memory).1] else s.told k')
      (e.run (wallet k) (s.told k) s.memory).2 := by
  split
  · rename_i hk
    subst hk
    exact (h _).run e hlast
  · rename_i hk
    exact (h k').spared e (h k) (fun heq => hk (hwallet heq)) hlast

/-- An act of the tenant itself, in both memories. -/
theorem Follows.own (h : Follows wallet k s s') (hwallet : Function.Injective wallet) (a : Act)
    (hlast : (s.step wallet (k, a)).memory.issued ≤ 0x7FFFFFFF) :
    Follows wallet k (s.step wallet (k, a)) (s'.step wallet (k, a)) := by
  obtain ⟨e, he, he'⟩ := h.alike.act_eq a
  rw [step_of_act he] at hlast ⊢
  rw [step_of_act he']
  -- the same effect takes as many numbers in both
  have hissued : (e.run (wallet k) (s'.told k) s'.memory).2.issued ≤
      (e.run (wallet k) (s.told k) s.memory).2.issued := by
    rw [e.issued_run, e.issued_run]
    exact Nat.add_le_add_right h.issued_le _
  have hlast' := Nat.le_trans hissued hlast
  refine ⟨?_, owns_effect hwallet h.owns e hlast, ?_, hissued⟩
  · dsimp only
    rw [if_pos rfl, if_pos rfl]
    exact h.alike.run e (h.owns k) h.owns_alone hlast hlast'
  · dsimp only
    rw [if_pos rfl]
    exact h.owns_alone.run e hlast'

/-- An act of another tenant, in the shared memory only. -/
theorem Follows.other (h : Follows wallet k s s') (hwallet : Function.Injective wallet) {k' : κ}
    (hk : k ≠ k') (a : Act) (hlast : (s.step wallet (k', a)).memory.issued ≤ 0x7FFFFFFF) :
    Follows wallet k (s.step wallet (k', a)) s' := by
  obtain ⟨e, he⟩ := step_effect s wallet k' a
  rw [he] at hlast ⊢
  refine ⟨?_, owns_effect hwallet h.owns e hlast, h.owns_alone,
    Nat.le_trans h.issued_le e.issued_le_run⟩
  dsimp only
  rw [if_neg hk]
  exact h.alike.spared e (h.owns k) (h.owns k') (fun heq => hk (hwallet heq)) hlast

theorem Follows.run (hwallet : Function.Injective wallet) (trace : List (κ × Act))
    (h : Follows wallet k s s') (hlast : (s.run wallet trace).memory.issued ≤ 0x7FFFFFFF) :
    Follows wallet k (s.run wallet trace) (s'.run wallet (trace.filter (·.1 = k))) := by
  induction trace generalizing s s' with
  | nil => exact h
  | cons x trace ih =>
      obtain ⟨k', a⟩ := x
      have hstep := Nat.le_trans (issued_le_run trace (s.step wallet (k', a))) hlast
      by_cases hk : k' = k
      · subst hk
        rw [List.filter_cons, if_pos (decide_eq_true rfl)]
        exact ih (h.own hwallet a hstep) hlast
      · rw [List.filter_cons, if_neg fun heq => hk (of_decide_eq_true heq)]
        exact ih (h.other hwallet (Ne.symm hk) a hstep) hlast

/-- **Tenants do not notice each other.**  Let tenants with different wallets do what their programs
say in a memory that they share, in any order and without using up the numbers of 32 bits.  Then
each of them is told the same as if it had been alone, up to the numbers of new handles, and in the
end its wallet has the same records and its searches have the same left to hand out. -/
theorem isolated (hwallet : Function.Injective wallet) (m : Memory) {programs : κ → List Act}
    {trace : List (κ × Act)} (htrace : Interleaves programs trace)
    (hlast : ((Shared.start m).run wallet trace).memory.issued ≤ 0x7FFFFFFF) (k : κ) :
    Alike (wallet k)
      (((Shared.start m).run wallet trace).told k) ((Shared.start m).run wallet trace).memory
      (((Shared.start m).run wallet ((programs k).map fun a => (k, a))).told k)
      ((Shared.start m).run wallet ((programs k).map fun a => (k, a))).memory := by
  have hstart : Follows wallet k (Shared.start m) (Shared.start m) :=
    ⟨.refl _ _ _, fun _ => owns_nil _ _, owns_nil _ _, Nat.le_refl _⟩
  have hrun := hstart.run hwallet trace hlast
  rw [htrace k] at hrun
  exact hrun.alike

end

/-! ### Two tenants -/

/-- Two wallets are opened, with records of the same type and ids. -/
def twoWallets : Memory :=
  Memory.empty.afterAll
    [.openWallet, .openWallet, .call (.addRecord ⟨1⟩ "type" "a" "one" "\x7b\x7d"),
      .call (.addRecord ⟨2⟩ "type" "a" "other" "\x7b\x7d"),
      .call (.addRecord ⟨1⟩ "type" "b" "two" "\x7b\x7d")]

/-- The records of the first one. -/
def firstRecords : Collections :=
  .ofList [("type", .ofList [("a", ⟨"one", .empty⟩), ("b", ⟨"two", .empty⟩)])]

/-- The records of the second one. -/
def secondRecords : Collections := .ofList [("type", .ofList [("a", ⟨"other", .empty⟩)])]

/-- One of the two wallets. -/
def oneOfTwo (first : Bool) : WalletHandle := if first then ⟨1⟩ else ⟨2⟩

/-- All records of a type are searched. -/
def searchAll : Act :=
  .openSearch "type" (Filter.compile .always).encode Memory.onlyValues.encode

theorem step_searchAll (s : Shared Bool) (k : Bool) (c : Collections)
    (hw : s.memory.wallets.get? (oneOfTwo k) = some c) :
    s.step oneOfTwo (k, searchAll) =
      ⟨s.memory.withSearch ⟨oneOfTwo k, (Memory.select c "type" (.all []) Memory.onlyValues).length,
          Memory.select c "type" (.all []) Memory.onlyValues, Memory.onlyValues⟩,
        fun k' => if k' = k then s.told k' ++ [.opened (.ok ⟨s.memory.nextNumber⟩)]
          else s.told k'⟩ := by
  have hopen : s.memory.openSearch (oneOfTwo k) "type" _ _ = _ :=
    Memory.openSearch_eq hw Query.decode_always (SearchOptions.decode_encode Memory.onlyValues)
  have hact : act (oneOfTwo k) (s.told k) s.memory searchAll = _ :=
    congrArg (telling .opened) hopen
  exact step_of_act hact

/-- Each of two tenants searches its wallet; the first one fetches a record, the second one deletes
its record and closes its wallet. -/
def searching : Bool → List Act
  | true => [searchAll, .fetch 0 1]
  | false => [searchAll, .delete "type" "a", .closeWallet]

/-- The tenants act by turns, and the second one comes first. -/
def byTurns : List (Bool × Act) :=
  [(false, searchAll), (true, searchAll), (false, .delete "type" "a"), (true, .fetch 0 1),
    (false, .closeWallet)]

/-- The search of the first tenant has another number than it would have alone, and is the same. -/
theorem isolated_twoWallets :
    twoWallets.Reachable ∧ Interleaves searching byTurns ∧
    named (((Shared.start twoWallets).run oneOfTwo byTurns).told true) 0 = some ⟨4⟩ ∧
    named (((Shared.start twoWallets).run oneOfTwo
      ((searching true).map fun a => (true, a))).told true) 0 = some ⟨3⟩ ∧
    search? ((Shared.start twoWallets).run oneOfTwo byTurns).memory
      (((Shared.start twoWallets).run oneOfTwo byTurns).told true) 0 =
        some (some ⟨⟨1⟩, 2, [⟨"b", none, some "two", none⟩], Memory.onlyValues⟩) ∧
    Alike ⟨1⟩
      (((Shared.start twoWallets).run oneOfTwo byTurns).told true)
      ((Shared.start twoWallets).run oneOfTwo byTurns).memory
      (((Shared.start twoWallets).run oneOfTwo ((searching true).map fun a => (true, a))).told true)
      ((Shared.start twoWallets).run oneOfTwo
        ((searching true).map fun a => (true, a))).memory := by
  have hwallet : Function.Injective oneOfTwo := by
    intro a b
    cases a <;> cases b <;> decide
  have htrace : Interleaves searching byTurns := by
    intro k
    cases k <;> rfl
  have hlast : ((Shared.start twoWallets).run oneOfTwo byTurns).memory.issued ≤ 0x7FFFFFFF :=
    Nat.le_trans (issued_run_le _ _) (by decide)
  have halike := isolated hwallet twoWallets htrace hlast true
  have hone : twoWallets.wallets.get? (oneOfTwo true) = some firstRecords := by decide
  have hother : twoWallets.wallets.get? (oneOfTwo false) = some secondRecords := by decide
  -- what is left of the search is found out in the run of the tenant alone
  have halone : (Shared.start twoWallets).run oneOfTwo ((searching true).map fun a => (true, a)) =
      ((Shared.start twoWallets).step oneOfTwo (true, searchAll)).run oneOfTwo
        [(true, .fetch 0 1)] := rfl
  rw [step_searchAll _ _ _ hone] at halone
  refine ⟨Memory.Reachable.empty.afterAll _, htrace, ?_, ?_, (halike.searches 0).trans ?_, halike⟩
  · rw [byTurns, Shared.run, List.foldl_cons, step_searchAll _ _ _ hother, List.foldl_cons,
      step_searchAll _ _ _ hone]
    decide
  · rw [halone]
    decide
  · rw [halone]
    decide

end TaggedRecords.Tenant
