import TaggedRecords.Pattern

/-!
# Patterns — going back to the last wildcard is enough

`Matches` is what a pattern means: `%` stands for any run of characters, `_` for any one, and
every other character for itself.

**`Pattern.accepts` decides `Matches`** (`accepts_iff`).  A state of the walk stands for a
disjunction (`Progress.Open`): what is left of the pattern matches what is left of the text, or
the last `%` takes more and the pattern after it matches further on.  Every step keeps the
disjunction.  When another `%` is reached the earlier one is given up, and nothing is lost by it:
the literal stretch between the two, matched as far left as it can be, leaves the most text
(`Matches.drop_literal`).

Each step either goes on in the pattern or moves the place from which the last `%` resumes, which
never goes back, so the walk is over within `allowance` steps (`Progress.InRange.run`), and **none of
the states on the way leaves the pattern or the text** (`walk_bounded`).

`Describes` says the same by recursion on the pattern, one clause for each kind of character, with
the letters that differ in case only told by their codes; so **the walk decides what the clauses
describe** (`accepts_iff_describes`).
-/

namespace TaggedRecords.Pattern

/-! ### What a pattern means -/

/-- The text as a whole has the form of the pattern. -/
inductive Matches : List Char → List Char → Prop where
  | nil : Matches [] []
  /-- `%` stands for `run`. -/
  | run {pattern text : List Char} (run : List Char) (h : Matches pattern text) :
      Matches ('%' :: pattern) (run ++ text)
  /-- `_` stands for `actual`. -/
  | one {pattern text : List Char} (actual : Char) (h : Matches pattern text) :
      Matches ('_' :: pattern) (actual :: text)
  /-- `expected` stands for itself, an ASCII letter in either case. -/
  | literal {pattern text : List Char} {expected actual : Char} (hr : expected ≠ '%')
      (ho : expected ≠ '_') (hc : expected.toLower = actual.toLower) (h : Matches pattern text) :
      Matches (expected :: pattern) (actual :: text)

namespace Matches

/-- A pattern character other than `%` matches one character that it stands for. -/
theorem cons_iff {expected : Char} (hr : expected ≠ '%') {pattern text : List Char} :
    Matches (expected :: pattern) text ↔
      ∃ actual rest, text = actual :: rest ∧ fits expected actual = true ∧
        Matches pattern rest := by
  constructor
  · intro h
    cases h with
    | run _ _ => exact absurd rfl hr
    | one actual h => exact ⟨actual, _, rfl, rfl, h⟩
    | literal _ _ hc h => exact ⟨_, _, rfl, by simp [fits, hc], h⟩
  · rintro ⟨actual, rest, rfl, hf, h⟩
    by_cases ho : expected = '_'
    · subst ho
      exact .one actual h
    · refine .literal hr ho ?_ h
      simpa [fits, ho] using hf

/-- `%` lets the rest of the pattern match anywhere from here on. -/
theorem run_iff {pattern text : List Char} :
    Matches ('%' :: pattern) text ↔ ∃ k, Matches pattern (text.drop k) := by
  constructor
  · intro h
    cases h with
    | run run h => exact ⟨run.length, by rwa [List.drop_left]⟩
    | literal hr _ _ _ => exact absurd rfl hr
  · rintro ⟨k, h⟩
    rw [← List.take_append_drop k text]
    exact .run _ h

/-- Only wildcards match nothing. -/
theorem nil_iff {pattern : List Char} : Matches pattern [] ↔ pattern.all (· == '%') = true := by
  induction pattern with
  | nil => exact ⟨fun _ => rfl, fun _ => .nil⟩
  | cons x rest ih =>
      by_cases hr : x = '%'
      · subst hr
        simp [run_iff, ih]
      · simp [cons_iff hr, hr]

/-- A stretch without `%` takes as many characters as it has. -/
theorem drop_literal {rest : List Char} : ∀ {stretch text : List Char}, '%' ∉ stretch →
    Matches (stretch ++ rest) text → Matches rest (text.drop stretch.length)
  | [], _, _, h => h
  | x :: stretch, _, hs, h => by
      have hx : x ≠ '%' := fun e => hs (e ▸ List.mem_cons_self)
      have hstretch : '%' ∉ stretch := fun hm => hs (List.mem_cons_of_mem _ hm)
      obtain ⟨actual, text, rfl, -, h⟩ := (cons_iff hx).mp h
      show Matches rest (text.drop stretch.length)
      exact drop_literal hstretch h

end Matches

/-! ### The walk -/

namespace Progress

variable {pattern text : List Char} {s : Progress}

/-- Where the last `%` resumes, the start before there is one. -/
def origin (s : Progress) : Nat := (s.resume.map (·.2)).getD 0

/-- Both places are in range, and since the last `%` pattern and text have been walked side by
side without another one. -/
structure InRange (pattern text : List Char) (s : Progress) : Prop where
  pattern_le : s.pattern ≤ pattern.length
  text_le : s.text ≤ text.length
  resume : ∀ after origin, s.resume = some (after, origin) →
    ∃ stretch, '%' ∉ stretch ∧ pattern.drop after = stretch ++ pattern.drop s.pattern ∧
      s.pattern = after + stretch.length ∧ s.text = origin + stretch.length

/-- What a state stands for: the rest matches, or the last `%` takes more and the pattern after
it matches further on. -/
def Open (pattern text : List Char) (s : Progress) : Prop :=
  Matches (pattern.drop s.pattern) (text.drop s.text) ∨
    ∃ after origin k, s.resume = some (after, origin) ∧ origin < k ∧
      Matches (pattern.drop after) (text.drop k)

/-- How many steps are left at most. -/
def budget (pattern text : List Char) (s : Progress) : Nat :=
  (text.length - s.origin) * (pattern.length + 1) + (pattern.length - s.pattern) + 1

theorem drop_of_getElem? {α : Type} {l : List α} {i : Nat} {a : α} (h : l[i]? = some a) :
    l.drop i = a :: l.drop (i + 1) := by
  obtain ⟨hi, rfl⟩ := List.getElem?_eq_some_iff.mp h
  exact List.drop_eq_getElem_cons hi

theorem lt_of_getElem? {α : Type} {l : List α} {i : Nat} {a : α} (h : l[i]? = some a) :
    i < l.length :=
  (List.getElem?_eq_some_iff.mp h).1

/-- Matching further on after the last `%` matches what is left of the pattern, further on. -/
theorem InRange.matches_later (h : InRange pattern text s) {after origin k : Nat}
    (hr : s.resume = some (after, origin)) (hk : origin < k)
    (hm : Matches (pattern.drop after) (text.drop k)) :
    ∃ j, s.text < j ∧ Matches (pattern.drop s.pattern) (text.drop j) := by
  obtain ⟨stretch, hs, hd, -, ht⟩ := h.resume after origin hr
  rw [hd] at hm
  refine ⟨k + stretch.length, by omega, ?_⟩
  rw [← List.drop_drop]
  exact Matches.drop_literal hs hm

theorem InRange.origin_le (h : InRange pattern text s) : s.origin ≤ s.text := by
  rw [origin]
  cases hr : s.resume with
  | none => exact Nat.zero_le _
  | some place =>
      obtain ⟨stretch, -, -, -, ht⟩ := h.resume place.1 place.2 hr
      rw [ht]
      exact Nat.le_add_right _ _

/-- What a step has to do: keep the places in range and what the state stands for and use up the
budget, or give the answer. -/
def Continues (pattern text : List Char) (s : Progress) : Progress ⊕ Bool → Prop
  | .inl next => InRange pattern text next ∧ (Open pattern text next ↔ Open pattern text s) ∧
      budget pattern text next < budget pattern text s
  | .inr answer => answer = true ↔ Open pattern text s

/-- Going on in the pattern uses up the budget, as long as the last `%` does not resume earlier. -/
theorem budget_lt {next : Progress} (hp : s.pattern < pattern.length)
    (hn : next.pattern = s.pattern + 1) (ho : s.origin ≤ next.origin) :
    budget pattern text next < budget pattern text s := by
  have hm : (text.length - next.origin) * (pattern.length + 1) ≤
      (text.length - s.origin) * (pattern.length + 1) := Nat.mul_le_mul_right _ (by omega)
  rw [budget, budget, hn]
  omega

/-- The text is over: only wildcards may be left. -/
theorem InRange.over (h : InRange pattern text s) (ht : text[s.text]? = none) :
    Continues pattern text s (.inr ((pattern.drop s.pattern).all (· == '%'))) := by
  show (pattern.drop s.pattern).all (· == '%') = true ↔ Open pattern text s
  have hlen : text.length ≤ s.text := List.getElem?_eq_none_iff.mp ht
  rw [← Matches.nil_iff]
  constructor
  · intro hm
    exact .inl (by rwa [List.drop_eq_nil_of_le hlen])
  · rintro (hm | ⟨after, origin, k, hr, hk, hm⟩)
    · rwa [List.drop_eq_nil_of_le hlen] at hm
    · obtain ⟨j, hj, hm⟩ := h.matches_later hr hk hm
      have hnil : text.drop j = [] := List.drop_eq_nil_of_le (by omega)
      rwa [hnil] at hm

/-- A `%` is passed and takes nothing for now; an earlier one is given up. -/
theorem InRange.passWildcard (h : InRange pattern text s) (hp : pattern[s.pattern]? = some '%') :
    Continues pattern text s
      (.inl ⟨s.pattern + 1, s.text, some (s.pattern + 1, s.text)⟩) := by
  have hdrop := drop_of_getElem? hp
  have hlt := lt_of_getElem? hp
  refine ⟨⟨hlt, h.text_le, ?_⟩, ⟨?_, ?_⟩, budget_lt hlt rfl h.origin_le⟩
  · -- nothing has been walked since the new `%`
    rintro after origin ⟨⟩
    exact ⟨[], List.not_mem_nil, rfl, rfl, rfl⟩
  · rintro (hm | ⟨after, origin, k, ⟨⟩, hk, hm⟩)
    · refine .inl ?_
      rw [hdrop, Matches.run_iff]
      exact ⟨0, hm⟩
    · refine .inl ?_
      rw [hdrop, Matches.run_iff]
      refine ⟨k - s.text, ?_⟩
      rwa [List.drop_drop, Nat.add_sub_cancel' (Nat.le_of_lt hk)]
  · -- wherever the rest matches, the new `%` reaches that place
    have hlater : ∀ j, s.text ≤ j → Matches (pattern.drop s.pattern) (text.drop j) →
        Open pattern text ⟨s.pattern + 1, s.text, some (s.pattern + 1, s.text)⟩ :=
      fun j hj hm => by
      rw [hdrop, Matches.run_iff] at hm
      obtain ⟨k, hm⟩ := hm
      rw [List.drop_drop] at hm
      rcases Nat.eq_or_lt_of_le (Nat.le_trans hj (Nat.le_add_right j k)) with he | hl
      · exact .inl (by rwa [← he] at hm)
      · exact .inr ⟨_, _, j + k, rfl, hl, hm⟩
    rintro (hm | ⟨after, origin, k, hr, hk, hm⟩)
    · exact hlater s.text (Nat.le_refl _) hm
    · obtain ⟨j, hj, hm⟩ := h.matches_later hr hk hm
      exact hlater j (Nat.le_of_lt hj) hm

/-- A pattern character takes the text character that it stands for. -/
theorem InRange.takeOne (h : InRange pattern text s) {expected actual : Char}
    (ht : text[s.text]? = some actual) (hp : pattern[s.pattern]? = some expected)
    (hr : expected ≠ '%') (hf : fits expected actual = true) :
    Continues pattern text s (.inl ⟨s.pattern + 1, s.text + 1, s.resume⟩) := by
  have hpd := drop_of_getElem? hp
  have htd := drop_of_getElem? ht
  have hlt := lt_of_getElem? hp
  refine ⟨⟨hlt, lt_of_getElem? ht, ?_⟩, or_congr ?_ Iff.rfl, budget_lt hlt rfl (Nat.le_refl _)⟩
  · -- the stretch since the last `%` grows by one character
    intro after origin he
    obtain ⟨stretch, hs, hd, hsp, hst⟩ := h.resume after origin he
    refine ⟨stretch ++ [expected], ?_, ?_, ?_, ?_⟩
    · simp [hs, hr.symm]
    · rw [hd, hpd, List.append_assoc, List.singleton_append]
    · rw [List.length_append, ← Nat.add_assoc, ← hsp]
      rfl
    · rw [List.length_append, ← Nat.add_assoc, ← hst]
      rfl
  · rw [hpd, htd, Matches.cons_iff hr]
    constructor
    · exact fun hm => ⟨actual, _, rfl, hf, hm⟩
    · rintro ⟨_, _, ⟨⟩, -, hm⟩
      exact hm

/-- Pattern and text disagree: the last `%` takes one character more, if there is one. -/
theorem InRange.goBack (h : InRange pattern text s) (ht : s.text < text.length)
    (hm : ¬ Matches (pattern.drop s.pattern) (text.drop s.text)) :
    Continues pattern text s s.back := by
  rw [back]
  cases hr : s.resume with
  | none =>
      refine ⟨fun h => absurd h (by decide), ?_⟩
      rintro (h | ⟨_, _, _, h, -⟩)
      · exact absurd h hm
      · rw [hr] at h
        cases h
  | some place =>
      obtain ⟨after, origin⟩ := place
      obtain ⟨stretch, -, -, hsp, hst⟩ := h.resume after origin hr
      have hp := h.pattern_le
      have hpattern : after ≤ pattern.length := by omega
      have htext : origin + 1 ≤ text.length := by omega
      refine ⟨⟨hpattern, htext, ?_⟩, ⟨?_, ?_⟩, ?_⟩
      · rintro after' origin' ⟨⟩
        exact ⟨[], List.not_mem_nil, rfl, rfl, rfl⟩
      · rintro (h | ⟨_, _, k, ⟨⟩, hk, h⟩)
        · exact .inr ⟨after, origin, origin + 1, hr, Nat.lt_succ_self _, h⟩
        · exact .inr ⟨after, origin, k, hr, Nat.lt_of_succ_lt hk, h⟩
      · rintro (h | ⟨after', origin', k, h', hk, h⟩)
        · exact absurd h hm
        · rw [hr] at h'
          obtain ⟨⟩ := h'
          rcases Nat.eq_or_lt_of_le (Nat.succ_le_of_lt hk) with rfl | hl
          · exact .inl h
          · exact .inr ⟨after, origin + 1, k, rfl, hl, h⟩
      · -- the pattern is walked again, which one character of the text pays for
        have ho : s.origin = origin := by rw [Progress.origin, hr]; rfl
        have hn : text.length - origin = text.length - (origin + 1) + 1 := by omega
        rw [budget, budget, ho, hn, Nat.add_mul]
        show (text.length - (origin + 1)) * (pattern.length + 1) + (pattern.length - after) + 1 < _
        omega

/-- **One step** does what it has to do. -/
theorem InRange.step (h : InRange pattern text s) :
    Continues pattern text s (s.step pattern text) := by
  rw [Progress.step]
  split
  · rename_i ht
    exact h.over ht
  · rename_i actual ht
    have hlt := lt_of_getElem? ht
    split
    · rename_i hp
      exact h.passWildcard hp
    · rename_i expected hr hp
      have hr : expected ≠ '%' := fun e => hr e
      split
      · rename_i hf
        exact h.takeOne ht hp hr hf
      · rename_i hf
        refine h.goBack hlt fun hm => ?_
        rw [drop_of_getElem? hp, drop_of_getElem? ht, Matches.cons_iff hr] at hm
        obtain ⟨_, _, ⟨⟩, hf', -⟩ := hm
        exact hf hf'
    · -- the pattern is over before the text
      rename_i hp
      refine h.goBack hlt fun hm => ?_
      rw [List.drop_eq_nil_of_le (List.getElem?_eq_none_iff.mp hp), drop_of_getElem? ht] at hm
      cases hm

/-- **The walk ends within its budget**, with the answer that the state stands for. -/
theorem InRange.run (fuel : Nat) (h : InRange pattern text s)
    (hb : budget pattern text s ≤ fuel) :
    ∃ answer, Progress.run pattern text fuel s = some answer ∧
      (answer = true ↔ Open pattern text s) := by
  induction fuel generalizing s with
  | zero => exact absurd hb (by rw [budget]; omega)
  | succ fuel ih =>
      have hstep := h.step
      rw [Progress.run]
      cases he : s.step pattern text with
      | inl next =>
          rw [he] at hstep
          obtain ⟨hnext, hopen, hlt⟩ := hstep
          obtain ⟨answer, hrun, ha⟩ := ih hnext (by omega)
          exact ⟨answer, hrun, ha.trans hopen⟩
      | inr answer =>
          rw [he] at hstep
          exact ⟨answer, rfl, hstep⟩

theorem InRange.start : InRange pattern text start :=
  ⟨Nat.zero_le _, Nat.zero_le _, fun _ _ h => by cases h⟩

theorem budget_start : budget pattern text start = allowance pattern text := by
  show (text.length - 0) * (pattern.length + 1) + (pattern.length - 0) + 1 =
    (pattern.length + 1) * (text.length + 1)
  rw [Nat.sub_zero, Nat.sub_zero, Nat.mul_comm, Nat.mul_add, Nat.mul_one, Nat.add_assoc]

end Progress

/-- **A text is accepted exactly if it has the form of the pattern.** -/
theorem accepts_iff (pattern text : List Char) :
    accepts pattern text = true ↔ Matches pattern text := by
  obtain ⟨answer, hrun, ha⟩ := Progress.InRange.run (allowance pattern text)
    Progress.InRange.start (Nat.le_of_eq Progress.budget_start)
  rw [accepts, hrun, Option.getD_some, ha]
  constructor
  · rintro (hm | ⟨_, _, _, h, -⟩)
    · exact hm
    · cases h
  · exact .inl

/-! ### Where the walk goes -/

namespace Progress

variable {pattern text : List Char} {k : Nat} {s : Progress}

/-- `s` is the state after `k` steps from the start. -/
inductive Reached (pattern text : List Char) : Nat → Progress → Prop where
  | start : Reached pattern text 0 start
  | step {k : Nat} {s next : Progress} (h : Reached pattern text k s)
      (hs : s.step pattern text = .inl next) : Reached pattern text (k + 1) next

/-- The places of a state lie in the pattern and in the text, their ends included, and the last
`%` resumes from a place in the text that has been passed. -/
structure Bounded (pattern text : List Char) (s : Progress) : Prop where
  pattern_le : s.pattern ≤ pattern.length
  text_le : s.text ≤ text.length
  resume_le : ∀ after origin, s.resume = some (after, origin) →
    after ≤ pattern.length ∧ origin ≤ s.text

theorem InRange.bounded (h : InRange pattern text s) : Bounded pattern text s where
  pattern_le := h.pattern_le
  text_le := h.text_le
  resume_le after origin hr := by
    obtain ⟨stretch, -, -, hp, ht⟩ := h.resume after origin hr
    have hle := h.pattern_le
    omega

/-- Every step that has been taken has used up some of the allowance. -/
theorem Reached.paid (h : Reached pattern text k s) :
    InRange pattern text s ∧ k + budget pattern text s ≤ allowance pattern text := by
  induction h with
  | start => exact ⟨.start, Nat.le_of_eq ((Nat.zero_add _).trans budget_start)⟩
  | step _ hs ih =>
      obtain ⟨hrange, hpaid⟩ := ih
      have hstep := hrange.step
      rw [hs] at hstep
      obtain ⟨hnext, -, hlt⟩ := hstep
      exact ⟨hnext, by omega⟩

/-- There is always a step left. -/
theorem Reached.lt (h : Reached pattern text k s) : k < allowance pattern text := by
  obtain ⟨-, hpaid⟩ := h.paid
  rw [budget] at hpaid
  omega

/-- A walk that gives an answer has reached a state in which it is over. -/
theorem Reached.over {answer : Bool} (fuel : Nat) (h : Reached pattern text k s)
    (hrun : Progress.run pattern text fuel s = some answer) :
    ∃ j last, Reached pattern text j last ∧ last.step pattern text = .inr answer := by
  induction fuel generalizing k s with
  | zero => contradiction
  | succ fuel ih =>
      rw [Progress.run] at hrun
      cases hs : s.step pattern text with
      | inl next =>
          rw [hs] at hrun
          exact ih (h.step hs) hrun
      | inr a =>
          rw [hs] at hrun
          exact ⟨k, s, h, hs.trans (congrArg _ (Option.some.inj hrun))⟩

end Progress

/-- **The walk is over within `(m + 1) * (n + 1)` steps and never leaves the pattern or the text.**
It reaches a state in which it is over, and gives the answer there; no state is reached later than
that many steps allow, and in each one both places, and those from which the last `%` resumes, are in
range. -/
theorem walk_bounded (pattern text : List Char) :
    (∃ k s, Progress.Reached pattern text k s ∧
      s.step pattern text = .inr (accepts pattern text)) ∧
    ∀ k s, Progress.Reached pattern text k s →
      k < (pattern.length + 1) * (text.length + 1) ∧ Progress.Bounded pattern text s := by
  constructor
  · obtain ⟨answer, hrun, -⟩ := Progress.InRange.run (allowance pattern text)
      Progress.InRange.start (Nat.le_of_eq Progress.budget_start)
    obtain ⟨k, s, hreached, hover⟩ := Progress.Reached.over _ .start hrun
    refine ⟨k, s, hreached, ?_⟩
    rw [hover, accepts, hrun, Option.getD_some]
  · exact fun k s h => ⟨h.lt, h.paid.1.bounded⟩

/-- The second `%` has been passed and has gone back once. -/
theorem walk_bounded_nested :
    let pattern := ['%', 'a', '%', 'b', 'c']
    let text := ['a', 'b', 'a', 'b', 'c']
    Progress.Reached pattern text 5 ⟨3, 2, some (3, 2)⟩ ∧ 5 < 6 * 6 ∧
      Progress.Bounded pattern text ⟨3, 2, some (3, 2)⟩ := by
  intro pattern text
  have hreached : Progress.Reached pattern text 5 ⟨3, 2, some (3, 2)⟩ :=
    .step (.step (.step (.step (.step .start rfl) rfl) rfl) rfl) rfl
  exact ⟨hreached, (walk_bounded pattern text).2 5 _ hreached⟩

/-! ### Clause by clause -/

/-- The same character, or the same ASCII letter in the other case. -/
def SameLetter (expected actual : Char) : Prop :=
  expected = actual ∨ (expected.isUpper = true ∧ actual.toNat = expected.toNat + 32) ∨
    (actual.isUpper = true ∧ expected.toNat = actual.toNat + 32)

/-- What a pattern says of a text, by its first character. -/
def Describes : List Char → List Char → Prop
  | [], text => text = []
  | '%' :: pattern, text => ∃ run rest, text = run ++ rest ∧ Describes pattern rest
  | '_' :: pattern, text => ∃ actual rest, text = actual :: rest ∧ Describes pattern rest
  | expected :: pattern, text =>
    ∃ actual rest, text = actual :: rest ∧ SameLetter expected actual ∧ Describes pattern rest

theorem isUpper_iff (c : Char) : c.isUpper = true ↔ 65 ≤ c.toNat ∧ c.toNat ≤ 90 := by
  refine decide_eq_true_iff.trans ?_
  rw [ge_iff_le, UInt32.le_iff_toNat_le, UInt32.le_iff_toNat_le]
  exact Iff.rfl

theorem toNat_toLower (c : Char) :
    c.toLower.toNat = if 65 ≤ c.toNat ∧ c.toNat ≤ 90 then c.toNat + 32 else c.toNat := by
  have hu : (c.val ≥ 65 ∧ c.val ≤ 90) ↔ 65 ≤ c.toNat ∧ c.toNat ≤ 90 :=
    decide_eq_true_iff.symm.trans (isUpper_iff c)
  by_cases h : c.val ≥ 65 ∧ c.val ≤ 90
  · have hle := hu.mp h
    have hlower : c.toLower.val = c.val + 32 := congrArg Char.val (dif_pos h)
    rw [if_pos hle, Char.toNat, hlower, UInt32.toNat_add]
    exact Nat.mod_eq_of_lt (Nat.lt_of_le_of_lt (Nat.add_le_add_right hle.2 32) (by decide))
  · have hlower : c.toLower = c := dif_neg h
    rw [if_neg (mt hu.mpr h), hlower]

/-- Characters have one lower case exactly if they are the same up to case. -/
theorem toLower_eq_iff (expected actual : Char) :
    expected.toLower = actual.toLower ↔ SameLetter expected actual := by
  rw [SameLetter, ← Char.toNat_inj, ← Char.toNat_inj, toNat_toLower, toNat_toLower, isUpper_iff,
    isUpper_iff]
  split <;> split <;> omega

/-- A pattern matches what its clauses describe. -/
theorem Matches.iff_describes {pattern text : List Char} :
    Matches pattern text ↔ Describes pattern text := by
  induction pattern generalizing text with
  | nil =>
      constructor
      · rintro ⟨⟩
        rfl
      · rintro rfl
        exact .nil
  | cons expected pattern ih =>
      by_cases hr : expected = '%'
      · subst hr
        simp only [run_iff, Describes, ih]
        constructor
        · rintro ⟨k, h⟩
          exact ⟨_, _, (List.take_append_drop k text).symm, h⟩
        · rintro ⟨run, rest, rfl, h⟩
          exact ⟨run.length, by rwa [List.drop_left]⟩
      by_cases ho : expected = '_'
      · subst ho
        simp [cons_iff, Describes, fits, ih]
      · simp [cons_iff hr, Describes, fits, ho, toLower_eq_iff, ih]

/-- **The walk decides what the clauses describe**, although it goes back to the last `%` only. -/
theorem accepts_iff_describes (pattern text : List Char) :
    accepts pattern text = true ↔ Describes pattern text := by
  rw [accepts_iff, Matches.iff_describes]

end TaggedRecords.Pattern
