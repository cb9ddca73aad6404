import TaggedRecords.Json.Numeral
import TaggedRecords.Proofs.Json.Taking

/-!
# JSON — integers

Decimal digits without superfluous zeros (`Whole`) are read as the number that they stand for, if
it fits (`takes_numeral_unsigned`), in front of anything that cannot continue a numeral.  **The
decimal digits of an integer of 64 bits are read as that integer** (`takes_numeral`).  `absorb`
drops no digit because the number that the digits stand for only grows as they are taken
(`absorb_eq`).

Nothing else is read as an integer (`unsignedNumeral_integer`): a fraction, an exponent or digits
that do not fit make a real number.
-/

namespace TaggedRecords.Json

/-- More digits never make a number smaller. -/
theorem le_ofDigitChars : ∀ (digits : List Char) (n : Nat), n ≤ Nat.ofDigitChars 10 digits n
  | [], _ => Nat.le_of_eq Nat.ofDigitChars_nil.symm
  | c :: digits, n => by
      rw [Nat.ofDigitChars_cons]
      have := le_ofDigitChars digits (10 * n + (c.toNat - '0'.toNat))
      omega

/-- Digits that stand for a number within the bound are all taken. -/
theorem absorb_eq {bound : Nat} : ∀ (digits : List Char) (n : Nat),
    Nat.ofDigitChars 10 digits n ≤ bound →
      absorb bound n digits = (Nat.ofDigitChars 10 digits n, [])
  | [], n, _ => by rw [Nat.ofDigitChars_nil]; rfl
  | c :: digits, n, h => by
      rw [Nat.ofDigitChars_cons] at h ⊢
      have hm : n * 10 + digitValue c = 10 * n + (c.toNat - '0'.toNat) := by
        rw [digitValue, Nat.mul_comm]
      have hle := Nat.le_trans (le_ofDigitChars digits _) h
      rw [absorb, hm, if_pos hle]
      exact absorb_eq digits _ h

/-- Digits that are all taken stand for a number within the bound. -/
theorem absorb_eq_nil {bound : Nat} : ∀ (digits : List Char) (n m : Nat), n ≤ bound →
    absorb bound n digits = (m, []) → m = Nat.ofDigitChars 10 digits n ∧ m ≤ bound
  | [], n, m, hn, h => by
      obtain rfl := (Prod.mk.inj h).1
      exact ⟨Nat.ofDigitChars_nil.symm, hn⟩
  | c :: digits, n, m, hn, h => by
      rw [absorb] at h
      split at h
      · rename_i hle
        have := absorb_eq_nil digits _ m hle h
        rwa [Nat.ofDigitChars_cons, Nat.mul_comm 10 n]
      · exact absurd (Prod.mk.inj h).2 (List.cons_ne_nil _ _)

/-- A number has a first digit, which is a zero only if the number is. -/
theorem toDigits_head (n : Nat) :
    ∃ d digits, Nat.toDigits 10 n = d :: digits ∧ d.isDigit = true ∧
      (d = '0' → n = 0 ∧ digits = []) := by
  induction n using Nat.base_induction 10 (by decide) with
  | single m hm =>
      refine ⟨m.digitChar, [], Nat.toDigits_of_lt_base hm, ?_, fun h => ⟨?_, rfl⟩⟩
      · rw [Nat.isDigit_digitChar, decide_eq_true hm]
      · exact Nat.digitChar_eq_zero.mp h
  | digit m k hk hm ih =>
      obtain ⟨d, digits, hd, hdigit, hz⟩ := ih
      rw [← Nat.toDigits_append_toDigits (by decide) hm hk, hd]
      refine ⟨d, _, rfl, hdigit, fun h => ?_⟩
      obtain ⟨rfl, -⟩ := hz h
      exact absurd hm (Nat.lt_irrefl 0)

/-- What a numeral begins with is no blank and no closing bracket. -/
theorem numeral_head {c : Char} (h : c = '-' ∨ c.isDigit = true) :
    Source.isBlank c = false ∧ c ≠ ']' := by
  rcases h with rfl | h
  · decide
  · constructor
    · refine Bool.eq_false_iff.mpr fun hb => ?_
      rcases (Source.isBlank_iff c).mp hb with rfl | rfl | rfl | rfl <;> exact absurd h (by decide)
    · rintro rfl
      exact absurd h (by decide)

/-! ### Integer parts -/

theorem whole_toDigits (n : Nat) : Whole (Nat.toDigits 10 n) := by
  refine ⟨⟨?_, fun _ h => Nat.isDigit_of_mem_toDigits (by decide) (by decide) h⟩, ?_⟩
  · obtain ⟨d, digits, hd, -⟩ := toDigits_head n
    rw [hd]
    exact List.cons_ne_nil _ _
  · obtain ⟨d, digits, hd, -, hz⟩ := toDigits_head n
    rw [hd]
    intro h0
    obtain rfl : d = '0' := Option.some.inj h0
    rw [(hz rfl).2]

namespace Reader

variable {α : Type}

/-- What cannot continue digits: the next character, if there is one, is no digit. -/
def EndsDigits (tail : List Char) : Prop := ∀ c ∈ tail.head?, c.isDigit = false

theorem Stops.endsDigits {tail : List Char} (h : Stops tail) : EndsDigits tail :=
  fun c hc => (h c hc).1

/-- Digits before what cannot continue them are the longest run of digits. -/
theorem span_digits {digits tail : List Char} (h : ∀ c ∈ digits, c.isDigit = true)
    (ht : EndsDigits tail) : (digits ++ tail).takeWhile Char.isDigit = digits ∧
      (digits ++ tail).dropWhile Char.isDigit = tail := by
  rw [List.takeWhile_append_of_pos h, List.dropWhile_append_of_pos h]
  cases tail with
  | nil => exact ⟨List.append_nil _, rfl⟩
  | cons c rest =>
      have hc : c.isDigit = false := ht c rfl
      simp [hc]

theorem takes_takeWhile {digits : List Char} (h : ∀ c ∈ digits, c.isDigit = true) :
    Takes EndsDigits (takeWhile Char.isDigit) digits digits := fun tail p ht => by
  obtain ⟨htake, hdrop⟩ := span_digits h ht
  show Except.ok ((digits ++ tail).takeWhile Char.isDigit,
    (⟨(digits ++ tail).dropWhile Char.isDigit,
      p.after ((digits ++ tail).takeWhile Char.isDigit)⟩ : Source)) = _
  rw [htake, hdrop]

/-- The end of a numeral without fraction and exponent. -/
theorem takes_afterInteger {digits : List Char} {n : Nat} (negative : Bool)
    (h : absorb maxSignificand 0 digits = (n, [])) :
    Takes Stops (afterInteger negative digits) [] (wholeNumber negative n) := by
  intro tail p ht
  rw [afterInteger, h, List.nil_append]
  dsimp only
  rw [run_bind_ok (run_peek _)]
  dsimp only [Source.next?]
  split
  · rename_i hc
    exact absurd rfl (ht _ hc).2.1
  · rename_i hc
    exact absurd rfl (ht _ hc).2.2.1
  · rename_i hc
    exact absurd rfl (ht _ hc).2.2.2
  · rfl

/-- The digits of a significand of 64 bits. -/
theorem takes_unsignedNumeral {digits : List Char} (negative : Bool) (h : Whole digits)
    (hn : Nat.ofDigitChars 10 digits 0 ≤ maxSignificand) :
    Takes Stops (unsignedNumeral negative) digits
      (wholeNumber negative (Nat.ofDigitChars 10 digits 0)) := by
  obtain ⟨⟨hne, hdigits⟩, hz⟩ := h
  obtain ⟨d, rest, rfl⟩ := List.exists_cons_of_ne_nil hne
  have hdigit : d.isDigit = true := hdigits d List.mem_cons_self
  intro tail p ht
  have hend := takes_afterInteger negative (absorb_eq _ _ hn) tail
  rw [List.cons_append, unsignedNumeral, run_bind_ok (run_peek _)]
  simp only [Source.next?, List.head?_cons]
  split
  · contradiction
  · rename_i h0
    obtain rfl : d = '0' := Option.some.inj h0
    obtain rfl : rest = [] := (List.cons.inj (hz rfl)).2
    cases tail with
    | nil => exact hend _ ht
    | cons c tail =>
        show StateT.run (if c.isDigit then _ else _) _ = _
        rw [if_neg (by rw [(ht c rfl).1]; decide)]
        exact hend _ ht
  · rename_i c _ hc
    obtain rfl : d = c := Option.some.inj hc
    rw [if_pos hdigit, ← List.cons_append,
      run_bind_ok (takes_takeWhile hdigits tail p ht.endsDigits)]
    exact hend _ ht

/-- A numeral that begins with a digit has no sign. -/
theorem run_numeral_unsigned {d : Char} (hd : d.isDigit = true) (rest : List Char)
    (p : Position) : StateT.run numeral ⟨d :: rest, p⟩ =
      StateT.run (unsignedNumeral false) ⟨d :: rest, p⟩ := by
  have hm : ¬ some d = some '-' := by
    rintro ⟨⟩
    exact absurd hd (by decide)
  show StateT.run (if some d = some '-' then _ else _) _ = _
  rw [if_neg hm]

theorem takes_numeral_unsigned {digits : List Char} (h : Whole digits)
    (hn : Nat.ofDigitChars 10 digits 0 ≤ maxSignificand) :
    Takes Stops numeral digits (.integer (Nat.ofDigitChars 10 digits 0 : Nat)) := by
  have ht : Takes Stops (unsignedNumeral false) digits _ := takes_unsignedNumeral false h hn
  obtain ⟨d, rest, rfl⟩ := List.exists_cons_of_ne_nil h.1.1
  exact .ofFirst (run_numeral_unsigned (h.1.2 d List.mem_cons_self)) ht

/-- **An integer of 64 bits is read back from its digits.** -/
theorem takes_numeral {n : Int} (hl : -0x8000000000000000 ≤ n) (hu : n ≤ 0xFFFFFFFFFFFFFFFF) :
    Takes Stops numeral (toString n).toList (.integer n) := by
  rw [Int.toString_eq_repr, Int.repr_eq_if]
  split
  · rename_i hn
    have h := takes_numeral_unsigned (whole_toDigits n.toNat)
      (by rw [Nat.ofDigitChars_ten_toDigits, maxSignificand]; omega)
    rwa [Nat.ofDigitChars_ten_toDigits, Int.toNat_of_nonneg hn, ← Nat.toList_repr] at h
  · rename_i hn
    have h := takes_unsignedNumeral true (whole_toDigits (-n).toNat)
      (by rw [Nat.ofDigitChars_ten_toDigits, maxSignificand]; omega)
    rw [Nat.ofDigitChars_ten_toDigits, wholeNumber, if_pos rfl, if_pos (by omega),
      Int.toNat_of_nonneg (by omega), Int.neg_neg] at h
    rw [String.toList_append, Nat.toList_repr]
    exact .afterFirst (fun _ _ => rfl) h

/-! ### Only digits make an integer -/

/-- `reader` gives no integer. -/
def NoInteger (reader : Reader Number) : Prop :=
  ∀ s n s', StateT.run reader s ≠ .ok (.integer n, s')

theorem NoInteger.bind {reader : Reader α} {f : α → Reader Number} (h : ∀ a, NoInteger (f a)) :
    NoInteger (reader >>= f) := fun s n s' => by
  rw [StateT.run_bind]
  cases StateT.run reader s with
  | error e => rintro ⟨⟩
  | ok r => exact h r.1 r.2 n s'

theorem NoInteger.real (negative : Bool) (x : Decimal.Binary) :
    NoInteger (pure (.real negative x)) := by
  rintro s n s' ⟨⟩

theorem NoInteger.failAt (fault : Fault) (p : Position) : NoInteger (Reader.failAt fault p) := by
  rintro s n s' ⟨⟩

theorem NoInteger.fail (fault : Fault) : NoInteger (Reader.fail fault) :=
  .bind fun _ => .failAt _ _

theorem NoInteger.failNext (fault : Fault) : NoInteger (Reader.failNext fault) :=
  .bind fun _ => .failAt _ _

theorem noInteger_scaled (negative : Bool) (significand : Nat) (exponent : Int) :
    NoInteger (scaled negative significand exponent) := by
  unfold scaled
  split
  · exact .real _ _
  · exact .fail _

theorem noInteger_poweredBy (negative : Bool) (significand : Nat) (shift : Int) (down : Bool)
    (start : Position) (digits : List Char) :
    NoInteger (poweredBy negative significand shift down start digits) := by
  unfold poweredBy
  split
  split
  · exact noInteger_scaled _ _ _
  · split
    · exact .real _ _
    · exact .failAt _ _

theorem noInteger_exponentPart (negative : Bool) (significand : Nat) (shift : Int) :
    NoInteger (exponentPart negative significand shift) := by
  refine .bind fun _ => .bind fun down => .bind fun next => ?_
  split
  · exact .fail _
  · split
    · exact .bind fun _ => .bind fun _ => noInteger_poweredBy _ _ _ _ _ _
    · exact .failNext _

theorem noInteger_fractionPart (negative : Bool) (significand : Nat) (shift : Int) :
    NoInteger (fractionPart negative significand shift) := by
  refine .bind fun _ => .bind fun digits => ?_
  split
  · refine .bind fun next => ?_
    split
    · exact .fail _
    · exact .failNext _
  · split
    refine .bind fun next => ?_
    split
    · exact noInteger_exponentPart _ _ _
    · exact noInteger_exponentPart _ _ _
    · exact noInteger_scaled _ _ _

/-- What follows an integer: no decimal point and no exponent mark. -/
def EndsInteger (tail : List Char) : Prop := ∀ c ∈ tail.head?, c ≠ '.' ∧ c ≠ 'e' ∧ c ≠ 'E'

/-- An integer is read from digits that all fit, in front of neither a fraction nor an exponent. -/
theorem afterInteger_integer {negative : Bool} {digits : List Char} {s s' : Source} {n : Int}
    (h : StateT.run (afterInteger negative digits) s = .ok (.integer n, s')) :
    EndsInteger s.rest ∧ ∃ m, absorb maxSignificand 0 digits = (m, []) ∧
      wholeNumber negative m = .integer n := by
  rw [afterInteger] at h
  obtain ⟨⟨m, left⟩, hm⟩ : ∃ r, r = absorb maxSignificand 0 digits := ⟨_, rfl⟩
  rw [← hm] at h
  dsimp only at h
  rw [run_bind_ok (run_peek s)] at h
  split at h
  · exact absurd h (noInteger_fractionPart _ _ _ _ _ _)
  · exact absurd h (noInteger_exponentPart _ _ _ _ _ _)
  · exact absurd h (noInteger_exponentPart _ _ _ _ _ _)
  · rename_i hp hl hu
    split at h
    · rename_i hleft
      obtain rfl := List.isEmpty_iff.mp hleft
      refine ⟨fun c hc => ⟨?_, ?_, ?_⟩, m, hm.symm, (Prod.mk.inj (Except.ok.inj h)).1⟩
      · rintro rfl; exact hp hc
      · rintro rfl; exact hl hc
      · rintro rfl; exact hu hc
    · exact absurd h (noInteger_scaled _ _ _ _ _ _)

/-- Behind a zero that begins an integer there is no digit. -/
theorem unsignedNumeral_zero {negative : Bool} {rest : List Char} {p : Position} {s' : Source}
    {n : Int} (h : StateT.run (unsignedNumeral negative) ⟨'0' :: rest, p⟩ =
      .ok (.integer n, s')) :
    EndsDigits rest ∧ StateT.run (afterInteger negative ['0']) ⟨rest, p.advance '0'⟩ =
      .ok (.integer n, s') := by
  cases rest with
  | nil => exact ⟨by simp [EndsDigits], h⟩
  | cons d rest =>
      have h' : StateT.run (if d.isDigit then _ else _) _ = _ := h
      split at h'
      · exact absurd h' (NoInteger.failNext _ _ _ _)
      · rename_i hd
        refine ⟨?_, h'⟩
        rintro _ ⟨⟩
        exact Bool.eq_false_iff.mpr hd

/-- An integer is read from the longest run of digits, if they fit and if neither a fraction nor an
exponent follows. -/
theorem unsignedNumeral_integer {negative : Bool} {s s' : Source} {n : Int}
    (h : StateT.run (unsignedNumeral negative) s = .ok (.integer n, s')) :
    EndsInteger (s.rest.dropWhile Char.isDigit) ∧
      Nat.ofDigitChars 10 (s.rest.takeWhile Char.isDigit) 0 ≤ maxSignificand ∧
      wholeNumber negative (Nat.ofDigitChars 10 (s.rest.takeWhile Char.isDigit) 0) =
        .integer n := by
  obtain ⟨rest, p⟩ := s
  cases rest with
  | nil => exact absurd h (NoInteger.fail .endInValue _ _ _)
  | cons c rest =>
      have hrun := h
      rw [unsignedNumeral, run_bind_ok (run_peek _)] at h
      simp only [Source.next?, List.head?_cons] at h
      split at h
      · contradiction
      · rename_i h0
        obtain rfl : c = '0' := Option.some.inj h0
        obtain ⟨hends, hafter⟩ := unsignedNumeral_zero hrun
        obtain ⟨hinteger, m, hm, hn⟩ := afterInteger_integer hafter
        obtain ⟨rfl, hle⟩ := absorb_eq_nil _ _ _ (Nat.zero_le _) hm
        have hzero : ∀ c ∈ ['0'], c.isDigit = true := List.forall_mem_singleton.mpr rfl
        have hspan := span_digits hzero hends
        rw [List.singleton_append] at hspan
        rw [hspan.1, hspan.2]
        exact ⟨hinteger, hle, hn⟩
      · rename_i d _ hd
        obtain rfl : c = d := Option.some.inj hd
        split at h
        · have hafter : StateT.run (afterInteger negative ((c :: rest).takeWhile Char.isDigit))
              ⟨(c :: rest).dropWhile Char.isDigit, _⟩ = _ := h
          obtain ⟨hinteger, m, hm, hn⟩ := afterInteger_integer hafter
          obtain ⟨rfl, hle⟩ := absorb_eq_nil _ _ _ (Nat.zero_le _) hm
          exact ⟨hinteger, hle, hn⟩
        · exact absurd h (NoInteger.failNext _ _ _ _)

end Reader

end TaggedRecords.Json
