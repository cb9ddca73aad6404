import TaggedRecords.Proofs.Programs

/-!
# Failures — told by their codes

A store tells a failure by its code, and the client makes of the code what it can.  The code of the
failure that a code reports is that code again, whether a subsystem knows it or not
(`Failure.code?_ofCode`), and the hundreds of a code tell the subsystem (`Failure.ofHundreds_eq`).

The other way round not every failure comes back.  Those that only clients raise have no code, nor
have parameters beyond the fourteenth; all of them are told as an invalid internal state.  And the
code zero stands for success, so a failure with that code looks like success without a payload.
**What a store resolves reaches its caller as `Failure.relayed` says, and a failure is never taken for
a success** (`Failure.resolve_relayed`).
-/

namespace TaggedRecords

/-! ### Codes of the subsystems -/

/-- The common failure with a code, by the place of the code: parameters count from 100 and go on
behind the other failures. -/
def CommonFailure.atPlace? (c : Int32) : Option CommonFailure :=
  if 100 ≤ c ∧ c ≤ 111 then some (.invalidParameter (.ofNat (c - 99).toInt.toNat))
  else if c = 112 then some .invalidInternalState
  else if c = 113 then some .invalidStructure
  else if c = 114 then some .io
  else if c = 115 then some (.invalidParameter 13)
  else if c = 116 then some (.invalidParameter 14)
  else none

namespace Failure

/-- The codes that some subsystem knows. -/
def codes : List Int32 :=
  CommonFailure.all.map (·.code) ++ WalletFailure.all.map (·.code) ++
    PoolFailure.all.map (·.code) ++ AnonCredsFailure.all.map (·.code) ++
    CryptoFailure.all.map (·.code) ++ DidFailure.all.map (·.code) ++
    PaymentFailure.all.map (·.code)

/-- The failure that a code reports, looked up in the subsystem that the hundreds of the code name. -/
def ofHundreds (c : Int32) : Failure :=
  match CommonFailure.atPlace? c with
  | some e => .common e
  | none =>
    (match (c / 100).toInt with
    | 2 => (WalletFailure.ofCode? c).map wallet
    | 3 => (PoolFailure.ofCode? c).map pool
    | 4 => (AnonCredsFailure.ofCode? c).map anonCreds
    | 5 => (CryptoFailure.ofCode? c).map crypto
    | 6 => (DidFailure.ofCode? c).map did
    | 7 => (PaymentFailure.ofCode? c).map payment
    | _ => none).getD (.unknown c)

variable {c : Int32}

/-- A subsystem finds a failure only under the code of that failure. -/
theorem code?_map_find? {E : Type} {wrap : E → Failure} {code : E → Int32} {all : List E}
    (hwrap : ∀ e, (wrap e).code? = some (code e)) {f : Failure}
    (h : (all.find? fun e => code e == c).map wrap = some f) : f.code? = some c := by
  obtain ⟨e, he, rfl⟩ := Option.map_eq_some_iff.mp h
  have hc := List.find?_some he
  rw [hwrap, beq_iff_eq.mp hc]

theorem code?_of_known? {f : Failure} (h : known? c = some f) : f.code? = some c := by
  simp only [known?, Option.orElse_eq_orElse, Option.orElse_eq_or, Option.or_eq_some_iff] at h
  rcases h with h | ⟨-, h | ⟨-, h | ⟨-, h | ⟨-, h | ⟨-, h | ⟨-, h⟩⟩⟩⟩⟩⟩
  all_goals exact code?_map_find? (fun _ => rfl) h

/-- **The code of the failure that a code reports is that code.** -/
theorem code?_ofCode (c : Int32) : (ofCode c).code? = some c := by
  rw [ofCode]
  cases h : known? c with
  | none => rfl
  | some f => exact code?_of_known? h

theorem known?_eq_none : known? c = none ↔ c ∉ codes := by
  have hfind : ∀ {E : Type} (code : E → Int32) (all : List E),
      (all.find? fun e => code e == c) = none ↔ c ∉ all.map code := fun code all => by
    simp [List.find?_eq_none]
  simp only [known?, CommonFailure.ofCode?, WalletFailure.ofCode?, PoolFailure.ofCode?,
    AnonCredsFailure.ofCode?, CryptoFailure.ofCode?, DidFailure.ofCode?, PaymentFailure.ofCode?,
    Option.orElse_eq_orElse, Option.orElse_eq_or, Option.or_eq_none_iff, Option.map_eq_none_iff,
    hfind, codes, List.mem_append, not_or, and_assoc]

/-- A code is kept as unknown exactly if no subsystem knows it. -/
theorem ofCode_eq_unknown : ofCode c = .unknown c ↔ c ∉ codes := by
  constructor
  · have hcodes : (codes.all fun c => ofCode c != .unknown c) = true := by decide
    exact fun h hc => bne_iff_ne.mp (List.all_eq_true.mp hcodes c hc) h
  · intro h
    rw [ofCode, known?_eq_none.mpr h]
    rfl

/-! ### Looking a code up by its hundreds -/

/-- The codes of the first twelve parameters are known. -/
theorem mem_codes_of_parameter (hl : 100 ≤ c) (hu : c ≤ 111) : c ∈ codes := by
  have hcodes : ∀ n < 12, Int32.ofNat (100 + n) ∈ codes := by decide
  have hlow : 100 ≤ c.toInt := Int32.le_iff_toInt_le.mp hl
  have hhigh : c.toInt ≤ 111 := Int32.le_iff_toInt_le.mp hu
  have hc : c = .ofNat (100 + (c.toInt.toNat - 100)) := by
    rw [← Int32.toInt_inj, Int32.toInt_ofNat_of_lt (by omega)]
    omega
  rw [hc]
  exact hcodes _ (by omega)

theorem atPlace?_eq_none (h : c ∉ codes) : CommonFailure.atPlace? c = none := by
  have hne : ∀ c' ∈ codes, c ≠ c' := fun c' hc' he => h (he ▸ hc')
  rw [CommonFailure.atPlace?, if_neg fun hp => h (mem_codes_of_parameter hp.1 hp.2),
    if_neg (hne 112 (by decide)), if_neg (hne 113 (by decide)), if_neg (hne 114 (by decide)),
    if_neg (hne 115 (by decide)), if_neg (hne 116 (by decide))]

/-- **The hundreds of a code tell the subsystem that knows it.** -/
theorem ofHundreds_eq (c : Int32) : ofHundreds c = ofCode c := by
  by_cases hc : c ∈ codes
  · have hcodes : (codes.all fun c => ofHundreds c == ofCode c) = true := by decide
    exact beq_iff_eq.mp (List.all_eq_true.mp hcodes c hc)
  · -- no subsystem knows the code, so it does not matter which one is asked
    have hnone := known?_eq_none.mpr hc
    simp only [known?, Option.orElse_eq_orElse, Option.orElse_eq_or, Option.or_eq_none_iff] at hnone
    obtain ⟨-, hwallet, hpool, hanonCreds, hcrypto, hdid, hpayment⟩ := hnone
    rw [ofCode_eq_unknown.mpr hc, ofHundreds, atPlace?_eq_none hc]
    dsimp only
    split <;> simp [*]

/-! ### Failures that come back -/

/-- What a caller is told of a failure that is resolved. -/
def relayed : Failure → Failure
  | .common (.invalidParameter place) =>
    if 1 ≤ place ∧ place ≤ 14 then .common (.invalidParameter place)
    else .common .invalidInternalState
  | .encoding _ | .decoding _ | .invalidState => .common .invalidInternalState
  | .unknown c => if c = 0 then .invalidState else ofCode c
  | e => e

/-- A parameter has a code of its own up to the fourteenth. -/
theorem ofCode_parameter (place : UInt8) : ofCode (CommonFailure.invalidParameter place).code =
    (common (.invalidParameter place)).relayed := by
  by_cases hplace : 1 ≤ place ∧ place ≤ 14
  · have hplaces : ∀ n ≤ 14, 1 ≤ n → ofCode (CommonFailure.invalidParameter (.ofNat n)).code =
        common (.invalidParameter (.ofNat n)) := by decide
    have hcode := hplaces place.toNat (UInt8.le_iff_toNat_le.mp hplace.2)
      (UInt8.le_iff_toNat_le.mp hplace.1)
    rw [UInt8.ofNat_toNat] at hcode
    exact hcode.trans (if_pos hplace).symm
  · have hcode : (CommonFailure.invalidParameter place).code = 112 := by
      rw [CommonFailure.code, if_neg, if_neg, if_neg]
      · rintro rfl
        exact hplace (by decide)
      · rintro rfl
        exact hplace (by decide)
      · exact fun h => hplace ⟨h.1, UInt8.le_trans h.2 (by decide)⟩
    have hof : ofCode 112 = .common .invalidInternalState := by decide
    exact (congrArg ofCode hcode).trans (hof.trans (if_neg hplace).symm)

/-- A failure that has a code is told by it, success apart. -/
theorem outcome_fail {α : Type} {c : Int32} (hc : c ≠ 0) :
    (Completion.fail c : Completion α).outcome = .error (ofCode c) := if_pos hc

/-- No parameter is told by the code of success, which no subsystem knows. -/
theorem code_parameter_ne_zero (place : UInt8) :
    (CommonFailure.invalidParameter place).code ≠ 0 := by
  intro hzero
  have hunknown : ofCode 0 = .unknown 0 := by decide
  have hrelayed : (common (.invalidParameter place)).relayed = .unknown 0 :=
    (ofCode_parameter place).symm.trans ((congrArg ofCode hzero).trans hunknown)
  by_cases hplace : 1 ≤ place ∧ place ≤ 14
  · exact Failure.noConfusion ((if_pos hplace).symm.trans hrelayed)
  · exact Failure.noConfusion ((if_neg hplace).symm.trans hrelayed)

/-- **A failure that is resolved is told as `relayed` says.** -/
theorem outcome_resolve_error {α : Type} (e : Failure) :
    (Completion.resolve (.error e : Except Failure α)).outcome = .error e.relayed := by
  have hcoded : ∀ {e : Failure} {c : Int32}, e.code? = some c → c ≠ 0 → ofCode c = e.relayed →
      (Completion.resolve (.error e : Except Failure α)).outcome = .error e.relayed :=
    fun {e c} he hc hr => by rw [Completion.resolve, he, Option.getD_some, outcome_fail hc, hr]
  cases e with
  | common e =>
    cases e with
    | invalidParameter place =>
      exact hcoded rfl (code_parameter_ne_zero place) (ofCode_parameter place)
    | invalidInternalState | invalidStructure | io => exact hcoded rfl (by decide) (by decide)
  | wallet e | pool e | anonCreds e | crypto e | did e | payment e =>
    cases e <;> exact hcoded rfl (by decide) (by decide)
  | encoding cause | decoding cause | invalidState =>
    have hc : CommonFailure.invalidInternalState.code ≠ 0 := by decide
    exact outcome_fail hc
  | unknown c =>
    by_cases hc : c = 0
    · subst hc
      rfl
    · exact hcoded rfl hc (if_neg hc).symm

theorem outcome_resolve_relayed {α : Type} (result : Except Failure α) :
    (Completion.resolve result).outcome = result.mapError relayed := by
  cases result with
  | ok payload => rfl
  | error e => exact outcome_resolve_error e

end Failure

/-! ### Calls that are resolved -/

/-- A store that resolves every call in the same way. -/
def Store.resolving (result : (reply : Reply) → Except Failure reply.Payload) : Store Unit where
  respond _ reply _ := (⟨.resolve (result reply), .duringCall⟩, [], ())
  pages _ := 0

theorem Store.run_resolving (result : (reply : Reply) → Except Failure reply.Payload)
    {reply : Reply} (request : Call reply) :
    ((Program.invoke request).run (Store.resolving result) ()).exit =
      .finished ((result reply).mapError Failure.relayed) := by
  have hr : (Store.resolving result).respond () reply request =
      (⟨.resolve (result reply), .duringCall⟩, [], ()) := rfl
  rw [Program.invoke, Program.run_call hr Arrival.noConfusion, Program.run_logAll,
    Failure.outcome_resolve_relayed]
  rfl

/-- **Codes survive the way from a store to its caller.**  The failure that a code reports has that
code, and is the one of its hundreds; it is an unknown one exactly if no subsystem knows the code.
What a store resolves reaches the caller of a call as `Failure.relayed` says: a payload as it is, and
a failure as a failure, whatever payload was promised. -/
theorem Failure.resolve_relayed :
    (∀ c : Int32, (ofCode c).code? = some c ∧ ofCode c = ofHundreds c ∧
      (ofCode c = .unknown c ↔ c ∉ codes)) ∧
    (∀ (α : Type) (result : Except Failure α),
      (Completion.resolve result).outcome = result.mapError relayed) ∧
    ∀ (result : (reply : Reply) → Except Failure reply.Payload) (reply : Reply)
      (request : Call reply),
      ((Program.invoke request).run (Store.resolving result) ()).exit =
        .finished ((result reply).mapError relayed) :=
  ⟨fun c => ⟨code?_ofCode c, (ofHundreds_eq c).symm, ofCode_eq_unknown⟩,
    fun _ result => outcome_resolve_relayed result,
    fun result _ request => Store.run_resolving result request⟩

/-- A code between those of a subsystem, a parameter beyond the fourteenth, and the code of success
kept as a failure. -/
example : Failure.ofCode 403 = .unknown 403 ∧
    (Failure.common (.invalidParameter 15)).relayed = .common .invalidInternalState ∧
    (Failure.unknown 0).relayed = .invalidState := by
  decide

end TaggedRecords
