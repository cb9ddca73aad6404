import TaggedRecords.Proofs.Clients.Collecting
import TaggedRecords.Proofs.Filters

/-!
# Clients — each method is one call

What a client does with a store has the same shape in every method: structured arguments are
written, one call is made, and its payload is read (`Asks`).  Which call it is, and what has to be
found in it, is said for each `Method` on its own (`Method.Carries`); what becomes of the completion
is the same for all of them (`Method.Gives`).

**Whatever the store does, a method makes one call that carries its arguments, and its result is a
function of the completion of that call** (`Client.methods_faithful`).  A fetch of no records is not
among the methods, for it makes no call.
-/

namespace TaggedRecords

open Log (Message)
open Program (Exit calls)

/-- No code of a store reports that a payload cannot be read. -/
theorem Failure.ofCode_ne_decoding (code : Int32) (cause : String) :
    ofCode code ≠ .decoding cause := by
  rw [ofCode]
  cases h : known? code with
  | none => nofun
  | some f =>
      rintro rfl
      simp only [known?, Option.orElse_eq_orElse, Option.orElse_eq_or, Option.or_eq_some_iff,
        Option.map_eq_some_iff, reduceCtorEq, and_false, exists_false, or_self] at h

namespace Client

variable {α β : Type}

/-! ### One call -/

/-- How an attempt ends that depends on one call: with what is made of the completion, unless the
caller has left by then. -/
def exitOf {reply : Reply} (result : Completion reply.Payload → Except Failure α)
    (response : Response reply) : Exit (Except Failure α) :=
  if response.arrival = .afterLeaving then .left else .finished (result response.completion)

/-- An attempt makes one call, whatever the store, and its result is a function of the
completion. -/
def Asks (a : Attempt α) {reply : Reply} (request : Call reply)
    (result : Completion reply.Payload → Except Failure α) : Prop :=
  ∀ (σ : Type) (store : Store σ) (s : σ),
    ∃ events, a.run.run store s =
        ⟨exitOf result (store.respond s reply request).1, (store.respond s reply request).2.2,
          events⟩ ∧
      calls events = [⟨reply, request⟩]

/-- An attempt comes to a result without any call. -/
def Concludes (a : Attempt α) (result : Except Failure α) : Prop :=
  ∀ (σ : Type) (store : Store σ) (s : σ),
    ∃ events, a.run.run store s = ⟨.finished result, s, events⟩ ∧ calls events = []

theorem concludes_pure (x : α) : Concludes (pure x) (.ok x) := fun _ _ _ => ⟨_, rfl, rfl⟩

theorem concludes_note (message : Message) : Concludes (note message) (.ok ()) :=
  fun _ _ _ => ⟨_, rfl, rfl⟩

theorem concludes_note_pure (message : Message) (x : α) :
    Concludes (note message >>= fun _ => pure x) (.ok x) := fun _ _ _ => ⟨_, rfl, rfl⟩

theorem concludes_received (payload : Except Json.Error α) :
    Concludes (received payload) (payload.mapError fun e => .decoding e.message) := by
  cases payload with
  | ok a | error e => exact fun _ _ _ => ⟨_, rfl, rfl⟩

theorem asks_invoke {reply : Reply} (request : Call reply) :
    Asks (invoke request) request Completion.outcome := by
  intro σ store s
  rcases hrespond : store.respond s reply request with ⟨response, logged, s'⟩
  by_cases hleft : response.arrival = .afterLeaving
  · rw [exitOf, if_pos hleft]
    refine ⟨_, Program.run_call_left hrespond hleft, ?_⟩
    rw [Program.calls_append, Program.calls_called, Program.calls_logged, Program.calls_logged,
      List.append_nil]
  · obtain ⟨events, hrun, hcalls⟩ := run_invoke_settles ⟨response, logged, hrespond, hleft, rfl⟩
    rw [exitOf, if_neg hleft]
    exact ⟨events, hrun, hcalls⟩

/-- One call, and nothing but a conclusion after it. -/
theorem Asks.bind {a : Attempt α} {reply : Reply} {request : Call reply}
    {result : Completion reply.Payload → Except Failure α} (h : Asks a request result)
    {f : α → Attempt β} {g : α → Except Failure β} (hf : ∀ x, Concludes (f x) (g x)) :
    Asks (a >>= f) request fun completion => (result completion).bind g := by
  intro σ store s
  obtain ⟨events, hrun, hcalls⟩ := h σ store s
  rcases hrespond : store.respond s reply request with ⟨response, logged, s'⟩
  rw [hrespond] at hrun
  show ∃ events, _ = Program.Run.mk (exitOf _ response) s' events ∧ _
  by_cases hleft : response.arrival = .afterLeaving
  · -- the caller is gone before anything could follow
    rw [exitOf, if_pos hleft] at hrun ⊢
    refine ⟨events, ?_, hcalls⟩
    show Program.run store (a.run >>= _) s = _
    rw [Program.run_bind, hrun]
    rfl
  · rw [exitOf, if_neg hleft] at hrun ⊢
    cases hresult : result response.completion with
    | error e =>
        rw [hresult] at hrun
        exact ⟨events, run_bind_error hrun f, hcalls⟩
    | ok x =>
        rw [hresult] at hrun
        obtain ⟨events', hrun', hcalls'⟩ := hf x σ store s'
        refine ⟨events ++ events', ?_, ?_⟩
        · rw [run_bind_ok hrun, hrun']
          rfl
        · rw [Program.calls_append, hcalls, hcalls']
          rfl

theorem Asks.of_eq {a : Attempt α} {reply : Reply} {request : Call reply}
    {result result' : Completion reply.Payload → Except Failure α} (h : Asks a request result)
    (heq : ∀ completion, result completion = result' completion) : Asks a request result' :=
  funext heq ▸ h

/-- A call that is answered with nothing has nothing to be read. -/
theorem asks_plain (request : Call .nothing) :
    Asks (invoke request) request fun completion => completion.outcome.bind .ok :=
  (asks_invoke request).of_eq fun _ => (bind_pure _).symm

theorem asks_openSearch (wallet : WalletHandle) (type : String) (filter : Filter)
    (options : SearchOptions) : Asks (openSearch wallet type filter options)
      (.openSearch wallet type filter.encode options.encode)
      fun completion => completion.outcome.bind .ok :=
  (asks_invoke _).bind fun search =>
    concludes_note_pure (.openedSearch search type filter.encode) search

/-! ### The methods -/

/-- The methods of a client that make one call each, with their arguments. -/
inductive Method where
  | add (type id value : String) (tags : Tags)
  | updateValue (type id value : String)
  | updateTags (type id : String) (tags : Tags)
  | addTags (type id : String) (tags : Tags)
  | deleteTags (type id : String) (names : List String)
  | delete (type id : String)
  | get (type id : String) (options : SearchOptions)
  | openCursor (type : String) (e : Expression) (options : SearchOptions)
  | openSearch (type : String) (e : Expression) (options : SearchOptions)
  | fetch (search : SearchHandle) (count : UInt64) (hcount : count ≠ 0)
  | closeSearch (search : SearchHandle)

namespace Method

/-- What the call of a method is answered with. -/
def reply : Method → Reply
  | .get .. | .fetch .. => .text
  | .openCursor .. | .openSearch .. => .search
  | .add .. | .updateValue .. | .updateTags .. | .addTags .. | .deleteTags .. | .delete ..
  | .closeSearch .. => .nothing

/-- What a method gives. -/
def Result : Method → Type
  | .get .. => Record
  | .fetch .. => Batch
  | .openCursor .. => Cursor
  | .openSearch .. => SearchHandle
  | .add .. | .updateValue .. | .updateTags .. | .addTags .. | .deleteTags .. | .delete ..
  | .closeSearch .. => Unit

/-- The activity of a method. -/
def attempt (r : Records) : (m : Method) → Attempt m.Result
  | .add type id value tags => r.add type id value tags
  | .updateValue type id value => r.updateValue type id value
  | .updateTags type id tags => r.updateTags type id tags
  | .addTags type id tags => r.addTags type id tags
  | .deleteTags type id names => r.deleteTags type id names
  | .delete type id => r.delete type id
  | .get type id options => r.get type id options
  | .openCursor type e options => r.openSearch type e options
  | .openSearch type e options => Client.openSearch r.wallet type (Filter.compile e) options
  | .fetch search count _ => fetchNextRecords r.wallet search count
  | .closeSearch search => Client.closeSearch search

/-- A text holds the compiled filter of an expression, unless that is nested too deep to be
read. -/
def HoldsFilter (e : Expression) (text : String) : Prop :=
  e.depth ≤ 127 → Json.Document.read text = .ok (Filter.compile e).toValue

/-- A call carries the arguments of a method: the wallet and texts as they are, the others in texts
in which they are found again. -/
inductive Carries (wallet : WalletHandle) : (m : Method) → Call m.reply → Prop where
  | add {type id value text : String} {tags : Tags} (htags : Tags.decode text = .ok tags) :
      Carries wallet (.add type id value tags) (.addRecord wallet type id value text)
  | updateValue {type id value : String} :
      Carries wallet (.updateValue type id value) (.updateRecordValue wallet type id value)
  | updateTags {type id text : String} {tags : Tags} (htags : Tags.decode text = .ok tags) :
      Carries wallet (.updateTags type id tags) (.updateRecordTags wallet type id text)
  | addTags {type id text : String} {tags : Tags} (htags : Tags.decode text = .ok tags) :
      Carries wallet (.addTags type id tags) (.addRecordTags wallet type id text)
  | deleteTags {type id text : String} {names : List String}
      (hnames : Tags.decodeNames text = .ok names) :
      Carries wallet (.deleteTags type id names) (.deleteRecordTags wallet type id text)
  | delete {type id : String} : Carries wallet (.delete type id) (.deleteRecord wallet type id)
  | get {type id text : String} {options : SearchOptions}
      (hoptions : SearchOptions.decode text = .ok options) :
      Carries wallet (.get type id options) (.getRecord wallet type id text)
  | openCursor {type query text : String} {e : Expression} {options : SearchOptions}
      (hquery : HoldsFilter e query) (hoptions : SearchOptions.decode text = .ok options) :
      Carries wallet (.openCursor type e options) (.openSearch wallet type query text)
  | openSearch {type query text : String} {e : Expression} {options : SearchOptions}
      (hquery : HoldsFilter e query) (hoptions : SearchOptions.decode text = .ok options) :
      Carries wallet (.openSearch type e options) (.openSearch wallet type query text)
  | fetch {search : SearchHandle} {count : UInt64} {hcount : count ≠ 0} :
      Carries wallet (.fetch search count hcount) (.fetchNextRecords wallet search count)
  | closeSearch {search : SearchHandle} : Carries wallet (.closeSearch search) (.closeSearch search)

/-- What a method reads in a payload. -/
def receive (wallet : WalletHandle) : (m : Method) → m.reply.Payload → Except Json.Error m.Result
  | .get .., text => Record.decode text
  | .fetch .., text => Batch.decode text
  | .openCursor type e options, search => .ok ⟨wallet, search, type, Filter.compile e, options⟩
  | .openSearch .., search => .ok search
  | .add .., _ | .updateValue .., _ | .updateTags .., _ | .addTags .., _ | .deleteTags .., _
  | .delete .., _ | .closeSearch .., _ => .ok ()

/-- What a method makes of the completion of its call. -/
inductive Gives (wallet : WalletHandle) (m : Method) :
    Completion m.reply.Payload → Except Failure m.Result → Prop where
  | failed {code : Int32} {payload : Option m.reply.Payload} (hcode : code ≠ 0) :
      Gives wallet m (.reported code payload) (.error (.ofCode code))
  | dropped : Gives wallet m .dropped (.error .invalidState)
  | missing : Gives wallet m (.reported 0 none) (.error .invalidState)
  | read {payload : m.reply.Payload} {result : m.Result}
      (hread : m.receive wallet payload = .ok result) :
      Gives wallet m (.reported 0 (some payload)) (.ok result)
  | unreadable {payload : m.reply.Payload} {e : Json.Error}
      (hread : m.receive wallet payload = .error e) :
      Gives wallet m (.reported 0 (some payload)) (.error (.decoding e.message))

/-- A method makes one call, which carries its arguments, and gives what comes of that call. -/
structure Faithful (r : Records) (m : Method) (request : Call m.reply)
    (result : Completion m.reply.Payload → Except Failure m.Result) : Prop where
  carries : m.Carries r.wallet request
  asks : Asks (m.attempt r) request result
  gives : ∀ completion, m.Gives r.wallet completion (result completion)
  decoding_iff : ∀ completion, (∃ cause, result completion = .error (.decoding cause)) ↔
    ∃ payload e, completion = .reported 0 (some payload) ∧ m.receive r.wallet payload = .error e

/-- What is made of a completion: its outcome, and the payload read. -/
def result (wallet : WalletHandle) (m : Method) (completion : Completion m.reply.Payload) :
    Except Failure m.Result :=
  completion.outcome.bind fun payload =>
    (m.receive wallet payload).mapError fun e => .decoding e.message

theorem gives_result (wallet : WalletHandle) (m : Method)
    (completion : Completion m.reply.Payload) :
    m.Gives wallet completion (m.result wallet completion) := by
  match completion with
  | .dropped => exact .dropped
  | .reported code payload =>
      by_cases hcode : code = 0
      · subst hcode
        match payload with
        | none => exact .missing
        | some p =>
            show m.Gives wallet _ ((m.receive wallet p).mapError _)
            cases hread : m.receive wallet p with
            | ok a => exact .read hread
            | error e => exact .unreadable hread
      · have houtcome : (Completion.reported code payload).outcome = .error (.ofCode code) :=
          if_pos hcode
        rw [result, houtcome]
        exact .failed hcode

/-- A code counts even beside a payload, and success without the payload is a fault. -/
example : Method.result ⟨1⟩ (.get "type" "id" ⟨true, true, true, true, true⟩)
      (.reported 212 (some "\x7b\"id\":\"id\"\x7d")) = .error (.wallet .itemNotFound) ∧
    Method.result ⟨1⟩ (.delete "type" "id") (.reported 0 none) = .error .invalidState :=
  ⟨rfl, rfl⟩

/-- Of all that a method gives, only what is unreadable is a failure to read. -/
theorem Gives.decoding_iff {wallet : WalletHandle} {m : Method}
    {completion : Completion m.reply.Payload} {given : Except Failure m.Result}
    (h : m.Gives wallet completion given) :
    (∃ cause, given = .error (.decoding cause)) ↔ ∃ payload e,
      completion = .reported 0 (some payload) ∧ m.receive wallet payload = .error e := by
  cases h with
  | failed hcode =>
      constructor
      · rintro ⟨cause, h⟩
        exact absurd (Except.error.inj h) (Failure.ofCode_ne_decoding _ _)
      · rintro ⟨payload, e, h, -⟩
        cases h
        exact absurd rfl hcode
  | dropped => exact ⟨nofun, nofun⟩
  | missing => exact ⟨nofun, nofun⟩
  | read hread =>
      constructor
      · nofun
      · rintro ⟨payload, e, h, herror⟩
        cases h
        cases hread.symm.trans herror
  | unreadable hread => exact ⟨fun _ => ⟨_, _, rfl, hread⟩, fun _ => ⟨_, rfl⟩⟩

theorem holdsFilter_encode (e : Expression) : HoldsFilter e (Filter.compile e).encode := by
  intro hdepth
  obtain ⟨hplain, heq⟩ := Filter.plain_compile e
  exact Json.Document.read_write hplain (heq ▸ hdepth)

theorem asks (r : Records) (m : Method) : ∃ request, m.Carries r.wallet request ∧
    Asks (m.attempt r) request (m.result r.wallet) := by
  cases m with
  | add type id value tags => exact ⟨_, .add (Tags.decode_encode tags), asks_plain _⟩
  | updateValue type id value => exact ⟨_, .updateValue, asks_plain _⟩
  | updateTags type id tags => exact ⟨_, .updateTags (Tags.decode_encode tags), asks_plain _⟩
  | addTags type id tags => exact ⟨_, .addTags (Tags.decode_encode tags), asks_plain _⟩
  | deleteTags type id names =>
      exact ⟨_, .deleteTags (Tags.decodeNames_encodeNames names), asks_plain _⟩
  | delete type id => exact ⟨_, .delete, asks_plain _⟩
  | get type id options =>
      exact ⟨_, .get options.decode_encode, (asks_invoke _).bind fun _ => concludes_received _⟩
  | openCursor type e options =>
      refine ⟨_, .openCursor (holdsFilter_encode e) options.decode_encode,
        ((asks_openSearch r.wallet type (Filter.compile e) options).bind fun _ =>
          concludes_pure _).of_eq fun completion => ?_⟩
      show (completion.outcome.bind .ok).bind _ = completion.outcome.bind _
      cases completion.outcome with
      | ok search | error e => rfl
  | openSearch type e options =>
      exact ⟨_, .openSearch (holdsFilter_encode e) options.decode_encode,
        asks_openSearch _ _ _ _⟩
  | fetch search count hcount =>
      refine ⟨_, .fetch, ?_⟩
      rw [attempt, fetchNextRecords, if_neg hcount]
      exact (asks_invoke _).bind fun _ => concludes_received _
  | closeSearch search =>
      exact ⟨_, .closeSearch, (asks_invoke _).bind fun _ => concludes_note _⟩

end Method

/-- **Each method makes one call that carries its arguments, and gives what comes of it**, whatever
the store and whenever it settles the call.  A fetch of no records is turned down without a call. -/
theorem methods_faithful (r : Records) :
    (∀ m : Method, ∃ request result, m.Faithful r request result) ∧
    ∀ {σ : Type} (store : Store σ) (s : σ) (search : SearchHandle),
      (fetchNextRecords r.wallet search 0).run.run store s =
        ⟨.finished (.error (.common (.invalidParameter 4))), s, []⟩ := by
  refine ⟨fun m => ?_, fun _ _ _ => rfl⟩
  obtain ⟨request, hcarries, hasks⟩ := m.asks r
  exact ⟨request, m.result r.wallet, hcarries, hasks, m.gives_result r.wallet,
    fun completion => (m.gives_result r.wallet completion).decoding_iff⟩

end Client

end TaggedRecords
