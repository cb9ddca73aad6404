import TaggedRecords.Config
import TaggedRecords.Handle
import TaggedRecords.Record
import TaggedRecords.Proofs.Json.Forms

/-!
# Payloads — what passes between clients and stores arrives unchanged

Clients write tags, names of tags and options, stores write records and batches; handles and
configurations have texts as well.  **Each is read back as it was written**, whatever texts it holds
and whichever parts of it are there, so that different values have different texts
(`payloads_lossless`).
-/

namespace TaggedRecords

open Json.Reader (Gathers BeginsMember Undoes formBody undoes_string undoes_flag undoes_count
  undoes_word32)

namespace Tags

theorem undoes : Undoes read toValue := undoes_string.map

theorem decode_encode (tags : Tags) : decode tags.encode = .ok tags := undoes.run_write tags

theorem decodeNames_encodeNames (names : List String) :
    decodeNames (encodeNames names) = .ok names :=
  undoes_string.list.run_write names

end Tags

namespace SearchOptions

theorem undoes : Undoes form.read toValue := .form fun o =>
  ⟨_, ⟨some o.includeRecords, some o.includeTags, some o.includeCount, some o.includeType,
      some o.includeValue⟩, rfl,
    .field undoes_flag rfl rfl _ (.field undoes_flag rfl rfl _ (.field undoes_flag rfl rfl _
      (.field undoes_flag rfl rfl _ (.field undoes_flag rfl rfl _ (.nil _))))),
    rfl⟩

theorem decode_encode (o : SearchOptions) : decode o.encode = .ok o := undoes.run_write o

end SearchOptions

namespace Record

/-- The draft of a record with the parts that the record has. -/
def draft (r : Record) : Draft := ⟨some r.id, r.type.map some, r.value.map some, r.tags.map some⟩

theorem finish_draft (r : Record) : form.finish r.draft = .ok r := by
  obtain ⟨id, type, value, tags⟩ := r
  cases type <;> cases value <;> cases tags <;> rfl

theorem undoes : Undoes form.read toValue := .form fun r => by
  refine ⟨_, r.draft, rfl, .field undoes_string rfl rfl r.id ?_, finish_draft r⟩
  rw [List.append_assoc, ← List.append_nil (r.tags.map _).toList]
  -- The draft lacks each part up to its member, whichever parts came before it.
  refine .part undoes_string rfl rfl r.type (.part undoes_string rfl ?_ r.value
    (.part Tags.undoes rfl ?_ r.tags ?_))
  · cases r.type <;> rfl
  · cases r.type <;> cases r.value <;> rfl
  · obtain ⟨id, type, value, tags⟩ := r
    cases type <;> cases value <;> cases tags <;> exact .nil _

theorem decode_encode (r : Record) : decode r.encode = .ok r := undoes.run_write r

end Record

namespace Batch

/-- The draft of a batch with the parts that the batch has. -/
def draft (b : Batch) : Draft := ⟨b.totalCount.map some, b.records.map some⟩

theorem finish_draft (b : Batch) : form.finish b.draft = .ok b := by
  obtain ⟨totalCount, records⟩ := b
  cases totalCount <;> cases records <;> rfl

theorem undoes : Undoes form.read toValue := .form fun b => by
  refine ⟨_, b.draft, rfl, ?_, finish_draft b⟩
  rw [← List.append_nil (b.records.map _).toList]
  refine .part undoes_count rfl rfl b.totalCount (.part Record.undoes.list rfl ?_ b.records ?_)
  · cases b.totalCount <;> rfl
  · obtain ⟨totalCount, records⟩ := b
    cases totalCount <;> cases records <;> exact .nil _

theorem decode_encode (b : Batch) : decode b.encode = .ok b := undoes.run_write b

end Batch

namespace WalletHandle

theorem decode_encode (h : WalletHandle) : decode h.encode = .ok h :=
  (undoes_word32.wrap fun h => (rfl : WalletHandle.mk h.raw = h)).run_write h

end WalletHandle

namespace SearchHandle

theorem decode_encode (h : SearchHandle) : decode h.encode = .ok h :=
  (undoes_word32.wrap fun h => (rfl : SearchHandle.mk h.raw = h)).run_write h

end SearchHandle

namespace SearchConfig

theorem undoes : Undoes form.read fun c =>
    .object [("batchSize", .number (.integer c.batchSize.toNat))] := .form fun c =>
  ⟨_, some c.batchSize, rfl, .field undoes_count rfl rfl _ (.nil _), rfl⟩

theorem decode_encode (c : SearchConfig) : decode c.encode = .ok c := undoes.run_write c

/-- The text of a configuration is taken exactly if it asks for at least one record per fetch. -/
theorem ofText_encode (c : SearchConfig) : ofText c.encode =
    if 0 < c.batchSize then .ok c
    else .error (.decoding "batchSize must be greater than zero") := by
  rw [ofText, decode_encode]
  show checked c = _
  rw [checked]
  by_cases hc : c.batchSize = 0
  · rw [if_pos hc, if_neg (by rw [hc]; decide)]
  · rw [if_neg hc, if_pos (UInt64.pos_iff_ne_zero.mpr hc)]

end SearchConfig

/-! ### Nothing is lost -/

/-- What is written is read back, and different values have different texts. -/
structure Lossless {α : Type} (encode : α → String) (decode : String → Except Json.Error α) :
    Prop where
  decode_encode : ∀ a, decode (encode a) = .ok a
  encode_inj : ∀ a b, encode a = encode b ↔ a = b

theorem Lossless.of_decode_encode {α : Type} {encode : α → String}
    {decode : String → Except Json.Error α} (h : ∀ a, decode (encode a) = .ok a) :
    Lossless encode decode where
  decode_encode := h
  encode_inj a b := by
    refine ⟨fun heq => ?_, congrArg encode⟩
    have hdecode := congrArg decode heq
    rw [h, h] at hdecode
    exact Except.ok.inj hdecode

/-- **Nothing that is written is lost when it is read**: records and batches with any of their
parts, options, configurations, tags, names of tags and handles.  A configuration is checked besides
when it is taken from a text. -/
theorem payloads_lossless :
    Lossless Record.encode Record.decode ∧ Lossless Batch.encode Batch.decode ∧
    Lossless SearchOptions.encode SearchOptions.decode ∧
    Lossless SearchConfig.encode SearchConfig.decode ∧
    Lossless Tags.encode Tags.decode ∧ Lossless Tags.encodeNames Tags.decodeNames ∧
    Lossless WalletHandle.encode WalletHandle.decode ∧
    Lossless SearchHandle.encode SearchHandle.decode ∧
    ∀ c : SearchConfig, SearchConfig.ofText c.encode =
      if 0 < c.batchSize then .ok c
      else .error (.decoding "batchSize must be greater than zero") :=
  ⟨.of_decode_encode Record.decode_encode, .of_decode_encode Batch.decode_encode,
    .of_decode_encode SearchOptions.decode_encode, .of_decode_encode SearchConfig.decode_encode,
    .of_decode_encode Tags.decode_encode, .of_decode_encode Tags.decodeNames_encodeNames,
    .of_decode_encode WalletHandle.decode_encode, .of_decode_encode SearchHandle.decode_encode,
    SearchConfig.ofText_encode⟩

/-- An empty list of records is not taken for an absent one, nor empty tags for absent ones. -/
example : Batch.encode ⟨some 0xFFFFFFFFFFFFFFFF, some []⟩ =
      "\x7b\"totalCount\":18446744073709551615,\"records\":[]\x7d" ∧
    Record.encode ⟨"\n", none, none, some .empty⟩ = "\x7b\"id\":\"\\n\",\"tags\":\x7b\x7d\x7d" := by
  decide

end TaggedRecords
