import Mathlib.Logic.Relation
import TaggedRecords.Record
import TaggedRecords.Proofs.Json.Structures

/-!
# Records and batches — every spelling is read

An object may spell a record in many ways: its members come in any order, the id may be called
`referent` and the total `count`, an absent part may be left out or `null`, members of other names
may hold anything, and blanks and escapes are free.

`Described` says, member by member, which record or batch an object stands for, without any reader.
**An object decodes as what its members describe, and does not decode if a field is told twice**
(`Record.decode_iff`, `Batch.decode_iff`).  `Respells` lists the changes to the members that make no
difference, and objects that are one such change or several apart decode alike
(`Record.decode_congr`, `Batch.decode_congr`).  `decoded_as_described` says all of this at once.
-/

namespace TaggedRecords

open Json Json.Reader

variable {α β δ : Type}

/-! ### What members tell -/

/-- No field of a form is told twice, under whichever of its names. -/
def NoneTwice (form : Form δ α) (ms : List Member) : Prop :=
  ∀ field ∈ form.fields, (contents field.names ms).length ≤ 1

instance (form : Form δ α) (ms : List Member) : Decidable (NoneTwice form ms) :=
  inferInstanceAs (Decidable (∀ field ∈ form.fields, (contents field.names ms).length ≤ 1))

/-- What the values of an optional member tell: nothing if it is left out or `null`. -/
def Part (Is : List Char → β → Prop) (vs : List (List Char)) : Option β → Prop
  | none => ∀ v ∈ vs, v = nullText
  | some b => ∃ v ∈ vs, Is v b

theorem eq_singleton {v : β} {vs : List β} (h : vs.length ≤ 1) (hv : v ∈ vs) : vs = [v] := by
  match vs, h with
  | [_], _ => rw [List.mem_singleton.mp hv]

/-- An optional part that is told at most once is read as a value or as `null`, or not at all. -/
theorem part_iff {Is : List Char → β → Prop} {vs : List (List Char)} (h : vs.length ≤ 1)
    {o : Option β} : Part Is vs o ↔
      ∃ o' : Option (Option β), List.Forall₂ (Nullable Is) vs o'.toList ∧ o'.join = o := by
  constructor
  · intro hp
    match vs, h with
    | [], _ =>
        cases o with
        | none => exact ⟨none, .nil, rfl⟩
        | some b =>
            obtain ⟨v, hv, -⟩ := hp
            exact absurd hv List.not_mem_nil
    | [v], _ =>
        refine ⟨some o, .cons ?_ .nil, rfl⟩
        cases o with
        | none => exact hp v List.mem_cons_self ▸ .null
        | some b =>
            obtain ⟨v', hv', hb⟩ := hp
            obtain rfl := List.mem_singleton.mp hv'
            exact .some hb
  · rintro ⟨_ | o, hf, rfl⟩
    · rw [List.forall₂_nil_right_iff.mp hf]
      exact fun v hv => absurd hv List.not_mem_nil
    · obtain ⟨v, vs, hv, hvs, rfl⟩ := List.forall₂_cons_right_iff.mp hf
      rw [List.forall₂_nil_right_iff.mp hvs]
      cases hv with
      | null => exact fun v hv => List.mem_singleton.mp hv
      | some hb => exact ⟨v, List.mem_singleton_self v, hb⟩

/-- A field that the members tell of is told at most once. -/
theorem noneTwice_of_tells {form : Form δ α} (slots : Slots form) {ms : List Member} {d : δ}
    (h : ∀ slot ∈ slots.all, slot.Tells ms (slot.get d)) : NoneTwice form ms := by
  intro field hf
  rw [slots.fields] at hf
  obtain ⟨slot, hs, rfl⟩ := List.mem_map.mp hf
  have hlength := (h slot hs).length_eq
  rw [show slot.field.names = slot.names from rfl, hlength]
  exact Option.length_toList_le

theorem not_isString_null (s : String) : ¬ IsString nullText s := by
  rintro ⟨inner, ⟨⟩, -⟩

theorem not_isCount_null (n : UInt64) : ¬ IsCount nullText n :=
  fun h => absurd (h.1.1.2 'n' List.mem_cons_self) (by decide)

theorem not_listOf_null (Is : List Char → β → Prop) (as : List β) : ¬ ListOf Is nullText as := by
  rintro ⟨items, ⟨⟨⟩, -⟩, -⟩

theorem not_mapOf_null (Is : List Char → β → Prop) (m : SortedMap String β) :
    ¬ MapOf Is nullText m := by
  rintro ⟨ms, es, ⟨⟨⟩, -⟩, -⟩

/-! ### Records -/

namespace Record

/-- The fields of a record. -/
def slots : Slots form where
  all :=
    [⟨["id", "referent"], Reader.string, (·.id), fun d a => { d with id := some a }, IsString,
        reads_string, fun _ _ => rfl⟩,
      ⟨["type"], Reader.optional Reader.string, (·.type), fun d a => { d with type := some a },
        Nullable IsString, reads_optional reads_string not_isString_null, fun _ _ => rfl⟩,
      ⟨["value"], Reader.optional Reader.string, (·.value), fun d a => { d with value := some a },
        Nullable IsString, reads_optional reads_string not_isString_null, fun _ _ => rfl⟩,
      ⟨["tags"], Reader.optional Tags.read, (·.tags), fun d a => { d with tags := some a },
        Nullable (MapOf IsString), reads_optional (reads_map reads_string) (not_mapOf_null _),
        fun _ _ => rfl⟩]
  fields := rfl
  apart := by simp [Slot.Apart]
  blank := by simp [form]
  ext := by
    rintro ⟨id, type, value, tags⟩ ⟨id', type', value', tags'⟩ h
    simp only [List.forall_mem_cons] at h
    obtain ⟨rfl, rfl, rfl, rfl, -⟩ := h
    rfl

/-- What the members of an object tell of a record. -/
@[mk_iff]
structure Described (ms : List Member) (r : Record) : Prop where
  id : ∃ v ∈ contents ["id", "referent"] ms, IsString v r.id
  type : Part IsString (contents ["type"] ms) r.type
  value : Part IsString (contents ["value"] ms) r.value
  tags : Part (MapOf IsString) (contents ["tags"] ms) r.tags

theorem noneTwice_iff {ms : List Member} : NoneTwice form ms ↔
    (contents ["id", "referent"] ms).length ≤ 1 ∧ (contents ["type"] ms).length ≤ 1 ∧
      (contents ["value"] ms).length ≤ 1 ∧ (contents ["tags"] ms).length ≤ 1 := by
  simp [NoneTwice, form, Field.ofLens]

/-- **The members of an object decide whether it is a record, and which one.** -/
theorem decode_iff {text : String} {ms : List Member} (h : ObjectDocument text ms) {r : Record} :
    decode text = .ok r ↔ NoneTwice form ms ∧ Described ms r := by
  rw [decode, slots.run_iff h]
  constructor
  · rintro ⟨⟨id, type, value, tags⟩, ht, hr⟩
    have htwice := noneTwice_of_tells slots ht
    obtain ⟨-, htype₁, hvalue₁, htags₁⟩ := noneTwice_iff.mp htwice
    simp only [slots, List.forall_mem_cons] at ht
    obtain ⟨hid, htype, hvalue, htags, -⟩ := ht
    cases id with
    | none => contradiction
    | some id =>
        obtain rfl := Except.ok.inj hr
        obtain ⟨v, hc, his⟩ := Slot.tells_some.mp hid
        exact ⟨htwice, ⟨v, hc ▸ List.mem_singleton_self v, his⟩,
          (part_iff htype₁).mpr ⟨type, htype, rfl⟩, (part_iff hvalue₁).mpr ⟨value, hvalue, rfl⟩,
          (part_iff htags₁).mpr ⟨tags, htags, rfl⟩⟩
  · rintro ⟨htwice, hid, htype, hvalue, htags⟩
    obtain ⟨hid₁, htype₁, hvalue₁, htags₁⟩ := noneTwice_iff.mp htwice
    obtain ⟨v, hv, his⟩ := hid
    obtain ⟨type, htype, htype'⟩ := (part_iff htype₁).mp htype
    obtain ⟨value, hvalue, hvalue'⟩ := (part_iff hvalue₁).mp hvalue
    obtain ⟨tags, htags, htags'⟩ := (part_iff htags₁).mp htags
    refine ⟨⟨some r.id, type, value, tags⟩, ?_, ?_⟩
    · have hid : List.Forall₂ IsString (contents ["id", "referent"] ms) (some r.id).toList := by
        rw [eq_singleton hid₁ hv]
        exact .cons his .nil
      exact List.forall_mem_cons.mpr ⟨hid, List.forall_mem_cons.mpr ⟨htype,
        List.forall_mem_cons.mpr ⟨hvalue, List.forall_mem_singleton.mpr htags⟩⟩⟩
    · show Except.ok (⟨r.id, type.join, value.join, tags.join⟩ : Record) = _
      rw [htype', hvalue', htags']

end Record

/-! ### Batches -/

namespace Batch

/-- A value that decodes as a record. -/
def RecordText (v : List Char) (r : Record) : Prop :=
  IsValue v ∧ Record.decode (.ofList v) = .ok r

theorem reads_record : Reads Record.form.read RecordText :=
  (settles_form Record.slots.settle).reads

/-- The fields of a batch. -/
def slots : Slots form where
  all :=
    [⟨["totalCount", "count"], Reader.optional Reader.count, (·.totalCount),
        fun d a => { d with totalCount := some a }, Nullable IsCount,
        reads_optional reads_count not_isCount_null, fun _ _ => rfl⟩,
      ⟨["records"], Reader.optional (Reader.list Record.form.read), (·.records),
        fun d a => { d with records := some a }, Nullable (ListOf RecordText),
        reads_optional (reads_list reads_record) (not_listOf_null _), fun _ _ => rfl⟩]
  fields := rfl
  apart := by simp [Slot.Apart]
  blank := by simp [form]
  ext := by
    rintro ⟨totalCount, records⟩ ⟨totalCount', records'⟩ h
    simp only [List.forall_mem_cons] at h
    obtain ⟨rfl, rfl, -⟩ := h
    rfl

/-- What the members of an object tell of a batch. -/
@[mk_iff]
structure Described (ms : List Member) (b : Batch) : Prop where
  totalCount : Part IsCount (contents ["totalCount", "count"] ms) b.totalCount
  records : Part (ListOf RecordText) (contents ["records"] ms) b.records

theorem noneTwice_iff {ms : List Member} : NoneTwice form ms ↔
    (contents ["totalCount", "count"] ms).length ≤ 1 ∧ (contents ["records"] ms).length ≤ 1 := by
  simp [NoneTwice, form, Field.ofLens]

/-- **The members of an object decide whether it is a batch, and which one.** -/
theorem decode_iff {text : String} {ms : List Member} (h : ObjectDocument text ms) {b : Batch} :
    decode text = .ok b ↔ NoneTwice form ms ∧ Described ms b := by
  rw [decode, slots.run_iff h]
  constructor
  · rintro ⟨⟨totalCount, records⟩, ht, hb⟩
    have htwice := noneTwice_of_tells slots ht
    obtain ⟨htotal₁, hrecords₁⟩ := noneTwice_iff.mp htwice
    simp only [slots, List.forall_mem_cons] at ht
    obtain ⟨htotal, hrecords, -⟩ := ht
    obtain rfl := Except.ok.inj hb
    exact ⟨htwice, (part_iff htotal₁).mpr ⟨totalCount, htotal, rfl⟩,
      (part_iff hrecords₁).mpr ⟨records, hrecords, rfl⟩⟩
  · rintro ⟨htwice, htotal, hrecords⟩
    obtain ⟨htotal₁, hrecords₁⟩ := noneTwice_iff.mp htwice
    obtain ⟨totalCount, htotal, htotal'⟩ := (part_iff htotal₁).mp htotal
    obtain ⟨records, hrecords, hrecords'⟩ := (part_iff hrecords₁).mp hrecords
    refine ⟨⟨totalCount, records⟩, List.forall_mem_cons.mpr ⟨htotal,
      List.forall_mem_singleton.mpr hrecords⟩, ?_⟩
    show Except.ok (⟨totalCount.join, records.join⟩ : Batch) = _
    rw [htotal', hrecords']

end Batch

/-! ### Spellings of the same members -/

/-- A change to the members of an object that does not change what they tell of the fields with the
names `fields`, of which those in `optional` may be left out: another order, another name of a
field, a member of an unknown name, or `null` for a field that is left out. -/
inductive Respells (fields optional : List (List String)) : List Member → List Member → Prop
  | order {ms ms' : List Member} (h : ms.Perm ms') : Respells fields optional ms ms'
  | otherName {ms : List Member} {names : List String} {name name' : String} {v : List Char}
      (hf : names ∈ fields) (hn : name ∈ names) (hn' : name' ∈ names) :
      Respells fields optional ((name, v) :: ms) ((name', v) :: ms)
  | unknown {ms : List Member} {name : String} {v : List Char}
      (h : ∀ names ∈ fields, name ∉ names) : Respells fields optional ms ((name, v) :: ms)
  | null {ms : List Member} {names : List String} {name : String} (ho : names ∈ optional)
      (hn : name ∈ names) (h : contents names ms = []) :
      Respells fields optional ms ((name, nullText) :: ms)

/-- The values of a field are the same ones, in any order, or `null` has been added to an optional
field that was left out. -/
def SameContents (optional : List (List String)) (names : List String) (ms ms' : List Member) :
    Prop :=
  (contents names ms).Perm (contents names ms') ∨
    names ∈ optional ∧ contents names ms = [] ∧ contents names ms' = [nullText]

/-- The names of different fields are different. -/
def NamesApart (fields : List (List String)) : Prop :=
  ∀ names ∈ fields, ∀ names' ∈ fields, ∀ name ∈ names, name ∈ names' → names = names'

instance (fields : List (List String)) : Decidable (NamesApart fields) :=
  inferInstanceAs (Decidable (∀ names ∈ fields, ∀ names' ∈ fields, ∀ name ∈ names, name ∈ names' →
    names = names'))

theorem Respells.sameContents {fields optional : List (List String)} (ha : NamesApart fields)
    (ho : ∀ names ∈ optional, names ∈ fields) {ms ms' : List Member}
    (h : Respells fields optional ms ms') {names : List String} (hnames : names ∈ fields) :
    SameContents optional names ms ms' := by
  cases h with
  | order h => exact .inl ((h.filter _).map _)
  | @otherName ms names' name name' v hf hn hn' =>
      have hiff : name ∈ names ↔ name' ∈ names := by
        constructor
        · intro h; rwa [ha names hnames names' hf name h hn]
        · intro h; rwa [ha names hnames names' hf name' h hn']
      refine .inl (.of_eq ?_)
      by_cases h : name ∈ names
      · simp [contents, h, hiff.mp h]
      · simp [contents, h, mt hiff.mpr h]
  | unknown h =>
      exact .inl (.of_eq (by simp [contents, h names hnames]))
  | @null ms names' name ho' hn h =>
      by_cases hname : name ∈ names
      · obtain rfl := ha names hnames names' (ho names' ho') name hname hn
        refine .inr ⟨ho', h, ?_⟩
        rw [contents, List.filter_cons_of_pos (by simpa using hname), List.map_cons]
        exact congrArg (nullText :: ·) h
      · exact .inl (.of_eq (by simp [contents, hname]))

namespace SameContents

variable {optional : List (List String)} {names : List String} {ms ms' : List Member}

theorem length_le_iff (h : SameContents optional names ms ms') :
    (contents names ms).length ≤ 1 ↔ (contents names ms').length ≤ 1 := by
  rcases h with h | ⟨-, h, h'⟩
  · rw [h.length_eq]
  · rw [h, h']
    decide

/-- Adding `null` for an optional member does not change what it tells. -/
theorem part_iff {Is : List Char → β → Prop} (hnull : ∀ b, ¬ Is nullText b)
    (h : SameContents optional names ms ms') {o : Option β} :
    Part Is (contents names ms) o ↔ Part Is (contents names ms') o := by
  rcases h with h | ⟨-, h, h'⟩
  · cases o with
    | none => exact forall_congr' fun v => imp_congr_left h.mem_iff
    | some b => exact exists_congr fun v => and_congr_left fun _ => h.mem_iff
  · rw [h, h']
    cases o with
    | none => simp [Part]
    | some b => simp [Part, hnull b]

theorem exists_iff {p : List Char → Prop} (hn : names ∉ optional)
    (h : SameContents optional names ms ms') :
    (∃ v ∈ contents names ms, p v) ↔ ∃ v ∈ contents names ms', p v := by
  rcases h with h | ⟨ho, -, -⟩
  · exact exists_congr fun v => and_congr_left fun _ => h.mem_iff
  · exact absurd ho hn

end SameContents

/-- The names of the fields of a form. -/
def fieldNames (form : Form δ α) : List (List String) := form.fields.map (·.names)

theorem noneTwice_congr {form : Form δ α} {optional : List (List String)} {ms ms' : List Member}
    (h : ∀ names ∈ fieldNames form, SameContents optional names ms ms') :
    NoneTwice form ms ↔ NoneTwice form ms' :=
  forall₂_congr fun field hf => (h field.names (List.mem_map_of_mem hf)).length_le_iff

/-- Two member lists are spellings of the same members. -/
def Respelled (form : Form δ α) (optional : List (List String)) :
    List Member → List Member → Prop :=
  Relation.EqvGen (Respells (fieldNames form) optional)

/-- What does not change when a spelling is changed once is the same for all spellings. -/
theorem Respelled.iff {form : Form δ α} {optional : List (List String)} {P : List Member → Prop}
    (hstep : ∀ {ms ms'}, Respells (fieldNames form) optional ms ms' → (P ms ↔ P ms'))
    {ms ms' : List Member} (h : Respelled form optional ms ms') : P ms ↔ P ms' := by
  induction h with
  | rel ms ms' h => exact hstep h
  | refl ms => exact Iff.rfl
  | symm ms ms' _ ih => exact ih.symm
  | trans ms ms' ms'' _ _ ih ih' => exact ih.trans ih'

namespace Record

/-- The names of the fields that a record may lack. -/
def optionalNames : List (List String) := [["type"], ["value"], ["tags"]]

/-- A changed spelling tells the same of a record. -/
theorem described_congr {ms ms' : List Member}
    (h : Respells (fieldNames form) optionalNames ms ms') {r : Record} :
    NoneTwice form ms ∧ Described ms r ↔ NoneTwice form ms' ∧ Described ms' r := by
  have hs : ∀ names ∈ fieldNames form, SameContents optionalNames names ms ms' := fun names hn =>
    h.sameContents (by decide) (by decide) hn
  rw [described_iff, described_iff]
  refine and_congr (noneTwice_congr hs) (and_congr ?_ (and_congr ?_ (and_congr ?_ ?_)))
  · exact (hs _ (by decide)).exists_iff (by decide)
  · exact (hs _ (by decide)).part_iff not_isString_null
  · exact (hs _ (by decide)).part_iff not_isString_null
  · exact (hs _ (by decide)).part_iff (not_mapOf_null _)

/-- **Two spellings of the same members decode as the same record, or both as none.** -/
theorem decode_congr {text text' : String} {ms ms' : List Member} (h : ObjectDocument text ms)
    (h' : ObjectDocument text' ms') (hr : Respelled form optionalNames ms ms') {r : Record} :
    decode text = .ok r ↔ decode text' = .ok r := by
  rw [decode_iff h, decode_iff h']
  exact hr.iff (P := fun ms => NoneTwice form ms ∧ Described ms r) fun h => described_congr h

end Record

namespace Batch

/-- The names of the fields of a batch, which it may all lack. -/
def optionalNames : List (List String) := [["totalCount", "count"], ["records"]]

/-- A changed spelling tells the same of a batch. -/
theorem described_congr {ms ms' : List Member}
    (h : Respells (fieldNames form) optionalNames ms ms') {b : Batch} :
    NoneTwice form ms ∧ Described ms b ↔ NoneTwice form ms' ∧ Described ms' b := by
  have hs : ∀ names ∈ fieldNames form, SameContents optionalNames names ms ms' := fun names hn =>
    h.sameContents (by decide) (by decide) hn
  rw [described_iff, described_iff]
  refine and_congr (noneTwice_congr hs) (and_congr ?_ ?_)
  · exact (hs _ (by decide)).part_iff not_isCount_null
  · exact (hs _ (by decide)).part_iff (not_listOf_null _)

/-- **Two spellings of the same members decode as the same batch, or both as none.** -/
theorem decode_congr {text text' : String} {ms ms' : List Member} (h : ObjectDocument text ms)
    (h' : ObjectDocument text' ms') (hr : Respelled form optionalNames ms ms') {b : Batch} :
    decode text = .ok b ↔ decode text' = .ok b := by
  rw [decode_iff h, decode_iff h']
  exact hr.iff (P := fun ms => NoneTwice form ms ∧ Described ms b) fun h => described_congr h

end Batch

/-! ### Decoding -/

/-- **Records and batches are decoded from every spelling.**  If no field is told twice, an object
decodes as exactly the record, and as exactly the batch, that its members describe; if one is, it
does not decode.  Another order, another name of a field, members of unknown names and `null` for an
absent part make no difference. -/
theorem decoded_as_described {text : String} {ms : List Member} (h : ObjectDocument text ms) :
    (NoneTwice Record.form ms → ∀ r, Record.decode text = .ok r ↔ Record.Described ms r) ∧
      (NoneTwice Batch.form ms → ∀ b, Batch.decode text = .ok b ↔ Batch.Described ms b) ∧
      (¬ NoneTwice Record.form ms → ∃ e, Record.decode text = .error e) ∧
      (¬ NoneTwice Batch.form ms → ∃ e, Batch.decode text = .error e) ∧
      ∀ text' ms', ObjectDocument text' ms' →
        (Respelled Record.form Record.optionalNames ms ms' →
          ∀ r, Record.decode text = .ok r ↔ Record.decode text' = .ok r) ∧
        (Respelled Batch.form Batch.optionalNames ms ms' →
          ∀ b, Batch.decode text = .ok b ↔ Batch.decode text' = .ok b) := by
  refine ⟨fun hn r => ?_, fun hn b => ?_, fun hn => ?_, fun hn => ?_, fun text' ms' h' => ⟨?_, ?_⟩⟩
  · rw [Record.decode_iff h, and_iff_right hn]
  · rw [Batch.decode_iff h, and_iff_right hn]
  · cases hd : Record.decode text with
    | error e => exact ⟨e, rfl⟩
    | ok r => exact absurd ((Record.decode_iff h).mp hd).1 hn
  · cases hd : Batch.decode text with
    | error e => exact ⟨e, rfl⟩
    | ok b => exact absurd ((Batch.decode_iff h).mp hd).1 hn
  · exact fun hr r => Record.decode_congr h h' hr
  · exact fun hr b => Batch.decode_congr h h' hr

/-- A record whose text has blanks around its parts, an escape in a name and `null` for its type. -/
def spacedRecord : String := "\x7b \"\\u0069d\" : \"a\"\t,\r\n\"type\":null \x7d"

theorem isObject_spacedRecord :
    IsObject [("id", ['"', 'a', '"']), ("type", nullText)] spacedRecord.toList := by
  have hspace : Blank [' '] := by decide
  have hgap : Gap false ['\t', ',', '\r', '\n'] :=
    .next (by decide : Blank ['\t']) (by decide : Blank ['\r', '\n'])
  -- the members, the name of the first one with an escape in it
  have hescape : SpellsChar ['\\', 'u', '0', '0', '6', '9'] 'i' :=
    .code (.mk (i := 0) (j := 0) (k := 6) (l := 9) (.inl rfl) (.inl rfl) (.inl rfl) (.inl rfl))
      (by decide)
  have hplain : SpellsChar ['d'] 'd' := .plain (by decide) (by decide) (by decide)
  have hname : IsString ['"', '\\', 'u', '0', '0', '6', '9', 'd', '"'] "id" :=
    ⟨_, rfl, (Spells.cons hescape (.cons hplain .nil) :)⟩
  have hid : MemberText ("id", ['"', 'a', '"']) "\"\\u0069d\" : \"a\"".toList :=
    .mk hname hspace hspace
  have htype : MemberText ("type", nullText) "\"type\":null".toList :=
    .mk (Quoted.isString_encode "type") .nil .nil
  -- what stands around them
  have hspaced : Spaced '\x7d' true ["\"\\u0069d\" : \"a\"".toList, "\"type\":null".toList] _ :=
    .part (.first hspace) (.part hgap (.close hspace))
  refine ⟨(ObjectText.mk (.cons hid (.cons htype .nil)) hspaced :), ?_⟩
  have ha : IsString ['"', 'a', '"'] "a" := Quoted.isString_encode "a"
  simpa using ⟨.string ha, .null⟩

/-- Blanks and escapes are free, an absent type may be `null`, the id may be called `referent` and
stand behind another member, but may not be told under both its names; records stand in batches. -/
theorem decoded_as_described_small :
    Record.decode (" " ++ spacedRecord ++ "\n") = .ok ⟨"a", none, none, none⟩ ∧
      Record.decode "\x7b\"x\":[0],\"referent\":\"a\"\x7d" = .ok ⟨"a", none, none, none⟩ ∧
      (∃ e, Record.decode "\x7b\"id\":\"a\",\"referent\":\"a\"\x7d" = .error e) ∧
      Batch.decode ("\x7b\"count\":0,\"records\":[" ++ spacedRecord ++ "]\x7d") =
        .ok ⟨some 0, some [⟨"a", none, none, none⟩]⟩ := by
  have ha : IsString ['"', 'a', '"'] "a" := Quoted.isString_encode "a"
  have hzero : IsCount ['0'] 0 :=
    ⟨⟨⟨List.cons_ne_nil _ _, List.forall_mem_singleton.mpr rfl⟩, fun _ => rfl⟩, rfl⟩
  have hlist : IsValue ['[', '0', ']'] :=
    .list (.mk (spaced_enclosed ']' true [['0']])) (by simpa using reads_count.isValue hzero)
  -- the objects and their members
  have hspaced := isObject_spacedRecord
  have hdocument : ObjectDocument (" " ++ spacedRecord ++ "\n")
      [("id", ['"', 'a', '"']), ("type", nullText)] :=
    ⟨[' '], spacedRecord.toList, ['\n'], by decide, by decide, by decide, hspaced⟩
  have hother : IsObject [("x", ['[', '0', ']']), ("referent", ['"', 'a', '"'])]
      "\x7b\"x\":[0],\"referent\":\"a\"\x7d".toList :=
    isObject_enclosed (by decide) (by simpa using ⟨hlist, .string ha⟩)
  have htwice : IsObject [("id", ['"', 'a', '"']), ("referent", ['"', 'a', '"'])]
      "\x7b\"id\":\"a\",\"referent\":\"a\"\x7d".toList :=
    isObject_enclosed (by decide) (by simpa using .string ha)
  have hrecords : IsList [spacedRecord.toList] ("[" ++ spacedRecord ++ "]").toList :=
    ⟨.mk (spaced_enclosed ']' true _), by simpa using .object hspaced.1 hspaced.2⟩
  have hbatch : IsObject
      [("count", ['0']), ("records", ("[" ++ spacedRecord ++ "]").toList)]
      ("\x7b\"count\":0,\"records\":[" ++ spacedRecord ++ "]\x7d").toList :=
    isObject_enclosed (by decide)
      (by simpa using ⟨reads_count.isValue hzero, .list hrecords.1 hrecords.2⟩)
  -- one change of the spelling after another
  have hrespelled : Respelled Record.form Record.optionalNames
      [("id", ['"', 'a', '"']), ("type", nullText)]
      [("x", ['[', '0', ']']), ("referent", ['"', 'a', '"'])] := by
    have htype : ["type"] ∈ Record.optionalNames := by decide
    have hid : ["id", "referent"] ∈ fieldNames Record.form := by decide
    refine .trans _ [("type", nullText), ("id", ['"', 'a', '"'])] _
      (.rel _ _ (.order (.swap _ _ _))) ?_
    refine .trans _ [("id", ['"', 'a', '"'])] _
      (.symm _ _ (.rel _ _ (.null htype (by decide) (by decide)))) ?_
    refine .trans _ [("referent", ['"', 'a', '"'])] _
      (.rel _ _ (.otherName hid (by decide) (by decide))) ?_
    exact .rel _ _ (.unknown (by decide))
  have hdescribed : Record.Described [("id", ['"', 'a', '"']), ("type", nullText)]
      ⟨"a", none, none, none⟩ :=
    ⟨⟨_, List.mem_singleton_self _, ha⟩, by simp [Part, contents], by simp [Part, contents],
      by simp [Part, contents]⟩
  have hrecord := ((decoded_as_described hdocument).1 (by decide) _).mpr hdescribed
  refine ⟨hrecord, ?_, ?_, ?_⟩
  · exact (((decoded_as_described hdocument).2.2.2.2 _ _ hother.document).1 hrespelled _).mp hrecord
  · exact (decoded_as_described htwice.document).2.2.1 (by decide)
  · refine ((decoded_as_described hbatch.document).2.1 (by decide) _).mpr
      ⟨⟨_, List.mem_singleton_self _, hzero⟩, _, List.mem_singleton_self _, _, hrecords,
        .cons ⟨.object hspaced.1 hspaced.2, ?_⟩ .nil⟩
    rw [String.ofList_toList]
    exact ((decoded_as_described hspaced.document).1 (by decide) _).mpr hdescribed

end TaggedRecords
