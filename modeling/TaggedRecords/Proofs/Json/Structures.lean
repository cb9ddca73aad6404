import Mathlib.Data.List.Induction
import Mathlib.Data.List.Pairwise
import TaggedRecords.Proofs.Json.Reading

/-!
# JSON — which objects a form accepts

The members of an object lead from the blank draft to the draft of a structure, one step for each
(`Puts`): a member of another name changes nothing, and one under the name of a field fills that
field, unless it is filled already, with what the reader of the field makes of the value alone.

**A form reads an object exactly if its members lead to a draft that makes a structure**
(`run_object_iff`), provided that the readers of its fields take or refuse every value.  Then the
form takes or refuses every value itself, lists of fields included (`settles_form`), so structures
may stand inside each other.

Where each field has a place of its own in the draft (`Slots`), the order of the members does not
matter: **the draft has, of each field, what the only member under its names says**
(`Slots.builds_iff`).
-/

namespace TaggedRecords.Json.Reader

variable {α β δ : Type}

/-- What a member does to a draft. -/
def Puts (form : Form δ α) (d : δ) (m : Member) (d' : δ) : Prop :=
  match form.fields.find? (·.names.contains m.1) with
  | none => d' = d
  | some field => field.filled d = false ∧ (field.read d).run (.ofList m.2) = .ok d'

/-- The readers of all fields take or refuse every value. -/
def FieldsSettle (fields : List (Field δ)) : Prop :=
  ∀ field ∈ fields, ∀ d, Settles (field.read d)

theorem fails_failInObject (fault : Fault) : Fails (Form.failInObject fault : Reader α) := by
  refine .bind fun next => ?_
  split
  · exact .bind fun _ => fails_fail _
  · exact fails_fail _

theorem member_unknown {form : Form δ α} {name : String} (d : δ)
    (h : form.fields.find? (·.names.contains name) = none) :
    form.member d name = (do colon; pass; return d) := by
  rw [Form.member, h]

theorem member_known {form : Form δ α} {name : String} {field : Field δ} {d : δ}
    (h : form.fields.find? (·.names.contains name) = some field) (hd : field.filled d = false) :
    form.member d name = (do colon; field.read d) := by
  rw [Form.member, h]
  simp only [hd]
  rfl

theorem fails_member {form : Form δ α} {name : String} {field : Field δ} {d : δ}
    (h : form.fields.find? (·.names.contains name) = some field) (hd : field.filled d = true) :
    Fails (form.member d name) := by
  rw [Form.member, h]
  simp only [hd]
  exact fails_failInObject _

theorem readsParts_members {form : Form δ α} (hf : FieldsSettle form.fields) :
    ReadsParts BeginsMember MemberOf (formBody form) (Puts form) where
  begins := MemberOf.begins
  takes_part := by
    intro m part d d' hp hm
    unfold Puts at hm
    split at hm
    · rename_i hfind
      subst hm
      exact hp.takes (member_unknown d' hfind) fun ws hws => (takes_pass hp.2 hws).give rfl
    · rename_i field hfind
      have hs := hf field (List.mem_of_find?_eq_some hfind) d
      exact hp.takes (member_known hfind hm.1) fun ws hws =>
        ((hs.takes_iff hp.2).mpr hm.2).afterBlank hs.trims hws
  refuses_part := by
    intro m part d hp hn
    unfold Puts at hn
    split at hn
    · exact absurd rfl (hn d)
    · rename_i field hfind
      have hs := hf field (List.mem_of_find?_eq_some hfind) d
      cases hd : field.filled d with
      | true => exact hp.refuses_name (fails_member hfind hd)
      | false =>
          refine hp.refuses (member_known hfind hd) fun ws hws => ?_
          exact (hs.reads.refuses hp.2 fun d' hd' => hn d' ⟨hd, hd'.2⟩).afterBlank hs.trims hws

/-! ### Objects -/

section

variable {form : Form δ α} (hf : FieldsSettle form.fields) {ms : List Member} {v : List Char}
  (hv : IsObject ms v)

include hf

/-- Members that lead from the blank draft to another one are taken together. -/
theorem takes_members {parts : List (List Char)} {text : List Char} {d : δ}
    (hp : List.Forall₂ MemberText ms parts) (hm : ∀ m ∈ ms, IsValue m.2)
    (ht : Spaced '\x7d' true parts text) (hd : Builds (Puts form) form.blank ms d) :
    Takes anything (loop (gatherStep anotherMember (formBody form) id) (true, form.blank)) text d :=
  ((readsParts_members hf).gathers (forall₂_memberOf hp hm) hd).takes separates_members (.inr rfl)
    id ht

include hv

theorem takes_read {d : δ} {a : α} (hd : Builds (Puts form) form.blank ms d)
    (ha : form.finish d = .ok a) : Takes Stops form.read v a := by
  obtain ⟨⟨hp, ht⟩, hm⟩ := hv
  have ho := takes_object form (takes_members hf hp hm ht hd) ha
  exact .afterFirst (fun _ _ => rfl) ho.ofAnything

theorem refuses_read (hn : ∀ d a, Builds (Puts form) form.blank ms d → form.finish d ≠ .ok a) :
    Refuses form.read v := by
  obtain ⟨@⟨parts, text, hp, ht⟩, hm⟩ := hv
  have ho : Refuses form.object text := by
    rw [object_eq]
    by_cases hd : ∃ d, Builds (Puts form) form.blank ms d
    · -- all members are taken, but the draft makes no structure
      obtain ⟨d, hd⟩ := hd
      intro tail p
      rw [run_bind_ok (takes_members hf hp hm ht hd tail p trivial)]
      cases hfinish : form.finish d with
      | ok a => exact absurd hfinish (hn d a hd)
      | error i => exact fails_fail _ _
    · have hs := (readsParts_members hf).stumbles (forall₂_memberOf hp hm) (not_exists.mp hd)
      exact (hs.refuses separates_members (.inr rfl) id ht).bind _
  exact .afterFirst (fun _ _ => rfl) ho

end

/-- **A form reads an object exactly if its members lead to a draft that makes a structure.** -/
theorem run_object_iff {form : Form δ α} (hf : FieldsSettle form.fields) {text : String}
    {ms : List Member} (h : ObjectDocument text ms) {a : α} :
    form.read.run text = .ok a ↔
      ∃ d, Builds (Puts form) form.blank ms d ∧ form.finish d = .ok a := by
  obtain ⟨ws, v, ws', htext, hws, hws', hv⟩ := h
  have htrims : Trims form.read := trims_peekWord.bind _
  constructor
  · intro hr
    by_cases hd : ∃ d b, Builds (Puts form) form.blank ms d ∧ form.finish d = .ok b
    · obtain ⟨d, b, hd, hb⟩ := hd
      rw [(takes_read hf hv hd hb).run_spaced htrims htext hws hws'] at hr
      exact ⟨d, hd, Except.ok.inj hr ▸ hb⟩
    · have hn := refuses_read hf hv fun d b hb hfinish => hd ⟨d, b, hb, hfinish⟩
      obtain ⟨e, he⟩ := hn.run_spaced htrims htext hws
      rw [hr] at he
      contradiction
  · rintro ⟨d, hd, ha⟩
    exact (takes_read hf hv hd ha).run_spaced htrims htext hws hws'

/-! ### Lists of fields -/

/-- The end of a list is taken, and anything else is refused. -/
theorem takes_endOfList {ws : List Char} (hws : Blank ws) :
    Takes anything endOfList (ws ++ [']']) () :=
  .afterBlank (.afterFirst (fun _ _ => rfl) (.pure _)) (trims_peekWord.bind _) hws

theorem refuses_endOfList {ws text : List Char} {c : Char} (hws : Blank ws)
    (hblank : Source.isBlank c = false) (hc : c ≠ ']') :
    Refuses endOfList (ws ++ c :: text) := by
  refine .afterBlank (refuses_of_first hblank ?_) (trims_peekWord.bind _) hws
  split
  · contradiction
  · rename_i h
    exact absurd (Option.some.inj h) hc
  · refine .bind fun _ => .bind fun next => ?_
    split <;> exact fails_failNext _
  · exact fails_failNext _

/-- Before an item, the next field of a list is read. -/
theorem run_listed_item (field : Field δ) (rest : List (Field δ)) {first : Bool} (d : δ)
    {gap : List Char} (hg : Gap first gap) {c : Char} (hc : BeginsItem c) (behind : List Char)
    (p : Position) :
    StateT.run (Form.listed (field :: rest) first d) ⟨gap ++ c :: behind, p⟩ =
      StateT.run (field.read d >>= Form.listed rest false) ⟨c :: behind, p.after gap⟩ := by
  show StateT.run (anotherItem first >>= _) _ = _
  rw [run_bind_ok (separates_items.run_gap hg hc behind p)]
  rfl

/-- Fields are read from a list one by one until one of the two comes to its end. -/
theorem settles_listed : ∀ {fields : List (Field δ)}, FieldsSettle fields →
    ∀ {first : Bool} (d : δ) {items : List (List Char)} {text : List Char},
      (∀ item ∈ items, IsValue item) → Spaced ']' first items text →
      (∃ d', Takes anything (Form.listed fields first d) text d') ∨
        Refuses (Form.listed fields first d) text
  | [], _, _, d, [], _, _, ht => by
      obtain ⟨ws, hws, rfl⟩ := ht.nil_inv
      exact .inl ⟨d, (takes_endOfList hws).give rfl⟩
  | [], _, _, _, item :: items, _, hi, ht => by
      obtain ⟨gap, text, rfl, hg, -⟩ := ht.cons_inv
      obtain ⟨c, rest, rfl, hc⟩ := (hi item List.mem_cons_self).begins
      refine .inr (.bind ?_ _)
      cases hg with
      | first hws => exact refuses_endOfList hws hc.blank hc.close
      | next hws _ =>
          rw [List.append_assoc]
          exact refuses_endOfList hws (by decide) (by decide)
  | field :: rest, _, first, d, [], _, _, ht => by
      obtain ⟨ws, hws, rfl⟩ := ht.nil_inv
      refine .inl ⟨d, .afterBlank (fun tail p _ => ?_) ((separates_items.trims first).bind _) hws⟩
      show StateT.run (anotherItem first >>= _) ⟨']' :: tail, p⟩ = _
      rw [run_bind_ok (separates_items.atClose first tail p)]
      rfl
  | field :: rest, hf, first, d, item :: items, _, hi, ht => by
      obtain ⟨gap, text, rfl, hg, t⟩ := ht.cons_inv
      have hitem := hi item List.mem_cons_self
      have hs := hf field List.mem_cons_self d
      have hrest : FieldsSettle rest := fun field h => hf field (List.mem_cons_of_mem _ h)
      have htail : ∀ item ∈ items, IsValue item := fun item h => hi item (List.mem_cons_of_mem _ h)
      obtain ⟨c, part, rfl, hc⟩ := hitem.begins
      have hr := run_listed_item field rest d hg ⟨hc.blank, hc.close⟩
      have hstops : ∀ tail, Stops (text ++ tail) := stops_spaced (.inl rfl) t
      rcases hs.takes_or_refuses hitem with ⟨d', hd'⟩ | hn
      · rcases settles_listed hrest d' htail t with ⟨d'', hd''⟩ | hn
        · exact .inl ⟨d'', .afterGap hr (hd'.bind hd'' fun tail _ => hstops tail)⟩
        · exact .inr (.afterGap hr (.afterTaking hd' hn hstops))
      · exact .inr (.afterGap hr ((hn.bind _).append text))

/-- A list of fields is taken or refused. -/
theorem settles_array {form : Form δ α} (hf : FieldsSettle form.fields)
    {items : List (List Char)} {text : List Char} (hi : ∀ item ∈ items, IsValue item)
    (ht : Spaced ']' true items text) :
    (∃ a, Takes anything form.array text a) ∨ Refuses form.array text := by
  rcases settles_listed hf form.blank hi ht with ⟨d, hd⟩ | hn
  · cases hfinish : form.finish d with
    | ok a => exact .inl ⟨a, hd.give (by rw [hfinish])⟩
    | error i =>
        refine .inr fun tail p => ?_
        rw [Form.array, run_bind_ok (hd tail p trivial), hfinish]
        exact fails_fail _ _
  · exact .inr (hn.bind _)

/-- **A form takes or refuses every value.** -/
theorem settles_form {form : Form δ α} (hf : FieldsSettle form.fields) : Settles form.read where
  trims := trims_peekWord.bind _
  takes_or_refuses := by
    intro v hv
    obtain ⟨c, text, rfl, hc⟩ := hv.begins
    by_cases hl : c = '['
    · obtain ⟨items, ⟨ht⟩, hi⟩ := hc.list hl
      rcases settles_array hf hi ht with ⟨a, ha⟩ | hn
      · exact .inl ⟨a, .afterFirst (fun _ _ => rfl) ha.ofAnything⟩
      · exact .inr (.afterFirst (fun _ _ => rfl) hn)
    · by_cases ho : c = '\x7b'
      · obtain ⟨ms, hms⟩ := hc.object ho
        by_cases hd : ∃ d a, Builds (Puts form) form.blank ms d ∧ form.finish d = .ok a
        · obtain ⟨d, a, hd, ha⟩ := hd
          exact .inl ⟨a, takes_read hf hms hd ha⟩
        · exact .inr (refuses_read hf hms fun d a hb ha => hd ⟨d, a, hb, ha⟩)
      · refine .inr (refuses_of_first hc.blank ?_)
        split
        · rename_i h
          exact absurd (Option.some.inj h) hl
        · rename_i h
          exact absurd (Option.some.inj h) ho
        · exact fails_otherForm _

/-! ### What the members tell of a field -/

/-- The values of the members under any of these names, in order. -/
def contents (names : List String) (ms : List Member) : List (List Char) :=
  (ms.filter fun m => m.1 ∈ names).map (·.2)

theorem contents_concat_here {names : List String} {m : Member} (h : m.1 ∈ names)
    (ms : List Member) : contents names (ms ++ [m]) = contents names ms ++ [m.2] := by
  simp [contents, List.filter_append, h]

theorem contents_concat_other {names : List String} {m : Member} (h : m.1 ∉ names)
    (ms : List Member) : contents names (ms ++ [m]) = contents names ms := by
  simp [contents, List.filter_append, h]

/-- A field with a place in a draft, and what its values mean. -/
structure Slot (δ : Type) where
  {β : Type}
  names : List String
  reader : Reader β
  get : δ → Option β
  set : δ → β → δ
  Is : List Char → β → Prop
  reads : Reads reader Is
  get_set : ∀ d b, get (set d b) = some b

/-- The field of a form. -/
def Slot.field (slot : Slot δ) : Field δ := .ofLens slot.names slot.reader slot.get slot.set

/-- The members tell what there is of the field: nothing if none has its name, and what the value of
the only one means otherwise. -/
def Slot.Tells (slot : Slot δ) (ms : List Member) (o : Option slot.β) : Prop :=
  List.Forall₂ slot.Is (contents slot.names ms) o.toList

/-- Two fields have different names, and putting a value into one leaves the other as it is. -/
def Slot.Apart (slot slot' : Slot δ) : Prop :=
  (∀ name ∈ slot.names, name ∉ slot'.names) ∧
    (∀ d b, slot.get (slot'.set d b) = slot.get d) ∧ ∀ d b, slot'.get (slot.set d b) = slot'.get d

/-- The fields of a form as fields that are apart, and that make up a draft. -/
structure Slots (form : Form δ α) where
  all : List (Slot δ)
  fields : form.fields = all.map Slot.field
  apart : all.Pairwise Slot.Apart
  blank : ∀ slot ∈ all, slot.get form.blank = none
  ext : ∀ d d', (∀ slot ∈ all, slot.get d = slot.get d') → d = d'

theorem Slot.Apart.symm {slot slot' : Slot δ} (h : slot.Apart slot') : slot'.Apart slot :=
  ⟨fun name hn hn' => h.1 name hn' hn, h.2.2, h.2.1⟩

instance : Std.Symm (Slot.Apart (δ := δ)) := ⟨fun _ _ => Slot.Apart.symm⟩

theorem Slot.tells_none {slot : Slot δ} {ms : List Member} :
    slot.Tells ms none ↔ contents slot.names ms = [] :=
  List.forall₂_nil_right_iff

theorem Slot.tells_some {slot : Slot δ} {ms : List Member} {b : slot.β} :
    slot.Tells ms (some b) ↔ ∃ v, contents slot.names ms = [v] ∧ slot.Is v b := by
  constructor
  · intro h
    obtain ⟨v, vs, hb, hvs, hc⟩ := List.forall₂_cons_right_iff.mp h
    rw [List.forall₂_nil_right_iff.mp hvs] at hc
    exact ⟨v, hc, hb⟩
  · rintro ⟨v, hc, hb⟩
    rw [Slot.Tells, hc]
    exact .cons hb .nil

theorem Slot.Tells.unique {slot : Slot δ} {ms : List Member} {o o' : Option slot.β}
    (h : slot.Tells ms o) (h' : slot.Tells ms o') : o = o' := by
  cases o with
  | none =>
      cases o' with
      | none => rfl
      | some b' =>
          obtain ⟨v, hc, -⟩ := Slot.tells_some.mp h'
          rw [Slot.tells_none.mp h] at hc
          contradiction
  | some b =>
      obtain ⟨v, hc, hb⟩ := Slot.tells_some.mp h
      cases o' with
      | none =>
          rw [Slot.tells_none.mp h'] at hc
          contradiction
      | some b' =>
          obtain ⟨v', hc', hb'⟩ := Slot.tells_some.mp h'
          obtain rfl : v = v' := List.head_eq_of_cons_eq (hc.symm.trans hc')
          rw [slot.reads.unique hb hb']

/-- A member of the field has to be the only one. -/
theorem Slot.tells_concat_here {slot : Slot δ} {ms : List Member} {m : Member}
    {o : Option slot.β} (hm : m.1 ∈ slot.names) :
    slot.Tells (ms ++ [m]) o ↔ slot.Tells ms none ∧ ∃ b, o = some b ∧ slot.Is m.2 b := by
  rw [Slot.tells_none]
  cases o with
  | none => simp [Slot.tells_none, contents_concat_here hm]
  | some b =>
      rw [Slot.tells_some, contents_concat_here hm]
      cases contents slot.names ms <;> simp

/-- A member of another name tells nothing of the field. -/
theorem Slot.tells_concat_other {slot : Slot δ} {ms : List Member} {m : Member}
    {o : Option slot.β} (hm : m.1 ∉ slot.names) :
    slot.Tells (ms ++ [m]) o ↔ slot.Tells ms o := by
  rw [Slot.Tells, contents_concat_other hm, Slot.Tells]

section

variable {form : Form δ α} (slots : Slots form)

include slots

theorem Slots.settle : FieldsSettle form.fields := by
  rw [slots.fields]
  intro field hf d
  obtain ⟨slot, -, rfl⟩ := List.mem_map.mp hf
  exact (slot.reads.map (slot.set d)).settles

/-- A member of another name changes nothing. -/
theorem Slots.puts_unknown {d d' : δ} {m : Member} (h : ∀ slot ∈ slots.all, m.1 ∉ slot.names) :
    Puts form d m d' ↔ d' = d := by
  have hfind : form.fields.find? (·.names.contains m.1) = none := by
    rw [slots.fields]
    refine List.find?_eq_none.mpr fun field hf => ?_
    obtain ⟨slot, hslot, rfl⟩ := List.mem_map.mp hf
    simpa [Slot.field, Field.ofLens] using h slot hslot
  rw [Puts, hfind]

/-- Different fields are apart. -/
theorem Slots.eq_or_apart {slot slot' : Slot δ} (hs : slot ∈ slots.all) (hs' : slot' ∈ slots.all) :
    slot = slot' ∨ slot.Apart slot' :=
  or_iff_not_imp_left.mpr fun hne => slots.apart.forall hs hs' hne

theorem Slots.find?_eq {name : String} {slot : Slot δ} (hs : slot ∈ slots.all)
    (hm : name ∈ slot.names) : form.fields.find? (·.names.contains name) = some slot.field := by
  rw [slots.fields, List.find?_map]
  cases hfind : slots.all.find? ((fun field => field.names.contains name) ∘ Slot.field) with
  | none => simpa [Slot.field, Field.ofLens, hm] using List.find?_eq_none.mp hfind slot hs
  | some slot' =>
      have hname : name ∈ slot'.names := by
        simpa [Slot.field, Field.ofLens] using List.find?_some hfind
      rcases slots.eq_or_apart hs (List.mem_of_find?_eq_some hfind) with rfl | h
      · rfl
      · exact absurd hname (h.1 name hm)

/-- A member of a field puts into a draft that lacks it what its value means. -/
theorem Slots.puts_known {d d' : δ} {m : Member} {slot : Slot δ} (hs : slot ∈ slots.all)
    (hm : m.1 ∈ slot.names) (hv : IsValue m.2) :
    Puts form d m d' ↔ slot.get d = none ∧ ∃ b, slot.Is m.2 b ∧ d' = slot.set d b := by
  have hfind := slots.find?_eq hs hm
  have hread : Reads (slot.field.read d) _ := slot.reads.map (slot.set d)
  rw [Puts, hfind]
  dsimp only
  rw [hread.run_iff hv, Slot.field, Field.ofLens, Option.isSome_eq_false_iff,
    Option.isNone_iff_eq_none]

/-- One more member adds what it tells. -/
theorem Slots.tells_concat {ms : List Member} {m : Member} (hv : IsValue m.2) {d d' : δ}
    (h : ∀ slot ∈ slots.all, slot.Tells ms (slot.get d)) (hp : Puts form d m d') :
    ∀ slot ∈ slots.all, slot.Tells (ms ++ [m]) (slot.get d') := by
  intro slot hs
  by_cases hknown : ∃ slot ∈ slots.all, m.1 ∈ slot.names
  · obtain ⟨slot', hs', hm'⟩ := hknown
    obtain ⟨hnone, b, hb, rfl⟩ := (slots.puts_known hs' hm' hv).mp hp
    rcases slots.eq_or_apart hs hs' with rfl | ⟨hnames, hget, -⟩
    · exact (Slot.tells_concat_here hm').mpr ⟨hnone ▸ h slot hs, b, slot.get_set d b, hb⟩
    · rw [Slot.tells_concat_other fun hm => hnames _ hm hm', hget]
      exact h slot hs
  · simp only [not_exists, not_and] at hknown
    obtain rfl := (slots.puts_unknown hknown).mp hp
    exact (Slot.tells_concat_other (hknown slot hs)).mpr (h slot hs)

/-- A draft has what the members tell that have led to it. -/
theorem Slots.tells_of_builds {ms : List Member} (hm : ∀ m ∈ ms, IsValue m.2) {d : δ}
    (h : Builds (Puts form) form.blank ms d) : ∀ slot ∈ slots.all, slot.Tells ms (slot.get d) := by
  induction ms using List.reverseRecOn generalizing d with
  | nil =>
      cases h
      intro slot hs
      rw [slots.blank slot hs]
      exact .nil
  | append_singleton ms m ih =>
      obtain ⟨d', h, hlast⟩ := Builds.append.mp h
      obtain _ | ⟨hp, ⟨⟩⟩ := hlast
      exact slots.tells_concat (hm m (by simp))
        (ih (fun m h => hm m (List.mem_append_left _ h)) h) hp

/-- Members that tell something of every field lead to a draft. -/
theorem Slots.builds_of_tells {ms : List Member} (hm : ∀ m ∈ ms, IsValue m.2)
    (h : ∀ slot ∈ slots.all, ∃ o, slot.Tells ms o) : ∃ d, Builds (Puts form) form.blank ms d := by
  induction ms using List.reverseRecOn with
  | nil => exact ⟨_, .nil _⟩
  | append_singleton ms m ih =>
      have hms : ∀ m ∈ ms, IsValue m.2 := fun m h => hm m (List.mem_append_left _ h)
      obtain ⟨d, hd⟩ := ih hms fun slot hs => by
        obtain ⟨o, ho⟩ := h slot hs
        by_cases hname : m.1 ∈ slot.names
        · exact ⟨none, ((Slot.tells_concat_here hname).mp ho).1⟩
        · exact ⟨o, (Slot.tells_concat_other hname).mp ho⟩
      by_cases hknown : ∃ slot ∈ slots.all, m.1 ∈ slot.names
      · obtain ⟨slot, hs, hname⟩ := hknown
        obtain ⟨o, ho⟩ := h slot hs
        obtain ⟨hnone, b, -, hb⟩ := (Slot.tells_concat_here hname).mp ho
        -- no member before this one has told of the field, so the draft lacks it
        have hlacks := (slots.tells_of_builds hms hd slot hs).unique hnone
        have hp := (slots.puts_known hs hname (hm m (by simp))).mpr ⟨hlacks, b, hb, rfl⟩
        exact ⟨_, Builds.append.mpr ⟨d, hd, .cons hp (.nil _)⟩⟩
      · simp only [not_exists, not_and] at hknown
        exact ⟨d, Builds.append.mpr ⟨d, hd, .cons ((slots.puts_unknown hknown).mpr rfl) (.nil _)⟩⟩

/-- **The members of an object lead to the draft that has what they tell of each field.** -/
theorem Slots.builds_iff {ms : List Member} (hm : ∀ m ∈ ms, IsValue m.2) {d : δ} :
    Builds (Puts form) form.blank ms d ↔ ∀ slot ∈ slots.all, slot.Tells ms (slot.get d) := by
  refine ⟨slots.tells_of_builds hm, fun h => ?_⟩
  obtain ⟨d', hd'⟩ := slots.builds_of_tells hm fun slot hs => ⟨_, h slot hs⟩
  have heq := slots.ext d d' fun slot hs =>
    (h slot hs).unique (slots.tells_of_builds hm hd' slot hs)
  rwa [heq]

/-- **A form reads an object exactly if its members tell what makes a structure.** -/
theorem Slots.run_iff {text : String} {ms : List Member} (h : ObjectDocument text ms) {a : α} :
    form.read.run text = .ok a ↔
      ∃ d, (∀ slot ∈ slots.all, slot.Tells ms (slot.get d)) ∧ form.finish d = .ok a := by
  rw [run_object_iff slots.settle h]
  obtain ⟨ws, v, ws', -, -, -, -, hm⟩ := h
  exact exists_congr fun d => and_congr_left fun _ => slots.builds_iff hm

end

end TaggedRecords.Json.Reader
