import TaggedRecords.Proofs.Filters
import TaggedRecords.Proofs.Json.Duplicates

/-!
# Filters — the language that a store reads

Which values are filters is a grammar (`IsFilter`), and a filter asks something of the tags of a
record (`Satisfies`).  Both are about a value as it is written: of the members of one name only
the last one is a clause.  The grammar has more filters than those that expressions compile to: an
object may have any number of clauses, connectives and tags side by side, at any depth.

**A store reads exactly the texts of filters, and the query it makes of one holds of the tags that
satisfy the filter** (`decode_grammar`).  What legal expressions compile to is in the grammar and
means the same there (`isFilter_compile`).

The proof is by induction on the value (`Value.induct_parts`), for a filter and for a clause of any
name at once (`reads_settled`), with one lemma for each kind of value.  What it says of each part is
that reading finds a query of the same meaning or refuses what is not in the grammar (`Reads`); the
parts of a list and the members of an object come together by `readsEach_mapM`.
-/

namespace TaggedRecords.Query

open Json

/-! ### The grammar -/

/-- The operators that compare a tag with one text. -/
def operators : List (String × Comparison) :=
  [("$eq", .eq), ("$neq", .neq), ("$gt", .gt), ("$gte", .gte), ("$lt", .lt), ("$lte", .lte),
    ("$like", .like)]

/-- What a value under the name of a tag asks of that tag. -/
inductive Asks : Value → Predicate → Prop
  | text (operand : String) : Asks (.string operand) (.compare .eq operand)
  | operator {members : List (String × Value)} {keyword operand : String} {op : Comparison}
      (hk : (keyword, op) ∈ operators) (h : Members.Only (keyword, .string operand) members) :
      Asks (.object members) (.compare op operand)
  | oneOf {members : List (String × Value)} {values : List String}
      (h : Members.Only ("$in", .array (values.map .string)) members) :
      Asks (.object members) (.oneOf values)

/-- The predicates that order a tag or match it with a pattern. -/
def NeedsClear : Predicate → Prop
  | .compare op _ => op ∈ [Comparison.gt, .gte, .lt, .lte, .like]
  | .oneOf _ => False

/-- A tag that is asked something it may be asked. -/
structure IsCondition (name : String) (v : Value) (predicate : Predicate) : Prop where
  unreserved : name.toList.head? ≠ some '$'
  asks : Asks v predicate
  clear : NeedsClear predicate → name.toList.head? = some '~'

mutual

/-- The value is a filter: an object whose members, the last one of a name counting, are
clauses. -/
inductive IsFilter : Value → Prop
  | object {members : List (String × Value)}
      (h : ∀ m, Members.Counts m members → IsClause m.1 m.2) : IsFilter (.object members)

/-- The value under the name is a clause of a filter. -/
inductive IsClause : String → Value → Prop
  | and {items : List Value} (h : ∀ v ∈ items, IsFilter v) : IsClause "$and" (.array items)
  | or {items : List Value} (h : ∀ v ∈ items, IsFilter v) : IsClause "$or" (.array items)
  | not {v : Value} (h : IsFilter v) : IsClause "$not" v
  | tag {name : String} {v : Value} {predicate : Predicate}
      (h : IsCondition name v predicate) : IsClause name v

end

/-! ### What filters mean -/

/-- Whether a predicate holds of the value of a tag. -/
def PredicateHolds (actual : String) : Predicate → Prop
  | .compare op operand => op.Holds actual operand
  | .oneOf values => actual ∈ values

/-- Whether there is a tag of the name and its value is as asked. -/
def SatisfiesTag (tags : Tags) (name : String) (v : Value) : Prop :=
  ∃ predicate actual, Asks v predicate ∧ tags.get? name = some actual ∧
    PredicateHolds actual predicate

mutual

/-- Whether tags satisfy every clause of a filter. -/
def Satisfies (tags : Tags) : Value → Prop
  | .object members => ∀ m, (h : Members.Counts m members) → SatisfiesClause tags m.1 m.2
  | _ => False
termination_by v => (sizeOf v, 0)
decreasing_by exact .left _ _ (Value.sizeOf_member h.mem)

/-- Whether tags satisfy the clause that a value under a name is. -/
def SatisfiesClause (tags : Tags) : String → Value → Prop
  | "$and", .array items => ∀ v ∈ items, Satisfies tags v
  | "$or", .array items => ∃ v, ∃ _ : v ∈ items, Satisfies tags v
  | "$not", v => ¬ Satisfies tags v
  | name, v => SatisfiesTag tags name v
termination_by _ v => (sizeOf v, 1)

end

/-! ### Reading a condition on a tag -/

theorem comparisonOf?_eq {keyword : String} {op : Comparison} :
    comparisonOf? keyword = some op ↔ (keyword, op) ∈ operators := by
  constructor
  · intro h
    rw [comparisonOf?] at h
    have hk := List.find?_some h
    obtain rfl : op.keyword = keyword := eq_of_beq hk
    have hnames : ∀ op ∈ [Comparison.eq, .neq, .gt, .gte, .lt, .lte, .like],
        (op.keyword, op) ∈ operators := by decide
    exact hnames op (List.mem_of_find?_eq_some h)
  · intro h
    have hfound : ∀ e ∈ operators, comparisonOf? e.1 = some e.2 := by decide
    exact hfound _ h

theorem mapM_text_eq {items : List Value} {values : List String} :
    items.mapM text? = some values ↔ items = values.map .string := by
  constructor
  · intro h
    induction items generalizing values with
    | nil =>
      obtain rfl := Option.some.inj h
      rfl
    | cons v rest ih =>
      rw [List.mapM_cons] at h
      obtain ⟨s, hs, h⟩ := Option.bind_eq_some_iff.mp h
      obtain ⟨rest', hrest, h⟩ := Option.bind_eq_some_iff.mp h
      obtain rfl := Option.some.inj h
      cases v with
      | string s' =>
        obtain rfl := Option.some.inj hs
        rw [ih hrest, List.map_cons]
      | null | bool _ | number _ | array _ | object _ => contradiction
  · rintro rfl
    exact mapM_text values

/-- The predicates that a store finds in objects are those of single members. -/
theorem predicateOf?_object {members : List (String × Value)} {predicate : Predicate} :
    predicateOf? (.object members) = some predicate ↔
      (∃ keyword op operand, members = [(keyword, .string operand)] ∧
        (keyword, op) ∈ operators ∧ predicate = .compare op operand) ∨
      ∃ values : List String, members = [("$in", .array (values.map .string))] ∧
        predicate = .oneOf values := by
  constructor
  · intro h
    match members with
    | [] => contradiction
    | _ :: _ :: _ => simp [predicateOf?] at h
    | [(keyword, v)] =>
      cases v with
      | string operand =>
        rw [predicateOf?] at h
        obtain ⟨op, hop, rfl⟩ := Option.map_eq_some_iff.mp h
        exact .inl ⟨keyword, op, operand, rfl, comparisonOf?_eq.mp hop, rfl⟩
      | array items =>
        rw [predicateOf?] at h
        split at h
        · rename_i hk
          obtain ⟨values, hvalues, rfl⟩ := Option.map_eq_some_iff.mp h
          exact .inr ⟨values, by rw [hk, mapM_text_eq.mp hvalues]; rfl, rfl⟩
        · contradiction
      | null | bool _ | number _ | object _ => contradiction
  · rintro (⟨keyword, op, operand, rfl, hop, rfl⟩ | ⟨values, rfl, rfl⟩)
    · rw [predicateOf?, comparisonOf?_eq.mpr hop]
      rfl
    · exact predicateOf?_in values

/-- **A store asks of a tag what the grammar says.** -/
theorem predicateOf?_settled {v : Value} {predicate : Predicate} :
    predicateOf? v.settled = some predicate ↔ Asks v predicate := by
  cases v with
  | string s =>
    constructor
    · intro h
      obtain rfl := Option.some.inj h
      exact .text s
    · rintro ⟨⟩
      rfl
  | object members =>
    have hsingle : ∀ {keyword : String} {v : Value}, (∀ w : Value, w.settled = v ↔ w = v) →
        ((Members.keepLast members).map fun m => (m.1, m.2.settled)) = [(keyword, v)] →
        Members.Only (keyword, v) members := fun hv h =>
      (Value.settled_eq_single hv).mp (by rw [Value.settled_object, h])
    constructor
    · intro h
      rw [Value.settled_object, predicateOf?_object] at h
      rcases h with ⟨keyword, op, operand, hm, hop, rfl⟩ | ⟨values, hm, rfl⟩
      · exact .operator hop (hsingle (fun _ => Value.settled_eq_string) hm)
      · exact .oneOf (hsingle (fun _ => Value.settled_eq_strings) hm)
    · rintro (_ | ⟨hop, h⟩ | h)
      · rw [(Value.settled_eq_single fun _ => Value.settled_eq_string).mpr h]
        exact predicateOf?_object.mpr (.inl ⟨_, _, _, rfl, hop, rfl⟩)
      · rw [(Value.settled_eq_single fun _ => Value.settled_eq_strings).mpr h]
        exact predicateOf?_object.mpr (.inr ⟨_, rfl, rfl⟩)
  | null | bool _ | number _ | array _ =>
    constructor
    · intro h
      contradiction
    · rintro ⟨⟩

theorem exact_iff (predicate : Predicate) : predicate.exact = true ↔ ¬ NeedsClear predicate := by
  cases predicate with
  | compare op operand => cases op <;> simp [Predicate.exact, Comparison.exact, NeedsClear]
  | oneOf values => simp [Predicate.exact, NeedsClear]

theorem holds_tag (tags : Tags) (name : String) (predicate : Predicate) :
    holds tags (.tag name predicate) = true ↔
      ∃ actual, tags.get? name = some actual ∧ PredicateHolds actual predicate := by
  cases predicate with
  | compare op operand => exact holds_compare tags name op operand
  | oneOf values => exact holds_oneOf tags name values

/-! ### What reading comes to -/

/-- Reading finds a query with the meaning, or refuses what is not in the grammar. -/
def Reads (grammatical : Prop) (means : Tags → Prop) (read : Except Refusal Query) : Prop :=
  (∃ q, grammatical ∧ read = .ok q ∧ ∀ tags, holds tags q = true ↔ means tags) ∨
    ∃ refusal, ¬ grammatical ∧ read = .error refusal

/-- The same for several parts, of which queries are asked together or one of them. -/
def ReadsEach {α : Type} (grammatical : α → Prop) (means : α → Tags → Prop) (l : List α)
    (read : Except Refusal (List Query)) : Prop :=
  (∃ parts, (∀ a ∈ l, grammatical a) ∧ read = .ok parts ∧ ∀ tags,
      (holdsAll tags parts = true ↔ ∀ a ∈ l, means a tags) ∧
      (holdsAny tags parts = true ↔ ∃ a ∈ l, means a tags)) ∨
    ∃ refusal, (¬ ∀ a ∈ l, grammatical a) ∧ read = .error refusal

section

variable {α : Type} {grammatical grammatical' : Prop} {means means' : Tags → Prop}
  {read : Except Refusal Query}

theorem Reads.congr (h : Reads grammatical means read) (hg : grammatical' ↔ grammatical)
    (hm : grammatical → ∀ tags, means' tags ↔ means tags) : Reads grammatical' means' read := by
  rcases h with ⟨q, h, hr, hq⟩ | ⟨refusal, h, hr⟩
  · exact .inl ⟨q, hg.mpr h, hr, fun tags => (hq tags).trans (hm h tags).symm⟩
  · exact .inr ⟨refusal, mt hg.mp h, hr⟩

theorem Reads.not (h : Reads grammatical means read) :
    Reads grammatical (fun tags => ¬ means tags) (.not <$> read) := by
  rcases h with ⟨q, h, rfl, hq⟩ | ⟨refusal, h, rfl⟩
  · refine .inl ⟨.not q, h, rfl, fun tags => ?_⟩
    simp [holds, ← hq tags]
  · exact .inr ⟨refusal, h, rfl⟩

variable {G : α → Prop} {M : α → Tags → Prop} {l : List α} {reads : Except Refusal (List Query)}

/-- Parts that are read one after another. -/
theorem readsEach_mapM {f : α → Except Refusal Query} :
    ∀ {l : List α}, (∀ a ∈ l, Reads (G a) (M a) (f a)) → ReadsEach G M l (l.mapM f)
  | [], _ => .inl ⟨[], by simp, rfl, fun tags => by simp [holdsAll, holdsAny]⟩
  | a :: rest, h => by
    rw [List.mapM_cons]
    rcases h a List.mem_cons_self with ⟨q, hg, hr, hq⟩ | ⟨refusal, hg, hr⟩
    · rcases readsEach_mapM fun b hb => h b (List.mem_cons_of_mem a hb) with
        ⟨parts, hgs, hrs, hqs⟩ | ⟨refusal, hgs, hrs⟩
      · rw [hr, hrs]
        refine .inl ⟨q :: parts, List.forall_mem_cons.mpr ⟨hg, hgs⟩, rfl, fun tags => ?_⟩
        simp [holdsAll, holdsAny, hq tags, (hqs tags).1, (hqs tags).2]
      · rw [hr, hrs]
        exact .inr ⟨refusal, fun h => hgs (List.forall_mem_cons.mp h).2, rfl⟩
    · rw [hr]
      exact .inr ⟨refusal, fun h => hg (List.forall_mem_cons.mp h).1, rfl⟩

/-- Parts that are read and then joined into one query. -/
theorem ReadsEach.join (h : ReadsEach G M l reads) {join : List Query → Query}
    {means : Tags → Prop}
    (hj : ∀ parts tags, (holdsAll tags parts = true ↔ ∀ a ∈ l, M a tags) →
      (holdsAny tags parts = true ↔ ∃ a ∈ l, M a tags) →
      (holds tags (join parts) = true ↔ means tags)) :
    Reads (∀ a ∈ l, G a) means (join <$> reads) := by
  rcases h with ⟨parts, h, rfl, hq⟩ | ⟨refusal, h, rfl⟩
  · exact .inl ⟨join parts, h, rfl, fun tags => hj parts tags (hq tags).1 (hq tags).2⟩
  · exact .inr ⟨refusal, h, rfl⟩

theorem ReadsEach.all (h : ReadsEach G M l reads) :
    Reads (∀ a ∈ l, G a) (fun tags => ∀ a ∈ l, M a tags) (.all <$> reads) := by
  refine h.join fun parts tags hall _ => ?_
  rw [holds, hall]

theorem ReadsEach.any (h : ReadsEach G M l reads) :
    Reads (∀ a ∈ l, G a) (fun tags => ∃ a ∈ l, M a tags) (.any <$> reads) := by
  refine h.join fun parts tags _ hany => ?_
  rw [holds, hany]

theorem ReadsEach.conjunction (h : ReadsEach G M l reads) :
    Reads (∀ a ∈ l, G a) (fun tags => ∀ a ∈ l, M a tags) (conjunction <$> reads) := by
  refine h.join fun parts tags hall _ => ?_
  rw [holds_conjunction, hall]

end

/-! ### Reading filters -/

theorem ofMembers_eq : ∀ members : List (String × Value),
    ofMembers members = members.mapM fun m => ofMember m.1 m.2
  | [] => rfl
  | m :: rest => by rw [ofMembers, ofMembers_eq rest, List.mapM_cons]

theorem ofItems_eq : ∀ items : List Value, ofItems items = items.mapM ofValue
  | [] => rfl
  | .object members :: rest => by
    rw [ofItems, ofItems_eq rest, List.mapM_cons, ofValue]
    cases ofMembers members <;> rfl
  | .null :: _ | .bool _ :: _ | .number _ :: _ | .string _ :: _ | .array _ :: _ => rfl

/-- A condition on a tag is read as what it asks. -/
theorem reads_tag (name : String) (v : Value) :
    Reads (∃ predicate, IsCondition name v predicate) (SatisfiesTag · name v)
      (ofTag name v.settled) := by
  by_cases hn : name.toList.head? = some '$'
  · rw [ofTag_reserved hn]
    refine .inr ⟨_, ?_, rfl⟩
    rintro ⟨predicate, h⟩
    exact h.unreserved hn
  cases hp : predicateOf? v.settled with
  | none =>
    refine .inr ⟨.malformed, ?_, ?_⟩
    · rintro ⟨predicate, h⟩
      rw [predicateOf?_settled.mpr h.asks] at hp
      contradiction
    · rw [ofTag, if_neg (mt (isReserved_iff name).mp hn), hp]
  | some predicate =>
    -- nothing else is asked than what was read
    have hasks : ∀ predicate', Asks v predicate' ↔ predicate' = predicate := fun predicate' => by
      rw [← predicateOf?_settled, hp, Option.some.injEq, eq_comm]
    have hclear : (inClear name || predicate.exact) = true ↔
        (NeedsClear predicate → name.toList.head? = some '~') := by
      rw [Bool.or_eq_true, inClear_iff, exact_iff]
      tauto
    rw [ofTag_eq hn hp]
    split
    · rename_i hc
      refine .inl ⟨_, ⟨predicate, hn, (hasks _).mpr rfl, hclear.mp hc⟩, rfl, fun tags => ?_⟩
      rw [holds_tag]
      simp [SatisfiesTag, hasks]
    · rename_i hc
      refine .inr ⟨_, ?_, rfl⟩
      rintro ⟨predicate', h⟩
      obtain rfl := (hasks _).mp h.asks
      exact hc (hclear.mpr h.clear)

/-! ### What filters and clauses there are -/

section

variable {name : String} {v : Value} {items : List Value} {members : List (String × Value)}

theorem isFilter_object :
    IsFilter (.object members) ↔ ∀ m, Members.Counts m members → IsClause m.1 m.2 := by
  constructor
  · rintro ⟨h⟩
    exact h
  · exact .object

/-- Only objects are filters. -/
theorem not_isFilter (h : ∀ members, v = .object members → False) : ¬ IsFilter v := by
  rintro ⟨-⟩
  exact h _ rfl

/-- What clauses there are. -/
theorem isClause_iff : IsClause name v ↔
    (name = "$and" ∨ name = "$or") ∧ (∃ items, v = .array items ∧ ∀ w ∈ items, IsFilter w) ∨
      name = "$not" ∧ IsFilter v ∨ ∃ predicate, IsCondition name v predicate := by
  constructor
  · intro h
    cases h with
    | and h => exact .inl ⟨.inl rfl, _, rfl, h⟩
    | or h => exact .inl ⟨.inr rfl, _, rfl, h⟩
    | not h => exact .inr (.inl ⟨rfl, h⟩)
    | tag h => exact .inr (.inr ⟨_, h⟩)
  · rintro (⟨rfl | rfl, items, rfl, h⟩ | ⟨rfl, h⟩ | ⟨predicate, h⟩)
    · exact .and h
    · exact .or h
    · exact .not h
    · exact .tag h

theorem isClause_joined (hn : name = "$and" ∨ name = "$or") :
    IsClause name (.array items) ↔ ∀ w ∈ items, IsFilter w := by
  constructor
  · intro h
    rcases isClause_iff.mp h with ⟨-, _, ⟨⟩, h⟩ | ⟨-, ⟨⟩⟩ | ⟨predicate, h⟩
    · exact h
    · rcases hn with rfl | rfl <;> exact absurd rfl h.unreserved
  · intro h
    exact isClause_iff.mpr (.inl ⟨hn, items, rfl, h⟩)

theorem isClause_not : IsClause "$not" v ↔ IsFilter v := by
  constructor
  · intro h
    rcases isClause_iff.mp h with ⟨hn, -⟩ | ⟨-, h⟩ | ⟨predicate, h⟩
    · exact absurd hn (by decide)
    · exact h
    · exact absurd rfl h.unreserved
  · exact .not

/-- Under a name without the mark of connectives a clause asks for a tag. -/
theorem satisfiesClause_tag (h : name.toList.head? ≠ some '$') (tags : Tags) :
    SatisfiesClause tags name v ↔ SatisfiesTag tags name v := by
  rw [SatisfiesClause.eq_def]
  split
  · exact absurd rfl h
  · exact absurd rfl h
  · exact absurd rfl h
  · rfl

end

/-! ### Reading values -/

/-- A value is read as the filter that it is, or refused. -/
def ReadsFilter (v : Value) : Prop := Reads (IsFilter v) (Satisfies · v) (ofValue v.settled)

/-- A value under a name is read as the clause that it is, or refused. -/
def ReadsClause (name : String) (v : Value) : Prop :=
  Reads (IsClause name v) (SatisfiesClause · name v) (ofMember name v.settled)

section

variable {name : String} {v : Value} {items : List Value} {members : List (String × Value)}

/-- What is read as a condition on a tag, where the grammar has no connective. -/
theorem readsClause_tag (hr : ofMember name v.settled = ofTag name v.settled)
    (hc : IsClause name v → ∃ predicate, IsCondition name v predicate) : ReadsClause name v := by
  rw [ReadsClause, hr]
  refine (reads_tag name v).congr ⟨hc, ?_⟩ ?_
  · rintro ⟨predicate, h⟩
    exact .tag h
  · rintro ⟨predicate, h⟩ tags
    exact satisfiesClause_tag h.unreserved tags

/-- A list is a clause under the two names that join filters. -/
theorem readsClause_array (h : ∀ v ∈ items, ReadsFilter v) (name : String) :
    ReadsClause name (.array items) := by
  have hitems := readsEach_mapM (G := IsFilter) (M := fun v tags => Satisfies tags v) h
  by_cases hand : name = "$and"
  · subst hand
    rw [ReadsClause, Value.settled_array, ofMember_and, ofItems_eq, List.mapM_map]
    refine hitems.all.congr (isClause_joined (.inl rfl)) fun _ tags => ?_
    rw [SatisfiesClause]
  by_cases hor : name = "$or"
  · subst hor
    rw [ReadsClause, Value.settled_array, ofMember_or, ofItems_eq, List.mapM_map]
    refine hitems.any.congr (isClause_joined (.inr rfl)) fun _ tags => ?_
    rw [SatisfiesClause]
    simp
  refine readsClause_tag ?_ fun h => ?_
  · rw [Value.settled_array, ofMember, if_neg hand, if_neg hor]
  · rcases isClause_iff.mp h with ⟨hn, -⟩ | ⟨-, ⟨⟩⟩ | h
    · exact absurd hn (by simp [hand, hor])
    · exact h

/-- An object is read clause by clause, those that do not count left out. -/
theorem readsFilter_object (h : ∀ m ∈ members, ReadsClause m.1 m.2) :
    ReadsFilter (.object members) := by
  rw [ReadsFilter, Value.settled_object, ofValue, ofMembers_eq, List.mapM_map]
  have hclauses := readsEach_mapM fun m hm => h m (Members.mem_keepLast.mp hm).mem
  refine hclauses.conjunction.congr ?_ fun _ tags => ?_
  · simp only [Members.mem_keepLast]
    exact isFilter_object
  · simp only [Members.mem_keepLast]
    rw [Satisfies]

/-- An object is a filter under `$not`, and may be a condition under the name of a tag. -/
theorem readsClause_object (h : ReadsFilter (.object members)) (name : String) :
    ReadsClause name (.object members) := by
  by_cases hnot : name = "$not"
  · subst hnot
    have hr : ofMember "$not" (Value.object members).settled =
        .not <$> ofValue (Value.object members).settled := by
      rw [Value.settled_object, ofMember_not, ofValue]
      cases ofMembers _ <;> rfl
    rw [ReadsClause, hr]
    refine h.not.congr isClause_not fun _ tags => ?_
    rw [SatisfiesClause]
  refine readsClause_tag ?_ fun h => ?_
  · rw [Value.settled_object, ofMember, if_neg hnot]
  · rcases isClause_iff.mp h with ⟨-, _, ⟨⟩, -⟩ | ⟨hn, -⟩ | h
    · exact absurd hn hnot
    · exact h

/-- Any other value may be a condition, but is no filter. -/
theorem readsClause_leaf (ha : ∀ items, v = .array items → False)
    (ho : ∀ members, v = .object members → False) (name : String) : ReadsClause name v := by
  refine readsClause_tag ?_ fun h => ?_
  · rw [Value.settled_leaf ha ho, ofMember]
    · exact ha
    · exact ho
  · rcases isClause_iff.mp h with ⟨-, items, rfl, -⟩ | ⟨-, h⟩ | h
    · exact absurd rfl (ha items)
    · exact absurd h (not_isFilter ho)
    · exact h

end

/-- **A filter is read as a query of its meaning, and so is a clause of any name**; anything else is
refused. -/
theorem reads_settled (v : Value) : ReadsFilter v ∧ ∀ name, ReadsClause name v := by
  induction v using Value.induct_parts with
  | array items ih =>
    refine ⟨.inr ⟨.malformed, not_isFilter (by simp), ?_⟩, ?_⟩
    · rw [Value.settled_array, ofValue]
      simp
    · exact readsClause_array fun v hv => (ih v hv).1
  | object members ih =>
    have hfilter := readsFilter_object fun m hm => (ih m hm).2 m.1
    exact ⟨hfilter, readsClause_object hfilter⟩
  | leaf v ha ho =>
    refine ⟨.inr ⟨.malformed, not_isFilter ho, ?_⟩, readsClause_leaf ha ho⟩
    rw [Value.settled_leaf ha ho, ofValue]
    exact ho

/-- The filter that an expression compiles to is in the grammar exactly if the expression is legal,
and then asks the same of tags. -/
theorem isFilter_compile (e : Expression) :
    (IsFilter (Filter.compile e).toValue ↔ e.Legal) ∧
      (e.Legal → ∀ tags, Satisfies tags (Filter.compile e).toValue ↔ e.Holds tags) := by
  have hread := (reads_settled (Filter.compile e).toValue).1
  rw [ReadsFilter, Value.settled_plain (Filter.plain_compile e).1, Filter.toValue, ofValue] at hread
  rcases reads_compile e with ⟨parts, hl, hr, hh⟩ | ⟨refusal, hl, hr⟩
  · rw [hr] at hread
    rcases hread with ⟨q, hf, hq, hs⟩ | ⟨_, -, ⟨⟩⟩
    obtain rfl : conjunction parts = q := Except.ok.inj hq
    refine ⟨⟨fun _ => hl, fun _ => hf⟩, fun _ tags => ?_⟩
    rw [Filter.toValue]
    exact (hs tags).symm.trans (by rw [holds_conjunction, hh tags])
  · rw [hr] at hread
    rcases hread with ⟨_, -, ⟨⟩, -⟩ | ⟨_, hf, -⟩
    exact ⟨⟨fun h => absurd h hf, fun h => absurd h hl⟩, fun h => absurd h hl⟩

/-- **A store reads exactly the texts of filters, and makes of a filter a query that holds of the
tags that satisfy it.**  Every other text is reported as a query error, and so is a text that is no
JSON within the limits of the reader. -/
theorem decode_grammar (text : String) :
    (∃ v q, Document.written text = .ok v ∧ IsFilter v ∧ decode text = .ok q ∧
        ∀ tags, holds tags q = true ↔ Satisfies tags v) ∨
      (¬ ∃ v, Document.written text = .ok v ∧ IsFilter v) ∧
        ∃ refusal, decode text = .error refusal ∧ refusal.failure = .wallet .queryError := by
  have hread := Document.read_eq_settled text
  cases hw : Document.written text with
  | error e =>
    rw [hw] at hread
    refine .inr ⟨by rintro ⟨v, ⟨⟩, -⟩, .unreadable e, ?_, rfl⟩
    rw [decode, hread]
    rfl
  | ok v =>
    rw [hw] at hread
    have hdecode : decode text = ofValue v.settled := by
      rw [decode, hread]
      rfl
    rw [hdecode]
    rcases (reads_settled v).1 with ⟨q, hv, hr, hq⟩ | ⟨refusal, hv, hr⟩
    · exact .inl ⟨v, q, rfl, hv, hr, hq⟩
    · refine .inr ⟨?_, refusal, hr, rfl⟩
      rintro ⟨v', hv', h⟩
      obtain rfl := Except.ok.inj hv'
      exact hv h

/-- Of two members of one name the last one is a clause. -/
example : decode "\x7b\"a\":\"1\",\"a\":\x7b\"$neq\":\"2\"\x7d,\"$or\":[]\x7d" =
    .ok (.all [.any [], .tag "a" (.compare .neq "2")]) := by cbv

end TaggedRecords.Query
