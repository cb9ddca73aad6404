import TaggedRecords.Query
import TaggedRecords.Proofs.Json.Documents
import TaggedRecords.Proofs.Wildcards

/-!
# Filters — what a store makes of a compiled expression

An expression has a meaning of its own over the tags of a record (`Expression.Holds`).

**A store reads the text of a compiled expression exactly if the expression is legal and its filter
is not nested too deep, and then accepts the records that satisfy the expression**
(`decode_compile`).  An expression is legal (`Expression.Legal`) when no field begins with `$`, the
mark of connectives, and only fields in the clear are compared other than exactly.

Two steps lead there.  The filter as a value is read as a query of the same meaning, or refused
(`reads_compile`); and its text is read back as that value as long as `Expression.depth` allows
(`plain_compile`, with `read_write` of documents).
-/

namespace TaggedRecords

/-! ### What expressions mean -/

/-- What a comparison asks of the value of a tag; texts are ordered by code points. -/
def Comparison.Holds (actual operand : String) : Comparison → Prop
  | .eq | .isIn => actual = operand
  | .neq => actual ≠ operand
  | .lt => actual < operand
  | .lte => actual ≤ operand
  | .gt => operand < actual
  | .gte => operand ≤ actual
  | .like => Pattern.Matches operand.toList actual.toList

namespace Expression

mutual

/-- Whether a record with the given tags satisfies an expression.  No condition on a tag that the
record lacks is satisfied. -/
def Holds (tags : Tags) : Expression → Prop
  | .always => True
  | .all children => HoldsAll tags children
  | .any children => children = [] ∨ HoldsAny tags children
  | .not child => ¬ Holds tags child
  | .compare field op value => ∃ actual, tags.get? field = some actual ∧ op.Holds actual value
  | .inSet field values => ∃ actual, tags.get? field = some actual ∧ actual ∈ values

def HoldsAll (tags : Tags) : List Expression → Prop
  | [] => True
  | e :: rest => Holds tags e ∧ HoldsAll tags rest

def HoldsAny (tags : Tags) : List Expression → Prop
  | [] => False
  | e :: rest => Holds tags e ∨ HoldsAny tags rest

end

mutual

/-- No field begins with `$`, and a field that is ordered or matched with a pattern begins with
`~`. -/
def Legal : Expression → Prop
  | .always => True
  | .all children | .any children => LegalAll children
  | .not child => Legal child
  | .compare field op _ => field.toList.head? ≠ some '$' ∧
      (op = .lt ∨ op = .lte ∨ op = .gt ∨ op = .gte ∨ op = .like → field.toList.head? = some '~')
  | .inSet field _ => field.toList.head? ≠ some '$'

def LegalAll : List Expression → Prop
  | [] => True
  | e :: rest => Legal e ∧ LegalAll rest

end

mutual

/-- How many lists and objects stand inside each other in the filter of an expression. -/
def depth : Expression → Nat
  | .always | .all [] | .any [] => 1
  | .all (e :: rest) | .any (e :: rest) => 2 + max (depth e) (depthAll rest)
  | .not child => 1 + depth child
  | .compare _ .eq _ => 1
  | .compare _ .isIn _ | .inSet _ _ => 3
  | .compare _ _ _ => 2

def depthAll : List Expression → Nat
  | [] => 0
  | e :: rest => max (depth e) (depthAll rest)

end

end Expression

namespace Query

open Json (Value)

/-! ### Tags -/

theorem compares_iff (actual operand : String) (op : Comparison) :
    Predicate.compares actual operand op = true ↔ op.Holds actual operand := by
  cases op with
  | eq | isIn => exact beq_iff_eq
  | neq => exact bne_iff_ne
  | lt | lte | gt | gte => exact decide_eq_true_iff
  | like => exact Pattern.accepts_iff operand.toList actual.toList

theorem holds_compare (tags : Tags) (field : String) (op : Comparison) (value : String) :
    holds tags (.tag field (.compare op value)) = true ↔
      (Expression.compare field op value).Holds tags := by
  rw [holds, Expression.Holds]
  cases tags.get? field with
  | none => simp
  | some actual => simp [Predicate.holds, compares_iff]

theorem holds_oneOf (tags : Tags) (field : String) (values : List String) :
    holds tags (.tag field (.oneOf values)) = true ↔
      (Expression.inSet field values).Holds tags := by
  rw [holds, Expression.Holds]
  cases tags.get? field with
  | none => simp
  | some actual => simp [Predicate.holds]

theorem holds_conjunction (tags : Tags) (parts : List Query) :
    holds tags (conjunction parts) = holdsAll tags parts := by
  match parts with
  | [] | _ :: _ :: _ => rfl
  | [q] => simp [conjunction, holdsAll]

/-! ### Reading one member -/

theorem isReserved_iff (name : String) : isReserved name = true ↔ name.toList.head? = some '$' := by
  rw [isReserved, beq_iff_eq]

/-- A member under a name that begins with `$`, other than the connectives, is refused. -/
theorem ofTag_reserved {name : String} (h : name.toList.head? = some '$') (v : Value) :
    ofTag name v = .error .malformed := by
  rw [ofTag, if_pos ((isReserved_iff name).mpr h)]

/-- A tag that may be compared in the way of a predicate is read. -/
theorem ofTag_eq {name : String} {v : Value} {predicate : Predicate}
    (h : name.toList.head? ≠ some '$') (hv : predicateOf? v = some predicate) :
    ofTag name v = if inClear name || predicate.exact then .ok (.tag name predicate)
      else .error (.encryptedTag name) := by
  rw [ofTag, if_neg (mt (isReserved_iff name).mp h), hv]

/-- The members of a single one are read as that one is. -/
theorem ofMembers_single (name : String) (v : Value) :
    ofMembers [(name, v)] = (ofMember name v).map ([·]) := by
  rw [ofMembers, ofMembers]
  cases ofMember name v <;> rfl

/-- A value that is neither a list of filters nor a filter itself asks for a tag. -/
theorem ofMember_string (name value : String) :
    ofMember name (.string value) = ofTag name (.string value) := by
  rw [ofMember]
  all_goals simp

/-- An object of one member that is no connective is no filter, so it asks for a tag even under
the name of a connective, which is refused. -/
theorem ofMember_object {name keyword : String} {v : Value}
    (hk : ofMember keyword v = .error .malformed) :
    ofMember name (.object [(keyword, v)]) = ofTag name (.object [(keyword, v)]) := by
  rw [ofMember]
  split
  · -- `$not` of what is no filter, and `$not` is no field either
    rename_i h
    subst h
    rw [ofMembers_single, hk, ofTag_reserved (by decide)]
    rfl
  · rfl

theorem ofMember_keyword (op : Comparison) (value : String) :
    ofMember op.keyword (.string value) = .error .malformed := by
  rw [ofMember_string]
  exact ofTag_reserved (by cases op <;> decide) _

theorem ofMember_in (items : List Value) :
    ofMember Comparison.isIn.keyword (.array items) = .error .malformed := by
  rw [ofMember, if_neg (by decide), if_neg (by decide)]
  exact ofTag_reserved (by decide) _

theorem mapM_text (values : List String) :
    (values.map Value.string).mapM text? = some values := by
  induction values with
  | nil => rfl
  | cons v rest ih =>
      rw [List.map_cons, List.mapM_cons, ih]
      rfl

theorem predicateOf?_in (values : List String) :
    predicateOf? (.object [(Comparison.isIn.keyword, .array (values.map .string))]) =
      some (.oneOf values) := by
  rw [predicateOf?, if_pos rfl, mapM_text]
  rfl

theorem predicateOf?_keyword {op : Comparison} (h : op ≠ .isIn) (value : String) :
    predicateOf? (.object [(op.keyword, .string value)]) = some (.compare op value) := by
  rw [predicateOf?]
  cases op with
  | isIn => exact absurd rfl h
  | eq | neq | lt | lte | gt | gte | like => rfl

/-! ### Reading a compiled expression -/

/-- A legal expression is read as parts that hold together exactly if it does; any other
expression is refused. -/
def ReadsAs (e : Expression) (read : Except Refusal (List Query)) : Prop :=
  (∃ parts, e.Legal ∧ read = .ok parts ∧ ∀ tags, holdsAll tags parts = true ↔ e.Holds tags) ∨
    ∃ refusal, ¬ e.Legal ∧ read = .error refusal

/-- A condition on one tag. -/
theorem ReadsAs.leaf {e : Expression} {field : String} {v : Value} {predicate : Predicate}
    (hm : ofMember field v = ofTag field v) (hv : predicateOf? v = some predicate)
    (hl : e.Legal ↔ field.toList.head? ≠ some '$' ∧ (inClear field || predicate.exact) = true)
    (hh : ∀ tags, holds tags (.tag field predicate) = true ↔ e.Holds tags) :
    ReadsAs e (ofMembers [(field, v)]) := by
  rw [ofMembers_single, hm]
  by_cases hf : field.toList.head? = some '$'
  · rw [ofTag_reserved hf]
    exact .inr ⟨_, fun h => (hl.mp h).1 hf, rfl⟩
  · rw [ofTag_eq hf hv]
    split
    · rename_i hc
      refine .inl ⟨[.tag field predicate], hl.mpr ⟨hf, hc⟩, rfl, fun tags => ?_⟩
      rw [← hh tags, holdsAll, holdsAll, Bool.and_true]
    · rename_i hc
      exact .inr ⟨_, fun h => hc (hl.mp h).2, rfl⟩

theorem inClear_iff (name : String) : inClear name = true ↔ name.toList.head? = some '~' := by
  rw [inClear, beq_iff_eq]

theorem reads_inSet (field : String) (values : List String) :
    ReadsAs (.inSet field values) (ofMembers (Filter.ofSet field values).members) :=
  .leaf (ofMember_object (ofMember_in _)) (predicateOf?_in values)
    (by simp [Expression.Legal, Predicate.exact]) fun tags => holds_oneOf tags field values

theorem legal_compare (field : String) (op : Comparison) (value : String) :
    (Expression.compare field op value).Legal ↔
      field.toList.head? ≠ some '$' ∧
        (inClear field || (Predicate.compare op value).exact) = true := by
  rw [Expression.Legal, Bool.or_eq_true, inClear_iff]
  cases op <;> simp [Predicate.exact, Comparison.exact]

theorem ofComparison_keyword {op : Comparison} (he : op ≠ .eq) (hi : op ≠ .isIn)
    (field value : String) : Filter.ofComparison field op value =
      Filter.single field (.object [(op.keyword, .string value)]) := by
  cases op with
  | eq => exact absurd rfl he
  | isIn => exact absurd rfl hi
  | neq | lt | lte | gt | gte | like => rfl

theorem reads_compare (field : String) (op : Comparison) (value : String) :
    ReadsAs (.compare field op value) (ofMembers (Filter.ofComparison field op value).members) := by
  have hl := legal_compare field op value
  have hh := fun tags => holds_compare tags field op value
  by_cases he : op = .eq
  · subst he
    exact .leaf (ofMember_string field value) rfl hl hh
  by_cases hi : op = .isIn
  · -- to be in what is one text is to be in the set of it
    subst hi
    refine .leaf (ofMember_object (ofMember_in _)) (predicateOf?_in [value]) hl fun tags => ?_
    rw [holds_oneOf]
    simp [Expression.Holds, Comparison.Holds]
  · rw [ofComparison_keyword he hi]
    exact .leaf (ofMember_object (ofMember_keyword op value)) (predicateOf?_keyword hi value) hl hh

theorem ofMember_and (items : List Value) :
    ofMember "$and" (.array items) = .all <$> ofItems items := by
  rw [ofMember, if_pos rfl]

theorem ofMember_or (items : List Value) :
    ofMember "$or" (.array items) = .any <$> ofItems items := by
  rw [ofMember, if_neg (by decide), if_pos rfl]

theorem ofMember_not (members : List (String × Value)) :
    ofMember "$not" (.object members) = (.not ∘ conjunction) <$> ofMembers members := by
  rw [ofMember, if_pos rfl]

/-- The filters of several expressions are read as queries that hold together, or one of them,
exactly if the expressions do; unless they are all legal they are refused. -/
def ReadAs (es : List Expression) (read : Except Refusal (List Query)) : Prop :=
  (∃ queries, Expression.LegalAll es ∧ read = .ok queries ∧ ∀ tags,
      (holdsAll tags queries = true ↔ Expression.HoldsAll tags es) ∧
      (holdsAny tags queries = true ↔ Expression.HoldsAny tags es)) ∨
    ∃ refusal, ¬ Expression.LegalAll es ∧ read = .error refusal

/-- Expressions that are joined under a connective, unless there are none. -/
theorem members_joined {keyword : String} {parts : List Value} (h : parts ≠ []) :
    (Filter.joined keyword parts).members = [(keyword, .array parts)] := by
  cases parts with
  | nil => exact absurd rfl h
  | cons => rfl

theorem compileAll_ne_nil {es : List Expression} (h : es ≠ []) : Filter.compileAll es ≠ [] := by
  cases es with
  | nil => exact absurd rfl h
  | cons => rw [Filter.compileAll]; exact List.cons_ne_nil _ _

mutual

/-- **The filter of an expression is read as a query of the same meaning**, or refused because the
expression is not legal. -/
theorem reads_compile : ∀ e : Expression, ReadsAs e (ofMembers (Filter.compile e).members)
  | .always | .all [] => .inl ⟨[], trivial, rfl, fun _ => ⟨fun _ => trivial, fun _ => rfl⟩⟩
  | .any [] => .inl ⟨[], trivial, rfl, fun _ => ⟨fun _ => .inl rfl, fun _ => rfl⟩⟩
  | .all (e :: rest) => by
      rw [Filter.compile, members_joined (compileAll_ne_nil (List.cons_ne_nil _ _)),
        ofMembers_single, ofMember_and]
      rcases readAs_compileAll (e :: rest) with ⟨queries, hl, hr, hh⟩ | ⟨refusal, hl, hr⟩
      · rw [hr]
        refine .inl ⟨_, hl, rfl, fun tags => ?_⟩
        rw [holdsAll, holdsAll, Bool.and_true, holds]
        exact (hh tags).1
      · rw [hr]
        exact .inr ⟨refusal, hl, rfl⟩
  | .any (e :: rest) => by
      rw [Filter.compile, members_joined (compileAll_ne_nil (List.cons_ne_nil _ _)),
        ofMembers_single, ofMember_or]
      rcases readAs_compileAll (e :: rest) with ⟨queries, hl, hr, hh⟩ | ⟨refusal, hl, hr⟩
      · rw [hr]
        refine .inl ⟨_, hl, rfl, fun tags => ?_⟩
        rw [holdsAll, holdsAll, Bool.and_true, holds, Expression.Holds]
        exact (hh tags).2.trans ⟨.inr, fun h => h.resolve_left (List.cons_ne_nil _ _)⟩
      · rw [hr]
        exact .inr ⟨refusal, hl, rfl⟩
  | .not child => by
      rw [Filter.compile, Filter.single, ofMembers_single, Filter.toValue, ofMember_not]
      rcases reads_compile child with ⟨parts, hl, hr, hh⟩ | ⟨refusal, hl, hr⟩
      · rw [hr]
        refine .inl ⟨_, hl, rfl, fun tags => ?_⟩
        rw [holdsAll, holdsAll, Bool.and_true, Expression.Holds, ← hh tags]
        simp [holds, holds_conjunction]
      · rw [hr]
        exact .inr ⟨refusal, hl, rfl⟩
  | .compare field op value => reads_compare field op value
  | .inSet field values => reads_inSet field values

theorem readAs_compileAll : ∀ es : List Expression, ReadAs es (ofItems (Filter.compileAll es))
  | [] => .inl ⟨[], trivial, rfl, fun _ => ⟨⟨fun _ => trivial, fun _ => rfl⟩, by
      simp [holdsAny, Expression.HoldsAny]⟩⟩
  | e :: rest => by
      rw [Filter.compileAll, Filter.toValue, ofItems]
      rcases reads_compile e with ⟨parts, hl, hr, hh⟩ | ⟨refusal, hl, hr⟩
      · rw [hr]
        rcases readAs_compileAll rest with ⟨queries, hls, hrs, hhs⟩ | ⟨refusal, hls, hrs⟩
        · rw [hrs]
          refine .inl ⟨_, ⟨hl, hls⟩, rfl, fun tags => ?_⟩
          obtain ⟨hall, hany⟩ := hhs tags
          simp [holdsAll, holdsAny, holds_conjunction, Expression.HoldsAll, Expression.HoldsAny,
            hh, hall, hany]
        · rw [hrs]
          exact .inr ⟨refusal, fun h => hls h.2, rfl⟩
      · rw [hr]
        exact .inr ⟨refusal, fun h => hl h.1, rfl⟩

end

end Query

/-! ### The text of a compiled expression -/

namespace Filter

open Json (Value)

theorem plainItems_strings (values : List String) :
    Value.PlainItems (values.map .string) ∧ Value.depthItems (values.map .string) = 0 := by
  induction values with
  | nil => exact ⟨trivial, rfl⟩
  | cons v rest ih => exact ⟨⟨trivial, ih.1⟩, by rw [List.map_cons, Value.depthItems, ih.2]; rfl⟩

theorem plain_single (name : String) {v : Value} (h : v.Plain) :
    (single name v).toValue.Plain ∧ (single name v).toValue.depth = 1 + v.depth := by
  constructor
  · exact ⟨List.pairwise_singleton _ _, h, trivial⟩
  · rw [single, toValue, Value.depth, Value.depthMembers, Value.depthMembers, Nat.max_zero]

theorem plain_ofSet (field : String) (values : List String) :
    (ofSet field values).toValue.Plain ∧ (ofSet field values).toValue.depth = 3 := by
  obtain ⟨hs, hd⟩ := plainItems_strings values
  have ha : (Value.array (values.map .string)).Plain := hs
  have hin : (single Comparison.isIn.keyword (.array (values.map .string))).toValue.Plain ∧
      (single Comparison.isIn.keyword (.array (values.map .string))).toValue.depth = 2 := by
    refine ⟨(plain_single _ ha).1, ?_⟩
    rw [(plain_single _ ha).2, Value.depth, hd]
  refine ⟨(plain_single field hin.1).1, ?_⟩
  exact (plain_single field hin.1).2.trans (congrArg (1 + ·) hin.2)

theorem plain_ofComparison (field : String) (op : Comparison) (value : String) :
    (ofComparison field op value).toValue.Plain ∧
      (ofComparison field op value).toValue.depth = (Expression.compare field op value).depth := by
  by_cases he : op = .eq
  · subst he
    exact plain_single field (v := .string value) trivial
  by_cases hi : op = .isIn
  · subst hi
    exact plain_ofSet field [value]
  · have hk := plain_single op.keyword (v := .string value) trivial
    rw [Query.ofComparison_keyword he hi]
    refine ⟨(plain_single field hk.1).1, (plain_single field hk.1).2.trans ?_⟩
    rw [hk.2, Expression.depth.eq_def]
    cases op <;> first | rfl | contradiction

/-- Parts that are joined under a connective. -/
theorem plain_joined {keyword : String} {parts : List Value} (hn : parts ≠ [])
    (h : Value.PlainItems parts) :
    (joined keyword parts).toValue.Plain ∧
      (joined keyword parts).toValue.depth = 2 + Value.depthItems parts := by
  have ha : (Value.array parts).Plain := h
  have hs := plain_single keyword ha
  rw [toValue, Query.members_joined hn]
  refine ⟨hs.1, hs.2.trans ?_⟩
  rw [Value.depth, ← Nat.add_assoc]

mutual

/-- The filter of an expression has a text of its own, nested as deep as the expression says. -/
theorem plain_compile : ∀ e : Expression,
    (compile e).toValue.Plain ∧ (compile e).toValue.depth = e.depth
  | .always | .all [] | .any [] => ⟨⟨.nil, trivial⟩, rfl⟩
  | .all (e :: rest) | .any (e :: rest) => by
      obtain ⟨hp, hd⟩ := plain_compileAll (e :: rest)
      rw [compile, Expression.depth]
      obtain ⟨hj, hjd⟩ := plain_joined (Query.compileAll_ne_nil (List.cons_ne_nil e rest)) hp
      exact ⟨hj, hjd.trans (congrArg (2 + ·) hd)⟩
  | .not child => by
      obtain ⟨hp, hd⟩ := plain_compile child
      rw [compile, Expression.depth]
      exact ⟨(plain_single _ hp).1, (plain_single _ hp).2.trans (congrArg (1 + ·) hd)⟩
  | .compare field op value => plain_ofComparison field op value
  | .inSet field values => plain_ofSet field values

theorem plain_compileAll : ∀ es : List Expression,
    Value.PlainItems (compileAll es) ∧ Value.depthItems (compileAll es) = Expression.depthAll es
  | [] => ⟨trivial, rfl⟩
  | e :: rest => by
      obtain ⟨hp, hd⟩ := plain_compile e
      obtain ⟨hps, hds⟩ := plain_compileAll rest
      rw [compileAll, Expression.depthAll, Value.depthItems, hd, hds]
      exact ⟨⟨hp, hps⟩, rfl⟩

end

end Filter

/-! ### From the text to the query -/

namespace Query

open Json

/-- The text of a compiled expression is read as its members are, unless it is nested too deep. -/
theorem decode_encode_compile (e : Expression) :
    (e.depth ≤ Json.maxDepth ∧ decode (Filter.compile e).encode =
        conjunction <$> ofMembers (Filter.compile e).members) ∨
      Json.maxDepth < e.depth ∧
        ∃ error, decode (Filter.compile e).encode = .error (.unreadable error) := by
  obtain ⟨hp, hd⟩ := Filter.plain_compile e
  rw [← hd, decode, Filter.encode]
  rcases Nat.lt_or_ge Json.maxDepth (Filter.compile e).toValue.depth with h | h
  · obtain ⟨error, he⟩ := Document.read_write_deep hp h
    rw [he]
    exact .inr ⟨h, error, rfl⟩
  · rw [Document.read_write hp h]
    exact .inl ⟨h, rfl⟩

/-- A store takes the filter of an expression for a query of the same meaning, or refuses it for
one of the two reasons. -/
theorem decode_compile_cases (e : Expression) :
    (∃ q, (e.Legal ∧ e.depth ≤ Json.maxDepth) ∧ decode (Filter.compile e).encode = .ok q ∧
        ∀ tags, holds tags q = true ↔ e.Holds tags) ∨
      ∃ refusal, ¬ (e.Legal ∧ e.depth ≤ Json.maxDepth) ∧
        decode (Filter.compile e).encode = .error refusal := by
  rcases decode_encode_compile e with ⟨hd, he⟩ | ⟨hd, error, he⟩
  · rw [he]
    rcases reads_compile e with ⟨parts, hl, hr, hh⟩ | ⟨refusal, hl, hr⟩
    · rw [hr]
      refine .inl ⟨conjunction parts, ⟨hl, hd⟩, rfl, fun tags => ?_⟩
      rw [holds_conjunction]
      exact hh tags
    · rw [hr]
      exact .inr ⟨refusal, fun h => hl h.1, rfl⟩
  · rw [he]
    exact .inr ⟨_, fun h => absurd h.2 (Nat.not_le_of_lt hd), rfl⟩

theorem holds_of_decode {e : Expression} {q : Query}
    (h : decode (Filter.compile e).encode = .ok q) (tags : Tags) :
    holds tags q = true ↔ e.Holds tags := by
  rcases decode_compile_cases e with ⟨q', -, hq, hh⟩ | ⟨refusal, -, hr⟩
  · obtain rfl := Except.ok.inj (h.symm.trans hq)
    exact hh tags
  · rw [h] at hr
    contradiction

/-- **A store accepts the filters of exactly the legal expressions that are not nested too deep, and
finds the records that satisfy them.**  Every other filter is reported as a query error. -/
theorem decode_compile (e : Expression) :
    ((∃ q, decode (Filter.compile e).encode = .ok q) ↔ e.Legal ∧ e.depth ≤ 127) ∧
      (¬ (e.Legal ∧ e.depth ≤ 127) → ∃ refusal, decode (Filter.compile e).encode = .error refusal ∧
        refusal.failure = .wallet .queryError) ∧
      ∀ q, decode (Filter.compile e).encode = .ok q →
        ∀ tags, holds tags q = true ↔ e.Holds tags := by
  rcases decode_compile_cases e with ⟨q, hl, hq, hh⟩ | ⟨refusal, hl, hr⟩
  · rw [hq]
    refine ⟨⟨fun _ => hl, fun _ => ⟨q, rfl⟩⟩, fun h => absurd hl h, ?_⟩
    rintro _ ⟨⟩
    exact hh
  · rw [hr]
    refine ⟨⟨?_, fun h => absurd h hl⟩, fun _ => ⟨refusal, rfl, rfl⟩, ?_⟩
    · rintro ⟨_, ⟨⟩⟩
    · rintro _ ⟨⟩

/-- A filter without conditions accepts every record. -/
theorem decode_always : decode (Filter.compile .always).encode = .ok (.all []) := by
  rcases decode_encode_compile .always with ⟨-, he⟩ | ⟨hd, -⟩
  · rw [he]
    rfl
  · exact absurd hd (by decide)

/-- A tag in the clear may be ordered, a tag under the name of a connective is refused. -/
theorem decode_compile_examples :
    (∃ q, decode (Filter.compile (.all [.compare "~\"" .lt "b", .not (.inSet "k" ["$"])])).encode =
        .ok q ∧ ∀ tags, holds tags q = true ↔
          (Expression.all [.compare "~\"" .lt "b", .not (.inSet "k" ["$"])]).Holds tags) ∧
      ∃ refusal, decode (Filter.compile (.inSet "$and" [])).encode = .error refusal ∧
        refusal.failure = .wallet .queryError := by
  obtain ⟨hok, -, hmeans⟩ := decode_compile (.all [.compare "~\"" .lt "b", .not (.inSet "k" ["$"])])
  have hk : "k".toList.head? ≠ some '$' := by decide
  obtain ⟨q, hq⟩ := hok.mpr ⟨⟨⟨by decide, fun _ => by decide⟩, hk, trivial⟩, by decide⟩
  exact ⟨⟨q, hq, hmeans q hq⟩, (decode_compile (.inSet "$and" [])).2.1 fun h => h.1 (by decide)⟩

end Query

end TaggedRecords
