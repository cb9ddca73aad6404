import TaggedRecords.Proofs.Filters

/-!
# Normal forms — what compiling an expression forgets

A filter does not show which of the three expressions without conditions it was compiled from, nor
whether a tag was compared by `isIn` or asked for in a set of one value.  The normal form of an
expression (`Expression.normal`) settles both, at every depth.

**Nothing else is forgotten** (`Filter.compile_eq_iff`): expressions none of whose fields is `$not`
have one filter, and filters one text, exactly if the expressions have one normal form.  A filter
has the filter of the normal form (`compile_normal`); and the normal form can be read off it
(`originOfMembers_compile`), which takes one induction where comparing two expressions would take a
case for each pair of shapes.  A field `$not` is the one exception because filters may stand behind
that name and behind no other.
-/

namespace TaggedRecords

/-! ### Normal forms -/

namespace Expression

mutual

/-- The expression with every part that has no conditions written as `always` and every comparison
by `isIn` as a set of one value. -/
def normal : Expression → Expression
  | .always | .all [] | .any [] => .always
  | .all (e :: rest) => .all (normal e :: normalAll rest)
  | .any (e :: rest) => .any (normal e :: normalAll rest)
  | .not child => .not (normal child)
  | .compare field .isIn value => .inSet field [value]
  | .compare field op value => .compare field op value
  | .inSet field values => .inSet field values

def normalAll : List Expression → List Expression
  | [] => []
  | e :: rest => normal e :: normalAll rest

end

mutual

/-- The names of the tags that an expression has conditions on. -/
def fields : Expression → List String
  | .always => []
  | .all children | .any children => fieldsAll children
  | .not child => fields child
  | .compare field _ _ | .inSet field _ => [field]

def fieldsAll : List Expression → List String
  | [] => []
  | e :: rest => fields e ++ fieldsAll rest

end

theorem normal_compare {op : Comparison} (h : op ≠ .isIn) (field value : String) :
    (compare field op value).normal = compare field op value := by
  cases op with
  | isIn => exact absurd rfl h
  | eq | neq | lt | lte | gt | gte | like => rfl

end Expression

namespace Filter

open Json (Value)

/-! ### The filter of a normal form -/

mutual

/-- **An expression has the filter of its normal form.** -/
theorem compile_normal : ∀ e : Expression, compile e.normal = compile e
  | .always | .all [] | .any [] => rfl
  | .all (e :: rest) | .any (e :: rest) => by
      rw [Expression.normal, compile, compile, compileAll, compileAll, compile_normal e,
        compileAll_normalAll rest]
  | .not child => by rw [Expression.normal, compile, compile, compile_normal child]
  | .compare field op value => by
      by_cases hi : op = .isIn
      · subst hi
        rfl
      · rw [Expression.normal_compare hi]
  | .inSet field values => rfl

theorem compileAll_normalAll : ∀ es : List Expression,
    compileAll (Expression.normalAll es) = compileAll es
  | [] => rfl
  | e :: rest => by
      rw [Expression.normalAll, compileAll, compileAll, compile_normal e, compileAll_normalAll rest]

end

/-! ### The normal form of a filter -/

/-- The condition on a tag that a predicate stands for. -/
def ofPredicate (field : String) : Predicate → Expression
  | .compare op value => .compare field op value
  | .oneOf values => .inSet field values

/-- The condition on a tag that a value was compiled from. -/
def originOfTag (field : String) (v : Value) : Expression :=
  (Query.predicateOf? v).elim .always (ofPredicate field)

mutual

/-- The expression in normal form that a member of a filter was compiled from. -/
def originOfMember (name : String) : Value → Expression
  | .array items => if name = "$and" then .all (originOfItems items) else .any (originOfItems items)
  | .object members =>
    if name = "$not" then .not (originOfMembers members) else originOfTag name (.object members)
  | v => originOfTag name v

/-- The expression in normal form that a filter of at most one member was compiled from. -/
def originOfMembers : List (String × Value) → Expression
  | [] => .always
  | m :: _ => originOfMember m.1 m.2

def originOfItems : List Value → List Expression
  | [] => []
  | .object members :: rest => originOfMembers members :: originOfItems rest
  | _ :: rest => originOfItems rest

end

/-- The condition on a tag is found again, unless the name of the tag is that of a connective behind
which filters stand. -/
theorem originOfMember_object {field keyword : String} {v : Value} {predicate : Predicate}
    (hf : field ≠ "$not")
    (hv : Query.predicateOf? (.object [(keyword, v)]) = some predicate) :
    originOfMembers (single field (.object [(keyword, v)])).members =
      ofPredicate field predicate := by
  rw [single, originOfMembers, originOfMember, if_neg hf, originOfTag, hv]
  rfl

theorem origin_ofSet {field : String} (hf : field ≠ "$not") (values : List String) :
    originOfMembers (ofSet field values).members = .inSet field values :=
  originOfMember_object hf (Query.predicateOf?_in values)

theorem origin_ofComparison {field : String} (hf : field ≠ "$not") (op : Comparison)
    (value : String) : originOfMembers (ofComparison field op value).members =
      (Expression.compare field op value).normal := by
  by_cases he : op = .eq
  · subst he
    rfl
  by_cases hi : op = .isIn
  · subst hi
    exact origin_ofSet hf [value]
  · rw [Query.ofComparison_keyword he hi, Expression.normal_compare hi]
    exact originOfMember_object hf (Query.predicateOf?_keyword hi value)

mutual

/-- **The normal form of an expression can be read off its filter.** -/
theorem originOfMembers_compile : ∀ e : Expression, "$not" ∉ e.fields →
    originOfMembers (compile e).members = e.normal
  | .always, _ | .all [], _ | .any [], _ => rfl
  | .all (e :: rest), h | .any (e :: rest), h => by
      rw [compile, Query.members_joined (Query.compileAll_ne_nil (List.cons_ne_nil e rest)),
        originOfMembers, originOfMember, originOfItems_compileAll (e :: rest) h]
      rfl
  | .not child, h => by
      rw [compile, single, originOfMembers, toValue, originOfMember, if_pos rfl,
        originOfMembers_compile child h, Expression.normal]
  | .compare field op value, h =>
      origin_ofComparison (fun hf => h (hf ▸ List.mem_singleton_self _)) op value
  | .inSet field values, h => origin_ofSet (fun hf => h (hf ▸ List.mem_singleton_self _)) values

theorem originOfItems_compileAll : ∀ es : List Expression, "$not" ∉ Expression.fieldsAll es →
    originOfItems (compileAll es) = Expression.normalAll es
  | [], _ => rfl
  | e :: rest, h => by
      rw [Expression.fieldsAll, List.mem_append, not_or] at h
      rw [compileAll, toValue, originOfItems, originOfMembers_compile e h.1,
        originOfItems_compileAll rest h.2, Expression.normalAll]

end

/-! ### Filters and texts -/

theorem toValue_inj {f g : Filter} (h : f.toValue = g.toValue) : f = g := by
  cases f
  cases g
  exact congrArg Filter.mk (Value.object.inj h)

/-- The text of an expression's filter determines the filter. -/
theorem encode_compile_inj {e e' : Expression} (h : (compile e).encode = (compile e').encode) :
    compile e = compile e' :=
  toValue_inj (Json.Document.write_inj (plain_compile e).1 (plain_compile e').1 h)

/-- **Compiling an expression forgets what its normal form forgets, and nothing else.**  Of
expressions without a condition on a tag `$not` those of one normal form have one filter, and those
of one filter have one text; and the other way about.  A condition on a tag `$not` can have the
filter of a negation. -/
theorem compile_eq_iff :
    (∀ e e' : Expression, "$not" ∉ e.fields → "$not" ∉ e'.fields →
      (e.normal = e'.normal ↔ compile e = compile e') ∧
      (compile e = compile e' ↔ (compile e).encode = (compile e').encode)) ∧
    ∀ value : String,
      compile (.compare "$not" .neq value) = compile (.not (.compare "$neq" .eq value)) ∧
      (Expression.compare "$not" .neq value).normal ≠
        (Expression.not (.compare "$neq" .eq value)).normal := by
  refine ⟨fun e e' he he' => ⟨⟨fun h => ?_, fun h => ?_⟩, congrArg encode, encode_compile_inj⟩,
    fun value => ⟨rfl, nofun⟩⟩
  · rw [← compile_normal e, h, compile_normal e']
  · rw [← originOfMembers_compile e he, h, originOfMembers_compile e' he']

/-- No conditions are no conditions, and one value is a set of one; but the order of parts counts,
even in the text. -/
theorem compile_eq_iff_examples :
    compile (.all [.any [], .compare "~a" .isIn "v"]) =
      compile (.all [.always, .inSet "~a" ["v"]]) ∧
    (compile (.any [.always, .compare "$and" .like "v"])).encode ≠
      (compile (.any [.compare "$and" .like "v", .always])).encode := by
  have hsame := (compile_eq_iff.1 (.all [.any [], .compare "~a" .isIn "v"])
    (.all [.always, .inSet "~a" ["v"]]) (by decide) (by decide)).1
  obtain ⟨hnormal, htext⟩ := compile_eq_iff.1 (.any [.always, .compare "$and" .like "v"])
    (.any [.compare "$and" .like "v", .always]) (by decide) (by decide)
  exact ⟨hsame.mp rfl, fun h => nomatch hnormal.mpr (htext.mpr h)⟩

end Filter

end TaggedRecords
