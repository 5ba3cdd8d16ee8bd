import FilterQuery.Proofs.Value.Order

/-!
Filters that are the same. They have one shape with the same values in it (`Filter.same_eq_true`),
and the same values are equal unless they are the two zeros (`Value.same_eq_true`), which compare
alike with every other value. So filters that are the same break one rule, have one set of keys and
accept the same documents (`Filter.accepts_congr_of_same`).
-/
namespace FilterQuery

namespace Binary64

open toUnits? (signed)

theorem same_eq_true {a b : Binary64} :
    a.same b = true ↔ ∃ units, a.toUnits? = some units ∧ b.toUnits? = some units := by
  unfold same compare?
  rw [decide_eq_true_eq]
  cases a.toUnits? with
  | none => simp
  | some u =>
    cases b.toUnits? with
    | none => simp
    | some v =>
      show some (compare u v) = some .eq ↔ _
      simp only [Option.some.injEq, compare_eq_iff_eq, exists_eq_left']
      exact eq_comm

/-- The signed size of a number tells its size, and its sign unless the size is zero. -/
theorem signed_inj {negative negative' : Bool} {units units' : Nat}
    (same : signed negative units = signed negative' units') :
    units = units' ∧ (units = 0 ∨ negative = negative') := by
  have size : units = units' := by
    rw [← natAbs_signed negative units, same, natAbs_signed]
  refine ⟨size, ?_⟩
  subst size
  by_cases zero : units = 0
  · exact .inl zero
  · refine .inr (Decidable.byContradiction fun differ => ?_)
    have opposite : (units : Int) = -units := by
      cases negative with
      | false =>
        rw [Bool.eq_not_of_ne (Ne.symm differ)] at same
        exact same
      | true =>
        rw [Bool.eq_not_of_ne (Ne.symm differ)] at same
        exact same.symm
    omega

/-- Two numbers with the same units are one number, or the two zeros. -/
theorem eq_or_zeros_of_toUnits? {a b : Binary64} {units : Int} (isA : a.toUnits? = some units)
    (isB : b.toUnits? = some units) :
    a = b ∨ ∃ negative, a = finite negative .zero ∧ b = finite (!negative) .zero := by
  -- The infinities stand at the limit and every finite number below it, so they never meet.
  have limitPos := Magnitude.limit_pos
  rw [← isB] at isA
  cases a with
  | nan => cases b <;> first | exact .inl rfl | cases isA
  | infinite negative =>
    cases b with
    | nan => cases isA
    | infinite negative' =>
      obtain ⟨_, zero | same⟩ := signed_inj (Option.some.inj isA)
      · omega
      · exact .inl (congrArg infinite same)
    | finite negative' magnitude =>
      have size := (signed_inj (Option.some.inj isA)).1
      have inside := magnitude.representable.1
      omega
  | finite negative magnitude =>
    have inside := magnitude.representable.1
    cases b with
    | nan => cases isA
    | infinite negative' =>
      have size := (signed_inj (Option.some.inj isA)).1
      omega
    | finite negative' magnitude' =>
      obtain ⟨size, zero | same⟩ := signed_inj (Option.some.inj isA)
      · have isZero : magnitude = .zero := Magnitude.ext_units zero
        have isZero' : magnitude' = .zero := Magnitude.ext_units (size.symm.trans zero)
        subst isZero isZero'
        by_cases same : negative = negative'
        · exact .inl (same ▸ rfl)
        · exact .inr ⟨negative, rfl, by rw [Bool.eq_not_of_ne (Ne.symm same)]⟩
      · exact .inl (same ▸ Magnitude.ext_units size ▸ rfl)

end Binary64

namespace Value

/-- The values are the two zeros among the floats. -/
def OppositeZeros (a b : Value) : Prop :=
  ∃ negative, a = float (.finite negative .zero) ∧ b = float (.finite (!negative) .zero)

/-- Values are the same if they are equal, a float that is not a number apart, or the two zeros. -/
theorem same_eq_true {a b : Value} :
    a.same b = true ↔ (a = b ∧ ¬ a.IsNaN) ∨ a.OppositeZeros b := by
  cases a with
  | bool a | int a | string a =>
    cases b <;> simp [same, IsNaN, OppositeZeros]
  | float a =>
    cases b with
    | bool | int | string => simp [same, OppositeZeros]
    | float b =>
      rw [same, Binary64.same_eq_true]
      constructor
      · rintro ⟨units, isA, isB⟩
        rcases Binary64.eq_or_zeros_of_toUnits? isA isB with rfl | ⟨negative, rfl, rfl⟩
        · refine .inl ⟨rfl, ?_⟩
          rintro ⟨⟩
          cases isA
        · exact .inr ⟨negative, rfl, rfl⟩
      · rintro (⟨⟨rfl⟩, number⟩ | ⟨negative, ⟨rfl⟩, ⟨rfl⟩⟩)
        · cases a with
          | nan => exact absurd rfl number
          | infinite | finite => exact ⟨_, rfl, rfl⟩
        · exact ⟨0, by cases negative <;> rfl, by cases negative <;> rfl⟩

/-- No value is a zero and the other zero. -/
theorem not_oppositeZeros_self (a : Value) : ¬ a.OppositeZeros a := by
  rintro ⟨negative, rfl, same⟩
  cases negative <;> cases same

theorem eq_of_same {a b : Value} (same : a.same b = true) (signs : ¬ a.OppositeZeros b) : a = b :=
  (same_eq_true.mp same).elim And.left fun zeros => absurd zeros signs

/-- The same values compare alike with every value. -/
theorem compare?_congr {a b : Value} (same : a.same b = true) (stored : Value) :
    stored.compare? a = stored.compare? b := by
  rcases same_eq_true.mp same with ⟨rfl, _⟩ | ⟨negative, rfl, rfl⟩
  · rfl
  · have units : (Binary64.finite negative .zero).toUnits? =
        (Binary64.finite (!negative) .zero).toUnits? := by
      cases negative <;> rfl
    cases stored with
    | bool | string => rfl
    | int | float => simp only [compare?, Binary64.compare?, units]

end Value

theorem Relation.holds_of_same {a b : Value} (same : a.same b = true) (relation : Relation)
    (stored : Option Value) : relation.holds stored a = relation.holds stored b := by
  have orders : (stored.bind fun actual => actual.compare? a) =
      stored.bind fun actual => actual.compare? b := by
    simp only [Value.compare?_congr same]
  cases relation with
  | contains =>
    rcases Value.same_eq_true.mp same with ⟨rfl, _⟩ | ⟨negative, rfl, rfl⟩
    · rfl
    · cases stored with
      | none => rfl
      | some value => cases value <;> rfl
  | eq | notEq | gt | gte | lt | lte => simp only [holds, orders]

theorem Membership.holds_of_same {xs ys : List Value}
    (same : List.Forall₂ (fun a b => a.same b = true) xs ys) (membership : Membership)
    (stored : Option Value) : membership.holds stored xs = membership.holds stored ys := by
  have found (actual : Value) : xs.any actual.equal = ys.any actual.equal := by
    induction same with
    | nil => rfl
    | cons first _ ih => simp only [List.any_cons, Value.equal, Value.compare?_congr first, ih]
  simp only [holds, found]

/-- The leaves have one operator and one field, and their values are related one by one. -/
inductive Leaf.Related (R : Value → Value → Prop) : Leaf → Leaf → Prop
  | compare (relation : Relation) (key : String) {a b : Value} : R a b →
      Related R (.compare relation key a) (.compare relation key b)
  | among (membership : Membership) (key : String) {xs ys : List Value} : List.Forall₂ R xs ys →
      Related R (.among membership key xs) (.among membership key ys)

/-- The filters have one shape, and their leaves are related one by one. -/
inductive Filter.Related (R : Value → Value → Prop) : Filter → Filter → Prop
  | leaf {l l' : Leaf} : l.Related R l' → Related R (.leaf l) (.leaf l')
  | join (connective : Connective) {left left' right right' : Filter} :
      Related R left left' → Related R right right' →
      Related R (.join connective left right) (.join connective left' right')
  | not {inner inner' : Filter} : Related R inner inner' → Related R (.not inner) (.not inner')

namespace Leaf

theorem same_eq_true {l l' : Leaf} :
    l.same l' = true ↔ l.Related (fun a b => a.same b = true) l' := by
  constructor
  · intro same
    cases l with
    | compare relation key a =>
      cases l' with
      | among => cases same
      | compare relation' key' b =>
        simp only [Leaf.same, Bool.and_eq_true, decide_eq_true_eq] at same
        obtain ⟨⟨rfl, rfl⟩, values⟩ := same
        exact .compare relation key values
    | among membership key xs =>
      cases l' with
      | compare => cases same
      | among membership' key' ys =>
        simp only [Leaf.same, Bool.and_eq_true, decide_eq_true_eq, List.all_eq_true] at same
        obtain ⟨⟨⟨rfl, rfl⟩, lengths⟩, values⟩ := same
        refine .among membership key (List.forall₂_iff_zip.mpr ⟨lengths, ?_⟩)
        intro a b zipped
        exact values (a, b) zipped
  · rintro (⟨relation, key, values⟩ | ⟨membership, key, values⟩)
    · simp only [Leaf.same, decide_true, Bool.true_and, values]
    · obtain ⟨lengths, values⟩ := List.forall₂_iff_zip.mp values
      simp only [Leaf.same, lengths, decide_true, Bool.true_and, List.all_eq_true]
      rintro ⟨a, b⟩ zipped
      exact values zipped

variable {R S T : Value → Value → Prop} {l l' : Leaf}

theorem related_self (reflexive : ∀ a, R a a) (l : Leaf) : l.Related R l := by
  cases l with
  | compare relation key a => exact .compare relation key (reflexive a)
  | among membership key xs =>
    exact .among membership key (List.forall₂_same.mpr fun a _ => reflexive a)

theorem Related.eq (related : l.Related Eq l') : l = l' := by
  cases related with
  | compare relation key same => rw [same]
  | among membership key same =>
    rw [List.forall₂_eq_eq_eq] at same
    rw [same]

theorem Related.mp (imp : ∀ a b, R a b → S a b → T a b) (related : l.Related R l')
    (related' : l.Related S l') : l.Related T l' := by
  cases related with
  | compare relation key value =>
    cases related' with
    | compare _ _ value' => exact .compare relation key (imp _ _ value value')
  | among membership key values =>
    cases related' with
    | among _ _ values' => exact .among membership key (.mp imp values values')

theorem Related.key_eq (related : l.Related R l') : l.key = l'.key := by
  cases related <;> rfl

theorem Related.validate_eq (related : l.Related R l') : l.validate = l'.validate := by
  cases related with
  | compare => rfl
  | among membership key values => cases values <;> rfl

theorem accepts_congr_of_same (same : l.Related (fun a b => a.same b = true) l')
    (metadata : Metadata) : l.accepts metadata = l'.accepts metadata := by
  cases same with
  | compare relation key value => exact Relation.holds_of_same value relation _
  | among membership key values => exact Membership.holds_of_same values membership _

end Leaf

namespace Filter

theorem same_eq_true {filter filter' : Filter} :
    filter.same filter' = true ↔ filter.Related (fun a b => a.same b = true) filter' := by
  constructor
  · intro same
    induction filter generalizing filter' with
    | leaf l =>
      cases filter' with
      | join | not => cases same
      | leaf l' => exact .leaf (Leaf.same_eq_true.mp same)
    | join connective left right ihLeft ihRight =>
      cases filter' with
      | leaf | not => cases same
      | join connective' left' right' =>
        simp only [Filter.same, Bool.and_eq_true, decide_eq_true_eq] at same
        obtain ⟨⟨rfl, sameLeft⟩, sameRight⟩ := same
        exact .join connective (ihLeft sameLeft) (ihRight sameRight)
    | not inner ih =>
      cases filter' with
      | leaf | join => cases same
      | not inner' => exact .not (ih same)
  · intro related
    induction related with
    | leaf related => exact Leaf.same_eq_true.mpr related
    | join connective _ _ ihLeft ihRight =>
      simp only [Filter.same, ihLeft, ihRight, decide_true, Bool.and_self]
    | not _ ih => exact ih

variable {R S T : Value → Value → Prop} {filter filter' : Filter}

theorem related_self (reflexive : ∀ a, R a a) (filter : Filter) : filter.Related R filter := by
  induction filter with
  | leaf l => exact .leaf (l.related_self reflexive)
  | join connective _ _ ihLeft ihRight => exact .join connective ihLeft ihRight
  | not _ ih => exact .not ih

theorem Related.eq (related : filter.Related Eq filter') : filter = filter' := by
  induction related with
  | leaf related => rw [related.eq]
  | join connective _ _ ihLeft ihRight => rw [ihLeft, ihRight]
  | not _ ih => rw [ih]

theorem Related.mp (imp : ∀ a b, R a b → S a b → T a b) (related : filter.Related R filter')
    (related' : filter.Related S filter') : filter.Related T filter' := by
  induction related with
  | leaf related =>
    cases related' with
    | leaf related' => exact .leaf (related.mp imp related')
  | join connective _ _ ihLeft ihRight =>
    cases related' with
    | join _ left right => exact .join connective (ihLeft left) (ihRight right)
  | not _ ih =>
    cases related' with
    | not inner => exact .not (ih inner)

/-- Filters that are the same are equal unless a zero stands where the other zero does. -/
theorem eq_iff_of_same (same : filter.Related (fun a b => a.same b = true) filter') :
    filter = filter' ↔ filter.Related (fun a b => ¬ a.OppositeZeros b) filter' := by
  constructor
  · rintro rfl
    exact related_self Value.not_oppositeZeros_self filter
  · intro signs
    exact (same.mp (fun _ _ => Value.eq_of_same) signs).eq

/-- Filters of one shape break the same rule first: the values do not count. -/
theorem Related.validate_eq (related : filter.Related R filter') :
    filter.validate = filter'.validate := by
  induction related with
  | leaf related => exact related.validate_eq
  | join connective _ _ ihLeft ihRight => rw [validate, validate, ihLeft, ihRight]
  | not _ ih => exact ih

theorem Related.leafKeys_eq (related : filter.Related R filter') :
    filter.leaves.map Leaf.key = filter'.leaves.map Leaf.key := by
  induction related with
  | leaf related => exact congrArg (fun key => [key]) related.key_eq
  | join connective _ _ ihLeft ihRight =>
    rw [leaves, leaves, List.map_append, List.map_append, ihLeft, ihRight]
  | not _ ih => exact ih

theorem Related.keys_eq (related : filter.Related R filter') : filter.keys = filter'.keys := by
  have pairs (leaves : List Leaf) : (leaves.map fun l => (l.key, ())) =
      (leaves.map Leaf.key).map fun key => (key, ()) := by
    rw [List.map_map]
    rfl
  rw [keys, keys, pairs, pairs, related.leafKeys_eq]

/-- Filters that are the same accept the same documents. -/
theorem accepts_congr_of_same (same : filter.Related (fun a b => a.same b = true) filter')
    (metadata : Metadata) : filter.accepts metadata = filter'.accepts metadata := by
  induction same with
  | leaf same => exact Leaf.accepts_congr_of_same same metadata
  | join connective _ _ ihLeft ihRight => rw [accepts, accepts, ihLeft, ihRight]
  | not _ ih => rw [accepts, accepts, ih]

end Filter

end FilterQuery
