import FilterQuery.Proofs.Value.Order

/-!
The order between integers and floats. It is the order of the exact numbers, except that a float
which is nearest to an integer equals it, also when they are different numbers
(`Value.mixed_order_exact_unless_blurred`). No integer of up to 53 bits is blurred in this way. One
beyond that may equal a float that its neighbour equals too, so equality is not transitive, but it
fails only with a float between two integers.
-/
namespace FilterQuery

/-- The order satisfies the relation. No order of numbers satisfies `contains`. -/
def Relation.admits : Relation → Ordering → Bool
  | eq, order => order = .eq
  | notEq, order => order ≠ .eq
  | gt, order => order = .gt
  | gte, order => order = .gt || order = .eq
  | lt, order => order = .lt
  | lte, order => order = .lt || order = .eq
  | contains, _ => false

namespace Value

/-- The float is what the integer is rounded to, but another number. -/
def Blurs (n : Int64) (x : Binary64) : Prop :=
  x.number? = (Binary64.ofInt n.toInt).number? ∧ x.number? ≠ some (ExtendedRat.ofInt n.toInt)

instance (n : Int64) (x : Binary64) : Decidable (Blurs n x) :=
  inferInstanceAs (Decidable (_ ∧ _))

/-- How an integer and a float with this exact number are ordered. -/
def mixedOrder (n : Int64) (x : Binary64) (y : ExtendedRat) : Ordering :=
  if Blurs n x then .eq else cmp (ExtendedRat.ofInt n.toInt) y

theorem compare?_int_float {n : Int64} {x : Binary64} {y : ExtendedRat}
    (number : x.number? = some y) : (int n).compare? (float x) = some (mixedOrder n x y) := by
  have order : (int n).compare? (float x) = (Binary64.ofInt n.toInt).compare? x := by
    refine compare?_eq_of_asFloat? rfl rfl ?_
    rintro ⟨_, _, _, isInt⟩
    cases isInt
  rw [order, Binary64.compare?_ofInt n number, mixedOrder]
  by_cases blurs : Blurs n x
  · rw [if_pos blurs, if_pos (blurs.1.symm.trans number)]
  · rw [if_neg blurs]
    by_cases rounded : (Binary64.ofInt n.toInt).number? = some y
    · have value : x.number? = some (ExtendedRat.ofInt n.toInt) := by
        by_contra other
        exact blurs ⟨number.trans rounded.symm, other⟩
      rw [number, Option.some_inj] at value
      rw [if_pos rounded, value, cmp_self_eq_eq]
    · rw [if_neg rounded]

theorem compare?_float_int {n : Int64} {x : Binary64} {y : ExtendedRat}
    (number : x.number? = some y) :
    (float x).compare? (int n) = some (mixedOrder n x y).swap := by
  rw [compare?_swap (int n), compare?_int_float number, Option.map_some]

/-- The order is that of the exact numbers unless the float blurs the integer. -/
theorem mixedOrder_eq_cmp_iff {n : Int64} {x : Binary64} {y : ExtendedRat}
    (number : x.number? = some y) :
    mixedOrder n x y = cmp (ExtendedRat.ofInt n.toInt) y ↔ ¬ Blurs n x := by
  rw [mixedOrder]
  by_cases blurs : Blurs n x
  · rw [if_pos blurs]
    refine iff_of_false ?_ (not_not_intro blurs)
    intro equal
    have same := (cmp_eq_eq_iff _ _).mp equal.symm
    exact blurs.2 (number.trans (congrArg some same.symm))
  · rw [if_neg blurs]
    exact iff_of_true rfl blurs

theorem not_blurs_of_small {n : Int64} (small : n.toInt.natAbs ≤ 2 ^ (53 : Nat)) (x : Binary64) :
    ¬ Blurs n x := by
  rintro ⟨rounded, other⟩
  exact other (rounded.trans (Binary64.number?_ofInt_of_small small))

/-- An integer equals a float if the float is the same number or blurs the integer. -/
theorem equal_int_float_iff {n : Int64} {x : Binary64} :
    (int n).equal (float x) = true ↔
      x.number? = some (ExtendedRat.ofInt n.toInt) ∨ Blurs n x := by
  rw [equal, decide_eq_true_eq]
  cases number : x.number? with
  | none =>
    obtain rfl := Binary64.number?_eq_none.mp number
    obtain ⟨r, rounded, _⟩ := Binary64.exists_number?_ofInt n
    have incomparable : (int n).compare? (float .nan) = none :=
      (compare?_eq_none_iff _ _).mpr fun comparable => comparable.2.2 rfl
    simp [incomparable, Blurs, number, rounded]
  | some y =>
    rw [compare?_int_float number, Option.some_inj, mixedOrder]
    by_cases blurs : Blurs n x
    · exact iff_of_true (if_pos blurs) (.inr blurs)
    · rw [if_neg blurs, cmp_eq_eq_iff, or_iff_left blurs, Option.some_inj, eq_comm]

theorem equal_comm (a b : Value) : a.equal b = b.equal a := by
  rw [equal, equal, compare?_swap b a]
  cases b.compare? a with
  | none => rfl
  | some order => cases order <;> rfl

/-- If one of the two is a float, numbers are equal when their floats are. -/
theorem equal_iff_units? {a b : Value} (numeric : a.isNumeric = true)
    (numeric' : b.isNumeric = true) (mixed : ¬ ∃ m n, a = int m ∧ b = int n) :
    a.equal b = true ↔ ∃ u, a.units? = some u ∧ b.units? = some u := by
  obtain ⟨x, isFloat⟩ := exists_asFloat? numeric
  obtain ⟨y, isFloat'⟩ := exists_asFloat? numeric'
  rw [equal, decide_eq_true_eq, compare?_eq_of_asFloat? isFloat isFloat' mixed, units?, units?,
    isFloat, isFloat', Option.bind_some, Option.bind_some, Binary64.compare?]
  cases x.toUnits? with
  | none => simp
  | some u =>
    cases y.toUnits? with
    | none => simp
    | some v => simp [eq_comm (a := v)]

/-- Equal values are the same value, or else numbers with one float that are not both integers. -/
theorem eq_or_units?_of_equal {a b : Value} (same : a.equal b = true) :
    a = b ∨ (¬ ∃ m n, a = int m ∧ b = int n) ∧ ∃ u, a.units? = some u ∧ b.units? = some u := by
  have ordered := same
  rw [equal, decide_eq_true_eq] at ordered
  cases a with
  | bool a =>
    cases b with
    | bool b =>
      exact .inl (congrArg bool (Std.LawfulEqCmp.compare_eq_iff_eq.mp (Option.some.inj ordered)))
    | int | float | string => cases ordered
  | string a =>
    cases b with
    | string b =>
      exact .inl (congrArg string (Std.LawfulEqCmp.compare_eq_iff_eq.mp (Option.some.inj ordered)))
    | bool | int | float => cases ordered
  | int m =>
    cases b with
    | int n =>
      have integers := Std.LawfulEqCmp.compare_eq_iff_eq.mp (Option.some.inj ordered)
      exact .inl (congrArg int (Int64.toInt_inj.mp integers))
    | bool | string => cases ordered
    | float y =>
      have mixed : ¬ ∃ m' n, int m = int m' ∧ float y = int n := by
        rintro ⟨_, _, _, isInt⟩
        cases isInt
      exact .inr ⟨mixed, (equal_iff_units? rfl rfl mixed).mp same⟩
  | float x =>
    have mixed : ¬ ∃ m n, float x = int m ∧ b = int n := by
      rintro ⟨_, _, isInt, _⟩
      cases isInt
    exact .inr ⟨mixed, (equal_iff_units? rfl (isNumeric_of_compare? rfl ordered) mixed).mp same⟩

/-- Equality is transitive, except that a float between two integers may equal both. -/
theorem equal_trans {a b c : Value} (same : a.equal b = true) (same' : b.equal c = true) :
    a.equal c = true ∨ ∃ m x n, a = int m ∧ b = float x ∧ c = int n ∧ (Blurs m x ∨ Blurs n x) := by
  rcases eq_or_units?_of_equal same with rfl | ⟨mixed, u, unitsA, unitsB⟩
  · exact .inl same'
  · rcases eq_or_units?_of_equal same' with rfl | ⟨_, v, unitsB', unitsC⟩
    · exact .inl same
    · rw [unitsB, Option.some_inj] at unitsB'
      subst unitsB'
      by_cases integers : ∃ m n, a = int m ∧ c = int n
      · obtain ⟨m, n, rfl, rfl⟩ := integers
        cases b with
        | bool | string => cases unitsB
        | int k => exact absurd ⟨m, k, rfl, rfl⟩ mixed
        | float x =>
          rw [equal_int_float_iff] at same
          rw [equal_comm, equal_int_float_iff] at same'
          by_cases blurs : Blurs m x ∨ Blurs n x
          · exact .inr ⟨m, x, n, rfl, rfl, rfl, blurs⟩
          · rw [not_or] at blurs
            have value := (same.resolve_right blurs.1).symm.trans (same'.resolve_right blurs.2)
            have integer : m = n := by
              simpa [ExtendedRat.ofInt, Int64.toInt_inj] using value
            have number : int n ≠ float .nan := by rintro ⟨⟩
            rw [integer]
            exact .inl ((equal_self_iff _).mpr number)
      · left
        rw [equal_iff_units? (isNumeric_of_units? unitsA) (isNumeric_of_units? unitsC) integers]
        exact ⟨u, unitsA, unitsC⟩

/-- A relation holds between two numbers as their order says. -/
theorem holds_of_compare? (relation : Relation) {stored value : Value} {order : Ordering}
    (numeric : stored.isNumeric = true) (ordered : stored.compare? value = some order) :
    relation.holds (some stored) value = relation.admits order := by
  cases relation with
  | contains =>
    cases stored with
    | bool | string => cases numeric
    | int | float => rfl
  | eq | notEq | gt | gte | lt | lte =>
    simp only [Relation.holds, Relation.admits, Option.bind_some, ordered, Option.some_inj, ne_eq]

/-- A membership holds if one of the values equals the stored one. -/
theorem accepts_isIn_iff {metadata : Metadata} {key : String} {stored : Value}
    (found : metadata.get? key = some stored) (values : List Value) :
    (Filter.isIn key values).accepts metadata = true ↔ ∃ v ∈ values, stored.equal v = true := by
  change Membership.isIn.holds (metadata.get? key) values = true ↔ _
  rw [found, Membership.holds, Option.any_some, List.any_eq_true]

/-- An integer and a float are ordered as their exact numbers, unless the float blurs the integer:
then they are equal, and the float is a nearest one to the integer, which has more than 53 bits. The
conditions of a filter, where one of the two is stored and the other is given, go by this order. So
equality is transitive, except that a float which blurs one of two integers may equal both. -/
theorem mixed_order_exact_unless_blurred (n : Int64) (x : Binary64) (y : ExtendedRat)
    (number : x.number? = some y) :
    ((int n).compare? (float x) = some (mixedOrder n x y) ∧
        (float x).compare? (int n) = some (mixedOrder n x y).swap) ∧
      (mixedOrder n x y = cmp (ExtendedRat.ofInt n.toInt) y ↔ ¬ Blurs n x) ∧
      (Blurs n x → 2 ^ (53 : Nat) < n.toInt.natAbs ∧
        ∃ r : ℚ, y = ((r : WithTop ℚ) : ExtendedRat) ∧ ∀ (c : Binary64) (s : ℚ),
          c.number? = some ((s : WithTop ℚ) : ExtendedRat) → |r - n.toInt| ≤ |s - n.toInt|) ∧
      (∀ (metadata : Metadata) (key : String), metadata.get? key = some (int n) →
        (∀ relation, (Filter.leaf (.compare relation key (float x))).accepts metadata =
          relation.admits (mixedOrder n x y)) ∧
        ∀ floats : List Binary64, (Filter.isIn key (floats.map float)).accepts metadata = true ↔
          ∃ z ∈ floats, z.number? = some (ExtendedRat.ofInt n.toInt) ∨ Blurs n z) ∧
      (∀ (metadata : Metadata) (key : String), metadata.get? key = some (float x) →
        (∀ relation, (Filter.leaf (.compare relation key (int n))).accepts metadata =
          relation.admits (mixedOrder n x y).swap) ∧
        ∀ integers : List Int64, (Filter.isIn key (integers.map int)).accepts metadata = true ↔
          ∃ m ∈ integers, y = ExtendedRat.ofInt m.toInt ∨ Blurs m x) ∧
      ∀ a b c : Value, a.equal b = true → b.equal c = true → a.equal c = true ∨
        ∃ k z m, a = int k ∧ b = float z ∧ c = int m ∧ (Blurs k z ∨ Blurs m z) := by
  have order := compare?_int_float (n := n) number
  have reverse := compare?_float_int (n := n) number
  refine ⟨⟨order, reverse⟩, mixedOrder_eq_cmp_iff number, ?_, ?_, ?_,
    fun a b c => equal_trans⟩
  · intro blurs
    obtain ⟨r, rounded, nearest⟩ := Binary64.exists_number?_ofInt n
    refine ⟨Nat.not_le.mp fun small => not_blurs_of_small small x blurs, r, ?_, nearest⟩
    exact Option.some.inj (number.symm.trans (blurs.1.trans rounded))
  · intro metadata key found
    refine ⟨fun relation => ?_, fun floats => ?_⟩
    · rw [Filter.accepts, Leaf.accepts, found]
      exact holds_of_compare? relation rfl order
    · rw [accepts_isIn_iff found]
      simp only [List.mem_map, exists_exists_and_eq_and, equal_int_float_iff]
  · intro metadata key found
    refine ⟨fun relation => ?_, fun integers => ?_⟩
    · rw [Filter.accepts, Leaf.accepts, found]
      exact holds_of_compare? relation rfl reverse
    · rw [accepts_isIn_iff found]
      simp only [List.mem_map, exists_exists_and_eq_and, equal_comm (float x), equal_int_float_iff,
        number, Option.some_inj]

/-- 2^53 as a float blurs the integer after 2^53, which is greater, and equals them both. -/
theorem blurred_by_two_pow_53 :
    (Binary64.ofBits 0x4340000000000000).number? = some (ExtendedRat.ofInt 9007199254740992) ∧
      cmp (ExtendedRat.ofInt 9007199254740993) (ExtendedRat.ofInt 9007199254740992) = .gt ∧
      (int 9007199254740993).compare? (float (.ofBits 0x4340000000000000)) = some .eq ∧
      (float (.ofBits 0x4340000000000000)).equal (int 9007199254740992) = true ∧
      (int 9007199254740993).equal (int 9007199254740992) = false := by
  decide +kernel

/-- A stored 2^53 as a float is greater than 3 and not less than the integer after 2^53, and it
equals one of two integers of which it blurs the second. -/
theorem mixed_order_of_two_pow_53 :
    let metadata : Metadata := SortedMap.empty.insert "size" (float (.ofBits 0x4340000000000000))
    metadata.get? "size" = some (float (.ofBits 0x4340000000000000)) ∧
      (Filter.gt "size" (int 3)).accepts metadata = true ∧
      (Filter.lt "size" (int 9007199254740993)).accepts metadata = false ∧
      (Filter.isIn "size" [int 3, int 9007199254740993]).accepts metadata = true ∧
      2 ^ (53 : Nat) < (9007199254740993 : Int64).toInt.natAbs := by
  intro metadata
  have number : (Binary64.ofBits 0x4340000000000000).number? =
      some (ExtendedRat.ofInt 9007199254740992) := by decide +kernel
  have found : metadata.get? "size" = some (float (.ofBits 0x4340000000000000)) := by
    decide +kernel
  have blurs : Blurs 9007199254740993 (.ofBits 0x4340000000000000) := by decide +kernel
  obtain ⟨_, _, _, _, ofSmall, _⟩ := mixed_order_exact_unless_blurred 3 _ _ number
  obtain ⟨_, _, ofBlurred, _, ofNext, _⟩ :=
    mixed_order_exact_unless_blurred 9007199254740993 _ _ number
  refine ⟨found, ((ofSmall metadata "size" found).1 .gt).trans (by decide +kernel),
    ((ofNext metadata "size" found).1 .lt).trans (by decide +kernel), ?_, (ofBlurred blurs).1⟩
  exact ((ofNext metadata "size" found).2 [3, 9007199254740993]).mpr
    ⟨9007199254740993, by simp, .inr blurs⟩

end Value

end FilterQuery
