import FilterQuery.Filter.Evaluation
import FilterQuery.Proofs.Number.Exact

/-!
The order of values. Two numbers are ordered by their floats unless both are integers, and two
integers are ordered as integers; rounding to floats loses order between integers and never reverses
it, so the order is transitive over any chain of integers and floats
(`Value.strict_partial_order`).
-/
namespace FilterQuery

namespace Binary64

theorem compare?_swap (a b : Binary64) : b.compare? a = (a.compare? b).map Ordering.swap := by
  unfold compare?
  cases a.toUnits? with
  | none => cases b.toUnits? <;> rfl
  | some u =>
    cases b.toUnits? with
    | none => rfl
    | some v => exact congrArg some Std.OrientedCmp.eq_swap

theorem compare?_eq_none {a b : Binary64} : a.compare? b = none ↔ a = nan ∨ b = nan := by
  cases a <;> cases b <;> simp [compare?, toUnits?]

theorem compare?_eq_some_lt {a b : Binary64} :
    a.compare? b = some .lt ↔
      ∃ u v, a.toUnits? = some u ∧ b.toUnits? = some v ∧ u < v := by
  unfold compare?
  cases a.toUnits? with
  | none => simp
  | some u =>
    cases b.toUnits? with
    | none => simp
    | some v => simp [compare_lt_iff_lt]

theorem compare?_self {a : Binary64} (number : a ≠ nan) : a.compare? a = some .eq := by
  cases a with
  | nan => exact absurd rfl number
  | infinite negative | finite negative magnitude =>
    exact congrArg some Std.ReflCmp.compare_self

end Binary64

namespace Value

def SameKind : Value → Value → Prop
  | bool _, bool _ | int _, int _ | float _, float _ | string _, string _ => True
  | _, _ => False

def IsNaN (a : Value) : Prop := a = float .nan

/-- The two values have one kind or are both numbers, and neither is a float that is not a number.
-/
def Comparable (a b : Value) : Prop :=
  (a.SameKind b ∨ a.isNumeric = true ∧ b.isNumeric = true) ∧ ¬ a.IsNaN ∧ ¬ b.IsNaN

theorem compare?_swap (a b : Value) : b.compare? a = (a.compare? b).map Ordering.swap := by
  cases a with
  | bool a =>
    cases b with
    | bool b => exact congrArg some Std.OrientedCmp.eq_swap
    | int | float | string => rfl
  | string a =>
    cases b with
    | string b => exact congrArg some Std.OrientedCmp.eq_swap
    | bool | int | float => rfl
  | int a =>
    cases b with
    | int b => exact congrArg some Std.OrientedCmp.eq_swap
    | float b => exact Binary64.compare?_swap _ b
    | bool | string => rfl
  | float a =>
    cases b with
    | int b => exact Binary64.compare?_swap a _
    | float b => exact Binary64.compare?_swap a b
    | bool | string => rfl

theorem ofInt_ne_nan (n : Int64) : Binary64.ofInt n.toInt ≠ .nan := by
  intro nan
  have units := Binary64.toUnits?_ofInt n
  rw [nan] at units
  cases units

/-- Values have an order exactly when they are comparable. -/
theorem compare?_eq_none_iff (a b : Value) : a.compare? b = none ↔ ¬ a.Comparable b := by
  cases a <;> cases b <;>
    simp [compare?, Comparable, SameKind, isNumeric, IsNaN, Binary64.compare?_eq_none, ofInt_ne_nan,
      or_iff_not_imp_left]

theorem compare?_self {a : Value} (number : ¬ a.IsNaN) : a.compare? a = some .eq := by
  cases a with
  | bool | string | int => exact congrArg some Std.ReflCmp.compare_self
  | float x =>
    refine Binary64.compare?_self ?_
    rintro rfl
    exact number rfl

/-- The float of a number, as a count of units. -/
def units? (a : Value) : Option Int := a.asFloat?.bind Binary64.toUnits?

theorem units?_int (n : Int64) : (int n).units? = some (Binary64.roundedUnits n.toInt) := by
  rw [units?, asFloat?, Option.bind_some, Binary64.toUnits?_ofInt]

theorem exists_asFloat? {a : Value} (numeric : a.isNumeric = true) : ∃ x, a.asFloat? = some x := by
  cases a with
  | bool | string => cases numeric
  | int | float => exact ⟨_, rfl⟩

/-- If one of the two is a float, numbers are ordered as their floats are. -/
theorem compare?_eq_of_asFloat? {a b : Value} {x y : Binary64} (isFloat : a.asFloat? = some x)
    (isFloat' : b.asFloat? = some y) (mixed : ¬ ∃ m n, a = int m ∧ b = int n) :
    a.compare? b = x.compare? y := by
  cases a with
  | bool | string => cases isFloat
  | int m =>
    cases b with
    | bool | string => cases isFloat'
    | int n => exact absurd ⟨m, n, rfl, rfl⟩ mixed
    | float y' =>
      rw [← Option.some.inj isFloat, ← Option.some.inj isFloat']
      rfl
  | float x' =>
    cases b with
    | bool | string => cases isFloat'
    | int | float =>
      rw [← Option.some.inj isFloat, ← Option.some.inj isFloat']
      rfl

theorem compare?_eq_some_lt_iff_units? {a b : Value} (numeric : a.isNumeric = true)
    (numeric' : b.isNumeric = true) (mixed : ¬ ∃ m n, a = int m ∧ b = int n) :
    a.compare? b = some .lt ↔ ∃ u v, a.units? = some u ∧ b.units? = some v ∧ u < v := by
  obtain ⟨x, isFloat⟩ := exists_asFloat? numeric
  obtain ⟨y, isFloat'⟩ := exists_asFloat? numeric'
  rw [compare?_eq_of_asFloat? isFloat isFloat' mixed, Binary64.compare?_eq_some_lt, units?, units?,
    isFloat, isFloat', Option.bind_some, Option.bind_some]

theorem isNumeric_of_units? {a : Value} {u : Int} (units : a.units? = some u) :
    a.isNumeric = true := by
  cases a with
  | bool | string => cases units
  | int | float => rfl

theorem isNumeric_of_compare? {a b : Value} {order : Ordering} (numeric : a.isNumeric = true)
    (ordered : a.compare? b = some order) : b.isNumeric = true := by
  cases a with
  | bool | string => cases numeric
  | int | float =>
    cases b with
    | bool | string => cases ordered
    | int | float => rfl

/-- Of two numbers in order, the floats are in order, and strictly unless both are integers. -/
theorem units?_of_lt {a b : Value} (numeric : a.isNumeric = true) (lt : a.compare? b = some .lt) :
    ∃ u v, a.units? = some u ∧ b.units? = some v ∧ u ≤ v ∧
      (u < v ∨ ∃ m n, a = int m ∧ b = int n) := by
  by_cases integers : ∃ m n, a = int m ∧ b = int n
  · obtain ⟨m, n, rfl, rfl⟩ := integers
    have order : m.toInt < n.toInt := compare_lt_iff_lt.mp (Option.some.inj lt)
    exact ⟨_, _, units?_int m, units?_int n, Binary64.roundedUnits_mono order.le,
      .inr ⟨m, n, rfl, rfl⟩⟩
  · rw [compare?_eq_some_lt_iff_units? numeric (isNumeric_of_compare? numeric lt) integers] at lt
    obtain ⟨u, v, units, units', order⟩ := lt
    exact ⟨u, v, units, units', order.le, .inl order⟩

/-- Numbers whose floats are strictly in order are so themselves. -/
theorem lt_of_units? {a b : Value} {u v : Int} (units : a.units? = some u)
    (units' : b.units? = some v) (order : u < v) : a.compare? b = some .lt := by
  by_cases integers : ∃ m n, a = int m ∧ b = int n
  · obtain ⟨m, n, rfl, rfl⟩ := integers
    refine congrArg some (compare_lt_iff_lt.mpr ?_)
    by_contra notLess
    have reversed := Binary64.roundedUnits_mono (Int.not_lt.mp notLess)
    rw [units?_int, Option.some_inj] at units units'
    omega
  · rw [compare?_eq_some_lt_iff_units? (isNumeric_of_units? units) (isNumeric_of_units? units')
      integers]
    exact ⟨u, v, units, units', order⟩

theorem compare?_trans {a b c : Value} (lt : a.compare? b = some .lt)
    (lt' : b.compare? c = some .lt) : a.compare? c = some .lt := by
  have numbers (numeric : a.isNumeric = true) (numeric' : b.isNumeric = true) :
      a.compare? c = some .lt := by
    obtain ⟨u, v, units, units', le, strict⟩ := units?_of_lt numeric lt
    obtain ⟨v', w, same, units'', le', strict'⟩ := units?_of_lt numeric' lt'
    rw [units', Option.some_inj] at same
    subst same
    rcases strict with strict | ⟨l, m, rfl, rfl⟩
    · exact lt_of_units? units units'' (Int.lt_of_lt_of_le strict le')
    · rcases strict' with strict' | ⟨m', n, middle, rfl⟩
      · exact lt_of_units? units units'' (Int.lt_of_le_of_lt le strict')
      · cases middle
        exact congrArg some (Std.TransCmp.lt_trans (Option.some.inj lt) (Option.some.inj lt'))
  cases a with
  | bool a =>
    cases b with
    | bool b =>
      cases c with
      | bool c =>
        exact congrArg some (Std.TransCmp.lt_trans (Option.some.inj lt) (Option.some.inj lt'))
      | int | float | string => cases lt'
    | int | float | string => cases lt
  | string a =>
    cases b with
    | string b =>
      cases c with
      | string c =>
        exact congrArg some (Std.TransCmp.lt_trans (Option.some.inj lt) (Option.some.inj lt'))
      | bool | int | float => cases lt'
    | bool | int | float => cases lt
  | int a | float a =>
    cases b with
    | bool | string => cases lt
    | int | float => exact numbers rfl rfl

theorem equal_self_iff (a : Value) : a.equal a = true ↔ ¬ a.IsNaN := by
  rw [equal, decide_eq_true_eq]
  refine ⟨?_, compare?_self⟩
  rintro same rfl
  cases same

/-- Of the three strict conditions, a document meets the one that names the order of the stored
value and the given one, if they have an order. -/
theorem countP_accepts (metadata : Metadata) (key : String) (value : Value) :
    ([Relation.lt, .eq, .gt].countP fun relation =>
        (Filter.leaf (.compare relation key value)).accepts metadata) =
      if ((metadata.get? key).bind fun stored => stored.compare? value).isSome then 1 else 0 := by
  simp only [Filter.accepts, Leaf.accepts, Relation.holds]
  cases (metadata.get? key).bind fun stored => stored.compare? value with
  | none => rfl
  | some order => cases order <;> rfl

/-- The order of values is a strict partial order that swapping reverses, with integers and floats
anywhere in a chain. A value has an order with every comparable one, and equals itself unless it is
not a number. So of the conditions `lt`, `eq` and `gt` with one value at most one is met, and one is
exactly when the stored value is there and comparable. -/
theorem strict_partial_order :
    (∀ a b : Value, b.compare? a = (a.compare? b).map Ordering.swap) ∧
      (∀ a b c : Value, a.compare? b = some .lt → b.compare? c = some .lt →
        a.compare? c = some .lt) ∧
      (∀ a b : Value, a.compare? b = none ↔ ¬ a.Comparable b) ∧
      (∀ a : Value, a.equal a = true ↔ ¬ a.IsNaN) ∧
      ∀ (metadata : Metadata) (key : String) (value : Value),
        let met := [Relation.lt, .eq, .gt].countP fun relation =>
          (Filter.leaf (.compare relation key value)).accepts metadata
        met ≤ 1 ∧
          (met = 1 ↔ ∃ stored, metadata.get? key = some stored ∧ stored.Comparable value) := by
  refine ⟨compare?_swap, fun a b c => compare?_trans, compare?_eq_none_iff, equal_self_iff, ?_⟩
  intro metadata key value met
  have counted : met = _ := countP_accepts metadata key value
  have ordered : ((metadata.get? key).bind fun stored => stored.compare? value).isSome ↔
      ∃ stored, metadata.get? key = some stored ∧ stored.Comparable value := by
    cases metadata.get? key with
    | none => simp
    | some stored =>
      rw [Option.bind_some, ← Option.ne_none_iff_isSome, ne_eq, compare?_eq_none_iff, not_not]
      simp
  rw [counted, ← ordered]
  split
  case isTrue there => simp [there]
  case isFalse missing => simp [missing]

/-- Two integers beyond 2^53 with one float keep their order, and so does the float above them. -/
theorem strict_partial_order_beyond_floats :
    (int 9007199254740992).compare? (int 9007199254740993) = some .lt ∧
      (int 9007199254740993).compare? (float (.ofBits 0x4340000000000001)) = some .lt ∧
      (int 9007199254740992).compare? (float (.ofBits 0x4340000000000001)) = some .lt := by
  have first : (int 9007199254740992).compare? (int 9007199254740993) = some .lt := by
    decide +kernel
  have second : (int 9007199254740993).compare? (float (.ofBits 0x4340000000000001)) = some .lt := by
    decide +kernel
  exact ⟨first, second, strict_partial_order.2.1 _ _ _ first second⟩

end Value

end FilterQuery
