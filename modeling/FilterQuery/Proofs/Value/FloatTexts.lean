import FilterQuery.Proofs.Number.Bits
import FilterQuery.Proofs.Number.Fewest
import FilterQuery.Proofs.Number.NearestEven
import FilterQuery.Proofs.Number.Positional
import FilterQuery.Proofs.Query.Unambiguous

/-!
The texts of floats in a query. A finite float is written as digits around a point, whose number is
rounded to the float and has as few significant digits as such a number can have. So the text tells
the float, to the bit, and as an end of an interval it also tells whether the end is excluded
(`Value.floats_written_exactly`).
-/
namespace FilterQuery

namespace Decimal

open Magnitude (NearestEven unitsPerOne)

variable {d : Decimal} {value value' : Magnitude}

/-- A decimal reads back as the magnitude that it is rounded to. -/
theorem readsBack_iff_nearestEven :
    d.ReadsBack value ↔ NearestEven value.units (d.toRat * unitsPerOne) := by
  rw [readsBack_iff, Magnitude.roundUnits_eq_iff d.denominator_pos, exactUnits_eq]

/-- The text is that of a number that is rounded to the magnitude, and of these numbers none has
fewer significant digits. -/
structure ShortestText (value : Magnitude) (q : ℚ) (text : List Char) : Prop where
  written : PositionalText q text
  rounded : NearestEven value.units (q * unitsPerOne)
  fewest : ∀ n q', HasDigits n q' → NearestEven value.units (q' * unitsPerOne) → HasDigits n q
  seventeen : HasDigits 17 q

theorem shortestText_positional (tie : Tie) (value : Magnitude) :
    ShortestText value (shortest tie value).toRat (shortest tie value).positional where
  written := positionalText_positional exponent_shortest_of_zero coefficient_shortest_mod
  rounded := readsBack_iff_nearestEven.mp (shortest_readsBack tie value)
  fewest := by
    rintro n q' ⟨d, few, rfl⟩ rounded
    exact hasDigits_shortest tie few (readsBack_iff_nearestEven.mpr rounded)
  seventeen := hasDigits_seventeen tie value

/-- A text is the shortest one of one magnitude only. -/
theorem ShortestText.value_inj {q q' : ℚ} {text : List Char} (first : ShortestText value q text)
    (second : ShortestText value' q' text) : value = value' := by
  obtain rfl := first.written.unique second.written
  exact Magnitude.ext_units (first.rounded.unique second.rounded)

end Decimal

namespace Binary64

theorem exists_shortestText (negative : Bool) (magnitude : Magnitude) :
    ∃ q text, (finite negative magnitude).queryText = String.ofList (signText negative ++ text) ∧
      Decimal.ShortestText magnitude q text :=
  ⟨_, _, rfl, Decimal.shortestText_positional .up magnitude⟩

/-- The texts of the other floats have no digit. -/
theorem any_isDigit_queryText (negative : Bool) (magnitude : Magnitude) :
    (finite negative magnitude).queryText.toList.any Char.isDigit = true := by
  obtain ⟨q, text, known, shortest⟩ := exists_shortestText negative magnitude
  obtain ⟨c, tail, rfl, digit⟩ := shortest.written.exists_cons
  rw [known, String.toList_ofList]
  refine List.any_eq_true.mpr ⟨c, ?_, digit⟩
  exact List.mem_append_right _ List.mem_cons_self

/-- No other float has the text of a finite one. -/
theorem queryText_eq_finite_iff {x : Binary64} {negative : Bool} {magnitude : Magnitude} :
    x.queryText = (finite negative magnitude).queryText ↔ x = finite negative magnitude := by
  refine ⟨fun same => ?_, congrArg queryText⟩
  have digit := any_isDigit_queryText negative magnitude
  rw [← same] at digit
  cases x with
  | nan => cases digit
  | infinite sign => cases sign <;> cases digit
  | finite sign size =>
    obtain ⟨q, text, known, shortest⟩ := exists_shortestText negative magnitude
    obtain ⟨q', text', known', shortest'⟩ := exists_shortestText sign size
    rw [known, known', String.ofList_inj] at same
    obtain ⟨rfl, rfl⟩ := shortest'.written.signText_append_inj shortest.written same
    rw [shortest'.value_inj shortest]

end Binary64

/-- The text of an end that is a float tells the float's text and whether the end is excluded. -/
theorem Bound.text_float_eq_iff {x y : Binary64} {exclusive exclusive' : Bool} :
    (Bound.value (.float x) exclusive).text = (Bound.value (.float y) exclusive').text ↔
      exclusive = exclusive' ∧ x.queryText = y.queryText := by
  constructor
  · intro same
    have plain (z : Binary64) : Query.Plain (Value.float z).queryText.toList :=
      Value.plain_queryText fun _ isString => by cases isString
    rw [← String.toList_inj, toList_text, toList_text] at same
    obtain ⟨exclusives, words, _⟩ := Query.exclusion_append_inj (plain x) (plain y)
      (c := ' ') (d := ' ') (x := []) (y := []) (by decide) (by decide) (by decide) (by decide)
      (congrArg (· ++ [' ']) same)
    exact ⟨exclusives, String.toList_inj.mp words⟩
  · rintro ⟨rfl, same⟩
    cases exclusive with
    | true => exact congrArg ("(" ++ ·) same
    | false => exact same

namespace Value

/-- A finite float is written as its sign and digits around a point, without an exponent. Their
number is rounded to the magnitude, no number with fewer significant digits is, and seventeen are
enough. Of all patterns of bits only those of the float give this text, also as an end of an
interval, where the text tells as well whether the end is excluded. -/
theorem floats_written_exactly (negative : Bool) (magnitude : Magnitude) :
    (∃ q text, (float (.finite negative magnitude)).queryText =
        String.ofList (signText negative ++ text) ∧ Decimal.ShortestText magnitude q text) ∧
    ∀ bits exclusive exclusive',
      (Bound.value (float (.ofBits bits)) exclusive).text =
          (Bound.value (float (.finite negative magnitude)) exclusive').text ↔
        exclusive = exclusive' ∧ bits = (Binary64.finite negative magnitude).toBits := by
  refine ⟨Binary64.exists_shortestText negative magnitude, fun bits exclusive exclusive' => ?_⟩
  rw [Bound.text_float_eq_iff, Binary64.queryText_eq_finite_iff, Binary64.ofBits_eq_finite_iff]

/-- 2^53, which has its lower neighbour at half the distance of the upper one, a tenth, and the
negative zero. -/
example : (float (.ofBits 0x4340000000000000)).queryText = "9007199254740992" ∧
    (float (.ofBits 0x3FB999999999999A)).queryText = "0.1" ∧
    (float (.ofBits 0x8000000000000000)).queryText = "-0" := by
  decide +kernel

end Value

end FilterQuery
