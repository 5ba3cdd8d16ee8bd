import FilterQuery.SortedMap
import Mathlib.Data.List.Dedup
import Mathlib.Data.List.Forall2
import Mathlib.Data.List.Sort

/-!
What sorted maps hold. A map is its look-ups (`SortedMap.ext_get?`), and after pairs are written one
after the other, a key has the value of the last pair with it (`SortedMap.get?_insertAll`). A list
of pairs that is sorted first comes to the same map as its pairs one by one
(`SortedMap.collect_eq`).
-/
namespace FilterQuery

/-- Lists that ascend strictly by the keys of their items are equal if they have the same items. -/
theorem eq_of_ascending {β : Type} (key : β → String) {a b : List β}
    (ascending : a.Pairwise fun x y => key x < key y)
    (ascending' : b.Pairwise fun x y => key x < key y) (same : ∀ item, item ∈ a ↔ item ∈ b) :
    a = b := by
  have distinct {items : List β} (ascending : items.Pairwise fun x y => key x < key y) :
      items.Nodup := by
    refine ascending.imp ?_
    rintro x _ before rfl
    exact String.lt_irrefl _ before
  have perm : a.Perm b :=
    (List.perm_ext_iff_of_nodup (distinct ascending) (distinct ascending')).mpr same
  refine perm.eq_of_pairwise ?_ ascending ascending'
  intro x y _ _ before after
  exact absurd (String.lt_trans before after) (String.lt_irrefl _)

namespace SortedMap

variable {α : Type}

/-- The map with the pairs written into it, one after the other. -/
def insertAll (map : SortedMap α) (pairs : List (String × α)) : SortedMap α :=
  pairs.foldl (fun map pair => map.insert pair.1 pair.2) map

theorem ofList_eq (pairs : List (String × α)) : ofList pairs = empty.insertAll pairs := rfl

theorem get?_insertAll (map : SortedMap α) (pairs : List (String × α)) (key : String) :
    (map.insertAll pairs).get? key = (pairs.reverse.lookup key).or (map.get? key) := by
  induction pairs generalizing map with
  | nil => rfl
  | cons pair pairs ih =>
    obtain ⟨name, value⟩ := pair
    change ((map.insert name value).insertAll pairs).get? key = _
    rw [ih, get?_insert, List.reverse_cons, List.lookup_append, Option.or_assoc]
    congr 1
    by_cases same : name = key
    · rw [if_pos same, same, List.lookup_cons_self, Option.some_or]
    · have other : (key == name) = false := by
        simpa using Ne.symm same
      rw [if_neg same, List.lookup_cons, other]
      rfl

theorem get?_ofList (pairs : List (String × α)) (key : String) :
    (ofList pairs).get? key = pairs.reverse.lookup key := by
  rw [ofList_eq, get?_insertAll, get?_empty, Option.or_none]

theorem ofList_concat (pairs : List (String × α)) (key : String) (value : α) :
    ofList (pairs ++ [(key, value)]) = (ofList pairs).insert key value := by
  rw [ofList, List.foldl_append]
  rfl

theorem get?_eq_some {map : SortedMap α} {key : String} {value : α} :
    map.get? key = some value ↔ (key, value) ∈ map.entries := by
  obtain ⟨entries, ascending⟩ := map
  unfold get?
  dsimp only
  induction entries with
  | nil => simp
  | cons entry entries ih =>
    obtain ⟨before, ascending⟩ := List.pairwise_cons.mp ascending
    have ih := ih ascending
    by_cases same : entry.1 = key
    · have absent : (key, value) ∉ entries := by
        intro member
        have later := before _ member
        rw [same] at later
        exact absurd later (String.lt_irrefl key)
      rw [List.find?_cons_of_pos (by simpa using same), List.mem_cons, or_iff_left absent]
      simp [Prod.ext_iff, same, eq_comm]
    · have other : (key, value) ≠ entry := by
        rintro rfl
        exact same rfl
      rw [List.find?_cons_of_neg (by simpa using same), ih, List.mem_cons, or_iff_right other]

/-- The keys with an entry are those with a value. -/
theorem mem_keys {map : SortedMap α} {key : String} :
    key ∈ map.entries.map Prod.fst ↔ ∃ value, map.get? key = some value := by
  simp [get?_eq_some]

theorem ascending_keys (map : SortedMap α) : (map.entries.map Prod.fst).Pairwise (· < ·) :=
  List.pairwise_map.mpr map.ascending

theorem nodup_keys (map : SortedMap α) : (map.entries.map Prod.fst).Nodup := by
  refine map.ascending_keys.imp ?_
  rintro x _ before rfl
  exact String.lt_irrefl x before

/-- The keys of a map of pairs are the keys of the pairs. -/
theorem mem_keys_ofList {pairs : List (String × α)} {key : String} :
    key ∈ (ofList pairs).entries.map (·.1) ↔ key ∈ pairs.map (·.1) := by
  rw [mem_keys, get?_ofList, ← Option.isSome_iff_exists]
  simp [List.lookup_isSome_iff]

/-- Two maps with the same look-ups are the same map. -/
theorem ext_get? {a b : SortedMap α} (same : ∀ key, a.get? key = b.get? key) : a = b := by
  refine ext_entries (eq_of_ascending Prod.fst a.ascending b.ascending ?_)
  rintro ⟨key, value⟩
  rw [← get?_eq_some, ← get?_eq_some, same]

/-- The value is the last one that is written for the key. -/
def LastWritten (writes : List (String × α)) (key : String) (value : α) : Prop :=
  ∃ before after, writes = before ++ (key, value) :: after ∧ key ∉ after.map Prod.fst

theorem get?_ofList_eq_some {writes : List (String × α)} {key : String} {value : α} :
    (ofList writes).get? key = some value ↔ LastWritten writes key value := by
  rw [get?_ofList, List.lookup_eq_some_iff]
  constructor
  · rintro ⟨after, before, split, others⟩
    refine ⟨before.reverse, after.reverse, ?_, ?_⟩
    · rw [← List.reverse_reverse writes, split]
      simp
    · rw [List.map_reverse, List.mem_reverse]
      intro later
      obtain ⟨pair, member, same⟩ := List.mem_map.mp later
      simpa [same] using others pair member
  · rintro ⟨before, after, rfl, last⟩
    refine ⟨after.reverse, before.reverse, by simp, ?_⟩
    intro pair member
    have other : key ≠ pair.1 := by
      rintro rfl
      exact last (List.mem_map_of_mem (List.mem_reverse.mp member))
    simpa using other

theorem get?_ofList_eq_none {writes : List (String × α)} {key : String} :
    (ofList writes).get? key = none ↔ key ∉ writes.map Prod.fst := by
  rw [← mem_keys_ofList, mem_keys, ← Option.isSome_iff_exists, Option.not_isSome_iff_eq_none]

/-- A map is what its own entries come to. -/
theorem ofList_entries (map : SortedMap α) : ofList map.entries = map := by
  refine ext_get? fun key => Option.ext fun value => ?_
  rw [get?_ofList_eq_some, get?_eq_some]
  constructor
  · rintro ⟨before, after, split, _⟩
    simp [split]
  · intro member
    obtain ⟨before, after, split⟩ := List.append_of_mem member
    have distinct := map.nodup_keys
    rw [split, List.map_append, List.map_cons] at distinct
    exact ⟨before, after, split, (List.nodup_cons.mp distinct.of_append_right).1⟩

/-- Entries that are related one by one answer every look-up with related values, or none. -/
theorem rel_get?_of_forall₂ {R : α → α → Prop} {a b : SortedMap α}
    (related : List.Forall₂ (fun x y => x.1 = y.1 ∧ R x.2 y.2) a.entries b.entries) (key : String) :
    Option.Rel R (a.get? key) (b.get? key) := by
  unfold get?
  generalize a.entries = xs, b.entries = ys at related
  induction related with
  | nil => exact .none
  | @cons x y _ _ first _ ih =>
    obtain ⟨sameKey, values⟩ := first
    by_cases here : x.1 = key
    · simpa [here, ← sameKey] using Option.Rel.some values
    · simpa [here, ← sameKey] using ih

/-- Two maps with values for the same keys list their keys alike. -/
theorem keys_eq_of_rel_get? {R : α → α → Prop} {a b : SortedMap α}
    (lookups : ∀ key, Option.Rel R (a.get? key) (b.get? key)) :
    a.entries.map Prod.fst = b.entries.map Prod.fst := by
  refine eq_of_ascending id a.ascending_keys b.ascending_keys fun key => ?_
  rw [mem_keys, mem_keys]
  have lookup := lookups key
  generalize a.get? key = found, b.get? key = found' at lookup
  cases lookup <;> simp

/-- Maps agree if they hold related values, or none, under every key. -/
theorem agrees_eq_true {related : α → α → Bool} {a b : SortedMap α} :
    a.agrees related b = true ↔
      ∀ key, Option.Rel (fun x y => related x y = true) (a.get? key) (b.get? key) := by
  have entrywise : a.agrees related b = true ↔
      List.Forall₂ (fun x y => x.1 = y.1 ∧ related x.2 y.2 = true) a.entries b.entries := by
    rw [agrees, Bool.and_eq_true, decide_eq_true_eq, List.forall₂_iff_zip]
    simp [size]
  rw [entrywise]
  constructor
  · exact rel_get?_of_forall₂ (R := fun x y => related x y = true)
  · intro lookups
    have keys := keys_eq_of_rel_get? lookups
    rw [← List.forall₂_eq_eq_eq, List.forall₂_map_left_iff, List.forall₂_map_right_iff,
      List.forall₂_iff_zip] at keys
    rw [List.forall₂_iff_zip]
    refine ⟨keys.1, ?_⟩
    rintro ⟨key, x⟩ ⟨key', y⟩ zipped
    obtain rfl : key = key' := keys.2 zipped
    have foundX := get?_eq_some.mpr (List.of_mem_zip zipped).1
    have foundY := get?_eq_some.mpr (List.of_mem_zip zipped).2
    have lookup := lookups key
    rw [foundX, foundY] at lookup
    cases lookup with
    | some holds => exact ⟨rfl, holds⟩

/-- A map has as many entries as there are keys among the writes. -/
theorem size_ofList (writes : List (String × α)) :
    (ofList writes).size = (writes.map Prod.fst).dedup.length := by
  have perm : ((ofList writes).entries.map Prod.fst).Perm (writes.map Prod.fst).dedup := by
    rw [List.perm_ext_iff_of_nodup (nodup_keys _) (List.nodup_dedup _)]
    intro key
    rw [mem_keys_ofList, List.mem_dedup]
  rw [← perm.length_eq, List.length_map, size]

theorem replace_snd (map : SortedMap α) (key : String) (value : α) :
    (map.replace key value).2 = map.insert key value :=
  ext_entries (replaceEntry_snd key value map.entries)

/-- The answer of a write is what was there for the key. -/
theorem replace_fst (map : SortedMap α) (key : String) (value : α) :
    (map.replace key value).1 = map.get? key := by
  obtain ⟨entries, ascending⟩ := map
  change (replaceEntry key value entries).1 =
    (entries.find? fun entry => entry.1 = key).map (·.2)
  fun_induction replaceEntry key value entries with
  | case1 => rfl
  | case2 k v rest before =>
    -- The keys ascend, so no entry has a key that comes before the first one.
    have absent : (((k, v) :: rest).find? fun entry => entry.1 = key) = none := by
      rw [List.find?_eq_none]
      intro entry member same
      rw [decide_eq_true_eq] at same
      rcases List.mem_cons.mp member with rfl | later
      · exact String.lt_irrefl _ (same ▸ before)
      · have above := (List.pairwise_cons.mp ascending).1 entry later
        exact String.lt_irrefl _ (String.lt_trans before (same ▸ above))
    rw [absent]
    rfl
  | case3 => simp
  | case4 k v rest notBefore different previous rest' written ih =>
    have ih := ih (List.pairwise_cons.mp ascending).2
    rw [written] at ih
    rw [List.find?_cons_of_neg (by simpa using Ne.symm different), ← ih]

theorem lookup_eq_find? (pairs : List (String × α)) (key : String) :
    pairs.lookup key = (pairs.find? fun entry => entry.1 = key).map (·.2) := by
  induction pairs with
  | nil => rfl
  | cons pair pairs ih =>
    obtain ⟨name, value⟩ := pair
    by_cases same : name = key
    · simp [same]
    · have other : (key == name) = false := by simpa using Ne.symm same
      simp [List.lookup_cons, same, other, ih]

/-- Sorting keeps the order of the pairs with one key. -/
theorem filter_sortByKey (pairs : List (String × α)) (key : String) :
    ((sortByKey pairs).filter fun entry => entry.1 = key) =
      pairs.filter fun entry => entry.1 = key := by
  have alike : (pairs.filter fun entry => entry.1 = key).Pairwise
      fun a b => keyLe a b = true := by
    refine List.pairwise_of_forall_mem_list ?_
    intro a isA b isB
    have sameA := (List.mem_filter.mp isA).2
    have sameB := (List.mem_filter.mp isB).2
    simp_all [keyLe]
  have kept := List.sublist_mergeSort keyLe_trans keyLe_total alike List.filter_sublist
  have within := kept.filter fun entry => decide (entry.1 = key)
  rw [List.filter_filter] at within
  simp only [Bool.and_self] at within
  exact (within.eq_of_length ((List.mergeSort_perm pairs keyLe).filter _).length_eq.symm).symm

theorem find?_lastOfEach {entries : List (String × α)}
    (sorted : entries.Pairwise fun a b => a.1 ≤ b.1) (key : String) :
    ((lastOfEach entries).find? fun entry => entry.1 = key) =
      entries.reverse.find? fun entry => entry.1 = key := by
  fun_induction lastOfEach entries with
  | case1 => rfl
  | case2 => rfl
  | case3 entry next rest same ih =>
    rw [ih (List.pairwise_cons.mp sorted).2, List.reverse_cons (a := entry), List.find?_append]
    by_cases here : entry.1 = key
    · have found : ((next :: rest).reverse.find? fun entry => entry.1 = key).isSome := by
        rw [List.find?_isSome]
        exact ⟨next, by simp, by simp [← same, here]⟩
      obtain ⟨last, found⟩ := Option.isSome_iff_exists.mp found
      rw [found, Option.some_or]
    · simp [here]
  | case4 entry next rest differ ih =>
    have ascending := ascending_lastOfEach sorted
    rw [lastOfEach, if_neg differ] at ascending
    rw [List.reverse_cons (a := entry), List.find?_append, ← ih (List.pairwise_cons.mp sorted).2]
    by_cases here : entry.1 = key
    · have absent : ((lastOfEach (next :: rest)).find? fun entry => entry.1 = key) = none := by
        rw [List.find?_eq_none]
        intro later member same
        have above := (List.pairwise_cons.mp ascending).1 later member
        rw [here, of_decide_eq_true same] at above
        exact String.lt_irrefl key above
      simp [here, absent]
    · simp [here]

/-- The pairs sorted first, with the last of each key kept, make the same map as all of them one
after the other. -/
theorem collect_eq (pairs : List (String × α)) : collect pairs = ofList pairs := by
  refine ext_get? fun key => ?_
  rw [get?_ofList, lookup_eq_find?, get?]
  change ((lastOfEach (sortByKey pairs)).find? _).map _ = _
  rw [find?_lastOfEach (sorted_sortByKey pairs), ← List.head?_filter, List.filter_reverse,
    filter_sortByKey, ← List.filter_reverse, List.head?_filter]

end SortedMap

end FilterQuery
