import FilterQuery.Filter.Evaluation
import FilterQuery.Proofs.SortedMap
import FilterQuery.Proofs.Text.Encoding

/-!
The fields that a filter looks at. Its keys are the fields of its leaves, sorted and without
repetitions (`Filter.keys_eq`), and documents that agree on them are accepted alike
(`Filter.accepts_congr`). So writes to other fields, and the order of writes to different fields, do
not count (`keys_are_footprint`).
-/
namespace FilterQuery

/-- Of two equal neighbours one is left out. -/
theorem eraseReps_cons_cons (a b : String) (rest : List String) :
    (a :: b :: rest).eraseReps =
      if a = b then (a :: rest).eraseReps else a :: (b :: rest).eraseReps := by
  have gathered (before : List String) (a : String) :
      List.eraseRepsBy.loop (· == ·) a rest before =
        before.reverse ++ List.eraseRepsBy.loop (· == ·) a rest [] := by
    induction rest generalizing a before with
    | nil => simp [List.eraseRepsBy.loop]
    | cons b rest ih =>
      simp only [List.eraseRepsBy.loop]
      cases a == b with
      | true => exact ih before a
      | false =>
        dsimp only
        rw [ih (a :: before), ih [a], List.reverse_cons, List.append_assoc]
        rfl
  by_cases same : a = b
  · simp [List.eraseReps, List.eraseRepsBy, List.eraseRepsBy.loop, same]
  · have differ : (a == b) = false := by simpa using same
    rw [if_neg same]
    simp only [List.eraseReps, List.eraseRepsBy, List.eraseRepsBy.loop, differ]
    exact gathered [a] b

theorem mem_eraseReps {first item : String} {rest : List String} :
    item ∈ (first :: rest).eraseReps ↔ item ∈ first :: rest := by
  induction rest generalizing first with
  | nil => rfl
  | cons second rest ih =>
    rw [eraseReps_cons_cons]
    by_cases same : first = second
    · rw [if_pos same, ih, same]
      simp
    · rw [if_neg same, List.mem_cons, ih, ← List.mem_cons]

/-- Without repetitions, ascending items are strictly ascending. -/
theorem pairwise_eraseReps {first : String} {rest : List String}
    (sorted : (first :: rest).Pairwise (· ≤ ·)) : (first :: rest).eraseReps.Pairwise (· < ·) := by
  induction rest generalizing first with
  | nil => exact List.pairwise_singleton ..
  | cons second rest ih =>
    obtain ⟨least, others⟩ := List.pairwise_cons.mp sorted
    rw [eraseReps_cons_cons]
    by_cases same : first = second
    · subst same
      rw [if_pos rfl]
      exact ih others
    · rw [if_neg same]
      refine List.pairwise_cons.mpr ⟨?_, ih others⟩
      intro item member
      have above : second ≤ item := by
        rcases List.mem_cons.mp (mem_eraseReps.mp member) with rfl | later
        · exact String.le_refl _
        · exact (List.pairwise_cons.mp others).1 item later
      refine String.not_le.mp fun below => same ?_
      exact String.le_antisymm (least second List.mem_cons_self) (String.le_trans above below)

/-- A leaf looks at nothing but its field. -/
theorem Leaf.accepts_congr {l : Leaf} {a b : Metadata} (same : a.get? l.key = b.get? l.key) :
    l.accepts a = l.accepts b := by
  cases l with
  | compare relation key value => exact congrArg (relation.holds · value) same
  | among membership key values => exact congrArg (membership.holds · values) same

namespace Filter

theorem mem_keys {filter : Filter} {key : String} :
    key ∈ filter.keys ↔ ∃ l ∈ filter.leaves, l.key = key := by
  rw [keys, SortedMap.mem_keys_ofList, List.map_map, List.mem_map]
  rfl

theorem ascending_keys (filter : Filter) : filter.keys.Pairwise (· < ·) := by
  rw [keys, List.pairwise_map]
  exact SortedMap.ascending _

/-- The keys are the fields of the leaves, sorted, and each once. -/
theorem keys_eq (filter : Filter) :
    filter.keys = ((filter.leaves.map Leaf.key).mergeSort (· ≤ ·)).eraseReps := by
  have sorted : ((filter.leaves.map Leaf.key).mergeSort (· ≤ ·)).Pairwise (· ≤ ·) := by
    have pairwise := @List.pairwise_mergeSort String (fun a b => decide (a ≤ b))
      (fun a b c le le' => decide_eq_true (String.le_trans (of_decide_eq_true le)
        (of_decide_eq_true le')))
      (fun a b => by simpa using String.le_total a b) (filter.leaves.map Leaf.key)
    simpa using pairwise
  have members (key : String) : key ∈ filter.keys ↔
      key ∈ (filter.leaves.map Leaf.key).mergeSort (· ≤ ·) := by
    rw [mem_keys, List.mem_mergeSort, List.mem_map]
  generalize (filter.leaves.map Leaf.key).mergeSort (· ≤ ·) = all at sorted members ⊢
  cases all with
  | nil =>
    refine List.eq_nil_iff_forall_not_mem.mpr fun key member => ?_
    exact List.not_mem_nil ((members key).mp member)
  | cons first rest =>
    refine eq_of_ascending id filter.ascending_keys (pairwise_eraseReps sorted) fun key => ?_
    rw [members, mem_eraseReps]

/-- A filter looks at nothing but its keys. -/
theorem accepts_congr {filter : Filter} {a b : Metadata}
    (same : ∀ key ∈ filter.keys, a.get? key = b.get? key) : filter.accepts a = filter.accepts b := by
  have sameLeaves : ∀ l ∈ filter.leaves, a.get? l.key = b.get? l.key :=
    fun l member => same l.key (mem_keys.mpr ⟨l, member, rfl⟩)
  clear same
  induction filter with
  | leaf l => exact Leaf.accepts_congr (sameLeaves l (List.mem_singleton_self l))
  | join connective left right ihLeft ihRight =>
    rw [accepts, ihLeft fun l inLeft => sameLeaves l (List.mem_append_left _ inLeft),
      ihRight fun l inRight => sameLeaves l (List.mem_append_right _ inRight), accepts]
  | not inner ih => rw [accepts, ih sameLeaves, accepts]

/-- Writes count only by what they leave in the keys of the filter. -/
theorem accepts_insertAll_congr {filter : Filter} (metadata : Metadata)
    {writes writes' : List (String × Value)}
    (same : ∀ key ∈ filter.keys, writes.reverse.lookup key = writes'.reverse.lookup key) :
    filter.accepts (metadata.insertAll writes) = filter.accepts (metadata.insertAll writes') := by
  refine accepts_congr fun key isKey => ?_
  rw [SortedMap.get?_insertAll, SortedMap.get?_insertAll, same key isKey]

end Filter

/-- The keys of a filter ascend in the order of their bytes, and they are the fields of its leaves,
sorted and each once. The filter accepts documents alike that hold the same under its keys. So other
writes do not count, and the order of writes counts only by which write to a key comes last. -/
theorem keys_are_footprint (filter : Filter) :
    filter.keys.Pairwise
        (fun a b => Text.Utf8.encode a.toList < Text.Utf8.encode b.toList) ∧
      filter.keys = ((filter.leaves.map Leaf.key).mergeSort (· ≤ ·)).eraseReps ∧
      (∀ key, key ∈ filter.keys ↔ ∃ l ∈ filter.leaves, l.key = key) ∧
      (∀ a b : Metadata, (∀ key ∈ filter.keys, a.get? key = b.get? key) →
        filter.accepts a = filter.accepts b) ∧
      (∀ (metadata : Metadata) (writes : List (String × Value)),
        (∀ write ∈ writes, write.1 ∉ filter.keys) →
          filter.accepts (metadata.insertAll writes) = filter.accepts metadata) ∧
      ∀ (metadata : Metadata) (writes writes' : List (String × Value)),
        (∀ key ∈ filter.keys, writes.reverse.lookup key = writes'.reverse.lookup key) →
          filter.accepts (metadata.insertAll writes) =
            filter.accepts (metadata.insertAll writes') := by
  refine ⟨?_, filter.keys_eq, fun key => Filter.mem_keys, fun a b => Filter.accepts_congr, ?_,
    fun metadata writes writes' => Filter.accepts_insertAll_congr metadata⟩
  · exact filter.ascending_keys.imp fun before => Text.Utf8.encode_lt_encode.mpr before
  · intro metadata writes outside
    refine @Filter.accepts_insertAll_congr filter metadata writes [] fun key isKey => ?_
    rw [List.reverse_nil, List.lookup_nil, List.lookup_eq_none_iff]
    intro write written
    have other : write.1 ≠ key := fun same =>
      outside write (List.mem_reverse.mp written) (same ▸ isKey)
    simpa using other.symm

/-- A key that stands in two leaves is listed once. Neither another field nor an earlier write to a
key changes the answer. -/
theorem keys_are_footprint_of_repeated :
    let filter : Filter := .and (.not (.eq "size" (.int 1)))
      (.or (.contains "color" (.string "e")) (.notIn "size" [.int 2]))
    let metadata : Metadata := SortedMap.ofList [("color", .string "red")]
    let wider : Metadata := SortedMap.ofList [("title", .int 1), ("color", .string "red")]
    let writes : List (String × Value) := [("size", .int 1), ("title", .int 1), ("size", .int 2)]
    filter.keys = ["color", "size"] ∧
      filter.accepts metadata = filter.accepts wider ∧
      filter.accepts (metadata.insertAll [("title", .int 1)]) = filter.accepts metadata ∧
      filter.accepts (metadata.insertAll writes) =
        filter.accepts (metadata.insertAll [("size", .int 2)]) := by
  intro filter metadata wider writes
  obtain ⟨_, _, _, alike, outside, lastWrite⟩ := keys_are_footprint filter
  have keys : filter.keys = ["color", "size"] := by decide +kernel
  have same : ∀ key ∈ filter.keys, metadata.get? key = wider.get? key := by decide +kernel
  have other : ∀ write ∈ [("title", Value.int 1)], write.1 ∉ filter.keys := by decide +kernel
  have last : ∀ key ∈ filter.keys,
      writes.reverse.lookup key = [("size", Value.int 2)].reverse.lookup key := by decide +kernel
  exact ⟨keys, alike metadata wider same, outside metadata _ other, lastWrite metadata _ _ last⟩

end FilterQuery
