/-!
Finite maps from text to values, held as entries in strictly ascending order of their keys, by code
point. A map has one entry for each key, so it is determined by its look-ups, and writing a key
replaces what was written for it before.
-/
namespace FilterQuery

/-- A finite map with textual keys. -/
structure SortedMap (α : Type) where
  entries : List (String × α)
  ascending : entries.Pairwise fun a b => a.1 < b.1

namespace SortedMap

variable {α : Type}

def empty : SortedMap α := ⟨[], .nil⟩

/-- The entries with one written, those before it and those after it unchanged. -/
def insertEntry (key : String) (value : α) : List (String × α) → List (String × α)
  | [] => [(key, value)]
  | (k, v) :: rest =>
    if key < k then (key, value) :: (k, v) :: rest
    else if key = k then (key, value) :: rest
    else (k, v) :: insertEntry key value rest

theorem mem_insertEntry {key : String} {value : α} {entries : List (String × α)}
    {entry : String × α} (h : entry ∈ insertEntry key value entries) :
    entry = (key, value) ∨ entry ∈ entries := by
  fun_induction insertEntry key value entries <;> simp_all <;> grind

theorem ascending_insertEntry (key : String) (value : α) {entries : List (String × α)}
    (ascending : entries.Pairwise fun a b => a.1 < b.1) :
    (insertEntry key value entries).Pairwise fun a b => a.1 < b.1 := by
  fun_induction insertEntry key value entries with
  | case1 => exact List.pairwise_singleton ..
  | case2 k v rest before =>
    refine List.pairwise_cons.2 ⟨?_, ascending⟩
    intro entry found
    rcases List.mem_cons.1 found with rfl | found
    · exact before
    · exact String.lt_trans before ((List.pairwise_cons.1 ascending).1 entry found)
  | case3 v rest _ => exact List.pairwise_cons.2 (List.pairwise_cons.1 ascending)
  | case4 k v rest notBefore different ih =>
    obtain ⟨head, tail⟩ := List.pairwise_cons.1 ascending
    refine List.pairwise_cons.2 ⟨?_, ih tail⟩
    intro entry found
    rcases mem_insertEntry found with rfl | found
    · have order : k ≤ key := String.not_lt.1 notBefore
      refine Decidable.byContradiction fun notAfter => different ?_
      exact String.le_antisymm (String.not_lt.1 notAfter) order
    · exact head entry found

/-- The map with one key written; what was there for the key is replaced. -/
def insert (map : SortedMap α) (key : String) (value : α) : SortedMap α :=
  ⟨insertEntry key value map.entries, ascending_insertEntry key value map.ascending⟩

/-- Writes an entry as `insertEntry` does, and tells what was there for the key. -/
def replaceEntry (key : String) (value : α) :
    List (String × α) → Option α × List (String × α)
  | [] => (none, [(key, value)])
  | (k, v) :: rest =>
    if key < k then (none, (key, value) :: (k, v) :: rest)
    else if key = k then (some v, (key, value) :: rest)
    else
      let (previous, rest) := replaceEntry key value rest
      (previous, (k, v) :: rest)

theorem replaceEntry_snd (key : String) (value : α) (entries : List (String × α)) :
    (replaceEntry key value entries).2 = insertEntry key value entries := by
  fun_induction insertEntry key value entries with
  | case1 => rfl
  | case2 k v rest before => rw [replaceEntry, if_pos before]
  | case3 v rest notBefore => rw [replaceEntry, if_neg notBefore, if_pos rfl]
  | case4 k v rest notBefore different ih =>
    rw [replaceEntry, if_neg notBefore, if_neg different, ← ih]

/-- What was there for a key, and the map with the key written. -/
def replace (map : SortedMap α) (key : String) (value : α) : Option α × SortedMap α :=
  let written := replaceEntry key value map.entries
  (written.1, ⟨written.2,
    replaceEntry_snd key value map.entries ▸ ascending_insertEntry key value map.ascending⟩)

/-- What is written for a key. -/
def get? (map : SortedMap α) (key : String) : Option α :=
  (map.entries.find? fun entry => entry.1 = key).map (·.2)

@[simp] theorem get?_empty (key : String) : (empty : SortedMap α).get? key = none := rfl

theorem find?_insertEntry (key key' : String) (value : α) (entries : List (String × α)) :
    ((insertEntry key value entries).find? fun entry => entry.1 = key').map (·.2) =
      if key = key' then some value
      else (entries.find? fun entry => entry.1 = key').map (·.2) := by
  fun_induction insertEntry key value entries with
  | case1 => by_cases same : key = key' <;> simp [same]
  | case2 k v rest before => by_cases same : key = key' <;> simp [same]
  | case3 v rest _ => by_cases same : key = key' <;> simp [same]
  | case4 k v rest _ different ih =>
    by_cases here : k = key'
    · simp [here, here ▸ different]
    · simp [here, ih]

/-- After a write, the key has what was written, and any other key what it had before. -/
theorem get?_insert (map : SortedMap α) (key key' : String) (value : α) :
    (map.insert key value).get? key' = if key = key' then some value else map.get? key' :=
  find?_insertEntry key key' value map.entries

def contains (map : SortedMap α) (key : String) : Bool := (map.get? key).isSome

def size (map : SortedMap α) : Nat := map.entries.length

def isEmpty (map : SortedMap α) : Bool := map.entries.isEmpty

/-- The map that arises by writing the pairs one after the other. -/
def ofList (pairs : List (String × α)) : SortedMap α :=
  pairs.foldl (fun map pair => map.insert pair.1 pair.2) empty

/-- Of neighbours with one key, only the last one. -/
def lastOfEach : List (String × α) → List (String × α)
  | [] => []
  | [entry] => [entry]
  | entry :: next :: rest =>
    if entry.1 = next.1 then lastOfEach (next :: rest) else entry :: lastOfEach (next :: rest)

theorem mem_lastOfEach {entries : List (String × α)} {entry : String × α}
    (h : entry ∈ lastOfEach entries) : entry ∈ entries := by
  fun_induction lastOfEach entries <;> grind

theorem ascending_lastOfEach {entries : List (String × α)}
    (sorted : entries.Pairwise fun a b => a.1 ≤ b.1) :
    (lastOfEach entries).Pairwise fun a b => a.1 < b.1 := by
  fun_induction lastOfEach entries with
  | case1 => exact .nil
  | case2 => exact List.pairwise_singleton ..
  | case3 entry next rest same ih => exact ih (List.pairwise_cons.1 sorted).2
  | case4 entry next rest differ ih =>
    obtain ⟨first, others⟩ := List.pairwise_cons.1 sorted
    refine List.pairwise_cons.2 ⟨?_, ih others⟩
    intro later found
    have above : next.1 ≤ later.1 := by
      rcases List.mem_cons.1 (mem_lastOfEach found) with rfl | found
      · exact String.le_refl _
      · exact (List.pairwise_cons.1 others).1 later found
    refine String.not_le.1 fun below => differ ?_
    exact String.le_antisymm (first next List.mem_cons_self) (String.le_trans above below)

/-- The key of the first pair does not come after that of the second. -/
def keyLe (a b : String × α) : Bool := a.1 ≤ b.1

theorem keyLe_trans (a b c : String × α) (h : keyLe a b = true) (h' : keyLe b c = true) :
    keyLe a c = true :=
  decide_eq_true (String.le_trans (of_decide_eq_true h) (of_decide_eq_true h'))

theorem keyLe_total (a b : String × α) : (keyLe a b || keyLe b a) = true := by
  simpa [keyLe] using String.le_total a.1 b.1

/-- The pairs in the order of their keys; those with one key stay in order. -/
def sortByKey (pairs : List (String × α)) : List (String × α) := pairs.mergeSort keyLe

theorem sorted_sortByKey (pairs : List (String × α)) :
    (sortByKey pairs).Pairwise fun a b => a.1 ≤ b.1 :=
  (List.pairwise_mergeSort keyLe_trans keyLe_total pairs).imp of_decide_eq_true

/-- The map of a list of pairs, built at once: of the pairs with one key the last one is kept. -/
def collect (pairs : List (String × α)) : SortedMap α :=
  ⟨lastOfEach (sortByKey pairs), ascending_lastOfEach (sorted_sortByKey pairs)⟩

/-- The two maps have the same keys, with related values. -/
def agrees (related : α → α → Bool) (a b : SortedMap α) : Bool :=
  a.size = b.size && (a.entries.zip b.entries).all fun (x, y) => x.1 = y.1 && related x.2 y.2

theorem ext_entries {a b : SortedMap α} (h : a.entries = b.entries) : a = b := by
  cases a; cases b; simp_all

instance [DecidableEq α] : DecidableEq (SortedMap α) := fun a b =>
  decidable_of_iff (a.entries = b.entries) ⟨ext_entries, fun h => h ▸ rfl⟩

end SortedMap

end FilterQuery
