import FilterQuery.Text.Blank
import Mathlib.Data.List.DropRight

/-!
Trimming. A text is white space, its trimmed text and white space, and this is the only way to take
it apart into white space around a word with none at its ends (`trim_eq_iff`).
-/
namespace FilterQuery.Text

variable {text word before after : List Char}

/-- There is nothing but white space in the text. -/
def Blank (text : List Char) : Prop := ∀ c ∈ text, isBlank c = true

/-- The text neither starts nor ends with white space. -/
structure Trimmed (text : List Char) : Prop where
  starts : ∀ c ∈ text.head?, isBlank c = false
  ends : ∀ c ∈ text.getLast?, isBlank c = false

/-- The text is the word with white space around it, possibly none. -/
inductive Surrounds (word : List Char) : List Char → Prop
  | mk {before after : List Char} : Blank before → Blank after →
      Surrounds word (before ++ word ++ after)

theorem Surrounds.subset (surrounds : Surrounds word text) : word ⊆ text := by
  obtain ⟨_, _⟩ := surrounds
  intro c member
  exact List.mem_append_left _ (List.mem_append_right _ member)

theorem trim_eq (text : List Char) : trim text = (text.dropWhile isBlank).rdropWhile isBlank := rfl

theorem trimmed_trim (text : List Char) : Trimmed (trim text) := by
  constructor
  · intro c first
    -- The first character is the one that trimming at the start has stopped at.
    obtain ⟨rest, whole⟩ := List.rdropWhile_prefix isBlank (text.dropWhile isBlank)
    obtain ⟨tail, split⟩ := List.head?_eq_some_iff.mp first
    rw [← trim_eq, split, List.cons_append] at whole
    have visible := List.head?_dropWhile_not isBlank text
    rw [← whole] at visible
    simpa using visible
  · intro c last
    have some : (text.dropWhile isBlank).rdropWhile isBlank ≠ [] := by
      intro none
      rw [trim_eq, none] at last
      cases last
    rw [trim_eq, List.getLast?_eq_some_getLast some, Option.mem_some] at last
    rw [← last]
    exact Bool.eq_false_iff.mpr (List.rdropWhile_last_not _ _ some)

theorem Trimmed.trim_eq (trimmed : Trimmed text) : trim text = text := by
  have started : text.dropWhile isBlank = text := by
    cases text with
    | nil => rfl
    | cons c text => exact List.dropWhile_cons_of_neg (by simpa using trimmed.starts c rfl)
  rw [Text.trim_eq, started, List.rdropWhile_eq_self_iff]
  intro some blank
  have visible := trimmed.ends _ (List.getLast?_eq_some_getLast some)
  exact Bool.false_ne_true (visible.symm.trans blank)

/-- White space around a text does not count. -/
theorem trim_append (blank : Blank before) (blankAfter : Blank after) (text : List Char) :
    trim (before ++ text ++ after) = trim text := by
  have ends (rest : List Char) : (rest ++ after).rdropWhile isBlank = rest.rdropWhile isBlank := by
    rw [List.rdropWhile, List.reverse_append, List.dropWhile_append_of_pos, List.rdropWhile]
    exact fun c member => blankAfter c (List.mem_reverse.mp member)
  rw [trim_eq, List.append_assoc, List.dropWhile_append_of_pos blank, List.dropWhile_append,
    trim_eq]
  split
  case isTrue empty =>
    rw [List.isEmpty_iff.mp empty, List.dropWhile_eq_nil_iff.mpr blankAfter]
  case isFalse => exact ends _

/-- A text is its trimmed text with white space around it. -/
theorem surrounds_trim (text : List Char) : Surrounds (trim text) text := by
  have blank : Blank (text.takeWhile isBlank) := fun c member => List.mem_takeWhile_imp member
  have blankAfter : Blank ((text.dropWhile isBlank).rtakeWhile isBlank) :=
    fun c member => List.mem_rtakeWhile_imp member
  have whole : text.takeWhile isBlank ++ trim text ++
      (text.dropWhile isBlank).rtakeWhile isBlank = text := by
    rw [trim_eq, List.append_assoc, List.rdropWhile_append_rtakeWhile,
      List.takeWhile_append_dropWhile]
  have surrounds := @Surrounds.mk (trim text) _ _ blank blankAfter
  rwa [whole] at surrounds

theorem trim_eq_iff : trim text = word ↔ Trimmed word ∧ Surrounds word text := by
  constructor
  · rintro rfl
    exact ⟨trimmed_trim text, surrounds_trim text⟩
  · rintro ⟨trimmed, blank, blankAfter⟩
    rw [trim_append blank blankAfter, trimmed.trim_eq]

theorem trim_eq_nil : trim text = [] ↔ Blank text := by
  rw [trim_eq_iff]
  constructor
  · rintro ⟨_, blank, blankAfter⟩
    intro c member
    rw [List.append_nil] at member
    exact (List.mem_append.mp member).elim (blank c) (blankAfter c)
  · intro blank
    refine ⟨⟨nofun, nofun⟩, ?_⟩
    have surrounds := @Surrounds.mk [] _ _ blank (List.forall_mem_nil _)
    rwa [List.append_nil, List.append_nil] at surrounds

end FilterQuery.Text
