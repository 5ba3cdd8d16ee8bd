import FilterQuery.Json.Reader
import Mathlib.Data.List.Forall2

/-!
Steps over a list that may fail. A loop succeeds exactly if each of its steps does, and otherwise it
fails like the first step that does.
-/
namespace FilterQuery

open Json (bind_eq_ok)

section

variable {α β ε : Type} {R : α → β → Prop} {xs : List α} {ys : List β}

theorem exists_forall₂ (each : ∀ x ∈ xs, ∃ y, R x y) : ∃ ys, List.Forall₂ R xs ys := by
  induction xs with
  | nil => exact ⟨[], .nil⟩
  | cons x xs ih =>
    obtain ⟨y, first⟩ := each x List.mem_cons_self
    obtain ⟨ys, rest⟩ := ih fun x member => each x (List.mem_cons_of_mem _ member)
    exact ⟨y :: ys, .cons first rest⟩

theorem exists_of_forall₂ (related : List.Forall₂ R xs ys) {x : α} (member : x ∈ xs) :
    ∃ y ∈ ys, R x y := by
  induction related with
  | nil => contradiction
  | @cons x' y xs ys first _ ih =>
    rcases List.mem_cons.mp member with rfl | later
    · exact ⟨y, List.mem_cons_self, first⟩
    · obtain ⟨y', member', holds⟩ := ih later
      exact ⟨y', List.mem_cons_of_mem _ member', holds⟩

theorem mapM_eq_ok {f : α → Except ε β} :
    xs.mapM f = .ok ys ↔ List.Forall₂ (fun x y => f x = .ok y) xs ys := by
  induction xs generalizing ys with
  | nil =>
    rw [List.mapM_nil, List.forall₂_nil_left_iff, eq_comm]
    exact ⟨fun same => Except.ok.inj same, fun same => congrArg _ same⟩
  | cons x xs ih =>
    simp only [List.mapM_cons, bind_eq_ok, List.forall₂_cons_left_iff, ih]
    constructor
    · rintro ⟨y, first, rest, others, same⟩
      exact ⟨y, rest, first, others, (Except.ok.inj same).symm⟩
    · rintro ⟨y, rest, first, others, rfl⟩
      exact ⟨y, first, rest, others, rfl⟩

end

section

variable {ε α : Type} {check : α → Except ε Unit}

theorem forM_cons {item : α} {items : List α} :
    (item :: items).forM check = (do check item; items.forM check) :=
  rfl

/-- A sequence of checks succeeds exactly if each of them does. -/
theorem forM_eq_ok {items : List α} :
    items.forM check = .ok () ↔ ∀ item ∈ items, check item = .ok () := by
  induction items with
  | nil => simp [pure, Except.pure]
  | cons item items ih =>
    rw [forM_cons, List.forall_mem_cons, ← ih]
    cases check item <;> simp [bind, Except.bind]

/-- A sequence of checks fails with the first error that one of them gives. -/
theorem forM_eq_error {items : List α} {error : ε} :
    items.forM check = .error error ↔
      ∃ before item after, items = before ++ item :: after ∧
        (∀ other ∈ before, check other = .ok ()) ∧ check item = .error error := by
  induction items with
  | nil => simp [pure, Except.pure]
  | cons first items ih =>
    rw [forM_cons]
    cases checked : check first with
    | error failure =>
      constructor
      · intro same
        cases same
        exact ⟨[], first, items, rfl, by simp, checked⟩
      · rintro ⟨before, item, after, split, passed, failed⟩
        cases before with
        | nil =>
          cases split
          exact checked.symm.trans failed
        | cons other before =>
          cases split
          rw [passed first List.mem_cons_self] at checked
          cases checked
    | ok =>
      refine ih.trans ⟨?_, ?_⟩
      · rintro ⟨before, item, after, rfl, passed, failed⟩
        exact ⟨first :: before, item, after, rfl, List.forall_mem_cons.mpr ⟨checked, passed⟩, failed⟩
      · rintro ⟨before, item, after, split, passed, failed⟩
        cases before with
        | nil =>
          cases split
          rw [checked] at failed
          cases failed
        | cons other before =>
          cases split
          exact ⟨before, item, after, rfl, (List.forall_mem_cons.mp passed).2, failed⟩

end

end FilterQuery
