import Mathlib.Data.List.Basic
import Mathlib.Data.List.Infix

/-!
# Places in a past

What happened is a list, the latest last.  A statement about some place in it, what was before and
what came after, is carried by these lemmas from one past to the next.
-/

namespace Chip8

namespace Past

variable {α : Type} {past : List α} {last : α}

/-- A place in a past is its last one, or lies before it. -/
theorem exists_split_concat {P : List α → α → List α → Prop} :
    (∃ front a back, past ++ [last] = front ++ a :: back ∧ P front a back) ↔
      P past last [] ∨ ∃ front a back, past = front ++ a :: back ∧ P front a (back ++ [last]) := by
  constructor
  · rintro ⟨front, a, back, split, holds⟩
    rcases List.eq_nil_or_concat back with rfl | ⟨back, b, rfl⟩
    · obtain ⟨rfl, same⟩ := List.append_inj' split rfl
      obtain rfl := List.head_eq_of_cons_eq same
      exact .inl holds
    · have inner : past ++ [last] = (front ++ a :: back) ++ [b] := by
        rw [split, List.concat_eq_append, List.append_assoc, List.cons_append]
      obtain ⟨rfl, same⟩ := List.append_inj' inner rfl
      obtain rfl := List.head_eq_of_cons_eq same
      rw [List.concat_eq_append] at holds
      exact .inr ⟨front, a, back, rfl, holds⟩
  · rintro (holds | ⟨front, a, back, rfl, holds⟩)
    · exact ⟨past, last, [], rfl, holds⟩
    · exact ⟨front, a, back ++ [last], by rw [List.append_assoc, List.cons_append], holds⟩

/-- What was the last of its kind. -/
theorem getLast?_filterMap_concat {β : Type} (kind : α → Option β) :
    ((past ++ [last]).filterMap kind).getLast? =
      (kind last).or (past.filterMap kind).getLast? := by
  rw [List.filterMap_append, List.getLast?_append]
  cases h : kind last <;> simp [h]

/-- What follows an occurrence of `a` somewhere in a past, given what was before it. -/
theorem forall_prefix_concat {a : α} {P : List α → Prop} :
    (∀ front, front ++ [a] <+: past ++ [last] → P front) ↔
      (last = a → P past) ∧ ∀ front, front ++ [a] <+: past → P front := by
  simp only [List.prefix_concat_iff, or_imp, forall_and]
  refine and_congr_left fun _ => ⟨fun h same => h past (same ▸ rfl), fun h front whole => ?_⟩
  obtain ⟨rfl, same⟩ := List.append_inj' whole rfl
  exact h (List.head_eq_of_cons_eq same).symm

end Past

end Chip8
