import Mathlib.Data.List.Flatten
import Mathlib.Data.List.SplitOn

/-! Lists that a separator divides into pieces: what the pieces of a split contain, and how
long the pieces are when they are joined.
-/

namespace SftpServer.Foundations

/-- No piece of a split contains the separator, by induction on the split text. -/
theorem not_mem_of_mem_splitOn {α : Type} [DecidableEq α] {sep : α} {whole part : List α}
    (member : part ∈ whole.splitOn sep)
    : sep ∉ part := by
  induction whole generalizing part with
  | nil => simp_all
  | cons x rest ih =>
      rw [List.splitOn_cons_eq_if_modifyHead] at member
      split at member
      · rcases List.mem_cons.mp member with rfl | later
        · simp
        · exact ih later
      · rename_i different
        obtain ⟨head, tail, pieces⟩ := List.exists_cons_of_ne_nil (List.splitOn_ne_nil sep rest)
        rw [pieces, List.modifyHead_cons] at member
        rcases List.mem_cons.mp member with rfl | later
        · have inner : sep ∉ head := ih (by simp [pieces])
          have apart : sep ≠ x := fun same => different (by simp [same])
          simp [inner, apart]
        · exact ih (by simp [pieces, later])

/-- A member of a joined list is the separator or a member of a piece. -/
theorem mem_intercalate {α : Type} {sep x : α} {pieces : List (List α)}
    (member : x ∈ [sep].intercalate pieces)
    : x = sep ∨ ∃ piece ∈ pieces, x ∈ piece := by
  induction pieces with
  | nil => simp at member
  | cons piece rest ih =>
      cases rest with
      | nil => exact Or.inr ⟨piece, by simp, by simpa using member⟩
      | cons next later =>
          simp only [List.intercalate_cons_cons, List.mem_append, List.mem_singleton] at member
          rcases member with (inside | same) | further
          · exact Or.inr ⟨piece, by simp, inside⟩
          · exact Or.inl same
          · rcases ih further with same | ⟨found, within, inside⟩
            · exact Or.inl same
            · exact Or.inr ⟨found, by simp [within], inside⟩

/-- A piece's members are members of the joined list. -/
theorem mem_intercalate_of_mem {α : Type} {sep x : α} {piece : List α}
    {pieces : List (List α)} (within : piece ∈ pieces) (inside : x ∈ piece)
    : x ∈ [sep].intercalate pieces := by
  induction pieces with
  | nil => simp at within
  | cons head rest ih =>
      cases rest with
      | nil => simpa using (List.mem_singleton.mp within) ▸ inside
      | cons next later =>
          simp only [List.intercalate_cons_cons, List.mem_append]
          rcases List.mem_cons.mp within with rfl | further
          · exact Or.inl (Or.inl inside)
          · exact Or.inr (ih further)

/-- The length of a joined list and of one more separator, by induction on the pieces. -/
theorem length_intercalate {α : Type} {sep : α} {pieces : List (List α)} (some : pieces ≠ [])
    : ([sep].intercalate pieces).length + 1
      = pieces.flatten.length + pieces.length := by
  induction pieces with
  | nil => exact absurd rfl some
  | cons piece rest ih =>
      cases rest with
      | nil => simp
      | cons next later =>
          have step := ih (by simp)
          rw [List.intercalate_cons_cons, List.flatten_cons, List.length_append,
            List.length_append, List.length_append, List.length_singleton]
          rw [List.length_cons]
          omega

section Sublists

variable {α : Type} {sep : α} {few pieces : List (List α)}

/-- Leaving pieces out does not lengthen a joined list. -/
theorem length_intercalate_le (sublist : few.Sublist pieces)
    : ([sep].intercalate few).length ≤ ([sep].intercalate pieces).length := by
  by_cases none : few = []
  · simp [none]
  have some : pieces ≠ [] := fun empty => none (List.sublist_nil.mp (empty ▸ sublist))
  have lengths := sublist.flatten.length_le
  have count := sublist.length_le
  have short := @length_intercalate _ sep _ none
  have long := @length_intercalate _ sep _ some
  omega

/-- Leaving one out shortens it, unless nothing is left. -/
theorem eq_of_length_intercalate (sublist : few.Sublist pieces) (some : few ≠ [])
    (same : ([sep].intercalate few).length = ([sep].intercalate pieces).length)
    : few = pieces := by
  have nonempty : pieces ≠ [] := fun empty => some (List.sublist_nil.mp (empty ▸ sublist))
  have lengths := sublist.flatten.length_le
  have short := @length_intercalate _ sep _ some
  have long := @length_intercalate _ sep _ nonempty
  exact sublist.eq_of_length_le (by omega)

end Sublists

end SftpServer.Foundations
