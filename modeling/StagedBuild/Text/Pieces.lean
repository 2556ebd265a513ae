/-!
Cutting a text at every occurrence of one character, and joining the pieces again.
Main statements: joining undoes cutting, and no piece holds the separator.
-/

namespace StagedBuild.Text

/-- The pieces of a list between the separators; there is always at least one. -/
def cut {α : Type} [DecidableEq α] (sep : α) : List α → List (List α)
  | [] => [[]]
  | x :: xs =>
    if x = sep then [] :: cut sep xs
    else
      match cut sep xs with
      | [] => [[x]]
      | piece :: rest => (x :: piece) :: rest

/-- The pieces of a text between the separators. -/
def pieces (sep : Char) (s : String) : List String :=
  (cut sep s.toList).map String.ofList

theorem cut_ne_nil {α : Type} [DecidableEq α] (sep : α) (xs : List α) : cut sep xs ≠ [] := by
  cases xs with
  | nil => simp [cut]
  | cons x xs =>
    simp only [cut]
    split
    · simp
    · split <;> simp

theorem intercalate_cut {α : Type} [DecidableEq α] (sep : α) (xs : List α) :
    List.intercalate [sep] (cut sep xs) = xs := by
  induction xs with
  | nil => simp [cut, List.intercalate]
  | cons x xs ih =>
    simp only [cut]
    obtain ⟨piece, rest, h⟩ : ∃ piece rest, cut sep xs = piece :: rest :=
      List.exists_cons_of_ne_nil (cut_ne_nil sep xs)
    split
    · rename_i hx
      rw [h] at ih ⊢
      cases rest <;> simp_all [List.intercalate, List.intersperse]
    · rw [h] at ih
      simp only [h]
      cases rest <;> simp_all [List.intercalate, List.intersperse]

theorem not_mem_of_mem_cut {α : Type} [DecidableEq α] {sep : α} {xs piece : List α}
    (h : piece ∈ cut sep xs) : sep ∉ piece := by
  induction xs generalizing piece with
  | nil =>
    simp only [cut, List.mem_singleton] at h
    simp [h]
  | cons x xs ih =>
    simp only [cut] at h
    split at h
    · rcases List.mem_cons.1 h with rfl | h
      · simp
      · exact ih h
    · rename_i hx
      split at h
      · simp only [List.mem_singleton] at h
        simp [h, Ne.symm hx]
      · rename_i first rest hcut
        rcases List.mem_cons.1 h with rfl | h
        · have : sep ∉ first := ih (by simp [hcut])
          simp [this, Ne.symm hx]
        · exact ih (by simp [hcut, h])

end StagedBuild.Text
