import Mathlib.Data.List.TakeWhile
import StagedBuild.Proofs.Path.Text

/-!
Names and their extensions. A name is its stem with its extension after it, and behind a stem that
is not empty an extension is recognized by its last dot. What stands before the first dot of a name
is its stem exactly when the stem has no dot.
-/

namespace StagedBuild

namespace Path

theorem splitName_append (name : String) :
    (splitName name).1 ++ (splitName name).2 = name := by
  simp only [splitName]
  split
  · rename_i h
    obtain ⟨hdot, -, -⟩ := h
    -- read from its end, the name is an ending without dots and then a dot
    have hsplit := List.takeWhile_append_dropWhile (p := (· != '.')) (l := name.toList.reverse)
    obtain ⟨c, rest, hrest⟩ : ∃ c rest, name.toList.reverse.dropWhile (· != '.') = c :: rest := by
      refine List.exists_cons_of_ne_nil fun hnil => ?_
      have hall := List.dropWhile_eq_nil_iff.1 hnil '.' (List.mem_reverse.2 hdot)
      simp at hall
    have hc : c = '.' := by
      have hhead := List.head?_dropWhile_not (· != '.') name.toList.reverse
      simpa [hrest] using hhead
    rw [hrest, hc] at hsplit
    have hname := congrArg List.reverse hsplit
    rw [List.reverse_reverse, List.reverse_append, List.reverse_cons] at hname
    rw [← String.toList_inj, String.toList_append, String.toList_ofList, String.toList_ofList]
    generalize (name.toList.reverse.takeWhile (· != '.')).reverse = ending at hname ⊢
    have hlength : name.toList.length - ending.length - 1 = rest.reverse.length := by
      simp only [← hname, List.length_append, List.length_cons, List.length_nil]
      omega
    rw [hlength, ← hname, List.append_assoc, List.take_left]
    rfl
  · exact String.append_empty

/-- A dot and letters: what an extension is made of. -/
def IsExtension (ending : String) : Prop :=
  ∃ letters : List Char, ending.toList = '.' :: letters ∧ letters ≠ [] ∧ '.' ∉ letters

theorem splitName_extended {stem ending : String} (hstem : stem ≠ "") (h : IsExtension ending) :
    splitName (stem ++ ending) = (stem, ending) := by
  obtain ⟨letters, hending, hne, hdot⟩ := h
  have hletters : ((stem ++ ending).toList.reverse.takeWhile (· != '.')).reverse = letters := by
    have hall : ∀ c ∈ letters.reverse, (c != '.') = true := by
      intro c hc
      rw [bne_iff_ne]
      rintro rfl
      exact hdot (List.mem_reverse.1 hc)
    rw [String.toList_append, hending, List.reverse_append, List.reverse_cons,
      List.append_assoc, List.takeWhile_append_of_pos hall]
    simp
  have htaken : (stem ++ ending).toList.take
      ((stem ++ ending).toList.length - letters.length - 1) = stem.toList := by
    have hlength : (stem ++ ending).toList.length - letters.length - 1 = stem.toList.length := by
      rw [String.toList_append, hending, List.length_append, List.length_cons]
      omega
    rw [hlength, String.toList_append, List.take_left]
  unfold splitName
  simp only [hletters, htaken, String.ofList_toList, ← hending]
  rw [if_pos]
  refine ⟨?_, fun hnil => hstem ?_, hne⟩
  · rw [String.toList_append, hending]
    simp
  · exact String.toList_inj.1 (by simpa using hnil)

end Path

namespace Text

theorem head?_cut {α : Type} [DecidableEq α] (sep : α) (xs : List α) :
    (cut sep xs).head? = some (xs.takeWhile (· ≠ sep)) := by
  induction xs with
  | nil => rfl
  | cons x xs ih =>
      rw [cut]
      by_cases hx : x = sep
      · rw [if_pos hx, List.takeWhile_cons]
        simp [hx]
      · obtain ⟨piece, rest, hcut⟩ := List.exists_cons_of_ne_nil (cut_ne_nil sep xs)
        rw [hcut, List.head?_cons] at ih
        rw [if_neg hx, List.takeWhile_cons]
        simp only [hcut, List.head?_cons, Option.some.inj ih]
        simp [hx]

end Text

namespace Path

/-- What stands before the first dot of a name. -/
def firstPart (name : String) : String :=
  String.ofList (name.toList.takeWhile (· ≠ '.'))

theorem head?_pieces (name : String) :
    (Text.pieces '.' name).head? = some (firstPart name) := by
  rw [Text.pieces, List.head?_map, Text.head?_cut]
  rfl

theorem not_mem_firstPart (name : String) : '.' ∉ (firstPart name).toList := by
  intro hdot
  rw [firstPart, String.toList_ofList] at hdot
  simpa using List.mem_takeWhile_imp hdot

theorem firstPart_of_not_mem {name : String} (h : '.' ∉ name.toList) : firstPart name = name := by
  have hall : name.toList.takeWhile (· ≠ '.') = name.toList := by
    rw [List.takeWhile_eq_self_iff]
    intro c hc
    rw [decide_eq_true_eq]
    rintro rfl
    exact h hc
  rw [firstPart, hall, String.ofList_toList]

theorem firstPart_extended (stem : String) {ending : String} (h : IsExtension ending) :
    firstPart (stem ++ ending) = firstPart stem := by
  obtain ⟨letters, hending, -, -⟩ := h
  rw [firstPart, firstPart, String.toList_append, hending]
  congr 1
  generalize stem.toList = cs
  induction cs with
  | nil => simp
  | cons c cs ih =>
      rw [List.cons_append, List.takeWhile_cons, List.takeWhile_cons, ih]

theorem firstPart_eq_self_iff {name : String} : firstPart name = name ↔ '.' ∉ name.toList :=
  ⟨fun heq => heq ▸ not_mem_firstPart name, firstPart_of_not_mem⟩

end Path

end StagedBuild
