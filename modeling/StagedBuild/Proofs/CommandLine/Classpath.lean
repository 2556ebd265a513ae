import StagedBuild.CommandLine.Program
import StagedBuild.Proofs.Path.Text
import StagedBuild.Proofs.Properties.Lines

/-!
Classpaths do not depend on how they are written. The entries may be spread over any number of
values, with blanks around them and with blank pieces between them. Main statement:
`classpath_of_groups`.
-/

namespace StagedBuild

namespace Text

variable {s before after : String}

theorem trim_of_isBlankText (h : isBlankText s = true) : trim s = "" := by
  rw [trim, trimChars_of_blanks (List.all_eq_true.1 h), String.ofList_nil]

theorem trim_padded (hbefore : isBlankText before = true) (hafter : isBlankText after = true) :
    trim (before ++ s ++ after) = trim s := by
  rw [trim, String.toList_append, String.toList_append,
    trimChars_append_blanks _ (List.all_eq_true.1 hafter),
    trimChars_blanks_append _ (List.all_eq_true.1 hbefore), trim]

end Text

namespace CommandLine

/-- Pieces of written classpaths that hold the given entries in order. Blanks may stand around an
entry, and blank pieces anywhere. -/
inductive Holds : List String → List String → Prop
  | nil : Holds [] []
  | blank {entries pieces : List String} {piece : String} :
      Text.isBlankText piece = true → Holds entries pieces → Holds entries (piece :: pieces)
  | entry {entries pieces : List String} {before entry after : String} :
      Text.isBlankText before = true → Text.isBlankText after = true → Holds entries pieces →
        Holds (entry :: entries) ((before ++ entry ++ after) :: pieces)

section Pieces

variable {entries pieces : List String} {piece : String}

theorem colon_not_mem_of_isBlankText (h : Text.isBlankText piece = true) :
    ':' ∉ piece.toList := fun hmem =>
  absurd (List.all_eq_true.1 h ':' hmem) (by decide)

theorem Holds.colon_not_mem (h : Holds entries pieces) (hentries : ∀ e ∈ entries, ':' ∉ e.toList) :
    ∀ p ∈ pieces, ':' ∉ p.toList := by
  induction h with
  | nil => simp
  | blank hblank _ ih =>
      exact List.forall_mem_cons.2 ⟨colon_not_mem_of_isBlankText hblank, ih hentries⟩
  | @entry entries pieces before entry after hbefore hafter _ ih =>
      rw [List.forall_mem_cons] at hentries
      refine List.forall_mem_cons.2 ⟨?_, ih hentries.2⟩
      rw [String.toList_append, String.toList_append, List.mem_append, List.mem_append]
      rintro ((hmem | hmem) | hmem)
      · exact colon_not_mem_of_isBlankText hbefore hmem
      · exact hentries.1 hmem
      · exact colon_not_mem_of_isBlankText hafter hmem

theorem Holds.trimmed (h : Holds entries pieces) :
    (pieces.map Text.trim).filter (· ≠ "") = (entries.map Text.trim).filter (· ≠ "") := by
  induction h with
  | nil => rfl
  | blank hblank _ ih =>
      rw [List.map_cons, Text.trim_of_isBlankText hblank]
      exact ih
  | entry hbefore hafter _ ih =>
      rw [List.map_cons, List.map_cons, Text.trim_padded hbefore hafter, List.filter_cons,
        List.filter_cons, ih]

/-- A value is taken apart into the pieces it was joined from. No pieces make an empty value, which
has one piece that does not count. -/
theorem classpathEntries_joined (h : ∀ p ∈ pieces, ':' ∉ p.toList) :
    classpathEntries (":".intercalate pieces) = (pieces.map Text.trim).filter (· ≠ "") := by
  rcases eq_or_ne pieces [] with rfl | hne
  · rfl
  have hjoined : (":".intercalate pieces).toList =
      List.intercalate [':'] (pieces.map String.toList) := by
    rw [String.toList_intercalate]
    rfl
  have hpieces : Text.pieces ':' (":".intercalate pieces) = pieces := by
    rw [Text.pieces, hjoined, Text.cut_intercalate (by simpa using hne) (by simpa using h),
      List.map_map]
    simp [Function.comp_def]
  rw [classpathEntries, hpieces]

end Pieces

theorem classpath_append (written more : List String) :
    classpath (written ++ more) = classpath written ++ classpath more := by
  rw [classpath, List.flatMap_append, List.map_append]
  rfl

theorem classpath_joined {groups : List (List String)}
    (h : ∀ p ∈ groups.flatten, ':' ∉ p.toList) :
    classpath (groups.map fun group => ":".intercalate group) =
      ((groups.flatten.map Text.trim).filter (· ≠ "")).map Path.parse := by
  induction groups with
  | nil => rfl
  | cons group groups ih =>
      rw [List.flatten_cons, List.forall_mem_append] at h
      rw [List.map_cons, ← List.singleton_append, classpath_append, ih h.2, List.flatten_cons,
        List.map_append, List.filter_append, List.map_append, ← classpathEntries_joined h.1]
      simp [classpath]

/-- However entries without colons are spread over the values of a classpath, and whatever blanks
and blank pieces are added, the classpath lists the entries in order, without the blanks around them
and without those that are blank. Values put one behind the other list what each of them lists. -/
theorem classpath_of_groups :
    (∀ (entries : List String) (groups : List (List String)),
      (∀ e ∈ entries, ':' ∉ e.toList) → Holds entries groups.flatten →
        classpath (groups.map fun group => ":".intercalate group) =
          ((entries.map Text.trim).filter (· ≠ "")).map Path.parse) ∧
      ∀ written more, classpath (written ++ more) = classpath written ++ classpath more := by
  refine ⟨fun entries groups hentries hholds => ?_, classpath_append⟩
  rw [classpath_joined (hholds.colon_not_mem hentries), hholds.trimmed]

/-- Three values, one of them without pieces, hold two entries. -/
theorem classpath_of_three_values :
    Holds ["lib.jar", "my classes"] [["  lib.jar ", ""], [], [" \t", "my classes\n"]].flatten ∧
      classpath ["  lib.jar :", "", " \t:my classes\n"] =
        [Path.parse "lib.jar", Path.parse "my classes"] := by
  have hholds : Holds ["lib.jar", "my classes"]
      [["  lib.jar ", ""], [], [" \t", "my classes\n"]].flatten :=
    @Holds.entry _ _ "  " "lib.jar" " " (by decide) (by decide) <|
      .blank (by decide) <| .blank (by decide) <|
        @Holds.entry _ _ "" "my classes" "\n" (by decide) (by decide) .nil
  exact ⟨hholds, classpath_of_groups.1 _ _ (by decide) hholds⟩

end CommandLine

end StagedBuild
