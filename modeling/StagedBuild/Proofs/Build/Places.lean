import StagedBuild.Proofs.NativeLibrary.Objects
import StagedBuild.Proofs.Units.Listing

/-!
Where the commands of a build write. Commands run in the work directory, so from there their paths
lead. What a file is for shows in the last letter of its name: units, sources, objects and the files
that a build keeps for itself have different ones.
-/

namespace StagedBuild

open Action FileTree NativeLibrary Manifest

/-- The last letter of the last name on a way. -/
def lastLetter (way : Location) : Option Char :=
  (way.getLast?.getD "").toList.getLast?

section LastLetter

variable {way : Location}

theorem lastLetter_concat (front : Location) (name : String) :
    lastLetter (front ++ [name]) = name.toList.getLast? := by
  simp [lastLetter]

theorem lastLetter_append (base : Location) (h : way ≠ []) :
    lastLetter (base ++ way) = lastLetter way := by
  obtain ⟨front, name, rfl⟩ := (List.eq_nil_or_concat way).resolve_left h
  rw [List.concat_eq_append, ← List.append_assoc, lastLetter_concat, lastLetter_concat]

theorem lastLetter_objectWay (way : Location) : lastLetter (objectWay way) = some 'o' := by
  rw [objectWay, lastLetter_concat, toList_objectName]
  simp

theorem getLast?_of_splitName {name ending : String} (h : (Path.splitName name).2 = ending)
    (hne : ending ≠ "") : name.toList.getLast? = ending.toList.getLast? := by
  have hletters : ending.toList ≠ [] := fun hnil => hne (String.toList_inj.1 (by simpa using hnil))
  rw [← Path.splitName_append name, h, String.toList_append,
    List.getLast?_append_of_ne_nil _ hletters]

theorem lastLetter_goalOf {p : Path} {ending : String} (cwd : Location) (h : p.suffix = ending)
    (hne : ending ≠ "") (hplain : ending.toList.getLast? ≠ some '.') :
    lastLetter (goalOf cwd p) = ending.toList.getLast? := by
  have hname : p.name.toList.getLast? = ending.toList.getLast? := getLast?_of_splitName h hne
  rcases List.eq_nil_or_concat p.steps with hnil | ⟨front, last, hsteps⟩
  · rw [Path.suffix, Path.name, hnil] at h
    exact absurd h.symm hne
  · rw [List.concat_eq_append] at hsteps
    have hlast : p.name = last := by simp [Path.name, hsteps]
    rw [hlast] at hname
    have hup : last ≠ ".." := by
      rintro rfl
      exact hplain hname.symm
    rw [goalOf, hsteps, reach_append, reach, reach, stepFrom, if_neg hup, lastLetter_concat,
      hname]

theorem lastLetter_of_isUnitWay (h : Units.IsUnitWay way) : lastLetter way = some 'l' := by
  have hname := h.2
  rw [Units.isUnitName, List.isSuffixOf_iff_suffix] at hname
  obtain ⟨front, hfront⟩ := hname
  rw [lastLetter, ← hfront]
  simp [Units.suffix]

theorem lastLetter_of_isSourceWay (h : IsSourceWay way) :
    lastLetter way = some 'c' ∨ lastLetter way = some 'p' := by
  obtain ⟨-, -, hname⟩ := h
  simp only [isSourceName, Manifest.sourceSuffixes, List.mem_cons, List.not_mem_nil,
    or_false] at hname
  rcases hname with hname | hname
  · left
    rw [lastLetter, getLast?_of_splitName hname (by decide)]
    rfl
  · right
    rw [lastLetter, getLast?_of_splitName hname (by decide)]
    rfl

theorem objectWay_ne_unitWay {unit : Location} (hunit : Units.IsUnitWay unit) :
    objectWay way ≠ unit := by
  intro heq
  have hletter := lastLetter_of_isUnitWay hunit
  rw [← heq, lastLetter_objectWay] at hletter
  cases hletter

theorem objectWay_unit_ne {unit src : Location} (base : Location) (hunit : Units.IsUnitWay unit)
    (hsrc : IsSourceWay src) : objectWay unit ≠ base ++ objectWay src := by
  intro heq
  have hsame : base ++ objectWay src = objectWay (base ++ src) := by
    obtain ⟨front, name, rfl⟩ := (List.eq_nil_or_concat src).resolve_left hsrc.1
    rw [List.concat_eq_append, objectWay_concat, ← List.append_assoc, ← List.append_assoc,
      objectWay_concat]
  have hletter := lastLetter_of_isUnitWay hunit
  rw [objectWay_injective hunit.1 (List.append_ne_nil_of_right_ne_nil _ hsrc.1)
    (heq.trans hsame),
    lastLetter_append base hsrc.1] at hletter
  rcases lastLetter_of_isSourceWay hsrc with h | h
  · rw [h] at hletter
    cases hletter
  · rw [h] at hletter
    cases hletter

end LastLetter

namespace Build

variable {plan : Plan} {cwd : Location} {way : Location}

/-- Where a path leads in the commands of a build, which run in the work directory. -/
def placeIn (cwd : Location) (plan : Plan) (p : Path) : Location :=
  goalOf (goalOf cwd plan.workdir) p

theorem placeIn_of_absolute {p : Path} (h : p.isAbsolute = true) : placeIn cwd plan p =
    goalOf [] p :=
  goalOf_of_absolute h _

theorem placeIn_objectPath_descend (cwd : Location) (plan : Plan) (dir : Path)
    (h : ∀ s ∈ way, isEntryName s = true) (hne : way ≠ []) :
    placeIn cwd plan (dir.descend way).objectPath = placeIn cwd plan dir ++ objectWay way := by
  have hsteps := fun s hs => isStep_of_isEntryName (h s hs)
  rw [objectPath_descend dir hsteps hne]
  exact goalOf_descend_plain _ dir (isStep_objectWay hsteps hne)
    (up_not_mem_objectWay (up_not_mem h))

theorem libraryDirectory_eq (plan : Plan) : plan.libraryDirectory = plan.workdir / "lib" := rfl

theorem goalOf_libraryDirectory (cwd : Location) (plan : Plan) :
    goalOf cwd plan.libraryDirectory = goalOf cwd plan.workdir ++ ["lib"] :=
  goalOf_child cwd plan.workdir (by decide)

theorem isAbsolute_libraryDirectory (h : plan.workdir.isAbsolute = true) :
    plan.libraryDirectory.isAbsolute = true := by
  rw [libraryDirectory_eq, Path.div_eq_descend, isAbsolute_descend _ (by decide), h]

end Build

end StagedBuild
