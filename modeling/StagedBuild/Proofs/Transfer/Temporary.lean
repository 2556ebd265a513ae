import StagedBuild.Proofs.Action.Renaming
import StagedBuild.Proofs.Path.Extension
import StagedBuild.Transfer.Download

/-!
The temporary file of a download. It lies beside the destination under the name of the destination
with an ending after it, so whatever leads to it leads to the destination as well.
-/

namespace StagedBuild

namespace Path

variable {p : Path}

theorem steps_eq_parent (h : p.name ≠ "") : p.steps = p.parent.steps ++ [p.name] := by
  rcases List.eq_nil_or_concat p.steps with hnil | ⟨front, last, hsteps⟩
  · exact absurd (by simp [name, hnil]) h
  · rw [List.concat_eq_append] at hsteps
    change p.steps = p.steps.dropLast ++ [p.steps.getLast?.getD ""]
    rw [hsteps]
    simp

theorem isStep_name (h : p.name ≠ "") : isStep p.name = true :=
  p.steps_isStep _ (by rw [steps_eq_parent h]; simp)

end Path

namespace Transfer

open Disk FileTree

variable {destination : Path} {cwd : Location} {t : FileTree}

/-- What is put after the name of a destination. -/
def temporaryName (name : String) : String := name ++ ".tmp"

/-- Where a download is written before it takes the place of its destination. -/
def temporaryFor (destination : Path) : Path :=
  destination.parent / temporaryName destination.name

theorem toList_temporaryName (name : String) :
    (temporaryName name).toList = name.toList ++ ['.', 't', 'm', 'p'] := by
  simp [temporaryName]

theorem isStep_temporaryName {name : String} (h : isStep name = true) :
    isStep (temporaryName name) = true := by
  obtain ⟨-, -, hslash⟩ := isStep_iff.1 h
  refine isStep_iff.2 ⟨fun heq => ?_, fun heq => ?_, ?_⟩
  · simpa [toList_temporaryName] using congrArg String.toList heq
  · have := congrArg List.length (congrArg String.toList heq)
    simp [toList_temporaryName] at this
  · simpa [toList_temporaryName] using hslash

theorem temporaryName_ne_up (name : String) : temporaryName name ≠ ".." := by
  intro heq
  have := congrArg (List.getLast? ∘ String.toList) heq
  simp [toList_temporaryName] at this

theorem temporaryName_ne_self (name : String) : temporaryName name ≠ name := by
  intro heq
  have := congrArg List.length (congrArg String.toList heq)
  simp [toList_temporaryName] at this

section

variable (hname : destination.name ≠ "")

include hname

theorem withSuffix?_eq_temporary :
    destination.withSuffix? (destination.suffix ++ ".tmp") = some (temporaryFor destination) := by
  rw [Path.withSuffix?, if_neg hname, Path.suffix, ← String.append_assoc, Path.splitName_append]
  rfl

theorem anchor_temporaryFor : (temporaryFor destination).anchor = destination.anchor := by
  have hstep := isStep_temporaryName (Path.isStep_name hname)
  rw [temporaryFor, Path.div_eq_descend, Path.anchor_descend _ (by simpa using hstep)]
  rfl

theorem steps_temporaryFor : (temporaryFor destination).steps =
    destination.parent.steps ++ [temporaryName destination.name] := by
  have hstep := isStep_temporaryName (Path.isStep_name hname)
  rw [temporaryFor, Path.div_eq_descend, Path.steps_descend _ (by simpa using hstep)]

theorem parent_temporaryFor : (temporaryFor destination).parent = destination.parent := by
  refine Path.ext_steps (anchor_temporaryFor hname) ?_
  change (temporaryFor destination).steps.dropLast = _
  rw [steps_temporaryFor hname, List.dropLast_concat]

theorem text_temporaryFor : (temporaryFor destination).text = destination.text ++ ".tmp" := by
  have hsteps := Path.steps_eq_parent hname
  have hbare : ∀ p : Path, p.steps ≠ [] → p.text = p.bareText := fun p hp => by
    rw [Path.text, if_neg fun hq => hp hq.2]
  rw [hbare _ (by simp [steps_temporaryFor hname]), hbare destination (by simp [hsteps]),
    Path.bareText, Path.bareText, anchor_temporaryFor hname, steps_temporaryFor hname, hsteps,
    String.append_assoc, String.append_right_inj]
  rw [← String.toList_inj, String.toList_append, Path.steps_joined, Path.steps_joined,
    List.map_append, List.map_append]
  exact (congrArg _ (congrArg _ (congrArg (· :: []) (toList_temporaryName _)))).trans
    (intercalate_concat_append _ _ _ _).symm

theorem goalOf_temporaryFor (cwd : Location) : goalOf cwd (temporaryFor destination) =
    goalOf cwd destination.parent ++ [temporaryName destination.name] := by
  have hstep := isStep_temporaryName (Path.isStep_name hname)
  rw [temporaryFor, Path.div_eq_descend, goalOf_descend_plain _ _ (by simpa using hstep)]
  simpa using (temporaryName_ne_up destination.name).symm

theorem goalOf_destination (cwd : Location) : goalOf cwd destination =
    stepFrom (goalOf cwd destination.parent) destination.name := by
  rw [goalOf, Path.steps_eq_parent hname, reach_append]
  rfl

theorem goalOf_ne_temporary (cwd : Location) :
    goalOf cwd destination ≠ goalOf cwd (temporaryFor destination) := by
  rw [goalOf_temporaryFor hname, goalOf_destination hname, stepFrom]
  split
  · intro heq
    have := congrArg List.length heq
    simp only [List.length_dropLast, List.length_append, List.length_cons, List.length_nil] at this
    omega
  · intro heq
    exact temporaryName_ne_self destination.name (by simpa using heq.symm)

theorem mem_passedBy_temporary {v : Location} : v ∈ passedBy cwd (temporaryFor destination) ↔
    v ∈ passedBy cwd destination := by
  rw [mem_passedBy_iff_parent (p := destination) (by simp [Path.steps_eq_parent hname]),
    mem_passedBy_iff_parent (by simp [steps_temporaryFor hname]), parent_temporaryFor hname]

theorem reaches_destination (h : Readable (temporaryFor destination) t cwd) :
    isAskable destination = true ∧ t.locate cwd destination = .ok (goalOf cwd destination) := by
  obtain ⟨hask, hloc, -⟩ := readable_iff.1 h
  obtain ⟨-, htext, hpassed, hfits⟩ := locate_eq_ok_iff.1 hloc
  rw [isAskable_iff, steps_temporaryFor hname] at hask
  rw [steps_temporaryFor hname] at hfits
  have hsteps := Path.steps_eq_parent hname
  refine ⟨isAskable_iff.2 fun s hs => ?_, locate_eq_ok_iff.2 ⟨rfl, ?_, fun v hv => ?_,
    fun s hs => ?_⟩⟩
  · rw [hsteps] at hs
    rcases List.mem_append.1 hs with hs | hs
    · exact hask s (List.mem_append_left _ hs)
    · have hnull := hask (temporaryName destination.name) (by simp)
      rw [toList_temporaryName, List.mem_append, not_or] at hnull
      rw [List.mem_singleton.1 hs]
      exact hnull.1
  · rw [text_temporaryFor hname, String.utf8ByteSize_append] at htext
    omega
  · exact hpassed v ((mem_passedBy_temporary hname).2 hv)
  · rw [hsteps] at hs
    rcases List.mem_append.1 hs with hs | hs
    · exact hfits s (List.mem_append_left _ hs)
    · have hlast := hfits (temporaryName destination.name) (by simp)
      have hup := temporaryName_ne_up destination.name
      rw [fits, beq_false_of_ne hup, Bool.false_or, decide_eq_true_eq, temporaryName,
        String.utf8ByteSize_append] at hlast
      rw [List.mem_singleton.1 hs, fits, Bool.or_eq_true, decide_eq_true_eq]
      exact .inr (by omega)

theorem leads_parent_of_readable (h : Readable (temporaryFor destination) t cwd) :
    LeadsToDirectory destination.parent t cwd := by
  obtain ⟨hask, hloc, -⟩ := readable_iff.1 h
  rw [← parent_temporaryFor hname]
  exact leads_parent_of_locate hask (by simp [steps_temporaryFor hname]) hloc

end

end Transfer

end StagedBuild
