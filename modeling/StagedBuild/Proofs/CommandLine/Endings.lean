import StagedBuild.CommandLine.Program
import StagedBuild.Proofs.Build.Interrupts

/-!
How a command ends that does some work and reports the fault in which the work ended. The exit code
is 0 when all the work was done, 130 when it was interrupted, and 1 otherwise. In 1 the text of the
fault is printed among the errors, under the title of its class.
-/

namespace StagedBuild

open Action

variable {w w' : World}

theorem World.printed_append (events earlier : List Event) (t : FileTree) (stream : Stream) :
    World.printed ⟨t, events ++ earlier⟩ stream =
      World.printed ⟨t, earlier⟩ stream ++ World.printed ⟨t, events⟩ stream := by
  simp only [World.printed, World.events, List.reverse_append, List.filterMap_append,
    String.join_append]

theorem Tells.printed_errors (h : Tells Event.IsNoError w w') :
    w'.printed .errors = w.printed .errors := by
  obtain ⟨-, events, hevents, hsort⟩ := h
  have hnone : World.printed ⟨w'.tree, events⟩ .errors = "" := by
    rw [World.printed, World.events]
    rw [List.filterMap_eq_nil_iff.2 fun e he => ?_]
    · rfl
    · have hquiet := hsort e (List.mem_reverse.1 he)
      rcases e with _ | _ | _ | _ | _ | ⟨_ | _, _⟩ | _ | _ | _ | _ <;>
        first | rfl | exact hquiet.elim
  calc w'.printed .errors = World.printed ⟨w'.tree, events ++ w.history⟩ .errors := by
        rw [← hevents]
    _ = World.printed ⟨w'.tree, w.history⟩ .errors := by
        rw [World.printed_append, hnone, String.append_empty]
    _ = w.printed .errors := rfl

end StagedBuild

namespace StagedBuild.CommandLine

open Action Report

variable {around : Surroundings} {w w' : World} {title? : Fault → Option String} {verbose : Bool}
  {fault : Fault}

section Reports

/-- The titles of the faults in which the installation of a tool may be expected to end. -/
def installTitle? : Fault → Option String
  | .manifest _ => some "Invalid tool manifest"
  | .resolution _ => some "Artifact not found"
  | .download _ => some "Download failed"
  | _ => none

/-- The title of the faults in which a build may be expected to end. -/
def buildTitle? : Fault → Option String
  | .build _ => some "Build failed!"
  | _ => none

/-- What is printed of a fault: its text under its title or, where nobody expects it, under the
title of such faults and behind its kind. -/
def faultText (title? : Fault → Option String) (verbose : Bool) (fault : Fault) : String :=
  match title? fault with
  | some title => failureText title (fault.message?.getD "")
  | none => failureText "Unexpected error" (fault.kind ++ ": " ++ fault.message?.getD "")
      ++ if verbose then "Traceback:\n<traceback>\n" else ""

/-- Reports the fault in which the work of a command ended. -/
def report (title? : Fault → Option String) (verbose : Bool) (fault : Fault) : Action Int :=
  match title? fault with
  | some title => expected title (fault.message?.getD "")
  | none => if fault = .interrupted then interrupt else unexpectedFault fault verbose

theorem reportInstallFault_eq (verbose : Bool) (fault : Fault) :
    reportInstallFault verbose fault = report installTitle? verbose fault := by
  cases fault <;> rfl

theorem reportBuildFault_eq (verbose : Bool) (fault : Fault) :
    reportBuildFault verbose fault = report buildTitle? verbose fault := by
  cases fault <;> rfl

/-- Does the work of a command and gives its exit code. -/
def attended (title? : Fault → Option String) (verbose : Bool) (work : Action Unit) :
    Action Int := do
  match ← Action.outcome work with
  | .ok _ => return doneCode
  | .error fault => report title? verbose fault

def interruptText : String := "\n" ++ Colour.yellow.paint "✗ Interrupted" ++ "\n"

/-- What is printed when a command that ended in a fault reports it, the latest first. -/
def reportEvents (title? : Fault → Option String) (verbose : Bool) (fault : Fault) : List Event :=
  match title? fault with
  | some title => [.printed .errors (failureText title (fault.message?.getD ""))]
  | none =>
    if fault = .interrupted then [.printed .output interruptText]
    else (if verbose then [.printed .errors "Traceback:\n<traceback>\n"] else [])
      ++ [.printed .errors
        (failureText "Unexpected error" (fault.kind ++ ": " ++ fault.message?.getD ""))]

/-- The exit code of a command that ended in a fault. -/
def faultCode (fault : Fault) : Int :=
  if fault = .interrupted then interruptedCode else failedCode

theorem perform_report (htitle : title? .interrupted = none) (fault : Fault) (w : World) :
    perform (report title? verbose fault) around w =
      (.ok (faultCode fault),
        { w with history := reportEvents title? verbose fault ++ w.history }) := by
  unfold report reportEvents faultCode
  by_cases hinterrupted : fault = .interrupted
  · subst hinterrupted
    simp only [htitle, if_true]
    rfl
  · simp only [if_neg hinterrupted]
    cases title? fault with
    | some title => rfl
    | none => cases verbose <;> rfl

theorem printed_reportEvents (hfault : fault ≠ .interrupted) (t : FileTree) :
    World.printed ⟨t, reportEvents title? verbose fault⟩ .errors =
      faultText title? verbose fault := by
  unfold reportEvents faultText
  cases title? fault with
  | some title => simp [World.printed, World.events]
  | none =>
      rw [if_neg hfault]
      cases verbose <;> simp [World.printed, World.events]

theorem mem_reportEvents {e : Event} (h : e ∈ reportEvents title? verbose fault) :
    e = .printed .output interruptText ∨ ∃ text, e = .printed .errors text := by
  unfold reportEvents at h
  split at h
  · exact .inr ⟨_, List.mem_singleton.1 h⟩
  · split at h
    · exact .inl (List.mem_singleton.1 h)
    · rcases List.mem_append.1 h with h | h
      · split at h
        · exact .inr ⟨_, List.mem_singleton.1 h⟩
        · cases h
      · exact .inr ⟨_, List.mem_singleton.1 h⟩

end Reports

section Endings

/-- How a command ends, by the outcome of its work. It ends in 0 when all the work was done, in 130
when an interrupt was raised, and in 1 otherwise. In 1 the errors show the text of the fault, and
otherwise nothing. -/
structure EndsAsTold (title? : Fault → Option String) (verbose : Bool) (work : Except Fault Unit)
    (interrupted : Prop) (ended : Except Fault Int) (errors : String) : Prop where
  done_iff : ended = .ok 0 ↔ work = .ok ()
  interrupted_iff : ended = .ok 130 ↔ interrupted
  failed_iff : ended = .ok 1 ↔ work ≠ .ok () ∧ ¬ interrupted
  told : ended = .ok 1 → ∃ fault, work = .error fault ∧ errors = faultText title? verbose fault
  quiet : ended ≠ .ok 1 → errors = ""

variable {work : Action Unit} {interrupted : Prop}

namespace EndsAsTold

theorem of_done (hraised : ¬ interrupted) :
    EndsAsTold title? verbose (.ok ()) interrupted (.ok 0) "" where
  done_iff := iff_of_true rfl rfl
  interrupted_iff := iff_of_false (by decide) hraised
  failed_iff := iff_of_false (by decide) fun h => h.1 rfl
  told h := absurd h (by decide)
  quiet _ := rfl

theorem of_interrupted (hraised : interrupted) :
    EndsAsTold title? verbose (.error .interrupted) interrupted (.ok 130) "" where
  done_iff := iff_of_false (by decide) nofun
  interrupted_iff := iff_of_true rfl hraised
  failed_iff := iff_of_false (by decide) fun h => h.2 hraised
  told h := absurd h (by decide)
  quiet _ := rfl

theorem of_failed (hraised : ¬ interrupted) (fault : Fault) :
    EndsAsTold title? verbose (.error fault) interrupted (.ok 1)
      (faultText title? verbose fault) where
  done_iff := iff_of_false (by decide) nofun
  interrupted_iff := iff_of_false (by decide) hraised
  failed_iff := iff_of_true rfl ⟨nofun, hraised⟩
  told _ := ⟨fault, rfl, rfl⟩
  quiet h := absurd rfl h

end EndsAsTold

theorem perform_attended (htitle : title? .interrupted = none) (work : Action Unit) (w : World) :
    perform (attended title? verbose work) around w =
      match perform work around w with
      | (.ok (), v) => (.ok 0, v)
      | (.error fault, v) => (.ok (faultCode fault),
          { v with history := reportEvents title? verbose fault ++ v.history }) := by
  rw [attended, perform_bind_ok (perform_outcome work around w)]
  rcases perform work around w with ⟨fault | _, v⟩
  · exact perform_report htitle fault v
  · rfl

theorem endsAsTold_attended (htitle : title? .interrupted = none)
    (hinterrupted : interrupted ↔ EndsIn around w work .interrupted)
    (hquiet : (perform work around w).2.printed .errors = "") :
    EndsAsTold title? verbose (perform work around w).1 interrupted
      (perform (attended title? verbose work) around w).1
      ((perform (attended title? verbose work) around w).2.printed .errors) := by
  rw [EndsIn] at hinterrupted
  rw [perform_attended htitle]
  rcases hwork : perform work around w with ⟨fault | _, v⟩
  all_goals
    rw [hwork] at hinterrupted hquiet
    dsimp only at hinterrupted hquiet ⊢
  · have herrors : World.printed ⟨v.tree, reportEvents title? verbose fault ++ v.history⟩ .errors =
        World.printed ⟨v.tree, reportEvents title? verbose fault⟩ .errors := by
      rw [World.printed_append]
      exact (congrArg (· ++ _) hquiet).trans String.empty_append
    rw [herrors]
    by_cases hfault : fault = .interrupted
    · subst hfault
      rw [reportEvents, htitle]
      exact .of_interrupted (hinterrupted.2 rfl)
    · rw [faultCode, if_neg hfault, printed_reportEvents hfault]
      exact .of_failed (fun h => hfault (Except.error.inj (hinterrupted.1 h))) fault
  · rw [hquiet]
    exact .of_done fun h => by cases hinterrupted.1 h

theorem interrupted_attended {raises : Event → World → Prop} {t : FileTree}
    (htitle : title? .interrupted = none)
    (hcalm : ∀ stream text v, ¬ raises (.printed stream text) v) :
    (perform (attended title? verbose work) around w).2.Interrupted raises t ↔
      (perform work around w).2.Interrupted raises t := by
  rw [perform_attended htitle]
  rcases perform work around w with ⟨fault | _, v⟩
  · refine raisedIn_append fun e he v => ?_
    rcases mem_reportEvents he with rfl | ⟨text, rfl⟩
    · exact hcalm _ _ v
    · exact hcalm _ _ v
  · rfl

end Endings

end StagedBuild.CommandLine
