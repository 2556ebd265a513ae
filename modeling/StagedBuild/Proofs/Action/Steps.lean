import StagedBuild.Proofs.Action.Disk
import StagedBuild.Surroundings
import StagedBuild.Tool.Run

/-!
The steps of a build that involve someone else: calls of the toolchain for the intermediate
representation, and calls of external tools with what came of them. They are read off the history,
since a tool answers by the world in which it is called. Everything that is not such a step is
silent.
-/

namespace StagedBuild

/-- A call of the toolchain, or a call of a tool with its reply. -/
inductive Step where
  | ir (call : IrCall)
  | tool (call : Invocation) (reply : ToolReply)

namespace Action

/-- A relation that holds over every change of the disk, and over whatever the user is told on the
way. -/
class AnyTalk (R : World → World → Prop) : Prop extends Disk.AnyChange R where
  told : ∀ (w : World) (text : String),
    R w { w with history := .printed .output text :: w.history }
  warned : ∀ (w : World) (warning : Warning), R w { w with history := .warned warning :: w.history }

variable {around : Surroundings} {R : World → World → Prop} [AnyTalk R]

theorem keeps_say (line : String) : Keeps around R (say line) :=
  Keeps.note fun w => AnyTalk.told w _

theorem keeps_warn (warning : Warning) : Keeps around R (warn warning) :=
  Keeps.note fun w => AnyTalk.warned w warning

end Action

/-- The steps in a history, in order. -/
def stepsIn (around : Surroundings) : List Event → List Step
  | [] => []
  | .called call :: before => stepsIn around before ++ [.ir call]
  | .ran call tree :: before =>
      stepsIn around before ++ [.tool call (around.tool call ⟨tree, before⟩).1]
  | _ :: before => stepsIn around before

/-- The steps that led to a world, in order. -/
def World.steps (around : Surroundings) (w : World) : List Step :=
  stepsIn around w.history

/-- The world after a call of the toolchain is noted. -/
def World.calling (w : World) (call : IrCall) : World :=
  { w with history := .called call :: w.history }

theorem World.calling_steps (w : World) (call : IrCall) (around : Surroundings) :
    (w.calling call).steps around = w.steps around ++ [.ir call] := rfl

namespace Event

/-- An event that is no step. -/
def isSilent : Event → Bool
  | .called _ | .ran _ _ => false
  | _ => true

end Event

/-- From one world to another nothing happened but silent events. -/
def Silent (w w' : World) : Prop :=
  ∃ events, w'.history = events ++ w.history ∧ ∀ e ∈ events, e.isSilent = true

namespace Silent

theorem of_event {w : World} {event : Event} {t : FileTree} (h : event.isSilent = true) :
    Silent w ⟨t, event :: w.history⟩ :=
  ⟨[event], rfl, by simpa using h⟩

instance : Disk.AnyChange Silent where
  refl w := ⟨[], rfl, by simp⟩
  trans := by
    rintro u v w ⟨first, hfirst, hs⟩ ⟨second, hsecond, hs'⟩
    refine ⟨second ++ first, by rw [hsecond, hfirst, List.append_assoc], ?_⟩
    intro e he
    rcases List.mem_append.1 he with he | he
    · exact hs' e he
    · exact hs e he
  changed _ _ := of_event rfl

instance : Action.AnyTalk Silent where
  told _ _ := of_event rfl
  warned _ _ := of_event rfl

theorem stepsIn_append (around : Surroundings) {events : List Event} (before : List Event)
    (h : ∀ e ∈ events, e.isSilent = true) :
    stepsIn around (events ++ before) = stepsIn around before := by
  induction events with
  | nil => rfl
  | cons e events ih =>
      have hrest := ih fun x hx => h x (by simp [hx])
      have he := h e (by simp)
      cases e with
      | called _ => simp [Event.isSilent] at he
      | ran _ _ => simp [Event.isSilent] at he
      | _ => simpa [stepsIn] using hrest

theorem steps_eq {w w' : World} (around : Surroundings) (h : Silent w w') :
    w'.steps around = w.steps around := by
  obtain ⟨events, hevents, hsilent⟩ := h
  rw [World.steps, hevents, stepsIn_append around _ hsilent, World.steps]

end Silent

/-- The history of a world goes on in a later one. -/
def Later (w w' : World) : Prop :=
  w.history <:+ w'.history

namespace Later

theorem refl (w : World) : Later w w :=
  List.suffix_rfl

theorem trans {u v w : World} (h : Later u v) (h' : Later v w) : Later u w :=
  List.IsSuffix.trans h h'

instance : Action.AnyTalk Later where
  refl := refl
  trans := trans
  changed _ _ := List.suffix_cons _ _
  told _ _ := List.suffix_cons _ _
  warned _ _ := List.suffix_cons _ _

theorem of_silent {w w' : World} (h : Silent w w') : Later w w' := by
  obtain ⟨events, hevents, -⟩ := h
  exact ⟨events, hevents.symm⟩

theorem of_event {w : World} {event : Event} {t : FileTree} :
    Later w ⟨t, event :: w.history⟩ :=
  List.suffix_cons _ _

end Later

namespace Tool

theorem perform_run (command : List String) (directory : Option Path) (around : Surroundings)
    (w : World) :
    Action.perform (run command directory) around w =
      (result command (around.tool ⟨command, directory⟩ w).1,
        ⟨(around.tool ⟨command, directory⟩ w).2,
          .changed (around.tool ⟨command, directory⟩ w).2 ::
            .ran ⟨command, directory⟩ w.tree :: w.history⟩) := by
  simp only [run, Action.perform_bind, Action.perform_read, Action.perform_get,
    Action.perform_note, Action.perform_setTree, Action.perform_ofExcept_id]

end Tool

end StagedBuild
