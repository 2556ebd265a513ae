import StagedBuild.Surroundings

/-!
Actions. An action reads the surroundings, may end in a fault, and in either case leaves a disk and
a history behind: what it did before the fault stays done.
-/

namespace StagedBuild

/-- Something that is done in the world and has a result or ends in a fault. -/
abbrev Action := ReaderT Surroundings (ExceptT Fault (StateM World))

namespace Action

/-- Does an action in a world: the outcome and the world that it leaves. -/
def perform {α : Type} (action : Action α) (around : Surroundings) (w : World) :
    Except Fault α × World :=
  ((action.run around).run).run w

/-- The outcome of an action, as a result. -/
def outcome {α : Type} (action : Action α) : Action (Except Fault α) :=
  fun around => ExceptT.mk do
    let result ← (action.run around).run
    pure (.ok result)

/-- Ends as an outcome says. -/
def ofExcept {ε α : Type} (toFault : ε → Fault) : Except ε α → Action α
  | .ok a => pure a
  | .error e => throw (toFault e)

def note (event : Event) : Action Unit :=
  modify fun w => { w with history := event :: w.history }

def tree : Action FileTree :=
  return (← get).tree

/-- Leaves the disk in another state. -/
def setTree (t : FileTree) : Action Unit :=
  modify fun w => { tree := t, history := .changed t :: w.history }

def print (stream : Stream) (text : String) : Action Unit :=
  note (.printed stream text)

def say (line : String) : Action Unit :=
  print .output (line ++ "\n")

def warn (warning : Warning) : Action Unit :=
  note (.warned warning)

/-- The value of an environment variable. -/
def environment? (name : String) : Action (Option String) :=
  return (← read).environment.lookup name

/-- A point at which the user may interrupt what is done. -/
def pause : Action Unit := do
  let around ← read
  if around.interrupts (← get) then
    note .interrupted
    throw .interrupted

end Action

end StagedBuild
