import StagedBuild.Intermediate.Stages
import StagedBuild.Units.Record

/-!
Code generation and the units that come of it. The units that the last code generation wrote go
first. Other units in the work directory are compiled as well and never taken away; a unit is new
when its stamp is not the one from before.
-/

namespace StagedBuild.Units

/-- Takes away the recorded units that are still there. -/
def removeRecorded (workdir : Path) : Action Unit := do
  (← readRecord workdir).forM fun u => do
    if u.suffix = suffix then
      if ← Disk.isFile u then Disk.unlink u

def stamps (workdir : Path) : Action (List (Path × Nat)) := do
  (← find workdir).mapM fun u => return (u, ← Disk.stamp u)

/-- Generates code and gives all units in the work directory; those that are new are recorded. -/
def generate (plan : Plan) (tools : IrTools) (defns : List Definition) :
    Action (List Path) := do
  Disk.makeDirectories plan.workdir
  removeRecorded plan.workdir
  let before ← stamps plan.workdir
  Intermediate.generate plan tools defns
  let after ← stamps plan.workdir
  let new := after.filter fun (u, stamp) => before.lookup u ≠ some stamp
  let _ ← writeRecord plan.workdir (new.map (·.1))
  return after.map (·.1)

end StagedBuild.Units
