import StagedBuild.Proofs.Action.Directories
import StagedBuild.Proofs.Build.Calls
import StagedBuild.Proofs.Units.Removal

/-!
Calls of code generation one after the other in one work directory. Each call comes in two parts
around the toolchain: recorded units are taken away before it writes, and what it wrote is recorded
after. A call that fails in between, or in the second part, leaves the record of an earlier call.
-/

namespace StagedBuild.Units

open Action FileTree

/-- Everything before the toolchain is asked for code. -/
def beforeCode (plan : Plan) : Action (List (Path × Nat)) := do
  Disk.makeDirectories plan.workdir
  removeRecorded plan.workdir
  stamps plan.workdir

/-- Everything after the toolchain has given code. -/
def afterCode (plan : Plan) (before : List (Path × Nat)) : Action (List Path) := do
  let after ← stamps plan.workdir
  let new := after.filter fun (u, stamp) => before.lookup u ≠ some stamp
  let _ ← writeRecord plan.workdir (new.map (·.1))
  return after.map (·.1)

theorem generate_eq (plan : Plan) (tools : IrTools) (defns : List Definition) :
    generate plan tools defns = beforeCode plan >>= fun before =>
      Intermediate.generate plan tools defns >>= fun _ => afterCode plan before := by
  simp only [generate, beforeCode, afterCode, bind_assoc]

theorem perform_codeGeneration (plan : Plan) (tools : IrTools) (defns : List Definition)
    (around : Surroundings) (w : World) :
    perform (Intermediate.generate plan tools defns) around w =
      ((tools.generate plan defns (w.calling (.generate defns))).2,
        ⟨(tools.generate plan defns (w.calling (.generate defns))).1,
          .changed (tools.generate plan defns (w.calling (.generate defns))).1 ::
            (w.calling (.generate defns)).history⟩) := by
  rw [Intermediate.generate, perform_bind_ok (perform_note _ _ _),
    perform_bind_ok (perform_get _ _)]
  change perform (setTree _ >>= fun _ => ofExcept id _) around (w.calling (.generate defns)) = _
  rw [perform_bind_ok (perform_setTree _ _ _), perform_ofExcept_id]
  rfl

/-- The file at a location was written from one disk to another: it has a new stamp. -/
def Rewrote (t t' : FileTree) (loc : Location) : Prop :=
  t'.isFile loc = true ∧ t'.stamp? loc ≠ t.stamp? loc

/-- The disk was changed only by writing files, and the file at one location was not written. -/
structure WritesFiles (record : Location) (t t' : FileTree) : Prop where
  wellFormed : t'.WellFormed
  directories : ∀ loc, t.isDirectory loc = true → t'.isDirectory loc = true
  files : ∀ loc, t.isFile loc = true → t'.isFile loc = true
  record : t'.node? record = t.node? record

/-- A call of code generation: what is called, in which surroundings, and the world before. -/
structure Call where
  plan : Plan
  tools : IrTools
  defns : List Definition
  around : Surroundings
  before : World

namespace Call

def outcome (c : Call) : Except Fault (List Path) :=
  (perform (generate c.plan c.tools c.defns) c.around c.before).1

/-- The world that a call leaves. -/
def after (c : Call) : World :=
  (perform (generate c.plan c.tools c.defns) c.around c.before).2

/-- A call gives units. -/
def succeeded (c : Call) : Bool :=
  c.outcome.isOk

/-- The disk that the toolchain leaves when it is asked for code in a world. -/
def treeFrom (c : Call) (v : World) : FileTree :=
  (c.tools.generate c.plan c.defns (v.calling (.generate c.defns))).1

/-- In this call the toolchain wrote the file at a location. -/
def Wrote (c : Call) (loc : Location) : Prop :=
  ∃ before v, perform (beforeCode c.plan) c.around c.before = (.ok before, v) ∧
    Rewrote v.tree (c.treeFrom v) loc

/-- A call in a work directory whose toolchain only writes files, and leaves the record alone. -/
structure IsIn (workdir : Path) (cwd : Location) (c : Call) : Prop where
  workdir_eq : c.plan.workdir = workdir
  directory_eq : c.around.directory = cwd
  writes : ∀ before v, perform (beforeCode c.plan) c.around c.before = (.ok before, v) →
    WritesFiles (recordAt cwd workdir) v.tree (c.treeFrom v)

end Call

/-- Calls in one work directory that lead from one world to another, the latest first. -/
inductive History (workdir : Path) (cwd : Location) (w : World) : List Call → World → Prop
  | nil : History workdir cwd w [] w
  | cons {c : Call} {calls : List Call} :
      History workdir cwd w calls c.before → c.IsIn workdir cwd →
      History workdir cwd w (c :: calls) c.after

/-- After these calls the record lists the file at a location: the last call that succeeded wrote
it. -/
def InRecord : List Call → Location → Prop
  | [], _ => False
  | c :: calls, loc => if c.succeeded then c.Wrote loc else InRecord calls loc

/-- A file that these calls leave behind: the last call that wrote it failed, and the record did not
list it before. -/
def LeftBehind : List Call → Location → Prop
  | [], _ => False
  | c :: calls, loc =>
    (c.Wrote loc ∧ c.succeeded = false ∧ ¬ InRecord calls loc) ∨
      (¬ c.Wrote loc ∧ LeftBehind calls loc)

/-- The record of a disk lists these ways down from the work directory. -/
structure Records (workdir : Path) (cwd : Location) (t : FileTree) (ways : List Location) :
    Prop where
  names : Lists (t.node? (recordAt cwd workdir)) (ways.map Path.wayText)
  entryNames : ∀ way ∈ ways, way ≠ [] ∧ ∀ s ∈ way, isEntryName s = true

/-- The extension of the last name on a way is that of units. -/
def HasSuffix (way : Location) : Prop :=
  (Path.splitName (way.getLast?.getD "")).2 = suffix

theorem sound_removeRecorded (around : Surroundings) (workdir : Path) :
    Keeps around (Disk.Sound around.directory) (removeRecorded workdir) := by
  rw [removeRecorded_eq]
  refine Keeps.bind ?_ fun us => Keeps.forM fun u _ => ?_
  · unfold readRecord
    refine (Keeps.of_readOnly (readOnly_readRecordValue _)).outcome.bind fun ended => ?_
    have hwarn : ∀ warning, Keeps around (Disk.Sound around.directory) (warn warning) := fun _ =>
      Keeps.note fun w hw _ => ⟨hw, fun _ h => h⟩
    split
    · exact (Keeps.of_readOnly (ReadOnly.ofExcept _ _)).bind fun _ => Keeps.pure _
    · exact Keeps.ite (fun _ => Keeps.pure _) fun _ =>
        Keeps.ite (fun _ => (hwarn _).bind fun _ => Keeps.pure _) fun _ => Keeps.throw _
  · exact Keeps.ite (fun _ => (Keeps.of_readOnly (Disk.readOnly_isFile u)).bind fun there =>
      Keeps.ite (fun _ => Disk.sound_unlink u) fun _ => Keeps.pure _) fun _ => Keeps.pure _

theorem sound_beforeCode (around : Surroundings) (plan : Plan) :
    Keeps around (Disk.Sound around.directory) (beforeCode plan) :=
  (Disk.sound_makeDirectories (Disk.startsFrom_self _ _)).bind
    fun _ => (sound_removeRecorded _ _).bind fun _ =>
    Keeps.of_readOnly (readOnly_stamps _)

end StagedBuild.Units
