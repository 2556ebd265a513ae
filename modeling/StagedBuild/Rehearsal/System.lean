import StagedBuild.Rehearsal.Shell.Run

/-!
The disk of a system before anyone uses it: the directories that every system has, and its programs.
-/

namespace StagedBuild.Rehearsal

/-- The directories that every system has. -/
def systemDirectories : List Location := [
  ["bin"], ["boot"], ["dev"], ["etc"], ["home"], ["lib"], ["media"], ["mnt"], ["opt"], ["proc"],
  ["root"], ["run"], ["sbin"], ["srv"], ["sys"], ["tmp"], ["usr"], ["usr", "bin"],
  ["usr", "include"], ["usr", "lib"], ["usr", "local"], ["usr", "local", "bin"],
  ["usr", "local", "include"], ["usr", "local", "lib"], ["usr", "sbin"], ["usr", "share"], ["var"],
  ["var", "lib"], ["var", "tmp"]]

/-- Where files are that every system has, and whether they may be run. -/
def systemFiles : List (Location × Bool) :=
  [(["dev", "null"], false), (["etc", "passwd"], false)]
    ++ Shell.programNames.flatMap fun name =>
      [(["bin", name], true), (["usr", "bin", name], true)]

/-- The disk of a system that nobody has used. -/
def systemTree : FileTree :=
  let withDirectories := systemDirectories.foldl
    (fun (tree : FileTree) loc => tree.set loc .directory) .empty
  systemFiles.foldl
    (fun (tree : FileTree) (loc, isRunnable) => tree.set loc (.file ⟨[], isRunnable⟩))
    withDirectories

end StagedBuild.Rehearsal
