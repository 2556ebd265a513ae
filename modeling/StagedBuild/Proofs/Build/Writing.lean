import StagedBuild.Proofs.Build.OutputTool

/-!
Tools that get their work done: a call succeeds exactly where its output can be written. Whether it
can depends on the directories alone, so calls that write files do not stand in each other's way.
-/

namespace StagedBuild

open Action FileTree Disk

/-- A file can be written at a path: the path can be followed, and no directory is in its place. -/
structure CanWrite (t : FileTree) (cwd : Location) (p : Path) : Prop where
  askable : isAskable p = true
  begins : t.isDirectory (start cwd p) = true
  locate : t.locate cwd p = .ok (goalOf cwd p)
  free : ¬ t.isDirectory (goalOf cwd p) = true

namespace CanWrite

variable {t t' : FileTree} {cwd : Location} {p : Path}

theorem fits (h : CanWrite t cwd p) : PathFits p := by
  obtain ⟨-, htext, -, hsteps⟩ := locate_eq_ok_iff.1 h.locate
  exact ⟨htext, hsteps⟩

theorem of_passed (hask : isAskable p = true) (habsolute : p.isAbsolute = true)
    (hfits : PathFits p) (hpassed : ∀ v ∈ passedBy cwd p, t.isDirectory v = true)
    (hfree : ¬ t.isDirectory (goalOf cwd p) = true) : CanWrite t cwd p where
  askable := hask
  begins := by
    rw [start_of_absolute habsolute]
    exact isDirectory_iff.2 (node?_nil t)
  locate := locate_eq_ok_iff.2 ⟨rfl, hfits.text, hpassed, hfits.steps⟩
  free := hfree

theorem mono (h : CanWrite t cwd p) (hdirs : ∀ q, t.isDirectory q = true → t'.isDirectory q = true)
    (hfree : ¬ t'.isDirectory (goalOf cwd p) = true) : CanWrite t' cwd p where
  askable := h.askable
  begins := hdirs _ h.begins
  locate := by
    obtain ⟨hgoal, htext, hpassed, hsteps⟩ := locate_eq_ok_iff.1 h.locate
    exact locate_eq_ok_iff.2 ⟨hgoal, htext, fun v hv => hdirs v (hpassed v hv), hsteps⟩
  free := hfree

theorem congr (h : CanWrite t cwd p) (hdirs : ∀ q, t'.isDirectory q = t.isDirectory q) :
    CanWrite t' cwd p :=
  h.mono (fun q hq => (hdirs q).trans hq) fun hdir => h.free ((hdirs _).symm.trans hdir)

end CanWrite

/-- A call does what a compiler or a linker does: it writes its output and nothing else, and it
succeeds exactly where the output can be written. What it writes is left open. -/
structure WritesOutput (around : Surroundings) (call : Invocation) (out : Path) : Prop where
  confined : Confined around call (goalOf (directoryOf around.directory call) out)
  delivers : Delivers around call (goalOf (directoryOf around.directory call) out)
  exits : ∀ w : World, w.tree.WellFormed →
    ((around.tool call w).1.isSuccess = true ↔
      CanWrite w.tree (directoryOf around.directory call) out)

section Calls

variable {around : Surroundings} {call : Invocation} {out : Path} {w w' : World}
  {reply : ToolReply}

theorem WritesOutput.succeeds_iff (h : WritesOutput around call out)
    (hran : Ran around call w reply w') (hwf : w.tree.WellFormed) :
    reply.isSuccess = true ↔ CanWrite w.tree (directoryOf around.directory call) out := by
  obtain ⟨v, htree, hreply, -⟩ := hran.exists_call
  rw [← hreply, ← htree]
  exact h.exits v (htree ▸ hwf)

/-- Calls that can all write before the first of them all succeed. -/
theorem Pool.RanAll.succeed {α : Type} {call : α → Invocation} {out : α → Path}
    {answered : List (Pool.Answered α)} (hran : Pool.RanAll around call w answered w')
    (h : ∀ a ∈ answered, WritesOutput around (call a.item) (out a.item))
    (hcan : ∀ a ∈ answered,
      CanWrite w.tree (directoryOf around.directory (call a.item)) (out a.item))
    (hwf : w.tree.WellFormed) :
    ∀ a ∈ answered, a.reply.isSuccess = true := by
  induction hran with
  | nil _ => simp
  | @cons w w₁ w' a rest hfirst _ ih =>
      rw [List.forall_mem_cons] at h hcan ⊢
      obtain ⟨hwf₁, hchanged⟩ := h.1.confined.of_ran hfirst hwf
      refine ⟨(h.1.succeeds_iff hfirst hwf).2 hcan.1, ih h.2 (fun b hb => ?_) hwf₁⟩
      exact (hcan.2 b hb).congr hchanged.isDirectory_eq

theorem Pool.RanAll.canWrite {α : Type} {call : α → Invocation} {out : α → Path}
    {answered : List (Pool.Answered α)} (hran : Pool.RanAll around call w answered w')
    (h : ∀ a ∈ answered, WritesOutput around (call a.item) (out a.item))
    (hall : ∀ a ∈ answered, a.reply.isSuccess = true) (hwf : w.tree.WellFormed) :
    ∀ a ∈ answered,
      CanWrite w.tree (directoryOf around.directory (call a.item)) (out a.item) := by
  induction hran with
  | nil _ => simp
  | @cons w w₁ w' a rest hfirst _ ih =>
      rw [List.forall_mem_cons] at h hall ⊢
      obtain ⟨hwf₁, hchanged⟩ := h.1.confined.of_ran hfirst hwf
      refine ⟨(h.1.succeeds_iff hfirst hwf).1 hall.1, fun b hb => ?_⟩
      exact (ih h.2 hall.2 hwf₁ b hb).congr fun q => (hchanged.isDirectory_eq q).symm

theorem writesOutput_outputTool {made : List String → ToolReply × List UInt8}
    (hword : outputWord call.command = some out.text)
    (htool : around.tool = outputTool around.directory made)
    (hmade : (made call.command).1.isSuccess = true) : WritesOutput around call out where
  confined := confined_outputTool made hword htool
  delivers := delivers_outputTool made hword htool
  exits w hw := by
    rw [htool, outputTool, hword]
    dsimp only
    rw [Path.parse_text]
    constructor
    · intro hsuccess
      split at hsuccess
      · rename_i hask
        split at hsuccess
        · rename_i t hwrite
          obtain ⟨loc, hloc, hnot, -⟩ := exists_of_write hwrite
          obtain rfl := (locate_eq_ok_iff.1 hloc).1
          exact ⟨hask.1, hask.2, hloc, hnot⟩
        · cases hsuccess
      · cases hsuccess
    · intro hcan
      rw [if_pos ⟨hcan.askable, hcan.begins⟩, write_eq hcan.locate, if_neg hcan.free]
      exact hmade

end Calls

end StagedBuild
