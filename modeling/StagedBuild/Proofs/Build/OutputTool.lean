import StagedBuild.Proofs.Build.Course
import StagedBuild.Proofs.Units.Stale

/-!
A tool that does what compilers and linkers do with the disk: it writes one file, and the word
behind `-o` in its command says where. What it writes and how it ends may depend on the command in
any way. Beside it stands a toolchain that writes one unit.
-/

namespace StagedBuild

open Action FileTree Disk

/-- The word behind the first `-o` of a command. -/
def outputWord : List String → Option String
  | [] => none
  | word :: rest => if word = "-o" then rest.head? else outputWord rest

theorem outputWord_append {front : List String} (h : "-o" ∉ front) (out : String)
    (rest : List String) : outputWord (front ++ "-o" :: out :: rest) = some out := by
  induction front with
  | nil => simp [outputWord]
  | cons word front ih =>
      rw [List.mem_cons, not_or] at h
      rw [List.cons_append, outputWord, if_neg (Ne.symm h.1), ih h.2]

theorem text_ne_option {p : Path} (h : p.isAbsolute = true) : p.text ≠ "-o" := by
  intro heq
  have hparsed := Path.parse_text p
  rw [heq] at hparsed
  rw [← hparsed] at h
  revert h
  decide

/-- Where a call is made from. -/
def directoryOf (cwd : Location) (call : Invocation) : Location :=
  match call.directory with
  | some p => goalOf cwd p
  | none => cwd

/-- A tool that ends and writes as its command says. It writes nothing where it cannot. -/
def outputTool (cwd : Location) (made : List String → ToolReply × List UInt8)
    (call : Invocation) (w : World) : ToolReply × FileTree :=
  match outputWord call.command with
  | none => ((made call.command).1, w.tree)
  | some word =>
    let out := Path.parse word
    if isAskable out ∧ w.tree.isDirectory (start (directoryOf cwd call) out) then
      match w.tree.write (directoryOf cwd call) out (made call.command).2 with
      | .ok t => ((made call.command).1, t)
      | .error _ => (.exited 1 [] [], w.tree)
    else (.exited 1 [] [], w.tree)

section OutputTool

variable {around : Surroundings} {cwd : Location}
  (made : List String → ToolReply × List UInt8) {call : Invocation} {w : World} {out : Path}

variable (hword : outputWord call.command = some out.text)

include hword

theorem outputTool_cases (hw : w.tree.WellFormed) :
    outputTool cwd made call w = (.exited 1 [] [], w.tree) ∨
      ∃ (t : FileTree) (f : File), outputTool cwd made call w = ((made call.command).1, t) ∧
        t.WellFormed ∧ f.bytes = (made call.command).2 ∧
        ¬ w.tree.isDirectory (goalOf (directoryOf cwd call) out) = true ∧
        ∀ q, t.node? q =
          if q = goalOf (directoryOf cwd call) out then some (.file f) else w.tree.node? q := by
  unfold outputTool
  rw [hword]
  dsimp only
  rw [Path.parse_text]
  split
  · rename_i hask
    obtain ⟨hask, hstart⟩ := hask
    split
    · rename_i t hwrite
      obtain ⟨loc, hloc, hnot, rfl⟩ := exists_of_write hwrite
      obtain rfl := (locate_eq_ok_iff.1 hloc).1
      have hne : goalOf (directoryOf cwd call) out ≠ [] := by
        intro hnil
        rw [hnil] at hnot
        exact hnot (isDirectory_iff.2 (node?_nil _))
      exact .inr ⟨_, _, rfl, hw.write hstart hask hwrite, written_bytes _ _ _, hnot,
        fun q => node?_writeFile hne q _⟩
    · exact .inl rfl
  · exact .inl rfl

theorem filesChanged_outputTool (hw : w.tree.WellFormed) :
    (outputTool cwd made call w).2.WellFormed ∧
      FilesChanged (· = goalOf (directoryOf cwd call) out) w.tree
        (outputTool cwd made call w).2 := by
  rcases outputTool_cases made hword hw with hfailed | ⟨t, f, hran, hwf, -, hnot, hnodes⟩
  · rw [hfailed]
    exact ⟨hw, .refl _ _⟩
  · rw [hran]
    exact ⟨hwf, .of_put hnot hnodes⟩

variable (htool : around.tool = outputTool around.directory made)

include htool

theorem confined_outputTool :
    Confined around call (goalOf (directoryOf around.directory call) out) := by
  intro w hw
  rw [htool]
  exact filesChanged_outputTool made hword hw

theorem ignoresOthers_outputTool (objects : Location → Prop) :
    IgnoresOthers around objects call (goalOf (directoryOf around.directory call) out) := by
  intro w w' _ _ hchanged
  have hdirs := hchanged.isDirectory_eq
  have hplace : w'.tree.node? (goalOf (directoryOf around.directory call) out) =
      w.tree.node? (goalOf (directoryOf around.directory call) out) :=
    hchanged.node?_eq fun h => h.2 rfl
  rw [htool]
  unfold outputTool
  rw [hword]
  dsimp only
  rw [Path.parse_text, hdirs]
  split
  · -- where writing goes on the one disk, it goes on the other
    have hwritten : ∀ {t t' t₁ : FileTree}, (∀ q, t'.isDirectory q = t.isDirectory q) →
        t.write (directoryOf around.directory call) out (made call.command).2 = .ok t₁ →
        t'.write (directoryOf around.directory call) out (made call.command).2 =
          .ok (t'.writeFile (goalOf (directoryOf around.directory call) out)
            (made call.command).2) := by
      intro t t' t₁ hsame hwrite
      obtain ⟨loc, hloc, hnot, -⟩ := exists_of_write hwrite
      obtain ⟨rfl, htext, hpassed, hsteps⟩ := locate_eq_ok_iff.1 hloc
      rw [write_eq (locate_eq_ok_iff.2 ⟨rfl, htext, fun q hq => (hsame q).trans (hpassed q hq),
        hsteps⟩), hsame, if_neg hnot]
    rcases hwrite : w.tree.write (directoryOf around.directory call) out (made call.command).2
      with e | t
    · rcases hwrite' : w'.tree.write (directoryOf around.directory call) out
        (made call.command).2 with e' | t'
      · exact ⟨rfl, hplace⟩
      · cases hwrite.symm.trans (hwritten (fun q => (hdirs q).symm) hwrite')
    · rw [hwritten hdirs hwrite]
      obtain ⟨loc, hloc, hnot, rfl⟩ := exists_of_write hwrite
      obtain rfl := (locate_eq_ok_iff.1 hloc).1
      have hne : goalOf (directoryOf around.directory call) out ≠ [] := by
        intro hnil
        rw [hnil] at hnot
        exact hnot (isDirectory_iff.2 (node?_nil _))
      refine ⟨rfl, ?_⟩
      rw [node?_writeFile hne, node?_writeFile hne, if_pos rfl, if_pos rfl, written_congr hplace]
  · exact ⟨rfl, hplace⟩

theorem delivers_outputTool :
    Delivers around call (goalOf (directoryOf around.directory call) out) := by
  intro w hw hsuccess
  rw [htool] at hsuccess ⊢
  obtain ⟨hwf, hchanged⟩ := filesChanged_outputTool made hword hw
  refine ⟨hwf, hchanged, ?_⟩
  rcases outputTool_cases made hword hw with hfailed | ⟨t, f, hran, -, -, -, hnodes⟩
  · rw [hfailed] at hsuccess
    cases hsuccess
  · rw [hran]
    exact isFile_iff.2 ⟨f, by rw [hnodes, if_pos rfl]⟩

end OutputTool

section Commands

variable {plan : Plan}

theorem outputWord_unitCall (hclang : plan.clangpp.isAbsolute = true) {u : Path}
    (hu : u.isAbsolute = true) :
    outputWord (Build.unitCall plan u).command = some u.objectPath.text := by
  have hfront : "-o" ∉ [plan.clangpp.text, "-c", u.text] := by
    simp [Ne.symm (text_ne_option hclang), Ne.symm (text_ne_option hu)]
  exact outputWord_append hfront u.objectPath.text plan.compileFlags

theorem outputWord_sourceCall (hclang : plan.clang.isAbsolute = true)
    (hclangpp : plan.clangpp.isAbsolute = true) (hflags : "-o" ∉ plan.compileFlags)
    {s : NativeLibrary.Source} (hs : s.path.isAbsolute = true) :
    outputWord (Build.sourceCall plan s).command = some s.objectPath.text := by
  have hfront : "-o" ∉ (if s.isCpp then [plan.clangpp.text, "-std=c++11"] else [plan.clang.text])
      ++ plan.compileFlags ++ ["-O2", "-c", s.path.text] := by
    have hword := text_ne_option hclang
    have hword' := text_ne_option hclangpp
    have hpath := text_ne_option hs
    split <;> simp [hflags, Ne.symm hword, Ne.symm hword', Ne.symm hpath]
  have hcommand : (Build.sourceCall plan s).command =
      ((if s.isCpp then [plan.clangpp.text, "-std=c++11"] else [plan.clang.text])
        ++ plan.compileFlags ++ ["-O2", "-c", s.path.text]) ++ "-o" :: s.objectPath.text :: [] := by
    simp [Build.sourceCall, NativeLibrary.command]
  rw [hcommand, outputWord_append hfront]

theorem outputWord_finalCall (hclang : plan.clangpp.isAbsolute = true) (units : List Path)
    (included : List NativeLibrary.Source) (links : List String) :
    outputWord (Build.finalCall plan units included links).command =
      some plan.outputPath.text := by
  have hfront : "-o" ∉ [plan.clangpp.text] := by
    simp [Ne.symm (text_ne_option hclang)]
  simp only [Build.finalCall, Executable.command, List.append_assoc]
  exact outputWord_append hfront plan.outputPath.text _

section Delivers

variable {around : Surroundings} {made : List String → ToolReply × List UInt8}
  (htool : around.tool = outputTool around.directory made)
  (hclangpp : plan.clangpp.isAbsolute = true)

include htool hclangpp

theorem unitCall_outputTool {u : Path} (hu : u.isAbsolute = true) :
    Confined around (Build.unitCall plan u) (Build.placeIn around.directory plan u.objectPath) ∧
      Delivers around (Build.unitCall plan u)
        (Build.placeIn around.directory plan u.objectPath) := by
  have hword := outputWord_unitCall hclangpp hu
  exact ⟨confined_outputTool made hword htool, delivers_outputTool made hword htool⟩

theorem sourceCall_outputTool (hclang : plan.clang.isAbsolute = true)
    (hflags : "-o" ∉ plan.compileFlags) {s : NativeLibrary.Source}
    (hs : s.path.isAbsolute = true) :
    Confined around (Build.sourceCall plan s)
        (Build.placeIn around.directory plan s.objectPath) ∧
      Delivers around (Build.sourceCall plan s)
        (Build.placeIn around.directory plan s.objectPath) := by
  have hword := outputWord_sourceCall hclang hclangpp hflags hs
  exact ⟨confined_outputTool made hword htool, delivers_outputTool made hword htool⟩

theorem finalCall_outputTool (units : List Path) (included : List NativeLibrary.Source)
    (links : List String) :
    Confined around (Build.finalCall plan units included links)
      (Build.placeIn around.directory plan plan.outputPath) :=
  confined_outputTool made (outputWord_finalCall hclangpp units included links) htool

end Delivers

end Commands

section SourceOfA

/-- An archive with one source, which every build needs. -/
def archiveOfA : List UInt8 :=
  [80, 75, 3, 4, 20, 0, 0, 0, 0, 0, 0, 0, 33, 0, 0, 0, 0, 0, 0, 0, 0, 0, 0, 0, 0, 0, 3, 0, 0, 0, 97,
    46, 99, 80, 75, 1, 2, 20, 3, 20, 0, 0, 0, 0, 0, 0, 0, 33, 0, 0, 0, 0, 0, 0, 0, 0, 0, 0, 0, 0, 0,
    3, 0, 0, 0, 0, 0, 0, 0, 0, 0, 0, 0, 128, 1, 0, 0, 0, 0, 97, 46, 99, 80, 75, 5, 6, 0, 0, 0, 0, 1,
    0, 1, 0, 49, 0, 0, 0, 33, 0, 0, 0, 0, 0]

/-- The plan of a build in the work directory `/w`, with the archive beside it. -/
def planOfA : Plan :=
  ⟨.parse "/clang", .parse "/clang++", "x86_64-linux", "main", .parse "/w", .parse "/a.jar", [], [],
    [], .default, .default, "Linux", true, 1, false⟩

/-- Surroundings whose tools write to their outputs. -/
def aroundOfA (made : List String → ToolReply × List UInt8) : Surroundings :=
  { Surroundings.still [] with tool := outputTool [] made }

/-- A disk with the archive and nothing else. -/
def diskOfA : FileTree :=
  FileTree.empty.writeFile ["a.jar"] archiveOfA

/-- The disk on which an earlier build has made the directory of the library. -/
def diskWithLibrary : FileTree :=
  (diskOfA.add ["w"] .directory).add ["w", "lib"] .directory

theorem wellFormed_diskOfA : diskOfA.WellFormed := by
  decide +kernel

theorem wellFormed_diskWithLibrary : diskWithLibrary.WellFormed := by
  decide +kernel

end SourceOfA

namespace Units.Call

variable {c : Call}

theorem writesOnlyUnits_of_writing {p : Path} {ended : Except Fault Unit} {way : Location}
    (htools : c.tools.generate = (toolsWriting p ended).generate) (habsolute : p.isAbsolute = true)
    (hask : isAskable p = true)
    (hgoal : goalOf [] p = goalOf c.around.directory c.plan.workdir ++ way)
    (hunit : IsUnitWay way) (hw : c.before.tree.WellFormed)
    (hcwd : c.before.tree.isDirectory c.around.directory = true)
    (hstamp : (c.treeFrom (perform (beforeCode c.plan) c.around c.before).2).stamp?
        (goalOf [] p) ≠
      (perform (beforeCode c.plan) c.around c.before).2.tree.stamp? (goalOf [] p)) :
    c.WritesOnlyUnits := by
  intro before v hbefore
  have hsound := (sound_beforeCode c.around c.plan).of_perform hbefore hw hcwd
  rw [hbefore] at hstamp
  have htree : c.treeFrom v = (v.tree.write [] p []).toOption.getD v.tree := by
    rw [treeFrom, htools]
    rfl
  rw [htree] at hstamp ⊢
  rcases hwrite : v.tree.write [] p [] with e | t
  · rw [hwrite] at hstamp
    exact absurd rfl hstamp
  · rw [hwrite] at hstamp
    obtain ⟨loc, hloc, hnot, rfl⟩ := exists_of_write hwrite
    obtain rfl := (locate_eq_ok_iff.1 hloc).1
    have hne : goalOf [] p ≠ [] := by
      intro hnil
      rw [hnil] at hnot
      exact hnot (isDirectory_iff.2 (node?_nil _))
    have hstart : v.tree.isDirectory (start [] p) = true := by
      rw [start_of_absolute habsolute]
      exact isDirectory_iff.2 (node?_nil _)
    refine ⟨hsound.1.write hstart hask hwrite, fun q => ?_⟩
    by_cases hq : q = goalOf [] p
    · subst hq
      refine .inr (.inr ⟨⟨way, hunit, hgoal⟩, hnot,
        isFile_iff.2 ⟨v.tree.written (goalOf [] p) [], ?_⟩, hstamp⟩)
      exact (node?_writeFile hne _ _).trans (if_pos rfl)
    · exact .inl ((node?_writeFile hne q _).trans (if_neg hq))

end Units.Call

end StagedBuild
