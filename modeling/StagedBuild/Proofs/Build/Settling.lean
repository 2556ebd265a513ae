import StagedBuild.Proofs.Build.Frame

/-!
Settling the plan of a build. The work directory is made, and a probe is compiled in it: its source
and its result are the only files that change, whatever comes of the probe.
-/

namespace StagedBuild

open Action FileTree Disk NativeLibrary Manifest

namespace Disk

variable {around : Surroundings} {w : World}

theorem readOnly_absolute (p : Path) : ReadOnly (absolute p) := by
  intro around w
  unfold absolute
  split <;> rfl

theorem exists_absolute (hcwd : ∀ s ∈ around.directory, isEntryName s = true) (p : Path) :
    ∃ q, perform (absolute p) around w = (.ok q, w) ∧ q.isAbsolute = true ∧
      goalOf [] q = goalOf around.directory p := by
  by_cases hp : p.isAbsolute = true
  · refine ⟨p, ?_, hp, (goalOf_of_absolute hp _).symm⟩
    rw [absolute, if_pos hp, perform_pure]
  · have hrelative : p.anchor = .relative := by
      simpa [Path.isAbsolute] using hp
    let root : Path := ⟨.root, around.directory, fun s hs => isStep_of_isEntryName (hcwd s hs)⟩
    have hroot : Path.parse ("/" ++ "/".intercalate around.directory) = root :=
      Path.parse_bareText root (.inl (by simp [root]))
    refine ⟨root.join p, ?_, ?_, ?_⟩
    · rw [absolute, if_neg hp, perform_bind_ok (perform_read _ _), hroot, perform_pure]
      rfl
    · rw [Path.isAbsolute, Path.anchor_join hrelative]
      rfl
    · have hstart : start [] (root.join p) = [] := by
        refine start_of_absolute ?_ []
        rw [Path.isAbsolute, Path.anchor_join hrelative]
        rfl
      have hstart' : start around.directory p = around.directory := if_neg hp
      rw [goalOf, goalOf, hstart, hstart', Path.steps_join hrelative, reach_append,
        reach_of_plain (up_not_mem hcwd), List.nil_append]

end Disk

namespace Compiler

theorem readOnly_isRunnable (written : String) : ReadOnly (isRunnable written) := by
  refine (readOnly_nodeIfAny _).bind fun node => ?_
  intro around w
  split <;> rfl

theorem readOnly_firstRunnable (written : List String) : ReadOnly (firstRunnable written) := by
  induction written with
  | nil => exact fun _ _ => rfl
  | cons first rest ih =>
      refine (readOnly_isRunnable first).bind fun runnable => ?_
      cases runnable with
      | true => exact fun _ _ => rfl
      | false => exact ih

theorem readOnly_search (searchPath name : String) : ReadOnly (search searchPath name) := by
  unfold search
  split
  · exact (readOnly_isRunnable name).bind fun _ _ _ => rfl
  · split
    · exact fun _ _ => rfl
    · exact readOnly_firstRunnable _

namespace Finder

variable (d : Finder)

theorem readOnly_find (name : String) : ReadOnly (d.find name) := by
  unfold find
  split
  · exact fun _ _ => rfl
  · split
    · exact readOnly_search _ name
    · have hpath : ReadOnly (environment? "PATH") := fun _ _ => rfl
      exact hpath.bind fun _ => readOnly_search _ name

theorem readOnly_firstFound (names : List String) : ReadOnly (d.firstFound names) := by
  induction names with
  | nil => exact fun _ _ => rfl
  | cons name rest ih =>
      refine (readOnly_find d name).bind fun found => ?_
      cases found with
      | none => exact ih
      | some found =>
          change ReadOnly (if found = "" then d.firstFound rest else pure (some found))
          split
          · exact ih
          · exact fun _ _ => rfl

theorem readOnly_locate (binary : String) (versions : List Version) :
    ReadOnly (d.locate binary versions) := by
  unfold locate
  split
  · exact fun _ _ => rfl
  · refine (readOnly_firstFound d _).bind fun found => ?_
    cases found <;> exact fun _ _ => rfl

end Finder

theorem readOnly_findArchive (classpath : List Path) : ReadOnly (findArchive classpath) := by
  induction classpath with
  | nil => exact fun _ _ => rfl
  | cons entry rest ih =>
      refine (readOnly_absolute entry).bind fun found => ?_
      split
      · exact fun _ _ => rfl
      · exact ih

end Compiler

namespace Build

variable {around : Surroundings} {w : World} {workdir : Path} {touched more : Location → Prop}

theorem frames_of_keeps {α : Type} {action : Action α} (hmore : ∀ q, more q → touched q)
    (hsettling : ∀ q, IsSettling workdir q → ¬ more q) (hsound : Keeps around (Sound []) action)
    (hsparing : Keeps around (Sparing more) action) :
    Keeps around (Frames workdir touched) action := by
  intro w hw horderly
  obtain ⟨hw', hdirs⟩ := hsound w hw (isDirectory_iff.2 (node?_nil _))
  exact frames_of_spares hmore hsettling (fun _ => hw') hdirs (hsparing w) hw horderly

theorem frames_makeDirectories {p : Path} (hp : p.isAbsolute = true) :
    Keeps around (Frames workdir touched) (makeDirectories p) :=
  frames_of_keeps (show ∀ q : Location, False → touched q from fun _ => False.elim) (fun _ _ => id)
    (sound_makeDirectories (.of_absolute hp)) (sparing_makeDirectories _ p)

theorem frames_run {places : Location → Prop} (command : List String) (directory : Option Path)
    (hmore : ∀ q, places q → touched q) (hsettling : ∀ q, IsSettling workdir q → ¬ places q)
    (htool : ∀ w : World, w.tree.WellFormed →
      (around.tool ⟨command, directory⟩ w).2.WellFormed ∧
        FilesChanged places w.tree (around.tool ⟨command, directory⟩ w).2) :
    Keeps around (Frames workdir touched) (Tool.run command directory) := by
  intro w
  rw [Tool.perform_run]
  exact frames_of_filesChanged hmore hsettling (htool w)

/-- The call that compiles the probe. -/
def probeCall (clang workdir : Path) : Invocation :=
  ⟨Compiler.probeCommand clang (probeDirectory workdir / "c.probe")
    (probeDirectory workdir / "ll.probe"), some workdir⟩

/-- The files of the probe. -/
def IsProbe (workdir : Path) (q : Location) : Prop :=
  q = goalOf [] workdir ++ ["target", "c.probe"] ∨ q = goalOf [] workdir ++ ["target", "ll.probe"]

theorem not_isProbe_of_isSettling {q : Location} (h : IsSettling workdir q) :
    ¬ IsProbe workdir q := by
  rintro (rfl | rfl)
  all_goals
    rcases h with heq | heq | heq
    · rw [libraryAt, List.append_assoc] at heq
      exact absurd (List.append_cancel_left heq) (by decide)
    · rw [fileAt, libraryAt, List.append_assoc] at heq
      exact absurd (List.append_cancel_left heq) (by decide)
    · exact absurd (List.append_cancel_left heq) (by decide)

/-- The compiler of the probe writes only its result, and asking for the directories of the platform
writes nothing. -/
structure ProbesContained (around : Surroundings) : Prop where
  probe : ∀ clang workdir : Path, workdir.isAbsolute = true →
    Confined around (probeCall clang workdir) (goalOf [] (probeDirectory workdir / "ll.probe"))
  asked : ∀ (flag : String) (w : World), w.tree.WellFormed →
    (around.tool ⟨["llvm-config", flag], none⟩ w).2.WellFormed ∧
      FilesChanged (fun _ => False) w.tree (around.tool ⟨["llvm-config", flag], none⟩ w).2

section Settle

variable (hcontained : ProbesContained around)

include hcontained

theorem frames_platformDirectories (flag : String) :
    Keeps around (Frames workdir touched) (Compiler.platformDirectories flag) :=
  (frames_run _ _ (fun _ => False.elim) (fun _ _ => id) (hcontained.asked flag)).bind fun _ =>
    Keeps.pure _

variable (hprobe : ∀ q, IsProbe workdir q → touched q)

include hprobe

theorem frames_detectTarget {dir : Path} (hdir : dir.isAbsolute = true)
    (hgoal : goalOf [] dir = goalOf [] workdir) (clang : Path) :
    Keeps around (Frames workdir touched) (Compiler.detectTarget clang dir) := by
  have hinside : ∀ name : String, isEntryName name = true →
      goalOf [] (probeDirectory dir / name) = goalOf [] workdir ++ ["target", name] ∧
        (probeDirectory dir / name).isAbsolute = true := by
    intro name hname
    refine ⟨?_, isAbsolute_join (isAbsolute_join hdir _) _⟩
    rw [goalOf_child _ _ hname, probeDirectory, goalOf_child _ _ (by decide), hgoal,
      List.append_assoc]
    rfl
  obtain ⟨hsource, habsolute⟩ := hinside "c.probe" (by decide)
  obtain ⟨hresult, -⟩ := hinside "ll.probe" (by decide)
  have hwrite : Keeps around (Frames workdir touched)
      (writeText (probeDirectory dir / "c.probe") "int probe;") :=
    frames_of_keeps hprobe (fun _ => not_isProbe_of_isSettling)
      (sound_writeBytes (.of_absolute habsolute) _)
      (sparing_writeBytes (.inl (by rw [goalOf_of_absolute habsolute, hsource])) _)
  have hrun : Keeps around (Frames workdir touched)
      (Tool.run (Compiler.probeCommand clang (probeDirectory dir / "c.probe")
        (probeDirectory dir / "ll.probe")) (some dir)) := by
    refine frames_run _ _ hprobe (fun _ => not_isProbe_of_isSettling) fun w hw => ?_
    obtain ⟨hw', hchanged⟩ := hcontained.probe clang dir hdir w hw
    exact ⟨hw', hchanged.mono fun q hq => .inr (hq.trans hresult)⟩
  unfold Compiler.detectTarget
  refine (frames_makeDirectories (isAbsolute_join hdir _)).bind fun _ => hwrite.bind fun _ =>
    hrun.bind fun r => ?_
  refine Keeps.ite (fun _ => (Keeps.throw _).bind fun _ => ?_) fun _ => ?_
  all_goals
    refine (Keeps.of_readOnly (readOnly_isOccupied _)).bind fun found => ?_
    refine Keeps.ite (fun _ => (Keeps.of_readOnly (readOnly_readText _)).bind fun _ =>
      (Keeps.pure _).bind fun triple => ?_) fun _ => (Keeps.pure _).bind fun triple => ?_
  -- the answer may be missing, whether or not there was a result to read
  all_goals
    cases triple with
    | some triple => exact Keeps.pure _
    | none => exact Keeps.throw _

omit hcontained hprobe in
theorem frames_jobCount (environment : List (String × String)) (asked : Setting Int) :
    Keeps around (Frames workdir touched) (jobCount environment asked) := by
  have hread : ReadOnly (read : Action Surroundings) := fun _ _ => rfl
  unfold jobCount
  refine (Keeps.of_readOnly hread).bind fun surroundings => ?_
  split
  · exact Keeps.pure _
  · exact Keeps.throw _
  · split
    · exact Keeps.pure _
    · split
      · exact Keeps.pure _
      · exact (Keeps.note fun _ => .of_tree_eq rfl).bind fun _ => Keeps.pure _

/-- Settling the plan of a build in a work directory touches only the files of the probe, however it
ends. -/
theorem frames_settle (o : Builder) (order : Order)
    (hnames : ∀ s ∈ around.directory, isEntryName s = true)
    (hgoal : goalOf around.directory order.workdir = goalOf [] workdir) :
    Keeps around (Frames workdir touched) (settle o order) := by
  intro w
  obtain ⟨dir, habsolute, hdir, hsame⟩ := exists_absolute (w := w) hnames order.workdir
  unfold settle
  rw [perform_bind_ok habsolute]
  refine (frames_makeDirectories hdir).bind (fun _ => ?_) w
  refine (Keeps.of_readOnly (Compiler.readOnly_findArchive _)).bind fun archive => ?_
  refine (Keeps.of_readOnly (Compiler.Finder.readOnly_locate _ _ _)).bind fun clang => ?_
  refine (Keeps.of_readOnly (Compiler.Finder.readOnly_locate _ _ _)).bind fun clangpp => ?_
  refine (frames_detectTarget hcontained hprobe hdir (hsame.trans hgoal) clang).bind
    fun target => ?_
  refine Keeps.bind ((frames_platformDirectories hcontained _).bind fun _ => Keeps.pure _)
    fun compileFlags => ?_
  refine Keeps.bind ((frames_platformDirectories hcontained _).bind fun _ => Keeps.pure _)
    fun linkFlags => ?_
  have hread : ReadOnly (read : Action Surroundings) := fun _ _ => rfl
  refine (Keeps.of_readOnly hread).bind fun surroundings => ?_
  refine (frames_jobCount _ _).bind fun jobs => ?_
  refine Keeps.ite (fun _ => ?_) fun _ => Keeps.pure _
  exact (Keeps.forM fun _ _ => Keeps.note fun _ => .of_tree_eq rfl).bind fun _ => Keeps.pure _

end Settle

end Build

end StagedBuild
