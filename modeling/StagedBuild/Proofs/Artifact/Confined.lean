import StagedBuild.Artifact.PublishedTool
import StagedBuild.Proofs.Artifact.Caching
import StagedBuild.Proofs.Artifact.Placeholders

/-!
Where looking a file up puts files. All that a download writes is where the file is kept, or beside
it. This is in the cache if the parts of the coordinate lead down from there; nothing keeps them
from leading elsewhere.
-/

namespace StagedBuild

namespace Disk

open Action FileTree

variable {u v w w' : World} {touched places more : Location → Prop}

/-- From one world to another, files get new contents in certain places only. -/
def WritesWithin (places : Location → Prop) (w w' : World) : Prop :=
  ∀ q file, w'.tree.node? q = some (.file file) →
    w.tree.node? q = some (.file file) ∨ places q

instance : Passage (WritesWithin places) where
  refl _ := fun _ _ h => .inl h
  trans := by
    intro u v w huv hvw q file hfile
    rcases hvw q file hfile with hfile | hplace
    · exact huv q file hfile
    · exact .inr hplace

theorem AddsOutside.writesWithin (h : AddsOutside touched places w w')
    (hmore : ∀ q file, touched q → w'.tree.node? q = some (.file file) → more q) :
    WritesWithin more w w' := by
  intro q file hfile
  by_cases htouched : touched q
  · exact .inr (hmore q file htouched hfile)
  · rcases h q htouched with heq | ⟨-, -, hdir⟩
    · exact .inl (heq ▸ hfile)
    · rw [hdir] at hfile
      cases hfile

end Disk

namespace Artifact

open Action Disk FileTree Transfer

variable {around : Surroundings} {u v w w' : World} {f : Resolver} {c : Coordinate}
  {extension url : String} {p : Path} {cwd : Location}

/-- The way to a file of an artifact, as it is written, leads down from the directory of a
repository. -/
def IsConfined (c : Coordinate) (extension : String) : Prop :=
  LeadsDown (.parse (c.relativePath extension))

instance (c : Coordinate) (extension : String) : Decidable (IsConfined c extension) :=
  inferInstanceAs (Decidable (LeadsDown _))

theorem steps_relativePath_ne (c : Coordinate) (extension : String) :
    (Path.parse (c.relativePath extension)).steps ≠ [] := by
  obtain ⟨step, hstep, -⟩ := Path.exists_step_parse (s := c.relativePath extension) (x := '-')
    (by simp [Coordinate.relativePath]) (by decide) (by decide)
  exact List.ne_nil_of_mem hstep

section Place

variable (h : IsConfined c extension) (base : Path)

include h

theorem goalOf_place_confined (cwd : Location) : goalOf cwd (base / c.relativePath extension) =
    goalOf cwd base ++ (Path.parse (c.relativePath extension)).collapsed.steps :=
  goalOf_join_down h cwd

theorem mem_passedBy_place {q : Location} : q ∈ passedBy cwd (base / c.relativePath extension) ↔
    q ∈ passedBy cwd base ∨
      q ∈ passed (goalOf cwd base) (Path.parse (c.relativePath extension)).steps := by
  change q ∈ passedBy cwd (base.join (.parse (c.relativePath extension))) ↔ _
  rw [passedBy_join h.1, List.mem_append]

theorem goalOf_mem_passedBy_place (cwd : Location) :
    goalOf cwd base ∈ passedBy cwd (base / c.relativePath extension) := by
  obtain ⟨step, rest, hsteps⟩ := List.exists_cons_of_ne_nil (steps_relativePath_ne c extension)
  refine (mem_passedBy_place h base).2 (.inr ?_)
  rw [hsteps, passed]
  exact List.mem_cons_self

end Place

/-- A location is below the directory in which files from the web are kept. -/
def InCache (cwd : Location) (f : Resolver) (q : Location) : Prop :=
  ∃ way, way ≠ [] ∧ q = cacheRoot cwd f.cache ++ way

/-- A download that fails touches the temporary file only, or it has made way for a file: then
nothing is where this is kept, or it can be read there. -/
theorem left_of_fetch {fault : Fault}
    (h : perform (fetch f c extension url) around w = (.error fault, w')) :
    AddsOutside
        (· = goalOf around.directory (temporaryFor (cachePath f (c.relativePath extension))))
        (OnTheWay around.directory (cachePath f (c.relativePath extension)).parent) w w' ∨
      AddsOutside
        (fun q => q = goalOf around.directory (cachePath f (c.relativePath extension)) ∨
          q = goalOf around.directory (temporaryFor (cachePath f (c.relativePath extension))))
        (OnTheWay around.directory (cachePath f (c.relativePath extension)).parent) w w' ∧
      (w'.tree.node? (goalOf around.directory (cachePath f (c.relativePath extension))) = none ∨
        Readable (cachePath f (c.relativePath extension)) w'.tree around.directory) := by
  unfold fetch at h
  rcases left_of_download (name_cachePath_ne f c extension) h with
    ⟨hothers, -⟩ | ⟨-, v, hmake, hexposed⟩
  · exact .inl hothers
  · have hadded := adds_makeDirectories around (cachePath f (c.relativePath extension)).parent w
    rw [hmake] at hadded
    refine .inr ⟨(AddsOutside.of_added hadded).trans hexposed.others, hexposed.left.imp_right ?_⟩
    exact fun ⟨_, hbrought⟩ => ⟨_, hbrought.bytes⟩

section Confined

variable (h : IsConfined c extension)

include h

theorem goalOf_kept (cwd : Location) : goalOf cwd (cachePath f (c.relativePath extension)) =
    cacheRoot cwd f.cache ++ (Path.parse (c.relativePath extension)).collapsed.steps :=
  goalOf_place_confined h (f.cache / "maven") cwd

theorem inCache_temporary (cwd : Location) :
    InCache cwd f (goalOf cwd (temporaryFor (cachePath f (c.relativePath extension)))) := by
  have hparent : (cachePath f (c.relativePath extension)).parent =
      (f.cache / "maven").join (Path.parse (c.relativePath extension)).parent := by
    rw [cachePath]
    exact @parent_join (.parse (c.relativePath extension)) (f.cache / "maven") h.1
      (steps_relativePath_ne c extension)
  rw [goalOf_temporaryFor (name_cachePath_ne f c extension), hparent, goalOf_join_down h.parent,
    List.append_assoc]
  exact ⟨_, by simp, rfl⟩

theorem inCache_of_readable
    (hread : Readable (cachePath f (c.relativePath extension)) w.tree cwd) :
    InCache cwd f (goalOf cwd (cachePath f (c.relativePath extension))) := by
  refine ⟨_, fun hnil => ?_, goalOf_kept h cwd⟩
  obtain ⟨-, hlocate, hfile⟩ := readable_iff.1 hread
  have hroot : cacheRoot cwd f.cache ∈ passedBy cwd (cachePath f (c.relativePath extension)) :=
    goalOf_mem_passedBy_place h (f.cache / "maven") cwd
  have hdir := (locate_eq_ok_iff.1 hlocate).2.2.1 _ hroot
  have hgoal := goalOf_kept (f := f) h cwd
  rw [hnil, List.append_nil] at hgoal
  rw [hgoal] at hfile
  exact not_isFile_of_isDirectory hdir hfile

theorem writesWithin_fetch (url : String) :
    Keeps around (WritesWithin (InCache around.directory f)) (fetch f c extension url) := by
  intro w
  rcases hfetch : perform (fetch f c extension url) around w with ⟨fault | p, w'⟩
  · rcases left_of_fetch hfetch with hothers | ⟨hothers, hleft⟩
    · refine hothers.writesWithin fun q _ htouched _ => ?_
      rw [htouched]
      exact inCache_temporary h _
    · refine hothers.writesWithin fun q file htouched hfile => ?_
      rcases htouched with hq | hq
      · rw [hq] at hfile ⊢
        rcases hleft with hnone | hread
        · rw [hnone] at hfile
          cases hfile
        · exact inCache_of_readable h hread
      · exact hq ▸ inCache_temporary h _
  · have hplaced := (placed_of_fetch hfetch).2
    refine hplaced.others.writesWithin fun q _ htouched _ => ?_
    rcases htouched with hq | hq
    · exact hq ▸ inCache_of_readable h hplaced.readable
    · exact hq ▸ inCache_temporary h _

end Confined

theorem adds_fetch (f : Resolver) (c : Coordinate) (extension url : String) :
    Keeps around (AddsOutside
      (fun q => q = goalOf around.directory (cachePath f (c.relativePath extension)) ∨
        q = goalOf around.directory (temporaryFor (cachePath f (c.relativePath extension))))
      (OnTheWay around.directory (cachePath f (c.relativePath extension)).parent))
      (fetch f c extension url) := by
  intro w
  rcases hfetch : perform (fetch f c extension url) around w with ⟨fault | p, w'⟩
  · rcases left_of_fetch hfetch with hothers | ⟨hothers, -⟩
    · exact hothers.mono fun _ => .inr
    · exact hothers
  · exact (placed_of_fetch hfetch).2.others

theorem file_of_readable (h : Readable p w.tree cwd) :
    ∃ file, w.tree.node? (goalOf cwd p) = some (.file file) :=
  isFile_iff.1 (readable_iff.1 h).2.2

/-- Looking a file up touches only where it is kept and the temporary file beside it, up to new
directories on the way there. If the way to the file leads down, all that is written is below the
directory of the cache. Wherever it leads, a download that returns has put a file there. -/
theorem obtain_writes_where_kept (f : Resolver) (c : Coordinate) (extension : String)
    (around : Surroundings) (w : World) :
    AddsOutside
      (fun q => q = goalOf around.directory (cachePath f (c.relativePath extension)) ∨
        q = goalOf around.directory (temporaryFor (cachePath f (c.relativePath extension))))
      (OnTheWay around.directory (cachePath f (c.relativePath extension)).parent) w
      (perform (obtain f c extension) around w).2 ∧
    (IsConfined c extension → WritesWithin (InCache around.directory f) w
      (perform (obtain f c extension) around w).2) ∧
    ∀ url u u' p, perform (fetch f c extension url) around u = (.ok p, u') →
      p = cachePath f (c.relativePath extension) ∧
        ∃ file, u'.tree.node? (goalOf around.directory p) = some (.file file) := by
  refine ⟨keeps_obtain (adds_fetch f c extension) w,
    fun h => keeps_obtain (writesWithin_fetch h) w, fun url u u' p hfetch => ?_⟩
  obtain ⟨hp, hplaced⟩ := placed_of_fetch hfetch
  exact ⟨hp, hp ▸ file_of_readable hplaced.readable⟩

section Written

theorem plain_jar_is_written_in_cache : IsConfined ⟨"o", "n", "1"⟩ "jar" ∧ ∃ w',
    perform (obtain resolverOfWeb ⟨"o", "n", "1"⟩ "jar") aroundServingJar (.ofTree .empty) =
        (.ok (.parse "/c/maven/o/n/1/n-1.jar"), w') ∧
      w'.tree.node? ["c", "maven", "o", "n", "1", "n-1.jar"] =
        some (.file ⟨[80, 75, 5], false⟩) ∧
      WritesWithin (InCache [] resolverOfWeb) (.ofTree .empty) w' := by
  have hconfined : IsConfined ⟨"o", "n", "1"⟩ "jar" := by decide +kernel
  have hobtain : perform (obtain resolverOfWeb ⟨"o", "n", "1"⟩ "jar") aroundServingJar
      (.ofTree .empty) = (.ok (.parse "/c/maven/o/n/1/n-1.jar"), _) :=
    Prod.ext (by decide +kernel) rfl
  obtain ⟨-, hwrites, -⟩ := obtain_writes_where_kept resolverOfWeb ⟨"o", "n", "1"⟩ "jar"
    aroundServingJar (.ofTree .empty)
  exact ⟨hconfined, _, hobtain, by decide +kernel, hwrites hconfined⟩

/-- A manifest that leaves its publisher empty. -/
def manifestWithoutOrg : String :=
  "name=t\norg=\nartifact=a\nversion=1\nmain=m\nnativeVersion=0.3\nscalaVersion=2.11\n"

/-- A description can give a version that leads out of the cache, and a manifest a publisher that
leads to the root. -/
theorem files_are_written_beside_cache :
    ((perform (Pom.dependencies (projectWith "o" "../../../x") ⟨"o", "p", "3"⟩) (.still [])
        (.ofTree .empty)).1 = .ok [⟨"o", "a", "../../../x"⟩] ∧
      (perform (obtain resolverOfWeb ⟨"o", "a", "../../../x"⟩ "jar") aroundServingJar
        (.ofTree .empty)).2.tree.node? ["c", "x.jar"] = some (.file ⟨[80, 75, 5], false⟩) ∧
      ¬ cacheRoot [] resolverOfWeb.cache <+: ["c", "x.jar"]) ∧
    (PublishedTool.load manifestWithoutOrg "s").map PublishedTool.coordinate =
        .ok ⟨"", "a_native0.3_2.11", "1"⟩ ∧
      (perform (obtain resolverOfWeb ⟨"", "a_native0.3_2.11", "1"⟩ "jar") aroundServingJar
        (.ofTree .empty)).2.tree.node? ["a_native0.3_2.11", "1", "a_native0.3_2.11-1.jar"] =
          some (.file ⟨[80, 75, 5], false⟩) ∧
      ¬ cacheRoot [] resolverOfWeb.cache <+:
        ["a_native0.3_2.11", "1", "a_native0.3_2.11-1.jar"] := by
  refine ⟨⟨?_, ?_, ?_⟩, ?_, ?_, ?_⟩ <;> decide +kernel

end Written

end Artifact

end StagedBuild
