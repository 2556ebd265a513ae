import StagedBuild.Artifact.Resolver
import StagedBuild.Proofs.Transfer.Temporary

/-!
The places in the cache that artifacts stand for. The way to a file from the directory of the cache
shows the coordinate and the extension, and no file stands where another one is downloaded to.
-/

namespace StagedBuild

namespace Text

variable {α : Type} [DecidableEq α]

theorem intercalate_cut_replace (sep new : α) (xs : List α) :
    List.intercalate [new] (cut sep xs) = xs.map fun x => if x = sep then new else x := by
  induction xs with
  | nil => rfl
  | cons x xs ih =>
      obtain ⟨piece, rest, h⟩ := List.exists_cons_of_ne_nil (cut_ne_nil sep xs)
      rw [cut, List.map_cons, ← ih, h]
      split
      · rw [List.intercalate_cons_cons]
        rfl
      · cases rest with
        | nil => simp
        | cons next rest =>
            rw [List.intercalate_cons_cons, List.intercalate_cons_cons]
            rfl

theorem mem_of_mem_cut {sep x : α} {xs piece : List α} (h : piece ∈ cut sep xs) (hx : x ∈ piece) :
    x ∈ xs := by
  rw [← intercalate_cut sep xs]
  exact mem_intercalate h hx

end Text

/-- A text that can be a name in a path: it is a step that does not go up. -/
def IsName (s : String) : Prop :=
  isStep s = true ∧ s ≠ ".."

instance (s : String) : Decidable (IsName s) :=
  inferInstanceAs (Decidable (_ ∧ _))

namespace Coordinate

open Transfer

variable {c c' : Coordinate} {extension extension' : String}

def segments (c : Coordinate) : List String :=
  Text.pieces '.' c.org

/-- The name of a file of the artifact. -/
def fileName (c : Coordinate) (extension : String) : String :=
  c.name ++ "-" ++ c.version ++ "." ++ extension

/-- The way to a file of the artifact from the directory of a repository. -/
def way (c : Coordinate) (extension : String) : Location :=
  c.segments ++ [c.name, c.version, c.fileName extension]

/-- The way to what a download of the file leaves behind when it is interrupted. -/
def leftoverWay (c : Coordinate) (extension : String) : Location :=
  c.segments ++ [c.name, c.version, temporaryName (c.fileName extension)]

/-- A coordinate whose parts are names: the publisher is written as segments with dots between
them. -/
structure IsPlain (c : Coordinate) : Prop where
  segments : ∀ s ∈ c.segments, s ≠ ""
  org : '/' ∉ c.org.toList
  name : IsName c.name
  version : IsName c.version

/-- An extension that keeps files of the artifact apart from temporary files, and in the directory
of the artifact. -/
structure IsPlainExtension (extension : String) : Prop where
  slash : '/' ∉ extension.toList
  temporary : ¬ ['.', 't', 'm', 'p'] <:+ extension.toList

theorem isName_segments (h : c.IsPlain) : ∀ s ∈ c.segments, IsName s := by
  intro s hs
  obtain ⟨piece, hpiece, rfl⟩ := List.mem_map.1 hs
  have hdot : '.' ∉ piece := Text.not_mem_of_mem_cut hpiece
  refine ⟨isStep_iff.2 ⟨h.segments _ hs, fun heq => ?_, fun hslash => ?_⟩, fun heq => ?_⟩
  · have := congrArg String.toList heq
    simp [String.toList_ofList] at this
    exact hdot (by simp [this])
  · rw [String.toList_ofList] at hslash
    exact h.org (Text.mem_of_mem_cut hpiece hslash)
  · have := congrArg String.toList heq
    simp [String.toList_ofList] at this
    exact hdot (by simp [this])

theorem toList_fileName (c : Coordinate) (extension : String) :
    (c.fileName extension).toList =
      c.name.toList ++ '-' :: (c.version.toList ++ '.' :: extension.toList) := by
  simp [fileName]

theorem isName_fileName (h : c.IsPlain) (hslash : '/' ∉ extension.toList) :
    IsName (c.fileName extension) := by
  -- a hyphen stands neither in a dot nor in two
  have hne : ∀ s : String, '-' ∉ s.toList → c.fileName extension ≠ s := by
    rintro s hs rfl
    exact hs (by rw [toList_fileName]; simp)
  have hname := (isStep_iff.1 h.name.1).2.2
  have hversion := (isStep_iff.1 h.version.1).2.2
  refine ⟨isStep_iff.2 ⟨hne _ (by decide), hne _ (by decide), ?_⟩, hne _ (by decide)⟩
  rw [toList_fileName]
  simp [hname, hversion, hslash]

theorem isName_way (h : c.IsPlain) (hslash : '/' ∉ extension.toList) :
    ∀ s ∈ c.way extension, IsName s := by
  intro s hs
  rcases List.mem_append.1 hs with hs | hs
  · exact isName_segments h s hs
  · simp only [List.mem_cons, List.not_mem_nil, or_false] at hs
    rcases hs with rfl | rfl | rfl
    · exact h.name
    · exact h.version
    · exact isName_fileName h hslash

theorem way_ne_nil (c : Coordinate) (extension : String) : c.way extension ≠ [] := by
  simp [way]

theorem append_way (front : Location) (c : Coordinate) (extension : String) :
    front ++ c.way extension =
      (front ++ c.segments) ++ [c.name, c.version, c.fileName extension] := by
  rw [way, List.append_assoc]

theorem append_leftoverWay (front : Location) (c : Coordinate) (extension : String) :
    front ++ c.leftoverWay extension =
      (front ++ c.segments) ++ [c.name, c.version, temporaryName (c.fileName extension)] := by
  rw [leftoverWay, List.append_assoc]

theorem relativePath_eq (c : Coordinate) (extension : String) :
    c.relativePath extension = Path.wayText (c.way extension) := by
  have horg : c.orgPath.toList = List.intercalate ['/'] (c.segments.map String.toList) := by
    rw [orgPath, String.toList_ofList, ← Text.intercalate_cut_replace, segments, Text.pieces,
      List.map_map]
    simp [Function.comp_def]
  have hne : c.segments.map String.toList ≠ [] := by
    simp [segments, Text.pieces, Text.cut_ne_nil]
  rw [← String.toList_inj, Path.wayText, Path.steps_joined, way, List.map_append,
    intercalate_append_of_ne_nil _ hne (by simp), ← horg]
  simp [relativePath, fileName]

theorem org_eq_of_segments (h : c.segments = c'.segments) : c.org = c'.org := by
  have hcut := congrArg (List.map String.toList) h
  simp only [segments, Text.pieces, List.map_map, Function.comp_def, String.toList_ofList,
    List.map_id'] at hcut
  rw [← String.toList_inj, ← Text.intercalate_cut '.' c.org.toList, hcut, Text.intercalate_cut]

theorem fileName_injective (hname : c.name = c'.name) (hversion : c.version = c'.version)
    (h : (c.fileName extension).toList = (c'.fileName extension').toList) :
    extension.toList = extension'.toList := by
  rw [toList_fileName, toList_fileName, hname, hversion] at h
  simpa using h

theorem way_injective (h : c.way extension = c'.way extension') :
    c = c' ∧ extension = extension' := by
  obtain ⟨hsegments, hrest⟩ := List.append_inj' h rfl
  simp only [List.cons.injEq, and_true] at hrest
  obtain ⟨hname, hversion, hfile⟩ := hrest
  refine ⟨?_, String.toList_inj.1
    (fileName_injective hname hversion (congrArg String.toList hfile))⟩
  cases c
  cases c'
  simp only [mk.injEq]
  exact ⟨org_eq_of_segments hsegments, hname, hversion⟩

theorem not_leftover (hextension : IsPlainExtension extension) (front front' : Location) :
    front ++ [c.name, c.version, c.fileName extension] ≠
      front' ++ [c'.name, c'.version, temporaryName (c'.fileName extension')] := by
  intro heq
  have hrest := List.append_inj_right' heq rfl
  simp only [List.cons.injEq, and_true] at hrest
  obtain ⟨hname, hversion, hfile⟩ := hrest
  have hfile' : (c.fileName extension).toList =
      (c'.fileName (temporaryName extension')).toList := by
    rw [hfile, toList_temporaryName, toList_fileName, toList_fileName, toList_temporaryName]
    simp
  have hextensions := fileName_injective hname hversion hfile'
  rw [toList_temporaryName] at hextensions
  exact hextension.temporary ⟨_, hextensions.symm⟩

end Coordinate

namespace Artifact

open FileTree Transfer

variable {c : Coordinate} {extension : String} {f : Resolver}

/-- The directory in which files from the web are kept. -/
def cacheRoot (cwd : Location) (cache : Path) : Location :=
  goalOf cwd (cache / "maven")

/-- Wherever a file of an artifact is looked for, the hyphen of its name stands in a step of the
path. -/
theorem name_place_ne (p : Path) (c : Coordinate) (extension : String) :
    (p / c.relativePath extension).name ≠ "" := by
  obtain ⟨step, hstep, -⟩ := Path.exists_step_parse (s := c.relativePath extension) (x := '-')
    (by simp [Coordinate.relativePath]) (by decide) (by decide)
  exact Path.name_ne_of_mem_steps (Path.mem_steps_join hstep)

theorem name_cachePath_ne (f : Resolver) (c : Coordinate) (extension : String) :
    (cachePath f (c.relativePath extension)).name ≠ "" :=
  name_place_ne _ c extension

section

variable (h : c.IsPlain) (hslash : '/' ∉ extension.toList)

include h hslash

theorem cachePath_eq :
    cachePath f (c.relativePath extension) = (f.cache / "maven").descend (c.way extension) := by
  rw [cachePath, Coordinate.relativePath_eq]
  exact Path.div_wayText _ (fun s hs => (c.isName_way h hslash s hs).1) (c.way_ne_nil extension)

theorem name_cachePath : (cachePath f (c.relativePath extension)).name = c.fileName extension := by
  rw [cachePath_eq h hslash, Path.name_descend _ (fun s hs => (c.isName_way h hslash s hs).1)
    (c.way_ne_nil extension)]
  simp [Coordinate.way]

theorem goalOf_place (cwd : Location) (p : Path) :
    goalOf cwd (p / c.relativePath extension) = goalOf cwd p ++ c.way extension := by
  have hnames := c.isName_way h hslash
  rw [Coordinate.relativePath_eq, Path.div_wayText _ (fun s hs => (hnames s hs).1)
    (c.way_ne_nil extension)]
  exact goalOf_descend_plain cwd p (fun s hs => (hnames s hs).1) fun hup => (hnames _ hup).2 rfl

theorem goalOf_cachePath (cwd : Location) :
    goalOf cwd (cachePath f (c.relativePath extension)) =
      cacheRoot cwd f.cache ++ c.way extension :=
  goalOf_place h hslash cwd _

theorem goalOf_temporary_cachePath (cwd : Location) :
    goalOf cwd (temporaryFor (cachePath f (c.relativePath extension))) =
      cacheRoot cwd f.cache ++ c.leftoverWay extension := by
  have hne := name_cachePath_ne f c extension
  have hname := Coordinate.isName_fileName h hslash
  have hgoal := goalOf_destination hne cwd
  rw [goalOf_cachePath h hslash, name_cachePath h hslash, stepFrom, if_neg hname.2,
    Coordinate.way] at hgoal
  have habove : (cacheRoot cwd f.cache ++ c.segments ++ [c.name, c.version]) ++
      [c.fileName extension] = goalOf cwd (cachePath f (c.relativePath extension)).parent ++
        [c.fileName extension] := by
    simpa using hgoal
  rw [goalOf_temporaryFor hne, name_cachePath h hslash, ← List.append_cancel_right habove,
    Coordinate.leftoverWay]
  simp

end

end Artifact

end StagedBuild
