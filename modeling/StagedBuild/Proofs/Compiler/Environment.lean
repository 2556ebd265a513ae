import StagedBuild.Proofs.Compiler.Search

/-!
How far looking for a binary depends on the environment of the process. A finder is given the
variables that count. The process is asked for one thing only, its search path, and only where the
finder has none and has to look names up.
-/

namespace StagedBuild

/-- The same surroundings with another environment of the process. -/
def Surroundings.inEnvironment (around : Surroundings) (process : List (String × String)) :
    Surroundings :=
  { around with environment := process }

namespace Compiler

/-- The search path of a process with these variables. -/
def processPath (process : List (String × String)) : String :=
  (process.lookup "PATH").getD standardSearchPath

theorem overrideVariable_ne_path (binary : String) : overrideVariable binary ≠ "PATH" := by
  intro h
  have hlength := congrArg String.length h
  rw [overrideVariable, String.length_append] at hlength
  have hsuffix : "_PATH".length = 5 := by decide
  have hpath : "PATH".length = 4 := by decide
  omega

namespace Finder

open Action

variable {d other : Finder} {around around' : Surroundings} {t : FileTree} {w : World}
  {binary : String} {versions : List Version}

/-- A finder that looks names up in the search path. -/
def searching (environment : List (String × String)) : Finder :=
  ⟨environment, none⟩

/-- The first of some names that a finder's lookup gives something for, and what it gives. -/
def found? (d : Finder) (around : Surroundings) (t : FileTree) (names : List String) :
    Option String :=
  names.findSome? fun name => (d.answer around t name).filter (· ≠ "")

theorem perform_firstFound (d : Finder) (names : List String) (around : Surroundings) (w : World) :
    perform (d.firstFound names) around w = (.ok (d.found? around w.tree names), w) := by
  induction names with
  | nil => rfl
  | cons name rest ih =>
      rw [firstFound, perform_bind_ok (perform_find d name around w), found?, List.findSome?_cons]
      cases d.answer around w.tree name with
      | none => exact ih
      | some location =>
          by_cases hlocation : location = ""
          · subst hlocation
            exact ih
          · simp [Option.filter, hlocation]

theorem perform_locate (d : Finder) (binary : String) (versions : List Version)
    (around : Surroundings) (w : World) :
    perform (d.locate binary versions) around w =
      (match d.override? binary with
        | some location => .ok (Path.parse location)
        | none => located (namesToTry binary versions)
            (d.found? around w.tree (namesToTry binary versions)), w) := by
  rw [locate]
  cases d.override? binary with
  | some location => rfl
  | none =>
      dsimp only
      rw [perform_bind_ok (perform_firstFound d _ around w)]
      cases d.found? around w.tree (namesToTry binary versions) <;> rfl

theorem perform_locate_congr (hlookup : d.lookup = none) (hother : other.lookup = none)
    (hoverride : d.override? binary = other.override? binary)
    (hdirectory : around.directory = around'.directory)
    (hpath : d.override? binary = none → d.searchPath around = other.searchPath around') :
    perform (d.locate binary versions) around w =
      perform (other.locate binary versions) around' w := by
  rw [perform_locate, perform_locate, ← hoverride]
  cases hunset : d.override? binary with
  | some location => rfl
  | none =>
      have hanswer : d.answer around w.tree = other.answer around' w.tree := by
        funext name
        simp only [answer, hlookup, hother, hdirectory, hpath hunset]
      simp only [found?, hanswer]

theorem override?_cons_path (environment : List (String × String)) (path binary : String) :
    (searching (("PATH", path) :: environment)).override? binary =
      (searching environment).override? binary := by
  have hne : (overrideVariable binary == "PATH") = false := by
    simpa using overrideVariable_ne_path binary
  simp [override?, searching, List.lookup_cons, hne]

theorem located_none_eq_iff {names : List String} {found : Option String} :
    located names none = located names found ↔ found = none := by
  cases found <;> simp [located]

theorem misses_search_iff {path name : String} :
    Misses (search path) around w name ↔
      (searched w.tree around.directory path name).getD "" = "" := by
  constructor
  · rintro ⟨answer, hanswer, hempty⟩
    rw [perform_search] at hanswer
    cases hanswer
    exact hempty
  · intro hempty
    exact ⟨_, perform_search path name around w, hempty⟩

theorem found?_eq_none_iff {names : List String} (hlookup : d.lookup = none) :
    d.found? around t names = none ↔
      ∀ name ∈ names, (searched t around.directory (d.searchPath around) name).getD "" = "" := by
  rw [found?, List.findSome?_eq_none_iff]
  refine forall_congr' fun name => forall_congr' fun _ => ?_
  rw [answer, hlookup]
  dsimp only
  cases searched t around.directory (d.searchPath around) name with
  | none => simp
  | some location => simp [Option.filter_eq_none_iff]

theorem searched_empty {cwd : Location} {name : String} (hslash : '/' ∉ name.toList) :
    searched t cwd "" name = none := by
  rw [searched, if_neg (by simpa using hslash), if_pos rfl]

theorem searchPath_searching {environment process : List (String × String)}
    (hpath : environment.lookup "PATH" = none) :
    (searching environment).searchPath (around.inEnvironment process) = processPath process := by
  change (environment.lookup "PATH").getD _ = _
  rw [hpath]
  rfl

section Processes

variable {environment : List (String × String)}

/-- Processes with one search path lead to one outcome, and so do all processes if the finder has an
override or a search path of its own. -/
theorem locate_in_processes {process other : List (String × String)}
    (h : (searching environment).override? binary ≠ none ∨ environment.lookup "PATH" ≠ none ∨
      processPath process = processPath other) :
    perform ((searching environment).locate binary versions) (around.inEnvironment process) w =
      perform ((searching environment).locate binary versions)
        (around.inEnvironment other) w := by
  refine perform_locate_congr rfl rfl rfl rfl fun hunset => ?_
  change (environment.lookup "PATH").getD (processPath process) =
    (environment.lookup "PATH").getD (processPath other)
  rcases h with hset | hpath | hpath
  · exact absurd hunset hset
  · obtain ⟨path, hpath⟩ := Option.ne_none_iff_exists'.1 hpath
    rw [hpath]
    rfl
  · rw [hpath]

theorem locate_of_misses (hmisses : ∀ name ∈ namesToTry binary versions, ∀ path,
      Misses (search path) around w name) (process other : List (String × String)) :
    perform ((searching environment).locate binary versions) (around.inEnvironment process) w =
      perform ((searching environment).locate binary versions)
        (around.inEnvironment other) w := by
  have hnone : ∀ e, (searching environment).found? (around.inEnvironment e) w.tree
      (namesToTry binary versions) = none := by
    intro e
    rw [found?_eq_none_iff rfl]
    intro name hname
    have hmiss := misses_search_iff.1 (hmisses name hname
      ((searching environment).searchPath (around.inEnvironment e)))
    exact hmiss
  rw [perform_locate, perform_locate, hnone, hnone]

/-- A finder that goes by the search path of the process, and to which the process makes no
difference, finds nothing in any search path. -/
theorem misses_of_same (hunset : (searching environment).override? binary = none)
    (hpath : environment.lookup "PATH" = none)
    (hslash : ∀ name ∈ namesToTry binary versions, '/' ∉ name.toList)
    (hsame : ∀ process other,
      perform ((searching environment).locate binary versions) (around.inEnvironment process) w =
        perform ((searching environment).locate binary versions)
          (around.inEnvironment other) w) :
    ∀ name ∈ namesToTry binary versions, ∀ path, Misses (search path) around w name := by
  intro name hname path
  -- a process without directories to search finds nothing, so none finds anything
  have hnothing : (searching environment).found? (around.inEnvironment [("PATH", "")]) w.tree
      (namesToTry binary versions) = none := by
    rw [found?_eq_none_iff rfl, searchPath_searching hpath]
    intro other hother
    rw [show processPath [("PATH", "")] = "" from rfl, searched_empty (hslash other hother)]
    rfl
  have heq := hsame [("PATH", "")] [("PATH", path)]
  rw [perform_locate, perform_locate, hunset, hnothing, Prod.mk.injEq,
    located_none_eq_iff, found?_eq_none_iff rfl, searchPath_searching hpath] at heq
  exact misses_search_iff.2 (heq.1 name hname)

end Processes

/-- All that locating a binary takes from the environment of the process is the search path, and
that only if the finder has neither an override nor a search path of its own. It is then as if the
finder had been given the search path of the process. So the environment makes a difference exactly
when a search path could lead to one of the names. -/
theorem locate_depends_on_process_path (environment : List (String × String)) (binary : String)
    (versions : List Version) (around : Surroundings) (w : World) :
    (∀ process other,
      ((searching environment).override? binary ≠ none ∨ environment.lookup "PATH" ≠ none ∨
        processPath process = processPath other) →
      perform ((searching environment).locate binary versions) (around.inEnvironment process) w =
        perform ((searching environment).locate binary versions) (around.inEnvironment other) w) ∧
    (environment.lookup "PATH" = none → ∀ process other,
      perform ((searching environment).locate binary versions) (around.inEnvironment process) w =
        perform ((searching (("PATH", processPath process) :: environment)).locate binary versions)
          (around.inEnvironment other) w) ∧
    ((∀ name ∈ namesToTry binary versions, '/' ∉ name.toList) →
      ((∀ process other,
        perform ((searching environment).locate binary versions) (around.inEnvironment process) w =
          perform ((searching environment).locate binary versions)
            (around.inEnvironment other) w) ↔
        ((searching environment).override? binary ≠ none ∨ environment.lookup "PATH" ≠ none ∨
          ∀ name ∈ namesToTry binary versions, ∀ path, Misses (search path) around w name))) := by
  refine ⟨fun process other => locate_in_processes, ?_, fun hslash => ⟨?_, ?_⟩⟩
  · intro hpath process other
    refine perform_locate_congr rfl rfl (override?_cons_path environment _ binary).symm rfl
      fun _ => ?_
    change (environment.lookup "PATH").getD (processPath process) = _
    rw [hpath]
    rfl
  · intro hsame
    rw [or_iff_not_imp_left, or_iff_not_imp_left]
    intro hunset hpath
    exact misses_of_same (not_not.1 hunset) (not_not.1 hpath) hslash hsame
  · rintro (hset | hpath | hmisses) process other
    · exact locate_in_processes (.inl hset)
    · exact locate_in_processes (.inr (.inl hpath))
    · exact locate_of_misses hmisses process other

/-- A disk with a compiler in one directory. -/
def diskWithCompiler : FileTree :=
  (FileTree.empty.add ["bin"] .directory).add ["bin", "clang"] (.file ⟨[], true⟩)

/-- A finder that is given a search path does not ask the process for one. -/
theorem given_path_counts_in_every_process :
    (perform ((searching [("PATH", "/bin")]).locate "clang" compilerVersions)
        ((Surroundings.still []).inEnvironment []) (.ofTree diskWithCompiler)).1 =
          .ok (Path.parse "/bin/clang") ∧
      ∀ process other,
        perform ((searching [("PATH", "/bin")]).locate "clang" compilerVersions)
            ((Surroundings.still []).inEnvironment process) (.ofTree diskWithCompiler) =
          perform ((searching [("PATH", "/bin")]).locate "clang" compilerVersions)
            ((Surroundings.still []).inEnvironment other) (.ofTree diskWithCompiler) := by
  constructor
  · decide +kernel
  · have hslash : ∀ name ∈ namesToTry "clang" compilerVersions, '/' ∉ name.toList := by
      decide +kernel
    refine ((locate_depends_on_process_path [("PATH", "/bin")] "clang" compilerVersions
      (.still []) (.ofTree diskWithCompiler)).2.2 hslash).2 (.inr (.inl ?_))
    decide

/-- A finder that is given nothing finds the compiler of one process and none for another. -/
theorem process_path_leads_to_compiler :
    (perform ((searching []).locate "clang" compilerVersions)
        ((Surroundings.still []).inEnvironment [("PATH", "/bin")]) (.ofTree diskWithCompiler)).1 =
      .ok (Path.parse "/bin/clang") ∧
    (perform ((searching []).locate "clang" compilerVersions)
        ((Surroundings.still []).inEnvironment [("PATH", "/opt")]) (.ofTree diskWithCompiler)).1 =
      .error (.build (notFound (namesToTry "clang" compilerVersions))) := by
  decide +kernel

end Finder

end Compiler

end StagedBuild
