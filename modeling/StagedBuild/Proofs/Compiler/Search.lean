import Mathlib.Data.List.Basic
import StagedBuild.Compiler.Target
import StagedBuild.Proofs.Action.Disk

/-!
Looking for a binary. Its names are looked up one after the other, up to the first that is found; a
name is looked up in a search path by going through the directories of the path. So an earlier name
counts before a later one, whatever directories they are in.
-/

namespace StagedBuild.Compiler

open Action FileTree Disk

section SearchPath

/-- Whether a node found at a written path is a file that may be run. -/
def runsAs (written : String) : Option Node → Bool
  | some (.file f) => f.executable && !Path.asksForDirectory written
  | _ => false

/-- A file that may be run is at a written path. -/
def runsAt (t : FileTree) (cwd : Location) (written : String) : Bool :=
  runsAs written (answerAt (Path.parse written) t cwd).toOption.join

/-- Of some directories the first in which a name may be run, and where it is there. -/
def IsFirstIn (t : FileTree) (cwd : Location) (directories : List String)
    (name location : String) : Prop :=
  ∃ before directory after, directories = before ++ directory :: after ∧
    (∀ other ∈ before, ¬ runsAt t cwd (inDirectory other name) = true) ∧
    runsAt t cwd (inDirectory directory name) = true ∧ location = inDirectory directory name

/-- What a search path gives for a name. -/
def searched (t : FileTree) (cwd : Location) (searchPath name : String) : Option String :=
  if name.toList.contains '/' then if runsAt t cwd name then some name else none
  else if searchPath = "" then none
  else ((Text.pieces ':' searchPath).map fun d => inDirectory d name).find? (runsAt t cwd)

theorem perform_isRunnable (written : String) (around : Surroundings) (w : World) :
    perform (isRunnable written) around w = (.ok (runsAt w.tree around.directory written), w) := by
  rw [isRunnable, perform_bind_ok (perform_nodeIfAny _ around w), runsAt]
  rcases (answerAt (Path.parse written) w.tree around.directory).toOption.join with
    _ | _ | f <;> rfl

theorem perform_firstRunnable (written : List String) (around : Surroundings) (w : World) :
    perform (firstRunnable written) around w =
      (.ok (written.find? (runsAt w.tree around.directory)), w) := by
  induction written with
  | nil => rfl
  | cons first rest ih =>
      rw [firstRunnable, perform_bind_ok (perform_isRunnable first around w), List.find?_cons]
      cases runsAt w.tree around.directory first with
      | true => rfl
      | false => exact ih

theorem find?_eraseDups {α : Type} [BEq α] [LawfulBEq α] (p : α → Bool) (xs : List α) :
    xs.eraseDups.find? p = xs.find? p := by
  match xs with
  | [] => rfl
  | x :: xs =>
      rw [List.eraseDups_cons, List.find?_cons, List.find?_cons]
      cases hx : p x with
      | true => rfl
      | false =>
          dsimp only
          rw [find?_eraseDups, List.find?_filter]
          congr 1
          funext y
          by_cases hy : y = x
          · simp [hy, hx]
          · simp [hy]
termination_by xs.length
decreasing_by
  exact Nat.lt_succ_of_le (List.length_filter_le _ _)

theorem perform_search (searchPath name : String) (around : Surroundings) (w : World) :
    perform (search searchPath name) around w =
      (.ok (searched w.tree around.directory searchPath name), w) := by
  unfold search searched
  split
  · rw [perform_bind_ok (perform_isRunnable name around w), perform_pure]
  · split
    · rfl
    · rw [perform_firstRunnable, List.find?_map, List.find?_map, find?_eraseDups]

theorem searched_eq_some_iff {t : FileTree} {cwd : Location} {searchPath name location : String}
    (hname : '/' ∉ name.toList) :
    searched t cwd searchPath name = some location ↔
      searchPath ≠ "" ∧ IsFirstIn t cwd (Text.pieces ':' searchPath) name location := by
  rw [searched, if_neg (by simpa using hname)]
  by_cases hpath : searchPath = ""
  · simp [hpath]
  rw [if_neg hpath, List.find?_map, Option.map_eq_some_iff]
  simp only [List.find?_eq_some_iff_append, Function.comp_apply]
  constructor
  · rintro ⟨directory, ⟨hruns, before, after, heq, hbefore⟩, rfl⟩
    exact ⟨hpath, before, directory, after, heq, by simpa using hbefore, hruns, rfl⟩
  · rintro ⟨-, before, directory, after, heq, hbefore, hruns, rfl⟩
    exact ⟨directory, ⟨hruns, before, after, heq, by simpa using hbefore⟩, rfl⟩

theorem exists_isFirstIn {t : FileTree} {cwd : Location} {directories : List String}
    {directory name : String} (hmem : directory ∈ directories)
    (hruns : runsAt t cwd (inDirectory directory name) = true) :
    ∃ location, IsFirstIn t cwd directories name location := by
  obtain ⟨first, hfirst⟩ : ∃ first, directories.find? (fun d => runsAt t cwd (inDirectory d name)) =
      some first := by
    rw [← Option.isSome_iff_exists, List.find?_isSome]
    exact ⟨directory, hmem, hruns⟩
  obtain ⟨hfirst, before, after, heq, hbefore⟩ := List.find?_eq_some_iff_append.1 hfirst
  exact ⟨_, before, first, after, heq, by simpa using hbefore, hfirst, rfl⟩

theorem inDirectory_ne_empty {name : String} (hname : name ≠ "") (directory : String) :
    inDirectory directory name ≠ "" := by
  unfold inDirectory
  split
  · exact hname
  · split <;> simp [String.append_eq_empty_iff, hname]

end SearchPath

section Names

/-- What the first name that is found leads to, where names are looked up in a given way. -/
def firstFoundBy (find : String → Action (Option String)) : List String → Action (Option String)
  | [] => return none
  | name :: rest => do
    match ← find name with
    | some found => if found = "" then firstFoundBy find rest else return some found
    | none => firstFoundBy find rest

variable {find other : String → Action (Option String)} {around : Surroundings} {w : World}
  {names tried : List String} {name location : String} {found : Option String}

/-- Looking a name up gives a location. -/
def Finds (find : String → Action (Option String)) (around : Surroundings) (w : World)
    (name location : String) : Prop :=
  perform (find name) around w = (.ok (some location), w) ∧ location ≠ ""

/-- Looking a name up gives nothing, or the empty text. -/
def Misses (find : String → Action (Option String)) (around : Surroundings) (w : World)
    (name : String) : Prop :=
  ∃ answer, perform (find name) around w = (.ok answer, w) ∧ answer.getD "" = ""

/-- How a search goes: the names that are tried, and the location that the last of them has if it is
found. All names before it are not found, and those behind it are not tried. -/
inductive Searched (find : String → Action (Option String)) (around : Surroundings) (w : World)
    (names : List String) : List String → Option String → Prop
  | found {before after : List String} {name location : String} :
      names = before ++ name :: after → (∀ n ∈ before, Misses find around w n) →
      Finds find around w name location →
      Searched find around w names (before ++ [name]) (some location)
  | exhausted : (∀ n ∈ names, Misses find around w n) → Searched find around w names names none

theorem Finds.not_misses (h : Finds find around w name location) : ¬ Misses find around w name := by
  rintro ⟨answer, hanswer, hempty⟩
  rw [h.1] at hanswer
  cases hanswer
  exact h.2 hempty

theorem Misses.perform_firstFoundBy (h : Misses find around w name) (rest : List String) :
    perform (firstFoundBy find (name :: rest)) around w =
      perform (firstFoundBy find rest) around w := by
  obtain ⟨answer, hanswer, hempty⟩ := h
  rw [firstFoundBy, perform_bind_ok hanswer]
  cases answer with
  | none => rfl
  | some found =>
      obtain rfl : found = "" := hempty
      rfl

theorem perform_firstFoundBy_append {before : List String}
    (h : ∀ n ∈ before, Misses find around w n) (rest : List String) :
    perform (firstFoundBy find (before ++ rest)) around w =
      perform (firstFoundBy find rest) around w := by
  induction before with
  | nil => rfl
  | cons name before ih =>
      rw [List.forall_mem_cons] at h
      rw [List.cons_append, h.1.perform_firstFoundBy, ih h.2]

/-- The search gives what it says, and only the lookups of the names that are tried matter. -/
theorem Searched.perform_firstFoundBy (h : Searched find around w names tried found)
    (hother : ∀ n ∈ tried, other n = find n) :
    perform (firstFoundBy other names) around w = (.ok found, w) := by
  have hmisses : ∀ n ∈ tried, Misses find around w n → Misses other around w n := by
    intro n hn hmiss
    rwa [Misses, hother n hn]
  cases h with
  | @found before after name location hnames hbefore hfinds =>
      have hpassed : ∀ n ∈ before, Misses other around w n := by
        intro n hn
        exact hmisses n (by simp [hn]) (hbefore n hn)
      rw [hnames, perform_firstFoundBy_append hpassed, firstFoundBy, hother name (by simp),
        perform_bind_ok hfinds.1]
      simp [hfinds.2]
  | exhausted hall =>
      rw [← List.append_nil names, perform_firstFoundBy_append fun n hn => hmisses n hn (hall n hn)]
      rfl

theorem exists_searched
    (h : ∀ n, Misses find around w n ∨ ∃ location, Finds find around w n location)
    (names : List String) : ∃ tried found, Searched find around w names tried found := by
  induction names with
  | nil => exact ⟨[], none, .exhausted (by simp)⟩
  | cons name rest ih =>
      rcases h name with hmiss | ⟨location, hfinds⟩
      · obtain ⟨tried, found, hrest⟩ := ih
        cases hrest with
        | @found before after next location hnames hbefore hfinds =>
            have hsplit : name :: rest = (name :: before) ++ next :: after := by
              rw [hnames, List.cons_append]
            exact ⟨_, _, .found hsplit (List.forall_mem_cons.2 ⟨hmiss, hbefore⟩) hfinds⟩
        | exhausted hall =>
            exact ⟨_, _, .exhausted (List.forall_mem_cons.2 ⟨hmiss, hall⟩)⟩
      · exact ⟨_, _, .found (List.nil_append (name :: rest)).symm (by simp) hfinds⟩

theorem Searched.eq_none_iff (h : Searched find around w names tried found) :
    found = none ↔ ∀ n ∈ names, Misses find around w n := by
  cases h with
  | @found before after name location hnames hbefore hfinds =>
      refine ⟨fun hnone => absurd hnone (by simp), fun hall => ?_⟩
      exact absurd (hall name (by simp [hnames])) hfinds.not_misses
  | exhausted hall => simpa using hall

theorem Searched.exists_of_finds (h : Searched find around w names tried found)
    {before after : List String} (hnames : names = before ++ name :: after)
    (hfinds : Finds find around w name location) :
    ∃ n ∈ before ++ [name], ∃ l, found = some l ∧ Finds find around w n l := by
  cases h with
  | exhausted hall => exact absurd (hall name (by simp [hnames])) hfinds.not_misses
  | @found before' after' first l heq hbefore hfirst =>
      refine ⟨first, ?_, l, rfl, hfirst⟩
      rcases List.append_eq_append_iff.1 (heq.symm.trans hnames) with
        ⟨mid, hmid, htail⟩ | ⟨mid, hmid, htail⟩
      · cases mid with
        | nil =>
            rw [List.nil_append, List.cons.injEq] at htail
            simp [htail.1]
        | cons next mid =>
            rw [List.cons_append, List.cons.injEq] at htail
            simp [hmid, htail.1]
      · cases mid with
        | nil =>
            rw [List.nil_append, List.cons.injEq] at htail
            simp [htail.1]
        | cons next mid =>
            rw [List.cons_append, List.cons.injEq] at htail
            exact absurd (hbefore name (by simp [hmid, htail.1])) hfinds.not_misses

end Names

namespace Finder

variable {d : Finder} {around : Surroundings} {w : World} {binary name location : String}
  {versions : List Version} {find : String → Action (Option String)} {tried : List String}
  {found : Option String}

/-- The search path in which a finder without a lookup of its own looks. -/
def searchPath (d : Finder) (around : Surroundings) : String :=
  (d.environment.lookup "PATH").getD ((around.environment.lookup "PATH").getD standardSearchPath)

/-- What a finder's lookup gives for a name. -/
def answer (d : Finder) (around : Surroundings) (t : FileTree) (name : String) : Option String :=
  match d.lookup with
  | some lookup => lookup name
  | none => searched t around.directory (d.searchPath around) name

theorem perform_find (d : Finder) (name : String) (around : Surroundings) (w : World) :
    perform (d.find name) around w = (.ok (d.answer around w.tree name), w) := by
  unfold find answer searchPath
  cases d.lookup with
  | some lookup => rfl
  | none =>
      cases d.environment.lookup "PATH" with
      | some path => exact perform_search path name around w
      | none => exact perform_search _ name around w

theorem misses_or_finds (d : Finder) (around : Surroundings) (w : World) (name : String) :
    Misses d.find around w name ∨ ∃ location, Finds d.find around w name location := by
  have hfind := perform_find d name around w
  by_cases hempty : (d.answer around w.tree name).getD "" = ""
  · exact .inl ⟨_, hfind, hempty⟩
  · obtain ⟨location, hlocation⟩ : ∃ location, d.answer around w.tree name = some location := by
      rw [← Option.ne_none_iff_exists']
      intro hnone
      exact hempty (by rw [hnone]; rfl)
    rw [hlocation] at hfind hempty
    exact .inr ⟨location, hfind, hempty⟩

/-- Locates a binary with another way of looking names up. -/
def locateBy (d : Finder) (find : String → Action (Option String)) (binary : String)
    (versions : List Version) : Action Path := do
  match d.override? binary with
  | some location => return Path.parse location
  | none =>
    let names := namesToTry binary versions
    match ← firstFoundBy find names with
    | some found => return Path.parse found
    | none => throw (.build (notFound names))

theorem firstFound_eq (d : Finder) (names : List String) :
    d.firstFound names = firstFoundBy d.find names := by
  induction names with
  | nil => rfl
  | cons name rest ih =>
      refine bind_congr fun found => ?_
      cases found with
      | none => exact ih
      | some location => exact congrArg (ite (location = "") · (pure (some location))) ih

theorem locate_eq (d : Finder) (binary : String) (versions : List Version) :
    d.locate binary versions = d.locateBy d.find binary versions := by
  unfold locate locateBy
  cases d.override? binary with
  | some location => rfl
  | none => exact congrArg (· >>= _) (d.firstFound_eq (namesToTry binary versions))

theorem override?_eq_none_iff :
    d.override? binary = none ↔ (d.environment.lookup (overrideVariable binary)).getD "" = "" := by
  rw [override?]
  cases d.environment.lookup (overrideVariable binary) <;> simp

/-- The outcome of a search, as a path or as the fault of a binary that is not found. -/
def located (names : List String) : Option String → Except Fault Path
  | some location => .ok (Path.parse location)
  | none => .error (.build (notFound names))

theorem perform_locateBy (hunset : d.override? binary = none)
    (h : perform (firstFoundBy find (namesToTry binary versions)) around w = (.ok found, w)) :
    perform (d.locateBy find binary versions) around w =
      (located (namesToTry binary versions) found, w) := by
  rw [locateBy, hunset]
  dsimp only
  rw [perform_bind_ok h]
  cases found <;> rfl

/-- Without a lookup of its own a finder finds a name in the first directory of its search path in
which the name may be run. -/
theorem finds_iff (hlookup : d.lookup = none) (hname : '/' ∉ name.toList) :
    Finds d.find around w name location ↔ (d.searchPath around ≠ "" ∧
      IsFirstIn w.tree around.directory (Text.pieces ':' (d.searchPath around)) name location) ∧
        location ≠ "" := by
  have hanswer : d.answer around w.tree name =
      searched w.tree around.directory (d.searchPath around) name := by
    rw [answer, hlookup]
  rw [Finds, perform_find, hanswer, Prod.mk.injEq, Except.ok.injEq, and_iff_left rfl,
    searched_eq_some_iff hname]

/-- A binary that the environment does not name is where the first of its names is found, and names
behind that one are not looked up: whatever looking them up would do makes no difference. It is not
found exactly when none of its names is, and then the fault lists them all. In a search path an
earlier name counts before a later one, wherever their directories stand. -/
theorem locate_takes_first_found (d : Finder) (binary : String) (versions : List Version)
    (around : Surroundings) (w : World)
    (hunset : (d.environment.lookup (overrideVariable binary)).getD "" = "") :
    ∃ names tried found outcome,
      names = versions.flatMap (fun (major, minor) =>
        [binary ++ major ++ minor, binary ++ "-" ++ major ++ "." ++ minor]) ++ [binary] ∧
      perform (d.locate binary versions) around w = (outcome, w) ∧
      Searched d.find around w names tried found ∧
      (∀ location, found = some location → outcome = .ok (Path.parse location)) ∧
      (found = none → outcome = .error (.build (.compilerNotFound ("no "
        ++ ", ".intercalate names ++ " found in $PATH. Install clang ("
        ++ "http://www.scala-native.org/en/latest/user/setup.html" ++ ")")))) ∧
      (found = none ↔ ∀ name ∈ names, Misses d.find around w name) ∧
      (∀ find, (∀ name ∈ tried, find name = d.find name) →
        perform (d.locateBy find binary versions) around w = (outcome, w)) ∧
      (d.lookup = none → ∀ name, '/' ∉ name.toList → ∀ location,
        (Finds d.find around w name location ↔ (d.searchPath around ≠ "" ∧
          IsFirstIn w.tree around.directory (Text.pieces ':' (d.searchPath around)) name
            location) ∧ location ≠ "")) ∧
      (d.lookup = none → ∀ before name after, names = before ++ name :: after →
        name ≠ "" → '/' ∉ name.toList → d.searchPath around ≠ "" →
        ∀ directory ∈ Text.pieces ':' (d.searchPath around),
          runsAt w.tree around.directory (inDirectory directory name) = true →
          ∃ earlier ∈ before ++ [name], ∃ location,
            Finds d.find around w earlier location ∧ outcome = .ok (Path.parse location)) := by
  have hnone := override?_eq_none_iff.2 hunset
  obtain ⟨tried, found, hsearch⟩ := exists_searched (misses_or_finds d around w)
    (namesToTry binary versions)
  refine ⟨_, tried, found, located (namesToTry binary versions) found, rfl, ?_, hsearch, ?_, ?_,
    hsearch.eq_none_iff, ?_, fun hlookup _ hname _ => finds_iff hlookup hname, ?_⟩
  · rw [locate_eq]
    exact perform_locateBy hnone (hsearch.perform_firstFoundBy fun _ _ => rfl)
  · rintro location rfl
    rfl
  · rintro rfl
    rfl
  · intro find hfind
    exact perform_locateBy hnone (hsearch.perform_firstFoundBy hfind)
  · intro hlookup before name after hnames hname hslash hpath directory hmem hruns
    obtain ⟨location, hfirst⟩ := exists_isFirstIn hmem hruns
    have hlocation : location ≠ "" := by
      obtain ⟨_, _, _, -, -, -, rfl⟩ := hfirst
      exact inDirectory_ne_empty hname _
    have hfinds := (finds_iff hlookup hslash).2 ⟨⟨hpath, hfirst⟩, hlocation⟩
    obtain ⟨earlier, hearlier, l, rfl, hl⟩ := hsearch.exists_of_finds hnames hfinds
    exact ⟨earlier, hearlier, l, hl, rfl⟩

/-- A disk with a compiler in one directory and one of a known version in another. -/
def diskWithTwoCompilers : FileTree :=
  [["early", "clang"], ["late", "clang-3.9"]].foldl (fun t loc => t.add loc (.file ⟨[], true⟩))
    ((FileTree.empty.add ["early"] .directory).add ["late"] .directory)

/-- A finder that looks in the directory of the bare name first. -/
def earlyFinder : Finder :=
  ⟨[("PATH", "/early:/late")], none⟩

/-- The compiler of a known version counts, although it is in the later directory. -/
theorem versioned_name_beats_bare_name :
    (earlyFinder.environment.lookup (overrideVariable "clang")).getD "" = "" ∧
      runsAt diskWithTwoCompilers [] "/early/clang" = true ∧
      ∃ tried found, Searched earlyFinder.find (.still []) (.ofTree diskWithTwoCompilers)
          (namesToTry "clang" compilerVersions) tried found ∧
        perform (earlyFinder.locate "clang" compilerVersions) (.still [])
          (.ofTree diskWithTwoCompilers) =
            (.ok (Path.parse "/late/clang-3.9"), .ofTree diskWithTwoCompilers) := by
  have hunset : (earlyFinder.environment.lookup (overrideVariable "clang")).getD "" = "" := by
    decide +kernel
  have hanswer : (perform (earlyFinder.locate "clang" compilerVersions) (.still [])
      (.ofTree diskWithTwoCompilers)).1 = .ok (Path.parse "/late/clang-3.9") := by
    decide +kernel
  obtain ⟨names, tried, found, outcome, rfl, hlocate, hsearch, -⟩ :=
    locate_takes_first_found earlyFinder "clang" compilerVersions (.still [])
      (.ofTree diskWithTwoCompilers) hunset
  have houtcome : outcome = .ok (Path.parse "/late/clang-3.9") :=
    (congrArg Prod.fst hlocate).symm.trans hanswer
  refine ⟨hunset, by decide +kernel, tried, found, hsearch, ?_⟩
  rw [hlocate, houtcome]

end Finder

end StagedBuild.Compiler
