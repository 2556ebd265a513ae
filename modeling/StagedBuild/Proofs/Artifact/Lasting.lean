import StagedBuild.Proofs.Artifact.Confined

/-!
What lasts while files are looked up. Directories stay, and so does everything that was found;
outside the cache nothing comes but directories on the way to it. So a file that was absent from a
repository apart from the cache stays absent, and looking it up again ends at the same place.
-/

namespace StagedBuild.Artifact

open Action Disk FileTree Transfer

variable {around around' : Surroundings} {u v w w' : World} {f : Resolver} {c : Coordinate}
  {extension url ending : String} {p root : Path} {cwd q : Location} {repository : Repository}
  {repositories rest : List Repository} {asked : List Request} {t : FileTree}

section Endings

/-- The last name of a location ends in a text. -/
def EndsIn (ending : String) (q : Location) : Prop :=
  ∃ front stem, q = front ++ [stem ++ ending]

theorem endsIn_unique {ending' : String} (h : EndsIn ending q) (h' : EndsIn ending' q)
    (hlength : ending.toList.length = ending'.toList.length) : ending = ending' := by
  obtain ⟨front, stem, rfl⟩ := h
  obtain ⟨front', stem', heq⟩ := h'
  have hnames := congrArg String.toList (List.singleton_inj.1 (List.append_inj' heq rfl).2)
  rw [String.toList_append, String.toList_append] at hnames
  exact String.toList_inj.1 (List.append_inj' hnames hlength).2

/-- The extensions of the files that are looked up for the jars of an artifact. -/
inductive IsKind : String → Prop
  | pom : IsKind "pom"
  | jar : IsKind "jar"

theorem name_place (hkind : IsKind extension) (base : Path) (c : Coordinate) :
    ∃ stem, (base / c.relativePath extension).name = stem ++ ("." ++ extension) := by
  obtain ⟨front, hfront⟩ : ∃ front, c.relativePath extension = front ++ ("." ++ extension) :=
    ⟨_, by rw [Coordinate.relativePath, ← String.append_assoc]⟩
  obtain ⟨stem, hstem⟩ : ∃ stem, (Path.parse (front ++ ("." ++ extension))).name =
      stem ++ ("." ++ extension) :=
    Path.exists_name_parse _ (by cases hkind <;> decide) (by cases hkind <;> decide)
  have hsteps := steps_relativePath_ne c extension
  rw [hfront] at hsteps ⊢
  exact ⟨stem, (Path.name_join hsteps).trans hstem⟩

theorem endsIn_place (hkind : IsKind extension) (base : Path) (c : Coordinate) (cwd : Location) :
    EndsIn ("." ++ extension) (goalOf cwd (base / c.relativePath extension)) := by
  obtain ⟨stem, hname⟩ := name_place hkind base c
  have hup : stem ++ ("." ++ extension) ≠ ".." := by
    intro heq
    have hlast := congrArg (List.getLast? ∘ String.toList) heq
    cases hkind <;> simp at hlast
  rw [goalOf_destination (name_place_ne base c extension), hname, stepFrom, if_neg hup]
  exact ⟨_, stem, rfl⟩

theorem not_temporary_place (hkind : IsKind extension) (base : Path) (c : Coordinate)
    (cwd : Location) : ¬ EndsIn ".tmp" (goalOf cwd (base / c.relativePath extension)) := by
  intro h
  have heq := endsIn_unique h (endsIn_place hkind base c cwd) (by cases hkind <;> decide)
  cases hkind <;> exact absurd heq (by decide)

theorem endsIn_temporary (f : Resolver) (c : Coordinate) (extension : String) (cwd : Location) :
    EndsIn ".tmp" (goalOf cwd (temporaryFor (cachePath f (c.relativePath extension)))) := by
  rw [goalOf_temporaryFor (name_cachePath_ne f c extension)]
  exact ⟨_, _, rfl⟩

end Endings

section Nodes

/-- From one world to another, what is at a location stays, unless its last name ends in a text or
is the one of a temporary file. -/
def NodesStay (ending : String) (w w' : World) : Prop :=
  ∀ q node, ¬ EndsIn ".tmp" q → ¬ EndsIn ending q → w.tree.node? q = some node →
    w'.tree.node? q = some node

instance : Passage (NodesStay ending) where
  refl _ := fun _ _ _ _ h => h
  trans h h' := fun q node htemporary hending hnode =>
    h' q node htemporary hending (h q node htemporary hending hnode)

theorem nodesStay_obtain (hkind : IsKind extension) (f : Resolver) (c : Coordinate) :
    Keeps around (NodesStay ("." ++ extension)) (obtain f c extension) := by
  refine keeps_obtain fun url w q node htemporary hending hnode => ?_
  have hkept : q ≠ goalOf around.directory (cachePath f (c.relativePath extension)) :=
    fun heq => hending (heq ▸ endsIn_place hkind _ c _)
  have hother :
      q ≠ goalOf around.directory (temporaryFor (cachePath f (c.relativePath extension))) :=
    fun heq => htemporary (heq ▸ endsIn_temporary f c extension _)
  rcases adds_fetch f c extension url w q (not_or.2 ⟨hkept, hother⟩) with heq | ⟨-, hnone, -⟩
  · rw [heq, hnode]
  · rw [hnone] at hnode
    cases hnode

end Nodes

/-- What remains from one world to another while files are looked up: directories, and whatever is
no temporary file. -/
structure Remains (w w' : World) : Prop where
  directories : DirectoriesStay w w'
  occupied : ∀ q, ¬ EndsIn ".tmp" q → w.tree.isOccupied q = true → w'.tree.isOccupied q = true

namespace Remains

instance : OfTree Remains where
  refl w := ⟨Passage.refl w, fun _ _ h => h⟩
  trans h h' := ⟨Passage.trans h.directories h'.directories,
    fun q hq hoccupied => h'.occupied q hq (h.occupied q hq hoccupied)⟩
  same _ _ h := ⟨OfTree.same _ _ h, fun _ _ hq => by rwa [h]⟩

theorem found (h : Remains w w') (htemporary : ¬ EndsIn ".tmp" (goalOf cwd p)) {node : Node}
    (hnode : answerAt p w.tree cwd = .ok (some node)) :
    ∃ node', answerAt p w'.tree cwd = .ok (some node') := by
  obtain ⟨hask, hlocate, hnode⟩ := answerAt_eq_some_iff.1 hnode
  obtain ⟨-, htext, hpassed, hfits⟩ := locate_eq_ok_iff.1 hlocate
  obtain ⟨node', hnode'⟩ := isOccupied_iff.1
    (h.occupied _ htemporary (isOccupied_iff.2 ⟨node, hnode⟩))
  exact ⟨node', answerAt_eq_some_iff.2 ⟨hask, locate_eq_ok_iff.2
    ⟨rfl, htext, fun q hq => h.directories q (hpassed q hq), hfits⟩, hnode'⟩⟩

end Remains

/-- What lasts from one world to another while files are looked up. -/
structure Lasts (cwd : Location) (f : Resolver) (w w' : World) : Prop where
  directories : DirectoriesStay w w'
  outside : AddsOutside (cacheRoot cwd f.cache <+: ·) (OnTheWay cwd (f.cache / "maven")) w w'
  occupied : ∀ q, ¬ EndsIn ".tmp" q → w.tree.isOccupied q = true → w'.tree.isOccupied q = true

namespace Lasts

instance : OfTree (Lasts cwd f) where
  refl w := ⟨Passage.refl w, Passage.refl w, fun _ _ h => h⟩
  trans h h' := ⟨Passage.trans h.directories h'.directories, Passage.trans h.outside h'.outside,
    fun q hq hoccupied => h'.occupied q hq (h.occupied q hq hoccupied)⟩
  same _ _ h := ⟨OfTree.same _ _ h, fun _ _ => .inl (by rw [h]), fun _ _ hq => by rwa [h]⟩

theorem remains (h : Lasts cwd f w w') : Remains w w' :=
  ⟨h.directories, h.occupied⟩

end Lasts

theorem onTheWay_kept (hconfined : IsConfined c extension)
    (hq : OnTheWay cwd (cachePath f (c.relativePath extension)).parent q) :
    OnTheWay cwd (f.cache / "maven") q ∨ cacheRoot cwd f.cache <+: q := by
  rcases hq.of_parent with hpassed | hgoal
  · rw [cachePath, mem_passedBy_place hconfined] at hpassed
    rcases hpassed with hpassed | hpassed
    · exact .inl (.inl hpassed)
    · exact .inr (prefix_of_mem_passed hconfined hpassed)
  · exact .inr ⟨_, (hgoal.trans (goalOf_kept hconfined cwd)).symm⟩

theorem adds_fetch_outside (hconfined : IsConfined c extension) (url : String) :
    Keeps around (AddsOutside (cacheRoot around.directory f.cache <+: ·)
      (OnTheWay around.directory (f.cache / "maven"))) (fetch f c extension url) := by
  intro w q hq
  have hkept : q ≠ goalOf around.directory (cachePath f (c.relativePath extension)) :=
    fun heq => hq ⟨_, (heq.trans (goalOf_kept hconfined _)).symm⟩
  have hother :
      q ≠ goalOf around.directory (temporaryFor (cachePath f (c.relativePath extension))) := by
    intro heq
    obtain ⟨way, -, hway⟩ := inCache_temporary (f := f) hconfined around.directory
    exact hq ⟨way, (heq.trans hway).symm⟩
  rcases adds_fetch f c extension url w q (not_or.2 ⟨hkept, hother⟩) with
    heq | ⟨hway, hnone, hdir⟩
  · exact .inl heq
  · exact .inr ⟨(onTheWay_kept hconfined hway).resolve_right hq, hnone, hdir⟩

/-- A download into the cache that is not interrupted leaves nothing free that was occupied, but for
its temporary file. -/
theorem occupied_of_fetch {ended : Except Fault Path}
    (hfetch : perform (fetch f c extension url) around w = (ended, w'))
    (hended : ended ≠ .error .interrupted) (htemporary : ¬ EndsIn ".tmp" q)
    (hoccupied : w.tree.isOccupied q = true) : w'.tree.isOccupied q = true := by
  have hother :
      q ≠ goalOf around.directory (temporaryFor (cachePath f (c.relativePath extension))) :=
    fun heq => htemporary (heq ▸ endsIn_temporary f c extension _)
  cases ended with
  | error fault =>
      have hordinary : fault.isOrdinary = true := by
        rw [← Bool.not_eq_false, isOrdinary_eq_false_iff]
        exact fun heq => hended (heq ▸ rfl)
      exact (restored_of_fetch hordinary hfetch).others.isOccupied hother hoccupied
  | ok p =>
      have hplaced := (placed_of_fetch hfetch).2
      by_cases hkept : q = goalOf around.directory (cachePath f (c.relativePath extension))
      · rw [hkept]
        exact isOccupied_of_isFile (readable_iff.1 hplaced.readable).2.2
      · exact hplaced.others.isOccupied (not_or.2 ⟨hkept, hother⟩) hoccupied

theorem directoriesStay_fetch (f : Resolver) (c : Coordinate) (extension url : String) :
    Keeps around DirectoriesStay (fetch f c extension url) := by
  unfold fetch
  exact directoriesStay_download _ _ _ _

section Found

variable {outcome : Except Fault Path} {ds : List Coordinate}

theorem remains_of_obtain (h : perform (obtain f c extension) around w = (outcome, w'))
    (houtcome : outcome ≠ .error .interrupted) : Remains w w' :=
  passage_of_obtain (fun url u v _ hfetch hended =>
    ⟨(directoriesStay_fetch f c extension url).of_perform hfetch,
      fun _ htemporary hoccupied => occupied_of_fetch hfetch hended htemporary hoccupied⟩) h
        houtcome

theorem lasts_of_obtain (hconfined : IsConfined c extension)
    (h : perform (obtain f c extension) around w = (outcome, w'))
    (houtcome : outcome ≠ .error .interrupted) : Lasts around.directory f w w' :=
  passage_of_obtain (fun url u v _ hfetch hended =>
    ⟨(directoriesStay_fetch f c extension url).of_perform hfetch,
      (adds_fetch_outside hconfined url).of_perform hfetch,
      fun _ htemporary hoccupied => occupied_of_fetch hfetch hended htemporary hoccupied⟩) h
        houtcome

theorem lasts_of_dependsOn (hconfined : IsConfined c "pom") (h : DependsOn f c around ds w w') :
    Lasts around.directory f w w' := by
  cases h with
  | nothing hpom => exact lasts_of_obtain hconfined hpom nofun
  | described hpom _ hgives =>
      exact Passage.trans (lasts_of_obtain hconfined hpom nofun) (OfTree.same _ _ hgives.tree)

end Found

section Apart

/-- It is settled where a path leads: through directories that are there to one, or down by names of
entries. -/
def IsSettled (t : FileTree) (cwd : Location) (p : Path) : Prop :=
  (∀ q, OnTheWay cwd p q → t.isDirectory q = true) ∨ ∀ step ∈ p.steps, isEntryName step = true

theorem IsSettled.fits (ht : t.WellFormed) (h : IsSettled t cwd p) :
    ∀ step ∈ p.steps, fits step = true := by
  intro step hstep
  rcases h with hdirs | hnames
  · by_cases hup : step = ".."
    · simp [FileTree.fits, hup]
    · obtain ⟨front, back, hsteps⟩ := List.append_of_mem hstep
      have hreach : reach (start cwd p) (front ++ [step]) =
          reach (start cwd p) front ++ [step] := by
        rw [reach_append, reach, reach, stepFrom, if_neg hup]
      have hway : OnTheWay cwd p (reach (start cwd p) (front ++ [step])) := by
        by_cases hback : back = []
        · exact .inr (by rw [goalOf, hsteps, hback])
        · exact .inl
            (mem_passed_iff.2 ⟨_, back, by rw [hsteps, List.append_assoc]; rfl, hback, rfl⟩)
      have hoccupied := isOccupied_of_isDirectory (hdirs _ hway)
      rw [hreach] at hoccupied
      exact fits_of_isEntryName (ht.named _ hoccupied step (by simp))
  · exact fits_of_isEntryName (hnames step hstep)

/-- The directory of a repository lies apart from the cache: neither is within the other, and it is
settled where it is. -/
structure LiesApart (t : FileTree) (cwd : Location) (f : Resolver) (root : Path) : Prop where
  settled : IsSettled t cwd root
  outside : ¬ cacheRoot cwd f.cache <+: goalOf cwd root
  around : ¬ goalOf cwd root <+: cacheRoot cwd f.cache

theorem Lasts.node?_eq (h : Lasts cwd f w u) (h' : Lasts cwd f u v)
    (hcache : IsSettled w.tree cwd f.cache) (hout : ¬ cacheRoot cwd f.cache <+: q)
    (habove : ¬ q <+: cacheRoot cwd f.cache) : v.tree.node? q = u.tree.node? q := by
  rcases h'.outside q hout with heq | ⟨hway, hnone, -⟩
  · exact heq
  have hname : isEntryName "maven" = true := by decide
  have hroot : cacheRoot cwd f.cache = goalOf cwd f.cache ++ ["maven"] := goalOf_child cwd _ hname
  have hway : OnTheWay cwd f.cache q := by
    rcases hway with hpassed | rfl
    · rw [mem_passedBy_iff_parent (by simp [Path.steps_div _ (isStep_of_isEntryName hname)]),
        Path.parent_div _ (isStep_of_isEntryName hname)] at hpassed
      exact hpassed
    · exact absurd (List.prefix_refl _) hout
  rcases hcache with hdirs | hnames
  · have hdir := isDirectory_iff.1 (h.directories q (hdirs q hway))
    rw [hnone] at hdir
    cases hdir
  · have hplain := up_not_mem hnames
    refine absurd ?_ habove
    rw [hroot, goalOf, reach_of_plain hplain]
    rcases hway with hpassed | rfl
    · obtain ⟨front, back, hsteps, -, rfl⟩ := (mem_passed_of_plain hplain).1 hpassed
      exact ⟨back ++ ["maven"], by rw [hsteps]; simp⟩
    · rw [goalOf, reach_of_plain hplain]
      exact List.prefix_append _ _

theorem Lasts.node?_below (h : Lasts cwd f w u) (h' : Lasts cwd f u v)
    (hcache : IsSettled w.tree cwd f.cache) (hapart : LiesApart t cwd f root)
    (hq : goalOf cwd root <+: q) : v.tree.node? q = u.tree.node? q := by
  refine h.node?_eq h' hcache (fun hout => ?_) fun habove => hapart.around (hq.trans habove)
  rcases List.prefix_or_prefix_of_prefix hq hout with hprefix | hprefix
  · exact hapart.around hprefix
  · exact hapart.outside hprefix

theorem text_le_of_absent (hask : isAskable p = true) (h : answerAt p t cwd = .ok none) :
    p.text.utf8ByteSize ≤ pathLimit := by
  by_contra hlong
  have hlocate : t.locate cwd p = .error .nameTooLong := by
    rw [locate, if_pos (Nat.lt_of_not_le hlong)]
  rw [answerAt_of_tooLong hask hlocate] at h
  cases h

section Repository

variable (h : Lasts cwd f w u) (h' : Lasts cwd f u v) (ht : w.tree.WellFormed)
  (hcache : IsSettled w.tree cwd f.cache) (hapart : LiesApart w.tree cwd f root)

include h h' ht hcache hapart

theorem Lasts.passed_before (hdir : v.tree.isDirectory (goalOf cwd root) = true)
    (hq : q ∈ passedBy cwd root) : u.tree.isDirectory q = true := by
  rcases hapart.settled with hdirs | hnames
  · exact h.directories q (hdirs q (.inl hq))
  · have hplain := up_not_mem hnames
    have hstays := (Passage.refl (R := Lasts cwd f) w).node?_below (Passage.trans h h') hcache
      hapart (List.prefix_refl _)
    obtain ⟨front, back, hsteps, hback, rfl⟩ := (mem_passed_of_plain hplain).1 hq
    have hoccupied := isOccupied_of_isDirectory (isDirectory_congr hstays ▸ hdir)
    rw [goalOf, reach_of_plain hplain, hsteps, ← List.append_assoc] at hoccupied
    exact h.directories _ (ht.isDirectory_above hoccupied hback)

theorem Lasts.found_before (hconfined : IsConfined c extension) {node : Node}
    (hnode : answerAt (root / c.relativePath extension) v.tree cwd = .ok (some node)) :
    answerAt (root / c.relativePath extension) u.tree cwd = .ok (some node) := by
  obtain ⟨hask, hlocate, hnode⟩ := answerAt_eq_some_iff.1 hnode
  obtain ⟨-, htext, hpassed, hfits⟩ := locate_eq_ok_iff.1 hlocate
  refine answerAt_eq_some_iff.2 ⟨hask, locate_eq_ok_iff.2 ⟨rfl, htext, fun q hq => ?_, hfits⟩, ?_⟩
  · rcases (mem_passedBy_place hconfined root).1 hq with hway | hbelow
    · exact h.passed_before h' ht hcache hapart
        (hpassed _ (goalOf_mem_passedBy_place hconfined root cwd)) hway
    · have hstays := h.node?_below h' hcache hapart (prefix_of_mem_passed hconfined hbelow)
      exact isDirectory_congr hstays ▸ hpassed q hq
  · have hbelow : goalOf cwd root <+: goalOf cwd (root / c.relativePath extension) :=
      ⟨_, (goalOf_place_confined hconfined root cwd).symm⟩
    rw [← h.node?_below h' hcache hapart hbelow, hnode]

theorem Lasts.absent (hconfined : IsConfined c extension)
    (hfits : ∀ step ∈ (Path.parse (c.relativePath extension)).steps, FileTree.fits step = true)
    (hnone : answerAt (root / c.relativePath extension) u.tree cwd = .ok none) :
    answerAt (root / c.relativePath extension) v.tree cwd = .ok none := by
  by_cases hask : isAskable (root / c.relativePath extension) = true
  swap
  · simp [answerAt, hask]
  have hpathFits : PathFits (root / c.relativePath extension) := by
    refine ⟨text_le_of_absent hask hnone, fun step hstep => ?_⟩
    change step ∈ (root.join (.parse (c.relativePath extension))).steps at hstep
    rw [Path.steps_join hconfined.1, List.mem_append] at hstep
    exact hstep.elim (hapart.settled.fits ht step) (hfits step)
  rcases @answerAt_of_fits _ v.tree cwd hask hpathFits with hnone' | ⟨node, hfound, -⟩
  · exact hnone'
  · rw [h.found_before h' ht hcache hapart hconfined hfound] at hnone
    cases hnone

end Repository

end Apart

end StagedBuild.Artifact
