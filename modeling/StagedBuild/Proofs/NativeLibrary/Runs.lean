import StagedBuild.Proofs.NativeLibrary.Freshness

/-!
Runs of the assembler in one work directory. Whatever the earlier runs were and however they ended,
a run that succeeds leaves the library that it would have made if there had been none.
-/

namespace StagedBuild.NativeLibrary

open Action FileTree Disk Manifest

variable {around : Surroundings} {w w' w₀ : World} {t t' : FileTree} {bytes : List UInt8}
  {ways : List Location} {plan : Plan} {links : List String} {s : Site}

/-- A run of the assembler. -/
structure Run where
  plan : Plan
  links : List String
  around : Surroundings
  before : World

namespace Run

def outcome (r : Run) : Except Fault Assembled :=
  (perform (assemble r.plan r.links) r.around r.before).1

def after (r : Run) : World :=
  (perform (assemble r.plan r.links) r.around r.before).2

/-- The same run on another disk. -/
def on (r : Run) (w : World) : Run :=
  { r with before := w }

end Run

namespace Site

/-- A run in the work directory: the archive lies outside the library and holds what it may hold, it
is unpacked by the same code as ever, and the compilers write objects and nothing else. -/
structure IsRun (s : Site) (r : Run) : Prop where
  hosts : s.Hosts r.plan
  outside : s.Outside r.around.directory
  unpacks : r.around.unpacker = s.unpackers
  seen : ∀ bytes, bytesAt s.archive r.before.tree r.around.directory = .ok bytes →
    s.contents bytes
  honest : Honest r.around r.plan

/-- Between two runs the library and the way to it are left alone. -/
structure Untouched (s : Site) (t t' : FileTree) : Prop where
  wellFormed : t'.WellFormed
  library : ∀ way, t'.node? (s.base ++ way) = t.node? (s.base ++ way)
  open' : ∀ v, OnTheWay [] s.library v → t.isDirectory v = true → t'.isDirectory v = true

/-- The disks that runs leave, one run after the other, beginning where there is no library. -/
inductive Reached (s : Site) : FileTree → Prop
  | start {t : FileTree} : t.WellFormed → (∀ way, t.node? (s.base ++ way) = none) → Reached s t
  | run {t : FileTree} {r : Run} : Reached s t → s.Untouched t r.before.tree → s.IsRun r →
      Reached s r.after.tree

theorem IsCopy.of_derived (h : s.IsCopy bytes ways t) (hd : Derived s.library ways t t')
    (hwf : t'.WellFormed) (hleads : LeadsToDirectory s.library t' []) :
    s.IsCopy bytes ways t' := by
  obtain ⟨t₀, hfilled, hderived⟩ := h.derived
  exact ⟨h.seen, h.known, h.copied.of_derived hd hwf hleads, t₀, hfilled, hderived.trans hd⟩

theorem IsCopy.standing (h : s.IsCopy bytes ways t) : s.Standing t :=
  ⟨h.copied.wellFormed, .inr h.copied.leads, fun _ => ⟨bytes, ways, h⟩⟩

theorem Standing.of_untouched (h : s.Standing t) (hu : s.Untouched t t') : s.Standing t' := by
  have hleads : LeadsToDirectory s.library t [] → LeadsToDirectory s.library t' [] := by
    intro hleads
    obtain ⟨-, htext, hpassed, hsteps⟩ := locate_eq_ok_iff.1 hleads.locate
    exact answerAt_eq_some_iff.2 ⟨hleads.isAskable, locate_eq_ok_iff.2 ⟨rfl, htext,
      fun v hv => hu.open' v (.inl hv) (hpassed v hv), hsteps⟩,
      isDirectory_iff.1 (hu.open' _ (.inr rfl) hleads.isDirectory)⟩
  refine ⟨hu.wellFormed, h.place.imp (fun hbare way hocc => ?_) hleads, fun hmarked => ?_⟩
  · have hsame := hu.library way
    rw [isOccupied_congr hsame] at hocc
    rw [isDirectory_congr hsame]
    exact hbare way hocc
  · obtain ⟨bytes, ways, hcopy⟩ := h.marked fun hunmarked => hmarked fun hfile =>
      hunmarked ((isFile_congr (hu.library [markerName])).symm.trans hfile)
    exact ⟨bytes, ways, hcopy.of_derived (fun way => .inl (hu.library way)) hu.wellFormed
      (hleads hcopy.copied.leads)⟩

/-- A library that was finished: a copy of an archive with the objects that a build needs. -/
structure Finished (s : Site) (plan : Plan) (links : List String) (bytes : List UInt8)
    (ways : List Location) (t : FileTree) : Prop where
  copy : s.IsCopy bytes ways t
  sortable : Sortable plan links ways t
  complete : Complete plan links ways t

/-- However a run ends, the next one can start. When it succeeds, a library is finished that was
made from the archive as it is now. -/
theorem Standing.perform_assemble (hplan : s.Hosts plan) (h : s.Standing w.tree)
    (hunpacks : around.unpacker = s.unpackers) (hout : s.Outside around.directory)
    (hseen : ∀ bytes, bytesAt s.archive w.tree around.directory = .ok bytes → s.contents bytes)
    (hhonest : Honest around plan) (links : List String) :
    ∃ (outcome : Except Fault Assembled) (w' : World),
      perform (assemble plan links) around w = (outcome, w') ∧ s.Standing w'.tree ∧
      ∀ a, outcome = .ok a → ∃ bytes ways,
        bytesAt s.archive w.tree around.directory = .ok bytes ∧
        s.Finished plan links bytes ways w'.tree ∧ s.OutsideKept w w' ∧
        a.objects = (neededWays s.library plan.gc links ways).map
          fun src => s.library.descend (objectWay src) := by
  rw [assemble_eq_unpack]
  rcases h.perform_unpack hplan hunpacks hout hseen with
    ⟨fault, w', hfault, hstanding⟩ | ⟨bytes, ways, v, hunpack, hbytes, hcopy, hkept⟩
  · exact ⟨.error fault, w', perform_bind_error hfault, hstanding, nofun⟩
  · have hlib : plan.libraryDirectory.isAbsolute = true :=
      hplan.libraryDirectory ▸ s.isAbsolute_library
    obtain ⟨outcome, w', hperform, hwf, hchanged, hok, -⟩ := perform_complete hlib hhonest
      (hplan.libraryDirectory ▸ hcopy.copied) links
    rw [hplan.libraryDirectory] at hperform hchanged
    have hcopy' : s.IsCopy bytes ways w'.tree :=
      hcopy.of_derived hchanged.2 hwf (hcopy.copied.of_changed hchanged hwf).leads
    refine ⟨outcome, w', (perform_bind_ok hunpack).trans hperform, hcopy'.standing,
      fun a ha => ?_⟩
    obtain ⟨hsortable, hobjects, hcomplete⟩ := hok a ha
    rw [hplan.libraryDirectory] at hobjects
    have hdirs := hchanged.2.isDirectory_eq
    rw [← hplan.libraryDirectory] at hdirs
    refine ⟨bytes, ways, hbytes, ⟨hcopy', hsortable.congr rfl hdirs, hcomplete⟩,
      fun q hq => ?_, hobjects⟩
    rw [hchanged.1 q hq]
    exact hkept q hq

theorem Reached.standing (h : s.Reached t) : s.Standing t := by
  induction h with
  | start hwf habsent =>
      exact .of_bare s hwf (bare_of_absent habsent)
  | @run t r _ huntouched hrun ih =>
      obtain ⟨outcome, w', hperform, hstanding, -⟩ := (ih.of_untouched huntouched).perform_assemble
        hrun.hosts hrun.unpacks hrun.outside hrun.seen hrun.honest r.links
      rw [Run.after, hperform]
      exact hstanding

section TwoCopies

variable {other : List Location} (h : s.IsCopy bytes ways t) (h' : s.IsCopy bytes other t')

include h h'

theorem isDirectory_eq_of_isCopy (way : Location) :
    t'.isDirectory (s.base ++ way) = t.isDirectory (s.base ++ way) := by
  obtain ⟨t₀, hfilled, hderived⟩ := h.derived
  obtain ⟨t₀', hfilled', hderived'⟩ := h'.derived
  rw [hderived.isDirectory_eq, hderived'.isDirectory_eq,
    isDirectory_congr (hfilled'.node?_eq s.isAbsolute_library hfilled way)]

theorem mem_iff_of_isCopy (src : Location) : src ∈ ways ↔ src ∈ other := by
  have hnew : ∀ {ways t}, s.IsCopy bytes ways t → IsSourceWay src → ∃ t₀,
      Filled s.unpackers s.library bytes t₀ ∧
        t.isFile (s.base ++ src) = t₀.isFile (s.base ++ src) := by
    intro ways t h hsrc
    obtain ⟨t₀, hfilled, hderived⟩ := h.derived
    exact ⟨t₀, hfilled, isFile_congr (hderived.node?_eq fun x hx heq =>
      not_isSourceWay_objectWay (h.copied.isSourceWay hx) (heq ▸ hsrc))⟩
  rw [h.copied.sources, h'.copied.sources]
  refine and_congr_right fun hsrc => ?_
  obtain ⟨t₀, hfilled, heq⟩ := hnew h hsrc
  obtain ⟨t₀', hfilled', heq'⟩ := hnew h' hsrc
  rw [heq, heq', isFile_congr (hfilled.node?_eq s.isAbsolute_library hfilled' src)]

theorem fileOrder_eq_of_isCopy : fileOrder other = fileOrder ways :=
  fileOrder_congr (fun _ hway => h'.copied.isStep hway) h'.copied.nodup h.copied.nodup
    fun way => (mem_iff_of_isCopy h h' way).symm

theorem node?_eq_of_isCopy {way : Location} (hway : ∀ src ∈ ways, way ≠ objectWay src) :
    t'.node? (s.base ++ way) = t.node? (s.base ++ way) := by
  obtain ⟨t₀, hfilled, hderived⟩ := h.derived
  obtain ⟨t₀', hfilled', hderived'⟩ := h'.derived
  calc t'.node? (s.base ++ way) = t₀'.node? (s.base ++ way) :=
        hderived'.node?_eq fun src hsrc => hway src ((mem_iff_of_isCopy h h' src).2 hsrc)
    _ = t₀.node? (s.base ++ way) := hfilled'.node?_eq s.isAbsolute_library hfilled way
    _ = t.node? (s.base ++ way) := (hderived.node?_eq hway).symm

end TwoCopies

section TwoLibraries

variable {other : List Location} (hplan : s.Hosts plan) (h : s.Finished plan links bytes ways t)
  (h' : s.Finished plan links bytes other t')

include hplan h h'

theorem isOccupied_object_of_finished {src : Location} (hsrc : src ∈ ways) :
    t'.isOccupied (s.base ++ objectWay src) = t.isOccupied (s.base ++ objectWay src) := by
  have hsrc' := (mem_iff_of_isCopy h.copy h'.copy src).1 hsrc
  have hplace : objectAt plan.libraryDirectory src = s.base ++ objectWay src := by
    rw [hplan.libraryDirectory, objectAt]
  rw [← hplace]
  by_cases hneed : isNeededAt plan.libraryDirectory plan.gc links src = true
  · rw [h.complete.needed src hsrc hneed, h'.complete.needed src hsrc' hneed]
  · have hnone := h.complete.others src hsrc hneed
    have hnone' := h'.complete.others src hsrc' hneed
    rw [Bool.not_eq_true] at hnone hnone'
    rw [hnone, hnone']

theorem isFile_eq_of_finished (way : Location) :
    t'.isFile (s.base ++ way) = t.isFile (s.base ++ way) := by
  by_cases hway : ∃ src ∈ ways, way = objectWay src
  · obtain ⟨src, hsrc, rfl⟩ := hway
    -- what is there and is no directory is a file
    have hfile : ∀ (t : FileTree) (q : Location),
        t.isFile q = (t.isOccupied q && !t.isDirectory q) := fun t q => by
      unfold FileTree.isFile file? FileTree.isOccupied FileTree.isDirectory
      rcases t.node? q with _ | _ | f <;> rfl
    rw [hfile, hfile, isOccupied_object_of_finished hplan h h' hsrc,
      isDirectory_eq_of_isCopy h.copy h'.copy]
  · exact isFile_congr (node?_eq_of_isCopy h.copy h'.copy
      fun src hsrc heq => hway ⟨src, hsrc, heq⟩)

end TwoLibraries

/-- Two runs give the same library: the same objects to link, the same files, and apart from the
objects of sources nothing that differs. -/
structure SameLibrary (s : Site) (a a' : Assembled) (t t' : FileTree) : Prop where
  objects : a'.objects = a.objects
  files : ∀ way, t'.isFile (s.base ++ way) = t.isFile (s.base ++ way)
  others : ∀ way,
    (¬ ∃ src, IsSourceWay src ∧ t.isFile (s.base ++ src) = true ∧ way = objectWay src) →
      t'.node? (s.base ++ way) = t.node? (s.base ++ way)

/-- Where the library was cleared away, it can be made again if it was made before. -/
theorem exists_makes (hcopy : s.IsCopy bytes ways w'.tree) (hkept : s.OutsideKept w w')
    (hwf : w₀.tree.WellFormed) (hcleared : Removed s.base w w₀)
    (hunpacks : around.unpacker = s.unpackers) :
    ∃ v, s.Makes around bytes w₀ v := by
  obtain ⟨t₀, hfilled, -⟩ := hcopy.derived
  rw [← hunpacks] at hfilled
  have hleads := hcopy.copied.leads
  obtain ⟨-, htext, -, hsteps⟩ := locate_eq_ok_iff.1 hleads.locate
  have hfree : ∀ v, OnTheWay around.directory s.library v → ¬ w₀.tree.isFile v = true := by
    intro v hv hfile
    obtain ⟨f, hf⟩ := isFile_iff.1 hfile
    by_cases hbelow : s.base <+: v
    · obtain ⟨way, rfl⟩ := hbelow
      rw [hcleared.node?_below] at hf
      cases hf
    · -- the way to the library is open afterwards, so no file is on it
      have hdir := hleads.isDirectory_of_onTheWay (hv.of_absolute s.isAbsolute_library [])
      rw [hcleared.node?_elsewhere hbelow] at hf
      rcases hkept v hbelow with heq | ⟨-, hnone, -⟩
      · rw [isDirectory_iff, heq, hf] at hdir
        cases hdir
      · rw [hnone] at hf
        cases hf
  obtain ⟨v, hmake⟩ := exists_perform_makeDirectories hleads.isAskable ⟨htext, hsteps⟩ hfree
  obtain ⟨v', hfill, -⟩ := hfilled.exists_perform_fill s.isAbsolute_library
    (prepared_of_makeDirectories s.isAbsolute_library hwf
      (bare_of_absent hcleared.node?_below) hmake)
  exact ⟨v', hcopy.known, v, hmake, hfill⟩

/-- A run that can freshen the copy succeeds with compilers that succeed, if the objects can be
sorted out. -/
theorem exists_assembled {r : Run} (hrun : s.IsRun r) (hstanding : s.Standing w.tree)
    (hseen : ∀ bytes, bytesAt s.archive w.tree r.around.directory = .ok bytes → s.contents bytes)
    {renewed : Option Unit} {v : World}
    (hfreshen : perform (s.copy.freshen writeManifest) r.around w = (.ok renewed, v))
    (hbytes : bytesAt s.archive w.tree r.around.directory = .ok bytes)
    (hcopy : s.IsCopy bytes ways t) (hsortable : Sortable r.plan r.links ways t)
    (hsucceeds : Succeeds r.around r.plan) : ∃ a, (r.on w).outcome = .ok a := by
  rcases hstanding.perform_freshen hrun.unpacks hrun.outside hseen with
    ⟨fault, v', hfault, -⟩ | ⟨renewed, other, ways₀, v', hok, hother, hcopy₀, -⟩
  · rw [hfreshen] at hfault
    cases hfault
  · rw [hbytes] at hother
    cases hother
    obtain ⟨v₁, htree, hunpack⟩ := perform_unpack_of_freshen hrun.hosts hok hcopy₀
    have hlib : r.plan.libraryDirectory.isAbsolute = true :=
      hrun.hosts.libraryDirectory ▸ s.isAbsolute_library
    have hcopied : Copied r.plan.libraryDirectory bytes ways₀ v₁.tree := by
      rw [hrun.hosts.libraryDirectory, htree]
      exact hcopy₀.copied
    obtain ⟨outcome, w₁, hperform, -, -, -, hsuccess⟩ := perform_complete hlib
      hrun.honest hcopied r.links
    have hdirs := isDirectory_eq_of_isCopy hcopy hcopy₀
    rw [← htree, base, ← hrun.hosts.libraryDirectory] at hdirs
    obtain ⟨a, ha⟩ := hsuccess (hsortable.congr (fileOrder_eq_of_isCopy hcopy hcopy₀) hdirs)
      hsucceeds
    refine ⟨a, ?_⟩
    rw [hrun.hosts.libraryDirectory] at hperform
    have hassemble : perform (assemble r.plan r.links) r.around w = (outcome, w₁) := by
      rw [assemble_eq_unpack, perform_bind_ok hunpack, hperform]
    exact (congrArg Prod.fst hassemble).trans ha

/-- A run that succeeds leaves the library that it would have made in a place where none was before,
whatever the runs before it were. -/
theorem assemble_history_independent (h : s.Reached t) {r : Run}
    (huntouched : s.Untouched t r.before.tree) (hrun : s.IsRun r) {a : Assembled}
    (hok : r.outcome = .ok a) (hcleared : Removed s.base r.before w₀) :
    (∀ a₀, (r.on w₀).outcome = .ok a₀ →
        s.SameLibrary a a₀ r.after.tree (r.on w₀).after.tree) ∧
      (Succeeds r.around r.plan → ∃ a₀, (r.on w₀).outcome = .ok a₀) := by
  have hstanding := h.standing.of_untouched huntouched
  obtain ⟨outcome, w', hperform, -, hall⟩ := hstanding.perform_assemble
    hrun.hosts hrun.unpacks hrun.outside hrun.seen hrun.honest r.links
  rw [Run.outcome, hperform] at hok
  obtain ⟨bytes, ways, hbytes, hfinished, hkept, hobjects⟩ := hall a hok
  have hwf₀ := hcleared.wellFormed hstanding.wellFormed
  have hbare₀ : Bare s.library w₀.tree := bare_of_absent hcleared.node?_below
  have hstanding₀ := Standing.of_bare s hwf₀ hbare₀
  have hbytes₀ : bytesAt s.archive w₀.tree r.around.directory = .ok bytes :=
    (s.bytesAt_of_changedBelow hrun.outside fun q hq => hcleared.node?_elsewhere hq).trans hbytes
  have hseen₀ : ∀ other, bytesAt s.archive w₀.tree r.around.directory = .ok other →
      s.contents other := by
    intro other hother
    rw [hbytes₀] at hother
    cases hother
    exact hfinished.copy.seen
  refine ⟨fun a₀ hok₀ => ?_, fun hsucceeds => ?_⟩
  · obtain ⟨outcome₀, w₁, hperform₀, -, hall₀⟩ := hstanding₀.perform_assemble
      hrun.hosts hrun.unpacks hrun.outside hseen₀ hrun.honest r.links
    have houtcome : (r.on w₀).outcome = outcome₀ := congrArg Prod.fst hperform₀
    have hafter : (r.on w₀).after = w₁ := congrArg Prod.snd hperform₀
    obtain ⟨other, ways₀, hother, hfinished₀, -, hobjects₀⟩ := hall₀ a₀ (houtcome ▸ hok₀)
    rw [hbytes₀] at hother
    cases hother
    rw [hafter, show r.after = w' from congrArg Prod.snd hperform]
    refine ⟨?_, isFile_eq_of_finished hrun.hosts hfinished hfinished₀, fun way hway => ?_⟩
    · rw [hobjects, hobjects₀, neededWays, neededWays,
        fileOrder_eq_of_isCopy hfinished.copy hfinished₀.copy]
    · refine node?_eq_of_isCopy hfinished.copy hfinished₀.copy fun src hsrc heq => hway ?_
      obtain ⟨hsource, hfile⟩ := (hfinished.copy.copied.sources src).1 hsrc
      exact ⟨src, hsource, hfile, heq⟩
  · have hleads := hfinished.copy.copied.leads
    obtain ⟨-, htext, -, hsteps⟩ := locate_eq_ok_iff.1 hleads.locate
    have habsent : w₀.tree.node? s.base = none := by
      simpa using hcleared.node?_below []
    obtain ⟨v, hfreshen⟩ := perform_freshen_of_absent hwf₀ hbare₀ hleads.isAskable
      ⟨htext, hsteps⟩ habsent hbytes₀ hfinished.copy.seen
      (exists_makes hfinished.copy hkept hwf₀ hcleared hrun.unpacks)
    exact exists_assembled hrun hstanding₀ hseen₀ hfreshen hbytes₀ hfinished.copy
      hfinished.sortable hsucceeds

section DroppedLink

/-- An archive with one source, which is only needed with the library `z`. -/
def archiveOfZ : List UInt8 :=
  [80, 75, 3, 4, 20, 0, 0, 0, 0, 0, 0, 0, 33, 0, 0, 0, 0, 0, 0, 0, 0, 0, 0, 0, 0, 0, 12, 0, 0, 0,
    111, 112, 116, 105, 111, 110, 97, 108, 47, 122, 46, 99, 80, 75, 1, 2, 20, 3, 20, 0, 0, 0, 0, 0,
    0, 0, 33, 0, 0, 0, 0, 0, 0, 0, 0, 0, 0, 0, 0, 0, 12, 0, 0, 0, 0, 0, 0, 0, 0, 0, 0, 0, 128, 1, 0,
    0, 0, 0, 111, 112, 116, 105, 111, 110, 97, 108, 47, 122, 46, 99, 80, 75, 5, 6, 0, 0, 0, 0, 1, 0,
    1, 0, 58, 0, 0, 0, 42, 0, 0, 0, 0, 0]

/-- The work directory `/w`, with the archive beside it. -/
def siteOfZ : Site where
  workdir := .parse "/w"
  archive := .parse "/a.jar"
  unpackers := (Surroundings.still []).unpacker
  contents bytes := bytes = archiveOfZ
  absolute := by decide
  shipsNoMarker := by
    rintro _ rfl all hall m hm
    have hways : ∀ m ∈ (Archive.members archiveOfZ).toOption.getD [], m.way ≠ [markerName] := by
      decide +kernel
    rw [hall] at hways
    exact hways m hm
  distinct := by
    rintro _ _ rfl rfl -
    rfl

/-- A run that links with some libraries. -/
def runLinking (links : List String) (before : World) : Run where
  plan := ⟨.parse "/clang", .parse "/clang++", "x86_64-linux", "main", .parse "/w",
    .parse "/a.jar", [], [], [], .default, .default, "Linux", true, 1, false⟩
  links := links
  around := { Surroundings.still [] with tool := writingTool [79] }
  before := before

/-- The disk before the first run. -/
def diskOfZ : World :=
  .ofTree (FileTree.empty.writeFile ["a.jar"] archiveOfZ)

theorem isRun_runLinking (links : List String) {before : World}
    (hthere : (bytesAt siteOfZ.archive before.tree []).toOption = some archiveOfZ) :
    siteOfZ.IsRun (runLinking links before) where
  hosts := ⟨rfl, rfl⟩
  outside := by
    change siteOfZ.Outside []
    rintro v (hv | rfl)
    · revert v
      decide
    · decide
  unpacks := rfl
  seen bytes hbytes := by
    have hfound : bytesAt siteOfZ.archive before.tree [] = .ok bytes := hbytes
    rw [hfound] at hthere
    exact Option.some.inj hthere
  honest := honest_of_writing rfl (show siteOfZ.library.isAbsolute = true by decide)

/-- A run that no longer links with `z`, after one that did, leaves what it would have left if it
had been the first. -/
theorem assemble_after_link_dropped :
    ∃ a a₀ w₀, siteOfZ.Reached (runLinking ["z"] diskOfZ).after.tree ∧
      (runLinking [] (runLinking ["z"] diskOfZ).after).outcome = .ok a ∧
      Removed siteOfZ.base (runLinking ["z"] diskOfZ).after w₀ ∧
      (runLinking [] w₀).outcome = .ok a₀ ∧
      siteOfZ.SameLibrary a a₀ (runLinking [] (runLinking ["z"] diskOfZ).after).after.tree
        (runLinking [] w₀).after.tree := by
  have hwrite : FileTree.empty.write [] (.parse "/a.jar") archiveOfZ = .ok diskOfZ.tree := rfl
  have hstart : FileTree.isDirectory .empty (start [] (.parse "/a.jar")) = true := rfl
  have hwf : diskOfZ.tree.WellFormed :=
    wellFormed_empty.write hstart (by decide +kernel) hwrite
  have habsent : ∀ way, diskOfZ.tree.node? (siteOfZ.base ++ way) = none := fun way => by
    change (FileTree.writeFile _ _ _).node? _ = none
    rw [node?_writeFile (by decide)]
    rfl
  have hreached : siteOfZ.Reached (runLinking ["z"] diskOfZ).after.tree :=
    .run (.start hwf habsent) ⟨hwf, fun _ => rfl, fun _ _ h => h⟩
      (isRun_runLinking ["z"] (by decide +kernel))
  -- both runs are carried out here
  have hruns : (bytesAt siteOfZ.archive (runLinking ["z"] diskOfZ).after.tree []).toOption =
        some archiveOfZ ∧
      (runLinking [] (runLinking ["z"] diskOfZ).after).outcome.isOk = true ∧
      (perform (removeTree siteOfZ.library) (.still [])
        (runLinking ["z"] diskOfZ).after).1.isOk = true := by
    decide +kernel
  obtain ⟨hthere, hok, hcleared⟩ := hruns
  rcases houtcome : (runLinking [] (runLinking ["z"] diskOfZ).after).outcome with fault | a
  · rw [houtcome] at hok
    cases hok
  rcases perform_removeTree siteOfZ.library (.still []) (runLinking ["z"] diskOfZ).after with
    ⟨fault, hfault⟩ | ⟨fault, w', hfault, -⟩ | ⟨w₀, -, hremoved⟩
  · rw [hfault] at hcleared
    cases hcleared
  · rw [hfault] at hcleared
    cases hcleared
  obtain ⟨hsame, hagain⟩ := assemble_history_independent hreached
    ⟨hreached.standing.wellFormed, fun _ => rfl, fun _ _ h => h⟩ (isRun_runLinking [] hthere)
    houtcome hremoved
  obtain ⟨a₀, ha₀⟩ := hagain (succeeds_of_writing rfl
    (show siteOfZ.library.isAbsolute = true by decide)
    (show isAskable siteOfZ.library = true by decide +kernel)
    (show ".." ∉ siteOfZ.library.steps by decide))
  exact ⟨a, a₀, w₀, hreached, rfl, hremoved, ha₀, hsame a₀ ha₀⟩

end DroppedLink

end Site

end StagedBuild.NativeLibrary
