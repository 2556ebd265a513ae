import StagedBuild.Proofs.NativeLibrary.Unusable

/-!
What becomes of the file of the archive when it is unpacked. Unpacking writes and takes away only
below the library, so an archive that lies elsewhere is kept however it ends. An archive inside the
library goes away with a copy that is not current: the copy is taken away before the archive is read
again.
-/

namespace StagedBuild.NativeLibrary

open Action FileTree Disk Manifest

variable {around : Surroundings} {w v w' : World} {plan : Plan} {bytes : List UInt8}
  {fault : Fault} {f : File}

/-- A renewal writes here, seen from the library: the manifest, the marker and the members. -/
def WritesTo (bytes : List UInt8) (way : Location) : Prop :=
  way = [fileName] ∨ way = [markerName] ∨
    ∃ all, Archive.members bytes = .ok all ∧ ∃ m ∈ all, m.way = way

/-- What may cost the archive its file. It lies inside the library, and the copy is not current and
goes away; or the library is not found by its path, and what is poured out goes where the archive
lies; or the archive lies where the manifest of a current copy has to be made anew. -/
inductive Costs (around : Surroundings) (plan : Plan) (w : World) : Prop
  | cleared {bytes : List UInt8} (hold : IsOld around plan w bytes)
      (hlib : LeadsToDirectory plan.libraryDirectory w.tree around.directory)
      (hbelow : isBelow (goalOf around.directory plan.libraryDirectory)
        (goalOf around.directory plan.archive) = true)
  | covered {bytes : List UInt8} {way : Location} (hold : IsOld around plan w bytes)
      (hlib : answerAt plan.libraryDirectory w.tree around.directory = .ok none)
      (hway : way ≠ []) (hwrites : WritesTo bytes way)
      (hplace : goalOf around.directory plan.archive =
        goalOf around.directory plan.libraryDirectory ++ way)
  | listed {fault : Fault} (hfresh : perform (copyOf plan).isFresh around w = (.ok true, w))
      (hplace : goalOf around.directory plan.archive =
        fileAt (goalOf around.directory plan.libraryDirectory))
      (hread : EndsIn around (told plan false w) (readSources plan.libraryDirectory) fault)
      (hrepair : isRepairable fault = true)

section Freshen

theorem perform_freshen_of_fresh (h : perform (copyOf plan).isFresh around w = (.ok true, w)) :
    perform ((copyOf plan).freshen writeManifest) around w = (.ok none, w) := by
  unfold ArchiveCopy.freshen
  rw [perform_bind_ok h]
  rfl

theorem perform_freshen_of_error (h : perform (copyOf plan).isFresh around w = (.error fault, w)) :
    perform ((copyOf plan).freshen writeManifest) around w = (.error fault, w) := by
  unfold ArchiveCopy.freshen
  rw [perform_bind_error h]

theorem perform_freshen_of_stale (h : perform (copyOf plan).isFresh around w = (.ok false, w)) :
    perform ((copyOf plan).freshen writeManifest) around w =
      ((perform ((copyOf plan).renew writeManifest) around w).1.map some,
        (perform ((copyOf plan).renew writeManifest) around w).2) := by
  unfold ArchiveCopy.freshen
  rw [perform_bind_ok h]
  exact perform_map some _ around w

theorem IsOld.perform_isFresh (h : IsOld around plan w bytes) :
    perform (copyOf plan).isFresh around w = (.ok false, w) := by
  obtain ⟨held, hmark, hne⟩ := h.marked
  rw [NativeLibrary.perform_isFresh, hmark, h.archive]
  cases held with
  | none => rfl
  | some held =>
    have hheld : held ≠ markingOf bytes := fun heq => hne (congrArg some heq)
    simp [bind, Except.bind, pure, Except.pure, hheld]

theorem perform_unpack_of_error
    (h : perform ((copyOf plan).freshen writeManifest) around w = (.error fault, v)) :
    ∃ fault', perform (unpack plan) around w = (.error fault', v) := by
  rw [unpack_eq, perform_bind, perform_outcome, h]
  cases fault <;> exact ⟨_, rfl⟩

end Freshen

section Steps

theorem perform_marking_of_bytes
    (h : bytesAt plan.archive w.tree around.directory = .ok bytes) :
    perform (copyOf plan).marking around w = (.ok (markingOf bytes), w) := by
  rw [copyOf, perform_marking, h]
  rfl

theorem perform_clear_of_none
    (h : answerAt plan.libraryDirectory w.tree around.directory = .ok none) :
    perform (Site.clear plan.libraryDirectory) around w = (.ok (), w) := by
  unfold Site.clear
  rw [perform_bind, perform_isOccupied, h]
  rfl

theorem perform_clear_of_some {node : Node}
    (h : answerAt plan.libraryDirectory w.tree around.directory = .ok (some node)) :
    perform (Site.clear plan.libraryDirectory) around w =
      perform (removeTree plan.libraryDirectory) around w := by
  unfold Site.clear
  rw [perform_bind, perform_isOccupied, h]
  rfl

end Steps

section Kept

/-- Everything but one location may be touched. -/
abbrev SparingOnly (loc : Location) : World → World → Prop :=
  Sparing (· ≠ loc)

theorem SparingOnly.node? {loc : Location} {node : Node} (h : SparingOnly loc w w')
    (hnode : w.tree.node? loc = some node) : w'.tree.node? loc = some node :=
  Spares.node?_of_some h (not_not.2 rfl) hnode

theorem sparingOnly_load
    (hlisted : goalOf around.directory plan.archive =
        fileAt (goalOf around.directory plan.libraryDirectory) →
      ∀ fault, EndsIn around w (readSources plan.libraryDirectory) fault →
        ¬ isRepairable fault = true) :
    SparingOnly (goalOf around.directory plan.archive) w
      (perform (load plan.libraryDirectory) around w).2 := by
  by_cases hplace : goalOf around.directory plan.archive =
      fileAt (goalOf around.directory plan.libraryDirectory)
  · have hreadOnly := readOnly_readSources plan.libraryDirectory around w
    unfold load
    rw [perform_bind, perform_outcome]
    rcases hread : perform (readSources plan.libraryDirectory) around w with ⟨fault | sources, u⟩
    · rw [hread] at hreadOnly
      obtain rfl : u = w := hreadOnly
      have hnot := hlisted hplace fault (congrArg Prod.fst hread)
      dsimp only
      rw [if_neg hnot]
      exact Passage.refl u
    · rw [hread] at hreadOnly
      obtain rfl : u = w := hreadOnly
      exact Passage.refl u
  · refine keeps_load_within (fun _ => sparing_writeBytes ?_ _) w
    rw [goalOf_child _ _ isEntryName_fileName]
    exact Ne.symm hplace

variable (hfile : w.tree.node? (goalOf around.directory plan.archive) = some (.file f))

include hfile

theorem sparingOnly_renew_of_leads
    (hlib : LeadsToDirectory plan.libraryDirectory w.tree around.directory)
    (hbelow : ¬ isBelow (goalOf around.directory plan.libraryDirectory)
      (goalOf around.directory plan.archive) = true) :
    SparingOnly (goalOf around.directory plan.archive) w
      (perform ((copyOf plan).renew writeManifest) around w).2 := by
  refine sparing_renew (fun way heq => ?_) w
  by_cases hway : way = []
  · have hdir := isDirectory_iff.1 hlib.isDirectory
    rw [hway, List.append_nil] at heq
    rw [heq, hfile] at hdir
    cases hdir
  · exact hbelow (heq ▸ isBelow_append.2 hway)

theorem sparingOnly_extract (hbytes : bytesAt plan.archive w.tree around.directory = .ok bytes)
    (hmembers : ∀ all, Archive.members bytes = .ok all → ∀ m ∈ all, m.way ≠ [] →
      goalOf around.directory plan.libraryDirectory ++ m.way ≠
        goalOf around.directory plan.archive) :
    SparingOnly (goalOf around.directory plan.archive) w
      (perform (Archive.extract plan.archive plan.libraryDirectory) around w).2 := by
  refine Archive.of_perform_extract (sparing_makeDirectories _ _)
    fun v poured all hmade _ hpoured hall => ?_
  have hadds := (adds_makeDirectories around plan.libraryDirectory).of_perform hmade
  obtain rfl : poured = bytes := Except.ok.inj (hpoured.symm.trans (bytesAt_of_added hadds hbytes))
  refine Archive.sparing_extractMembers poured plan.libraryDirectory (fun m hm heq => ?_) v
  by_cases hway : m.way = []
  -- the library is a directory by now, and the archive is still a file
  · have hdir := isDirectory_iff.1 (leads_of_makeDirectories hmade).isDirectory
    have hspares : Spares (fun _ => False) w.tree v.tree := .of_directoriesAdded hadds
    have hkept := hspares.node?_of_some not_false hfile
    rw [hway, List.append_nil] at heq
    rw [heq, hkept] at hdir
    cases hdir
  · exact hmembers all hall m hm hway heq

theorem sparingOnly_renew_of_none (hold : IsOld around plan w bytes)
    (hlib : answerAt plan.libraryDirectory w.tree around.directory = .ok none)
    (hwrites : ∀ way, way ≠ [] → WritesTo bytes way →
      goalOf around.directory plan.libraryDirectory ++ way ≠
        goalOf around.directory plan.archive) :
    SparingOnly (goalOf around.directory plan.archive) w
      (perform ((copyOf plan).renew writeManifest) around w).2 := by
  have hchild : ∀ {name : String}, isEntryName name = true → WritesTo bytes [name] →
      ∀ data, Keeps around (SparingOnly (goalOf around.directory plan.archive))
        (writeBytes (plan.libraryDirectory / name) data) := by
    intro name hname hwrite data
    refine sparing_writeBytes ?_ data
    rw [goalOf_child _ _ hname]
    exact hwrites [name] (List.cons_ne_nil _ _) hwrite
  have hextract := sparingOnly_extract hfile hold.archive fun all hall m hm hway =>
    hwrites m.way hway (.inr (.inr ⟨all, hall, m, hm, rfl⟩))
  have hlist : Keeps around (SparingOnly (goalOf around.directory plan.archive))
      (writeManifest plan.libraryDirectory) :=
    keeps_writeManifest_within (hchild isEntryName_fileName (.inl rfl))
  have hmark := hchild isEntryName_markerName (.inr (.inl rfl)) (markingOf bytes)
  rw [renew_eq_clear, perform_bind_ok (perform_marking_of_bytes hold.archive), copyOf_directory,
    perform_bind_ok (perform_clear_of_none hlib)]
  exact Keeps.bind_at hextract fun _ v _ => (hlist.bind fun _ =>
    (sparing_makeDirectories _ _).bind fun _ => hmark.bind fun _ => Keeps.pure _) v

end Kept

section Gone

theorem perform_renew_of_file (hbytes : bytesAt plan.archive w.tree around.directory = .ok bytes)
    (hlib : answerAt plan.libraryDirectory w.tree around.directory = .ok (some (.file f))) :
    ∃ fault, perform ((copyOf plan).renew writeManifest) around w = (.error fault, w) := by
  obtain ⟨hask, hloc, hnode⟩ := answerAt_eq_some_iff.1 hlib
  obtain ⟨fault, hremove⟩ := perform_removeTree_file hask hloc hnode
  rw [renew_eq_clear, perform_bind_ok (perform_marking_of_bytes hbytes), copyOf_directory]
  exact ⟨fault, perform_bind_error ((perform_clear_of_some hlib).trans hremove)⟩

/-- An archive that lies in a copy goes away with it, and the renewal fails. -/
theorem perform_renew_of_inside (hbytes : bytesAt plan.archive w.tree around.directory = .ok bytes)
    (hlib : LeadsToDirectory plan.libraryDirectory w.tree around.directory)
    (hbelow : isBelow (goalOf around.directory plan.libraryDirectory)
      (goalOf around.directory plan.archive) = true) :
    ∃ fault v, perform ((copyOf plan).renew writeManifest) around w = (.error fault, v) ∧
      v.tree.node? (goalOf around.directory plan.archive) = none := by
  have hclear := perform_clear_of_some hlib
  rw [renew_eq_clear, perform_bind_ok (perform_marking_of_bytes hbytes), copyOf_directory]
  rcases perform_removeTree_directory hlib.isAskable hlib.locate
      (isDirectory_iff.1 hlib.isDirectory)
    with ⟨fault, v, hremove, hemptied⟩ | ⟨v, hremove, hremoved⟩
  · exact ⟨fault, v, perform_bind_error (hclear.trans hremove),
      (hemptied _).trans (if_pos hbelow)⟩
  · obtain ⟨way, -, hway⟩ := isBelow_iff.1 hbelow
    have hnone : v.tree.node? (goalOf around.directory plan.archive) = none := by
      rw [hway, hremoved.node?_below]
    have hextract : ∃ fault, perform (Archive.extract plan.archive plan.libraryDirectory) around v =
        (.error fault, v) := by
      unfold Archive.extract
      rw [perform_bind, perform_isOccupied]
      rcases hanswer : answerAt plan.archive v.tree around.directory with fault | _ | node
      · exact ⟨fault, rfl⟩
      · exact ⟨.extraction (.missing plan.archive), rfl⟩
      · rw [(answerAt_eq_some_iff.1 hanswer).2.2] at hnone
        cases hnone
    obtain ⟨fault, hextract⟩ := hextract
    refine ⟨fault, v, (perform_bind_ok (hclear.trans hremove)).trans ?_, hnone⟩
    exact perform_bind_error hextract

end Gone

theorem sparingOnly_renew
    (hfile : w.tree.node? (goalOf around.directory plan.archive) = some (.file f))
    (hcosts : ¬ Costs around plan w) (hold : IsOld around plan w bytes) :
    SparingOnly (goalOf around.directory plan.archive) w
      (perform ((copyOf plan).renew writeManifest) around w).2 := by
  rcases hlib : answerAt plan.libraryDirectory w.tree around.directory with fault | _ | node
  · obtain ⟨held, hmark, -⟩ := hold.marked
    rw [markAt, hlib] at hmark
    cases hmark
  · refine sparingOnly_renew_of_none hfile hold hlib fun way hway hwrites hplace => ?_
    exact hcosts (.covered hold hlib hway hwrites hplace.symm)
  · cases node with
    | directory =>
      refine sparingOnly_renew_of_leads hfile hlib fun hbelow => ?_
      exact hcosts (.cleared hold hlib hbelow)
    | file g =>
      obtain ⟨fault, hrenew⟩ := perform_renew_of_file hold.archive hlib
      rw [hrenew]
      exact Passage.refl w

theorem ne_fileAt_of_renew (hcosts : ¬ Costs around plan w) (hold : IsOld around plan w bytes)
    (hrenew : perform ((copyOf plan).renew writeManifest) around w = (.ok (), v)) :
    goalOf around.directory plan.archive ≠
      fileAt (goalOf around.directory plan.libraryDirectory) := by
  intro hplace
  rcases hlib : answerAt plan.libraryDirectory w.tree around.directory with fault | _ | node
  · obtain ⟨held, hmark, -⟩ := hold.marked
    rw [markAt, hlib] at hmark
    cases hmark
  · exact hcosts (.covered hold hlib (List.cons_ne_nil _ _) (.inl rfl) hplace)
  · cases node with
    | directory =>
      exact hcosts (.cleared hold hlib (hplace ▸ isBelow_append.2 (List.cons_ne_nil _ _)))
    | file g =>
      obtain ⟨fault, hfailed⟩ := perform_renew_of_file hold.archive hlib
      cases hrenew.symm.trans hfailed

theorem sparingOnly_unpack_of_error
    (h : perform ((copyOf plan).freshen writeManifest) around w = (.error fault, v))
    (hspares : SparingOnly (goalOf around.directory plan.archive) w v) :
    SparingOnly (goalOf around.directory plan.archive) w (perform (unpack plan) around w).2 := by
  obtain ⟨fault', hunpack⟩ := perform_unpack_of_error h
  rwa [hunpack]

theorem sparingOnly_unpack_of_ok {renewed : Option Unit}
    (h : perform ((copyOf plan).freshen writeManifest) around w = (.ok renewed, v))
    (hspares : SparingOnly (goalOf around.directory plan.archive) w v)
    (hlisted : goalOf around.directory plan.archive =
        fileAt (goalOf around.directory plan.libraryDirectory) →
      ∀ fault, EndsIn around (told plan renewed.isSome v) (readSources plan.libraryDirectory)
        fault → ¬ isRepairable fault = true) :
    SparingOnly (goalOf around.directory plan.archive) w (perform (unpack plan) around w).2 := by
  rw [unpack_eq, perform_bind, perform_outcome, h]
  dsimp only
  rw [perform_finish_ok]
  have htold : SparingOnly (goalOf around.directory plan.archive) v
      (told plan renewed.isSome v) := .of_tree_eq (told_tree plan _ v)
  exact Passage.trans (Passage.trans hspares htold) (sparingOnly_load hlisted)

theorem sparingOnly_unpack
    (hfile : w.tree.node? (goalOf around.directory plan.archive) = some (.file f))
    (hcosts : ¬ Costs around plan w) :
    SparingOnly (goalOf around.directory plan.archive) w (perform (unpack plan) around w).2 := by
  rcases judged plan around w with ⟨cause, -, hfresh⟩ | ⟨held, hmark, hjudged⟩
  · exact sparingOnly_unpack_of_error (perform_freshen_of_error hfresh) (Passage.refl w)
  rcases hjudged with ⟨cause, hbytes, hfresh | hfresh⟩ | ⟨bytes, hbytes, hfresh⟩
  · exact sparingOnly_unpack_of_error (perform_freshen_of_error hfresh) (Passage.refl w)
  · have hmarking : perform (copyOf plan).marking around w = (.error cause, w) := by
      rw [copyOf, perform_marking, hbytes]
      rfl
    have hfreshen := perform_freshen_of_stale hfresh
    rw [renew_eq_clear, perform_bind_error hmarking] at hfreshen
    exact sparingOnly_unpack_of_error hfreshen (Passage.refl w)
  rcases hfresh with ⟨-, hfresh⟩ | ⟨hne, hfresh⟩
  · exact sparingOnly_unpack_of_ok (perform_freshen_of_fresh hfresh) (Passage.refl w)
      fun hplace fault hread hrepair => hcosts (.listed hfresh hplace hread hrepair)
  · have hold : IsOld around plan w bytes := ⟨hbytes, held, hmark, hne⟩
    have hspares := sparingOnly_renew hfile hcosts hold
    have hfreshen := perform_freshen_of_stale hfresh
    rcases hrenew : perform ((copyOf plan).renew writeManifest) around w with ⟨fault | _, v⟩
    · rw [hrenew] at hspares hfreshen
      exact sparingOnly_unpack_of_error hfreshen hspares
    · rw [hrenew] at hspares hfreshen
      exact sparingOnly_unpack_of_ok hfreshen hspares fun hplace =>
        absurd hplace (ne_fileAt_of_renew hcosts hold hrenew)

/-- However unpacking ends, the file of the archive is as before, unless something costs the archive
its file. If it lies in a copy that is not current, it is gone, and unpacking fails. -/
theorem archive_kept_unless_costs (plan : Plan) (around : Surroundings) (w : World) {f : File}
    (hfile : w.tree.node? (goalOf around.directory plan.archive) = some (.file f)) :
    (¬ Costs around plan w →
      (perform (unpack plan) around w).2.tree.node? (goalOf around.directory plan.archive) =
        some (.file f)) ∧
      ∀ bytes, IsOld around plan w bytes →
        LeadsToDirectory plan.libraryDirectory w.tree around.directory →
        isBelow (goalOf around.directory plan.libraryDirectory)
          (goalOf around.directory plan.archive) = true →
        ∃ fault w', perform (unpack plan) around w = (.error fault, w') ∧
          w'.tree.node? (goalOf around.directory plan.archive) = none := by
  refine ⟨fun hcosts => (sparingOnly_unpack hfile hcosts).node? hfile,
    fun bytes hold hlib hbelow => ?_⟩
  obtain ⟨fault, v, hrenew, hnone⟩ := perform_renew_of_inside hold.archive hlib hbelow
  have hfreshen := perform_freshen_of_stale hold.perform_isFresh
  rw [hrenew] at hfreshen
  obtain ⟨fault', hunpack⟩ := perform_unpack_of_error hfreshen
  exact ⟨fault', v, hunpack, hnone⟩

section Sample

/-- A build whose archive lies where its copy goes. -/
def planInside : Plan :=
  { planOfA with archive := .parse "/w/lib/a.jar" }

/-- A disk with an archive in the library. -/
def archiveInside : World :=
  .ofTree (((FileTree.empty.add ["w"] .directory).add ["w", "lib"] .directory).writeFile
    ["w", "lib", "a.jar"] archiveOfA)

/-- The same disk with a marker that holds the digest of the archive. -/
def markedInside : World :=
  .ofTree (archiveInside.tree.writeFile ["w", "lib", markerName] (markingOf archiveOfA))

theorem archive_inside_kept :
    markedInside.tree.node? ["w", "lib", "a.jar"] = some (.file ⟨archiveOfA, false⟩) ∧
      (perform (unpack planInside) (.still []) markedInside).2.tree.node? ["w", "lib", "a.jar"] =
        some (.file ⟨archiveOfA, false⟩) := by
  have hfile : markedInside.tree.node? ["w", "lib", "a.jar"] =
      some (.file ⟨archiveOfA, false⟩) := by
    decide +kernel
  refine ⟨hfile, (archive_kept_unless_costs planInside (.still []) markedInside hfile).1 ?_⟩
  have hmark : markAt planInside.libraryDirectory markedInside.tree [] =
      .ok (some (markingOf archiveOfA)) := by
    decide +kernel
  have hbytes : bytesAt planInside.archive markedInside.tree [] = .ok archiveOfA := by
    decide +kernel
  have hcurrent : ∀ bytes, ¬ IsOld (.still []) planInside markedInside bytes := by
    rintro bytes ⟨hread, held, hheld, hne⟩
    obtain rfl := Except.ok.inj (hbytes.symm.trans hread)
    exact hne (Except.ok.inj (hheld.symm.trans hmark))
  rintro (⟨hold, -, -⟩ | ⟨hold, -, -, -, -⟩ | ⟨-, hplace, -, -⟩)
  · exact hcurrent _ hold
  · exact hcurrent _ hold
  · exact absurd hplace (by decide +kernel)

/-- An archive in a library that is not current is lost, and unpacking says that it is missing. -/
theorem archive_inside_lost :
    archiveInside.tree.node? ["w", "lib", "a.jar"] = some (.file ⟨archiveOfA, false⟩) ∧
      EndsIn (.still []) archiveInside (unpack planInside)
        (unpackFault planInside (.missing planInside.archive)) ∧
      (perform (unpack planInside) (.still []) archiveInside).2.tree.node? ["w", "lib", "a.jar"] =
        none := by
  decide +kernel

end Sample

end StagedBuild.NativeLibrary
