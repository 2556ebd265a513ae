import StagedBuild.Proofs.Archive.Completed
import StagedBuild.Proofs.NativeLibrary.Renewed
import StagedBuild.Proofs.Pool.Outputs

/-!
A library that is there already, with some of its objects. Seeing to it reads its manifest, and
sorting its objects out takes away those that are not needed and finds the sources that have none.
-/

namespace StagedBuild.NativeLibrary

open Action FileTree Disk Manifest

variable {around later : Surroundings} {w w' : World} {plan : Plan} {lib : Path} {cwd : Location}
  {t t' : FileTree} {ways : List Location} {src : Location} {links : List String}

theorem sourcesAt_cons (lib : Path) (src : Location) (rest : List Location) :
    sourcesAt lib (src :: rest) = sourceAt lib (lib.descend src) :: sourcesAt lib rest := rfl

/-- There is something where the object of a source goes. -/
def hasObject (cwd : Location) (t : FileTree) (s : Source) : Bool :=
  t.isOccupied (goalOf cwd s.objectPath)

/-- The object of a source can be asked for and taken away: its path is short enough, and no
directory is in its place. -/
def HasRoom (cwd : Location) (t : FileTree) (s : Source) : Prop :=
  PathFits s.objectPath ∧ ¬ t.isDirectory (goalOf cwd s.objectPath) = true

section Objects

variable (hsrc : IsSourceWay src)

include hsrc

theorem goalOf_objectPath (cwd : Location) (lib : Path) :
    goalOf cwd (sourceAt lib (lib.descend src)).objectPath = goalOf cwd lib ++ objectWay src := by
  rw [objectPath_sourceAt hsrc]
  exact goalOf_descend_plain cwd lib
    (isStep_objectWay (fun s hs => isStep_of_isEntryName (hsrc.2.1 s hs)) hsrc.1)
    (up_not_mem_objectWay (up_not_mem hsrc.2.1))

theorem goalOf_objectPath_inj {other : Location} (hother : IsSourceWay other)
    (h : goalOf cwd (sourceAt lib (lib.descend src)).objectPath =
      goalOf cwd (sourceAt lib (lib.descend other)).objectPath) : src = other := by
  rw [goalOf_objectPath hsrc, goalOf_objectPath hother] at h
  exact objectWay_injective hsrc.1 hother.1 (List.append_cancel_left h)

theorem isAskable_objectPath (hask : isAskable lib = true) :
    isAskable (sourceAt lib (lib.descend src)).objectPath = true := by
  rw [objectPath_sourceAt hsrc]
  exact isAskable_descend_objectWay hask hsrc

variable (hwf : t.WellFormed) (hleads : LeadsToDirectory lib t cwd)

include hwf hleads

theorem locate_objectPath (hfits : PathFits (sourceAt lib (lib.descend src)).objectPath)
    (hocc : hasObject cwd t (sourceAt lib (lib.descend src)) = true) :
    t.locate cwd (sourceAt lib (lib.descend src)).objectPath =
      .ok (goalOf cwd (sourceAt lib (lib.descend src)).objectPath) := by
  have hsteps := isStep_objectWay (fun s hs => isStep_of_isEntryName (hsrc.2.1 s hs)) hsrc.1
  refine ((locate_open fun v hv => ?_).resolve_right fun hlong => hlong.1 hfits).2
  rw [hasObject, goalOf_objectPath hsrc] at hocc
  rw [objectPath_sourceAt hsrc] at hv
  rcases (mem_passedBy_descend_plain hsteps (up_not_mem_objectWay (up_not_mem hsrc.2.1))).1 hv with
    hv | ⟨front, back, hway, hback, rfl⟩
  · exact (locate_eq_ok_iff.1 hleads.locate).2.2.1 v hv
  · rw [hway, ← List.append_assoc] at hocc
    exact hwf.isDirectory_above hocc hback

theorem answerAt_objectPath (hfits : PathFits (sourceAt lib (lib.descend src)).objectPath) :
    answerAt (sourceAt lib (lib.descend src)).objectPath t cwd =
      .ok (t.node? (goalOf cwd (sourceAt lib (lib.descend src)).objectPath)) := by
  have hask := isAskable_objectPath hsrc hleads.isAskable
  by_cases hocc : hasObject cwd t (sourceAt lib (lib.descend src)) = true
  · exact answerAt_of_locate hask (locate_objectPath hsrc hwf hleads hfits hocc)
  · have hnone := not_isOccupied_iff.1 hocc
    rcases answerAt_of_fits hask hfits with hanswer | ⟨node, -, hnode⟩
    · rw [hanswer, hnone]
    · rw [hnone] at hnode
      cases hnode

end Objects

section SortingOut

theorem perform_removeObject_of_room (hsrc : IsSourceWay src) (hwf : w.tree.WellFormed)
    (hleads : LeadsToDirectory lib w.tree around.directory)
    (hroom : HasRoom around.directory w.tree (sourceAt lib (lib.descend src))) :
    ∃ w₁, perform (removeObject (sourceAt lib (lib.descend src))) around w =
        (.ok (hasObject around.directory w.tree (sourceAt lib (lib.descend src))), w₁) ∧
      w₁.tree.WellFormed ∧ ∀ q, w₁.tree.node? q =
        if q = goalOf around.directory (sourceAt lib (lib.descend src)).objectPath then none
        else w.tree.node? q := by
  obtain ⟨s, hs⟩ : ∃ s, s = sourceAt lib (lib.descend src) := ⟨_, rfl⟩
  have hask := isAskable_objectPath hsrc hleads.isAskable
  have hanswer := answerAt_objectPath hsrc hwf hleads hroom.1
  have hlocate := locate_objectPath hsrc hwf hleads hroom.1
  rw [← hs] at hroom hask hanswer hlocate ⊢
  have hthere : perform (isOccupied s.objectPath) around w =
      (.ok (hasObject around.directory w.tree s), w) := by
    rw [perform_isOccupied, hanswer]
    rfl
  unfold removeObject
  rw [perform_bind_ok hthere]
  cases hocc : hasObject around.directory w.tree s with
  | false =>
      have hnone : w.tree.node? (goalOf around.directory s.objectPath) = none :=
        not_isOccupied_iff.1 (Bool.eq_false_iff.1 hocc)
      refine ⟨w, rfl, hwf, fun q => ?_⟩
      split
      · rename_i heq
        rw [heq, hnone]
      · rfl
  | true =>
      have hfile := (isFile_or_isDirectory hocc).resolve_right hroom.2
      obtain ⟨t, ht⟩ : ∃ t, t = w.tree.remove (goalOf around.directory s.objectPath) := ⟨_, rfl⟩
      have hunlink : w.tree.unlink around.directory s.objectPath = .ok t :=
        ht ▸ unlink_eq (hlocate hocc) hfile
      have hperform : perform (Disk.unlink s.objectPath) around w =
          (.ok (), ⟨t, .changed t :: w.history⟩) := by
        rw [Disk.unlink, perform_change, if_pos hask, hunlink]
      refine ⟨⟨t, .changed t :: w.history⟩, (perform_bind_ok hperform).trans rfl,
        hwf.unlink hunlink, fun q => ?_⟩
      rw [ht, node?_remove (ne_nil_of_isFile hfile)]

theorem perform_removeObjects_of_room {out : List Location} (hout : IsListing out)
    (hwf : w.tree.WellFormed) (hleads : LeadsToDirectory lib w.tree around.directory)
    (hroom : ∀ s ∈ sourcesAt lib out, HasRoom around.directory w.tree s) :
    ∃ w₁, perform (removeObjects (sourcesAt lib out)) around w =
        (.ok (((sourcesAt lib out).filter (hasObject around.directory w.tree)).map
          Source.objectPath), w₁) ∧
      w₁.tree.WellFormed ∧ ∀ q, w₁.tree.node? q =
        if q ∈ (sourcesAt lib out).map (fun s => goalOf around.directory s.objectPath) then none
        else w.tree.node? q := by
  induction out generalizing w with
  | nil => exact ⟨w, rfl, hwf, fun q => by simp [sourcesAt]⟩
  | cons src rest ih =>
      have hsrc := hout.isSourceWay src (by simp)
      obtain ⟨hnew, hnodup⟩ := List.nodup_cons.1 hout.nodup
      have hrest : IsListing rest :=
        ⟨fun way hway => hout.isSourceWay way (List.mem_cons_of_mem _ hway), hnodup⟩
      rw [sourcesAt_cons, List.forall_mem_cons] at hroom
      obtain ⟨w₁, hfirst, hwf₁, hnodes₁⟩ := perform_removeObject_of_room hsrc hwf hleads hroom.1
      -- the first object is not in the place of another, and no directory goes with it
      have hothers : ∀ s ∈ sourcesAt lib rest,
          w₁.tree.node? (goalOf around.directory s.objectPath) =
            w.tree.node? (goalOf around.directory s.objectPath) := by
        intro s hs
        obtain ⟨other, hother, rfl⟩ := List.mem_map.1 hs
        rw [hnodes₁, if_neg fun heq => ?_]
        have hsame := goalOf_objectPath_inj (hrest.isSourceWay other hother) hsrc heq
        exact hnew (hsame ▸ hother)
      have hleads₁ : LeadsToDirectory lib w₁.tree around.directory := by
        refine hleads.mono fun q hq => ?_
        rw [isDirectory_iff, hnodes₁, if_neg, ← isDirectory_iff]
        · exact hq
        · intro heq
          exact hroom.1.2 (heq ▸ hq)
      obtain ⟨w₂, hlater, hwf₂, hnodes₂⟩ := ih hrest hwf₁ hleads₁ fun s hs =>
        ⟨(hroom.2 s hs).1, isDirectory_congr (hothers s hs) ▸ (hroom.2 s hs).2⟩
      have hfilter : (sourcesAt lib rest).filter (hasObject around.directory w₁.tree) =
          (sourcesAt lib rest).filter (hasObject around.directory w.tree) :=
        List.filter_congr fun s hs => isOccupied_congr (hothers s hs)
      rw [hfilter] at hlater
      refine ⟨w₂, ?_, hwf₂, fun q => ?_⟩
      · rw [sourcesAt_cons, removeObjects_cons, perform_bind_ok hfirst]
        refine (perform_bind_ok hlater).trans ?_
        rw [List.filter_cons]
        split <;> rfl
      · rw [hnodes₂, hnodes₁, sourcesAt_cons, List.map_cons]
        by_cases hq : q = goalOf around.directory (sourceAt lib (lib.descend src)).objectPath
        · simp [hq]
        · simp [hq, List.mem_cons]

theorem perform_withoutObject_of_fits {some : List Location}
    (hsome : ∀ src ∈ some, IsSourceWay src) (hwf : w.tree.WellFormed)
    (hleads : LeadsToDirectory lib w.tree around.directory)
    (hfits : ∀ s ∈ sourcesAt lib some, PathFits s.objectPath) :
    perform (withoutObject (sourcesAt lib some)) around w =
      (.ok ((sourcesAt lib some).filter fun s => !hasObject around.directory w.tree s), w) := by
  induction some with
  | nil => rfl
  | cons src rest ih =>
      rw [List.forall_mem_cons] at hsome
      rw [sourcesAt_cons, List.forall_mem_cons] at hfits
      have hthere : perform (isOccupied (sourceAt lib (lib.descend src)).objectPath) around w =
          (.ok (hasObject around.directory w.tree (sourceAt lib (lib.descend src))), w) := by
        rw [perform_isOccupied, answerAt_objectPath hsome.1 hwf hleads hfits.1]
        rfl
      rw [sourcesAt_cons, withoutObject_cons, perform_bind_ok hthere]
      refine (perform_bind_ok (ih hsome.2 hfits.2)).trans ?_
      rw [List.filter_cons]
      cases hasObject around.directory w.tree (sourceAt lib (lib.descend src)) <;> rfl

end SortingOut

section Selected

variable (plan : Plan) (links : List String) (ways : List Location)

/-- The sources in the library that a build needs. -/
def includedOf : List Source :=
  sourcesAt plan.libraryDirectory (neededWays plan.libraryDirectory plan.gc links ways)

/-- The sources in the library that a build does not need. -/
def excludedOf : List Source :=
  sourcesAt plan.libraryDirectory (otherWays plan.libraryDirectory plan.gc links ways)

variable {plan links ways}

theorem mem_sources_of_included {s : Source} (hs : s ∈ includedOf plan links ways) :
    s ∈ (manifestOf plan.libraryDirectory ways).sources :=
  List.map_subset _ (List.filter_subset_self _) hs

theorem mem_sources_of_excluded {s : Source} (hs : s ∈ excludedOf plan links ways) :
    s ∈ (manifestOf plan.libraryDirectory ways).sources :=
  List.map_subset _ (List.filter_subset_self _) hs

theorem mem_included_or_excluded {s : Source}
    (hs : s ∈ (manifestOf plan.libraryDirectory ways).sources) :
    s ∈ includedOf plan links ways ∨ s ∈ excludedOf plan links ways := by
  obtain ⟨src, hsrc, rfl⟩ := List.mem_map.1 hs
  rw [mem_fileOrder] at hsrc
  by_cases hneed : isNeededAt plan.libraryDirectory plan.gc links src = true
  · exact .inl (List.mem_map_of_mem ((mem_neededWays _ _ _).2 ⟨hsrc, hneed⟩))
  · exact .inr (List.mem_map_of_mem ((mem_otherWays _ _ _).2 ⟨hsrc, hneed⟩))

theorem goalOf_objectPath_ne (hways : IsListing ways) {s s' : Source}
    (hs : s ∈ includedOf plan links ways) (hs' : s' ∈ excludedOf plan links ways)
    (cwd : Location) : goalOf cwd s.objectPath ≠ goalOf cwd s'.objectPath := by
  intro heq
  obtain ⟨src, hsrc, rfl⟩ := List.mem_map.1 hs
  obtain ⟨other, hother, rfl⟩ := List.mem_map.1 hs'
  rw [mem_neededWays] at hsrc
  rw [mem_otherWays] at hother
  have hsame := goalOf_objectPath_inj (hways.isSourceWay src hsrc.1)
    (hways.isSourceWay other hother.1) heq
  exact hother.2 (hsame ▸ hsrc.2)

end Selected

theorem perform_isFresh_of_marker {bytes : List UInt8} {f : File}
    (hleads : LeadsToDirectory plan.libraryDirectory w.tree around.directory)
    (hfits : (plan.libraryDirectory / markerName).text.utf8ByteSize ≤ pathLimit)
    (hmarker : w.tree.node? (goalOf around.directory plan.libraryDirectory ++ [markerName]) =
      some (.file f)) (hbytes : f.bytes = markingOf bytes)
    (harchive : bytesAt plan.archive w.tree around.directory = .ok bytes) :
    perform (copyOf plan).isFresh around w = (.ok true, w) := by
  rw [← goalOf_child _ _ isEntryName_markerName] at hmarker
  refine ArchiveCopy.perform_isFresh_eq_true_iff.2 ⟨markingOf bytes,
    ArchiveCopy.heldAt_eq_some_iff.2 ⟨⟨_, hleads⟩, bytesAt_eq_ok_iff.2
      ⟨hleads.isAskable_child isEntryName_markerName, ?_, f, hmarker, hbytes⟩⟩, ?_⟩
  · rw [copyOf_marker, goalOf_child _ _ isEntryName_markerName]
    exact hleads.locate_child isEntryName_markerName hfits
  · have hprint := perform_marking plan.archive plan.libraryDirectory around w
    rw [ArchiveCopy.perform_marking, harchive] at hprint
    exact (Prod.mk.inj hprint).1

/-- A library is as it was unpacked, but for the objects in it: its copy counts as current, and the
manifest lists sources. The archive lies outside. -/
structure Intact (around : Surroundings) (plan : Plan) (ways : List Location)
    (w : World) : Prop where
  wellFormed : w.tree.WellFormed
  fresh : perform (copyOf plan).isFresh around w = (.ok true, w)
  outside : ¬ goalOf around.directory plan.libraryDirectory <+: goalOf around.directory plan.archive
  listing : IsListing ways
  manifest : Holds plan.libraryDirectory
    (w.tree.node? (fileAt (goalOf around.directory plan.libraryDirectory))) ways
  readable : (plan.libraryDirectory / fileName).text.utf8ByteSize ≤ pathLimit

namespace Intact

theorem leads (h : Intact around plan ways w) :
    LeadsToDirectory plan.libraryDirectory w.tree around.directory := by
  obtain ⟨print, hheld, -⟩ := ArchiveCopy.perform_isFresh_eq_true_iff.1 h.fresh
  obtain ⟨-, hmarker⟩ := ArchiveCopy.heldAt_eq_some_iff.1 hheld
  obtain ⟨hask, hloc, -⟩ := bytesAt_eq_ok_iff.1 hmarker
  have hsteps : ∀ name ∈ [markerName], isStep name = true := by decide
  have hleads := leads_parent_of_locate hask (p := plan.libraryDirectory.descend [markerName])
    (by rw [Path.steps_descend _ hsteps]; simp) hloc
  rwa [← Path.div_eq_descend, parent_marker] at hleads

theorem perform_unpack (h : Intact around plan ways w) : ∃ v : World, v.tree = w.tree ∧
    (plan.verbose = false → v = w) ∧
    perform (unpack plan) around w = (.ok (manifestOf plan.libraryDirectory ways), v) := by
  have hload : ∀ v : World, v.tree = w.tree → perform (load plan.libraryDirectory) around v =
      (.ok (manifestOf plan.libraryDirectory ways), v) := fun v hv =>
    perform_load h.listing.steps h.listing.nodup (hv ▸ h.leads) h.readable (hv ▸ h.manifest)
  have hfreshen : perform (Action.outcome ((copyOf plan).freshen writeManifest)) around w =
      (.ok (.ok none), w) := by
    rw [perform_outcome, ArchiveCopy.freshen, perform_bind_ok h.fresh]
    rfl
  unfold unpack
  rw [perform_bind_ok hfreshen]
  dsimp only
  cases plan.verbose with
  | false => exact ⟨w, rfl, fun _ => rfl, hload w rfl⟩
  | true =>
      obtain ⟨line, hline⟩ : ∃ line, line = "      Native library " ++
          (if (none : Option Unit).isSome then "unpacked" else "up to date") ++ ": " ++
            plan.libraryDirectory.text := ⟨_, rfl⟩
      obtain ⟨v, hsaid, htree⟩ : ∃ v : World, perform (Action.say line) around w = (.ok (), v) ∧
          v.tree = w.tree := ⟨_, perform_note _ _ _, rfl⟩
      rw [← hline]
      exact ⟨v, htree, (Bool.noConfusion ·), (perform_bind_ok hsaid).trans (hload v htree)⟩

section Prepare

variable (h : Intact around plan ways w)
  (hroom : ∀ s ∈ (manifestOf plan.libraryDirectory ways).sources,
    HasRoom around.directory w.tree s)

include h

theorem of_filesChanged (hsame : later.directory = around.directory) (hwf : w'.tree.WellFormed)
    (hchanged : FilesChanged (fun q => ∃ s ∈ (manifestOf plan.libraryDirectory ways).sources,
      q = goalOf around.directory s.objectPath) w.tree w'.tree) : Intact later plan ways w' := by
  have hdirs : ∀ q, w.tree.isDirectory q = true → w'.tree.isDirectory q = true :=
    fun q hq => (hchanged.isDirectory_eq q).trans hq
  have hobject : ∀ s ∈ (manifestOf plan.libraryDirectory ways).sources, ∃ src, IsSourceWay src ∧
      goalOf around.directory s.objectPath =
        goalOf around.directory plan.libraryDirectory ++ objectWay src := by
    intro s hs
    obtain ⟨src, hsrc, rfl⟩ := List.mem_map.1 hs
    have hsource := h.listing.fileOrder.isSourceWay src hsrc
    exact ⟨src, hsource, goalOf_objectPath hsource _ _⟩
  have hnamed : ∀ {name : String}, (Path.splitName name).2 ≠ ".o" →
      w'.tree.node? (goalOf around.directory plan.libraryDirectory ++ [name]) =
        w.tree.node? (goalOf around.directory plan.libraryDirectory ++ [name]) := by
    intro name hname
    refine hchanged.node?_eq ?_
    rintro ⟨s, hs, heq⟩
    obtain ⟨src, hsrc, hplace⟩ := hobject s hs
    exact objectWay_ne_singleton hsrc hname (List.append_cancel_left (heq.trans hplace)).symm
  obtain ⟨print, hheld, hprint⟩ := ArchiveCopy.perform_isFresh_eq_true_iff.1 h.fresh
  have hfresh : perform (copyOf plan).isFresh later w' = (.ok true, w') := by
    have hpos : 0 < (copyOf plan).chunkSize :=
      show 0 < ArchiveCopy.defaultChunkSize by decide
    obtain ⟨-, bytes, hbytes, rfl⟩ := (ArchiveCopy.printAt_eq_ok_iff hpos).1 hprint
    rw [ArchiveCopy.perform_isFresh_eq_true_iff, hsame]
    refine ⟨_, ArchiveCopy.heldAt_eq_some_iff.2 ⟨⟨_, h.leads.mono hdirs⟩, ?_⟩,
      (ArchiveCopy.printAt_eq_ok_iff hpos).2
        ⟨ArchiveCopy.accepts_defaultChunkSize later.spareMemory, bytes, ?_, rfl⟩⟩
    · refine bytesAt_of_directoriesStay hdirs (fun node hnode => ?_)
        (ArchiveCopy.heldAt_eq_some_iff.1 hheld).2
      have hmarker : goalOf around.directory (copyOf plan).marker =
          goalOf around.directory plan.libraryDirectory ++ [markerName] :=
        goalOf_child _ _ isEntryName_markerName
      rw [hmarker] at hnode ⊢
      rw [hnamed (by decide), hnode]
    · refine bytesAt_of_directoriesStay hdirs (fun node hnode => ?_) hbytes
      refine (hchanged.node?_eq ?_).trans hnode
      rintro ⟨s, hs, heq⟩
      obtain ⟨src, -, hplace⟩ := hobject s hs
      exact h.outside ⟨objectWay src, (heq.trans hplace).symm⟩
  refine ⟨hwf, hfresh, hsame ▸ h.outside, h.listing, ?_, h.readable⟩
  rw [hsame, fileAt, hnamed (by decide)]
  exact h.manifest

include hroom

theorem perform_prepare (links : List String) : ∃ w₁,
    perform (prepare plan links) around w =
      (.ok ⟨includedOf plan links ways,
          (includedOf plan links ways).filter fun s => !hasObject around.directory w.tree s,
          ((excludedOf plan links ways).filter (hasObject around.directory w.tree)).map
            Source.objectPath⟩, w₁) ∧
      w₁.tree.WellFormed ∧ ∀ q, w₁.tree.node? q =
        if q ∈ (excludedOf plan links ways).map (fun s => goalOf around.directory s.objectPath)
          then none else w.tree.node? q := by
  have hneeded : IsListing (neededWays plan.libraryDirectory plan.gc links ways) :=
    h.listing.fileOrder.filter _
  have hothers : IsListing (otherWays plan.libraryDirectory plan.gc links ways) :=
    h.listing.fileOrder.filter _
  obtain ⟨v, hv, -, hunpack⟩ := h.perform_unpack
  obtain ⟨w₁, hremove, hwf₁, hnodes⟩ := perform_removeObjects_of_room hothers
    (hv ▸ h.wellFormed) (hv ▸ h.leads) fun s hs => hv ▸ hroom s (mem_sources_of_excluded hs)
  rw [hv] at hremove hnodes
  have hdirs : ∀ q, w.tree.isDirectory q = true → w₁.tree.isDirectory q = true := by
    intro q hq
    rw [isDirectory_iff, hnodes, if_neg, ← isDirectory_iff]
    · exact hq
    · intro hplace
      obtain ⟨s, hs, heq⟩ := List.mem_map.1 hplace
      exact (hroom s (mem_sources_of_excluded hs)).2 (heq ▸ hq)
  -- no object that is needed has gone
  have hkept : ∀ s ∈ includedOf plan links ways,
      hasObject around.directory w₁.tree s = hasObject around.directory w.tree s := by
    intro s hs
    refine isOccupied_congr ?_
    rw [hnodes, if_neg]
    intro hplace
    obtain ⟨s', hs', heq⟩ := List.mem_map.1 hplace
    exact goalOf_objectPath_ne h.listing hs hs' _ heq.symm
  have hpending := perform_withoutObject_of_fits hneeded.isSourceWay hwf₁
    (h.leads.mono hdirs) fun s hs => (hroom s (mem_sources_of_included hs)).1
  have hfilter : ((includedOf plan links ways).filter fun s =>
      !hasObject around.directory w₁.tree s) =
        (includedOf plan links ways).filter fun s => !hasObject around.directory w.tree s :=
    List.filter_congr fun s hs => by rw [hkept s hs]
  rw [← includedOf, hfilter] at hpending
  have hselect : perform (Action.ofExcept id
      ((manifestOf plan.libraryDirectory ways).select plan.gc links)) around v =
        (.ok (includedOf plan links ways, excludedOf plan links ways), v) := by
    rw [manifestOf, select_sourcesAt, perform_ofExcept_id]
    rfl
  refine ⟨w₁, ?_, hwf₁, hnodes⟩
  unfold prepare
  rw [perform_bind_ok hunpack, perform_bind_ok hselect]
  dsimp only
  exact (perform_bind_ok hremove).trans ((perform_bind_ok hpending).trans rfl)

end Prepare

end Intact

end StagedBuild.NativeLibrary
