import StagedBuild.Proofs.NativeLibrary.Intact

/-!
Preparing the library twice. The first time there is no current copy, so one is made anew, and the
sources that are needed are compiled. The second time the copy is current and has all objects that
are needed and no others, so nothing is left to compile.
-/

namespace StagedBuild.NativeLibrary

open Action FileTree Disk Manifest

variable {around : Surroundings} {w v w' : World} {plan : Plan} {links : List String}
  {bytes : List UInt8} {ways : List Location} {t t' : FileTree} {p : Preparation} {cwd : Location}

theorem prepare_eq_unpack (plan : Plan) (links : List String) :
    prepare plan links = unpack plan >>= sortOut plan links := rfl

namespace CopiedAnew

variable (hlib : plan.libraryDirectory.isAbsolute = true) (h : CopiedAnew around plan bytes w v w')

include h

theorem isFilled : Filled around.unpacker plan.libraryDirectory bytes w'.tree :=
  ⟨around, v, w', rfl, h.prepared, h.filled, rfl⟩

/-- The archive does not lie in the new directory, because that is empty. -/
theorem archive_outside :
    ¬ goalOf [] plan.libraryDirectory <+: goalOf around.directory plan.archive := by
  rintro ⟨way, hway⟩
  obtain ⟨-, -, f, hf, -⟩ := bytesAt_eq_ok_iff.1 h.poured
  have hfile : v.tree.isFile (goalOf [] plan.libraryDirectory ++ way) = true :=
    isFile_iff.2 ⟨f, hway ▸ hf⟩
  exact not_isFile_of_isDirectory (h.prepared.bare way (isOccupied_of_isFile hfile)).1 hfile

include hlib

theorem node?_outside {q : Location} (hq : ¬ goalOf [] plan.libraryDirectory <+: q) :
    w'.tree.node? q = w.tree.node? q := by
  obtain ⟨-, hchanged⟩ := (local_fill hlib rfl (fun _ hv => hv) bytes).alone
    (h.prepared.agree h.prepared) h.filled
  exact (hchanged q hq).trans (h.cleared q hq)

theorem bytesAt_archive : bytesAt plan.archive w'.tree around.directory = .ok bytes := by
  obtain ⟨hagree, hchanged⟩ := (local_fill hlib rfl (fun _ hv => hv) bytes).alone
    (h.prepared.agree h.prepared) h.filled
  have hleads := leads_of_agree hagree h.prepared.leads
  refine bytesAt_of_directoriesStay (fun q hq => ?_) (fun node hnode => ?_) h.poured
  · by_cases hbelow : goalOf [] plan.libraryDirectory <+: q
    · obtain ⟨way, rfl⟩ := hbelow
      exact hleads.isDirectory_of_onTheWay
        (h.prepared.bare way (isOccupied_of_isDirectory hq)).2
    · exact isDirectory_congr (hchanged q hbelow) ▸ hq
  · exact (hchanged _ h.archive_outside).trans hnode

end CopiedAnew

theorem sortedOut_of_perform_prepare (hlib : plan.libraryDirectory.isAbsolute = true)
    (hw : w.tree.WellFormed) (hleads : LeadsToDirectory plan.workdir w.tree around.directory)
    (hstale : perform (copyOf plan).isFresh around w ≠ (.ok true, w))
    (h : perform (prepare plan links) around w = (.ok p, w')) :
    ∃ bytes ways v u, CopiedAnew around plan bytes w v u ∧
      Copied plan.libraryDirectory bytes ways u.tree ∧
      SortedOut plan links ways p u.tree w'.tree := by
  rw [prepare_eq_unpack] at h
  obtain ⟨m, x, hunpack, hsort⟩ := perform_bind_eq_ok.1 h
  obtain ⟨renewed, u, u', hfreshen, htree, hload⟩ := perform_unpack_ok hunpack
  obtain ⟨-, hrenew⟩ := (perform_freshen_ok hfreshen).resolve_left fun hfresh => hstale hfresh.2
  obtain ⟨bytes, v, hmade⟩ := copiedAnew_of_perform_renew hlib hw hleads hrenew
  obtain ⟨ways, hcopied⟩ := hmade.isFilled.copied hlib
  have hread : perform (load plan.libraryDirectory) around u' =
      (.ok (manifestOf plan.libraryDirectory ways), u') := by
    refine perform_load (fun way hway => ⟨(hcopied.isSourceWay hway).1, hcopied.isStep hway⟩)
      hcopied.nodup ?_ hcopied.fits.1 ?_
    · rw [htree]
      exact hcopied.leads.of_absolute hlib _
    · rw [htree, goalOf_of_absolute hlib]
      exact hcopied.manifest
  obtain ⟨rfl, rfl⟩ : m = manifestOf plan.libraryDirectory ways ∧ x = u' := by
    rw [hread] at hload
    cases hload
    exact ⟨rfl, rfl⟩
  rw [← htree] at hcopied
  rcases perform_sortOut hlib hcopied around links with
    ⟨fault, y, hfault, -⟩ | ⟨q, y, hok, hsorted⟩
  · rw [hfault] at hsort
    cases hsort
  · rw [hok] at hsort
    cases hsort
    exact ⟨bytes, ways, v, u, hmade, htree ▸ hcopied, htree ▸ hsorted⟩

namespace SortedOut

variable (hcopied : Copied plan.libraryDirectory bytes ways t)

section Objects

variable {src : Location}

include hcopied

theorem node?_needed (h : SortedOut plan links ways p t t') (hsrc : src ∈ ways)
    (hneed : isNeededAt plan.libraryDirectory plan.gc links src = true) :
    t'.node? (objectAt plan.libraryDirectory src) =
      t.node? (objectAt plan.libraryDirectory src) := by
  rw [h.nodes, if_neg]
  intro hmem
  obtain ⟨other, hother, heq⟩ := List.mem_map.1 hmem
  rw [mem_otherWays] at hother
  have hsame := objectAt_injective (hcopied.isSourceWay hother.1) (hcopied.isSourceWay hsrc) heq
  exact hother.2 (hsame ▸ hneed)

theorem pending_eq_nil (h : SortedOut plan links ways p t t')
    (hcomplete : Complete plan links ways t) : p.pending = [] := by
  rw [h.pending, pendingWays, List.filter_eq_nil_iff.2]
  · rfl
  · intro src hsrc
    obtain ⟨hmem, hneed⟩ := (mem_neededWays _ _ _).1 hsrc
    rw [isOccupied_congr (h.node?_needed hcopied hmem hneed), hcomplete.needed src hmem hneed]
    simp

end Objects

/-- Once the pending sources are compiled, the objects that are needed are there, and no others.
Nothing but objects has changed. -/
theorem completed {compiled : List (Pool.Answered Source)}
    (hlib : plan.libraryDirectory.isAbsolute = true)
    (hcopied : Copied plan.libraryDirectory bytes ways w.tree)
    (h : SortedOut plan links ways p w.tree v.tree)
    (hran : Pool.RanAll around (Build.sourceCall plan) v compiled w')
    (hperm : (compiled.map Pool.Answered.item).Perm p.pending)
    (hall : ∀ a ∈ compiled, a.reply.isSuccess = true)
    (hdelivers : ∀ s ∈ p.pending, Delivers around (Build.sourceCall plan s)
      (Build.placeIn around.directory plan s.objectPath)) :
    w'.tree.WellFormed ∧ ObjectsChanged plan.libraryDirectory ways w w' ∧
      Complete plan links ways w'.tree := by
  have hplace : ∀ src ∈ ways, Build.placeIn around.directory plan
      (sourceAt plan.libraryDirectory (plan.libraryDirectory.descend src)).objectPath =
        objectAt plan.libraryDirectory src := fun src hsrc => by
    have hsource := hcopied.isSourceWay hsrc
    rw [objectPath_sourceAt hsource,
      Build.placeIn_of_absolute (isAbsolute_descend_objectWay hlib hsource),
      goalOf_descend_objectWay hsource]
  obtain ⟨hwf, hwritten, hfiles, hkept⟩ := hran.delivered
    (fun s => Build.placeIn around.directory plan s.objectPath)
    (fun a ha => hdelivers a.item (hperm.subset (List.mem_map_of_mem ha))) hall h.wellFormed
  have hcalled : ∀ a ∈ compiled, ∃ src ∈ pendingWays plan links ways v.tree,
      Build.placeIn around.directory plan a.item.objectPath =
        objectAt plan.libraryDirectory src := by
    intro a ha
    obtain ⟨src, hsrc, hitem⟩ := h.exists_pendingWay hperm ha
    exact ⟨src, hsrc, hitem ▸ hplace src (mem_pendingWays.1 hsrc).1.1⟩
  refine ⟨hwf, Passage.trans h.objectsChanged (.of_nodes fun q => (hwritten q).imp_right ?_),
    h.complete_of_made hcopied (fun src hsrc => ?_) (fun q hq => ?_)
      fun q => (hwritten q).imp_right ?_⟩
  · rintro ⟨⟨a, ha, rfl⟩, hnot⟩
    obtain ⟨src, hsrc, heq⟩ := hcalled a ha
    exact ⟨⟨src, (mem_pendingWays.1 hsrc).1.1, heq⟩, hnot⟩
  · obtain ⟨a, ha, hitem⟩ := h.exists_call hperm hsrc
    have hfile := hfiles a ha
    rwa [hitem, hplace src (mem_pendingWays.1 hsrc).1.1] at hfile
  · rcases isFile_or_isDirectory hq with hfile | hdir
    · exact isOccupied_of_isFile (hkept _ hfile)
    · exact isOccupied_of_isDirectory ((hwritten.isDirectory_eq _).trans hdir)
  · rintro ⟨⟨a, ha, rfl⟩, -⟩
    exact hcalled a ha

end SortedOut

/-- A library that has nothing left to do: its copy is that of the archive as it is, and the objects
that a build needs are there, and no others. -/
structure Ready (cwd : Location) (plan : Plan) (links : List String) (bytes : List UInt8)
    (ways : List Location) (t : FileTree) : Prop where
  copied : Copied plan.libraryDirectory bytes ways t
  archive : bytesAt plan.archive t cwd = .ok bytes
  outside : ¬ goalOf cwd plan.libraryDirectory <+: goalOf cwd plan.archive
  sortable : Sortable plan links ways t
  complete : Complete plan links ways t

theorem CopiedAnew.ready {u : World} (h : CopiedAnew around plan bytes w v u)
    (hlib : plan.libraryDirectory.isAbsolute = true)
    (hcopied : Copied plan.libraryDirectory bytes ways u.tree)
    (hsortable : Sortable plan links ways u.tree)
    (hchanged : ObjectsChanged plan.libraryDirectory ways u w') (hwf : w'.tree.WellFormed)
    (hcomplete : Complete plan links ways w'.tree) :
    Ready around.directory plan links bytes ways w'.tree where
  copied := hcopied.of_changed hchanged hwf
  archive := bytesAt_of_directoriesStay
    (fun q hq => (hchanged.isDirectory_eq q).trans hq)
    (fun _ hnode => (hchanged.1 _ h.archive_outside).trans hnode) (h.bytesAt_archive hlib)
  outside := by
    rw [goalOf_of_absolute hlib]
    exact h.archive_outside
  sortable := hsortable.congr rfl fun _ => hchanged.isDirectory_eq _
  complete := hcomplete

namespace Ready

theorem of_spares {touched : Location → Prop} (h : Ready cwd plan links bytes ways t)
    (hspares : Spares touched t t') (hwf : t'.WellFormed)
    (hdirs : ∀ q, t.isDirectory q = true → t'.isDirectory q = true)
    (hfiles : ∀ name ∈ [fileName, markerName],
      ¬ touched (goalOf [] plan.libraryDirectory ++ [name]))
    (hsources : ∀ src, IsSourceWay src → ¬ touched (goalOf [] plan.libraryDirectory ++ src) ∧
      ¬ touched (objectAt plan.libraryDirectory src))
    (harchive : ¬ touched (goalOf cwd plan.archive))
    (hothers : ∀ src ∈ ways, ¬ isNeededAt plan.libraryDirectory plan.gc links src = true →
      ¬ t'.isDirectory (objectAt plan.libraryDirectory src) = true) :
    Ready cwd plan links bytes ways t' where
  copied :=
    { wellFormed := hwf
      leads := h.copied.leads.mono hdirs
      sources := fun way => by
        rw [h.copied.sources]
        exact and_congr_right fun hway => by rw [hspares.isFile_eq (hsources way hway).1]
      nodup := h.copied.nodup
      manifest := by
        obtain ⟨f, hf, hbytes⟩ := h.copied.manifest
        exact ⟨f, hspares.node?_of_some (hfiles fileName (by simp)) hf, hbytes⟩
      marker := by
        obtain ⟨f, hf, hbytes⟩ := h.copied.marker
        exact ⟨f, hspares.node?_of_some (hfiles markerName (by simp)) hf, hbytes⟩
      fits := h.copied.fits }
  archive := by
    have hstay : DirectoriesStay (.ofTree t) (.ofTree t') := hdirs
    have harchive' := bytesAt_of_directoriesStay hstay (fun _ => hspares.node?_of_some harchive)
      h.archive
    exact harchive'
  outside := h.outside
  sortable := by
    refine ⟨fun src hsrc => ⟨(h.sortable.1 src hsrc).1, ?_⟩, h.sortable.2⟩
    rw [mem_otherWays] at hsrc
    exact hothers src hsrc.1 hsrc.2
  complete :=
    { needed := fun src hsrc hneed => hspares.isOccupied
        (hsources src (h.copied.isSourceWay hsrc)).2 (h.complete.needed src hsrc hneed)
      others := fun src hsrc hother hocc => by
        rcases hspares _ (hsources src (h.copied.isSourceWay hsrc)).2 with heq | ⟨-, hdir⟩
        · rw [isOccupied_congr heq] at hocc
          exact h.complete.others src hsrc hother hocc
        · exact hothers src hsrc hother (isDirectory_iff.2 hdir) }

theorem of_filesChanged {places : Location → Prop} (h : Ready cwd plan links bytes ways t)
    (hchanged : FilesChanged places t t') (hwf : t'.WellFormed)
    (hfiles : ∀ name ∈ [fileName, markerName],
      ¬ places (goalOf [] plan.libraryDirectory ++ [name]))
    (hsources : ∀ src, IsSourceWay src → ¬ places (goalOf [] plan.libraryDirectory ++ src) ∧
      ¬ places (objectAt plan.libraryDirectory src))
    (harchive : ¬ places (goalOf cwd plan.archive)) : Ready cwd plan links bytes ways t' := by
  refine h.of_spares (hchanged.spares fun _ hq => hq) hwf
    (fun q hq => (hchanged.isDirectory_eq q).trans hq) hfiles hsources harchive
    fun src hsrc hother hdir => ?_
  rw [hchanged.isDirectory_eq] at hdir
  exact h.complete.others src hsrc hother (isOccupied_of_isDirectory hdir)

variable (h : Ready around.directory plan links bytes ways w.tree)
  (hlib : plan.libraryDirectory.isAbsolute = true)

include h hlib

theorem intact : Intact around plan ways w where
  wellFormed := h.copied.wellFormed
  fresh := by
    obtain ⟨f, hf, hbytes⟩ := h.copied.marker
    exact perform_isFresh_of_marker (h.copied.leads.of_absolute hlib around.directory)
      h.copied.fits.2 (by rw [goalOf_of_absolute hlib]; exact hf) hbytes h.archive
  outside := h.outside
  listing := ⟨fun _ hway => h.copied.isSourceWay hway, h.copied.nodup⟩
  manifest := by
    rw [goalOf_of_absolute hlib]
    exact h.copied.manifest
  readable := h.copied.fits.1

theorem perform_prepare : ∃ p w', perform (prepare plan links) around w = (.ok p, w') ∧
    p.included = sourcesAt plan.libraryDirectory
      (neededWays plan.libraryDirectory plan.gc links ways) ∧
    p.pending = [] ∧ w'.tree.WellFormed ∧
    ∀ q, w'.tree.isDirectory q = w.tree.isDirectory q := by
  obtain ⟨v, htree, -, hunpack⟩ := (h.intact hlib).perform_unpack
  rw [← htree] at h
  obtain ⟨p, w', hsort, hsorted⟩ := (perform_sortOut hlib h.copied around links).resolve_left <| by
    rintro ⟨fault, x, -, hnot, -⟩
    exact hnot h.sortable
  refine ⟨p, w', ?_, hsorted.included, hsorted.pending_eq_nil h.copied h.complete,
    hsorted.wellFormed, fun q => htree ▸ hsorted.objectsChanged.isDirectory_eq q⟩
  rw [prepare_eq_unpack, perform_bind_ok hunpack, hsort]

end Ready

end StagedBuild.NativeLibrary
