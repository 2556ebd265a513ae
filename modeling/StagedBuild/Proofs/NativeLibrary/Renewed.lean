import StagedBuild.Proofs.NativeLibrary.Completion
import StagedBuild.Proofs.NativeLibrary.Unpacked

/-!
The library before its compilers run: which sources are included, what the preparation touches, and
a copy that was made anew. Where it goes there is nothing, once the old one is cleared away, so it
is what the bytes of the archive make of a new directory. Between unpacking and compiling only the
file of the manifest and objects of sources change.
-/

namespace StagedBuild.NativeLibrary

section Preparing

open Action FileTree Disk Manifest

variable {around : Surroundings} {w w' : World} {plan : Plan} {links : List String}
  {dir : Location} {touched : Location → Prop}

theorem listing_of_perform_prepare {p : Preparation}
    (hstart : StartsFrom around.directory dir plan.libraryDirectory)
    (hout : ¬ goalOf around.directory plan.libraryDirectory <+: dir)
    (hw : w.tree.WellFormed) (hdir : w.tree.isDirectory dir = true)
    (hscanned : perform (copyOf plan).isFresh around w = (.ok true, w) →
      Scanned plan.libraryDirectory (goalOf around.directory plan.libraryDirectory) w.tree)
    (h : perform (prepare plan links) around w = (.ok p, w')) :
    ∃ ways v, IsListing ways ∧
      perform (unpack plan) around w =
        (.ok ⟨plan.libraryDirectory, sourcesAt plan.libraryDirectory ways⟩, v) ∧
      p.included = sourcesAt plan.libraryDirectory
        (ways.filter (isNeededAt plan.libraryDirectory plan.gc links)) := by
  obtain ⟨m, v, hunpack, hsort⟩ := perform_bind_eq_ok.1 h
  obtain ⟨ways, hways, rfl⟩ := listing_of_perform_unpack hstart hout hw hdir hscanned hunpack
  refine ⟨ways, v, hways, hunpack, ?_⟩
  obtain ⟨selected, v₁, hselect, hremoving⟩ := perform_bind_eq_ok.1 hsort
  rw [select_ways, perform_ofExcept_id] at hselect
  cases hselect
  obtain ⟨removed, v₂, -, hfinding⟩ := perform_bind_eq_ok.1 hremoving
  obtain ⟨pending, v₃, -, hend⟩ := perform_bind_eq_ok.1 hfinding
  cases hend
  rfl

theorem isOccupied_of_prepare {p : Preparation} {s : Source}
    (h : perform (prepare plan links) around w = (.ok p, w')) (hs : s ∈ p.included)
    (hnot : s ∉ p.pending) :
    w'.tree.isOccupied (goalOf around.directory s.objectPath) = true := by
  obtain ⟨manifest, w₁, hunpack, h₁⟩ := perform_bind_eq_ok.1 h
  obtain ⟨selected, w₂, hselect, h₂⟩ := perform_bind_eq_ok.1 h₁
  obtain ⟨removed, w₃, hremove, h₃⟩ := perform_bind_eq_ok.1 h₂
  obtain ⟨pending, w₄, hpending, h₄⟩ := perform_bind_eq_ok.1 h₃
  have hanswers := exists_answer_of_withoutObject hpending
  obtain ⟨rfl, hfilter⟩ := perform_withoutObject_ok hpending
  cases h₄
  obtain ⟨node, hnode⟩ := hanswers s hs
  cases node with
  | none =>
      refine absurd ?_ hnot
      rw [hfilter]
      exact List.mem_filter.2 ⟨hs, by rw [lacksObject, hnode]; rfl⟩
  | some node =>
      exact isOccupied_iff.2 ⟨node, (answerAt_eq_some_iff.1 hnode).2.2⟩

theorem sparing_prepare (hlib : plan.libraryDirectory.isAbsolute = true)
    (htouched : ∀ way, touched (goalOf [] plan.libraryDirectory ++ way))
    (hw : w.tree.WellFormed)
    (hscanned : perform (copyOf plan).isFresh around w = (.ok true, w) →
      Scanned plan.libraryDirectory (goalOf around.directory plan.libraryDirectory) w.tree)
    (links : List String) : Sparing touched w (perform (prepare plan links) around w).2 := by
  have hout : ¬ goalOf around.directory plan.libraryDirectory <+: [] := by
    rw [Build.goalOf_libraryDirectory]
    simp
  have hbelow : ∀ way, touched (goalOf around.directory plan.libraryDirectory ++ way) := by
    rwa [goalOf_of_absolute hlib]
  refine Keeps.bind_at (sparing_unpack hbelow w) fun m v hunpack => ?_
  obtain ⟨ways, hways, rfl⟩ := listing_of_perform_unpack (.of_absolute hlib) hout hw
    (isDirectory_iff.2 (node?_nil _)) hscanned hunpack
  rw [select_ways, perform_bind_ok (perform_ofExcept_id _ _ _)]
  refine Keeps.bind (keeps_removeObjects_within fun s hs => sparing_unlink ?_) (fun removed => ?_) v
  · obtain ⟨src, hsrc, rfl⟩ := List.mem_map.1 hs
    have hsource := (hways.filter _).isSourceWay src hsrc
    rw [objectPath_sourceAt hsource,
      goalOf_of_absolute (isAbsolute_descend_objectWay hlib hsource),
      goalOf_descend_objectWay hsource]
    exact htouched (objectWay src)
  · exact (Keeps.of_readOnly (readOnly_withoutObject _)).bind fun _ => Keeps.pure _

end Preparing

section Renewed

open Action FileTree Disk Manifest

variable {around : Surroundings} {w w' : World} {plan : Plan} {archive lib : Path}

theorem onTheWay_of_libraryDirectory {cwd q : Location}
    (h : OnTheWay cwd plan.libraryDirectory q) :
    q = goalOf cwd plan.libraryDirectory ∨ OnTheWay cwd plan.workdir q := by
  have hnames : ∀ s ∈ ["lib"], isEntryName s = true := by decide
  rcases h with hpassed | heq
  · rw [Build.libraryDirectory_eq, Path.div_eq_descend] at hpassed
    rcases (mem_passedBy_descend hnames).1 hpassed with hv | ⟨front, back, hway, hback, rfl⟩
    · exact .inr (.inl hv)
    · refine .inr (.inr ?_)
      have hlength := congrArg List.length hway
      have hpos := List.length_pos_of_ne_nil hback
      rw [List.length_append, List.length_singleton] at hlength
      rw [List.eq_nil_of_length_eq_zero (l := front) (by omega), List.append_nil]
  · exact .inl heq

/-- A new copy of an archive has something in a place. -/
def Ships (unpackers : Archive.Unpackers) (lib : Path) (bytes : List UInt8) (q : Location) : Prop :=
  ∃ t, Filled unpackers lib bytes t ∧ t.isOccupied q = true

theorem Filled.ships_iff {unpackers : Archive.Unpackers} {bytes : List UInt8} {t : FileTree}
    (hlib : lib.isAbsolute = true) (h : Filled unpackers lib bytes t) (way : Location) :
    Ships unpackers lib bytes (goalOf [] lib ++ way) ↔
      t.isOccupied (goalOf [] lib ++ way) = true := by
  constructor
  · rintro ⟨t', h', hocc⟩
    rwa [isOccupied_congr (Filled.node?_eq hlib h h' way)]
  · intro hocc
    exact ⟨t, h, hocc⟩

theorem absent_of_perform_clear (hw : w.tree.WellFormed)
    (hleads : LeadsToDirectory plan.workdir w.tree around.directory)
    (h : perform (Site.clear plan.libraryDirectory) around w = (.ok (), w')) (way : Location) :
    w'.tree.node? (goalOf around.directory plan.libraryDirectory ++ way) = none := by
  unfold Site.clear at h
  obtain ⟨there, v, hthere, hrest⟩ := perform_bind_eq_ok.1 h
  rw [perform_isOccupied] at hthere
  obtain ⟨hanswer, rfl⟩ := Prod.mk.inj hthere
  cases there with
  | false =>
      cases hrest
      have hnone : answerAt plan.libraryDirectory w.tree around.directory = .ok none := by
        rcases hat : answerAt plan.libraryDirectory w.tree around.directory with fault | _ | node
        · rw [hat] at hanswer
          cases hanswer
        · rfl
        · rw [hat] at hanswer
          cases hanswer
      have hchild : w.tree.node? (goalOf around.directory plan.libraryDirectory) = none := by
        rw [Build.goalOf_libraryDirectory]
        exact hleads.node?_child_of_none (by decide) hnone
      refine not_isOccupied_iff.1 fun hocc => ?_
      by_cases hway : way = []
      · subst hway
        rw [List.append_nil] at hocc
        exact not_isOccupied_iff.2 hchild hocc
      · have habove := isOccupied_of_isDirectory (hw.isDirectory_above hocc hway)
        exact not_isOccupied_iff.2 hchild habove
  | true =>
      rw [if_pos rfl] at hrest
      rcases perform_removeTree plan.libraryDirectory around w with
        ⟨fault, hfault⟩ | ⟨fault, v, hfault, -⟩ | ⟨v, hok, hremoved⟩
      · rw [hfault] at hrest
        cases hrest
      · rw [hfault] at hrest
        cases hrest
      · rw [hok] at hrest
        cases hrest
        exact hremoved.node?_below way

theorem perform_extract_ok (h : perform (Archive.extract archive lib) around w = (.ok (), w')) :
    archive.suffix ∈ Archive.knownSuffixes ∧ ∃ v bytes,
      perform (makeDirectories lib) around w = (.ok (), v) ∧
      bytesAt archive v.tree around.directory = .ok bytes ∧
      perform (pour lib bytes) around v = (.ok (), w') := by
  obtain ⟨v, bytes, all, hmade, hknown, hbytes, hall, hextracted⟩ := Archive.perform_extract_ok h
  have hmembers : perform (Action.ofExcept id (Archive.members bytes)) around v = (.ok all, v) := by
    rw [perform_ofExcept_id, hall]
  exact ⟨hknown, v, bytes, hmade, hbytes, (perform_bind_ok hmembers).trans hextracted⟩

/-- A copy is made anew. With the old one taken away, its directory is empty in one world, and
filled with what is read of the archive there. -/
structure CopiedAnew (around : Surroundings) (plan : Plan) (bytes : List UInt8) (w v w' : World) :
    Prop where
  archive : bytesAt plan.archive w.tree around.directory = .ok bytes
  known : plan.archive.suffix ∈ Archive.knownSuffixes
  prepared : Prepared plan.libraryDirectory v.tree
  poured : bytesAt plan.archive v.tree around.directory = .ok bytes
  cleared : ∀ q, ¬ goalOf [] plan.libraryDirectory <+: q → v.tree.node? q = w.tree.node? q
  filled : perform (fill plan.libraryDirectory bytes) around v = (.ok (), w')

theorem copiedAnew_of_perform_renew (hlib : plan.libraryDirectory.isAbsolute = true)
    (hw : w.tree.WellFormed) (hleads : LeadsToDirectory plan.workdir w.tree around.directory)
    (h : perform ((copyOf plan).renew writeManifest) around w = (.ok (), w')) :
    ∃ bytes v, CopiedAnew around plan bytes w v w' := by
  obtain ⟨print, v₁, v₂, v₃, v₄, hmarking, hclear, hextract, hmanifest, hparent, hmarker⟩ :=
    perform_renew_ok h
  obtain ⟨bytes, hbytes, rfl⟩ := perform_marking_ok hmarking
  obtain ⟨hknown, v, poured, hmake, hpoured, hpour⟩ := perform_extract_ok hextract
  obtain rfl := bytesAt_poured hclear hmake hbytes hpoured
  have hw₁ := ((sturdy_clear [] plan.libraryDirectory (P := fun _ => True)
    fun _ _ _ h => h).of_perform hclear
      (by rw [Build.goalOf_libraryDirectory]; simp) hw (isDirectory_iff.2 (node?_nil _)) trivial).1
  have hbare : Bare plan.libraryDirectory v₁.tree := by
    refine bare_of_absent fun way => ?_
    rw [← goalOf_of_absolute hlib around.directory]
    exact absent_of_perform_clear hw hleads hclear way
  have hprepared := prepared_of_makeDirectories hlib hw₁ hbare hmake
  refine ⟨poured, v, hbytes, hknown, hprepared, hpoured, fun q hq => ?_, ?_⟩
  · -- no directory outside is made: the path to the work directory was there
    have hgone := gone_of_clear plan.libraryDirectory around w
    rw [hclear, goalOf_of_absolute hlib] at hgone
    have hsame : v₁.tree.node? q = w.tree.node? q := (hgone q).resolve_right fun hgone => hq hgone.1
    rcases (adds_makeDirectories around plan.libraryDirectory).of_perform hmake q with
      heq | ⟨hway, hnone, -⟩
    · exact heq.trans hsame
    · have hpassed := (onTheWay_of_libraryDirectory hway).resolve_left fun heq => hq <| by
        simp only [heq, goalOf_of_absolute hlib around.directory, List.prefix_rfl]
      rw [hsame, isDirectory_iff.1 (hleads.isDirectory_of_onTheWay hpassed)] at hnone
      cases hnone
  -- the directory of the marker is there, so making it changes nothing
  obtain ⟨hagree₁, -⟩ := (local_pour hlib rfl poured).alone (hprepared.agree hprepared) hpour
  obtain ⟨hagree₂, -⟩ := (local_writeManifest hlib fun _ hv => hv).alone hagree₁ hmanifest
  have hthere := (leads_of_agree hagree₂ hprepared.leads).of_absolute hlib around.directory
  rw [parent_marker, perform_makeDirectories_there hthere] at hparent
  cases hparent
  exact (perform_bind_ok hpour).trans ((perform_bind_ok hmanifest).trans hmarker)

theorem filled_of_perform_renew (hlib : plan.libraryDirectory.isAbsolute = true)
    (hw : w.tree.WellFormed) (hleads : LeadsToDirectory plan.workdir w.tree around.directory)
    (h : perform ((copyOf plan).renew writeManifest) around w = (.ok (), w')) :
    ∃ bytes, bytesAt plan.archive w.tree around.directory = .ok bytes ∧
      Filled around.unpacker plan.libraryDirectory bytes w'.tree := by
  obtain ⟨bytes, v, hmade⟩ := copiedAnew_of_perform_renew hlib hw hleads h
  exact ⟨bytes, hmade.archive, around, v, w', rfl, hmade.prepared, hmade.filled, rfl⟩

/-- Where the manifest and the objects of sources go. -/
def Reworked (base q : Location) : Prop :=
  q = fileAt base ∨ ∃ src, IsSourceWay src ∧ q = base ++ objectWay src

theorem sameOutside_load (plan : Plan) : Keeps around
    (SameOutside (Reworked (goalOf around.directory plan.libraryDirectory)))
    (load plan.libraryDirectory) :=
  keeps_load_within fun bytes =>
    sameOutside_writeBytes (.inl (goalOf_child _ _ isEntryName_fileName)) bytes

theorem sameOutside_removeObjects {ways : List Location} (hways : IsListing ways) :
    Keeps around (SameOutside (Reworked (goalOf around.directory plan.libraryDirectory)))
      (removeObjects (sourcesAt plan.libraryDirectory ways)) := by
  refine keeps_removeObjects_within fun s hs => sameOutside_unlink (.inr ?_)
  obtain ⟨src, hsrc, rfl⟩ := List.mem_map.1 hs
  have hsource := hways.isSourceWay src hsrc
  have hsteps := fun name hname => isStep_of_isEntryName (hsource.2.1 name hname)
  refine ⟨src, hsource, ?_⟩
  rw [objectPath_sourceAt hsource]
  exact goalOf_descend_plain _ _ (isStep_objectWay hsteps hsource.1)
    (up_not_mem_objectWay (up_not_mem hsource.2.1))

/-- Preparing the library starts from a copy that is current, or that was made anew, and changes
only the manifest and objects of sources in it. -/
theorem node?_of_perform_prepare {dir : Location} {links : List String} {p : Preparation}
    (hstart : StartsFrom around.directory dir plan.libraryDirectory)
    (hout : ¬ goalOf around.directory plan.libraryDirectory <+: dir)
    (hw : w.tree.WellFormed) (hdir : w.tree.isDirectory dir = true)
    (hscanned : perform (copyOf plan).isFresh around w = (.ok true, w) →
      Scanned plan.libraryDirectory (goalOf around.directory plan.libraryDirectory) w.tree)
    (h : perform (prepare plan links) around w = (.ok p, w')) :
    ∃ v, (v = w ∧ perform (copyOf plan).isFresh around w = (.ok true, w) ∨
        perform (copyOf plan).isFresh around w = (.ok false, w) ∧
          perform ((copyOf plan).renew writeManifest) around w = (.ok (), v)) ∧
      ∀ q, ¬ Reworked (goalOf around.directory plan.libraryDirectory) q →
        w'.tree.node? q = v.tree.node? q := by
  obtain ⟨m, u, hunpack, hsort⟩ := perform_bind_eq_ok.1 h
  obtain ⟨ways, hways, rfl⟩ := listing_of_perform_unpack hstart hout hw hdir hscanned hunpack
  obtain ⟨renewed, v, v', hfreshen, htree, hload⟩ := perform_unpack_ok hunpack
  refine ⟨v, perform_freshen_ok hfreshen, fun q hq => ?_⟩
  obtain ⟨selected, u₁, hselect, hremoving⟩ := perform_bind_eq_ok.1 hsort
  rw [select_ways, perform_ofExcept_id] at hselect
  cases hselect
  obtain ⟨removed, u₂, hremove, hfinding⟩ := perform_bind_eq_ok.1 hremoving
  obtain ⟨pending, u₃, hfind, hend⟩ := perform_bind_eq_ok.1 hfinding
  obtain ⟨rfl, -⟩ := perform_withoutObject_ok hfind
  cases hend
  rw [(sameOutside_removeObjects (hways.filter _)).of_perform hremove q hq,
    (sameOutside_load plan).of_perform hload q hq, htree]

end Renewed

end StagedBuild.NativeLibrary
