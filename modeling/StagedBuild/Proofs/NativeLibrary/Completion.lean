import StagedBuild.Proofs.NativeLibrary.Compiling

/-!
From a copy to the library. With the manifest at hand the sources are sorted, the objects of those
that are not needed are taken away, and the missing ones are made. What a run that succeeds leaves
is settled by the copy and by which sources are needed, whatever objects were there before.
-/

namespace StagedBuild.NativeLibrary

open Action FileTree Disk Manifest

variable {around : Surroundings} {w w' : World} {lib : Path} {t t' t₀ : FileTree}
  {archive : List UInt8} {ways : List Location} {src : Location} {plan : Plan}
  {links : List String}

section Select

variable (lib : Path) (gc : Collector) (links : List String)

/-- A build with this collector and these libraries needs a source. -/
def isNeededAt (src : Location) : Bool :=
  ((sourceAt lib (lib.descend src)).isNeeded gc links).toOption.getD false

theorem isNeeded_sourceAt (src : Location) :
    (sourceAt lib (lib.descend src)).isNeeded gc links = .ok (isNeededAt lib gc links src) := by
  unfold isNeededAt Source.isNeeded sourceAt tagValue
  dsimp only
  cases (inclusionOf (((lib.descend src).relativeTo? lib).getD (lib.descend src))).1 <;>
    cases (inclusionOf (((lib.descend src).relativeTo? lib).getD (lib.descend src))).2 <;> rfl

/-- The sources that a build needs, in the order of the manifest. -/
def neededWays (ways : List Location) : List Location :=
  (fileOrder ways).filter (isNeededAt lib gc links)

/-- The sources that a build does not need. -/
def otherWays (ways : List Location) : List Location :=
  (fileOrder ways).filter fun src => !isNeededAt lib gc links src

theorem mem_neededWays {ways : List Location} {src : Location} :
    src ∈ neededWays lib gc links ways ↔ src ∈ ways ∧ isNeededAt lib gc links src = true := by
  rw [neededWays, List.mem_filter, mem_fileOrder]

theorem mem_otherWays {ways : List Location} {src : Location} :
    src ∈ otherWays lib gc links ways ↔ src ∈ ways ∧ ¬ isNeededAt lib gc links src = true := by
  rw [otherWays, List.mem_filter, mem_fileOrder]
  simp

theorem select_ways (ways : List Location) :
    (⟨lib, sourcesAt lib ways⟩ : Manifest).select gc links =
      .ok (sourcesAt lib (ways.filter (isNeededAt lib gc links)),
        sourcesAt lib (ways.filter fun src => !isNeededAt lib gc links src)) := by
  have hmarked : ∀ some : List Location,
      (sourcesAt lib some).mapM (fun s => do return (s, ← s.isNeeded gc links)) =
        (.ok (some.map fun src =>
          (sourceAt lib (lib.descend src), isNeededAt lib gc links src)) : Except Fault _) := by
    intro some
    induction some with
    | nil => rfl
    | cons src some ih =>
        rw [sourcesAt, List.map_cons, List.mapM_cons, isNeeded_sourceAt]
        rw [sourcesAt] at ih
        simp only [ih]
        rfl
  unfold Manifest.select
  simp only [hmarked]
  simp only [bind, Except.bind, pure, Except.pure, List.filter_map, List.map_map]
  rfl

theorem select_sourcesAt (ways : List Location) :
    (⟨lib, sourcesAt lib (fileOrder ways)⟩ : Manifest).select gc links =
      .ok (sourcesAt lib (neededWays lib gc links ways),
        sourcesAt lib (otherWays lib gc links ways)) :=
  select_ways lib gc links (fileOrder ways)

end Select

/-- Sorts the sources, and takes away the objects that are not needed. -/
def sortOut (plan : Plan) (links : List String) (manifest : Manifest) : Action Preparation := do
  let (included, excluded) ← Action.ofExcept id (manifest.select plan.gc links)
  let removed ← removeObjects excluded
  let pending ← withoutObject included
  return ⟨included, pending, removed⟩

theorem assemble_eq_unpack (plan : Plan) (links : List String) :
    assemble plan links =
      unpack plan >>= fun manifest => sortOut plan links manifest >>= compilePending plan := by
  rw [assemble_eq, prepare]
  simp only [sortOut, bind_assoc]

/-- The objects of a copy can be sorted out: those that are not needed can be taken away, and those
that are needed have a place. -/
def Sortable (plan : Plan) (links : List String) (ways : List Location) (t : FileTree) : Prop :=
  (∀ src ∈ otherWays plan.libraryDirectory plan.gc links ways,
      Removable plan.libraryDirectory t src) ∧
    ∀ src ∈ neededWays plan.libraryDirectory plan.gc links ways,
      PathFits (plan.libraryDirectory.descend (objectWay src))

/-- A library is complete: the objects that are needed are there, and the others are not. -/
structure Complete (plan : Plan) (links : List String) (ways : List Location) (t : FileTree) :
    Prop where
  needed : ∀ src ∈ ways, isNeededAt plan.libraryDirectory plan.gc links src = true →
    t.isOccupied (objectAt plan.libraryDirectory src) = true
  others : ∀ src ∈ ways, ¬ isNeededAt plan.libraryDirectory plan.gc links src = true →
    ¬ t.isOccupied (objectAt plan.libraryDirectory src) = true

theorem Sortable.congr {others : List Location} (h : Sortable plan links ways t)
    (horder : fileOrder others = fileOrder ways)
    (hdirs : ∀ way, t'.isDirectory (goalOf [] plan.libraryDirectory ++ way) =
      t.isDirectory (goalOf [] plan.libraryDirectory ++ way)) :
    Sortable plan links others t' := by
  unfold Sortable otherWays neededWays at h ⊢
  rw [horder]
  exact ⟨fun src hsrc => ⟨(h.1 src hsrc).1, fun hdir => (h.1 src hsrc).2
    ((hdirs (objectWay src)).symm.trans hdir)⟩, h.2⟩

def manifestOf (lib : Path) (ways : List Location) : Manifest :=
  ⟨lib, sourcesAt lib (fileOrder ways)⟩

/-- The sources that are needed and have no object. -/
def pendingWays (plan : Plan) (links : List String) (ways : List Location) (t : FileTree) :
    List Location :=
  (neededWays plan.libraryDirectory plan.gc links ways).filter fun src =>
    !t.isOccupied (objectAt plan.libraryDirectory src)

theorem mem_pendingWays : src ∈ pendingWays plan links ways t ↔
    (src ∈ ways ∧ isNeededAt plan.libraryDirectory plan.gc links src = true) ∧
      ¬ t.isOccupied (objectAt plan.libraryDirectory src) = true := by
  simp [pendingWays, mem_neededWays]

/-- The objects of a copy have been sorted out: those that are not needed are gone, and the sources
that are needed are known, with those of them that have no object. -/
structure SortedOut (plan : Plan) (links : List String) (ways : List Location) (p : Preparation)
    (t t' : FileTree) : Prop where
  included : p.included = sourcesAt plan.libraryDirectory
    (neededWays plan.libraryDirectory plan.gc links ways)
  pending : p.pending = sourcesAt plan.libraryDirectory (pendingWays plan links ways t')
  sortable : Sortable plan links ways t
  wellFormed : t'.WellFormed
  nodes : ∀ q, t'.node? q =
    if q ∈ (otherWays plan.libraryDirectory plan.gc links ways).map
      (objectAt plan.libraryDirectory) then none else t.node? q

namespace SortedOut

variable {p : Preparation} {compiled : List (Pool.Answered Source)}

theorem objectsChanged (h : SortedOut plan links ways p w.tree w'.tree) :
    ObjectsChanged plan.libraryDirectory ways w w' :=
  .of_gone (fun _ hsrc => ((mem_otherWays _ _ _).1 hsrc).1)
    (fun src hsrc => (h.sortable.1 src hsrc).2) h.nodes

theorem objectPaths_included (h : SortedOut plan links ways p t t')
    (hcopied : Copied plan.libraryDirectory archive ways t) :
    p.included.map Source.objectPath =
      (neededWays plan.libraryDirectory plan.gc links ways).map fun src =>
        plan.libraryDirectory.descend (objectWay src) := by
  rw [h.included, sourcesAt, List.map_map]
  exact List.map_congr_left fun src hsrc =>
    objectPath_sourceAt (hcopied.isSourceWay ((mem_neededWays _ _ _).1 hsrc).1)

theorem exists_pendingWay (h : SortedOut plan links ways p t t')
    (hperm : (compiled.map Pool.Answered.item).Perm p.pending) {a : Pool.Answered Source}
    (ha : a ∈ compiled) : ∃ src ∈ pendingWays plan links ways t',
      a.item = sourceAt plan.libraryDirectory (plan.libraryDirectory.descend src) := by
  have hmem := hperm.subset (List.mem_map_of_mem ha)
  rw [h.pending] at hmem
  obtain ⟨src, hsrc, heq⟩ := List.mem_map.1 hmem
  exact ⟨src, hsrc, heq.symm⟩

theorem exists_call (h : SortedOut plan links ways p t t')
    (hperm : (compiled.map Pool.Answered.item).Perm p.pending)
    (hsrc : src ∈ pendingWays plan links ways t') : ∃ a ∈ compiled,
      a.item = sourceAt plan.libraryDirectory (plan.libraryDirectory.descend src) := by
  have hmem : sourceAt plan.libraryDirectory (plan.libraryDirectory.descend src) ∈ p.pending := by
    rw [h.pending]
    exact List.mem_map_of_mem hsrc
  exact List.mem_map.1 (hperm.symm.subset hmem)

/-- Once the pending objects have been made, and nothing but objects of sources that are needed has
changed, the library is complete. -/
theorem complete_of_made (h : SortedOut plan links ways p t₀ t)
    (hcopied : Copied plan.libraryDirectory archive ways t₀)
    (hmade : ∀ src ∈ pendingWays plan links ways t,
      t'.isFile (objectAt plan.libraryDirectory src) = true)
    (hstays : ∀ q, t.isOccupied q = true → t'.isOccupied q = true)
    (honly : ∀ q, t'.node? q = t.node? q ∨ ∃ src ∈ pendingWays plan links ways t,
      q = objectAt plan.libraryDirectory src) : Complete plan links ways t' where
  needed src hsrc hneed := by
    by_cases hthere : t.isOccupied (objectAt plan.libraryDirectory src) = true
    · exact hstays _ hthere
    · exact isOccupied_of_isFile (hmade src (mem_pendingWays.2 ⟨⟨hsrc, hneed⟩, hthere⟩))
  others src hsrc hother hocc := by
    rcases honly (objectAt plan.libraryDirectory src) with heq | ⟨src', hsrc', heq⟩
    · rw [isOccupied_congr heq] at hocc
      refine not_isOccupied_iff.2 ?_ hocc
      rw [h.nodes, if_pos (List.mem_map_of_mem ((mem_otherWays _ _ _).2 ⟨hsrc, hother⟩))]
    · obtain ⟨⟨hmem, hneed⟩, -⟩ := mem_pendingWays.1 hsrc'
      have hsame := objectAt_injective (hcopied.isSourceWay hsrc) (hcopied.isSourceWay hmem) heq
      exact hother (hsame ▸ hneed)

end SortedOut

section Pending

variable (hcopied : Copied plan.libraryDirectory archive ways w.tree)

theorem objectsChanged_of_filesMade
    (hmade : FilesMade (fun q => ∃ src ∈ pendingWays plan links ways w.tree,
      q = objectAt plan.libraryDirectory src) w.tree w'.tree) :
    ObjectsChanged plan.libraryDirectory ways w w' := by
  refine .of_nodes fun q => (hmade q).imp_right ?_
  rintro ⟨⟨src, hsrc, rfl⟩, hfile⟩
  obtain ⟨⟨hmem, -⟩, hfree⟩ := mem_pendingWays.1 hsrc
  exact ⟨⟨src, hmem, rfl⟩, fun hdir => hfree (isOccupied_of_isDirectory hdir),
    fun hdir => not_isFile_of_isDirectory hdir hfile⟩

include hcopied

/-- A compiler that is called for a pending source finds the source there and a place for its
object, whatever objects were made in the meantime. -/
theorem isSuccess_of_succeeds (hsucceeds : Succeeds around plan)
    (hfits : ∀ src ∈ neededWays plan.libraryDirectory plan.gc links ways,
      PathFits (plan.libraryDirectory.descend (objectWay src)))
    (hsrc : src ∈ pendingWays plan links ways w.tree) (hwf : w'.tree.WellFormed)
    (hmade : FilesMade (fun q => ∃ src ∈ pendingWays plan links ways w.tree,
      q = objectAt plan.libraryDirectory src) w.tree w'.tree) :
    (around.tool (Build.sourceCall plan
      (sourceAt plan.libraryDirectory (plan.libraryDirectory.descend src))) w').1.isSuccess =
        true := by
  obtain ⟨⟨hmem, hneed⟩, hfree⟩ := mem_pendingWays.1 hsrc
  have hfile : w'.tree.isFile (goalOf [] plan.libraryDirectory ++ src) = true :=
    hmade.isFile ((hcopied.sources src).1 hmem).2
  have hplaced : ¬ w'.tree.isDirectory (objectAt plan.libraryDirectory src) = true := by
    intro hdir
    rw [(objectsChanged_of_filesMade hmade).isDirectory_eq] at hdir
    exact hfree (isOccupied_of_isDirectory hdir)
  exact hsucceeds src w' (hcopied.isSourceWay hmem) hwf hfile hplaced
    (hfits src ((mem_neededWays _ _ _).2 ⟨hmem, hneed⟩))

end Pending

variable (hlib : plan.libraryDirectory.isAbsolute = true)

include hlib

theorem perform_sortOut (h : Copied plan.libraryDirectory archive ways w.tree)
    (around : Surroundings) (links : List String) :
    (∃ fault w', perform (sortOut plan links (manifestOf plan.libraryDirectory ways)) around w =
        (.error fault, w') ∧ ¬ Sortable plan links ways w.tree ∧ w'.tree.WellFormed ∧
        ObjectsChanged plan.libraryDirectory ways w w') ∨
      ∃ (p : Preparation) (w' : World),
        perform (sortOut plan links (manifestOf plan.libraryDirectory ways)) around w =
          (.ok p, w') ∧ SortedOut plan links ways p w.tree w'.tree := by
  have hout : ∀ src ∈ otherWays plan.libraryDirectory plan.gc links ways, src ∈ ways :=
    fun src hsrc => ((mem_otherWays _ _ _).1 hsrc).1
  have hinc : ∀ src ∈ neededWays plan.libraryDirectory plan.gc links ways, src ∈ ways :=
    fun src hsrc => ((mem_neededWays _ _ _).1 hsrc).1
  have hselect : perform (Action.ofExcept id
      ((manifestOf plan.libraryDirectory ways).select plan.gc links)) around w =
        (.ok (sourcesAt plan.libraryDirectory
            (neededWays plan.libraryDirectory plan.gc links ways),
          sourcesAt plan.libraryDirectory
            (otherWays plan.libraryDirectory plan.gc links ways)), w) := by
    rw [manifestOf, select_sourcesAt, perform_ofExcept_id]
  unfold sortOut
  rw [perform_bind_ok hselect]
  rcases perform_removeObjects hlib hout h around with
    ⟨fault, w', hfault, hnot, hwf, hchanged⟩ | ⟨removed, w', hok, hall, hwf, hnodes⟩
  · exact .inl ⟨fault, w', perform_bind_error hfault, fun hs => hnot hs.1, hwf, hchanged⟩
  · have hchanged : ObjectsChanged plan.libraryDirectory ways w w' :=
      .of_gone hout (fun src hsrc => (hall src hsrc).2) hnodes
    dsimp only
    rw [perform_bind_ok hok]
    rcases perform_withoutObject hlib hinc (h.of_changed hchanged hwf) around with
      ⟨hnot, fault, hfault⟩ | ⟨hfits, hpending⟩
    · exact .inl ⟨fault, w', perform_bind_error hfault, fun hs => hnot hs.2, hwf, hchanged⟩
    · exact .inr ⟨_, w', (perform_bind_ok hpending).trans rfl, rfl, rfl, ⟨hall, hfits⟩, hwf, hnodes⟩

theorem perform_complete (hhonest : Honest around plan)
    (h : Copied plan.libraryDirectory archive ways w.tree) (links : List String) :
    ∃ (outcome : Except Fault Assembled) (w' : World),
      perform (sortOut plan links (manifestOf plan.libraryDirectory ways) >>=
        compilePending plan) around w = (outcome, w') ∧
      w'.tree.WellFormed ∧ ObjectsChanged plan.libraryDirectory ways w w' ∧
      (∀ a, outcome = .ok a → Sortable plan links ways w.tree ∧
        a.objects = (neededWays plan.libraryDirectory plan.gc links ways).map
          (fun src => plan.libraryDirectory.descend (objectWay src)) ∧
        Complete plan links ways w'.tree) ∧
      (Sortable plan links ways w.tree → Succeeds around plan → ∃ a, outcome = .ok a) := by
  rcases perform_sortOut hlib h around links with
    ⟨fault, w', hfault, hnot, hwf, hchanged⟩ | ⟨p, w₁, hok, hsorted⟩
  · exact ⟨_, w', perform_bind_error hfault, hwf, hchanged, nofun, fun hs => absurd hs hnot⟩
  · rw [perform_bind_ok hok]
    obtain ⟨compiled, w', hran, hperm, hend⟩ := Build.perform_compilePending plan around p w₁
    have hcopied := h.of_changed hsorted.objectsChanged hsorted.wellFormed
    have hsource : ∀ src ∈ pendingWays plan links ways w₁.tree, IsSourceWay src :=
      fun src hsrc => h.isSourceWay (mem_pendingWays.1 hsrc).1.1
    obtain ⟨hwf', hmade, hcalls⟩ := filesMade_of_ranAll hhonest hsource
      (fun a ha => hsorted.exists_pendingWay hperm ha) hran hsorted.wellFormed
    have hchanged : ObjectsChanged plan.libraryDirectory ways w w' :=
      Passage.trans hsorted.objectsChanged (objectsChanged_of_filesMade hmade)
    rcases hend with ⟨hall, hok'⟩ | ⟨fault, hfails, hfault⟩
    · refine ⟨_, w', hok', hwf', hchanged, ?_, fun _ _ => ⟨_, rfl⟩⟩
      rintro a ⟨⟩
      refine ⟨hsorted.sortable, hsorted.objectPaths_included h, hsorted.complete_of_made h
        (fun src hsrc => ?_) (fun q hq => ?_) fun q => (hmade q).imp_right And.left⟩
      · obtain ⟨a, ha, hitem⟩ := hsorted.exists_call hperm hsrc
        have hfile := (hcalls a ha).1 (hall a ha)
        rwa [hitem, objectPath_sourceAt (hsource src hsrc),
          goalOf_descend_objectWay (hsource src hsrc)] at hfile
      · rcases hmade q with heq | ⟨-, hfile⟩
        · exact (isOccupied_congr heq).trans hq
        · exact isOccupied_of_isFile hfile
    · refine ⟨_, w', hfault, hwf', hchanged, nofun, fun _ hsucceeds => ?_⟩
      obtain ⟨a, ha, hfailed⟩ := hfails.exists_failed (Build.sourceCall_ne_nil plan)
      obtain ⟨src, hsrc, hitem⟩ := hsorted.exists_pendingWay hperm ha
      obtain ⟨-, v, hreply, hwfv, hmadev⟩ := hcalls a ha
      rw [← hreply, hitem] at hfailed
      exact absurd (isSuccess_of_succeeds hcopied hsucceeds hsorted.sortable.2 hsrc hwfv hmadev)
        hfailed

end StagedBuild.NativeLibrary
