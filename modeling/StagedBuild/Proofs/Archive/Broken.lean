import StagedBuild.Proofs.Action.RemoveTree
import StagedBuild.Proofs.Archive.Fresh

/-!
Refreshes that are broken off. At no point before it writes the marker does a refresh put a file
where the marker goes. So a copy that is current after refreshes have been broken off is current by
the marker that was there before them: one that still stands and holds the digest of the archive.
-/

namespace StagedBuild

open Action FileTree Disk

variable {α : Type} {around : Surroundings} {w w' v : World} {t t' u : FileTree} {loc : Location}
  {p : Path}

/-- A file at a location was there before. -/
def NoneNew (loc : Location) (t t' : FileTree) : Prop :=
  ∀ f, t'.node? loc = some (.file f) → t.node? loc = some (.file f)

namespace NoneNew

theorem refl (loc : Location) (t : FileTree) : NoneNew loc t t :=
  fun _ h => h

theorem trans (h : NoneNew loc t t') (h' : NoneNew loc t' u) : NoneNew loc t u :=
  fun f hf => h f (h' f hf)

theorem add {q : Location} (hq : q ≠ []) : NoneNew loc t (t.add q .directory) := by
  intro f hf
  rw [node?_add hq] at hf
  split at hf
  · cases hf
  · exact hf

theorem remove {q : Location} (hq : q ≠ []) : NoneNew loc t (t.remove q) := by
  intro f hf
  rw [node?_remove hq] at hf
  split at hf
  · cases hf
  · exact hf

theorem writeFile {q : Location} (hq : q ≠ []) (hne : q ≠ loc) (bytes : List UInt8) :
    NoneNew loc t (t.writeFile q bytes) := by
  intro f hf
  rwa [node?_writeFile hq, if_neg (Ne.symm hne)] at hf

end NoneNew

/-- From one world to another no file comes to a location, at no point in between. -/
def NoFileComes (loc : Location) (w w' : World) : Prop :=
  NoneNew loc w.tree w'.tree ∧
    ∃ events, w'.history = events ++ w.history ∧ ∀ t, .changed t ∈ events → NoneNew loc w.tree t

namespace NoFileComes

instance (loc : Location) : Passage (NoFileComes loc) where
  refl w := ⟨.refl loc w.tree, [], rfl, by simp⟩
  trans := by
    rintro u v w ⟨huv, first, hfirst, hbefore⟩ ⟨hvw, second, hsecond, hafter⟩
    refine ⟨huv.trans hvw, second ++ first, by rw [hsecond, hfirst, List.append_assoc], ?_⟩
    intro t ht
    rcases List.mem_append.1 ht with ht | ht
    · exact huv.trans (hafter t ht)
    · exact hbefore t ht

theorem of_change (h : NoneNew loc w.tree t) : NoFileComes loc w ⟨t, .changed t :: w.history⟩ :=
  ⟨h, [.changed t], rfl, by simpa using h⟩

end NoFileComes

section Changes

theorem noFileComes_makeDirectory (p : Path) :
    Keeps around (NoFileComes loc) (makeDirectory p) := by
  refine keeps_makeDirectory_at fun w q _ _ hfree => .of_change (.add ?_)
  rintro rfl
  exact hfree (isOccupied_iff.2 ⟨_, node?_nil _⟩)

theorem noFileComes_makeDirectories (p : Path) :
    Keeps around (NoFileComes loc) (makeDirectories p) :=
  keeps_makeDirectoriesWithin (P := fun _ => True) _ trivial (fun _ _ => trivial)
    fun q _ => noFileComes_makeDirectory q

theorem noFileComes_write (hp : goalOf around.directory p ≠ loc) (bytes : List UInt8) :
    Keeps around (NoFileComes loc) (change p fun t cwd => t.write cwd p bytes) := by
  refine keeps_write_at fun w q _ hloc hnot => ?_
  obtain rfl := (locate_eq_ok_iff.1 hloc).1
  refine .of_change (.writeFile ?_ hp bytes)
  intro hnil
  rw [hnil] at hnot
  exact hnot (isDirectory_iff.2 (node?_nil _))

theorem noFileComes_appendBytes (hp : goalOf around.directory p ≠ loc) (bytes : List UInt8) :
    Keeps around (NoFileComes loc) (appendBytes p bytes) :=
  (Keeps.of_readOnly (readOnly_readBytes p)).bind fun _ => noFileComes_write hp _

theorem keeps_removeTree_at {R : World → World → Prop} [Passage R]
    (h : ∀ (w : World) q, goalOf around.directory p <+: q → q ≠ [] →
      R w ⟨w.tree.remove q, .changed (w.tree.remove q) :: w.history⟩) :
    Keeps around R (removeTree p) := by
  have hsnapshots : ∀ (locs : List Location),
      (∀ q ∈ locs, goalOf around.directory p <+: q ∧ q ≠ []) →
      ∀ w : World, R w (perform ((w.tree.snapshots locs).forM setTree) around w).2 := by
    intro locs hlocs
    induction locs with
    | nil => exact fun w => Passage.refl w
    | cons q locs ih =>
        intro w
        obtain ⟨hq, hne⟩ := hlocs q (by simp)
        exact Passage.trans (h w q hq hne) (ih (fun r hr => hlocs r (List.mem_cons_of_mem _ hr))
          ⟨w.tree.remove q, .changed (w.tree.remove q) :: w.history⟩)
  have hclear : Keeps around R (clearBelow (goalOf around.directory p)) := by
    intro v
    rw [clearBelow, perform_bind_ok (perform_read around v), perform_bind_ok (perform_tree _ _),
      perform_bind_ok (perform_get _ _), clearings_eq]
    refine hsnapshots _ (fun q hq => ?_) v
    obtain ⟨way, hway, rfl⟩ := isBelow_iff.1 (mem_removalOrder.1 hq).1
    exact ⟨List.prefix_append _ _, by simp [hway]⟩
  have hremove : Keeps around R (change p fun t cwd => t.removeDirectory cwd p) := by
    intro w
    rw [perform_change]
    split
    · split
      · rename_i t ht
        obtain ⟨q, hq, hne, rfl⟩ := exists_of_removeDirectory ht
        obtain rfl := (locate_eq_ok_iff.1 hq).1
        exact h w _ List.prefix_rfl hne
      · exact Passage.refl w
    · exact Passage.refl w
  intro w
  refine Keeps.bind_at (Keeps.of_readOnly (readOnly_ask p _) w) fun reached v hreached => ?_
  rw [perform_ask] at hreached
  split at hreached
  · rcases hlookup : w.tree.lookup around.directory p with e | ⟨q, node⟩
    · rw [hlookup] at hreached
      cases hreached
    · rw [hlookup, mapError_ok] at hreached
      cases hreached
      obtain rfl := (locate_eq_ok_iff.1 (lookup_eq_ok_iff.1 hlookup).1).1
      have hrest : Keeps around R (do
          clearBelow (goalOf around.directory p)
          change p fun t cwd => t.removeDirectory cwd p) :=
        hclear.bind fun _ => hremove
      exact Keeps.ite (fun _ => (Keeps.throw _).bind fun _ => hrest) (fun _ => hrest) w
  · cases hreached

theorem noFileComes_removeTree (p : Path) : Keeps around (NoFileComes loc) (removeTree p) :=
  keeps_removeTree_at fun _ _ _ hne => .of_change (.remove hne)

theorem noFileComes_extractMembers {archive : List UInt8} {destination : Path}
    {all : List Archive.Member}
    (hall : ∀ m ∈ all, goalOf around.directory (Archive.targetOf destination m) ≠ loc) :
    Keeps around (NoFileComes loc) (Archive.extractMembers archive destination all) :=
  Archive.keeps_extractMembers archive destination all noFileComes_makeDirectory
    (fun m hm => noFileComes_write (hall m hm) []) fun m hm bytes =>
      noFileComes_appendBytes (hall m hm) bytes

end Changes

section Points

/-- The disk at some point while an action is done: before it, after it, or after one of its
changes. -/
def Passes (around : Surroundings) (action : Action α) (w : World) (t : FileTree) : Prop :=
  t = w.tree ∨ t = (perform action around w).2.tree ∨
    ∃ events, (perform action around w).2.history = events ++ w.history ∧ .changed t ∈ events

theorem Passes.noneNew {action : Action α} (h : Passes around action w t)
    (hnone : NoFileComes loc w (perform action around w).2) : NoneNew loc w.tree t := by
  obtain ⟨hend, events, hevents, hbetween⟩ := hnone
  rcases h with rfl | rfl | ⟨events', hevents', ht⟩
  · exact .refl loc w.tree
  · exact hend
  · obtain rfl := List.append_cancel_right (hevents.symm.trans hevents')
    exact hbetween t ht

end Points

namespace ArchiveCopy

variable {c : ArchiveCopy} {finish : Path → Action α} {print : List UInt8}

/-- The first half of a refresh: the archive is read for its digest, and the old copy is taken away.
-/
def clearOut (c : ArchiveCopy) : Action (List UInt8) := do
  let print ← c.marking
  if ← Disk.isOccupied c.directory then Disk.removeTree c.directory
  return print

/-- The second half of a refresh: all that is done before the marker is written. -/
def fillIn (c : ArchiveCopy) (finish : Path → Action α) : Action α := do
  Archive.extract c.archive c.directory
  let finished ← finish c.directory
  Disk.makeDirectories c.marker.parent
  return finished

theorem renew_eq (c : ArchiveCopy) (finish : Path → Action α) : c.renew finish = do
    let print ← c.clearOut
    let finished ← c.fillIn finish
    Disk.writeBytes c.marker print
    return finished := by
  unfold renew clearOut fillIn
  simp only [bind_assoc, pure_bind]
  refine bind_congr fun print => bind_congr fun there => ?_
  cases there with
  | false => rfl
  | true => simp only [if_true, bind_assoc, pure_bind]

abbrev markerAt (c : ArchiveCopy) (around : Surroundings) : Location :=
  goalOf around.directory c.marker

/-- No member of the archive, as it is on a disk, is extracted to the place of the marker. -/
def ShipsNoMarker (c : ArchiveCopy) (around : Surroundings) (t : FileTree) : Prop :=
  ∀ f all, t.node? (goalOf around.directory c.archive) = some (.file f) →
    Archive.members f.bytes = .ok all → ∀ m ∈ all,
      goalOf around.directory (Archive.targetOf c.directory m) ≠ c.markerAt around

theorem ShipsNoMarker.of_noneNew (h : c.ShipsNoMarker around t)
    (hnone : NoneNew (goalOf around.directory c.archive) t t') : c.ShipsNoMarker around t' :=
  fun f all hf => h f all (hnone f hf)

theorem noFileComes_clearOut (c : ArchiveCopy) : Keeps around (NoFileComes loc) c.clearOut := by
  unfold clearOut
  refine (Keeps.of_readOnly (readOnly_marking c)).bind fun print => ?_
  refine (Keeps.of_readOnly (readOnly_isOccupied _)).bind fun there => ?_
  exact Keeps.ite (fun _ => (noFileComes_removeTree _).bind fun _ => Keeps.pure _)
    fun _ => Keeps.pure _

/-- While a copy is filled from an archive that ships no marker, none comes. -/
theorem noFileComes_fillIn (hships : c.ShipsNoMarker around w.tree)
    (hfinish : Keeps around (NoFileComes (c.markerAt around)) (finish c.directory)) :
    NoFileComes (c.markerAt around) w (perform (c.fillIn finish) around w).2 := by
  refine Keeps.bind_at ?_ fun _ v _ => ?_
  · refine Archive.of_perform_extract (noFileComes_makeDirectories _)
      fun v bytes all hmade _ hbytes hall => ?_
    have harchive : NoneNew (goalOf around.directory c.archive) w.tree v.tree :=
      ((noFileComes_makeDirectories c.directory).of_perform hmade).1
    obtain ⟨-, -, f, hf, rfl⟩ := bytesAt_eq_ok_iff.1 hbytes
    exact noFileComes_extractMembers (hships.of_noneNew harchive f all hf hall) v
  · exact (hfinish.bind fun finished => (noFileComes_makeDirectories _).bind fun _ =>
      Keeps.pure finished) v

/-- Where a refresh stops before it writes the marker: while the old copy is taken away, or while a
new one is put in its place. -/
inductive StopsAt (c : ArchiveCopy) (around : Surroundings) (finish : Path → Action α) (w : World)
    (t : FileTree) : Prop
  | clearing (h : Passes around c.clearOut w t)
  | filling {print : List UInt8} {v : World}
      (hcleared : perform c.clearOut around w = (.ok print, v))
      (h : Passes around (c.fillIn finish) v t)

theorem StopsAt.noneNew (h : c.StopsAt around finish w t) (hships : c.ShipsNoMarker around w.tree)
    (hfinish : Keeps around (NoFileComes (c.markerAt around)) (finish c.directory)) :
    NoneNew (c.markerAt around) w.tree t := by
  cases h with
  | clearing h => exact h.noneNew (noFileComes_clearOut c w)
  | filling hcleared h =>
      have hcleared : ∀ loc, NoneNew loc w.tree _ := fun loc =>
        ((noFileComes_clearOut c).of_perform hcleared).1
      exact (hcleared _).trans
        (h.noneNew (noFileComes_fillIn (hships.of_noneNew (hcleared _)) hfinish))

/-- What may happen to the disk until a refresh completes: refreshes are broken off, with whatever
they do before the marker that leaves the marker alone, and somebody else changes the disk without
touching the marker. -/
inductive Unfinished (c : ArchiveCopy) (around : Surroundings) (t : FileTree) : FileTree → Prop
  | start : Unfinished c around t t
  | stopped {α : Type} {finish : Path → Action α} {w : World} {t' : FileTree}
      (before : Unfinished c around t w.tree) (hships : c.ShipsNoMarker around w.tree)
      (hfinish : Keeps around (NoFileComes (c.markerAt around)) (finish c.directory))
      (hstops : c.StopsAt around finish w t') : Unfinished c around t t'
  | elsewhere {u t' : FileTree} (before : Unfinished c around t u)
      (hmarker : t'.node? (c.markerAt around) = u.node? (c.markerAt around)) :
      Unfinished c around t t'

theorem Unfinished.noneNew (h : c.Unfinished around t t') : NoneNew (c.markerAt around) t t' := by
  induction h with
  | start => exact .refl _ t
  | stopped _ hships hfinish hstops ih => exact ih.trans (hstops.noneNew hships hfinish)
  | elsewhere _ hmarker ih => exact fun f hf => ih f (hmarker ▸ hf)

theorem of_perform_clearOut (h : perform c.clearOut around w = (.ok print, v)) :
    c.printAt around.spareMemory w.tree around.directory = .ok print ∧
      (answerAt c.directory w.tree around.directory = .ok none ∧ v = w ∨
        (∃ node, answerAt c.directory w.tree around.directory = .ok (some node)) ∧
          Removed (goalOf around.directory c.directory) w v) := by
  obtain ⟨_, w₁, hmarking, h₁⟩ := perform_bind_eq_ok.1 h
  rw [perform_marking, Prod.mk.injEq] at hmarking
  obtain ⟨hprint, rfl⟩ := hmarking
  rw [perform_bind, perform_isOccupied] at h₁
  rcases hanswer : answerAt c.directory w.tree around.directory with fault | _ | node
  · rw [hanswer] at h₁
    cases h₁
  · rw [hanswer] at h₁
    cases h₁
    exact ⟨hprint, .inl ⟨rfl, rfl⟩⟩
  · rw [hanswer] at h₁
    obtain ⟨_, w₂, hremove, h₂⟩ := perform_bind_eq_ok.1 h₁
    cases h₂
    refine ⟨hprint, .inr ⟨⟨node, rfl⟩, ?_⟩⟩
    rcases perform_removeTree c.directory around w with
      ⟨_, h⟩ | ⟨_, _, h, -⟩ | ⟨_, h, hremoved⟩
    · cases hremove.symm.trans h
    · cases hremove.symm.trans h
    · cases hremove.symm.trans h
      exact hremoved

/-- After refreshes have been broken off, a copy is current exactly when it is there and its marker
is still the one from before them and holds the digest of the archive. When the marker stands inside
the copy, none is current that a refresh had begun to fill before it was broken off. -/
theorem isFresh_of_unfinished (h : c.Unfinished around t v.tree) :
    (perform c.isFresh around v = (.ok true, v) ↔
      ∃ print f, c.heldAt v.tree around.directory = .ok (some print) ∧
        c.printAt around.spareMemory v.tree around.directory = .ok print ∧
        t.node? (c.markerAt around) = some (.file f) ∧ f.bytes = print) ∧
      ∀ (finish : Path → Action α) (w w' : World) print, c.ShipsNoMarker around w.tree →
        Keeps around (NoFileComes (c.markerAt around)) (finish c.directory) →
        answerAt c.directory w.tree around.directory ≠ .ok none →
        perform c.clearOut around w = (.ok print, w') →
        Passes around (c.fillIn finish) w' t →
        goalOf around.directory c.directory <+: c.markerAt around →
        ¬ perform c.isFresh around v = (.ok true, v) := by
  have hold : ∀ print, c.heldAt v.tree around.directory = .ok (some print) →
      ∃ f, t.node? (c.markerAt around) = some (.file f) ∧ f.bytes = print := by
    intro print hheld
    obtain ⟨-, -, f, hf, hbytes⟩ := bytesAt_eq_ok_iff.1 (heldAt_eq_some_iff.1 hheld).2
    exact ⟨f, h.noneNew f hf, hbytes⟩
  rw [perform_isFresh_eq_true_iff]
  constructor
  · constructor
    · rintro ⟨print, hheld, hprint⟩
      obtain ⟨f, hf, hbytes⟩ := hold print hheld
      exact ⟨print, f, hheld, hprint, hf, hbytes⟩
    · rintro ⟨print, f, hheld, hprint, -, -⟩
      exact ⟨print, hheld, hprint⟩
  · rintro finish w w' print hships hfinish hthere hcleared hfilling hinside ⟨held, hheld, -⟩
    have hships' : c.ShipsNoMarker around w'.tree :=
      hships.of_noneNew ((noFileComes_clearOut c).of_perform hcleared).1
    obtain ⟨f, hf, -⟩ := hold held hheld
    have hleft := hfilling.noneNew (noFileComes_fillIn hships' hfinish) f hf
    obtain ⟨-, ⟨hnone, -⟩ | ⟨-, hremoved⟩⟩ := of_perform_clearOut hcleared
    · exact hthere hnone
    · obtain ⟨way, hway⟩ := hinside
      rw [← hway, hremoved.node?_below way] at hleft
      cases hleft

section Sample

/-- An archive without members. -/
def memberless : List UInt8 :=
  [80, 75, 5, 6] ++ List.replicate 18 0

/-- A disk with nothing but an archive. -/
def onlyArchive : World :=
  .ofTree (FileTree.empty.writeFile ["a.jar"] memberless)

/-- The copy of the archive with a marker at some path. -/
def sampleCopy (marker : String) : ArchiveCopy :=
  ⟨.parse "/a.jar", .parse "/lib", .parse marker, defaultChunkSize⟩

/-- The disk after a refresh has completed. -/
def refreshed (marker : String) : World :=
  (perform ((sampleCopy marker).renew fun _ => pure ()) (.still []) onlyArchive).2

/-- A hook that fails. -/
def failingHook (_ : Path) : Action Unit :=
  throw (.failure "hook")

/-- The disk after the next refresh was broken off by its hook. -/
def brokenOff (marker : String) : World :=
  (perform ((sampleCopy marker).renew failingHook) (.still []) (refreshed marker)).2

/-- With a marker beside the copy, a copy whose refresh was broken off passes for current. -/
theorem broken_off_copy_is_fresh :
    perform ((sampleCopy "/mark").renew fun _ => pure ()) (.still []) onlyArchive =
        (.ok (), refreshed "/mark") ∧
      perform ((sampleCopy "/mark").renew failingHook) (.still []) (refreshed "/mark") =
        (.error (.failure "hook"), brokenOff "/mark") ∧
      perform (sampleCopy "/mark").isFresh (.still []) (brokenOff "/mark") =
        (.ok true, brokenOff "/mark") :=
  ⟨Prod.ext (by decide +kernel) rfl, Prod.ext (by decide +kernel) rfl,
    Prod.ext (by decide +kernel) (readOnly_isFresh _ _ _)⟩

theorem shipsNoMarker_refreshed (marker : String) (t : FileTree)
    (h : t.node? ["a.jar"] = some (.file ⟨memberless, false⟩)) :
    (sampleCopy marker).ShipsNoMarker (.still []) t := by
  intro f all hf hall m hm
  cases hf.symm.trans h
  have hnone : Archive.members memberless = .ok [] := rfl
  cases hall.symm.trans hnone
  cases hm

/-- With the marker inside the copy, a copy whose refresh was broken off is not current. -/
theorem broken_off_copy_is_stale :
    ¬ perform (sampleCopy "/lib/jarhash").isFresh (.still []) (brokenOff "/lib/jarhash") =
      (.ok true, brokenOff "/lib/jarhash") := by
  have hhook : Keeps (.still []) (NoFileComes ((sampleCopy "/lib/jarhash").markerAt (.still [])))
      (failingHook (sampleCopy "/lib/jarhash").directory) := Keeps.throw _
  have hships := shipsNoMarker_refreshed "/lib/jarhash" (refreshed "/lib/jarhash").tree
    (by decide +kernel)
  have hcleared : perform (sampleCopy "/lib/jarhash").clearOut (.still [])
      (refreshed "/lib/jarhash") = (.ok (Text.encode (Digest.hexText (Digest.sha256 memberless))),
        (perform (sampleCopy "/lib/jarhash").clearOut (.still []) (refreshed "/lib/jarhash")).2) :=
    Prod.ext (by decide +kernel) rfl
  have hstopped : (brokenOff "/lib/jarhash").tree =
      (perform ((sampleCopy "/lib/jarhash").fillIn failingHook) (.still [])
        (perform (sampleCopy "/lib/jarhash").clearOut (.still [])
          (refreshed "/lib/jarhash")).2).2.tree := by
    rw [brokenOff, renew_eq, perform_bind_ok hcleared, perform_bind]
    rcases hfill : perform ((sampleCopy "/lib/jarhash").fillIn failingHook) (.still [])
      (perform (sampleCopy "/lib/jarhash").clearOut (.still []) (refreshed "/lib/jarhash")).2 with
      ⟨fault | _, u⟩
    · rfl
    · obtain ⟨_, _, -, hrest⟩ := perform_bind_eq_ok.1 hfill
      obtain ⟨_, _, hfinish, -⟩ := perform_bind_eq_ok.1 hrest
      cases hfinish
  exact (isFresh_of_unfinished .start).2 failingHook _ _ _ hships hhook (by decide +kernel) hcleared
    (.inr (.inl hstopped)) (by decide +kernel)

end Sample

end ArchiveCopy

end StagedBuild
