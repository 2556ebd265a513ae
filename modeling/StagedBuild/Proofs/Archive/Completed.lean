import StagedBuild.Proofs.Action.Renaming
import StagedBuild.Proofs.Archive.Broken
import StagedBuild.Proofs.Archive.Local
import StagedBuild.Proofs.NativeLibrary.Alike
import StagedBuild.Proofs.NativeLibrary.Filling

/-!
Refreshes that complete. What a completed refresh leaves is the archive extracted where nothing was,
with what the hook added and the marker. The copy is current then, and it stays current exactly as
long as it is there and its marker holds the digest of the archive.
-/

namespace StagedBuild

open Action FileTree Disk

variable {α β : Type} {around : Surroundings} {w w' v u : World} {t t' : FileTree} {p : Path}
  {cwd base loc : Location}

theorem directoriesStay_extractMembers (archive : List UInt8) (destination : Path)
    (all : List Archive.Member) :
    Keeps around DirectoriesStay (Archive.extractMembers archive destination all) :=
  Archive.keeps_extractMembers archive destination all directoriesStay_makeDirectory
    (fun _ _ => directoriesStay_write _ []) fun _ _ _ =>
      (Keeps.of_readOnly (readOnly_readBytes _)).bind fun _ => directoriesStay_write _ _

namespace Archive

variable {archive destination : Path}

theorem sparing_extractMembers_below (archive : List UInt8) (destination : Path)
    (all : List Member) :
    Keeps around (Sparing (goalOf around.directory destination <+: ·))
      (extractMembers archive destination all) :=
  sparing_extractMembers archive destination fun _ _ => List.prefix_append _ _

end Archive

namespace ArchiveCopy

variable {c : ArchiveCopy} {finish : Path → Action α} {print : List UInt8} {x : α}

/-- What is at a location when there is nothing where a copy goes. -/
def blankAt (c : ArchiveCopy) (around : Surroundings) (t : FileTree) (q : Location) : Option Node :=
  if (goalOf around.directory c.directory).isPrefixOf q then none else t.node? q

/-- A disk without the copy. The directory where it goes may be there, with those that the path to
it passes, and is empty then. -/
def Cleared (c : ArchiveCopy) (around : Surroundings) (t t' : FileTree) : Prop :=
  ∀ q, t'.node? q = c.blankAt around t q ∨
    OnTheWay around.directory c.directory q ∧ t'.node? q = some .directory

/-- The archive is extracted into an empty directory. -/
def Extracted (c : ArchiveCopy) (around : Surroundings) (t t' : FileTree) : Prop :=
  ∃ u v : World, c.Cleared around t u.tree ∧
    perform (Archive.extract c.archive c.directory) around u = (.ok (), v) ∧ v.tree = t'

theorem Cleared.node?_of_makeDirectories (h : c.Cleared around t w.tree)
    (hmade : perform (makeDirectories c.directory) around w = (.ok (), w')) (q : Location) :
    OnTheWay around.directory c.directory q ∧ w'.tree.node? q = some .directory ∨
      ¬ OnTheWay around.directory c.directory q ∧ w'.tree.node? q = c.blankAt around t q := by
  by_cases hway : OnTheWay around.directory c.directory q
  · exact .inl ⟨hway, isDirectory_iff.1
      ((leads_of_makeDirectories hmade).isDirectory_of_onTheWay hway)⟩
  · refine .inr ⟨hway, ?_⟩
    rcases (adds_makeDirectories around c.directory).of_perform hmade q with heq | ⟨hplace, -⟩
    · exact heq.trans ((h q).resolve_right fun hdir => hway hdir.1)
    · exact absurd hplace hway

/-- What extracting into an empty directory leaves does not depend on what was there before. -/
theorem Extracted.sameNodes (h : c.Extracted around t t') {t'' : FileTree}
    (h' : c.Extracted around t t'') : SameNodes t' t'' := by
  obtain ⟨u, v, hcleared, hextract, rfl⟩ := h
  obtain ⟨u', v', hcleared', hextract', rfl⟩ := h'
  obtain ⟨m, bytes, all, hmade, -, hbytes, hall, hpour⟩ := Archive.perform_extract_ok hextract
  obtain ⟨m', bytes', all', hmade', -, hbytes', hall', hpour'⟩ :=
    Archive.perform_extract_ok hextract'
  have hsame : SameDisk m m' := by
    intro q
    rcases hcleared.node?_of_makeDirectories hmade q with ⟨hway, hq⟩ | ⟨hway, hq⟩
    · exact hq.trans ((hcleared'.node?_of_makeDirectories hmade' q).resolve_right
        fun hnot => hnot.1 hway).2.symm
    · exact hq.trans ((hcleared'.node?_of_makeDirectories hmade' q).resolve_left
        fun hon => hway hon.1).2.symm
  rw [bytesAt_congr (fun q _ => hsame q) (hsame _), hbytes'] at hbytes
  cases hbytes
  rw [hall'] at hall
  cases hall
  have halike : Alike SameDisk around around
      (Archive.extractMembers bytes c.directory all) :=
    .forM fun m => Archive.alike_extractMember (.refl around) bytes c.directory _
  have hafter := (halike m m' hsame).2
  rwa [hpour, hpour'] at hafter

/-- Between two worlds entries are added below a directory, none of them at a certain place, and
nothing else changes. -/
def OnlyAdds (base keep : Location) (w w' : World) : Prop :=
  ∀ q, w'.tree.node? q = w.tree.node? q ∨ base <+: q ∧ q ≠ keep ∧ w.tree.node? q = none

namespace OnlyAdds

variable {keep : Location}

instance : Passage (OnlyAdds base keep) where
  refl _ := fun _ => .inl rfl
  trans := by
    intro u v w huv hvw q
    rcases hvw q with heq | ⟨hbelow, hne, hnone⟩
    · rw [heq]
      exact huv q
    · rcases huv q with heq | hadded
      · exact .inr ⟨hbelow, hne, heq ▸ hnone⟩
      · exact .inr hadded

theorem node?_of_some (h : OnlyAdds base keep w w') {q : Location} {node : Node}
    (hnode : w.tree.node? q = some node) : w'.tree.node? q = some node := by
  rcases h q with heq | ⟨-, -, hnone⟩
  · rw [heq, hnode]
  · rw [hnone] at hnode
    cases hnode

end OnlyAdds

theorem perform_renew_ok (h : perform (c.renew finish) around w = (.ok x, w')) :
    ∃ print v v₁ v₂ v₃, perform c.clearOut around w = (.ok print, v) ∧
      perform (Archive.extract c.archive c.directory) around v = (.ok (), v₁) ∧
      perform (finish c.directory) around v₁ = (.ok x, v₂) ∧
      perform (makeDirectories c.marker.parent) around v₂ = (.ok (), v₃) ∧
      perform (writeBytes c.marker print) around v₃ = (.ok (), w') := by
  rw [renew_eq] at h
  obtain ⟨print, v, hcleared, h₁⟩ := perform_bind_eq_ok.1 h
  obtain ⟨x', v₃, hfilled, h₂⟩ := perform_bind_eq_ok.1 h₁
  obtain ⟨_, w'', hmarked, h₃⟩ := perform_bind_eq_ok.1 h₂
  cases h₃
  obtain ⟨_, v₁, hextracted, h₄⟩ := perform_bind_eq_ok.1 hfilled
  obtain ⟨_, v₂, hfinished, h₅⟩ := perform_bind_eq_ok.1 h₄
  obtain ⟨_, v₃', hmade, h₆⟩ := perform_bind_eq_ok.1 h₅
  cases h₆
  exact ⟨print, v, v₁, v₂, v₃, hcleared, hextracted, hfinished, hmade, hmarked⟩

theorem cleared_of_clearOut
    (hseen : answerAt c.directory w.tree around.directory = .ok none →
      ∀ q, goalOf around.directory c.directory <+: q → w.tree.node? q = none)
    (h : perform c.clearOut around w = (.ok print, v)) :
    c.printAt around.spareMemory w.tree around.directory = .ok print ∧
      ∀ q, v.tree.node? q = c.blankAt around w.tree q := by
  obtain ⟨hprint, ⟨hnone, rfl⟩ | ⟨-, hremoved⟩⟩ := of_perform_clearOut h
  · refine ⟨hprint, fun q => ?_⟩
    unfold blankAt
    split
    · exact hseen hnone q (List.isPrefixOf_iff_prefix.1 ‹_›)
    · rfl
  · exact ⟨hprint, hremoved⟩

section Digest

open NativeLibrary

theorem printAt_eq_ok_iff {spare : Nat} (hpos : 0 < c.chunkSize) :
    c.printAt spare t cwd = .ok print ↔ Accepts spare c.chunkSize ∧
      ∃ bytes, bytesAt c.archive t cwd = .ok bytes ∧ print = markingOf bytes := by
  unfold printAt
  rcases bytesAt c.archive t cwd with fault | bytes
  · exact ⟨nofun, fun ⟨_, _, h, _⟩ => nomatch h⟩
  rcases hread : readInChunks spare c.chunkSize bytes with fault | chunks
  · refine ⟨fun h => ?_, fun ⟨haccepts, _⟩ => ?_⟩
    · change (readInChunks spare c.chunkSize bytes).bind _ = _ at h
      rw [hread] at h
      cases h
    · rw [(readInChunks_eq_ok_iff hpos).2 ⟨haccepts, rfl⟩] at hread
      cases hread
  · obtain ⟨haccepts, rfl⟩ := (readInChunks_eq_ok_iff hpos).1 hread
    change (readInChunks spare c.chunkSize chunks).bind _ = _ ↔ _
    rw [hread]
    constructor
    · rintro ⟨⟩
      exact ⟨haccepts, chunks, rfl, rfl⟩
    · rintro ⟨-, _, ⟨⟩, rfl⟩
      rfl

end Digest

/-- What a refresh leaves that completes: the archive extracted into an empty directory, then what
the hook did to that, then the marker with the directories that the path to it passes. -/
structure Completed (c : ArchiveCopy) (around : Surroundings) (finish : Path → Action α) (w : World)
    (x : α) (print : List UInt8) (v₁ v₂ w' : World) : Prop where
  extracted : c.Extracted around w.tree v₁.tree
  settled : ∀ t, c.Extracted around w.tree t → SameNodes t v₁.tree
  finished : perform (finish c.directory) around v₁ = (.ok x, v₂)
  marked : ∃ f : File, w'.tree.node? (c.markerAt around) = some (.file f) ∧ f.bytes = print
  others : ∀ q, q ≠ c.markerAt around → w'.tree.node? q = v₂.tree.node? q ∨
    OnTheWay around.directory c.marker.parent q ∧ v₂.tree.node? q = none ∧
      w'.tree.node? q = some .directory

theorem directoriesStay_writeBytes (p : Path) (bytes : List UInt8) :
    Keeps around DirectoriesStay (writeBytes p bytes) :=
  (directoriesStay_write p []).bind fun _ => directoriesStay_write p bytes

section Refresh

variable {bytes : List UInt8}
  (houtside : ¬ goalOf around.directory c.directory <+: goalOf around.directory c.archive)
  (hseen : answerAt c.directory w.tree around.directory = .ok none →
    ∀ q, goalOf around.directory c.directory <+: q → w.tree.node? q = none)
  (hmarker : c.markerAt around ≠ goalOf around.directory c.archive)
  (hfinish : Keeps around
    (OnlyAdds (goalOf around.directory c.directory) (c.markerAt around)) (finish c.directory))
  (h : perform (c.renew finish) around w = (.ok x, w'))

include houtside hseen hmarker hfinish h

theorem completed_of_renew : ∃ print v₁ v₂,
    c.printAt around.spareMemory w.tree around.directory = .ok print ∧
    c.Completed around finish w x print v₁ v₂ w' ∧
    c.heldAt w'.tree around.directory = .ok (some print) ∧
    ∀ bytes, bytesAt c.archive w.tree around.directory = .ok bytes →
      bytesAt c.archive w'.tree around.directory = .ok bytes := by
  obtain ⟨print, v, v₁, v₂, v₃, hclear, hextract, hhook, hmade, hmarked⟩ := perform_renew_ok h
  obtain ⟨hprint, hcleared⟩ := cleared_of_clearOut hseen hclear
  have hextracted : c.Extracted around w.tree v₁.tree :=
    ⟨v, v₁, fun q => .inl (hcleared q), hextract, rfl⟩
  obtain ⟨m, bytes, all, hroot, -, hread, -, hpour⟩ := Archive.perform_extract_ok hextract
  obtain ⟨f, hf, hnodes⟩ := of_perform_writeBytes hmarked
  have hadds := hfinish.of_perform hhook
  have hmade' := (adds_makeDirectories around c.marker.parent).of_perform hmade
  have hmark : w'.tree.node? (c.markerAt around) = some (.file f) := (hnodes _).trans (if_pos rfl)
  have hdirs : DirectoriesStay m w' := by
    intro q hq
    have hq₁ := (directoriesStay_extractMembers _ _ _).of_perform hpour q hq
    have hq₂ := hadds.node?_of_some (isDirectory_iff.1 hq₁)
    exact (directoriesStay_writeBytes c.marker print).of_perform hmarked q
      (hmade'.isDirectory (isDirectory_iff.2 hq₂))
  refine ⟨print, v₁, v₂, hprint, ⟨hextracted, fun t ht => ht.sameNodes hextracted, hhook,
    ⟨f, hmark, hf⟩, fun q hq => ?_⟩, ?_, fun before hbefore => ?_⟩
  · rw [hnodes, if_neg hq]
    exact hmade' q
  · have hleads := (leads_of_makeDirectories hroot).mono hdirs
    exact heldAt_eq_some_iff.2 ⟨⟨_, hleads⟩, bytesAt_of_perform_writeBytes hmarked⟩
  · -- what extracting reads is what was there before, and nothing after that touches the file
    have hmade : ∀ node, w.tree.node? (goalOf around.directory c.archive) = some node →
        m.tree.node? (goalOf around.directory c.archive) = some node := by
      intro node hnode
      refine ((adds_makeDirectories around c.directory).of_perform hroot).node?_of_some ?_
      rw [hcleared, blankAt, if_neg fun hbelow => houtside (List.isPrefixOf_iff_prefix.1 hbelow),
        hnode]
    have hsame : bytes = before := by
      obtain ⟨-, -, f₀, hf₀, rfl⟩ := bytesAt_eq_ok_iff.1 hbefore
      obtain ⟨-, -, f₁, hf₁, rfl⟩ := bytesAt_eq_ok_iff.1 hread
      have hfiles := (hmade _ hf₀).symm.trans hf₁
      cases hfiles
      rfl
    refine bytesAt_of_directoriesStay hdirs (fun node hnode => ?_) (hsame ▸ hread)
    have hv₁ := ((Archive.sparing_extractMembers_below _ _ _).of_perform hpour).node?_of_some
      houtside hnode
    rw [hnodes, if_neg (Ne.symm hmarker)]
    exact hmade'.node?_of_some (hadds.node?_of_some hv₁)

/-- A completed refresh leaves the archive extracted into an empty directory with what the hook
added and the marker, whatever was there before. The copy is current, whatever the size of the
chunks in which the archive is read if a read accepts it, so that it is not refreshed again. Later
it is current exactly when it is there and its marker holds the digest of the archive as it is then;
with the marker as it was left, when the archive has the same digest. -/
theorem fresh_of_renew (hchunk : 0 < c.chunkSize) :
    ∃ bytes v₁ v₂, bytesAt c.archive w.tree around.directory = .ok bytes ∧
      c.Completed around finish w x (NativeLibrary.markingOf bytes) v₁ v₂ w' ∧
      ∀ k : Int, 0 < k → Accepts around.spareMemory k →
        ∀ checking, checking = { c with chunkSize := k } →
        perform checking.isFresh around w' = (.ok true, w') ∧
        (∀ again : Path → Action β, perform (checking.freshen again) around w' = (.ok none, w')) ∧
        ∀ (u : World) later, bytesAt c.archive u.tree around.directory = .ok later →
          (perform checking.isFresh around u = (.ok true, u) ↔
            (∃ node, answerAt c.directory u.tree around.directory = .ok (some node)) ∧
              bytesAt c.marker u.tree around.directory = .ok (NativeLibrary.markingOf later)) ∧
          (bytesAt c.marker u.tree around.directory = bytesAt c.marker w'.tree around.directory →
            (perform checking.isFresh around u = (.ok true, u) ↔
              (∃ node, answerAt c.directory u.tree around.directory = .ok (some node)) ∧
                Digest.sha256 later = Digest.sha256 bytes)) := by
  obtain ⟨print, v₁, v₂, hprint, hcompleted, hheld, hkept⟩ :=
    completed_of_renew houtside hseen hmarker hfinish h
  obtain ⟨-, bytes, hbytes, rfl⟩ := (printAt_eq_ok_iff hchunk).1 hprint
  refine ⟨bytes, v₁, v₂, hbytes, hcompleted, fun k hpos haccepts checking hchecking => ?_⟩
  have hfresh : ∀ (u : World) later, bytesAt c.archive u.tree around.directory = .ok later →
      (perform checking.isFresh around u = (.ok true, u) ↔
        c.heldAt u.tree around.directory = .ok (some (NativeLibrary.markingOf later))) := by
    intro u later hlater
    subst hchecking
    rw [perform_isFresh_eq_true_iff]
    constructor
    · rintro ⟨print, hheld, hread⟩
      obtain ⟨-, read, hbytes, rfl⟩ := (printAt_eq_ok_iff hpos).1 hread
      cases hlater.symm.trans hbytes
      exact hheld
    · exact fun hheld => ⟨_, hheld, (printAt_eq_ok_iff hpos).2 ⟨haccepts, later, hlater, rfl⟩⟩
  have hcurrent := (hfresh w' bytes (hkept bytes hbytes)).2 hheld
  refine ⟨hcurrent, fun again => ?_, fun u later hlater => ⟨?_, fun hsame => ?_⟩⟩
  · rw [freshen, perform_bind_ok hcurrent]
    rfl
  · rw [hfresh u later hlater, heldAt_eq_some_iff]
  · rw [hfresh u later hlater, heldAt_eq_some_iff, hsame, (heldAt_eq_some_iff.1 hheld).2]
    refine and_congr_right fun _ => ⟨fun heq => ?_, fun heq => ?_⟩
    · exact (NativeLibrary.sha256_eq_of_markingOf_eq (Except.ok.inj heq)).symm
    · rw [NativeLibrary.markingOf, NativeLibrary.markingOf, heq]

end Refresh

section Sample

def idleHook (_ : Path) : Action Unit :=
  pure ()

/-- The disk after one more refresh. -/
def refreshedTwice : World :=
  (perform ((sampleCopy "/lib/jarhash").renew idleHook) (.still []) (refreshed "/lib/jarhash")).2

/-- A copy that is refreshed again is current, also when the archive is read byte by byte. -/
theorem fresh_of_renew_again :
    perform ((sampleCopy "/lib/jarhash").renew idleHook) (.still []) (refreshed "/lib/jarhash") =
        (.ok (), refreshedTwice) ∧
      perform { sampleCopy "/lib/jarhash" with chunkSize := 1 }.isFresh (.still []) refreshedTwice =
        (.ok true, refreshedTwice) := by
  have hrenew : perform ((sampleCopy "/lib/jarhash").renew idleHook) (.still [])
      (refreshed "/lib/jarhash") = (.ok (), refreshedTwice) := Prod.ext (by decide +kernel) rfl
  obtain ⟨_, _, _, -, -, hchecks⟩ := fresh_of_renew (β := Unit)
    (by decide +kernel) (fun hnone => absurd hnone (by decide +kernel)) (by decide +kernel)
    (Keeps.pure ()) hrenew
    (by decide)
  exact ⟨hrenew, (hchecks 1 (by decide) ⟨by decide, by decide⟩ _ rfl).1⟩

/-- The disk with an old copy in which another file stands. -/
def oldCopy : World :=
  .ofTree (((FileTree.empty.writeFile ["a.jar"] memberless).add ["lib"] .directory).writeFile
    ["lib", "old.c"] [])

/-- The disk after the archive has become empty and its digest was put into the marker. -/
def forgedMarker : World :=
  .ofTree ((((refreshed "/lib/jarhash").tree.writeFile ["a.jar"] []).writeFile ["lib", "jarhash"]
    (NativeLibrary.markingOf [])))

/-- A refreshed copy is not current for whom reads the archive in chunks of a size that does not
exist. A copy whose path steps up from a directory that is missing is refreshed without taking the
old one away. A marker that somebody else has changed makes a copy current that was made from
another archive. -/
theorem refreshed_copy_is_not_exact :
    (perform ((sampleCopy "/lib/jarhash").renew idleHook) (.still []) onlyArchive).1 = .ok () ∧
      (perform { sampleCopy "/lib/jarhash" with chunkSize := Int.pow 2 63 }.isFresh (.still [])
        (refreshed "/lib/jarhash")).1 = .error .tooLarge ∧
      (perform ((⟨.parse "/a.jar", .parse "/lib/x/..", .parse "/mark", 1⟩ : ArchiveCopy).renew
        idleHook) (.still []) oldCopy).1 = .ok () ∧
      (perform ((⟨.parse "/a.jar", .parse "/lib/x/..", .parse "/mark", 1⟩ : ArchiveCopy).renew
        idleHook) (.still []) oldCopy).2.tree.isFile ["lib", "old.c"] = true ∧
      (perform (sampleCopy "/lib/jarhash").isFresh (.still []) forgedMarker).1 = .ok true ∧
      Digest.sha256 [] ≠ Digest.sha256 memberless :=
  ⟨by decide +kernel, by decide +kernel, by decide +kernel, by decide +kernel, by decide +kernel,
    by decide +kernel⟩

end Sample

end ArchiveCopy

end StagedBuild
