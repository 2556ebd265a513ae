import StagedBuild.Archive.Copy
import StagedBuild.Proofs.Action.Disk

/-!
What extracting an archive and renewing its copy keep: whatever the single changes of the disk keep
of which they are made.
-/

namespace StagedBuild

open Action

variable {around : Surroundings} {R : World → World → Prop} [Passage R]

namespace Archive

theorem keeps_makeMissing {P : Path → Prop} (bound : Nat) {p : Path} (hp : P p)
    (hparent : ∀ q, P q → P q.parent) (hdir : ∀ q, P q → Keeps around R (Disk.makeDirectory q)) :
    Keeps around R (makeMissing bound p) := by
  induction bound generalizing p with
  | zero => exact hdir p hp
  | succ bound ih =>
      unfold makeMissing
      refine (Keeps.of_readOnly (Disk.readOnly_nodeIfAny _)).bind fun above => ?_
      refine Keeps.ite (fun _ => ?_) fun _ => hdir p hp
      refine (ih (hparent p hp)).outcome.bind fun ended => ?_
      split
      · exact hdir p hp
      · exact hdir p hp
      · exact (Keeps.throw _).bind fun _ => hdir p hp

theorem keeps_writeDelivery {target : Path} (d : Delivery)
    (happend : ∀ bytes, Keeps around R (Disk.appendBytes target bytes)) :
    Keeps around R (writeDelivery target d) := by
  unfold writeDelivery
  refine (Keeps.forM fun bytes _ => happend bytes).bind fun _ => ?_
  split
  · exact Keeps.throw _
  · exact Keeps.pure _

theorem keeps_makeMember {target : Path} (hdir : Keeps around R (Disk.makeDirectory target)) :
    Keeps around R (makeMember target) :=
  (Keeps.of_readOnly (Disk.readOnly_nodeIfAny _)).bind fun _ =>
    Keeps.ite (fun _ => hdir) fun _ => Keeps.pure _

theorem keeps_writeMember (archive : List UInt8) {target : Path} (m : Member)
    (htruncate : Keeps around R (Disk.truncate target))
    (happend : ∀ bytes, Keeps around R (Disk.appendBytes target bytes)) :
    Keeps around R (writeMember archive target m) :=
  (Keeps.of_readOnly (ReadOnly.ofExcept _ _)).bind fun _ => htruncate.bind fun _ =>
    (Keeps.of_readOnly fun _ _ => rfl).bind fun _ => keeps_writeDelivery _ happend

theorem keeps_extractMember {P : Path → Prop} (archive : List UInt8) (destination : Path)
    (m : Member) (hm : P (targetOf destination m)) (hparent : ∀ q, P q → P q.parent)
    (hdir : ∀ q, P q → Keeps around R (Disk.makeDirectory q))
    (htruncate : Keeps around R (Disk.truncate (targetOf destination m)))
    (happend : ∀ bytes, Keeps around R (Disk.appendBytes (targetOf destination m) bytes)) :
    Keeps around R (extractMember archive destination m) := by
  have hnamed : Keeps around R (
      if m.isDirectory then makeMember (targetOf destination m)
      else writeMember archive (targetOf destination m) m) :=
    Keeps.ite (fun _ => keeps_makeMember (hdir _ hm)) fun _ =>
      keeps_writeMember archive m htruncate happend
  have hrest : Keeps around R (do
      if m.name = "" then throw .noCharacter
      if m.isDirectory then makeMember (targetOf destination m)
      else writeMember archive (targetOf destination m) m) :=
    Keeps.ite (fun _ => (Keeps.throw _).bind fun _ => hnamed) fun _ => hnamed
  unfold extractMember
  refine (Keeps.of_readOnly (Disk.readOnly_nodeIfAny _)).bind fun above => ?_
  exact Keeps.ite (fun _ => (keeps_makeMissing _ (hparent _ hm) hparent hdir).bind fun _ => hrest)
    fun _ => hrest

/-- The member that counts among those of its name. -/
def counting (all : List Member) (m : Member) : Member :=
  (all.reverse.find? fun n => n.name == m.name).getD m

theorem counting_mem {all : List Member} {m : Member} (h : m ∈ all) : counting all m ∈ all := by
  unfold counting
  cases hfind : all.reverse.find? fun n => n.name == m.name with
  | none => exact h
  | some n => exact List.mem_reverse.1 (List.mem_of_find?_eq_some hfind)

theorem keeps_extractMembers_within {P : Path → Prop} (archive : List UInt8) (destination : Path)
    (all : List Member) (hall : ∀ m ∈ all, P (targetOf destination m))
    (hparent : ∀ q, P q → P q.parent) (hdir : ∀ q, P q → Keeps around R (Disk.makeDirectory q))
    (htruncate : ∀ m ∈ all, Keeps around R (Disk.truncate (targetOf destination m)))
    (happend : ∀ m ∈ all, ∀ bytes,
      Keeps around R (Disk.appendBytes (targetOf destination m) bytes)) :
    Keeps around R (extractMembers archive destination all) :=
  Keeps.forM fun m hm =>
    keeps_extractMember archive destination (counting all m) (hall _ (counting_mem hm)) hparent hdir
      (htruncate _ (counting_mem hm)) (happend _ (counting_mem hm))

theorem keeps_extractMembers (archive : List UInt8) (destination : Path) (all : List Member)
    (hdir : ∀ q, Keeps around R (Disk.makeDirectory q))
    (htruncate : ∀ m ∈ all, Keeps around R (Disk.truncate (targetOf destination m)))
    (happend : ∀ m ∈ all, ∀ bytes,
      Keeps around R (Disk.appendBytes (targetOf destination m) bytes)) :
    Keeps around R (extractMembers archive destination all) :=
  keeps_extractMembers_within (P := fun _ => True) archive destination all (fun _ _ => trivial)
    (fun _ _ => trivial) (fun q _ => hdir q) htruncate happend

/-- Extracting an archive makes its directory and pours the members into it that are in the archive
by then. -/
theorem of_perform_extract {archive destination : Path} {w : World}
    (hmake : Keeps around R (Disk.makeDirectories destination))
    (hpour : ∀ v bytes all, perform (Disk.makeDirectories destination) around w = (.ok (), v) →
      archive.suffix ∈ knownSuffixes → Disk.bytesAt archive v.tree around.directory = .ok bytes →
      members bytes = .ok all → R v (perform (extractMembers bytes destination all) around v).2) :
    R w (perform (extract archive destination) around w).2 := by
  unfold extract
  rw [perform_bind, Disk.perform_isOccupied]
  rcases Disk.answerAt archive w.tree around.directory with fault | _ | node
  · exact Passage.refl w
  · exact Passage.refl w
  · change R w (perform (Disk.makeDirectories destination >>= _) around w).2
    rw [perform_bind]
    rcases hmade : perform (Disk.makeDirectories destination) around w with ⟨fault | _, v⟩
    · exact hmake.of_perform hmade
    · refine Passage.trans (hmake.of_perform hmade) ?_
      dsimp only
      split
      · exact Passage.refl v
      · rename_i hknown
        have hread : R v (perform (do
            let bytes ← Disk.readBytes archive
            extractMembers bytes destination (← Action.ofExcept id (members bytes)))
              around v).2 := by
          rw [perform_bind, Disk.perform_readBytes]
          rcases hbytes : Disk.bytesAt archive v.tree around.directory with fault | bytes
          · exact Passage.refl v
          · dsimp only
            rw [perform_bind, perform_ofExcept_id]
            rcases hall : members bytes with fault | all
            · exact Passage.refl v
            · exact hpour v bytes all hmade (Decidable.not_not.1 hknown) hbytes hall
        rw [perform_bind, perform_outcome]
        dsimp only
        split
        · exact hread
        · exact hread
        · exact hread
        · exact hread

theorem perform_extract_ok {archive destination : Path} {w w' : World}
    (h : perform (extract archive destination) around w = (.ok (), w')) :
    ∃ v bytes all, perform (Disk.makeDirectories destination) around w = (.ok (), v) ∧
      archive.suffix ∈ knownSuffixes ∧
      Disk.bytesAt archive v.tree around.directory = .ok bytes ∧ members bytes = .ok all ∧
      perform (extractMembers bytes destination all) around v = (.ok (), w') := by
  unfold extract at h
  rw [perform_bind, Disk.perform_isOccupied] at h
  rcases hanswer : Disk.answerAt archive w.tree around.directory with fault | _ | node
  · rw [hanswer] at h
    cases h
  · rw [hanswer] at h
    cases h
  rw [hanswer] at h
  change perform (Disk.makeDirectories destination >>= _) around w = _ at h
  obtain ⟨_, v, hmade, hrest⟩ := perform_bind_eq_ok.1 h
  by_cases hknown : archive.suffix ∈ knownSuffixes
  · rw [if_neg (Decidable.not_not.2 hknown), perform_bind, perform_outcome] at hrest
    rcases hunpacked : perform (do
        let bytes ← Disk.readBytes archive
        extractMembers bytes destination (← Action.ofExcept id (members bytes))) around v with
      ⟨fault | _, v'⟩
    · rw [hunpacked] at hrest
      cases fault <;> cases hrest
    · rw [hunpacked] at hrest
      cases hrest
      obtain ⟨bytes, v₁, hread, hmembers⟩ := perform_bind_eq_ok.1 hunpacked
      rw [Disk.perform_readBytes] at hread
      obtain ⟨hbytes, rfl⟩ := Prod.mk.inj hread
      obtain ⟨all, v₂, hall, hextracted⟩ := perform_bind_eq_ok.1 hmembers
      rw [perform_ofExcept_id] at hall
      obtain ⟨hmembers, rfl⟩ := Prod.mk.inj hall
      exact ⟨_, bytes, all, hmade, hknown, hbytes, hmembers, hextracted⟩
  · rw [if_pos hknown] at hrest
    cases hrest

section AnyChange

variable {R : World → World → Prop} [Disk.AnyChange R]

theorem keeps_extract (archive destination : Path) :
    Keeps around R (extract archive destination) := fun _ =>
  of_perform_extract (Disk.keeps_makeDirectories destination) fun v bytes all _ _ _ _ =>
    keeps_extractMembers bytes destination all Disk.keeps_makeDirectory
      (fun _ _ => Disk.keeps_truncate _) (fun _ _ _ => Disk.keeps_appendBytes _ _) v

end AnyChange

end Archive

namespace ArchiveCopy

theorem readOnly_digestFile (p : Path) (chunkSize : Int) : ReadOnly (digestFile p chunkSize) :=
  (Disk.readOnly_readBytes p).bind fun _ => ReadOnly.bind (fun _ _ => rfl) fun _ =>
    (ReadOnly.ofExcept _ _).bind fun _ _ _ => rfl

theorem readOnly_marking (c : ArchiveCopy) : ReadOnly c.marking :=
  (readOnly_digestFile _ _).bind fun _ _ _ => rfl

theorem readOnly_isFresh (c : ArchiveCopy) : ReadOnly c.isFresh := by
  have hcompare : ReadOnly (do
      let held ← Disk.readBytes c.marker
      return held == (← c.marking)) :=
    (Disk.readOnly_readBytes _).bind fun _ => (readOnly_marking c).bind fun _ _ _ => rfl
  unfold isFresh
  refine (Disk.readOnly_isOccupied _).bind fun there => ?_
  intro around
  refine Keeps.ite (fun _ => Keeps.pure _) fun _ => ?_
  refine Keeps.bind (Disk.readOnly_isOccupied _ around) fun marked => ?_
  exact Keeps.ite (fun _ => Keeps.pure _) fun _ => hcompare around

variable {α : Type}

theorem keeps_renew_within (c : ArchiveCopy) {finish : Path → Action α}
    (hremove : Keeps around R (Disk.removeTree c.directory))
    (hextract : Keeps around R (Archive.extract c.archive c.directory))
    (hfinish : Keeps around R (finish c.directory))
    (hparent : Keeps around R (Disk.makeDirectories c.marker.parent))
    (hmarker : ∀ print, Keeps around R (Disk.writeBytes c.marker print)) :
    Keeps around R (c.renew finish) := by
  have hmade : ∀ print, Keeps around R (do
      Archive.extract c.archive c.directory
      let finished ← finish c.directory
      Disk.makeDirectories c.marker.parent
      Disk.writeBytes c.marker print
      return finished) := fun print =>
    hextract.bind fun _ => hfinish.bind fun _ => hparent.bind fun _ =>
      (hmarker print).bind fun _ => Keeps.pure _
  unfold renew
  refine (Keeps.of_readOnly (readOnly_marking c)).bind fun print => ?_
  refine (Keeps.of_readOnly (Disk.readOnly_isOccupied _)).bind fun there => ?_
  exact Keeps.ite (fun _ => hremove.bind fun _ => hmade print) fun _ => hmade print

theorem of_perform_freshen {c : ArchiveCopy} {finish : Path → Action α} {w : World}
    (hrenew : R w (perform (c.renew finish) around w).2) :
    R w (perform (c.freshen finish) around w).2 := by
  unfold freshen
  refine Keeps.bind_at (Keeps.of_readOnly (readOnly_isFresh c) w) fun fresh v hfresh => ?_
  have hv : v = w := by
    have hreadOnly := readOnly_isFresh c around w
    rwa [hfresh] at hreadOnly
  subst hv
  cases fresh with
  | true => exact Passage.refl v
  | false =>
      change R v (perform (some <$> c.renew finish) around v).2
      rw [perform_map]
      exact hrenew

end ArchiveCopy

end StagedBuild
