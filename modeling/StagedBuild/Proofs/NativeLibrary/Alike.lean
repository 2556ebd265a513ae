import StagedBuild.Proofs.Action.Alike
import StagedBuild.Proofs.NativeLibrary.Preparation

/-!
Preparing the native library goes by what the entries of the disk are. On two disks with the same
entries it ends alike and leaves the same entries, whatever led there, as long as paths start from
the same directory and what they hold is read alike. Neither the number of jobs nor the order in
which libraries are listed counts.
-/

namespace StagedBuild

open Action Disk

variable {R : World → World → Prop} [Parallel R] {around₁ around₂ : Surroundings}
  (hread : ReadAlike around₁ around₂)

include hread

namespace Archive

theorem alike_makeMissing (bound : Nat) (p : Path) :
    Alike R around₁ around₂ (makeMissing bound p) := by
  induction bound generalizing p with
  | zero => exact alike_makeDirectory hread.directory p
  | succ bound ih =>
      unfold makeMissing
      refine (alike_nodeIfAny hread.directory _).bind fun above => ?_
      refine .ite (fun _ => ?_) fun _ => alike_makeDirectory hread.directory p
      refine (ih p.parent).outcome.bind fun ended => ?_
      split
      · exact alike_makeDirectory hread.directory p
      · exact alike_makeDirectory hread.directory p
      · exact (Alike.throw _).bind fun _ => alike_makeDirectory hread.directory p

theorem alike_writeDelivery (target : Path) (d : Delivery) :
    Alike R around₁ around₂ (writeDelivery target d) := by
  unfold writeDelivery
  refine (Alike.forM fun bytes => alike_appendBytes hread.directory target bytes).bind fun _ => ?_
  split
  · exact .throw _
  · exact .pure _

theorem alike_writeMember (archive : List UInt8) (target : Path) (m : Member) :
    Alike R around₁ around₂ (writeMember archive target m) :=
  (Alike.ofExcept _ _).bind fun packed => (alike_write hread.directory target []).bind fun _ =>
    .asks (·.unpacker) hread.unpacker (fun unpackers =>
      writeDelivery target (delivery unpackers m packed))
        fun _ => alike_writeDelivery hread target _

theorem alike_makeMember (target : Path) : Alike R around₁ around₂ (makeMember target) :=
  (alike_nodeIfAny hread.directory target).bind fun _ =>
    .ite (fun _ => alike_makeDirectory hread.directory target) fun _ => .pure _

theorem alike_extractMember (archive : List UInt8) (destination : Path) (m : Member) :
    Alike R around₁ around₂ (extractMember archive destination m) := by
  have hentry : ∀ target, Alike R around₁ around₂
      (if m.isDirectory then makeMember target else writeMember archive target m) := fun target =>
    .ite (fun _ => alike_makeMember hread target) fun _ => alike_writeMember hread archive target m
  unfold extractMember
  refine (alike_nodeIfAny hread.directory _).bind fun above => ?_
  refine .ite (fun _ => (alike_makeMissing hread _ _).bind fun _ => ?_) fun _ => ?_
  all_goals exact .ite (fun _ => (Alike.throw _).bind fun _ => hentry _) fun _ => hentry _

theorem alike_extract (archive destination : Path) :
    Alike R around₁ around₂ (extract archive destination) := by
  have hunpack : Alike R around₁ around₂ (do
      let bytes ← Disk.readBytes archive
      extractMembers bytes destination (← Action.ofExcept id (members bytes))) :=
    (alike_readBytes hread.directory archive).bind fun bytes => (Alike.ofExcept _ _).bind fun all =>
      .forM fun m => alike_extractMember hread bytes destination _
  unfold extract
  refine (alike_isOccupied hread.directory archive).bind fun there => ?_
  refine .ite (fun _ => (Alike.throw _).bind fun _ => ?_) fun _ => ?_
  all_goals
    refine (alike_makeDirectories hread.directory destination).bind fun _ => ?_
    refine .ite (fun _ => (Alike.throw _).bind fun _ => hunpack.outcome.bind fun ended => ?_)
      fun _ => hunpack.outcome.bind fun ended => ?_
  all_goals
    split
    · exact .pure _
    · exact .throw _
    · exact .throw _
    · exact .throw _

end Archive

namespace ArchiveCopy

theorem alike_digestFile (p : Path) (chunkSize : Int) :
    Alike R around₁ around₂ (digestFile p chunkSize) :=
  (alike_readBytes hread.directory p).bind fun bytes =>
    .asks (·.spareMemory) hread.spareMemory (fun spare => do
      return Digest.hexText (Digest.sha256 (← Action.ofExcept id
        (readInChunks spare chunkSize bytes))))
      fun _ => (Alike.ofExcept _ _).bind fun _ => .pure _

theorem alike_marking (c : ArchiveCopy) : Alike R around₁ around₂ c.marking :=
  (alike_digestFile hread _ _).bind fun _ => .pure _

theorem alike_isFresh (c : ArchiveCopy) : Alike R around₁ around₂ c.isFresh := by
  unfold isFresh
  refine (alike_isOccupied hread.directory c.directory).bind
    fun there => .ite (fun _ => .pure _) fun _ => ?_
  refine (alike_isOccupied hread.directory c.marker).bind
    fun marked => .ite (fun _ => .pure _) fun _ => ?_
  exact (alike_readBytes hread.directory c.marker).bind fun _ => (alike_marking hread c).bind
    fun _ => .pure _

theorem alike_renew {α : Type} (c : ArchiveCopy) {finish : Path → Action α}
    (hfinish : ∀ p, Alike SameDisk around₁ around₂ (finish p)) :
    Alike SameDisk around₁ around₂ (c.renew finish) := by
  unfold renew
  refine (alike_marking hread c).bind
    fun print => (alike_isOccupied hread.directory c.directory).bind
    fun there => ?_
  have hfill : Alike SameDisk around₁ around₂ (do
      Archive.extract c.archive c.directory
      let finished ← finish c.directory
      Disk.makeDirectories c.marker.parent
      Disk.writeBytes c.marker print
      return finished) :=
    (Archive.alike_extract hread _ _).bind fun _ => (hfinish _).bind fun _ =>
      (alike_makeDirectories hread.directory _).bind
        fun _ => (alike_writeBytes hread.directory _ _).bind fun _ =>
        .pure _
  exact .ite (fun _ => (alike_removeTree hread.directory _).bind fun _ => hfill) fun _ => hfill

theorem alike_freshen {α : Type} (c : ArchiveCopy) {finish : Path → Action α}
    (hfinish : ∀ p, Alike SameDisk around₁ around₂ (finish p)) :
    Alike SameDisk around₁ around₂ (c.freshen finish) := by
  unfold freshen
  exact (alike_isFresh hread c).bind fun _ =>
    .ite (fun _ => .pure _) fun _ => (alike_renew hread c hfinish).map _

end ArchiveCopy

namespace NativeLibrary

namespace Manifest

theorem alike_scan (root : Path) : Alike R around₁ around₂ (scan root) :=
  (alike_entriesBelow hread.directory root).bind fun _ => .pure _

theorem alike_write (m : Manifest) : Alike R around₁ around₂ m.write :=
  (alike_writeBytes hread.directory _ _).bind fun _ => .pure _

theorem alike_load (root : Path) : Alike R around₁ around₂ (load root) := by
  have hsources : Alike R around₁ around₂ (readSources root) :=
    (alike_readText hread.directory _).bind fun text => (Json.alike_ofText hread text).bind fun _ =>
      .ofExcept _ _
  unfold load
  refine hsources.outcome.bind fun ended => ?_
  split
  · exact .pure _
  · refine .ite (fun _ => (alike_scan hread root).bind fun m => ?_) fun _ => .throw _
    exact (alike_write hread m).bind fun _ => .pure _

end Manifest

theorem alike_unpack (plan : Plan) : Alike SameDisk around₁ around₂ (unpack plan) := by
  have hlisting : ∀ p, Alike SameDisk around₁ around₂ (writeManifest p) := fun p =>
    (Manifest.alike_scan hread p).bind fun m => (Manifest.alike_write hread m).bind fun _ => .pure _
  have hload := Manifest.alike_load (R := SameDisk) hread plan.libraryDirectory
  unfold unpack
  refine (ArchiveCopy.alike_freshen hread _ hlisting).outcome.bind fun ended => ?_
  split
  · exact .ite (fun _ => (alike_say _).bind fun _ => hload) fun _ => hload
  · exact .throw _
  · exact .throw _

theorem alike_prepare (plan : Plan) (links : List String) :
    Alike SameDisk around₁ around₂ (prepare plan links) := by
  unfold prepare
  refine (alike_unpack hread plan).bind fun manifest => (Alike.ofExcept _ _).bind ?_
  rintro ⟨included, excluded⟩
  have hremove : Alike SameDisk around₁ around₂ (removeObjects excluded) := by
    unfold removeObjects
    refine Alike.filterMapM fun s => (alike_isOccupied hread.directory _).bind fun _ => ?_
    exact .ite (fun _ => (alike_unlink hread.directory _).bind fun _ => .pure _) fun _ => .pure _
  have hfind : Alike SameDisk around₁ around₂ (withoutObject included) :=
    .filterM fun s => (alike_isOccupied hread.directory _).bind fun _ => .pure _
  exact hremove.bind fun _ => hfind.bind fun _ => .pure _

omit hread in
theorem select_congr (m : Manifest) (gc : Collector) {links links' : List String}
    (h : ∀ name, name ∈ links ↔ name ∈ links') : m.select gc links = m.select gc links' := by
  have hneeded : ∀ s : Source, s.isNeeded gc links = s.isNeeded gc links' := by
    intro s
    have hcontains : ∀ name, links.contains name = links'.contains name := fun name => by
      rw [Bool.eq_iff_iff, List.contains_iff_mem, List.contains_iff_mem, h]
    simp only [Source.isNeeded, hcontains]
  simp only [Manifest.select, hneeded]

omit hread in
theorem prepare_congr (plan : Plan) (jobs : Int) {links links' : List String}
    (h : ∀ name, name ∈ links ↔ name ∈ links') :
    prepare { plan with jobs := jobs } links' = prepare plan links := by
  unfold prepare
  simp only [select_congr _ _ h]
  rfl

end NativeLibrary

end StagedBuild
