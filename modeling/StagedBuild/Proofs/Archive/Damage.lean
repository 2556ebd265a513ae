import StagedBuild.Proofs.Action.Faults
import StagedBuild.Archive.Copy

/-!
The faults that unpacking an archive can end in, whatever its bytes are.
-/

namespace StagedBuild

/-- What is found to be wrong while an archive is unpacked and is neither a fault of archives nor a
refusal of the operating system. -/
def Fault.IsStray : Fault → Prop
  | .corruptData _ | .corruptStream _ | .endOfData | .outOfMemory | .unsupported _ | .failure _
  | .undecodable | .noCharacter | .value .noPosition | .value .embeddedNull => True
  | _ => False

/-- What unpacking an archive can end in. -/
def Fault.IsDamage : Fault → Prop
  | .archive _ | .system _ => True
  | fault => fault.IsStray

theorem Fault.IsRefusal.isDamage {fault : Fault} (h : fault.IsRefusal) : fault.IsDamage := by
  unfold Fault.IsRefusal at h
  split at h
  · trivial
  · trivial
  · exact h.elim

namespace Archive

open Action Fault

section Listing

theorem damage_decodeName (isUtf8 : Bool) (bytes : List UInt8) :
    OnlyFaults IsDamage (decodeName isUtf8 bytes) := by
  unfold decodeName
  refine OnlyFaults.ite (fun _ => ?_) fun _ => OnlyFaults.ok _
  split
  · exact OnlyFaults.ok _
  · exact OnlyFaults.error trivial

theorem damage_endRecord (archive : List UInt8) : OnlyFaults IsDamage (endRecord archive) := by
  unfold endRecord
  split
  · exact OnlyFaults.error trivial
  · refine OnlyFaults.ite (fun _ => OnlyFaults.ok _) fun _ => ?_
    refine OnlyFaults.ite (fun _ => OnlyFaults.ok _) fun _ => ?_
    refine OnlyFaults.check trivial ?_
    refine OnlyFaults.check trivial ?_
    exact OnlyFaults.ite (fun _ => OnlyFaults.ok _) fun _ => OnlyFaults.ok _

theorem damage_takeWide (name : String) (data : List UInt8) :
    OnlyFaults IsDamage (takeWide name data) :=
  OnlyFaults.ite (fun _ => OnlyFaults.error trivial) fun _ => OnlyFaults.ok _

theorem damage_widened (sizes : Sizes) (data : List UInt8) :
    OnlyFaults IsDamage (widened sizes data) := by
  unfold widened
  -- each of the three numbers is in the entry itself or in the extra field
  refine OnlyFaults.ite (fun _ => (damage_takeWide _ _).bind fun (size, data) => ?_) fun _ => ?_
  all_goals
    refine OnlyFaults.ite (fun _ => (damage_takeWide _ _).bind fun (packed, data) => ?_) fun _ => ?_
  all_goals
    exact OnlyFaults.ite (fun _ => (damage_takeWide _ _).bind fun _ => OnlyFaults.ok _) fun _ =>
      OnlyFaults.ok _

theorem damage_readExtra (bound : Nat) (sizes : Sizes) (extra : List UInt8) :
    OnlyFaults IsDamage (readExtra bound sizes extra) := by
  induction bound generalizing sizes extra with
  | zero => exact OnlyFaults.ok _
  | succ bound ih =>
      unfold readExtra
      refine OnlyFaults.ite (fun _ => OnlyFaults.ok _) fun _ => ?_
      refine OnlyFaults.check trivial ?_
      exact OnlyFaults.ite (fun _ => (damage_widened _ _).bind fun _ => ih _ _) fun _ => ih _ _

theorem damage_readEntry (shift : Int) (data : List UInt8) :
    OnlyFaults IsDamage (readEntry shift data) := by
  unfold readEntry
  refine OnlyFaults.check trivial ?_
  refine OnlyFaults.check trivial ?_
  refine (damage_decodeName _ _).bind fun name => ?_
  refine OnlyFaults.check trivial ?_
  exact (damage_readExtra _ _ _).bind fun sizes => OnlyFaults.ok _

theorem damage_readEntries (shift : Int) (bound left : Nat) (data : List UInt8) :
    OnlyFaults IsDamage (readEntries shift bound left data) := by
  induction bound generalizing left data with
  | zero => exact OnlyFaults.ok _
  | succ bound ih =>
      unfold readEntries
      refine OnlyFaults.ite (fun _ => OnlyFaults.ok _) fun _ => ?_
      exact (damage_readEntry shift data).bind fun (m, length) => (ih _ _).bind fun rest =>
        OnlyFaults.ok _

theorem damage_members (archive : List UInt8) : OnlyFaults IsDamage (members archive) := by
  unfold members
  refine (damage_endRecord archive).bind fun record => ?_
  refine OnlyFaults.check trivial ?_
  exact (damage_readEntries _ _ _ _).bind fun entries => OnlyFaults.ok _

theorem damage_packedBytes (archive : List UInt8) (m : Member) :
    OnlyFaults IsDamage (packedBytes archive m) := by
  unfold packedBytes
  refine OnlyFaults.check trivial ?_
  refine OnlyFaults.check trivial ?_
  refine OnlyFaults.check trivial ?_
  refine OnlyFaults.check trivial ?_
  refine OnlyFaults.check trivial ?_
  refine OnlyFaults.check trivial ?_
  refine (damage_decodeName _ _).bind fun name => ?_
  refine OnlyFaults.check trivial ?_
  refine OnlyFaults.check trivial ?_
  refine OnlyFaults.check trivial ?_
  exact OnlyFaults.check trivial (OnlyFaults.ok _)

end Listing

section Delivering

variable {m : Member}

theorem damage_arrival (m : Member) (packed : List UInt8) (arrived wanted : Nat) :
    OnlyFaults IsDamage (arrival m packed arrived wanted) := by
  unfold arrival
  refine OnlyFaults.ite (fun _ => OnlyFaults.ok _) fun _ => ?_
  exact OnlyFaults.ite (fun _ => OnlyFaults.error trivial) fun _ => OnlyFaults.ok _

theorem damage_unpack (e : Inflate.Expansion) (arrived given room : Nat) :
    OnlyFaults IsDamage (unpack e arrived given room) := by
  unfold unpack
  refine OnlyFaults.ite (fun _ => ?_) fun _ => OnlyFaults.ok _
  split
  · exact OnlyFaults.ok _
  · exact OnlyFaults.ok _
  · exact OnlyFaults.ite (fun _ => OnlyFaults.ok _) fun _ => OnlyFaults.error trivial

theorem damage_deliver (m : Member) (bytes : List UInt8) (r : Reading) :
    OnlyFaults IsDamage (deliver m bytes r) :=
  OnlyFaults.ite (fun _ => OnlyFaults.error trivial) fun _ => OnlyFaults.ok _

theorem isDamage_fault (f : UnpackerFault) : f.fault.IsDamage := by
  cases f <;> trivial

/-- Reading on in a member ends in damage only, whatever its method is and whatever unpacks it. -/
theorem damage_readerOf (unpackers : Unpackers) (m : Member) (packed : List UInt8) (wanted : Nat)
    (r : Reading) : OnlyFaults IsDamage (readerOf unpackers m packed wanted r) := by
  have hunpacked : ∀ unpacker, OnlyFaults IsDamage (readUnpacked unpacker m packed wanted r) := by
    intro unpacker
    refine (damage_arrival _ _ _ _).bind fun bytes => ?_
    split
    · exact OnlyFaults.error (isDamage_fault _)
    · exact damage_deliver _ _ _
  have hexpanded : ∀ e, OnlyFaults IsDamage (readExpanded m packed e wanted r) := by
    intro e
    have hgiven : ∀ arrived, OnlyFaults IsDamage (do
        let u ← unpack e arrived r.given (max wanted arrivalSize)
        let ended := u.ended || (m.packedSize ≤ arrived && arrived ≤ u.taken)
        let given := if ended then reach e.output arrived e.output.size u.given else u.given
        let unpacked := (e.output.extract r.given given).toList.map Inflate.Written.byte
        deliver m unpacked { r with arrived, taken := u.taken, given, ended }) :=
      fun arrived => (damage_unpack _ _ _ _).bind fun u => damage_deliver _ _ _
    unfold readExpanded
    exact OnlyFaults.ite (fun _ => (damage_arrival _ _ _ _).bind fun bytes => hgiven _) fun _ =>
      hgiven _
  unfold readerOf
  split
  · exact (damage_arrival _ _ _ _).bind fun bytes => damage_deliver _ _ _
  · split
    · exact hexpanded _
    · exact hunpacked _

variable {reader : Reader} (hreader : ∀ wanted r, OnlyFaults IsDamage (reader wanted r))

include hreader

theorem damage_fill (bound wanted : Nat) (piece : List UInt8) (r : Reading) :
    OnlyFaults IsDamage (fill reader bound wanted piece r) := by
  induction bound generalizing wanted piece r with
  | zero => exact OnlyFaults.ok _
  | succ bound ih =>
      unfold fill
      refine OnlyFaults.ite (fun _ => OnlyFaults.ok _) fun _ => ?_
      refine (hreader wanted r).bind fun (bytes, r) => ?_
      exact OnlyFaults.ite (fun _ => OnlyFaults.ok _) fun _ => ih _ _ _

theorem damage_readPiece (bound : Nat) (r : Reading) :
    OnlyFaults IsDamage (readPiece reader bound r) :=
  OnlyFaults.ite (fun _ => OnlyFaults.ok _) fun _ => damage_fill hreader _ _ _ _

theorem damage_readPieces (pieces bound : Nat) (r : Reading) {fault : Fault}
    (h : (readPieces reader pieces bound r).fault = some fault) : fault.IsDamage := by
  induction pieces generalizing r with
  | zero => cases h
  | succ pieces ih =>
      unfold readPieces at h
      have hpiece := damage_readPiece hreader bound r
      split at h
      · rename_i hended
        obtain rfl := Option.some.inj h
        exact hpiece _ hended
      · cases h
      · exact ih _ h

end Delivering

section Extracting

theorem refused_makeMissing (bound : Nat) (p : Path) :
    FailsOnly IsRefusal (makeMissing bound p) := by
  induction bound generalizing p with
  | zero => exact Disk.refused_makeDirectory p
  | succ bound ih =>
      have hmake := Disk.refused_makeDirectory p
      unfold makeMissing
      refine (Disk.refused_nodeIfAny _).bind fun above => ?_
      refine FailsOnly.ite (fun _ => ?_) fun _ => hmake
      refine (ih p.parent).outcome_bind (fun _ => hmake) fun fault hfault => ?_
      split
      · exact hmake
      · exact hmake
      · rename_i hended
        cases hended
        exact (FailsOnly.throw hfault).bind fun _ => hmake

theorem damage_writeDelivery (target : Path) {d : Delivery}
    (h : ∀ fault, d.fault = some fault → fault.IsDamage) :
    FailsOnly IsDamage (writeDelivery target d) := by
  have hpieces : FailsOnly IsDamage (d.pieces.forM (Disk.appendBytes target)) :=
    FailsOnly.forM fun bytes _ =>
      (Disk.refused_appendBytes target bytes).mono fun _ => IsRefusal.isDamage
  refine hpieces.bind fun _ => ?_
  split
  · exact FailsOnly.throw (h _ ‹_›)
  · exact FailsOnly.pure ()

theorem refused_makeMember (target : Path) : FailsOnly IsRefusal (makeMember target) :=
  (Disk.refused_nodeIfAny target).bind fun _ =>
    FailsOnly.ite (fun _ => Disk.refused_makeDirectory target) fun _ => FailsOnly.pure ()

theorem damage_writeMember (archive : List UInt8) (target : Path) (m : Member) :
    FailsOnly IsDamage (writeMember archive target m) :=
  (FailsOnly.ofExcept (damage_packedBytes archive m)).bind fun packed =>
    ((Disk.refused_truncate target).mono fun _ => IsRefusal.isDamage).bind fun _ =>
      FailsOnly.bind (fun _ _ => OnlyFaults.ok _) fun around =>
        damage_writeDelivery target fun _ =>
          damage_readPieces (damage_readerOf around.unpacker m packed) _ _ _

theorem damage_extractMember (archive : List UInt8) (destination : Path) (m : Member) :
    FailsOnly IsDamage (extractMember archive destination m) := by
  have hrest : ∀ target, FailsOnly IsDamage (do
      if m.name = "" then throw .noCharacter
      if m.isDirectory then makeMember target else writeMember archive target m) := by
    intro target
    refine FailsOnly.ite (fun _ => (FailsOnly.throw trivial).bind fun _ => ?_) fun _ => ?_
    all_goals
      exact FailsOnly.ite (fun _ => (refused_makeMember _).mono fun _ => IsRefusal.isDamage)
        fun _ => damage_writeMember archive target m
  have habove : ∀ bound above, FailsOnly IsDamage (makeMissing bound above) := fun bound above =>
    (refused_makeMissing bound above).mono fun _ => IsRefusal.isDamage
  unfold extractMember
  refine ((Disk.refused_nodeIfAny _).mono fun _ => IsRefusal.isDamage).bind fun above => ?_
  exact FailsOnly.ite (fun _ => (habove _ _).bind fun _ => hrest _) fun _ => hrest _

theorem damage_extractMembers (archive : List UInt8) (destination : Path) (all : List Member) :
    FailsOnly IsDamage (extractMembers archive destination all) :=
  FailsOnly.forM fun _ _ => damage_extractMember archive destination _

end Extracting

end Archive

end StagedBuild
