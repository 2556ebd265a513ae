import StagedBuild.Proofs.Action.Local
import StagedBuild.Proofs.Action.Spares
import StagedBuild.Proofs.Archive.Keeps

/-!
Extracting members stays below the destination, whatever the members are called: their names are cut
into steps that do not go up, and steps up in the destination itself are taken back.
-/

namespace StagedBuild.Archive

open Action FileTree Disk

variable {around₁ around₂ : Surroundings} {destination : Path} {ways : List Location}

theorem isStep_of_mem_way {m : Member} : ∀ s ∈ m.way, isStep s = true := by
  intro s hs
  simp only [Member.way, List.mem_filter, Text.pieces, List.mem_map, Bool.and_eq_true,
    bne_iff_ne, ne_eq] at hs
  obtain ⟨⟨cs, hcs, rfl⟩, ⟨hempty, hdot⟩, -⟩ := hs
  refine isStep_iff.2 ⟨hempty, hdot, ?_⟩
  rw [String.toList_ofList]
  exact Text.not_mem_of_mem_cut hcs

theorem up_not_mem_way (m : Member) : ".." ∉ m.way := by
  simp [Member.way]

theorem isAbsolute_targetOf (hdest : destination.isAbsolute = true) (m : Member) :
    (targetOf destination m).isAbsolute = true := by
  rw [targetOf, isAbsolute_collapsed, isAbsolute_descend _ isStep_of_mem_way, hdest]

theorem goalOf_targetOf (cwd : Location) (destination : Path) (m : Member) :
    goalOf cwd (targetOf destination m) = goalOf cwd destination ++ m.way := by
  rw [targetOf, goalOf_collapsed,
    goalOf_descend_plain cwd _ isStep_of_mem_way (up_not_mem_way m)]

theorem sparing_extractMembers {around : Surroundings} {touched : Location → Prop}
    {all : List Member} (archive : List UInt8) (destination : Path)
    (hall : ∀ m ∈ all, touched (goalOf around.directory destination ++ m.way)) :
    Keeps around (Sparing touched) (extractMembers archive destination all) := by
  have htarget : ∀ m ∈ all, touched (goalOf around.directory (targetOf destination m)) := by
    intro m hm
    rw [goalOf_targetOf]
    exact hall m hm
  exact keeps_extractMembers archive destination all (sparing_makeDirectory touched)
    (fun m hm => sparing_write (htarget m hm) []) fun m hm => sparing_appendBytes (htarget m hm)

theorem visible_targetOf (hdest : destination.isAbsolute = true) (m : Member) :
    Visible (goalOf [] destination) ways (targetOf destination m) := by
  have habsolute : (destination.descend m.way).isAbsolute = true := by
    rw [isAbsolute_descend _ isStep_of_mem_way, hdest]
  refine ⟨isAbsolute_targetOf hdest m, ?_, fun v hv => ?_⟩
  · rw [goalOf_targetOf]
    exact .inl (List.prefix_append _ _)
  · obtain ⟨back, -, hgoal⟩ := (mem_passedBy_collapsed habsolute).1 hv
    rw [goalOf_descend_plain [] _ isStep_of_mem_way (up_not_mem_way m)] at hgoal
    -- both lead to the same place, so one is the beginning of the other
    rcases List.prefix_or_prefix_of_prefix (List.prefix_append (goalOf [] destination) m.way)
      (hgoal ▸ List.prefix_append v back) with h | h
    · exact .inl h
    · exact .inr (.inl h)

theorem local_makeMissing {base : Location} (bound : Nat) {p : Path} (hp : Visible base ways p) :
    Local around₁ around₂ base ways (makeMissing bound p) := by
  induction bound generalizing p with
  | zero => exact local_makeDirectory hp
  | succ bound ih =>
      unfold makeMissing
      refine (local_nodeIfAny hp.parent).bind fun above => ?_
      refine Local.ite (fun _ => ?_) fun _ => local_makeDirectory hp
      refine (ih hp.parent).outcome.bind fun ended => ?_
      split
      · exact local_makeDirectory hp
      · exact local_makeDirectory hp
      · exact (Local.throw _).bind fun _ => local_makeDirectory hp

theorem local_writeDelivery {base : Location} {target : Path} (d : Delivery)
    (hp : Visible base ways target) :
    Local around₁ around₂ base ways (writeDelivery target d) := by
  unfold writeDelivery
  refine (Local.forM fun bytes _ => local_appendBytes hp bytes).bind fun _ => ?_
  split
  · exact Local.throw _
  · exact Local.pure _

section Members

variable (hunpacker : around₁.unpacker = around₂.unpacker)

include hunpacker

theorem local_writeMember {base : Location} {target : Path} (archive : List UInt8)
    (hp : Visible base ways target) (m : Member) :
    Local around₁ around₂ base ways (writeMember archive target m) := by
  refine (Local.ofExcept _ _).bind fun packed => (local_truncate hp).bind fun _ => ?_
  exact Local.asks Surroundings.unpacker hunpacker
    (fun unpackers => writeDelivery target (delivery unpackers m packed))
    fun unpackers => local_writeDelivery _ hp

theorem local_extractMember (archive : List UInt8) (hdest : destination.isAbsolute = true)
    (m : Member) :
    Local around₁ around₂ (goalOf [] destination) ways (extractMember archive destination m) := by
  have htarget : Visible (goalOf [] destination) ways (targetOf destination m) :=
    visible_targetOf hdest m
  have hmake : Local around₁ around₂ (goalOf [] destination) ways
      (makeMember (targetOf destination m)) :=
    (local_nodeIfAny htarget).bind fun _ =>
      Local.ite (fun _ => local_makeDirectory htarget) fun _ => Local.pure _
  have hwrite := local_writeMember hunpacker archive htarget m
  have hrest : Local around₁ around₂ (goalOf [] destination) ways (do
      if m.name = "" then throw .noCharacter
      if m.isDirectory then makeMember (targetOf destination m)
      else writeMember archive (targetOf destination m) m) :=
    Local.ite
      (fun _ => (Local.throw _).bind fun _ => Local.ite (fun _ => hmake) fun _ => hwrite)
      fun _ => Local.ite (fun _ => hmake) fun _ => hwrite
  unfold extractMember
  refine (local_nodeIfAny htarget.parent).bind fun above => ?_
  exact Local.ite (fun _ => (local_makeMissing _ htarget.parent).bind fun _ => hrest)
    fun _ => hrest

theorem local_extractMembers (archive : List UInt8) (hdest : destination.isAbsolute = true)
    (all : List Member) :
    Local around₁ around₂ (goalOf [] destination) ways
      (extractMembers archive destination all) :=
  Local.forM fun _ _ => local_extractMember hunpacker archive hdest _

end Members

end StagedBuild.Archive
