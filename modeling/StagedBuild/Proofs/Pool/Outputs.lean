import StagedBuild.Proofs.Action.Alike
import StagedBuild.Proofs.Action.Spares
import StagedBuild.Proofs.Pool.Calls

/-!
Calls that write one file each. What a call may change is settled by its place, so what a run of
calls may change is settled by the places of its items. If no call reads a file that another one
writes, what becomes of a call is settled by the disk on which the calls start, so a run of them
comes to the same in every order.
-/

namespace StagedBuild

section Places

open Action FileTree

namespace FileTree

variable {t t' : FileTree} {places more : Location → Prop} {q : Location}

/-- Files have come, changed or gone at some places; everything else is as before. -/
def FilesChanged (places : Location → Prop) (t t' : FileTree) : Prop :=
  ∀ q, t'.node? q = t.node? q ∨
    places q ∧ ¬ t.isDirectory q = true ∧ ¬ t'.isDirectory q = true

namespace FilesChanged

theorem refl (places : Location → Prop) (t : FileTree) : FilesChanged places t t :=
  fun _ => .inl rfl

theorem trans {t'' : FileTree} (h : FilesChanged places t t') (h' : FilesChanged places t' t'') :
    FilesChanged places t t'' := by
  intro q
  rcases h' q with heq | ⟨hplace, hnot, hnot'⟩
  · rcases h q with heq' | ⟨hplace, hnot, hnot'⟩
    · exact .inl (heq.trans heq')
    · exact .inr ⟨hplace, hnot, isDirectory_congr heq ▸ hnot'⟩
  · rcases h q with heq | ⟨-, hnot₀, -⟩
    · exact .inr ⟨hplace, isDirectory_congr heq ▸ hnot, hnot'⟩
    · exact .inr ⟨hplace, hnot₀, hnot'⟩

theorem mono (h : FilesChanged places t t') (hmore : ∀ q, places q → more q) :
    FilesChanged more t t' :=
  fun q => (h q).imp_right fun hq => ⟨hmore q hq.1, hq.2⟩

theorem node?_eq (h : FilesChanged places t t') (hq : ¬ places q) : t'.node? q = t.node? q :=
  (h q).resolve_right fun hchanged => hq hchanged.1

theorem spares (h : FilesChanged places t t') (hmore : ∀ q, places q → more q) :
    Disk.Spares more t t' :=
  fun _ hq => .inl (h.node?_eq fun hplace => hq (hmore _ hplace))

theorem of_put {f : File} (hnot : ¬ t.isDirectory q = true)
    (hnodes : ∀ p, t'.node? p = if p = q then some (.file f) else t.node? p) :
    FilesChanged (· = q) t t' := by
  intro p
  by_cases hp : p = q
  · subst hp
    refine .inr ⟨rfl, hnot, fun hdir => ?_⟩
    exact not_isFile_of_isDirectory hdir (isFile_iff.2 ⟨f, by rw [hnodes, if_pos rfl]⟩)
  · exact .inl (by rw [hnodes, if_neg hp])

theorem isDirectory_eq (h : FilesChanged places t t') (q : Location) :
    t'.isDirectory q = t.isDirectory q := by
  rcases h q with heq | ⟨-, hnot, hnot'⟩
  · exact isDirectory_congr heq
  · rw [Bool.not_eq_true] at hnot hnot'
    rw [hnot, hnot']

end FilesChanged

end FileTree

variable {around : Surroundings} {call : Invocation} {place : Location} {w w' : World}
  {reply : ToolReply}

/-- Whatever becomes of a call, it changes nothing but the file at its place. -/
def Confined (around : Surroundings) (call : Invocation) (place : Location) : Prop :=
  ∀ w : World, w.tree.WellFormed →
    (around.tool call w).2.WellFormed ∧
      FilesChanged (· = place) w.tree (around.tool call w).2

/-- A call that succeeds leaves a file at its place and changes nothing else. -/
def Delivers (around : Surroundings) (call : Invocation) (place : Location) : Prop :=
  ∀ w : World, w.tree.WellFormed → (around.tool call w).1.isSuccess = true →
    (around.tool call w).2.WellFormed ∧
      FilesChanged (· = place) w.tree (around.tool call w).2 ∧
      (around.tool call w).2.isFile place = true

theorem Ran.exists_call (h : Ran around call w reply w') :
    ∃ v : World, v.tree = w.tree ∧ (around.tool call v).1 = reply ∧
      (around.tool call v).2 = w'.tree := by
  obtain ⟨v, -, htree, htool, -⟩ := h
  exact ⟨v, htree, congrArg Prod.fst htool, congrArg Prod.snd htool⟩

theorem Confined.of_ran (h : Confined around call place) (hran : Ran around call w reply w')
    (hwf : w.tree.WellFormed) :
    w'.tree.WellFormed ∧ FilesChanged (· = place) w.tree w'.tree := by
  obtain ⟨v, htree, -, hleft⟩ := hran.exists_call
  have hv := h v (htree ▸ hwf)
  rwa [htree, hleft] at hv

theorem Delivers.of_ran (h : Delivers around call place) (hran : Ran around call w reply w')
    (hsuccess : reply.isSuccess = true) (hwf : w.tree.WellFormed) :
    w'.tree.WellFormed ∧ FilesChanged (· = place) w.tree w'.tree ∧
      w'.tree.isFile place = true := by
  obtain ⟨v, htree, hreply, hleft⟩ := hran.exists_call
  have hv := h v (htree ▸ hwf) (hreply ▸ hsuccess)
  rwa [htree, hleft] at hv

namespace Pool

variable {α : Type} {call : α → Invocation} {answered : List (Answered α)}

/-- The places of the items that were called for. -/
def placesOf (place : α → Location) (answered : List (Answered α)) (q : Location) : Prop :=
  ∃ a ∈ answered, q = place a.item

theorem RanAll.confined (hran : RanAll around call w answered w') (place : α → Location)
    (h : ∀ a ∈ answered, Confined around (call a.item) (place a.item)) (hwf : w.tree.WellFormed) :
    w'.tree.WellFormed ∧ FilesChanged (placesOf place answered) w.tree w'.tree := by
  induction hran with
  | nil w => exact ⟨hwf, .refl _ _⟩
  | @cons w w₁ w' a rest hfirst _ ih =>
      obtain ⟨hwf₁, hchanged⟩ := (h a (by simp)).of_ran hfirst hwf
      obtain ⟨hwf', hrest⟩ := ih (fun b hb => h b (List.mem_cons_of_mem _ hb)) hwf₁
      refine ⟨hwf', (hchanged.mono ?_).trans (hrest.mono ?_)⟩
      · rintro q rfl
        exact ⟨a, by simp, rfl⟩
      · rintro q ⟨b, hb, hq⟩
        exact ⟨b, List.mem_cons_of_mem _ hb, hq⟩

/-- A file that is there after calls was there before, or the last call that wrote in its place
wrote it. -/
theorem RanAll.exists_writer (hran : RanAll around call w answered w') (place : α → Location)
    (h : ∀ a ∈ answered, Confined around (call a.item) (place a.item))
    (hwf : w.tree.WellFormed) {q : Location} {f : File}
    (hf : w'.tree.node? q = some (.file f)) :
    w.tree.node? q = some (.file f) ∨ ∃ a ∈ answered, place a.item = q ∧ ∃ v v',
      Ran around (call a.item) v a.reply v' ∧ Later w v ∧ Later v' w' ∧
        v.tree.node? q ≠ some (.file f) ∧ v'.tree.node? q = some (.file f) := by
  induction hran with
  | nil w => exact .inl hf
  | @cons w w₁ w' a rest hfirst hrest ih =>
      obtain ⟨hwf₁, hchanged⟩ := (h a (by simp)).of_ran hfirst hwf
      rcases ih (fun b hb => h b (List.mem_cons_of_mem _ hb)) hwf₁ hf with
        hbefore | ⟨b, hb, hplace, v, v', hran, hlater, hrest', hwrote⟩
      · by_cases hsame : w.tree.node? q = some (.file f)
        · exact .inl hsame
        · refine .inr ⟨a, by simp, ?_, w, w₁, hfirst, .refl w, hrest.later, hsame,
            hbefore⟩
          by_contra hplace
          rw [hchanged.node?_eq (Ne.symm hplace)] at hbefore
          exact hsame hbefore
      · exact .inr ⟨b, List.mem_cons_of_mem _ hb, hplace, v, v', hran,
          hfirst.later.trans hlater, hrest', hwrote⟩

/-- Calls that all succeed leave all their files. No file goes away meanwhile: what a call changes
it writes. -/
theorem RanAll.delivered (hran : RanAll around call w answered w') (place : α → Location)
    (h : ∀ a ∈ answered, Delivers around (call a.item) (place a.item))
    (hsucceeded : ∀ a ∈ answered, a.reply.isSuccess = true) (hwf : w.tree.WellFormed) :
    w'.tree.WellFormed ∧ FilesChanged (placesOf place answered) w.tree w'.tree ∧
      (∀ a ∈ answered, w'.tree.isFile (place a.item) = true) ∧
      ∀ q, w.tree.isFile q = true → w'.tree.isFile q = true := by
  induction hran with
  | nil w => exact ⟨hwf, .refl _ _, by simp, fun _ hq => hq⟩
  | @cons w w₁ w' a rest hfirst _ ih =>
      obtain ⟨hwf₁, hchanged, hfile⟩ :=
        (h a (by simp)).of_ran hfirst (hsucceeded a (by simp)) hwf
      obtain ⟨hwf', hrest, hfiles, hkept⟩ := ih (fun b hb => h b (List.mem_cons_of_mem _ hb))
        (fun b hb => hsucceeded b (List.mem_cons_of_mem _ hb)) hwf₁
      refine ⟨hwf', (hchanged.mono ?_).trans (hrest.mono ?_),
        List.forall_mem_cons.2 ⟨hkept _ hfile, hfiles⟩, fun q hq => hkept q ?_⟩
      · rintro q rfl
        exact ⟨a, by simp, rfl⟩
      · rintro q ⟨b, hb, hq⟩
        exact ⟨b, List.mem_cons_of_mem _ hb, hq⟩
      · by_cases hplace : q = place a.item
        · rw [hplace]
          exact hfile
        · exact isFile_congr (hchanged.node?_eq hplace) ▸ hq

end Pool

end Places

section Orders

open Action FileTree

variable {around around' : Surroundings} {objects : Location → Prop} {call : Invocation}
  {place : Location}

/-- The reply to a call and the file at its place do not go by the objects in other places. -/
def IgnoresOthers (around : Surroundings) (objects : Location → Prop) (call : Invocation)
    (place : Location) : Prop :=
  ∀ w w' : World, w.tree.WellFormed → w'.tree.WellFormed →
    FilesChanged (fun q => objects q ∧ q ≠ place) w.tree w'.tree →
      (around.tool call w').1 = (around.tool call w).1 ∧
        (around.tool call w').2.node? place = (around.tool call w).2.node? place

/-- Whatever becomes of a call, it changes nothing but the object at its place, and reads no other
object. -/
structure Separate (around : Surroundings) (objects : Location → Prop) (call : Invocation)
    (place : Location) : Prop where
  confined : Confined around call place
  ignores : IgnoresOthers around objects call place

namespace FileTree

variable {t t' : FileTree}

theorem SameNodes.wellFormed (h : SameNodes t t') (ht : t.WellFormed) : t'.WellFormed :=
  ht.congr fun q => (h q).symm

theorem SameNodes.filesChanged (h : SameNodes t t') (places : Location → Prop) :
    FilesChanged places t t' :=
  fun q => .inl (h q).symm

end FileTree

namespace Pool

variable {α : Type} {call : α → Invocation} {place : α → Location}
  {answered answered' : List (Answered α)} {w v w' v' : World}

theorem RanAll.congr (h : RanAll around' call w answered w')
    (htool : around'.tool = around.tool) : RanAll around call w answered w' := by
  induction h with
  | nil w => exact .nil w
  | cons hfirst _ ih =>
      refine .cons ?_ ih
      obtain ⟨v, hsilent, htree, hreply, hhistory⟩ := hfirst
      exact ⟨v, hsilent, htree, htool ▸ hreply, hhistory⟩

/-- Each call has become of what it would have been on the disk on which the calls start. -/
theorem RanAll.own (hran : RanAll around call w answered w')
    (h : ∀ a ∈ answered, Separate around objects (call a.item) (place a.item))
    (hobjects : ∀ a ∈ answered, objects (place a.item))
    (hplaces : (answered.map fun a => place a.item).Nodup) (hwf : w.tree.WellFormed) :
    ∀ a ∈ answered, a.reply = (around.tool (call a.item) w).1 ∧
      w'.tree.node? (place a.item) = (around.tool (call a.item) w).2.node? (place a.item) := by
  induction hran with
  | nil w => simp
  | @cons w w₁ w' a rest hfirst hrest ih =>
      obtain ⟨hnot, hplaces⟩ := List.nodup_cons.1 hplaces
      obtain ⟨hsep, hseps⟩ := List.forall_mem_cons.1 h
      obtain ⟨hobject, hobjects⟩ := List.forall_mem_cons.1 hobjects
      obtain ⟨hwf₁, hchanged⟩ := hsep.confined.of_ran hfirst hwf
      obtain ⟨-, hkept⟩ := hrest.confined place (fun b hb => (hseps b hb).confined) hwf₁
      refine List.forall_mem_cons.2 ⟨?_, fun b hb => ?_⟩
      · obtain ⟨u, htree, hreply, hleft⟩ := hfirst.exists_call
        obtain ⟨hsame, hfile⟩ := hsep.ignores w u hwf (htree ▸ hwf) (htree ▸ .refl _ _)
        -- the later calls have other places
        have hlater : ¬ placesOf place rest (place a.item) := fun ⟨b, hb, heq⟩ =>
          hnot (List.mem_map.2 ⟨b, hb, heq.symm⟩)
        exact ⟨hreply.symm.trans hsame, by rw [hkept.node?_eq hlater, ← hleft, hfile]⟩
      · have hne : place a.item ≠ place b.item := fun heq =>
          hnot (List.mem_map.2 ⟨b, hb, heq.symm⟩)
        obtain ⟨hreply, hfile⟩ := ih hseps hobjects hplaces hwf₁ b hb
        obtain ⟨hsame, hsame'⟩ := (hseps b hb).ignores w w₁ hwf hwf₁
          (hchanged.mono fun q hq => hq ▸ ⟨hobject, hne⟩)
        exact ⟨hreply.trans hsame, hfile.trans hsame'⟩

theorem map_reply_of_own (h : ∀ a ∈ answered, a.reply = (around.tool (call a.item) w).1) :
    (answered.map fun a => (a.item, a.reply)) =
      (answered.map Answered.item).map fun x => (x, (around.tool (call x) w).1) := by
  rw [List.map_map]
  exact List.map_congr_left fun a ha => by simp [h a ha]

/-- Calls for the same items, in any order, on disks with the same entries: every call has the same
reply, and the disks have the same entries afterwards. -/
theorem RanAll.agree (hran : RanAll around call w answered w')
    (hran' : RanAll around call v answered' v') (hsame : SameNodes w.tree v.tree)
    (hperm : (answered.map Answered.item).Perm (answered'.map Answered.item))
    (h : ∀ a ∈ answered, Separate around objects (call a.item) (place a.item))
    (hobjects : ∀ a ∈ answered, objects (place a.item))
    (hplaces : (answered.map fun a => place a.item).Nodup) (hwf : w.tree.WellFormed) :
    SameNodes w'.tree v'.tree ∧
      (answered.map fun a => (a.item, a.reply)).Perm
        (answered'.map fun a => (a.item, a.reply)) := by
  have hwf' := hsame.wellFormed hwf
  have hitem : ∀ b ∈ answered', ∃ a ∈ answered, a.item = b.item := fun b hb =>
    List.mem_map.1 (hperm.symm.subset (List.mem_map_of_mem hb))
  have hitem' : ∀ a ∈ answered, ∃ b ∈ answered', b.item = a.item := fun a ha =>
    List.mem_map.1 (hperm.subset (List.mem_map_of_mem ha))
  have h' : ∀ b ∈ answered', Separate around objects (call b.item) (place b.item) := fun b hb => by
    obtain ⟨a, ha, heq⟩ := hitem b hb
    exact heq ▸ h a ha
  have hobjects' : ∀ b ∈ answered', objects (place b.item) := fun b hb => by
    obtain ⟨a, ha, heq⟩ := hitem b hb
    exact heq ▸ hobjects a ha
  have hplaces' : (answered'.map fun b => place b.item).Nodup := by
    have hmap := hperm.map place
    simp only [List.map_map, Function.comp_def] at hmap
    exact hmap.nodup_iff.1 hplaces
  have hown := hran.own h hobjects hplaces hwf
  have hown' := hran'.own h' hobjects' hplaces' hwf'
  have hstart : ∀ a ∈ answered, (around.tool (call a.item) v).1 = (around.tool (call a.item) w).1 ∧
      (around.tool (call a.item) v).2.node? (place a.item) =
        (around.tool (call a.item) w).2.node? (place a.item) := fun a ha =>
    (h a ha).ignores w v hwf hwf' (hsame.filesChanged _)
  obtain ⟨-, hchanged⟩ := hran.confined place (fun a ha => (h a ha).confined) hwf
  obtain ⟨-, hchanged'⟩ := hran'.confined place (fun b hb => (h' b hb).confined) hwf'
  refine ⟨fun q => ?_, ?_⟩
  · by_cases hq : placesOf place answered q
    · obtain ⟨a, ha, rfl⟩ := hq
      obtain ⟨b, hb, heq⟩ := hitem' a ha
      rw [(hown a ha).2, ← (hstart a ha).2, ← heq, (hown' b hb).2]
    · have hq' : ¬ placesOf place answered' q := by
        rintro ⟨b, hb, rfl⟩
        obtain ⟨a, ha, heq⟩ := hitem b hb
        exact hq ⟨a, ha, by rw [heq]⟩
      rw [hchanged.node?_eq hq, hchanged'.node?_eq hq', hsame q]
  · -- the reply is settled by the item
    have hreply' : ∀ b ∈ answered', b.reply = (around.tool (call b.item) w).1 := fun b hb => by
      obtain ⟨a, ha, heq⟩ := hitem b hb
      rw [(hown' b hb).1, ← heq, (hstart a ha).1]
    rw [map_reply_of_own fun a ha => (hown a ha).1, map_reply_of_own hreply']
    exact hperm.map _

end Pool

end Orders

end StagedBuild
