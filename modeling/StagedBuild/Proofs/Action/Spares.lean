import StagedBuild.Proofs.Action.Directories
import StagedBuild.Proofs.Action.RemoveTree

/-!
What an action spares. Outside the places that it may touch, the only changes of the disk are new
directories, so every file there is kept and none comes. A second relation tells that the disk stays
well formed although one directory may go away with everything below it.
-/

namespace StagedBuild.Disk

open Action FileTree

variable {around : Surroundings} {w w' : World} {p : Path} {t t' : FileTree}
  {touched more : Location → Prop}

/-- Outside certain places the only changes of a disk are new directories. -/
def Spares (touched : Location → Prop) (t t' : FileTree) : Prop :=
  ∀ q, ¬ touched q →
    t'.node? q = t.node? q ∨ t.node? q = none ∧ t'.node? q = some .directory

namespace Spares

theorem refl (touched : Location → Prop) (t : FileTree) : Spares touched t t :=
  fun _ _ => .inl rfl

theorem trans {t'' : FileTree} (h : Spares touched t t') (h' : Spares touched t' t'') :
    Spares touched t t'' := by
  intro q hq
  rcases h' q hq with heq | ⟨hnone, hdir⟩
  · rw [heq]
    exact h q hq
  · rcases h q hq with heq | ⟨-, hdir'⟩
    · exact .inr ⟨heq ▸ hnone, hdir⟩
    · rw [hnone] at hdir'
      cases hdir'

theorem mono (h : Spares touched t t') (hmore : ∀ q, touched q → more q) : Spares more t t' :=
  fun q hq => h q fun htouched => hq (hmore q htouched)

theorem node?_of_some (h : Spares touched t t') {q : Location} (hq : ¬ touched q) {node : Node}
    (hnode : t.node? q = some node) : t'.node? q = some node := by
  rcases h q hq with heq | ⟨hnone, -⟩
  · rw [heq, hnode]
  · rw [hnone] at hnode
    cases hnode

theorem node?_of_file (h : Spares touched t t') {q : Location} (hq : ¬ touched q) {f : File}
    (hfile : t'.node? q = some (.file f)) : t.node? q = some (.file f) := by
  rcases h q hq with heq | ⟨-, hdir⟩
  · rw [← heq, hfile]
  · rw [hdir] at hfile
    cases hfile

theorem file?_eq (h : Spares touched t t') {q : Location} (hq : ¬ touched q) :
    t'.file? q = t.file? q := by
  rcases h q hq with heq | ⟨hnone, hdir⟩
  · rw [file?, heq, file?]
  · rw [file?, hdir, file?, hnone]

theorem isFile_eq (h : Spares touched t t') {q : Location} (hq : ¬ touched q) :
    t'.isFile q = t.isFile q := by
  simp only [FileTree.isFile, h.file?_eq hq]

theorem isDirectory (h : Spares touched t t') {q : Location} (hq : ¬ touched q)
    (hdir : t.isDirectory q = true) : t'.isDirectory q = true :=
  isDirectory_iff.2 (h.node?_of_some hq (isDirectory_iff.1 hdir))

theorem isOccupied (h : Spares touched t t') {q : Location} (hq : ¬ touched q)
    (hocc : t.isOccupied q = true) : t'.isOccupied q = true := by
  obtain ⟨node, hnode⟩ := isOccupied_iff.1 hocc
  exact isOccupied_iff.2 ⟨node, h.node?_of_some hq hnode⟩

theorem of_directoriesAdded {places : Location → Prop} (h : DirectoriesAdded places w w') :
    Spares touched w.tree w'.tree := by
  intro q _
  rcases h q with heq | ⟨-, hnone, hdir⟩
  · exact .inl heq
  · exact .inr ⟨hnone, hdir⟩

end Spares

/-- From one world to another the disk is spared outside certain places. -/
def Sparing (touched : Location → Prop) (w w' : World) : Prop :=
  Spares touched w.tree w'.tree

namespace Sparing

instance : Passage (Sparing touched) where
  refl w := .refl touched w.tree
  trans h h' := Spares.trans h h'

theorem of_tree_eq (h : w'.tree = w.tree) : Sparing touched w w' := by
  rw [Sparing, h]
  exact .refl touched w.tree

end Sparing

/-- From one world to another nothing changes outside certain places. -/
def SameOutside (touched : Location → Prop) (w w' : World) : Prop :=
  ∀ q, ¬ touched q → w'.tree.node? q = w.tree.node? q

namespace SameOutside

instance : OfTree (SameOutside touched) where
  refl _ := fun _ _ => rfl
  trans h h' := fun q hq => (h' q hq).trans (h q hq)
  same _ _ h := fun q _ => by rw [h]

theorem sparing (h : SameOutside touched w w') : Sparing touched w w' :=
  fun q hq => .inl (h q hq)

theorem mono (h : SameOutside touched w w') (hmore : ∀ q, touched q → more q) :
    SameOutside more w w' :=
  fun q hq => h q fun htouched => hq (hmore q htouched)

end SameOutside

section SameOutside

theorem sameOutside_unlink (hp : touched (goalOf around.directory p)) :
    Keeps around (SameOutside touched) (unlink p) := by
  refine keeps_unlink_at fun w loc _ hloc hfile q hq => ?_
  obtain rfl := (locate_eq_ok_iff.1 hloc).1
  rw [node?_remove (ne_nil_of_isFile hfile), if_neg]
  rintro rfl
  exact hq hp

theorem sameOutside_write (hp : touched (goalOf around.directory p)) (bytes : List UInt8) :
    Keeps around (SameOutside touched) (change p fun t cwd => t.write cwd p bytes) := by
  refine keeps_write_at fun w loc _ hloc hnot q hq => ?_
  obtain rfl := (locate_eq_ok_iff.1 hloc).1
  have hne : goalOf around.directory p ≠ [] := by
    intro hnil
    rw [hnil] at hnot
    exact hnot (isDirectory_iff.2 (node?_nil _))
  rw [node?_writeFile hne, if_neg]
  rintro rfl
  exact hq hp

theorem sameOutside_writeBytes (hp : touched (goalOf around.directory p)) (bytes : List UInt8) :
    Keeps around (SameOutside touched) (writeBytes p bytes) :=
  (sameOutside_write hp []).bind fun _ => sameOutside_write hp bytes

end SameOutside

section Sparing

variable (touched)

theorem sparing_note (event : Event) : Keeps around (Sparing touched) (note event) :=
  Keeps.note fun _ => .of_tree_eq rfl

theorem sparing_makeDirectories (p : Path) :
    Keeps around (Sparing touched) (makeDirectories p) :=
  (adds_makeDirectories around p).mono fun _ _ h => .of_directoriesAdded h

theorem sparing_makeDirectory (p : Path) : Keeps around (Sparing touched) (makeDirectory p) := by
  refine keeps_makeDirectory_at fun w loc _ _ hfree q _ => ?_
  have hne : loc ≠ [] := by
    rintro rfl
    exact hfree (isOccupied_iff.2 ⟨_, node?_nil _⟩)
  by_cases hq : q = loc
  · subst hq
    exact .inr ⟨not_isOccupied_iff.1 hfree, by rw [node?_add hne, if_pos rfl]⟩
  · exact .inl (by rw [node?_add hne, if_neg hq])

variable {touched}

theorem sparing_unlink (hp : touched (goalOf around.directory p)) :
    Keeps around (Sparing touched) (unlink p) :=
  (sameOutside_unlink hp).mono fun _ _ h => h.sparing

theorem sparing_write (hp : touched (goalOf around.directory p)) (bytes : List UInt8) :
    Keeps around (Sparing touched) (change p fun t cwd => t.write cwd p bytes) :=
  (sameOutside_write hp bytes).mono fun _ _ h => h.sparing

theorem sparing_writeBytes (hp : touched (goalOf around.directory p)) (bytes : List UInt8) :
    Keeps around (Sparing touched) (writeBytes p bytes) :=
  (sameOutside_writeBytes hp bytes).mono fun _ _ h => h.sparing

theorem sparing_appendBytes (hp : touched (goalOf around.directory p)) (bytes : List UInt8) :
    Keeps around (Sparing touched) (appendBytes p bytes) :=
  (Keeps.of_readOnly (readOnly_readBytes p)).bind fun _ => sparing_write hp _

end Sparing

/-- The disk is well formed afterwards if it was before, directories go away only with one location,
and a property of the disk is kept. The directory from which paths start lies elsewhere, and is
there. -/
def Sturdy (gone dir : Location) (P : FileTree → Prop) (w w' : World) : Prop :=
  ¬ gone <+: dir → w.tree.WellFormed → w.tree.isDirectory dir = true → P w.tree →
    w'.tree.WellFormed ∧
      (∀ loc, ¬ gone <+: loc → w.tree.isDirectory loc = true → w'.tree.isDirectory loc = true) ∧
      P w'.tree

namespace Sturdy

variable {gone dir : Location} {P : FileTree → Prop}

instance : Passage (Sturdy gone dir P) where
  refl _ := fun _ hw _ hP => ⟨hw, fun _ _ h => h, hP⟩
  trans := by
    intro u v w huv hvw hout hu hdir hP
    obtain ⟨hv, hdirs, hPv⟩ := huv hout hu hdir hP
    obtain ⟨hw, hdirs', hPw⟩ := hvw hout hv (hdirs dir hout hdir) hPv
    exact ⟨hw, fun loc hloc h => hdirs' loc hloc (hdirs loc hloc h), hPw⟩

theorem of_sound (h : Sound dir w w') (hP : P w.tree → P w'.tree) : Sturdy gone dir P w w' := by
  intro _ hw hdir hPw
  obtain ⟨hw', hdirs⟩ := h hw hdir
  exact ⟨hw', fun loc _ hloc => hdirs loc hloc, hP hPw⟩

theorem of_keeps {α : Type} {action : Action α} (hsound : Keeps around (Sound dir) action)
    (hsparing : Keeps around (Sparing touched) action)
    (hP : ∀ t t', Spares touched t t' → P t → P t') : Keeps around (Sturdy gone dir P) action :=
  fun w => of_sound (hsound w) (hP _ _ (hsparing w))

end Sturdy

/-- What is below a location has gone, maybe with the location, and all else is as before. -/
def Gone (gone : Location) (t t' : FileTree) : Prop :=
  ∀ q, t'.node? q = t.node? q ∨ gone <+: q ∧ t'.node? q = none

theorem gone_of_removeTree (p : Path) (around : Surroundings) (w : World) :
    Gone (goalOf around.directory p) w.tree (perform (removeTree p) around w).2.tree := by
  rcases perform_removeTree p around w with
    ⟨fault, hfault⟩ | ⟨fault, w', hfault, hemptied⟩ | ⟨w', hok, hremoved⟩
  · rw [hfault]
    exact fun q => .inl rfl
  · rw [hfault]
    intro q
    by_cases hbelow : isBelow (goalOf around.directory p) q = true
    · refine .inr ⟨?_, (hemptied q).trans (if_pos hbelow)⟩
      obtain ⟨way, -, rfl⟩ := isBelow_iff.1 hbelow
      exact List.prefix_append _ _
    · exact .inl ((hemptied q).trans (if_neg hbelow))
  · rw [hok]
    intro q
    by_cases hbelow : goalOf around.directory p <+: q
    · refine .inr ⟨hbelow, ?_⟩
      obtain ⟨way, rfl⟩ := hbelow
      exact hremoved.node?_below way
    · exact .inl (hremoved.node?_elsewhere hbelow)

theorem sparing_removeTree (hp : ∀ q, goalOf around.directory p <+: q → touched q) :
    Keeps around (Sparing touched) (removeTree p) := by
  intro w q hq
  exact .inl ((gone_of_removeTree p around w q).resolve_right fun h => hq (hp q h.1))

theorem wellFormed_of_removeTree (p : Path) (around : Surroundings) (hw : w.tree.WellFormed) :
    (perform (removeTree p) around w).2.tree.WellFormed := by
  rcases perform_removeTree p around w with
    ⟨fault, hfault⟩ | ⟨fault, w', hfault, hemptied⟩ | ⟨w', hok, hremoved⟩
  · rw [hfault]
    exact hw
  · rw [hfault]
    have hbelow : ∀ (q : Location) name, isBelow (goalOf around.directory p) q = true →
        isBelow (goalOf around.directory p) (q ++ [name]) = true := by
      intro q name hq
      obtain ⟨way, -, rfl⟩ := isBelow_iff.1 hq
      rw [List.append_assoc]
      exact isBelow_append.2 (by simp)
    exact hw.prune hbelow (fun q hq => by rw [hemptied, if_pos hq])
      fun q hq => by rw [hemptied, if_neg hq]
  · rw [hok]
    exact hremoved.wellFormed hw

theorem sturdy_removeTree (dir : Location) (p : Path) {P : FileTree → Prop}
    (hP : ∀ t t', Gone (goalOf around.directory p) t t' → P t → P t') :
    Keeps around (Sturdy (goalOf around.directory p) dir P) (removeTree p) := by
  intro w _ hw _ hPw
  have hgone := gone_of_removeTree p around w
  refine ⟨wellFormed_of_removeTree p around hw, fun loc hloc h => ?_, hP _ _ hgone hPw⟩
  rcases hgone loc with heq | ⟨hbelow, -⟩
  · exact isDirectory_congr heq ▸ h
  · exact absurd hbelow hloc

theorem of_perform_writeBytes {bytes : List UInt8}
    (h : perform (writeBytes p bytes) around w = (.ok (), w')) :
    ∃ f : File, f.bytes = bytes ∧ ∀ q, w'.tree.node? q =
      if q = goalOf around.directory p then some (.file f) else w.tree.node? q := by
  obtain ⟨_, v, htruncate, -⟩ := perform_bind_eq_ok.1 h
  have hreached : isAskable p = true ∧
      w.tree.locate around.directory p = .ok (goalOf around.directory p) := by
    rw [truncate, perform_change] at htruncate
    split at htruncate
    · rename_i hask
      split at htruncate
      · rename_i t ht
        obtain ⟨loc, hloc, -, -⟩ := exists_of_write ht
        obtain rfl := (locate_eq_ok_iff.1 hloc).1
        exact ⟨hask, hloc⟩
      · cases htruncate
    · cases htruncate
  rcases perform_writeBytes hreached.1 hreached.2 bytes with
    ⟨-, herror⟩ | ⟨-, v', f, hok, hf, hnodes⟩
  · rw [herror] at h
    cases h
  · rw [hok] at h
    cases h
    exact ⟨f, hf, hnodes⟩

/-- A well formed disk that has a property stays well formed and keeps the property, directories go
away only with one location, and the disk is spared outside certain places. -/
def Framed (gone : Location) (P : FileTree → Prop) (touched : Location → Prop) (w w' : World) :
    Prop :=
  w.tree.WellFormed → P w.tree →
    w'.tree.WellFormed ∧
      (∀ loc, ¬ gone <+: loc → w.tree.isDirectory loc = true → w'.tree.isDirectory loc = true) ∧
      Spares touched w.tree w'.tree ∧ P w'.tree

namespace Framed

variable {gone : Location} {P : FileTree → Prop}

instance : Passage (Framed gone P touched) where
  refl _ := fun hw hP => ⟨hw, fun _ _ h => h, .refl _ _, hP⟩
  trans := by
    intro u v w huv hvw hu hPu
    obtain ⟨hv, hdirs, hspares, hPv⟩ := huv hu hPu
    obtain ⟨hw, hdirs', hspares', hPw⟩ := hvw hv hPv
    exact ⟨hw, fun loc hloc h => hdirs' loc hloc (hdirs loc hloc h), hspares.trans hspares', hPw⟩

theorem of_tree_eq (h : w'.tree = w.tree) : Framed gone P touched w w' := by
  intro hw hP
  rw [h]
  exact ⟨hw, fun _ _ hloc => hloc, .refl _ _, hP⟩

end Framed

end StagedBuild.Disk
