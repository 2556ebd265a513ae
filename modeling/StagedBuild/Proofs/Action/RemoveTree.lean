import StagedBuild.Proofs.Action.Below

/-!
Taking a directory away with everything below it. When that fails half-way, the directory is still
there and empty; in no case anything else changes.
-/

namespace StagedBuild

open Action FileTree

variable {t t' : FileTree} {base : Location} {around : Surroundings} {w w' : World} {p : Path}

namespace FileTree

theorem node?_foldl_remove {locs : List Location} (h : ∀ loc ∈ locs, loc ≠ []) (q : Location) :
    (locs.foldl remove t).node? q = if q ∈ locs then none else t.node? q := by
  induction locs generalizing t with
  | nil => simp
  | cons loc locs ih =>
      rw [List.foldl_cons, ih fun l hl => h l (List.mem_cons_of_mem _ hl),
        node?_remove (h loc (by simp))]
      by_cases hq : q ∈ locs
      · simp [hq]
      · simp [hq, List.mem_cons]

/-- The trees that are left while entries are taken away one after the other. -/
def snapshots (t : FileTree) : List Location → List FileTree
  | [] => []
  | loc :: locs => t.remove loc :: snapshots (t.remove loc) locs

theorem removalOrder_perm (wished doomed : List Location) :
    (removalOrder wished doomed).Perm doomed := by
  induction wished generalizing doomed with
  | nil => exact .refl _
  | cons loc wished ih =>
      refine ((ih _).append_left _).trans ?_
      simpa using List.filter_append_perm (loc.isPrefixOf ·) doomed

theorem clearings_eq (t : FileTree) (wished : List Location) (base : Location) :
    t.clearings wished base = t.snapshots (removalOrder wished (t.doomed base)) := by
  have hfold : ∀ (locs : List Location) (before : List FileTree) (t : FileTree),
      (locs.foldl (fun (acc : List FileTree × FileTree) loc =>
        (remove acc.2 loc :: acc.1, remove acc.2 loc)) (before, t)).1 =
        (t.snapshots locs).reverse ++ before := by
    intro locs
    induction locs with
    | nil => intro before t; rfl
    | cons loc locs ih =>
        intro before t
        rw [List.foldl_cons, ih, snapshots, List.reverse_cons, List.append_assoc]
        rfl
  refine (congrArg List.reverse (hfold _ [] t)).trans ?_
  rw [List.append_nil, List.reverse_reverse]

theorem mem_doomed {q : Location} :
    q ∈ t.doomed base ↔ isBelow base q = true ∧ t.isOccupied q = true := by
  simp only [doomed, List.mem_reverse, List.mem_map, List.mem_filter, Prod.exists,
    exists_and_right, exists_eq_right]
  constructor
  · rintro ⟨⟨entry, hmem⟩, hbelow⟩
    rw [Std.TreeMap.mem_toList_iff_getElem?_eq_some] at hmem
    obtain ⟨way, hway, rfl⟩ := isBelow_iff.1 hbelow
    refine ⟨hbelow, isOccupied_iff.2 ⟨entry.node, ?_⟩⟩
    rw [node?_of_ne_nil _ (by simp [hway]), hmem]
    rfl
  · rintro ⟨hbelow, hocc⟩
    obtain ⟨way, hway, rfl⟩ := isBelow_iff.1 hbelow
    obtain ⟨node, hnode⟩ := isOccupied_iff.1 hocc
    rw [node?_of_ne_nil _ (by simp [hway]), Option.map_eq_some_iff] at hnode
    obtain ⟨entry, hentry, -⟩ := hnode
    exact ⟨⟨entry, Std.TreeMap.mem_toList_iff_getElem?_eq_some.2 hentry⟩, hbelow⟩

theorem mem_removalOrder {wished : List Location} {q : Location} :
    q ∈ removalOrder wished (t.doomed base) ↔ isBelow base q = true ∧ t.isOccupied q = true :=
  (removalOrder_perm wished _).mem_iff.trans mem_doomed

/-- Nothing is left below the location, and all else is as before, whatever order is wished. -/
theorem node?_cleared (t : FileTree) (wished : List Location) (base q : Location) :
    ((removalOrder wished (t.doomed base)).foldl remove t).node? q =
      if isBelow base q = true then none else t.node? q := by
  rw [node?_foldl_remove]
  · by_cases hbelow : isBelow base q = true
    · rw [if_pos hbelow]
      split
      · rfl
      · rename_i hnot
        exact not_isOccupied_iff.1 fun hocc => hnot (mem_removalOrder.2 ⟨hbelow, hocc⟩)
    · rw [if_neg hbelow, if_neg fun hmem => hbelow (mem_removalOrder.1 hmem).1]
  · rintro loc hloc rfl
    simp [mem_removalOrder, isBelow] at hloc

theorem WellFormed.prune (h : t.WellFormed) {gone : Location → Prop}
    (hbelow : ∀ q name, gone q → gone (q ++ [name]))
    (hgone : ∀ q, gone q → t'.node? q = none)
    (hkept : ∀ q, ¬ gone q → t'.node? q = t.node? q) : t'.WellFormed := by
  have hocc : ∀ q, t'.isOccupied q = true → ¬ gone q ∧ t.isOccupied q = true := by
    intro q hq
    have hnot : ¬ gone q := fun hg => not_isOccupied_iff.2 (hgone q hg) hq
    exact ⟨hnot, isOccupied_congr (hkept q hnot) ▸ hq⟩
  refine ⟨fun q hq => h.named q (hocc q hq).2, fun q name hq => ?_⟩
  obtain ⟨hnot, hocc'⟩ := hocc _ hq
  have hq' : ¬ gone q := fun hg => hnot (hbelow q name hg)
  exact isDirectory_congr (hkept q hq') ▸ h.placed q name hocc'

end FileTree

namespace Action

theorem perform_forM_setTree (around : Surroundings) (locs : List Location) (w : World) :
    ∃ w', perform ((w.tree.snapshots locs).forM setTree) around w = (.ok (), w') ∧
      w'.tree = locs.foldl FileTree.remove w.tree := by
  induction locs generalizing w with
  | nil => exact ⟨w, rfl, rfl⟩
  | cons loc locs ih =>
      exact ih ⟨w.tree.remove loc, .changed (w.tree.remove loc) :: w.history⟩

end Action

namespace Disk

/-- Everything below a location is gone, and all else is as before. -/
def Emptied (base : Location) (w w' : World) : Prop :=
  ∀ q, w'.tree.node? q = if isBelow base q = true then none else w.tree.node? q

/-- A location is gone with everything below it, and all else is as before. -/
def Removed (base : Location) (w w' : World) : Prop :=
  ∀ q, w'.tree.node? q = if base.isPrefixOf q = true then none else w.tree.node? q

namespace Removed

variable (h : Removed base w w')

include h

theorem node?_below (way : Location) : w'.tree.node? (base ++ way) = none := by
  rw [h, if_pos (List.isPrefixOf_iff_prefix.2 (List.prefix_append _ _))]

theorem node?_elsewhere {q : Location} (hq : ¬ base <+: q) :
    w'.tree.node? q = w.tree.node? q := by
  rw [h, if_neg fun hprefix => hq (List.isPrefixOf_iff_prefix.1 hprefix)]

theorem wellFormed (hwf : w.tree.WellFormed) : w'.tree.WellFormed := by
  have hbelow : ∀ (q : Location) name, base <+: q → base <+: q ++ [name] := fun q name hq =>
    hq.trans (List.prefix_append _ _)
  refine hwf.prune hbelow (fun q hq => ?_) fun q hq => h.node?_elsewhere hq
  obtain ⟨way, rfl⟩ := hq
  exact h.node?_below way

end Removed

theorem perform_clearBelow (around : Surroundings) (loc : Location) (w : World) :
    ∃ w', perform (clearBelow loc) around w = (.ok (), w') ∧ Emptied loc w w' := by
  obtain ⟨w', hclear, htree⟩ := perform_forM_setTree around
    (removalOrder (around.listing w loc) (w.tree.doomed loc)) w
  refine ⟨w', ?_, fun q => by rw [htree, node?_cleared]⟩
  rw [clearBelow, perform_bind_ok (perform_read around w), perform_bind_ok (perform_tree _ _),
    perform_bind_ok (perform_get _ _), clearings_eq, hclear]

/-- What a directory holds is taken away, and then the directory, unless the path to it led through
something that was taken away. -/
theorem perform_removeTree_directory {around : Surroundings} {w : World} {p : Path}
    (hask : isAskable p = true)
    (hloc : w.tree.locate around.directory p = .ok (goalOf around.directory p))
    (hnode : w.tree.node? (goalOf around.directory p) = some .directory) :
    (∃ fault w', perform (removeTree p) around w = (.error fault, w') ∧
        Emptied (goalOf around.directory p) w w') ∨
      ∃ w', perform (removeTree p) around w = (.ok (), w') ∧
        Removed (goalOf around.directory p) w w' := by
  have hlookup := lookup_eq_ok_iff.2 ⟨hloc, hnode⟩
  unfold removeTree
  rw [perform_bind, perform_ask, if_pos hask, hlookup]
  simp only [mapError_ok]
  rw [if_neg (not_not.2 rfl)]
  obtain ⟨w₁, hclear, hcleared⟩ := perform_clearBelow around (goalOf around.directory p) w
  rw [perform_bind_ok hclear, perform_change, if_pos hask]
  rcases hremove : w₁.tree.removeDirectory around.directory p with e | t'
  · exact .inl ⟨_, w₁, rfl, hcleared⟩
  · refine .inr ⟨_, rfl, fun q => ?_⟩
    obtain ⟨loc, hloc₁, hne, rfl⟩ := exists_of_removeDirectory hremove
    obtain rfl := (locate_eq_ok_iff.1 hloc₁).1
    change (FileTree.remove _ _).node? q = _
    rw [node?_remove hne, hcleared q]
    by_cases hq : q = goalOf around.directory p
    · simp [hq]
    · rw [if_neg hq]
      by_cases hprefix : (goalOf around.directory p).isPrefixOf q = true
      · have hbelow : isBelow (goalOf around.directory p) q = true := by
          obtain ⟨way, rfl⟩ := List.isPrefixOf_iff_prefix.1 hprefix
          exact isBelow_append.2 fun hway => hq (by rw [hway, List.append_nil])
        rw [if_pos hbelow, if_pos hprefix]
      · have hbelow : ¬ isBelow (goalOf around.directory p) q = true := fun hbelow =>
          hprefix (by simpa [isBelow] using (Bool.and_eq_true_iff.1 hbelow).1)
        rw [if_neg hbelow, if_neg hprefix]

theorem perform_removeTree_file {around : Surroundings} {w : World} {p : Path} {f : File}
    (hask : isAskable p = true)
    (hloc : w.tree.locate around.directory p = .ok (goalOf around.directory p))
    (hnode : w.tree.node? (goalOf around.directory p) = some (.file f)) :
    ∃ fault, perform (removeTree p) around w = (.error fault, w) := by
  have hlookup := lookup_eq_ok_iff.2 ⟨hloc, hnode⟩
  unfold removeTree
  rw [perform_bind, perform_ask, if_pos hask, hlookup]
  exact ⟨_, rfl⟩

/-- A tree is taken away whole, or it is emptied, or nothing happens. -/
theorem perform_removeTree (p : Path) (around : Surroundings) (w : World) :
    (∃ fault, perform (removeTree p) around w = (.error fault, w)) ∨
      (∃ fault w', perform (removeTree p) around w = (.error fault, w') ∧
        Emptied (goalOf around.directory p) w w') ∨
      ∃ w', perform (removeTree p) around w = (.ok (), w') ∧
        Removed (goalOf around.directory p) w w' := by
  by_cases hask : isAskable p = true
  · rcases hlookup : w.tree.lookup around.directory p with e | ⟨loc, node⟩
    · refine .inl ⟨.system (.on e p.text), ?_⟩
      unfold removeTree
      rw [perform_bind, perform_ask, if_pos hask, hlookup]
      rfl
    · obtain ⟨hloc, hnode⟩ := lookup_eq_ok_iff.1 hlookup
      obtain rfl := (locate_eq_ok_iff.1 hloc).1
      cases node with
      | file f => exact .inl (perform_removeTree_file hask hloc hnode)
      | directory => exact .inr (perform_removeTree_directory hask hloc hnode)
  · refine .inl ⟨.value .embeddedNull, ?_⟩
    unfold removeTree
    rw [perform_bind, perform_ask, if_neg hask]

end Disk

end StagedBuild
