import Mathlib.Data.List.Induction
import StagedBuild.FileTree.Lookup

/-!
What each change of a file tree does to the entries, location by location, and trees as file systems
have them: every entry stands in a directory and has a name that a path can take as a step. Which
entries are listed below a location, and in which order, is settled by what is at each location.
-/

namespace StagedBuild.FileTree

section Entries

variable {t : FileTree} {loc q : Location} {node : Node}

@[simp] theorem node?_nil (t : FileTree) : t.node? [] = some .directory := rfl

theorem node?_of_ne_nil (t : FileTree) (h : loc ≠ []) :
    t.node? loc = t.entries[loc]?.map Entry.node :=
  if_neg h

theorem entries_set (t : FileTree) (loc q : Location) (node : Node) :
    (t.set loc node).entries[q]? =
      if loc = q then some ⟨node, t.clock⟩ else t.entries[q]? := by
  simp [set, Std.TreeMap.getElem?_insert]

theorem node?_set (h : loc ≠ []) (q : Location) (node : Node) :
    (t.set loc node).node? q = if q = loc then some node else t.node? q := by
  by_cases hq : q = []
  · subst hq
    simp [h.symm]
  · rw [node?_of_ne_nil _ hq, node?_of_ne_nil _ hq, entries_set]
    by_cases hl : loc = q
    · simp [hl]
    · simp [hl, Ne.symm hl]

theorem node?_stampParent (t : FileTree) (loc q : Location) :
    (t.stampParent loc).node? q = t.node? q := by
  unfold stampParent
  split
  · rename_i entry hentry
    by_cases hq : q = []
    · simp [hq]
    · rw [node?_of_ne_nil _ hq, node?_of_ne_nil _ hq, entries_set]
      split
      · rename_i heq
        rw [← heq, hentry]
        rfl
      · rfl
  · rfl

theorem node?_add (h : loc ≠ []) (q : Location) (node : Node) :
    (t.add loc node).node? q = if q = loc then some node else t.node? q := by
  rw [add, node?_stampParent, node?_set h]

theorem node?_remove (h : loc ≠ []) (q : Location) :
    (t.remove loc).node? q = if q = loc then none else t.node? q := by
  rw [remove, node?_stampParent]
  by_cases hq : q = []
  · subst hq
    simp [h.symm]
  · rw [node?_of_ne_nil _ hq, node?_of_ne_nil _ hq]
    by_cases hl : loc = q
    · simp [hl]
    · simp [hl, Ne.symm hl, Std.TreeMap.getElem?_erase]

/-- The file that is left at a location when bytes are written there. -/
def written (t : FileTree) (loc : Location) (bytes : List UInt8) : File :=
  match t.file? loc with
  | some f => { f with bytes := bytes }
  | none => ⟨bytes, false⟩

theorem written_bytes (t : FileTree) (loc : Location) (bytes : List UInt8) :
    (t.written loc bytes).bytes = bytes := by
  unfold written
  split <;> rfl

theorem written_congr {t' : FileTree} (h : t'.node? loc = t.node? loc) (bytes : List UInt8) :
    t'.written loc bytes = t.written loc bytes := by
  unfold written file?
  rw [h]

theorem node?_writeFile (h : loc ≠ []) (q : Location) (bytes : List UInt8) :
    (t.writeFile loc bytes).node? q =
      if q = loc then some (.file (t.written loc bytes)) else t.node? q := by
  unfold writeFile written
  cases t.file? loc with
  | some f => simp only [node?_set h]
  | none => simp only [node?_add h]

theorem file?_eq_some_iff {f : File} : t.file? loc = some f ↔ t.node? loc = some (.file f) := by
  unfold file?
  split
  · rename_i g hg
    simp [hg]
  · rename_i hno
    simp only [reduceCtorEq, false_iff]
    exact hno f

theorem isFile_iff : t.isFile loc = true ↔ ∃ f, t.node? loc = some (.file f) := by
  simp only [isFile, Option.isSome_iff_exists, file?_eq_some_iff]

theorem isDirectory_iff : t.isDirectory loc = true ↔ t.node? loc = some .directory := by
  simp [isDirectory]

theorem isOccupied_iff : t.isOccupied loc = true ↔ ∃ node, t.node? loc = some node := by
  simp [isOccupied, Option.isSome_iff_exists]

theorem not_isOccupied_iff : ¬ t.isOccupied loc = true ↔ t.node? loc = none := by
  simp [isOccupied]

theorem not_isFile_of_isDirectory (h : t.isDirectory loc = true) : ¬ t.isFile loc = true := by
  rw [isFile_iff, isDirectory_iff.1 h]
  simp

theorem ne_nil_of_isFile (h : t.isFile loc = true) : loc ≠ [] := by
  rintro rfl
  exact not_isFile_of_isDirectory (isDirectory_iff.2 (node?_nil t)) h

theorem isFile_congr {t' : FileTree} (h : t.node? loc = t'.node? loc) :
    t.isFile loc = t'.isFile loc := by
  simp only [isFile, file?, h]

theorem isDirectory_congr {t' : FileTree} (h : t.node? loc = t'.node? loc) :
    t.isDirectory loc = t'.isDirectory loc := by
  simp only [isDirectory, h]

theorem isOccupied_congr {t' : FileTree} (h : t.node? loc = t'.node? loc) :
    t.isOccupied loc = t'.isOccupied loc := by
  simp only [isOccupied, h]

theorem isOccupied_of_isDirectory (h : t.isDirectory loc = true) : t.isOccupied loc = true :=
  isOccupied_iff.2 ⟨_, isDirectory_iff.1 h⟩

theorem isOccupied_of_isFile (h : t.isFile loc = true) : t.isOccupied loc = true := by
  obtain ⟨f, hf⟩ := isFile_iff.1 h
  exact isOccupied_iff.2 ⟨_, hf⟩

theorem isFile_or_isDirectory (h : t.isOccupied loc = true) :
    t.isFile loc = true ∨ t.isDirectory loc = true := by
  obtain ⟨node | f, hnode⟩ := isOccupied_iff.1 h
  · exact .inr (isDirectory_iff.2 hnode)
  · exact .inl (isFile_iff.2 ⟨f, hnode⟩)

/-- A name that an entry can have: a step of a path that does not go up, is not too long, and has no
null in it. -/
def isEntryName (name : String) : Bool :=
  isStep name && name != ".." && !name.toList.contains '\x00' &&
    decide (name.utf8ByteSize ≤ nameLimit)

/-- A tree as file systems have them: the names are names of entries, and every entry stands in a
directory. -/
structure WellFormed (t : FileTree) : Prop where
  named : ∀ loc, t.isOccupied loc = true → ∀ name ∈ loc, isEntryName name = true
  placed : ∀ loc name, t.isOccupied (loc ++ [name]) = true → t.isDirectory loc = true

theorem wellFormed_empty : WellFormed .empty := by
  have hroot : ∀ loc, isOccupied .empty loc = true → loc = [] := by
    intro loc hocc
    by_contra hne
    simp [isOccupied, node?_of_ne_nil _ hne, empty] at hocc
  refine ⟨fun loc hocc s hs => ?_, fun loc name hocc => ?_⟩
  · rw [hroot loc hocc] at hs
    cases hs
  · cases loc with
    | nil => exact isDirectory_iff.2 (node?_nil _)
    | cons first rest => cases hroot _ hocc

namespace WellFormed

variable {t' : FileTree} {name : String}

theorem isDirectory_above (h : t.WellFormed) {rest : List String}
    (hocc : t.isOccupied (loc ++ rest) = true) (hne : rest ≠ []) : t.isDirectory loc = true := by
  induction rest using List.reverseRec with
  | nil => exact absurd rfl hne
  | append_singleton rest name ih =>
      rw [← List.append_assoc] at hocc
      have hdir := h.placed _ _ hocc
      by_cases hrest : rest = []
      · simpa [hrest] using hdir
      · exact ih (isOccupied_of_isDirectory hdir) hrest

theorem congr (h : t.WellFormed) (hsame : ∀ q, t'.node? q = t.node? q) : t'.WellFormed where
  named q hq := h.named q (isOccupied_congr (hsame q) ▸ hq)
  placed q n hq := isDirectory_congr (hsame q) ▸ h.placed q n (isOccupied_congr (hsame _) ▸ hq)

theorem not_isOccupied_below_file (h : t.WellFormed) (hfile : t.isFile loc = true)
    {rest : List String} (hne : rest ≠ []) : ¬ t.isOccupied (loc ++ rest) = true :=
  fun hocc => not_isFile_of_isDirectory (h.isDirectory_above hocc hne) hfile

/-- Putting an entry into a directory keeps a tree well formed, unless something else takes the
place of a directory. -/
theorem put (h : t.WellFormed) (hdir : t.isDirectory loc = true) (hname : isEntryName name = true)
    (hnode : t.isDirectory (loc ++ [name]) = true → node = .directory)
    (ht' : ∀ q, t'.node? q = if q = loc ++ [name] then some node else t.node? q) :
    t'.WellFormed where
  named q hq := by
    by_cases heq : q = loc ++ [name]
    · subst heq
      intro n hn
      rcases List.mem_append.1 hn with hn | hn
      · exact h.named loc (isOccupied_of_isDirectory hdir) n hn
      · rw [List.mem_singleton.1 hn]
        exact hname
    · have hsame : t'.node? q = t.node? q := by rw [ht', if_neg heq]
      exact h.named q (isOccupied_congr hsame ▸ hq)
  placed q n hq := by
    have hkeeps : t.isDirectory q = true → t'.isDirectory q = true := by
      intro hdir
      rw [isDirectory_iff, ht']
      split
      · rename_i heq
        rw [hnode (heq ▸ hdir)]
      · exact isDirectory_iff.1 hdir
    by_cases heq : q ++ [n] = loc ++ [name]
    · rw [(List.append_inj' heq rfl).1]
      rw [(List.append_inj' heq rfl).1] at hkeeps
      exact hkeeps hdir
    · have hsame : t'.node? (q ++ [n]) = t.node? (q ++ [n]) := by rw [ht', if_neg heq]
      exact hkeeps (h.placed q n (isOccupied_congr hsame ▸ hq))

theorem take (h : t.WellFormed) (hleaf : ∀ name, ¬ t.isOccupied (loc ++ [name]) = true)
    (ht' : ∀ q, t'.node? q = if q = loc then none else t.node? q) : t'.WellFormed where
  named q hq := by
    by_cases heq : q = loc
    · simp [isOccupied, ht', heq] at hq
    · have hsame : t'.node? q = t.node? q := by rw [ht', if_neg heq]
      exact h.named q (isOccupied_congr hsame ▸ hq)
  placed q n hq := by
    have hocc : t.isOccupied (q ++ [n]) = true := by
      by_cases heq : q ++ [n] = loc
      · simp [isOccupied, ht', heq] at hq
      · have hsame : t'.node? (q ++ [n]) = t.node? (q ++ [n]) := by rw [ht', if_neg heq]
        exact isOccupied_congr hsame ▸ hq
    have hne : q ≠ loc := by
      rintro rfl
      exact hleaf n hocc
    have hsame : t'.node? q = t.node? q := by rw [ht', if_neg hne]
    exact isDirectory_congr hsame ▸ h.placed q n hocc

end WellFormed

end Entries

section Below

variable {t t' : FileTree} {base way : Location} {node : Node}

theorem isBelow_iff {base loc : Location} :
    isBelow base loc = true ↔ ∃ way, way ≠ [] ∧ loc = base ++ way := by
  simp only [isBelow, Bool.and_eq_true, List.isPrefixOf_iff_prefix, decide_eq_true_eq]
  constructor
  · rintro ⟨⟨way, rfl⟩, hlength⟩
    refine ⟨way, ?_, rfl⟩
    rintro rfl
    simp at hlength
  · rintro ⟨way, hway, rfl⟩
    refine ⟨List.prefix_append _ _, ?_⟩
    have := List.length_pos_iff.2 hway
    simp only [List.length_append]
    omega

theorem isBelow_append {base way : Location} : isBelow base (base ++ way) = true ↔ way ≠ [] := by
  simp [isBelow_iff]

theorem mem_below : (way, node) ∈ t.below base ↔ way ≠ [] ∧ t.node? (base ++ way) = some node := by
  simp only [below, List.mem_map, List.mem_filter, Prod.mk.injEq, Prod.exists]
  constructor
  · rintro ⟨loc, entry, ⟨hmem, hbelow⟩, rfl, rfl⟩
    obtain ⟨rest, hrest, rfl⟩ := isBelow_iff.1 hbelow
    rw [Std.TreeMap.mem_toList_iff_getElem?_eq_some] at hmem
    rw [List.drop_left, node?_of_ne_nil _ (by simp [hrest]), hmem]
    exact ⟨hrest, rfl⟩
  · rintro ⟨hway, hnode⟩
    rw [node?_of_ne_nil _ (by simp [hway]), Option.map_eq_some_iff] at hnode
    obtain ⟨entry, hentry, rfl⟩ := hnode
    exact ⟨base ++ way, entry, ⟨Std.TreeMap.mem_toList_iff_getElem?_eq_some.2 hentry,
      isBelow_append.2 hway⟩, List.drop_left, rfl⟩

theorem compare_append_left (base : Location) (x y : Location) :
    compare (base ++ x) (base ++ y) = compare x y := by
  induction base with
  | nil => rfl
  | cons name base ih =>
      rw [List.cons_append, List.cons_append, List.compare_cons_cons, ih]
      simp

theorem below_pairwise (t : FileTree) (base : Location) :
    (t.below base).Pairwise fun a b => compare a.1 b.1 = .lt := by
  have hordered := (Std.TreeMap.ordered_keys_toList (t := t.entries)).filter
    fun entry => isBelow base entry.1
  refine List.pairwise_map.2 (hordered.imp_of_mem ?_)
  rintro ⟨x, _⟩ ⟨y, _⟩ hx hy hlt
  obtain ⟨x', -, rfl⟩ := isBelow_iff.1 (List.mem_filter.1 hx).2
  obtain ⟨y', -, rfl⟩ := isBelow_iff.1 (List.mem_filter.1 hy).2
  simpa [compare_append_left] using hlt

theorem below_nodup (t : FileTree) (base : Location) : ((t.below base).map Prod.fst).Nodup := by
  refine List.pairwise_map.2 ((below_pairwise t base).imp ?_)
  rintro ⟨x, _⟩ ⟨y, _⟩ hlt rfl
  simp at hlt

theorem below_congr (h : ∀ way, t.node? (base ++ way) = t'.node? (base ++ way)) :
    t.below base = t'.below base := by
  have hmem : ∀ entry, entry ∈ t.below base ↔ entry ∈ t'.below base := by
    rintro ⟨way, node⟩
    rw [mem_below, mem_below, h]
  have hnodup : ∀ s : FileTree, (s.below base).Nodup := fun s =>
    List.Pairwise.of_map Prod.fst (fun a b hne heq => hne (congrArg Prod.fst heq))
      (below_nodup s base)
  refine ((List.perm_ext_iff_of_nodup (hnodup t) (hnodup t')).2 hmem).eq_of_pairwise
    (fun a b _ _ hab hba => ?_) (below_pairwise t base) (below_pairwise t' base)
  rw [show compare a.1 b.1 = (compare b.1 a.1).swap from Std.OrientedCmp.eq_swap, hba] at hab
  cases hab

theorem wellFormed_iff_entries :
    (∀ e ∈ t.entries.toList, (∀ name ∈ e.1, isEntryName name = true) ∧
      t.isDirectory e.1.dropLast = true) ↔ t.WellFormed := by
  have hoccupied : ∀ {loc}, loc ≠ [] → (t.isOccupied loc = true ↔ ∃ entry,
      (loc, entry) ∈ t.entries.toList) := by
    intro loc hloc
    rw [isOccupied, node?_of_ne_nil _ hloc, Option.isSome_map, Option.isSome_iff_exists]
    simp only [Std.TreeMap.mem_toList_iff_getElem?_eq_some]
  constructor
  · intro h
    refine ⟨fun loc hocc name hname => ?_, fun loc name hocc => ?_⟩
    · obtain ⟨entry, hentry⟩ := (hoccupied (List.ne_nil_of_mem hname)).1 hocc
      exact (h _ hentry).1 name hname
    · obtain ⟨entry, hentry⟩ := (hoccupied (by simp)).1 hocc
      simpa using (h _ hentry).2
  · rintro h ⟨loc, entry⟩ hentry
    rcases List.eq_nil_or_concat loc with rfl | ⟨front, name, rfl⟩
    · exact ⟨by simp, isDirectory_iff.2 (node?_nil _)⟩
    · rw [List.concat_eq_append] at hentry ⊢
      have hocc := (hoccupied (by simp)).2 ⟨entry, hentry⟩
      exact ⟨h.named _ hocc, by simpa using h.placed _ _ hocc⟩

instance (t : FileTree) : Decidable t.WellFormed :=
  decidable_of_iff _ wellFormed_iff_entries

end Below

end StagedBuild.FileTree
