import StagedBuild.Proofs.Action.Edits
import StagedBuild.Proofs.FileTree.Nodes

/-!
Paths that go on from a directory by the names of entries, and the listing of what is below a
directory. Such a path leads down from where the directory is.
-/

namespace StagedBuild

open FileTree

theorem isStep_of_isEntryName {s : String} (h : isEntryName s = true) : isStep s = true := by
  simp only [isEntryName, Bool.and_eq_true] at h
  exact h.1.1.1

theorem ne_up_of_isEntryName {s : String} (h : isEntryName s = true) : s ≠ ".." := by
  rintro rfl
  simp [isEntryName] at h

section

variable {names : Location} {p : Path} {cwd loc : Location} {t t' : FileTree}

theorem up_not_mem (h : ∀ s ∈ names, isEntryName s = true) : ".." ∉ names :=
  fun hup => ne_up_of_isEntryName (h _ hup) rfl

theorem start_descend (cwd : Location) (p : Path) (h : ∀ s ∈ names, isStep s = true) :
    start cwd (p.descend names) = start cwd p := by
  unfold start Path.isAbsolute
  rw [Path.anchor_descend p h]

theorem isAbsolute_descend (p : Path) (h : ∀ s ∈ names, isStep s = true) :
    (p.descend names).isAbsolute = p.isAbsolute := by
  unfold Path.isAbsolute
  rw [Path.anchor_descend p h]

theorem isAbsolute_join {p : Path} (h : p.isAbsolute = true) (q : Path) :
    (p.join q).isAbsolute = true := by
  unfold Path.join
  split
  · exact h
  · rename_i hq
    simpa [Path.isAbsolute] using hq

theorem goalOf_descend_plain (cwd : Location) (p : Path) (h : ∀ s ∈ names, isStep s = true)
    (hup : ".." ∉ names) : goalOf cwd (p.descend names) = goalOf cwd p ++ names := by
  rw [goalOf, start_descend cwd p h, Path.steps_descend p h, reach_append, reach_of_plain hup]
  rfl

theorem goalOf_descend (cwd : Location) (p : Path) (h : ∀ s ∈ names, isEntryName s = true) :
    goalOf cwd (p.descend names) = goalOf cwd p ++ names :=
  goalOf_descend_plain cwd p (fun s hs => isStep_of_isEntryName (h s hs)) (up_not_mem h)

theorem goalOf_child (cwd : Location) (p : Path) {name : String} (h : isEntryName name = true) :
    goalOf cwd (p / name) = goalOf cwd p ++ [name] := by
  rw [Path.div_eq_descend]
  exact goalOf_descend cwd p (by simpa using h)

theorem mem_passedBy_descend_plain (h : ∀ s ∈ names, isStep s = true) (hup : ".." ∉ names)
    {v : Location} :
    v ∈ passedBy cwd (p.descend names) ↔ v ∈ passedBy cwd p ∨
      ∃ front back, names = front ++ back ∧ back ≠ [] ∧ v = goalOf cwd p ++ front := by
  rw [passedBy, start_descend cwd p h, Path.steps_descend p h, passed_append, List.mem_append,
    mem_passed_of_plain hup]
  rfl

theorem mem_passedBy_descend (h : ∀ s ∈ names, isEntryName s = true) {v : Location} :
    v ∈ passedBy cwd (p.descend names) ↔ v ∈ passedBy cwd p ∨
      ∃ front back, names = front ++ back ∧ back ≠ [] ∧ v = goalOf cwd p ++ front :=
  mem_passedBy_descend_plain (fun s hs => isStep_of_isEntryName (h s hs)) (up_not_mem h)

theorem locate_descend (ht : t.WellFormed) (hp : t.locate cwd p = .ok loc)
    (hocc : t.isOccupied (loc ++ names) = true)
    (htext : (p.descend names).text.utf8ByteSize ≤ pathLimit) :
    t.locate cwd (p.descend names) = .ok (loc ++ names) := by
  have hnames : ∀ s ∈ names, isEntryName s = true := fun s hs =>
    ht.named _ hocc s (List.mem_append_right _ hs)
  obtain ⟨rfl, -, hpassed, hfits⟩ := locate_eq_ok_iff.1 hp
  refine locate_eq_ok_iff.2 ⟨(goalOf_descend cwd p hnames).symm, htext, fun v hv => ?_,
    fun s hs => ?_⟩
  · rcases (mem_passedBy_descend hnames).1 hv with hv | ⟨front, back, rfl, hback, rfl⟩
    · exact hpassed v hv
    · rw [← List.append_assoc] at hocc
      exact ht.isDirectory_above hocc hback
  · rw [Path.steps_descend p fun s hs => isStep_of_isEntryName (hnames s hs),
      List.mem_append] at hs
    rcases hs with hs | hs
    · exact hfits s hs
    · exact fits_of_isEntryName (hnames s hs)

end

namespace Path

theorem mem_toList_text_iff {p : Path} {c : Char} (hslash : c ≠ '/') (hdot : c ≠ '.') :
    c ∈ p.text.toList ↔ ∃ s ∈ p.steps, c ∈ s.toList := by
  constructor
  · intro h
    unfold text at h
    split at h
    · simp [hdot] at h
    · rw [bareText, String.toList_append, List.mem_append] at h
      rcases h with h | h
      · cases ha : p.anchor <;> rw [ha] at h <;> simp [Anchor.text, hslash] at h
      · rw [steps_joined] at h
        obtain ⟨xs, hxs, hc⟩ | hc := mem_of_mem_intercalate h
        · obtain ⟨s, hs, rfl⟩ := List.mem_map.1 hxs
          exact ⟨s, hs, hc⟩
        · exact absurd (List.mem_singleton.1 hc) hslash
  · rintro ⟨s, hs, hc⟩
    exact mem_toList_text hs hc

end Path

namespace Disk

open Action

variable {around : Surroundings} {w w' : World} {p : Path} {t : FileTree} {cwd : Location}

theorem isAskable_iff : isAskable p = true ↔ ∀ s ∈ p.steps, '\x00' ∉ s.toList := by
  have hmem := Path.mem_toList_text_iff (p := p) (c := '\x00') (by decide) (by decide)
  simp only [isAskable, Bool.not_eq_true', List.contains_eq_mem, decide_eq_false_iff_not, hmem,
    not_exists, not_and]

theorem isAskable_descend {names : Location} (hp : isAskable p = true)
    (h : ∀ s ∈ names, isEntryName s = true) : isAskable (p.descend names) = true := by
  rw [isAskable_iff] at hp ⊢
  rw [Path.steps_descend p fun s hs => isStep_of_isEntryName (h s hs)]
  intro s hs
  rcases List.mem_append.1 hs with hs | hs
  · exact hp s hs
  · have := h s hs
    simp only [isEntryName, Bool.and_eq_true, Bool.not_eq_true', List.contains_eq_mem,
      decide_eq_false_iff_not] at this
    exact this.1.2

namespace LeadsToDirectory

theorem isAskable (h : LeadsToDirectory p t cwd) : isAskable p = true :=
  (answerAt_eq_some_iff.1 h).1

theorem locate (h : LeadsToDirectory p t cwd) : t.locate cwd p = .ok (goalOf cwd p) :=
  (answerAt_eq_some_iff.1 h).2.1

theorem isDirectory (h : LeadsToDirectory p t cwd) : t.isDirectory (goalOf cwd p) = true :=
  isDirectory_iff.2 (answerAt_eq_some_iff.1 h).2.2

theorem of_absolute (habsolute : p.isAbsolute = true) (h : LeadsToDirectory p t cwd)
    (cwd' : Location) : LeadsToDirectory p t cwd' := by
  obtain ⟨hask, hloc, hnode⟩ := answerAt_eq_some_iff.1 h
  refine answerAt_eq_some_iff.2 ⟨hask, ?_, ?_⟩
  · rw [locate_of_absolute habsolute] at hloc ⊢
    rwa [goalOf_of_absolute habsolute] at hloc ⊢
  · rwa [goalOf_of_absolute habsolute] at hnode ⊢

theorem mono {t' : FileTree} (h : LeadsToDirectory p t cwd)
    (hdirs : ∀ loc, t.isDirectory loc = true → t'.isDirectory loc = true) :
    LeadsToDirectory p t' cwd := by
  obtain ⟨hask, hloc, hnode⟩ := answerAt_eq_some_iff.1 h
  obtain ⟨-, htext, hpassed, hfits⟩ := locate_eq_ok_iff.1 hloc
  exact answerAt_eq_some_iff.2 ⟨hask,
    locate_eq_ok_iff.2 ⟨rfl, htext, fun v hv => hdirs v (hpassed v hv), hfits⟩,
    isDirectory_iff.1 (hdirs _ (isDirectory_iff.2 hnode))⟩

end LeadsToDirectory

namespace LeadsToDirectory

variable {name : String} (h : LeadsToDirectory p t cwd) (hname : isEntryName name = true)

include h hname

theorem isAskable_child : Disk.isAskable (p / name) = true := by
  rw [Path.div_eq_descend]
  exact isAskable_descend h.isAskable (by simpa using hname)

theorem locate_child (hfits : (p / name).text.utf8ByteSize ≤ pathLimit) :
    t.locate cwd (p / name) = .ok (goalOf cwd p ++ [name]) := by
  have hnames : ∀ s ∈ [name], isEntryName s = true := by simpa using hname
  obtain ⟨-, -, hpassed, hsteps⟩ := locate_eq_ok_iff.1 h.locate
  rw [Path.div_eq_descend] at hfits ⊢
  refine locate_eq_ok_iff.2 ⟨(goalOf_descend cwd p hnames).symm, hfits, fun v hv => ?_,
    fun s hs => ?_⟩
  · rcases (mem_passedBy_descend hnames).1 hv with hv | ⟨front, back, heq, hb, rfl⟩
    · exact hpassed v hv
    · -- only the directory itself is passed in front of the last step
      cases front with
      | nil => simpa using h.isDirectory
      | cons x front =>
          simp only [List.cons_append, List.cons.injEq] at heq
          exact absurd (List.append_eq_nil_iff.1 heq.2.symm).2 hb
  · rw [Path.steps_descend p fun s hs => isStep_of_isEntryName (hnames s hs),
      List.mem_append] at hs
    rcases hs with hs | hs
    · exact hsteps s hs
    · rw [List.mem_singleton.1 hs]
      exact fits_of_isEntryName hname

theorem node?_child_of_none (hnone : answerAt (p / name) t cwd = .ok none) :
    t.node? (goalOf cwd p ++ [name]) = none := by
  by_cases hfits : (p / name).text.utf8ByteSize ≤ pathLimit
  · rw [answerAt_of_locate (h.isAskable_child hname) (h.locate_child hname hfits)] at hnone
    exact Except.ok.inj hnone
  · have hlong : t.locate cwd (p / name) = .error .nameTooLong :=
      if_pos (Nat.not_le.1 hfits)
    rw [answerAt, if_pos (h.isAskable_child hname)] at hnone
    simp only [lookup, hlong, bind, Except.bind] at hnone
    cases hnone

end LeadsToDirectory

theorem of_perform_writeBytes_child {name : String} {bytes : List UInt8}
    (h : LeadsToDirectory p w.tree around.directory) (hname : isEntryName name = true)
    (hwrite : perform (writeBytes (p / name) bytes) around w = (.ok (), w')) :
    (p / name).text.utf8ByteSize ≤ pathLimit ∧ ∃ f : File, f.bytes = bytes ∧
      ∀ q, w'.tree.node? q = if q = goalOf around.directory p ++ [name] then some (.file f)
        else w.tree.node? q := by
  obtain ⟨_, v, htruncate, -⟩ := perform_bind_eq_ok.1 hwrite
  have hfits : (p / name).text.utf8ByteSize ≤ pathLimit := by
    rw [truncate, perform_change, if_pos (h.isAskable_child hname)] at htruncate
    split at htruncate
    · rename_i t ht
      obtain ⟨loc, hloc, -, -⟩ := exists_of_write ht
      exact (locate_eq_ok_iff.1 hloc).2.1
    · cases htruncate
  rcases perform_writeBytes (h.isAskable_child hname) (h.locate_child hname hfits) bytes with
    ⟨-, herror⟩ | ⟨-, v', f, hok, hf, hnodes⟩
  · rw [herror] at hwrite
    cases hwrite
  · rw [hok] at hwrite
    cases hwrite
    exact ⟨hfits, f, hf, hnodes⟩

theorem perform_entriesBelow (h : LeadsToDirectory p w.tree around.directory) :
    perform (entriesBelow p) around w =
      (.ok ((w.tree.below (goalOf around.directory p)).map fun (names, node) =>
        (p.descend names, node)), w) := by
  have hdir : perform (isDirectory p) around w = (.ok true, w) := by
    rw [perform_isDirectory, h]
    rfl
  unfold entriesBelow
  rw [perform_bind_ok hdir]
  simp only [Bool.not_true, Bool.false_eq_true, if_false]
  rw [perform_bind, perform_ask, if_pos h.isAskable]
  simp only [h.locate, bind, Except.bind, mapError_ok]
  rfl

end Disk

end StagedBuild
