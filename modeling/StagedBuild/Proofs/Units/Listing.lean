import StagedBuild.Proofs.Action.Below
import StagedBuild.Proofs.Json.Documents
import StagedBuild.Units.Generation

/-!
The units of a work directory and their stamps, and what sorting them out keeps before and after
code is generated. What counts as a unit is an entry below the work directory with a certain ending;
its path goes on from that of the work directory.
-/

namespace StagedBuild.Units

section Sorting

open Action

variable {around : Surroundings} {R : World → World → Prop} [Disk.AnyChange R]

theorem readOnly_find (workdir : Path) : ReadOnly (find workdir) :=
  (Disk.readOnly_entriesBelow workdir).bind fun _ _ _ => rfl

theorem readOnly_readRecordValue (record : Path) : ReadOnly (readRecordValue record) :=
  (Disk.readOnly_readText record).bind fun _ => Json.readOnly_ofText _

theorem readOnly_stamps (workdir : Path) : ReadOnly (stamps workdir) :=
  (readOnly_find workdir).bind fun _ =>
    ReadOnly.mapM fun _ _ => (Disk.readOnly_stamp _).bind fun _ _ _ => rfl

theorem keeps_writeRecord (workdir : Path) (units : List Path) :
    Keeps around R (writeRecord workdir units) :=
  (Keeps.of_readOnly (ReadOnly.ofExcept _ _)).bind fun _ =>
    (Disk.keeps_writeText _ _).bind fun _ => Keeps.pure _

section AnyTalk

variable {R : World → World → Prop} [AnyTalk R]

theorem keeps_readRecord (workdir : Path) : Keeps around R (readRecord workdir) := by
  unfold readRecord
  refine (Keeps.of_readOnly (readOnly_readRecordValue _)).outcome.bind fun ended => ?_
  split
  · exact (Keeps.of_readOnly (ReadOnly.ofExcept _ _)).bind fun _ => Keeps.pure _
  · exact Keeps.ite (fun _ => Keeps.pure _) fun _ =>
      Keeps.ite (fun _ => (keeps_warn _).bind fun _ => Keeps.pure _)
        fun _ => Keeps.throw _

theorem keeps_removeRecorded (workdir : Path) :
    Keeps around R (removeRecorded workdir) := by
  refine (keeps_readRecord workdir).bind fun recorded => Keeps.forM fun u _ => ?_
  refine Keeps.ite (fun _ => ?_) fun _ => Keeps.pure _
  refine (Keeps.of_readOnly (Disk.readOnly_isFile u)).bind fun there => ?_
  exact Keeps.ite (fun _ => Disk.keeps_unlink u) fun _ => Keeps.pure _

end AnyTalk

end Sorting

section Stamps

open Action FileTree

variable {around : Surroundings} {w w' : World} {workdir : Path}

/-- The ways down from a location to the entries that are named like units, in order. -/
def unitWays (t : FileTree) (base : Location) : List Location :=
  ((t.below base).map Prod.fst).filter fun way => isUnitName (way.getLast?.getD "")

/-- The way down to an entry that is named like a unit. -/
def IsUnitWay (way : Location) : Prop :=
  way ≠ [] ∧ isUnitName (way.getLast?.getD "") = true

theorem mem_unitWays {t : FileTree} {base way : Location} :
    way ∈ unitWays t base ↔ IsUnitWay way ∧ t.isOccupied (base ++ way) = true := by
  simp only [unitWays, List.mem_filter, List.mem_map, Prod.exists, exists_and_right,
    exists_eq_right, mem_below, isOccupied_iff, IsUnitWay]
  constructor
  · rintro ⟨⟨node, hway, hnode⟩, hname⟩
    exact ⟨⟨hway, hname⟩, node, hnode⟩
  · rintro ⟨⟨hway, hname⟩, node, hnode⟩
    exact ⟨⟨node, hway, hnode⟩, hname⟩

theorem entryNames_of_isOccupied {t : FileTree} (ht : t.WellFormed) {base way : Location}
    (h : t.isOccupied (base ++ way) = true) : ∀ s ∈ way, isEntryName s = true :=
  fun s hs => ht.named _ h s (List.mem_append_right _ hs)

theorem perform_find (ht : w.tree.WellFormed)
    (h : Disk.LeadsToDirectory workdir w.tree around.directory) :
    perform (find workdir) around w =
      (.ok ((unitWays w.tree (goalOf around.directory workdir)).map workdir.descend), w) := by
  rw [find, perform_bind_ok (Disk.perform_entriesBelow h), perform_pure]
  have hfilter : ∀ entries : List (Location × Node),
      (∀ e ∈ entries, e.1 ≠ [] ∧ ∀ s ∈ e.1, isEntryName s = true) →
      (((entries.map fun e => (workdir.descend e.1, e.2)).filter
          fun e => isUnitName e.1.name).map (·.1)) =
        ((entries.map Prod.fst).filter fun way => isUnitName (way.getLast?.getD "")).map
          workdir.descend := by
    intro entries hentries
    induction entries with
    | nil => rfl
    | cons e entries ih =>
        obtain ⟨names, node⟩ := e
        obtain ⟨hne, hnames⟩ := hentries (names, node) (by simp)
        have hname : (workdir.descend names).name = names.getLast?.getD "" := by
          rw [Path.name_descend workdir (fun s hs => isStep_of_isEntryName (hnames s hs)) hne,
            List.getLast?_eq_some_getLast hne]
          rfl
        have hrest := ih fun e he => hentries e (List.mem_cons_of_mem _ he)
        simp only [List.map_cons, List.filter_cons, hname]
        split
        · simpa using hrest
        · exact hrest
  refine congrArg (fun units => (Except.ok units, w)) (hfilter _ ?_)
  rintro ⟨way, node⟩ hmem
  obtain ⟨hway, hnode⟩ := mem_below.1 hmem
  exact ⟨hway, entryNames_of_isOccupied ht (isOccupied_iff.2 ⟨node, hnode⟩)⟩

/-- The stamp of the entry at a location. The root has none. -/
def stampAt (t : FileTree) (loc : Location) : Nat :=
  (t.stamp? loc).getD 0

theorem perform_stamp_ok {p : Path} {s : Nat}
    (h : perform (Disk.stamp p) around w = (.ok s, w')) :
    w' = w ∧ s = stampAt w.tree (goalOf around.directory p) ∧
      ∃ node, Disk.answerAt p w.tree around.directory = .ok (some node) := by
  rw [Disk.stamp, Disk.perform_ask] at h
  split at h
  · rename_i hask
    rcases hlookup : w.tree.lookup around.directory p with e | ⟨loc, node⟩
    · simp [hlookup, bind, Except.bind, mapError_error] at h
    · obtain ⟨hloc, hnode⟩ := lookup_eq_ok_iff.1 hlookup
      obtain rfl := (locate_eq_ok_iff.1 hloc).1
      simp only [hlookup, bind, Except.bind, mapError_ok, Prod.mk.injEq,
        Except.ok.injEq] at h
      exact ⟨h.2.symm, h.1.symm, node, Disk.answerAt_eq_some_iff.2 ⟨hask, hloc, hnode⟩⟩
  · cases h

theorem perform_stamps_ok (ht : w.tree.WellFormed)
    (hdir : Disk.LeadsToDirectory workdir w.tree around.directory)
    {stamped : List (Path × Nat)} (h : perform (stamps workdir) around w = (.ok stamped, w')) :
    w' = w ∧
      stamped = (unitWays w.tree (goalOf around.directory workdir)).map (fun way =>
        (workdir.descend way, stampAt w.tree (goalOf around.directory workdir ++ way))) ∧
      ∀ way ∈ unitWays w.tree (goalOf around.directory workdir), ∃ node,
        Disk.answerAt (workdir.descend way) w.tree around.directory = .ok (some node) := by
  rw [stamps, perform_bind_ok (perform_find ht hdir)] at h
  have hways : ∀ way ∈ unitWays w.tree (goalOf around.directory workdir),
      ∀ s ∈ way, isEntryName s = true := fun way hway =>
    entryNames_of_isOccupied ht (mem_unitWays.1 hway).2
  generalize unitWays w.tree (goalOf around.directory workdir) = ways at h hways
  induction ways generalizing stamped w' with
  | nil =>
      cases h
      exact ⟨rfl, rfl, by simp⟩
  | cons way ways ih =>
      rw [List.map_cons, List.mapM_cons] at h
      obtain ⟨first, w₁, hfirst, h₁⟩ := perform_bind_eq_ok.1 h
      obtain ⟨rest, w₂, hrest, h₂⟩ := perform_bind_eq_ok.1 h₁
      obtain ⟨s, w₃, hs, h₃⟩ := perform_bind_eq_ok.1 hfirst
      obtain ⟨rfl, rfl, hanswer⟩ := perform_stamp_ok hs
      cases h₃
      obtain ⟨rfl, rfl, hanswers⟩ :=
        ih hrest fun way hway => hways way (List.mem_cons_of_mem _ hway)
      cases h₂
      refine ⟨rfl, ?_, ?_⟩
      · rw [goalOf_descend _ _ (hways way (by simp))]
        rfl
      · rintro x hx
        rcases List.mem_cons.1 hx with rfl | hx
        · exact hanswer
        · exact hanswers x hx

end Stamps

end StagedBuild.Units
