import StagedBuild.Proofs.Action.Below
import StagedBuild.Proofs.FileTree.Follow

/-!
Making directories. New directories come only on the way, and they can be made when no file stands
in the way.
-/

namespace StagedBuild.Disk

open Action FileTree

variable {around : Surroundings} {w w' : World} {p : Path} {t : FileTree} {cwd : Location}
  {places : Location → Prop}

/-- The only changes of the disk are new directories in some places. -/
def DirectoriesAdded (places : Location → Prop) (w w' : World) : Prop :=
  ∀ q, w'.tree.node? q = w.tree.node? q ∨
    places q ∧ w.tree.node? q = none ∧ w'.tree.node? q = some .directory

namespace DirectoriesAdded

instance : Passage (DirectoriesAdded places) where
  refl _ := fun _ => .inl rfl
  trans := by
    intro u v w huv hvw q
    rcases hvw q with hq | ⟨hplace, hnone, hdir⟩
    · rw [hq]
      exact huv q
    · rcases huv q with hq | ⟨-, -, hdir'⟩
      · exact .inr ⟨hplace, hq ▸ hnone, hdir⟩
      · rw [hnone] at hdir'
        cases hdir'

theorem isDirectory (h : DirectoriesAdded places w w') {q : Location}
    (hq : w.tree.isDirectory q = true) : w'.tree.isDirectory q = true := by
  rcases h q with heq | ⟨-, -, hdir⟩
  · exact isDirectory_congr heq ▸ hq
  · exact isDirectory_iff.2 hdir

theorem isFile_eq (h : DirectoriesAdded places w w') (q : Location) :
    w'.tree.isFile q = w.tree.isFile q := by
  rcases h q with heq | ⟨-, hnone, hdir⟩
  · exact isFile_congr heq
  · simp [FileTree.isFile, file?, hnone, hdir]

theorem node?_of_some (h : DirectoriesAdded places w w') {q : Location} {node : Node}
    (hq : w.tree.node? q = some node) : w'.tree.node? q = some node := by
  rcases h q with heq | ⟨-, hnone, -⟩
  · rw [heq, hq]
  · rw [hnone] at hq
    cases hq

end DirectoriesAdded

/-- A place that a path passes, or that it leads to. -/
def OnTheWay (cwd : Location) (p : Path) (v : Location) : Prop :=
  v ∈ passedBy cwd p ∨ v = goalOf cwd p

theorem OnTheWay.of_absolute {v : Location} (h : OnTheWay cwd p v) (hp : p.isAbsolute = true)
    (cwd' : Location) : OnTheWay cwd' p v := by
  rw [OnTheWay, passedBy_of_absolute hp, goalOf_of_absolute hp] at h ⊢
  exact h

theorem LeadsToDirectory.isDirectory_of_onTheWay (h : LeadsToDirectory p t cwd) {v : Location}
    (hv : OnTheWay cwd p v) : t.isDirectory v = true := by
  rcases hv with hv | rfl
  · exact (locate_eq_ok_iff.1 h.locate).2.2.1 v hv
  · exact h.isDirectory

theorem OnTheWay.of_parent {v : Location} (h : OnTheWay cwd p.parent v) : OnTheWay cwd p v := by
  by_cases hsteps : p.steps = []
  · rwa [Path.parent_of_steps_eq_nil hsteps] at h
  · exact .inl ((mem_passedBy_iff_parent hsteps).2 h)

theorem adds_makeDirectoriesWithin (around : Surroundings) (bound : Nat) (p : Path) :
    Keeps around (DirectoriesAdded (OnTheWay around.directory p))
      (makeDirectoriesWithin bound p) := by
  refine keeps_makeDirectoriesWithin
    (P := fun q => ∀ v, OnTheWay around.directory q v → OnTheWay around.directory p v) bound
    (fun _ h => h) (fun q hq v hv => hq v hv.of_parent) fun q hq => ?_
  refine keeps_makeDirectory_at fun w loc _ hloc hfree v => ?_
  have hne : loc ≠ [] := by
    rintro rfl
    exact hfree (isOccupied_iff.2 ⟨_, node?_nil _⟩)
  by_cases hv : v = loc
  · subst hv
    exact .inr ⟨hq _ (.inr (locate_eq_ok_iff.1 hloc).1), not_isOccupied_iff.1 hfree,
      by rw [node?_add hne, if_pos rfl]⟩
  · exact .inl (by rw [node?_add hne, if_neg hv])

theorem adds_makeDirectories (around : Surroundings) (p : Path) :
    Keeps around (DirectoriesAdded (OnTheWay around.directory p)) (makeDirectories p) :=
  adds_makeDirectoriesWithin around _ p

theorem answerAt_of_fits (hask : isAskable p = true) (hfits : PathFits p) :
    answerAt p t cwd = .ok none ∨ ∃ node, answerAt p t cwd = .ok (some node) ∧
      t.node? (goalOf cwd p) = some node := by
  rcases hloc : t.locate cwd p with e | loc
  · obtain ⟨v, -, -, rfl⟩ := locate_error hfits hloc
    refine .inl ?_
    simp only [answerAt, hask, lookup, hloc, bind, Except.bind, if_true]
    cases t.isOccupied v <;> rfl
  · rw [answerAt_of_locate hask hloc, (locate_eq_ok_iff.1 hloc).1]
    rcases t.node? (goalOf cwd p) with _ | node
    · exact .inl rfl
    · exact .inr ⟨node, rfl, rfl⟩

section There

theorem perform_makeDirectory_of_leads (h : LeadsToDirectory p w.tree around.directory) :
    perform (makeDirectory p) around w = (.error (.system (.on .occupied p.text)), w) := by
  have hocc : w.tree.isOccupied (goalOf around.directory p) = true :=
    isOccupied_of_isDirectory h.isDirectory
  rw [makeDirectory, perform_change, if_pos h.isAskable, makeDirectory_eq h.locate, if_pos hocc]

theorem perform_makeDirectories_there (h : LeadsToDirectory p w.tree around.directory) :
    perform (makeDirectories p) around w = (.ok (), w) := by
  have hmake := perform_makeDirectory_of_leads h
  have hthere : perform (isDirectory p) around w = (.ok true, w) := by
    rw [perform_isDirectory, h]
    rfl
  unfold makeDirectories
  cases p.steps.length <;>
  · unfold makeDirectoriesWithin
    rw [perform_bind, perform_outcome, hmake]
    exact (perform_bind_ok hthere).trans rfl

end There

section NothingInTheWay

variable (hfree : ∀ v, OnTheWay around.directory p v → ¬ w.tree.isFile v = true)

include hfree

theorem locate_error_noEntry (hfits : PathFits p) {e : SystemError}
    (h : w.tree.locate around.directory p = .error e) : e = .noEntry := by
  obtain ⟨v, hv, hnot, rfl⟩ := locate_error hfits h
  have hocc : ¬ w.tree.isOccupied v = true := fun hocc =>
    (isFile_or_isDirectory hocc).elim (hfree v (.inl hv)) hnot
  rw [if_neg hocc]

theorem perform_makeDirectory_there (hask : isAskable p = true) {loc : Location}
    (hloc : w.tree.locate around.directory p = .ok loc) :
    (∃ w', perform (makeDirectory p) around w = (.ok (), w')) ∨
      perform (makeDirectory p) around w = (.error (.system (.on .occupied p.text)), w) ∧
        perform (isDirectory p) around w = (.ok true, w) := by
  obtain rfl := (locate_eq_ok_iff.1 hloc).1
  rw [makeDirectory, perform_change, if_pos hask, makeDirectory_eq hloc]
  by_cases hocc : w.tree.isOccupied (goalOf around.directory p) = true
  · have hdir := (isFile_or_isDirectory hocc).resolve_left (hfree _ (.inr rfl))
    rw [if_pos hocc, perform_isDirectory, answerAt_of_locate hask hloc, isDirectory_iff.1 hdir]
    exact .inr ⟨rfl, rfl⟩
  · rw [if_neg hocc]
    exact .inl ⟨_, rfl⟩

end NothingInTheWay

theorem pathFits_parent (h : PathFits p) : PathFits p.parent where
  text := Nat.le_trans (Path.utf8ByteSize_parent_le p) h.text
  steps step hstep := h.steps step (List.dropLast_subset _ hstep)

theorem isAskable_parent (h : isAskable p = true) : isAskable p.parent = true := by
  rw [isAskable_iff] at h ⊢
  exact fun s hs => h s (List.dropLast_subset _ hs)

theorem leads_parent_of_locate (hask : isAskable p = true) (hsteps : p.steps ≠ [])
    {loc : Location} (hloc : t.locate cwd p = .ok loc) : LeadsToDirectory p.parent t cwd := by
  obtain ⟨-, htext, hpassed, hfits⟩ := locate_eq_ok_iff.1 hloc
  have hmem := fun v => (mem_passedBy_iff_parent hsteps : v ∈ passedBy cwd p ↔ _)
  have hparent := pathFits_parent ⟨htext, hfits⟩
  refine answerAt_eq_some_iff.2 ⟨isAskable_parent hask, locate_eq_ok_iff.2
    ⟨rfl, hparent.text, fun v hv => ?_, hparent.steps⟩, isDirectory_iff.1 ?_⟩
  · exact hpassed v ((hmem v).2 (.inl hv))
  · exact hpassed _ ((hmem _).2 (.inr rfl))

section Failing

variable {fault fault' : Fault}

theorem perform_makeDirectory_error
    (h : perform (makeDirectory p) around w = (.error fault, w')) : w' = w := by
  rw [makeDirectory, perform_change] at h
  split at h
  · split at h
    · cases h
    · cases h
      rfl
  · cases h
    rfl

private theorem not_leads_unlessThere
    (h : perform (do if ← isDirectory p then return () else throw fault) around w =
      (.error fault', w')) : ¬ LeadsToDirectory p w'.tree around.directory := by
  intro hleads
  have hsame : w' = w := by
    have hkeeps : ReadOnly (do if ← isDirectory p then return () else throw fault) :=
      (readOnly_isDirectory p).bind fun b => by cases b <;> exact fun _ _ => rfl
    exact (hkeeps around).of_perform h
  have hthere : perform (isDirectory p) around w = (.ok true, w) := by
    rw [perform_isDirectory, show answerAt p w.tree around.directory = _ from hsame ▸ hleads]
    rfl
  rw [perform_bind_ok hthere] at h
  cases h

private theorem not_leads_of_makeDirectory
    (h : perform (makeDirectory p) around w = (.error fault, w'))
    (hfault : fault ≠ .system (.on .occupied p.text)) :
    ¬ LeadsToDirectory p w'.tree around.directory := by
  intro hleads
  obtain rfl := perform_makeDirectory_error h
  rw [perform_makeDirectory_of_leads hleads] at h
  cases h
  exact hfault rfl

private theorem not_leads_of_makeDirectoryUnlessThere
    (h : perform (makeDirectoriesWithin.makeDirectoryUnlessThere p) around w =
      (.error fault, w')) : ¬ LeadsToDirectory p w'.tree around.directory := by
  rcases hmake : perform (makeDirectory p) around w with ⟨ended, u⟩
  rw [makeDirectoriesWithin.makeDirectoryUnlessThere, perform_bind, perform_outcome, hmake] at h
  dsimp only at h
  split at h
  · cases h
  · exact not_leads_unlessThere h
  · rename_i hnot
    cases h
    exact not_leads_of_makeDirectory hmake fun heq => hnot _ heq

theorem not_leads_of_makeDirectoriesWithin {bound : Nat}
    (h : perform (makeDirectoriesWithin bound p) around w = (.error fault, w')) :
    ¬ LeadsToDirectory p w'.tree around.directory := by
  induction bound generalizing p w w' fault with
  | zero =>
      rcases hmake : perform (makeDirectory p) around w with ⟨ended, u⟩
      rw [makeDirectoriesWithin, perform_bind, perform_outcome, hmake] at h
      dsimp only at h
      split at h
      · cases h
      · cases h
        exact not_leads_of_makeDirectory hmake (by simp)
      · exact not_leads_unlessThere h
      · rename_i hnot
        cases h
        exact not_leads_of_makeDirectory hmake fun heq => hnot _ heq
  | succ bound ih =>
      rcases hmake : perform (makeDirectory p) around w with ⟨ended, u⟩
      rw [makeDirectoriesWithin, perform_bind, perform_outcome, hmake] at h
      dsimp only at h
      split at h
      · cases h
      · rw [perform_bind] at h
        split at h
        · exact not_leads_of_makeDirectoryUnlessThere h
        · rename_i habove
          cases h
          intro hleads
          by_cases hsteps : p.steps = []
          · exact ih habove (by rwa [Path.parent_of_steps_eq_nil hsteps])
          · exact ih habove (leads_parent_of_locate hleads.isAskable hsteps hleads.locate)
      · exact not_leads_unlessThere h
      · rename_i hnot
        cases h
        exact not_leads_of_makeDirectory hmake fun heq => hnot _ heq

end Failing

section Located

variable (hask : isAskable p = true)
  (hfree : ∀ v, OnTheWay around.directory p v → ¬ w.tree.isFile v = true) {loc : Location}
  (hloc : w.tree.locate around.directory p = .ok loc)

include hask hfree hloc

theorem exists_perform_makeDirectoryUnlessThere :
    ∃ w', perform (makeDirectoriesWithin.makeDirectoryUnlessThere p) around w = (.ok (), w') := by
  unfold makeDirectoriesWithin.makeDirectoryUnlessThere
  rw [perform_bind, perform_outcome]
  rcases perform_makeDirectory_there hfree hask hloc with ⟨w', hmade⟩ | ⟨hthere, hdir⟩
  · rw [hmade]
    exact ⟨w', rfl⟩
  · rw [hthere]
    exact ⟨w, (perform_bind_ok hdir).trans rfl⟩

/-- Where the directories above are there, the directory is made or is there already. -/
theorem exists_perform_makeDirectoriesWithin_of_locate (bound : Nat) :
    ∃ w', perform (makeDirectoriesWithin bound p) around w = (.ok (), w') := by
  unfold makeDirectoriesWithin
  rw [perform_bind, perform_outcome]
  rcases perform_makeDirectory_there hfree hask hloc with ⟨w', hmade⟩ | ⟨hthere, hdir⟩
  · rw [hmade]
    exact ⟨w', rfl⟩
  · rw [hthere]
    exact ⟨w, (perform_bind_ok hdir).trans rfl⟩

end Located

theorem locate_of_leads_parent (hfits : PathFits p)
    (hleads : LeadsToDirectory p.parent w.tree around.directory) :
    w.tree.locate around.directory p = .ok (goalOf around.directory p) := by
  obtain ⟨-, -, hpassed, -⟩ := locate_eq_ok_iff.1 hleads.locate
  refine locate_eq_ok_iff.2 ⟨rfl, hfits.text, fun v hv => ?_, hfits.steps⟩
  by_cases hsteps : p.steps = []
  · simp [passedBy, hsteps, passed] at hv
  · rcases (mem_passedBy_iff_parent hsteps).1 hv with hv | rfl
    · exact hpassed v hv
    · exact hleads.isDirectory

theorem exists_perform_makeDirectoriesWithin {bound : Nat} (hbound : p.steps.length ≤ bound)
    (hask : isAskable p = true) (hfits : PathFits p)
    (hfree : ∀ v, OnTheWay around.directory p v → ¬ w.tree.isFile v = true) :
    ∃ w', perform (makeDirectoriesWithin bound p) around w = (.ok (), w') := by
  induction bound generalizing p w with
  | zero =>
      have hsteps : p.steps = [] := List.eq_nil_of_length_eq_zero (Nat.le_zero.1 hbound)
      have hloc : w.tree.locate around.directory p = .ok (goalOf around.directory p) := by
        refine locate_eq_ok_iff.2 ⟨rfl, hfits.text, fun v hv => ?_, hfits.steps⟩
        simp [passedBy, hsteps, passed] at hv
      exact exists_perform_makeDirectoriesWithin_of_locate hask hfree hloc 0
  | succ bound ih =>
      rcases hloc : w.tree.locate around.directory p with e | loc
      · -- something above is missing: the directories above are made first
        obtain rfl := locate_error_noEntry hfree hfits hloc
        have hmissing : perform (makeDirectory p) around w =
            (.error (.system (.on .noEntry p.text)), w) := by
          rw [makeDirectory, perform_change, if_pos hask]
          simp [FileTree.makeDirectory, hloc, bind, Except.bind]
        obtain ⟨w₁, habove⟩ := ih (p := p.parent) (w := w)
          (by simp only [Path.parent, List.length_dropLast]; omega)
          (isAskable_parent hask) (pathFits_parent hfits) fun v hv => hfree v hv.of_parent
        have hadded := adds_makeDirectoriesWithin around bound p.parent w
        rw [habove] at hadded
        have hfree₁ : ∀ v, OnTheWay around.directory p v → ¬ w₁.tree.isFile v = true :=
          fun v hv => hadded.isFile_eq v ▸ hfree v hv
        have hloc₁ := locate_of_leads_parent hfits (leads_of_makeDirectoriesWithin habove)
        unfold makeDirectoriesWithin
        rw [perform_bind, perform_outcome, hmissing]
        dsimp only
        rw [perform_bind_ok habove]
        exact exists_perform_makeDirectoryUnlessThere hask hfree₁ hloc₁
      · exact exists_perform_makeDirectoriesWithin_of_locate hask hfree hloc (bound + 1)

theorem exists_perform_makeDirectories (hask : isAskable p = true) (hfits : PathFits p)
    (hfree : ∀ v, OnTheWay around.directory p v → ¬ w.tree.isFile v = true) :
    ∃ w', perform (makeDirectories p) around w = (.ok (), w') :=
  exists_perform_makeDirectoriesWithin (Nat.le_refl _) hask hfits hfree

end StagedBuild.Disk
