import StagedBuild.Proofs.FileTree.Nodes
import StagedBuild.Proofs.Path.Text

/-!
Where paths lead. The location that steps lead to is settled by the steps alone; whether they can be
followed depends on the directories that are passed on the way. A path leads to the same place when
every step up is taken back against the name before it; from the root, the names that are left are
the location.
-/

namespace StagedBuild.FileTree

section Following

variable {t t' : FileTree} {loc goal cwd : Location} {p : Path}

/-- Where a step leads from a location. -/
def stepFrom (loc : Location) (step : String) : Location :=
  if step = ".." then loc.dropLast else loc ++ [step]

/-- Where steps lead from a location. -/
def reach : Location → List String → Location
  | loc, [] => loc
  | loc, step :: rest => reach (stepFrom loc step) rest

/-- The locations from which a step is taken. -/
def passed : Location → List String → List Location
  | _, [] => []
  | loc, step :: rest => loc :: passed (stepFrom loc step) rest

/-- A step that is not too long for a name. -/
def fits (step : String) : Bool :=
  step == ".." || decide (step.utf8ByteSize ≤ nameLimit)

theorem fits_of_isEntryName {step : String} (h : isEntryName step = true) : fits step = true := by
  simp only [isEntryName, Bool.and_eq_true, decide_eq_true_eq] at h
  simp [fits, h.2]

theorem follow_cons (t : FileTree) (loc : Location) (step : String) (rest : List String) :
    t.follow loc (step :: rest) =
      if t.isDirectory loc = true then
        if fits step = true then t.follow (stepFrom loc step) rest else .error .nameTooLong
      else .error (if t.isOccupied loc then .notDirectory else .noEntry) := by
  rw [follow]
  by_cases hdir : t.isDirectory loc = true
  · by_cases hup : step = ".."
    · simp [hdir, hup, fits, stepFrom]
    · by_cases hlong : nameLimit < step.utf8ByteSize
      · simp [hdir, hup, hlong, fits, Nat.not_le.2 hlong]
      · simp [hdir, hup, hlong, fits, stepFrom, Nat.not_lt.1 hlong]
  · simp [hdir]

theorem follow_eq_ok_iff {steps : List String} :
    t.follow loc steps = .ok goal ↔
      goal = reach loc steps ∧ (∀ v ∈ passed loc steps, t.isDirectory v = true) ∧
        ∀ step ∈ steps, fits step = true := by
  induction steps generalizing loc with
  | nil =>
      rw [follow, reach, Except.ok.injEq]
      exact ⟨fun h => ⟨h.symm, by simp [passed], by simp⟩, fun h => h.1.symm⟩
  | cons step rest ih =>
      rw [follow_cons]
      by_cases hdir : t.isDirectory loc = true
      · by_cases hfits : fits step = true
        · simp [hdir, hfits, ih, reach, passed]
        · simp [hdir, hfits]
      · simp [hdir, passed]

theorem follow_error {steps : List String} {e : SystemError} (h : t.follow loc steps = .error e)
    (hfits : ∀ step ∈ steps, fits step = true) :
    ∃ v ∈ passed loc steps, ¬ t.isDirectory v = true ∧
      e = if t.isOccupied v then .notDirectory else .noEntry := by
  induction steps generalizing loc with
  | nil => cases h
  | cons step rest ih =>
      rw [follow_cons, if_pos (hfits step (by simp))] at h
      split at h
      · obtain ⟨v, hv, hrest⟩ := ih h fun s hs => hfits s (List.mem_cons_of_mem _ hs)
        exact ⟨v, List.mem_cons_of_mem _ hv, hrest⟩
      · exact ⟨loc, by simp [passed], ‹_›, (Except.error.inj h).symm⟩

/-- Along an open way the only refusal is that of a name that is too long. -/
theorem follow_open {steps : List String} (h : ∀ v ∈ passed loc steps, t.isDirectory v = true)
    (hlong : ¬ ∀ step ∈ steps, fits step = true) : t.follow loc steps = .error .nameTooLong := by
  induction steps generalizing loc with
  | nil => simp at hlong
  | cons step rest ih =>
      rw [follow_cons, if_pos (h loc (by simp [passed]))]
      by_cases hfits : fits step = true
      · rw [if_pos hfits]
        refine ih (fun v hv => h v (List.mem_cons_of_mem _ hv)) fun hrest => hlong ?_
        simpa [hfits] using hrest
      · rw [if_neg hfits]

theorem follow_congr {steps : List String} (h : ∀ v ∈ passed loc steps, t.node? v = t'.node? v) :
    t.follow loc steps = t'.follow loc steps := by
  induction steps generalizing loc with
  | nil => rfl
  | cons step rest ih =>
      have hloc := h loc (by simp [passed])
      rw [follow_cons, follow_cons, isDirectory_congr hloc, isOccupied_congr hloc,
        ih fun v hv => h v (by simp [passed, hv])]

theorem reach_append (loc : Location) (first second : List String) :
    reach loc (first ++ second) = reach (reach loc first) second := by
  induction first generalizing loc with
  | nil => rfl
  | cons step rest ih => exact ih _

theorem passed_append (loc : Location) (first second : List String) :
    passed loc (first ++ second) = passed loc first ++ passed (reach loc first) second := by
  induction first generalizing loc with
  | nil => rfl
  | cons step rest ih => simp [passed, reach, ih]

theorem mem_passed_iff {steps : List String} {v : Location} :
    v ∈ passed loc steps ↔
      ∃ front back, steps = front ++ back ∧ back ≠ [] ∧ v = reach loc front := by
  induction steps generalizing loc with
  | nil => simp [passed]
  | cons step rest ih =>
      rw [passed, List.mem_cons, ih]
      constructor
      · rintro (rfl | ⟨front, back, rfl, hback, rfl⟩)
        · exact ⟨[], step :: rest, rfl, by simp, rfl⟩
        · exact ⟨step :: front, back, rfl, hback, rfl⟩
      · rintro ⟨_ | ⟨first, front⟩, back, hsteps, hback, rfl⟩
        · exact .inl rfl
        · rw [List.cons_append, List.cons.injEq] at hsteps
          obtain ⟨rfl, rfl⟩ := hsteps
          exact .inr ⟨front, back, rfl, hback, rfl⟩

section Plain

variable {steps : List String}

theorem reach_of_plain (h : ".." ∉ steps) : reach loc steps = loc ++ steps := by
  induction steps generalizing loc with
  | nil => simp [reach]
  | cons step rest ih =>
      rw [List.mem_cons, not_or] at h
      rw [reach, ih h.2, stepFrom, if_neg (Ne.symm h.1), List.append_assoc]
      rfl

theorem mem_passed_of_plain (h : ".." ∉ steps) {v : Location} :
    v ∈ passed loc steps ↔ ∃ front back, steps = front ++ back ∧ back ≠ [] ∧ v = loc ++ front := by
  rw [mem_passed_iff]
  refine exists_congr fun front => exists_congr fun back => and_congr_right fun hsteps => ?_
  rw [reach_of_plain fun hup => h (hsteps ▸ List.mem_append_left _ hup)]

end Plain

/-- Where the first step of a path is taken. -/
def start (cwd : Location) (p : Path) : Location :=
  if p.isAbsolute then [] else cwd

/-- Where a path leads, if it can be followed. -/
def goalOf (cwd : Location) (p : Path) : Location :=
  reach (start cwd p) p.steps

/-- The locations that a path passes. -/
def passedBy (cwd : Location) (p : Path) : List Location :=
  passed (start cwd p) p.steps

theorem locate_eq_ok_iff :
    t.locate cwd p = .ok goal ↔
      goal = goalOf cwd p ∧ p.text.utf8ByteSize ≤ pathLimit ∧
        (∀ v ∈ passedBy cwd p, t.isDirectory v = true) ∧ ∀ step ∈ p.steps, fits step = true := by
  unfold locate
  by_cases hlong : pathLimit < p.text.utf8ByteSize
  · simp [hlong, Nat.not_le.2 hlong]
  · rw [if_neg hlong, ← start, follow_eq_ok_iff, goalOf, passedBy]
    simp [Nat.not_lt.1 hlong]

/-- A path that is not too long, and whose steps are not too long for names. -/
structure PathFits (p : Path) : Prop where
  text : p.text.utf8ByteSize ≤ pathLimit
  steps : ∀ step ∈ p.steps, fits step = true

theorem locate_error (hfits : PathFits p) {e : SystemError} (h : t.locate cwd p = .error e) :
    ∃ v ∈ passedBy cwd p, ¬ t.isDirectory v = true ∧
      e = if t.isOccupied v then .notDirectory else .noEntry := by
  rw [locate, if_neg (Nat.not_lt.2 hfits.text)] at h
  exact follow_error h hfits.steps

theorem locate_open (h : ∀ v ∈ passedBy cwd p, t.isDirectory v = true) :
    PathFits p ∧ t.locate cwd p = .ok (goalOf cwd p) ∨
      ¬ PathFits p ∧ t.locate cwd p = .error .nameTooLong := by
  by_cases hfits : PathFits p
  · exact .inl ⟨hfits, locate_eq_ok_iff.2 ⟨rfl, hfits.text, h, hfits.steps⟩⟩
  · refine .inr ⟨hfits, ?_⟩
    unfold locate
    by_cases htext : pathLimit < p.text.utf8ByteSize
    · rw [if_pos htext]
    · rw [if_neg htext]
      exact follow_open h fun hsteps => hfits ⟨Nat.not_lt.1 htext, hsteps⟩

theorem start_of_absolute (h : p.isAbsolute = true) (cwd : Location) : start cwd p = [] :=
  if_pos h

theorem goalOf_of_absolute (h : p.isAbsolute = true) (cwd : Location) :
    goalOf cwd p = goalOf [] p := by
  rw [goalOf, goalOf, start_of_absolute h, start_of_absolute h]

theorem passedBy_of_absolute (h : p.isAbsolute = true) (cwd : Location) :
    passedBy cwd p = passedBy [] p := by
  rw [passedBy, passedBy, start_of_absolute h, start_of_absolute h]

theorem locate_of_absolute (h : p.isAbsolute = true) (cwd : Location) :
    t.locate cwd p = t.locate [] p := by
  unfold locate
  rw [if_pos h, if_pos h]

theorem mem_passedBy_iff_parent (h : p.steps ≠ []) {v : Location} :
    v ∈ passedBy cwd p ↔ v ∈ passedBy cwd p.parent ∨ v = goalOf cwd p.parent := by
  obtain ⟨front, last, hsteps⟩ := List.eq_nil_or_concat p.steps |>.resolve_left h
  rw [List.concat_eq_append] at hsteps
  have hparent : p.parent.steps = front := by
    change p.steps.dropLast = front
    rw [hsteps, List.dropLast_concat]
  change v ∈ passed (start cwd p) p.steps ↔ v ∈ passed (start cwd p) p.parent.steps ∨
    v = reach (start cwd p) p.parent.steps
  rw [hparent, hsteps, passed_append]
  simp [passed]

theorem locate_congr (h : ∀ v ∈ passedBy cwd p, t.node? v = t'.node? v) :
    t.locate cwd p = t'.locate cwd p := by
  unfold locate
  rw [← start, follow_congr h]

theorem lookup_congr (h : ∀ v ∈ passedBy cwd p, t.node? v = t'.node? v)
    (hgoal : t.node? (goalOf cwd p) = t'.node? (goalOf cwd p)) :
    t.lookup cwd p = t'.lookup cwd p := by
  unfold lookup
  rw [locate_congr h]
  rcases hloc : t'.locate cwd p with e | loc
  · rfl
  · have hl := (locate_eq_ok_iff.1 hloc).1
    subst hl
    simp only [bind, Except.bind, hgoal]

theorem lookup_eq_ok_iff {node : Node} :
    t.lookup cwd p = .ok (loc, node) ↔ t.locate cwd p = .ok loc ∧ t.node? loc = some node := by
  unfold lookup
  rcases t.locate cwd p with e | l
  · simp [bind, Except.bind]
  · rcases hnode : t.node? l with _ | n
    · simp only [bind, Except.bind, hnode]
      simp only [reduceCtorEq, Except.ok.injEq, false_iff, not_and]
      rintro rfl
      simp [hnode]
    · simp only [bind, Except.bind, hnode, Except.ok.injEq, Prod.mk.injEq]
      constructor
      · rintro ⟨rfl, rfl⟩
        exact ⟨rfl, hnode⟩
      · rintro ⟨rfl, hn⟩
        exact ⟨rfl, by simpa [hnode] using hn⟩

end Following

section Collapsing

variable {p : Path}

theorem collapseStep_reverse {anchor : Anchor} (h : anchor ≠ .relative) {loc : Location}
    (hup : ".." ∉ loc) (step : String) :
    Path.collapseStep anchor loc.reverse step = (stepFrom loc step).reverse := by
  unfold Path.collapseStep stepFrom
  split
  · rcases List.eq_nil_or_concat loc with rfl | ⟨front, last, rfl⟩
    · simp
    · rw [List.concat_eq_append] at hup ⊢
      have hlast : last ≠ ".." := by
        rintro rfl
        exact hup (by simp)
      rw [List.reverse_concat, List.dropLast_concat]
      simp [hlast]
  · simp

theorem up_not_mem_stepFrom {loc : Location} (hup : ".." ∉ loc) (step : String) :
    ".." ∉ stepFrom loc step := by
  unfold stepFrom
  split
  · exact fun h => hup (List.dropLast_subset _ h)
  · simp [hup, Ne.symm ‹_›]

theorem foldl_collapseStep {anchor : Anchor} (h : anchor ≠ .relative) {loc : Location}
    (hup : ".." ∉ loc) (steps : List String) :
    steps.foldl (Path.collapseStep anchor) loc.reverse = (reach loc steps).reverse ∧
      ".." ∉ reach loc steps := by
  induction steps generalizing loc with
  | nil => exact ⟨rfl, hup⟩
  | cons step rest ih =>
      rw [List.foldl_cons, collapseStep_reverse h hup, reach]
      exact ih (up_not_mem_stepFrom hup step)

theorem isStep_of_mem_reach {loc : Location} {steps : List String}
    (hloc : ∀ s ∈ loc, isStep s = true) (h : ∀ s ∈ steps, isStep s = true) :
    ∀ s ∈ reach loc steps, isStep s = true := by
  induction steps generalizing loc with
  | nil => exact hloc
  | cons step rest ih =>
      refine ih (fun s hs => ?_) fun s hs => h s (List.mem_cons_of_mem _ hs)
      unfold stepFrom at hs
      split at hs
      · exact hloc s (List.dropLast_subset _ hs)
      · rcases List.mem_append.1 hs with hs | hs
        · exact hloc s hs
        · rw [List.mem_singleton.1 hs]
          exact h step (by simp)

theorem anchor_ne_relative (h : p.isAbsolute = true) : p.anchor ≠ .relative := by
  simpa [Path.isAbsolute] using h

theorem isAbsolute_collapsed (p : Path) : p.collapsed.isAbsolute = p.isAbsolute := rfl

theorem steps_collapsed (h : p.isAbsolute = true) : p.collapsed.steps = goalOf [] p := by
  have hfold := (foldl_collapseStep (anchor_ne_relative h) List.not_mem_nil p.steps).1
  change ((p.steps.foldl (Path.collapseStep p.anchor) []).reverse).filter isStep = _
  rw [List.reverse_nil] at hfold
  rw [hfold, List.reverse_reverse, goalOf, start_of_absolute h, List.filter_eq_self]
  exact isStep_of_mem_reach (by simp) p.steps_isStep

theorem up_not_mem_goalOf (h : p.isAbsolute = true) : ".." ∉ goalOf [] p := by
  rw [goalOf, start_of_absolute h]
  exact (foldl_collapseStep (anchor_ne_relative h) List.not_mem_nil p.steps).2

theorem goalOf_collapsed_of_absolute (h : p.isAbsolute = true) :
    goalOf [] p.collapsed = goalOf [] p := by
  have habsolute : p.collapsed.isAbsolute = true := isAbsolute_collapsed p ▸ h
  have hplain : ".." ∉ p.collapsed.steps := by
    rw [steps_collapsed h]
    exact up_not_mem_goalOf h
  rw [goalOf, start_of_absolute habsolute, reach_of_plain hplain, steps_collapsed h,
    List.nil_append]

theorem reach_collapseStep (loc taken : Location) (step : String) :
    reach loc (Path.collapseStep .relative taken step).reverse =
      stepFrom (reach loc taken.reverse) step := by
  unfold Path.collapseStep
  split
  · rename_i hup
    subst hup
    split
    · rfl
    · rename_i last before
      split
      · rw [List.reverse_cons, reach_append]
        rfl
      · rename_i hlast
        have hname : stepFrom (reach loc before.reverse) last =
            reach loc before.reverse ++ [last] := if_neg hlast
        rw [List.reverse_cons, reach_append]
        change _ = stepFrom (stepFrom (reach loc before.reverse) last) ".."
        rw [hname, stepFrom, if_pos rfl, List.dropLast_concat]
  · rw [List.reverse_cons, reach_append]
    rfl

theorem reach_foldl_collapseStep (loc taken : Location) (steps : List String) :
    reach loc (steps.foldl (Path.collapseStep .relative) taken).reverse =
      reach (reach loc taken.reverse) steps := by
  induction steps generalizing taken with
  | nil => rfl
  | cons step rest ih => rw [List.foldl_cons, ih, reach_collapseStep, reach]

theorem isStep_of_mem_collapseStep {taken : List String} {step : String}
    (htaken : ∀ s ∈ taken, isStep s = true) (hstep : isStep step = true) :
    ∀ s ∈ Path.collapseStep .relative taken step, isStep s = true := by
  unfold Path.collapseStep
  split
  · split
    · simpa using hstep
    · split
      · simpa [hstep] using htaken
      · exact fun s hs => htaken s (List.mem_cons_of_mem _ hs)
  · simpa [hstep] using htaken

theorem isStep_of_mem_foldl_collapseStep {taken steps : List String}
    (htaken : ∀ s ∈ taken, isStep s = true) (hsteps : ∀ s ∈ steps, isStep s = true) :
    ∀ s ∈ steps.foldl (Path.collapseStep .relative) taken, isStep s = true := by
  induction steps generalizing taken with
  | nil => exact htaken
  | cons step rest ih =>
      exact ih (isStep_of_mem_collapseStep htaken (hsteps step (by simp))) fun s hs =>
        hsteps s (List.mem_cons_of_mem _ hs)

theorem steps_collapsed_of_relative (h : p.anchor = .relative) : p.collapsed.steps =
    (p.steps.foldl (Path.collapseStep .relative) []).reverse := by
  change ((p.steps.foldl (Path.collapseStep p.anchor) []).reverse).filter isStep = _
  rw [h, List.filter_eq_self]
  intro s hs
  exact isStep_of_mem_foldl_collapseStep (by simp) p.steps_isStep s (List.mem_reverse.1 hs)

/-- A collapsed path leads to the same place. -/
theorem goalOf_collapsed (cwd : Location) (p : Path) : goalOf cwd p.collapsed = goalOf cwd p := by
  by_cases habsolute : p.isAbsolute = true
  · rw [goalOf_of_absolute habsolute, goalOf_of_absolute (isAbsolute_collapsed p ▸ habsolute),
      goalOf_collapsed_of_absolute habsolute]
  · have hanchor : p.anchor = .relative := by
      simpa [Path.isAbsolute] using habsolute
    rw [goalOf, goalOf, steps_collapsed_of_relative hanchor, reach_foldl_collapseStep]
    rfl

theorem mem_passedBy_collapsed (h : p.isAbsolute = true) {v : Location} :
    v ∈ passedBy [] p.collapsed ↔ ∃ back, back ≠ [] ∧ goalOf [] p = v ++ back := by
  have habsolute : p.collapsed.isAbsolute = true := isAbsolute_collapsed p ▸ h
  have hplain : ".." ∉ p.collapsed.steps := by
    rw [steps_collapsed h]
    exact up_not_mem_goalOf h
  rw [passedBy, start_of_absolute habsolute, mem_passed_of_plain hplain, steps_collapsed h]
  constructor
  · rintro ⟨front, back, hgoal, hback, rfl⟩
    exact ⟨back, hback, hgoal⟩
  · rintro ⟨back, hback, hgoal⟩
    exact ⟨v, back, hgoal, hback, rfl⟩

theorem up_mem_collapseStep {taken : List String} (h : ".." ∈ taken) (step : String) :
    ".." ∈ Path.collapseStep .relative taken step := by
  unfold Path.collapseStep
  split
  · split
    · cases h
    · rename_i last before
      split
      · exact List.mem_cons_of_mem _ h
      · rename_i hlast
        exact (List.mem_cons.1 h).resolve_left fun heq => hlast heq.symm
  · exact List.mem_cons_of_mem _ h

/-- A path leads down from wherever it is taken: it starts from no place of its own, and every step
up takes back a name before it. -/
def LeadsDown (p : Path) : Prop :=
  p.anchor = .relative ∧ ".." ∉ p.collapsed.steps

instance (p : Path) : Decidable (LeadsDown p) :=
  inferInstanceAs (Decidable (_ ∧ _))

theorem LeadsDown.up_not_mem (h : LeadsDown p) {front : List String} (hfront : front <+: p.steps) :
    ".." ∉ front.foldl (Path.collapseStep .relative) [] := by
  have hstays : ∀ back taken : List String, ".." ∈ taken →
      ".." ∈ back.foldl (Path.collapseStep .relative) taken := by
    intro back
    induction back with
    | nil => exact fun _ h => h
    | cons step rest ih => exact fun _ h => ih _ (up_mem_collapseStep h step)
  obtain ⟨back, hback⟩ := hfront
  have hplain := h.2
  rw [steps_collapsed_of_relative h.1, List.mem_reverse, ← hback, List.foldl_append] at hplain
  exact fun hup => hplain (hstays back _ hup)

theorem LeadsDown.parent (h : LeadsDown p) : LeadsDown p.parent := by
  refine ⟨h.1, ?_⟩
  rw [steps_collapsed_of_relative (p := p.parent) h.1, List.mem_reverse]
  exact h.up_not_mem (List.dropLast_prefix p.steps)

section Joined

variable {base : Path}

theorem parent_join (h : p.anchor = .relative) (hsteps : p.steps ≠ []) :
    (base.join p).parent = base.join p.parent := by
  refine Path.ext_steps ?_ ?_
  · rw [Path.anchor_join (q := p.parent) h]
    exact Path.anchor_join h
  · rw [Path.steps_join (q := p.parent) h]
    change (base.join p).steps.dropLast = _
    rw [Path.steps_join h, List.dropLast_append_of_ne_nil hsteps]
    rfl

theorem start_join (h : p.anchor = .relative) (cwd : Location) :
    start cwd (base.join p) = start cwd base := by
  unfold start Path.isAbsolute
  rw [Path.anchor_join h]

theorem goalOf_join (h : p.anchor = .relative) (cwd : Location) :
    goalOf cwd (base.join p) = reach (goalOf cwd base) p.steps := by
  rw [goalOf, start_join h, Path.steps_join h, reach_append]
  rfl

theorem passedBy_join (h : p.anchor = .relative) (cwd : Location) :
    passedBy cwd (base.join p) = passedBy cwd base ++ passed (goalOf cwd base) p.steps := by
  rw [passedBy, start_join h, Path.steps_join h, passed_append]
  rfl

theorem prefix_of_mem_passed (h : LeadsDown p) {loc v : Location} (hv : v ∈ passed loc p.steps) :
    loc <+: v := by
  obtain ⟨front, back, hsteps, -, rfl⟩ := mem_passed_iff.1 hv
  have hplain := h.up_not_mem ⟨back, hsteps.symm⟩
  have hreach := reach_foldl_collapseStep loc [] front
  rw [reach_of_plain (by simpa using hplain)] at hreach
  exact ⟨_, hreach⟩

theorem goalOf_join_down (h : LeadsDown p) (cwd : Location) :
    goalOf cwd (base.join p) = goalOf cwd base ++ p.collapsed.steps := by
  rw [goalOf_join h.1, ← reach_of_plain h.2, steps_collapsed_of_relative h.1,
    reach_foldl_collapseStep]
  rfl

end Joined

end Collapsing

end StagedBuild.FileTree
