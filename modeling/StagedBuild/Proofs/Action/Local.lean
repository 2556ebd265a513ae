import StagedBuild.Proofs.Action.Below
import StagedBuild.Proofs.FileTree.Follow

/-!
Actions that stay below a directory. In two worlds that have the same below it, such an action has
the same outcome and leaves the same there, and it changes nothing elsewhere. Some directories
elsewhere may be named that are there in both worlds, because paths lead through them.
-/

namespace StagedBuild.Disk

open Action FileTree

variable {α β : Type} {base : Location} {ways : List Location} {around₁ around₂ : Surroundings}
  {w₁ w₂ w w' : World} {p : Path}

/-- Two worlds with the same below a directory, and with certain other directories. -/
structure Agree (base : Location) (ways : List Location) (w₁ w₂ : World) : Prop where
  wellFormed : w₁.tree.WellFormed ∧ w₂.tree.WellFormed
  directory : w₁.tree.isDirectory base = true
  open' : ∀ v ∈ ways, w₁.tree.isDirectory v = true ∧ w₂.tree.isDirectory v = true
  same : ∀ way, w₁.tree.node? (base ++ way) = w₂.tree.node? (base ++ way)

/-- Nothing is changed but below a location. -/
def ChangedBelow (base : Location) (w w' : World) : Prop :=
  ∀ q, ¬ base <+: q → w'.tree.node? q = w.tree.node? q

instance : Passage (ChangedBelow base) where
  refl _ := fun _ _ => rfl
  trans huv hvw := fun q hq => (hvw q hq).trans (huv q hq)

/-- What an action does, it does below a directory, and by what is there. -/
def Local (around₁ around₂ : Surroundings) (base : Location) (ways : List Location)
    (action : Action α) : Prop :=
  ∀ w₁ w₂, Agree base ways w₁ w₂ →
    (perform action around₁ w₁).1 = (perform action around₂ w₂).1 ∧
      Agree base ways (perform action around₁ w₁).2 (perform action around₂ w₂).2 ∧
      ChangedBelow base w₁ (perform action around₁ w₁).2 ∧
      ChangedBelow base w₂ (perform action around₂ w₂).2

namespace Local

variable {action : Action α}

/-- An action that is local ends alike in worlds that agree. -/
theorem compare {v₁ v₂ : World} {outcome₁ outcome₂ : Except Fault α}
    (h : Local around₁ around₂ base ways action) (hw : Agree base ways w₁ w₂)
    (h₁ : perform action around₁ w₁ = (outcome₁, v₁))
    (h₂ : perform action around₂ w₂ = (outcome₂, v₂)) :
    outcome₁ = outcome₂ ∧ Agree base ways v₁ v₂ := by
  obtain ⟨hout, hagree, -⟩ := h w₁ w₂ hw
  rw [h₁, h₂] at hout hagree
  exact ⟨hout, hagree⟩

theorem alone {around : Surroundings} {outcome : Except Fault α}
    (h : Local around around base ways action) (hw : Agree base ways w w)
    (hperform : perform action around w = (outcome, w')) :
    Agree base ways w' w' ∧ ChangedBelow base w w' := by
  obtain ⟨-, hagree, hchanged, -⟩ := h w w hw
  rw [hperform] at hagree hchanged
  exact ⟨hagree, hchanged⟩

theorem pure (a : α) : Local around₁ around₂ base ways (Pure.pure a) :=
  fun _ _ h => ⟨rfl, h, Passage.refl _, Passage.refl _⟩

theorem throw (fault : Fault) :
    Local around₁ around₂ base ways (MonadExcept.throw fault : Action α) :=
  fun _ _ h => ⟨rfl, h, Passage.refl _, Passage.refl _⟩

theorem ofExcept {ε : Type} (toFault : ε → Fault) (e : Except ε α) :
    Local around₁ around₂ base ways (Action.ofExcept toFault e) := by
  cases e with
  | error e => exact throw _
  | ok a => exact pure a

theorem bind {next : α → Action β} (h : Local around₁ around₂ base ways action)
    (hnext : ∀ a, Local around₁ around₂ base ways (next a)) :
    Local around₁ around₂ base ways (action >>= next) := by
  intro w₁ w₂ hw
  obtain ⟨hout, hagree, hchanged₁, hchanged₂⟩ := h w₁ w₂ hw
  rw [perform_bind, perform_bind]
  rcases hp₁ : perform action around₁ w₁ with ⟨o₁, v₁⟩
  rcases hp₂ : perform action around₂ w₂ with ⟨o₂, v₂⟩
  rw [hp₁, hp₂] at hout hagree
  rw [hp₁] at hchanged₁
  rw [hp₂] at hchanged₂
  obtain rfl : o₁ = o₂ := hout
  cases o₁ with
  | error fault => exact ⟨rfl, hagree, hchanged₁, hchanged₂⟩
  | ok a =>
      obtain ⟨hout, hagree', hchanged₁', hchanged₂'⟩ := hnext a v₁ v₂ hagree
      exact ⟨hout, hagree', Passage.trans hchanged₁ hchanged₁',
        Passage.trans hchanged₂ hchanged₂'⟩

theorem asks {β : Type} (f : Surroundings → β) (hf : f around₁ = f around₂) (next : β → Action α)
    (h : ∀ b, Local around₁ around₂ base ways (next b)) :
    Local around₁ around₂ base ways (do next (f (← read))) := by
  intro w₁ w₂ hw
  rw [perform_bind_ok (perform_read around₁ w₁), perform_bind_ok (perform_read around₂ w₂), hf]
  exact h _ w₁ w₂ hw

theorem ite {c : Prop} [Decidable c] {yes no : Action α}
    (hyes : c → Local around₁ around₂ base ways yes)
    (hno : ¬ c → Local around₁ around₂ base ways no) :
    Local around₁ around₂ base ways (if c then yes else no) := by
  split
  · exact hyes ‹_›
  · exact hno ‹_›

theorem outcome (h : Local around₁ around₂ base ways action) :
    Local around₁ around₂ base ways (Action.outcome action) := by
  intro w₁ w₂ hw
  obtain ⟨hout, hrest⟩ := h w₁ w₂ hw
  rw [perform_outcome, perform_outcome]
  exact ⟨congrArg Except.ok hout, hrest⟩

theorem forM {f : α → Action Unit} {xs : List α}
    (h : ∀ x ∈ xs, Local around₁ around₂ base ways (f x)) :
    Local around₁ around₂ base ways (xs.forM f) := by
  induction xs with
  | nil => exact pure ()
  | cons x xs ih =>
      exact bind (h x (by simp)) fun _ => ih fun y hy => h y (List.mem_cons_of_mem x hy)

end Local

/-- A place that is seen from below a directory: it is there or below, above it, or among the other
directories. -/
def Seen (base : Location) (ways : List Location) (v : Location) : Prop :=
  base <+: v ∨ v <+: base ∨ v ∈ ways

/-- A path from the root that passes only what is seen. -/
structure Visible (base : Location) (ways : List Location) (p : Path) : Prop where
  absolute : p.isAbsolute = true
  goal : Seen base ways (goalOf [] p)
  passed : ∀ v ∈ passedBy [] p, Seen base ways v

theorem Visible.parent (h : Visible base ways p) : Visible base ways p.parent := by
  by_cases hsteps : p.steps = []
  · rwa [Path.parent_of_steps_eq_nil hsteps]
  · have hmem := fun v => (mem_passedBy_iff_parent hsteps : v ∈ passedBy [] p ↔ _)
    exact ⟨h.absolute, h.passed _ ((hmem _).2 (.inr rfl)),
      fun v hv => h.passed v ((hmem v).2 (.inl hv))⟩

namespace Agree

theorem symm (h : Agree base ways w₁ w₂) : Agree base ways w₂ w₁ where
  wellFormed := h.wellFormed.symm
  directory := by
    have hsame := h.same []
    rw [List.append_nil] at hsame
    exact isDirectory_congr hsame ▸ h.directory
  open' v hv := (h.open' v hv).symm
  same way := (h.same way).symm

theorem isDirectory_above (h : Agree base ways w₁ w₂) {v : Location} (hv : v <+: base) :
    w₁.tree.isDirectory v = true := by
  obtain ⟨rest, rfl⟩ := hv
  by_cases hrest : rest = []
  · have hdir := h.directory
    rwa [hrest, List.append_nil] at hdir
  · exact h.wellFormed.1.isDirectory_above (isOccupied_of_isDirectory h.directory) hrest

theorem node?_eq (h : Agree base ways w₁ w₂) {v : Location} (hv : Seen base ways v) :
    w₁.tree.node? v = w₂.tree.node? v := by
  rcases hv with ⟨way, rfl⟩ | habove | hway
  · exact h.same way
  · rw [isDirectory_iff.1 (h.isDirectory_above habove),
      isDirectory_iff.1 (h.symm.isDirectory_above habove)]
  · rw [isDirectory_iff.1 (h.open' v hway).1, isDirectory_iff.1 (h.open' v hway).2]

theorem prefix_of_not_isDirectory (h : Agree base ways w₁ w₂) {v : Location}
    (hv : Seen base ways v) (hnot : ¬ w₁.tree.isDirectory v = true) : base <+: v := by
  rcases hv with hbelow | habove | hway
  · exact hbelow
  · exact absurd (h.isDirectory_above habove) hnot
  · exact absurd (h.open' v hway).1 hnot

theorem locate_eq (h : Agree base ways w₁ w₂) (hp : Visible base ways p) (cwd₁ cwd₂ : Location) :
    w₁.tree.locate cwd₁ p = w₂.tree.locate cwd₂ p := by
  rw [locate_of_absolute hp.absolute cwd₁, locate_of_absolute hp.absolute cwd₂]
  exact locate_congr fun v hv => h.node?_eq (hp.passed v hv)

theorem lookup_eq (h : Agree base ways w₁ w₂) (hp : Visible base ways p)
    (cwd₁ cwd₂ : Location) : w₁.tree.lookup cwd₁ p = w₂.tree.lookup cwd₂ p := by
  unfold lookup
  rw [h.locate_eq hp cwd₁ cwd₂]
  rcases hloc : w₂.tree.locate cwd₂ p with e | loc
  · rfl
  · have hgoal := (locate_eq_ok_iff.1 hloc).1
    rw [goalOf_of_absolute hp.absolute] at hgoal
    subst hgoal
    simp only [bind, Except.bind, h.node?_eq hp.goal]

theorem answerAt_eq (h : Agree base ways w₁ w₂) (hp : Visible base ways p)
    (cwd₁ cwd₂ : Location) : answerAt p w₁.tree cwd₁ = answerAt p w₂.tree cwd₂ := by
  unfold answerAt
  rw [h.lookup_eq hp cwd₁ cwd₂]

theorem edit (h : Agree base ways w₁ w₂) {loc : Location} {node : Node} {t₁ t₂ : FileTree}
    {events₁ events₂ : List Event} (hbelow : base <+: loc)
    (hwf : t₁.WellFormed ∧ t₂.WellFormed) (hfree : ¬ w₁.tree.isDirectory loc = true)
    (ht₁ : ∀ q, t₁.node? q = if q = loc then some node else w₁.tree.node? q)
    (ht₂ : ∀ q, t₂.node? q = if q = loc then some node else w₂.tree.node? q) :
    Agree base ways ⟨t₁, events₁⟩ ⟨t₂, events₂⟩ ∧ ChangedBelow base w₁ ⟨t₁, events₁⟩ ∧
      ChangedBelow base w₂ ⟨t₂, events₂⟩ := by
  have hfree₂ : ¬ w₂.tree.isDirectory loc = true := by
    obtain ⟨way, rfl⟩ := hbelow
    exact isDirectory_congr (h.same way) ▸ hfree
  have hdirs : ∀ {t t' : FileTree}, ¬ t.isDirectory loc = true →
      (∀ q, t'.node? q = if q = loc then some node else t.node? q) →
      ∀ v, t.isDirectory v = true → t'.isDirectory v = true := by
    intro t t' hnot ht' v hv
    rw [isDirectory_iff, ht', if_neg fun heq : v = loc => hnot (heq ▸ hv)]
    exact isDirectory_iff.1 hv
  refine ⟨⟨hwf, hdirs hfree ht₁ _ h.directory, fun v hv => ?_, fun way => ?_⟩, fun q hq => ?_,
    fun q hq => ?_⟩
  · exact ⟨hdirs hfree ht₁ v (h.open' v hv).1, hdirs hfree₂ ht₂ v (h.open' v hv).2⟩
  · change t₁.node? _ = t₂.node? _
    rw [ht₁, ht₂, h.same way]
  · change t₁.node? q = _
    rw [ht₁, if_neg fun heq : q = loc => hq (heq ▸ hbelow)]
  · change t₂.node? q = _
    rw [ht₂, if_neg fun heq : q = loc => hq (heq ▸ hbelow)]

end Agree

section Operations

theorem local_node? (hp : Visible base ways p) :
    Local around₁ around₂ base ways (node? p) := by
  intro w₁ w₂ h
  rw [perform_node?, perform_node?]
  exact ⟨h.answerAt_eq hp _ _, h, Passage.refl _, Passage.refl _⟩

theorem local_nodeIfAny (hp : Visible base ways p) :
    Local around₁ around₂ base ways (nodeIfAny p) := by
  intro w₁ w₂ h
  rw [perform_nodeIfAny, perform_nodeIfAny, h.answerAt_eq hp around₁.directory around₂.directory]
  exact ⟨rfl, h, Passage.refl _, Passage.refl _⟩

theorem local_isDirectory (hp : Visible base ways p) :
    Local around₁ around₂ base ways (isDirectory p) :=
  (local_node? hp).bind fun _ => Local.pure _

theorem local_readBytes (hp : Visible base ways p) :
    Local around₁ around₂ base ways (readBytes p) := by
  intro w₁ w₂ h
  rw [readBytes, perform_ask, perform_ask]
  simp only [openFile, h.lookup_eq hp around₁.directory around₂.directory]
  split
  · exact ⟨rfl, h, Passage.refl _, Passage.refl _⟩
  · exact ⟨rfl, h, Passage.refl _, Passage.refl _⟩

/-- An edit at the place where a path leads: what is there blocks it, or is replaced. -/
structure EditsAt (p : Path) (edit : FileTree → Location → Except SystemError FileTree)
    (blocked : Option Node → Bool) (error : SystemError) (node : Option Node → Node)
    (put : FileTree → Location → FileTree) : Prop where
  refused : ∀ t cwd e, t.locate cwd p = .error e → edit t cwd = .error e
  located : ∀ t cwd loc, t.locate cwd p = .ok loc →
    edit t cwd = if blocked (t.node? loc) = true then .error error else .ok (put t loc)
  directory : blocked (some .directory) = true
  node? : ∀ t loc, loc ≠ [] → ∀ q,
    (put t loc).node? q = if q = loc then some (node (t.node? loc)) else t.node? q
  wellFormed : ∀ {t t' : FileTree} {cwd}, t.WellFormed → t.isDirectory (start cwd p) = true →
    isAskable p = true → edit t cwd = .ok t' → t'.WellFormed

theorem EditsAt.local {edit : FileTree → Location → Except SystemError FileTree}
    {blocked : Option Node → Bool} {error : SystemError} {node : Option Node → Node}
    {put : FileTree → Location → FileTree} (he : EditsAt p edit blocked error node put)
    (hp : Visible base ways p) : Local around₁ around₂ base ways (change p edit) := by
  intro w₁ w₂ h
  rw [perform_change, perform_change]
  by_cases hask : isAskable p = true
  · rw [if_pos hask, if_pos hask]
    rcases hloc : w₂.tree.locate around₂.directory p with e | loc
    · have hloc₁ := (h.locate_eq hp around₁.directory around₂.directory).trans hloc
      rw [he.refused _ _ _ hloc, he.refused _ _ _ hloc₁]
      exact ⟨rfl, h, Passage.refl _, Passage.refl _⟩
    · have hloc₁ := (h.locate_eq hp around₁.directory around₂.directory).trans hloc
      have hgoal := (locate_eq_ok_iff.1 hloc).1
      rw [goalOf_of_absolute hp.absolute] at hgoal
      have hseen : Seen base ways loc := hgoal ▸ hp.goal
      have hnode := h.node?_eq hseen
      have hedit₁ := he.located _ _ _ hloc₁
      have hedit₂ := he.located _ _ _ hloc
      rw [hnode] at hedit₁
      by_cases hblocked : blocked (w₂.tree.node? loc) = true
      · rw [if_pos hblocked] at hedit₁ hedit₂
        rw [hedit₁, hedit₂]
        exact ⟨rfl, h, Passage.refl _, Passage.refl _⟩
      · rw [if_neg hblocked] at hedit₁ hedit₂
        have hfree : ¬ w₁.tree.isDirectory loc = true := by
          intro hdir
          rw [← hnode, isDirectory_iff.1 hdir] at hblocked
          exact hblocked he.directory
        have hne : loc ≠ [] := by
          rintro rfl
          exact hfree (isDirectory_iff.2 (node?_nil _))
        have hstart : ∀ (t : FileTree) cwd, t.isDirectory (start cwd p) = true := fun t cwd =>
          start_of_absolute hp.absolute cwd ▸ isDirectory_iff.2 (node?_nil t)
        rw [hedit₁, hedit₂]
        refine ⟨rfl, h.edit (h.prefix_of_not_isDirectory hseen hfree)
          ⟨he.wellFormed h.wellFormed.1 (hstart _ _) hask hedit₁,
            he.wellFormed h.wellFormed.2 (hstart _ _) hask hedit₂⟩ hfree (fun q => ?_)
          fun q => he.node? _ _ hne q⟩
        rw [he.node? _ _ hne q, hnode]
  · rw [if_neg hask, if_neg hask]
    exact ⟨rfl, h, Passage.refl _, Passage.refl _⟩

/-- The file that writing leaves where something was. -/
def fileOver (bytes : List UInt8) : Option Node → Node
  | some (.file f) => .file { f with bytes := bytes }
  | _ => .file ⟨bytes, false⟩

theorem file_written (t : FileTree) (loc : Location) (bytes : List UInt8) :
    Node.file (t.written loc bytes) = fileOver bytes (t.node? loc) := by
  unfold written file? fileOver
  rcases t.node? loc with _ | _ | f <;> rfl

theorem editsAt_write (p : Path) (bytes : List UInt8) :
    EditsAt p (fun t cwd => t.write cwd p bytes) (· == some .directory) .isDirectory
      (fileOver bytes) fun t loc => t.writeFile loc bytes where
  refused t cwd e h := by simp [write, h, bind, Except.bind]
  located t cwd loc h := write_eq h bytes
  directory := rfl
  node? t loc hne q := by rw [node?_writeFile hne, file_written]
  wellFormed ht hstart hask h := ht.write hstart hask h

theorem editsAt_makeDirectory (p : Path) :
    EditsAt p (fun t cwd => t.makeDirectory cwd p) Option.isSome .occupied
      (fun _ => .directory) fun t loc => t.add loc .directory where
  refused t cwd e h := by simp [FileTree.makeDirectory, h, bind, Except.bind]
  located t cwd loc h := makeDirectory_eq h
  directory := rfl
  node? t loc hne q := node?_add hne q .directory
  wellFormed ht hstart hask h := ht.makeDirectory hstart hask h

theorem local_write (hp : Visible base ways p) (bytes : List UInt8) :
    Local around₁ around₂ base ways (change p fun t cwd => t.write cwd p bytes) :=
  (editsAt_write p bytes).local hp

theorem local_makeDirectory (hp : Visible base ways p) :
    Local around₁ around₂ base ways (makeDirectory p) :=
  (editsAt_makeDirectory p).local hp

theorem local_truncate (hp : Visible base ways p) :
    Local around₁ around₂ base ways (truncate p) :=
  local_write hp []

theorem local_writeBytes (hp : Visible base ways p) (bytes : List UInt8) :
    Local around₁ around₂ base ways (writeBytes p bytes) :=
  (local_write hp []).bind fun _ => local_write hp bytes

theorem local_appendBytes (hp : Visible base ways p) (bytes : List UInt8) :
    Local around₁ around₂ base ways (appendBytes p bytes) :=
  (local_readBytes hp).bind fun _ => local_write hp _

theorem local_entriesBelow (hp : Visible base ways p) (hbase : goalOf [] p = base) :
    Local around₁ around₂ base ways (entriesBelow p) := by
  unfold entriesBelow
  refine (local_isDirectory hp).bind fun _ => Local.ite (fun _ => Local.pure _) fun _ => ?_
  refine Local.bind (fun w₁ w₂ h => ?_) fun _ => Local.pure _
  rw [perform_ask, perform_ask]
  simp only [h.locate_eq hp around₁.directory around₂.directory]
  rcases hloc : w₂.tree.locate around₂.directory p with e | loc
  · split <;> exact ⟨rfl, h, Passage.refl _, Passage.refl _⟩
  · have hgoal := (locate_eq_ok_iff.1 hloc).1
    rw [goalOf_of_absolute hp.absolute, hbase] at hgoal
    simp only [hgoal, bind, Except.bind, below_congr h.same]
    split <;> exact ⟨rfl, h, Passage.refl _, Passage.refl _⟩

end Operations

end StagedBuild.Disk
