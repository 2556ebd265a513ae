import StagedBuild.Proofs.Action.RemoveTree

/-!
Actions that do alike in two worlds that are related, each in its own surroundings: they end alike
and leave worlds that are related again. What is done on a disk goes by what its entries are, so it
goes alike on disks that have the same entries, whatever happened there before and however old the
entries are.
-/

namespace StagedBuild

open FileTree

namespace FileTree

variable {t t' : FileTree} {cwd loc : Location} {p : Path}

/-- Two disks have the same entries. -/
def SameNodes (t t' : FileTree) : Prop :=
  ∀ q, t.node? q = t'.node? q

/-- What a change leaves goes by what the entries are. -/
def NodeWise (edit : FileTree → FileTree) : Prop :=
  ∀ t t', SameNodes t t' → SameNodes (edit t) (edit t')

namespace NodeWise

theorem writeFile (hne : loc ≠ []) (bytes : List UInt8) : NodeWise (·.writeFile loc bytes) := by
  intro t t' h q
  simp only [node?_writeFile hne, written, file?, h q, h loc]

theorem add (hne : loc ≠ []) (node : Node) : NodeWise (·.add loc node) := by
  intro t t' h q
  simp only [node?_add hne, h q]

theorem remove (hne : loc ≠ []) : NodeWise (·.remove loc) := by
  intro t t' h q
  simp only [node?_remove hne, h q]

end NodeWise

namespace SameNodes

variable (h : SameNodes t t')

include h

theorem locate_eq : t.locate cwd p = t'.locate cwd p :=
  locate_congr fun v _ => h v

theorem lookup_eq : t.lookup cwd p = t'.lookup cwd p :=
  lookup_congr (fun v _ => h v) (h _)

theorem answerAt_eq : Disk.answerAt p t cwd = Disk.answerAt p t' cwd := by
  unfold Disk.answerAt
  rw [h.lookup_eq]

theorem below_eq (base : Location) : t.below base = t'.below base :=
  below_congr fun way => h (base ++ way)

end SameNodes

end FileTree

/-- What a disk holds is found and read alike: paths start from the same directory, and there is the
same code and the same room for reading. -/
structure ReadAlike (around₁ around₂ : Surroundings) : Prop where
  directory : around₁.directory = around₂.directory
  unpacker : around₁.unpacker = around₂.unpacker
  stackRoom : around₁.stackRoom = around₂.stackRoom
  spareMemory : around₁.spareMemory = around₂.spareMemory

theorem ReadAlike.refl (around : Surroundings) : ReadAlike around around :=
  ⟨rfl, rfl, rfl, rfl⟩

namespace Action

variable {α β : Type} {R : World → World → Prop} {around₁ around₂ : Surroundings}

/-- In worlds that are related, an action ends alike and leaves worlds that are related. -/
def Alike (R : World → World → Prop) (around₁ around₂ : Surroundings) (action : Action α) : Prop :=
  ∀ w₁ w₂, R w₁ w₂ →
    (perform action around₁ w₁).1 = (perform action around₂ w₂).1 ∧
      R (perform action around₁ w₁).2 (perform action around₂ w₂).2

namespace Alike

variable {action : Action α}

theorem pure (a : α) : Alike R around₁ around₂ (Pure.pure a) :=
  fun _ _ h => ⟨rfl, h⟩

theorem throw (fault : Fault) :
    Alike R around₁ around₂ (MonadExcept.throw fault : Action α) :=
  fun _ _ h => ⟨rfl, h⟩

theorem ofExcept {ε : Type} (toFault : ε → Fault) (e : Except ε α) :
    Alike R around₁ around₂ (Action.ofExcept toFault e) := by
  cases e with
  | error e => exact throw _
  | ok a => exact pure a

theorem bind {next : α → Action β} (h : Alike R around₁ around₂ action)
    (hnext : ∀ a, Alike R around₁ around₂ (next a)) :
    Alike R around₁ around₂ (action >>= next) := by
  intro w₁ w₂ hw
  obtain ⟨hout, hafter⟩ := h w₁ w₂ hw
  rw [perform_bind, perform_bind]
  rcases hp₁ : perform action around₁ w₁ with ⟨o₁, v₁⟩
  rcases hp₂ : perform action around₂ w₂ with ⟨o₂, v₂⟩
  rw [hp₁, hp₂] at hout hafter
  obtain rfl : o₁ = o₂ := hout
  cases o₁ with
  | error fault => exact ⟨rfl, hafter⟩
  | ok a => exact hnext a v₁ v₂ hafter

theorem asks {β : Type} (f : Surroundings → β) (hf : f around₁ = f around₂) (next : β → Action α)
    (h : ∀ b, Alike R around₁ around₂ (next b)) :
    Alike R around₁ around₂ (do next (f (← read))) := by
  intro w₁ w₂ hw
  rw [perform_bind_ok (perform_read around₁ w₁), perform_bind_ok (perform_read around₂ w₂), hf]
  exact h _ w₁ w₂ hw

theorem ite {c : Prop} [Decidable c] {yes no : Action α}
    (hyes : c → Alike R around₁ around₂ yes) (hno : ¬ c → Alike R around₁ around₂ no) :
    Alike R around₁ around₂ (if c then yes else no) := by
  split
  · exact hyes ‹_›
  · exact hno ‹_›

theorem outcome (h : Alike R around₁ around₂ action) :
    Alike R around₁ around₂ (Action.outcome action) := by
  intro w₁ w₂ hw
  obtain ⟨hout, hafter⟩ := h w₁ w₂ hw
  rw [perform_outcome, perform_outcome]
  exact ⟨congrArg Except.ok hout, hafter⟩

theorem map (f : α → β) (h : Alike R around₁ around₂ action) :
    Alike R around₁ around₂ (f <$> action) := by
  intro w₁ w₂ hw
  obtain ⟨hout, hafter⟩ := h w₁ w₂ hw
  rw [perform_map, perform_map]
  exact ⟨congrArg (Except.map f) hout, hafter⟩

theorem forM {f : α → Action Unit} {xs : List α} (h : ∀ x, Alike R around₁ around₂ (f x)) :
    Alike R around₁ around₂ (xs.forM f) := by
  induction xs with
  | nil => exact pure ()
  | cons x xs ih => exact bind (h x) fun _ => ih

theorem mapM {f : α → Action β} {xs : List α} (h : ∀ x, Alike R around₁ around₂ (f x)) :
    Alike R around₁ around₂ (xs.mapM f) := by
  induction xs with
  | nil => exact pure []
  | cons x xs ih =>
      rw [List.mapM_cons]
      exact bind (h x) fun _ => bind ih fun _ => pure _

theorem filterM {f : α → Action Bool} {xs : List α} (h : ∀ x, Alike R around₁ around₂ (f x)) :
    Alike R around₁ around₂ (xs.filterM f) := by
  induction xs with
  | nil => exact pure []
  | cons x xs ih =>
      rw [filterM_cons]
      exact bind (h x) fun _ => bind ih fun _ => pure _

theorem filterMapM {f : α → Action (Option β)} {xs : List α}
    (h : ∀ x, Alike R around₁ around₂ (f x)) :
    Alike R around₁ around₂ (xs.filterMapM f) := by
  induction xs with
  | nil => exact pure []
  | cons x xs ih =>
      rw [List.filterMapM_cons]
      refine bind (h x) fun b => ?_
      cases b with
      | none => exact ih
      | some b => exact bind ih fun _ => pure _

end Alike

end Action

namespace Disk

open Action

/-- A relation between worlds whose disks have the same entries. It stays when the same event is
noted in both, and when the same change is made on both disks. -/
class Parallel (R : World → World → Prop) : Prop where
  same : ∀ {w₁ w₂}, R w₁ w₂ → SameNodes w₁.tree w₂.tree
  noted : ∀ {w₁ w₂} (event : Event), R w₁ w₂ →
    R { w₁ with history := event :: w₁.history } { w₂ with history := event :: w₂.history }
  edited : ∀ {w₁ w₂} {edit : FileTree → FileTree}, NodeWise edit → R w₁ w₂ →
    R ⟨edit w₁.tree, .changed (edit w₁.tree) :: w₁.history⟩
      ⟨edit w₂.tree, .changed (edit w₂.tree) :: w₂.history⟩

/-- The disks of two worlds have the same entries. -/
def SameDisk (w₁ w₂ : World) : Prop :=
  SameNodes w₁.tree w₂.tree

instance : Parallel SameDisk where
  same := id
  noted _ := id
  edited hedit h := hedit _ _ h

instance : Parallel Eq where
  same := by
    rintro w _ rfl
    exact fun _ => rfl
  noted := by
    rintro w _ event rfl
    rfl
  edited := by
    rintro w _ edit - rfl
    rfl

variable {α : Type} {R : World → World → Prop} [Parallel R] {around₁ around₂ : Surroundings}
  {p : Path}

theorem alike_note (event : Event) : Alike R around₁ around₂ (Action.note event) :=
  fun _ _ h => ⟨rfl, Parallel.noted event h⟩

theorem alike_say (line : String) : Alike R around₁ around₂ (Action.say line) :=
  alike_note _

section Operations

variable (hdir : around₁.directory = around₂.directory)

include hdir

theorem alike_ask {question : FileTree → Location → Except SystemError α}
    (h : ∀ t t', SameNodes t t' → ∀ cwd, question t cwd = question t' cwd) :
    Alike R around₁ around₂ (ask p question) := by
  intro w₁ w₂ hw
  rw [perform_ask, perform_ask, h _ _ (Parallel.same hw), hdir]
  split
  · exact ⟨rfl, hw⟩
  · exact ⟨rfl, hw⟩

theorem alike_change {edit : FileTree → Location → Except SystemError FileTree}
    (h : ∀ t t', SameNodes t t' → ∀ cwd,
      (∃ e, edit t cwd = .error e ∧ edit t' cwd = .error e) ∨
        ∃ f, NodeWise f ∧ edit t cwd = .ok (f t) ∧ edit t' cwd = .ok (f t')) :
    Alike R around₁ around₂ (change p edit) := by
  intro w₁ w₂ hw
  rw [perform_change, perform_change, hdir]
  by_cases hask : isAskable p = true
  · rw [if_pos hask, if_pos hask]
    rcases h _ _ (Parallel.same hw) around₂.directory with ⟨e, h₁, h₂⟩ | ⟨f, hf, h₁, h₂⟩
    · rw [h₁, h₂]
      exact ⟨rfl, hw⟩
    · rw [h₁, h₂]
      exact ⟨rfl, Parallel.edited hf hw⟩
  · rw [if_neg hask, if_neg hask]
    exact ⟨rfl, hw⟩

theorem alike_node? (p : Path) : Alike R around₁ around₂ (node? p) := by
  intro w₁ w₂ hw
  rw [perform_node?, perform_node?, hdir, (Parallel.same hw).answerAt_eq]
  exact ⟨rfl, hw⟩

theorem alike_isOccupied (p : Path) : Alike R around₁ around₂ (isOccupied p) :=
  (alike_node? hdir p).bind fun _ => .pure _

theorem alike_isDirectory (p : Path) : Alike R around₁ around₂ (isDirectory p) :=
  (alike_node? hdir p).bind fun _ => .pure _

theorem alike_isFile (p : Path) : Alike R around₁ around₂ (isFile p) := by
  refine (alike_node? hdir p).bind fun found => ?_
  split <;> exact .pure _

theorem alike_nodeIfAny (p : Path) : Alike R around₁ around₂ (nodeIfAny p) := by
  refine (alike_node? hdir p).outcome.bind fun found => ?_
  split <;> exact .pure _

theorem alike_readBytes (p : Path) : Alike R around₁ around₂ (readBytes p) :=
  alike_ask hdir fun t t' h cwd => by simp only [openFile, h.lookup_eq]

theorem alike_readText (p : Path) : Alike R around₁ around₂ (readText p) := by
  refine (alike_readBytes hdir p).bind fun bytes => ?_
  split
  · exact .pure _
  · exact .throw _

theorem alike_write (p : Path) (bytes : List UInt8) :
    Alike R around₁ around₂ (change p fun t cwd => t.write cwd p bytes) := by
  refine alike_change hdir fun t t' h cwd => ?_
  rcases hloc : t.locate cwd p with e | loc
  · refine .inl ⟨e, ?_, ?_⟩
    · simp [FileTree.write, hloc, Bind.bind, Except.bind]
    · simp [FileTree.write, h.locate_eq ▸ hloc, Bind.bind, Except.bind]
  · rw [write_eq hloc, write_eq (h.locate_eq ▸ hloc), isDirectory_congr (h loc)]
    by_cases hblocked : t'.isDirectory loc = true
    · rw [if_pos hblocked, if_pos hblocked]
      exact .inl ⟨_, rfl, rfl⟩
    · rw [if_neg hblocked, if_neg hblocked]
      have hne : loc ≠ [] := by
        rintro rfl
        exact hblocked (isDirectory_iff.2 (node?_nil _))
      exact .inr ⟨_, .writeFile hne bytes, rfl, rfl⟩

theorem alike_writeBytes (p : Path) (bytes : List UInt8) :
    Alike R around₁ around₂ (writeBytes p bytes) :=
  (alike_write hdir p []).bind fun _ => alike_write hdir p bytes

theorem alike_appendBytes (p : Path) (bytes : List UInt8) :
    Alike R around₁ around₂ (appendBytes p bytes) :=
  (alike_readBytes hdir p).bind fun _ => alike_write hdir p _

theorem alike_unlink (p : Path) : Alike R around₁ around₂ (unlink p) := by
  refine alike_change hdir fun t t' h cwd => ?_
  rcases hlookup : t'.lookup cwd p with e | ⟨loc, node | f⟩
  · refine .inl ⟨e, ?_, ?_⟩ <;> simp [FileTree.unlink, h.lookup_eq, hlookup, Bind.bind, Except.bind]
  · refine .inl ⟨.isDirectory, ?_, ?_⟩ <;>
      simp [FileTree.unlink, h.lookup_eq, hlookup, Bind.bind, Except.bind]
  · have hne : loc ≠ [] :=
      ne_nil_of_isFile (isFile_iff.2 ⟨f, (lookup_eq_ok_iff.1 hlookup).2⟩)
    refine .inr ⟨_, .remove hne, ?_, ?_⟩ <;>
      simp [FileTree.unlink, h.lookup_eq, hlookup, Bind.bind, Except.bind]

theorem alike_makeDirectory (p : Path) : Alike R around₁ around₂ (makeDirectory p) := by
  refine alike_change hdir fun t t' h cwd => ?_
  rcases hloc : t.locate cwd p with e | loc
  · refine .inl ⟨e, ?_, ?_⟩
    · simp [FileTree.makeDirectory, hloc, Bind.bind, Except.bind]
    · simp [FileTree.makeDirectory, h.locate_eq ▸ hloc, Bind.bind, Except.bind]
  · rw [makeDirectory_eq hloc, makeDirectory_eq (h.locate_eq ▸ hloc), isOccupied_congr (h loc)]
    by_cases hblocked : t'.isOccupied loc = true
    · rw [if_pos hblocked, if_pos hblocked]
      exact .inl ⟨_, rfl, rfl⟩
    · rw [if_neg hblocked, if_neg hblocked]
      have hne : loc ≠ [] := by
        rintro rfl
        exact hblocked (isOccupied_iff.2 ⟨_, node?_nil _⟩)
      exact .inr ⟨_, .add hne .directory, rfl, rfl⟩

theorem alike_makeDirectoriesWithin (bound : Nat) (p : Path) :
    Alike R around₁ around₂ (makeDirectoriesWithin bound p) := by
  have hthere : ∀ (q : Path) (fault : Fault), Alike R around₁ around₂
      (do if ← isDirectory q then return () else throw fault) := fun q fault =>
    (alike_isDirectory hdir q).bind fun _ => .ite (fun _ => .pure _) fun _ => .throw _
  have hunless : ∀ q : Path, Alike R around₁ around₂
      (makeDirectoriesWithin.makeDirectoryUnlessThere q) := by
    intro q
    refine (alike_makeDirectory hdir q).outcome.bind fun ended => ?_
    split
    · exact .pure _
    · exact hthere q _
    · exact .throw _
  induction bound generalizing p with
  | zero =>
      unfold makeDirectoriesWithin
      refine (alike_makeDirectory hdir p).outcome.bind fun ended => ?_
      split
      · exact .pure _
      · exact .throw _
      · exact hthere p _
      · exact .throw _
  | succ bound ih =>
      unfold makeDirectoriesWithin
      refine (alike_makeDirectory hdir p).outcome.bind fun ended => ?_
      split
      · exact .pure _
      · exact (ih p.parent).bind fun _ => hunless p
      · exact hthere p _
      · exact .throw _

theorem alike_makeDirectories (p : Path) : Alike R around₁ around₂ (makeDirectories p) :=
  alike_makeDirectoriesWithin hdir _ p

omit hdir in
/-- The same entries are taken away, in whatever order. -/
theorem alike_clearBelow (loc : Location) :
    Alike SameDisk around₁ around₂ (clearBelow loc) := by
  intro w₁ w₂ h
  obtain ⟨v₁, hclear₁, hnodes₁⟩ := perform_clearBelow around₁ loc w₁
  obtain ⟨v₂, hclear₂, hnodes₂⟩ := perform_clearBelow around₂ loc w₂
  rw [hclear₁, hclear₂]
  exact ⟨rfl, fun q => by rw [hnodes₁, hnodes₂, h q]⟩

theorem alike_removeDirectory (p : Path) :
    Alike R around₁ around₂ (change p fun t cwd => t.removeDirectory cwd p) := by
  refine alike_change hdir fun t t' h cwd => ?_
  unfold removeDirectory
  rw [h.lookup_eq]
  rcases hlookup : t'.lookup cwd p with e | ⟨loc, node⟩
  · exact .inl ⟨e, rfl, rfl⟩
  · simp only [Bind.bind, Except.bind, h.below_eq]
    split_ifs with _ hroot
    · exact .inl ⟨_, rfl, rfl⟩
    · exact .inl ⟨_, rfl, rfl⟩
    · exact .inl ⟨_, rfl, rfl⟩
    · exact .inl ⟨_, rfl, rfl⟩
    · exact .inl ⟨_, rfl, rfl⟩
    · exact .inr ⟨_, .remove hroot, rfl, rfl⟩

theorem alike_removeTree (p : Path) : Alike SameDisk around₁ around₂ (removeTree p) := by
  have hclear : ∀ loc, Alike SameDisk around₁ around₂
      (do
        clearBelow loc
        change p fun t cwd => t.removeDirectory cwd p) := fun loc =>
    (alike_clearBelow loc).bind fun _ => alike_removeDirectory hdir p
  have hask : Alike SameDisk around₁ around₂ (ask p fun t cwd => t.lookup cwd p) :=
    alike_ask hdir fun t t' h cwd => h.lookup_eq
  unfold removeTree
  refine hask.bind ?_
  rintro ⟨loc, node⟩
  dsimp only
  by_cases hnode : node = .directory
  · rw [if_neg (not_not.2 hnode)]
    exact hclear loc
  · rw [if_pos hnode]
    exact (Alike.throw _).bind fun _ => hclear loc

theorem alike_entriesBelow (p : Path) : Alike R around₁ around₂ (entriesBelow p) := by
  unfold entriesBelow
  refine (alike_isDirectory hdir p).bind fun there => .ite (fun _ => .pure _) fun _ => ?_
  refine (alike_ask hdir fun t t' h cwd => ?_).bind fun _ => .pure _
  simp only [h.locate_eq, h.below_eq]

end Operations

end Disk

end StagedBuild
