import StagedBuild.Proofs.Action.Perform

/-!
What the operations on the disk keep. Questions leave the world as it is; everything else goes
through one change of the tree, so what a change keeps is kept by whatever is put together from
changes and questions.
-/

namespace StagedBuild.Disk

open Action

variable {α : Type} {around : Surroundings} {R : World → World → Prop}

theorem perform_ask (p : Path) (question : FileTree → Location → Except SystemError α)
    (around : Surroundings) (w : World) :
    perform (ask p question) around w =
      if isAskable p then
        ((question w.tree around.directory).mapError fun e => .system (.on e p.text), w)
      else (.error (.value .embeddedNull), w) := by
  unfold ask
  by_cases hp : isAskable p = true
  · rcases hq : question w.tree around.directory with e | a <;>
      simp [hp, hq, perform_bind, mapError_ok, mapError_error]
  · simp [hp, perform_bind]

theorem perform_change (p : Path) (edit : FileTree → Location → Except SystemError FileTree)
    (around : Surroundings) (w : World) :
    perform (change p edit) around w =
      if isAskable p then
        match edit w.tree around.directory with
        | .ok t => (.ok (), ⟨t, .changed t :: w.history⟩)
        | .error e => (.error (.system (.on e p.text)), w)
      else (.error (.value .embeddedNull), w) := by
  unfold change
  rw [perform_bind, perform_ask]
  by_cases hp : isAskable p = true
  · rcases hq : edit w.tree around.directory with e | t <;> simp [hp, mapError_ok, mapError_error]
  · simp [hp]

theorem readOnly_ask (p : Path) (question : FileTree → Location → Except SystemError α) :
    ReadOnly (ask p question) := by
  intro around w
  simp only [perform_ask]
  split <;> rfl

/-- What is at a path, or the refusal that leaves it open. -/
def answerAt (p : Path) (t : FileTree) (cwd : Location) : Except Fault (Option Node) :=
  if isAskable p then
    match t.lookup cwd p with
    | .ok (_, node) => .ok (some node)
    | .error e => if e.isAbsence then .ok none else .error (.system (.on e p.text))
  else .ok none

theorem perform_node? (p : Path) (around : Surroundings) (w : World) :
    perform (node? p) around w = (answerAt p w.tree around.directory, w) := by
  unfold node? answerAt
  by_cases hp : isAskable p = true
  · rcases hq : w.tree.lookup around.directory p with e | ⟨loc, node⟩
    · by_cases he : e.isAbsence = true <;> simp [hp, hq, he, perform_bind]
    · simp [hp, hq, perform_bind]
  · simp [hp]

theorem perform_isOccupied (p : Path) (around : Surroundings) (w : World) :
    perform (isOccupied p) around w =
      ((answerAt p w.tree around.directory).map Option.isSome, w) := by
  unfold isOccupied
  rw [perform_bind, perform_node?]
  rcases answerAt p w.tree around.directory with fault | node <;> rfl

theorem readOnly_isOccupied (p : Path) : ReadOnly (isOccupied p) := by
  intro around w
  rw [perform_isOccupied]

theorem perform_isDirectory (p : Path) (around : Surroundings) (w : World) :
    perform (isDirectory p) around w =
      ((answerAt p w.tree around.directory).map (· == some .directory), w) := by
  unfold isDirectory
  rw [perform_bind, perform_node?]
  rcases answerAt p w.tree around.directory with fault | node <;> rfl

theorem readOnly_isDirectory (p : Path) : ReadOnly (isDirectory p) := by
  intro around w
  rw [perform_isDirectory]

/-- There is a file among what may be at a path. -/
def isFileNode : Option Node → Bool
  | some (.file _) => true
  | _ => false

theorem perform_isFile (p : Path) (around : Surroundings) (w : World) :
    perform (isFile p) around w =
      ((answerAt p w.tree around.directory).map isFileNode, w) := by
  unfold isFile
  rw [perform_bind, perform_node?]
  rcases answerAt p w.tree around.directory with fault | (_ | _ | f) <;> rfl

theorem readOnly_isFile (p : Path) : ReadOnly (isFile p) := by
  intro around w
  rw [perform_isFile]

theorem perform_nodeIfAny (p : Path) (around : Surroundings) (w : World) :
    perform (nodeIfAny p) around w =
      (.ok ((answerAt p w.tree around.directory).toOption.join), w) := by
  unfold nodeIfAny
  rw [perform_bind, perform_outcome, perform_node?]
  rcases answerAt p w.tree around.directory with fault | node <;> rfl

theorem readOnly_nodeIfAny (p : Path) : ReadOnly (nodeIfAny p) := by
  intro around w
  rw [perform_nodeIfAny]

theorem readOnly_stamp (p : Path) : ReadOnly (stamp p) :=
  readOnly_ask p _

/-- The bytes of the file at a path, or the refusal. -/
def bytesAt (p : Path) (t : FileTree) (cwd : Location) : Except Fault (List UInt8) :=
  if isAskable p then
    match t.openFile cwd p with
    | .ok f => .ok f.bytes
    | .error e => .error (.system (.on e p.text))
  else .error (.value .embeddedNull)

theorem perform_readBytes (p : Path) (around : Surroundings) (w : World) :
    perform (readBytes p) around w = (bytesAt p w.tree around.directory, w) := by
  rw [readBytes, perform_ask, bytesAt]
  split
  · rcases w.tree.openFile around.directory p with e | f <;> rfl
  · rfl

theorem readOnly_readBytes (p : Path) : ReadOnly (readBytes p) := by
  intro around w
  rw [perform_readBytes]

theorem perform_readText (p : Path) (around : Surroundings) (w : World) :
    perform (readText p) around w =
      ((bytesAt p w.tree around.directory).bind fun bytes =>
        (Text.decodeFile? bytes).elim (.error .undecodable) .ok, w) := by
  unfold readText
  rw [perform_bind, perform_readBytes]
  rcases bytesAt p w.tree around.directory with fault | bytes
  · rfl
  · cases hdecoded : Text.decodeFile? bytes <;> simp [hdecoded, Except.bind]

theorem readOnly_readText (p : Path) : ReadOnly (readText p) := by
  intro around w
  rw [perform_readText]

theorem readOnly_entriesBelow (p : Path) : ReadOnly (entriesBelow p) := by
  refine (readOnly_isDirectory p).bind fun b => ?_
  cases b
  · exact fun _ _ => rfl
  · exact (readOnly_ask p _).bind fun _ _ _ => rfl

/-- A relation between worlds that is about the disk only. -/
class OfTree (R : World → World → Prop) : Prop extends Passage R where
  same : ∀ w w' : World, w'.tree = w.tree → R w w'

section Changes

theorem keeps_change [Passage R] {p : Path}
    {edit : FileTree → Location → Except SystemError FileTree}
    (h : ∀ (w : World) t, edit w.tree around.directory = .ok t →
      R w ⟨t, .changed t :: w.history⟩) :
    Keeps around R (change p edit) := by
  intro w
  rw [perform_change]
  split
  · split
    · exact h w _ ‹_›
    · exact Passage.refl w
  · exact Passage.refl w

/-- A relation that holds over every change of the disk. -/
class AnyChange (R : World → World → Prop) : Prop extends Passage R where
  changed : ∀ (w : World) (t : FileTree), R w ⟨t, .changed t :: w.history⟩

variable [AnyChange R]

theorem keeps_truncate (p : Path) : Keeps around R (truncate p) :=
  keeps_change fun w t _ => AnyChange.changed w t

theorem keeps_writeBytes (p : Path) (bytes : List UInt8) : Keeps around R (writeBytes p bytes) :=
  (keeps_truncate p).bind fun _ => keeps_change fun w t _ => AnyChange.changed w t

theorem keeps_writeText (p : Path) (text : String) : Keeps around R (writeText p text) :=
  keeps_writeBytes p _

theorem keeps_appendBytes (p : Path) (bytes : List UInt8) :
    Keeps around R (appendBytes p bytes) :=
  (Keeps.of_readOnly (readOnly_readBytes p)).bind fun _ =>
    keeps_change fun w t _ => AnyChange.changed w t

theorem keeps_unlink (p : Path) : Keeps around R (unlink p) :=
  keeps_change fun w t _ => AnyChange.changed w t

theorem keeps_makeDirectory (p : Path) : Keeps around R (makeDirectory p) :=
  keeps_change fun w t _ => AnyChange.changed w t

end Changes

/-- Making missing directories keeps what making one directory keeps, be it the last one or one
above it. -/
theorem keeps_makeDirectoriesWithin [Passage R] {P : Path → Prop} (bound : Nat) {p : Path}
    (hp : P p) (hparent : ∀ q, P q → P q.parent)
    (h : ∀ q, P q → Keeps around R (makeDirectory q)) :
    Keeps around R (makeDirectoriesWithin bound p) := by
  have hthere : ∀ q, P q →
      Keeps around R (makeDirectoriesWithin.makeDirectoryUnlessThere q) := by
    intro q hq
    unfold makeDirectoriesWithin.makeDirectoryUnlessThere
    refine (h q hq).outcome.bind fun ended => ?_
    split
    · exact Keeps.pure _
    · exact (Keeps.of_readOnly (readOnly_isDirectory q)).bind fun _ =>
        Keeps.ite (fun _ => Keeps.pure _) fun _ => Keeps.throw _
    · exact Keeps.throw _
  induction bound generalizing p with
  | zero =>
      unfold makeDirectoriesWithin
      refine (h p hp).outcome.bind fun ended => ?_
      split
      · exact Keeps.pure _
      · exact Keeps.throw _
      · exact (Keeps.of_readOnly (readOnly_isDirectory p)).bind fun _ =>
          Keeps.ite (fun _ => Keeps.pure _) fun _ => Keeps.throw _
      · exact Keeps.throw _
  | succ bound ih =>
      unfold makeDirectoriesWithin
      refine (h p hp).outcome.bind fun ended => ?_
      split
      · exact Keeps.pure _
      · exact (ih (hparent p hp)).bind fun _ => hthere p hp
      · exact (Keeps.of_readOnly (readOnly_isDirectory p)).bind fun _ =>
          Keeps.ite (fun _ => Keeps.pure _) fun _ => Keeps.throw _
      · exact Keeps.throw _

theorem keeps_makeDirectories [AnyChange R] (p : Path) : Keeps around R (makeDirectories p) :=
  keeps_makeDirectoriesWithin (P := fun _ => True) _ trivial (fun _ _ => trivial)
    fun q _ => keeps_makeDirectory q

theorem keeps_clearBelow [AnyChange R] (loc : Location) : Keeps around R (clearBelow loc) :=
  (Keeps.of_readOnly fun _ _ => rfl).bind fun _ => (Keeps.of_readOnly fun _ _ => rfl).bind fun _ =>
    (Keeps.of_readOnly fun _ _ => rfl).bind fun _ =>
      Keeps.forM fun s _ => Keeps.setTree fun w => AnyChange.changed w s

theorem keeps_removeTree [AnyChange R] (p : Path) : Keeps around R (removeTree p) := by
  unfold removeTree
  refine (Keeps.of_readOnly (readOnly_ask p _)).bind fun (loc, node) => ?_
  have hclear : Keeps around R (do
      clearBelow loc
      change p fun t cwd => t.removeDirectory cwd p) :=
    (keeps_clearBelow loc).bind fun _ => keeps_change fun w t _ => AnyChange.changed w t
  exact Keeps.ite (fun _ => (Keeps.throw _).bind fun _ => hclear) fun _ => hclear

end StagedBuild.Disk
