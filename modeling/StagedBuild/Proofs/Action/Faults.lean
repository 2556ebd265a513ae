import StagedBuild.Proofs.Action.Disk

/-!
The faults that an action can end in. An action ends in faults of a sort only when all its parts do;
what asks the disk or changes it ends in refusals.
-/

namespace StagedBuild

variable {α β : Type} {sort other : Fault → Prop}

/-- A computation ends in faults of a sort only. -/
def OnlyFaults (sort : Fault → Prop) (result : Except Fault α) : Prop :=
  ∀ fault, result = .error fault → sort fault

namespace OnlyFaults

theorem ok (a : α) : OnlyFaults sort (.ok a : Except Fault α) := fun _ h => by cases h

theorem error {fault : Fault} (h : sort fault) :
    OnlyFaults sort (.error fault : Except Fault α) := by
  rintro _ ⟨⟩
  exact h

theorem mono {result : Except Fault α} (h : OnlyFaults sort result)
    (hsort : ∀ fault, sort fault → other fault) : OnlyFaults other result :=
  fun fault hfault => hsort fault (h fault hfault)

theorem bind {result : Except Fault α} {next : α → Except Fault β} (h : OnlyFaults sort result)
    (hnext : ∀ a, OnlyFaults sort (next a)) : OnlyFaults sort (result >>= next) := by
  cases result with
  | error fault => exact error (h fault rfl)
  | ok a => exact hnext a

theorem map {result : Except Fault α} (f : α → β) (h : OnlyFaults sort result) :
    OnlyFaults sort (result.map f) := by
  cases result with
  | error fault => exact error (h fault rfl)
  | ok a => exact ok (f a)

theorem mapM {ι : Type} {f : ι → Except Fault α} {xs : List ι}
    (h : ∀ x ∈ xs, OnlyFaults sort (f x)) : OnlyFaults sort (xs.mapM f) := by
  induction xs with
  | nil => exact ok []
  | cons x xs ih =>
      rw [List.mapM_cons]
      exact bind (h x (by simp)) fun _ => bind (ih fun y hy => h y (by simp [hy])) fun _ => ok _

theorem ite {c : Prop} [Decidable c] {yes no : Except Fault α} (hyes : c → OnlyFaults sort yes)
    (hno : ¬ c → OnlyFaults sort no) : OnlyFaults sort (if c then yes else no) := by
  split
  · exact hyes ‹_›
  · exact hno ‹_›

theorem check {c : Prop} [Decidable c] {fault : Fault} {next : Except Fault α} (h : sort fault)
    (hnext : OnlyFaults sort next) :
    OnlyFaults sort (do
      if c then throw fault
      next) := by
  by_cases hc : c
  · rw [if_pos hc]
    exact error h
  · rw [if_neg hc]
    exact hnext

end OnlyFaults

/-- What the operating system refuses, and what it cannot be asked. -/
def Fault.IsRefusal : Fault → Prop
  | .system _ | .value .embeddedNull => True
  | _ => False

theorem Fault.IsRefusal.ne_interrupted {fault : Fault} (h : fault.IsRefusal) :
    fault ≠ .interrupted := by
  rintro rfl
  exact h

namespace Action

/-- An action ends in faults of a sort only, wherever it is done. -/
def FailsOnly (sort : Fault → Prop) (action : Action α) : Prop :=
  ∀ around w, OnlyFaults sort (perform action around w).1

namespace FailsOnly

theorem of_perform {action : Action α} {around : Surroundings} {w w' : World} {fault : Fault}
    (h : FailsOnly sort action) (hperform : perform action around w = (.error fault, w')) :
    sort fault :=
  h around w fault (congrArg Prod.fst hperform)

theorem mono {action : Action α} (h : FailsOnly sort action)
    (hsort : ∀ fault, sort fault → other fault) : FailsOnly other action :=
  fun around w => (h around w).mono hsort

theorem ordinary {action : Action α} (h : FailsOnly Fault.IsRefusal action) :
    FailsOnly (· ≠ .interrupted) action :=
  h.mono fun _ => Fault.IsRefusal.ne_interrupted

theorem pure (a : α) : FailsOnly sort (Pure.pure a : Action α) :=
  fun _ _ => OnlyFaults.ok a

theorem throw {fault : Fault} (h : sort fault) : FailsOnly sort (throw fault : Action α) :=
  fun _ _ => OnlyFaults.error h

theorem bind {action : Action α} {next : α → Action β} (h : FailsOnly sort action)
    (hnext : ∀ a, FailsOnly sort (next a)) : FailsOnly sort (action >>= next) := by
  intro around w
  rw [perform_bind]
  rcases hp : perform action around w with ⟨fault | a, w'⟩
  · exact OnlyFaults.error (h.of_perform hp)
  · exact hnext a around w'

theorem ite {c : Prop} [Decidable c] {yes no : Action α} (hyes : c → FailsOnly sort yes)
    (hno : ¬ c → FailsOnly sort no) : FailsOnly sort (if c then yes else no) := by
  split
  · exact hyes ‹_›
  · exact hno ‹_›

theorem outcome_bind {action : Action α} {next : Except Fault α → Action β}
    (h : FailsOnly sort action) (hok : ∀ a, FailsOnly other (next (.ok a)))
    (herror : ∀ fault, sort fault → FailsOnly other (next (.error fault))) :
    FailsOnly other (Action.outcome action >>= next) := by
  intro around w
  rw [perform_bind, perform_outcome]
  rcases hp : perform action around w with ⟨fault | a, w'⟩
  · exact herror fault (h.of_perform hp) around w'
  · exact hok a around w'

theorem ofExcept {result : Except Fault α} (h : OnlyFaults sort result) :
    FailsOnly sort (Action.ofExcept id result) := by
  intro around w
  rw [perform_ofExcept_id]
  exact h

theorem forM {f : α → Action Unit} {xs : List α} (h : ∀ x ∈ xs, FailsOnly sort (f x)) :
    FailsOnly sort (xs.forM f) := by
  induction xs with
  | nil => exact pure ()
  | cons x xs ih => exact bind (h x (by simp)) fun _ => ih fun y hy => h y (by simp [hy])

theorem mapM {f : α → Action β} {xs : List α} (h : ∀ x ∈ xs, FailsOnly sort (f x)) :
    FailsOnly sort (xs.mapM f) := by
  induction xs with
  | nil => exact pure []
  | cons x xs ih =>
      rw [List.mapM_cons]
      exact bind (h x (by simp)) fun _ =>
        bind (ih fun y hy => h y (by simp [hy])) fun _ => pure _

theorem filterM {p : α → Action Bool} {xs : List α} (h : ∀ x ∈ xs, FailsOnly sort (p x)) :
    FailsOnly sort (xs.filterM p) := by
  induction xs with
  | nil => exact pure []
  | cons x xs ih =>
      rw [filterM_cons]
      exact bind (h x (by simp)) fun _ =>
        bind (ih fun y hy => h y (by simp [hy])) fun _ => pure _

theorem filterMapM {f : α → Action (Option β)} {xs : List α}
    (h : ∀ x ∈ xs, FailsOnly sort (f x)) : FailsOnly sort (xs.filterMapM f) := by
  induction xs with
  | nil => exact pure []
  | cons x xs ih =>
      rw [List.filterMapM_cons]
      refine bind (h x (by simp)) fun b => ?_
      have hrest := ih fun y hy => h y (by simp [hy])
      cases b with
      | none => exact hrest
      | some b => exact bind hrest fun _ => pure _

end FailsOnly

/-- An action that is done in a world ends in a fault. -/
def EndsIn (around : Surroundings) (w : World) (action : Action α) (fault : Fault) : Prop :=
  (perform action around w).1 = .error fault

instance (around : Surroundings) (w : World) (action : Action α) (fault : Fault) :
    Decidable (EndsIn around w action fault) :=
  match h : (perform action around w).1 with
  | .error cause => decidable_of_iff (cause = fault)
      ⟨fun heq => h.trans (congrArg Except.error heq), fun hends =>
        Except.error.inj (h.symm.trans hends)⟩
  | .ok _ => .isFalse fun hends => nomatch h.symm.trans hends

namespace EndsIn

variable {around : Surroundings} {w w' : World} {fault cause : Fault} {action : Action α}

theorem of_perform (h : perform action around w = (.error fault, w')) :
    EndsIn around w action fault :=
  congrArg Prod.fst h

theorem of_failsOnly (h : EndsIn around w action fault) (honly : FailsOnly sort action) :
    sort fault :=
  honly around w fault h

theorem bind_iff {next : α → Action β} :
    EndsIn around w (action >>= next) fault ↔
      EndsIn around w action fault ∨
        ∃ a v, perform action around w = (.ok a, v) ∧ EndsIn around v (next a) fault := by
  unfold EndsIn
  rw [perform_bind]
  rcases perform action around w with ⟨cause | a, v⟩
  · simp
  · constructor
    · exact fun h => .inr ⟨a, v, rfl, h⟩
    · rintro (h | ⟨_, _, ⟨⟩, h⟩)
      · cases h
      · exact h

theorem bind_iff_of_ok {next : α → Action β} {a : α} (h : perform action around w = (.ok a, w')) :
    EndsIn around w (action >>= next) fault ↔ EndsIn around w' (next a) fault := by
  unfold EndsIn
  rw [perform_bind_ok h]

theorem bind_iff_of_error {next : α → Action β}
    (h : perform action around w = (.error cause, w')) :
    EndsIn around w (action >>= next) fault ↔ cause = fault := by
  unfold EndsIn
  rw [perform_bind_error h]
  exact ⟨Except.error.inj, congrArg Except.error⟩

theorem throw_iff : EndsIn around w (throw cause : Action α) fault ↔ cause = fault := by
  unfold EndsIn
  rw [perform_throw]
  exact ⟨Except.error.inj, congrArg Except.error⟩

theorem map_iff {f : α → β} : EndsIn around w (f <$> action) fault ↔
    EndsIn around w action fault := by
  unfold EndsIn
  rw [perform_map]
  rcases perform action around w with ⟨cause | a, v⟩
  · exact ⟨fun h => congrArg Except.error (Except.error.inj h),
      fun h => congrArg Except.error (Except.error.inj h)⟩
  · exact ⟨nofun, nofun⟩

theorem not_pure (a : α) : ¬ EndsIn around w (pure a : Action α) fault := nofun

theorem forM_iff {ι : Type} {f : ι → Action Unit} {xs : List ι} :
    EndsIn around w (xs.forM f) fault ↔
      ∃ done x rest v, xs = done ++ x :: rest ∧ perform (done.forM f) around w = (.ok (), v) ∧
        EndsIn around v (f x) fault := by
  induction xs generalizing w with
  | nil =>
      refine ⟨fun h => absurd h (not_pure ()), ?_⟩
      rintro ⟨done, x, rest, v, h, -⟩
      simp at h
  | cons y ys ih =>
      change EndsIn around w (f y >>= fun _ => ys.forM f) fault ↔ _
      rw [bind_iff]
      constructor
      · rintro (h | ⟨_, u, hy, h⟩)
        · exact ⟨[], y, ys, w, rfl, rfl, h⟩
        · obtain ⟨done, x, rest, v, rfl, hdone, hx⟩ := ih.1 h
          refine ⟨y :: done, x, rest, v, rfl, ?_, hx⟩
          exact (perform_bind_ok hy).trans hdone
      · rintro ⟨_ | ⟨z, done⟩, x, rest, v, hsplit, hdone, hx⟩
        · obtain ⟨rfl, -⟩ := List.cons.inj hsplit
          cases hdone
          exact .inl hx
        · obtain ⟨rfl, rfl⟩ := List.cons.inj hsplit
          obtain ⟨_, u, hz, hdone⟩ := perform_bind_eq_ok.1 hdone
          exact .inr ⟨_, u, hz, ih.2 ⟨done, x, rest, v, rfl, hdone, hx⟩⟩

end EndsIn

end Action

namespace Disk

open Action Fault

theorem refused_ask (p : Path) (question : FileTree → Location → Except SystemError α) :
    FailsOnly IsRefusal (ask p question) := by
  intro around w
  rw [perform_ask]
  split
  · rcases question w.tree around.directory with e | a
    · exact OnlyFaults.error trivial
    · exact OnlyFaults.ok a
  · exact OnlyFaults.error trivial

theorem refused_change (p : Path) (edit : FileTree → Location → Except SystemError FileTree) :
    FailsOnly IsRefusal (change p edit) :=
  (refused_ask p edit).bind fun _ _ _ => OnlyFaults.ok ()

theorem refused_answerAt (p : Path) (t : FileTree) (cwd : Location) :
    OnlyFaults IsRefusal (answerAt p t cwd) := by
  unfold answerAt
  split
  · split
    · exact OnlyFaults.ok _
    · exact OnlyFaults.ite (fun _ => OnlyFaults.ok _) fun _ => OnlyFaults.error trivial
  · exact OnlyFaults.ok _

theorem refused_bytesAt (p : Path) (t : FileTree) (cwd : Location) :
    OnlyFaults IsRefusal (bytesAt p t cwd) := by
  intro fault h
  have hread : perform (readBytes p) (.still cwd) (.ofTree t) = (.error fault, .ofTree t) := by
    rw [perform_readBytes]
    exact Prod.ext h rfl
  exact (refused_ask p _).of_perform hread

theorem refused_node? (p : Path) : FailsOnly IsRefusal (node? p) := by
  intro around w
  rw [perform_node?]
  exact refused_answerAt p _ _

theorem refused_isOccupied (p : Path) : FailsOnly IsRefusal (isOccupied p) :=
  (refused_node? p).bind fun _ => FailsOnly.pure _

theorem refused_isFile (p : Path) : FailsOnly IsRefusal (isFile p) := by
  refine (refused_node? p).bind fun node => ?_
  split
  · exact FailsOnly.pure _
  · exact FailsOnly.pure _

theorem refused_isDirectory (p : Path) : FailsOnly IsRefusal (isDirectory p) :=
  (refused_node? p).bind fun _ => FailsOnly.pure _

theorem refused_nodeIfAny (p : Path) : FailsOnly IsRefusal (nodeIfAny p) := by
  intro around w
  rw [perform_nodeIfAny]
  exact OnlyFaults.ok _

theorem refused_readBytes (p : Path) : FailsOnly IsRefusal (readBytes p) :=
  refused_ask p _

theorem ordinary_readText (p : Path) : FailsOnly (· ≠ .interrupted) (readText p) := by
  refine (refused_readBytes p).ordinary.bind fun _ => ?_
  split
  · exact FailsOnly.pure _
  · exact FailsOnly.throw (by decide)

theorem refused_truncate (p : Path) : FailsOnly IsRefusal (truncate p) :=
  refused_change p _

theorem refused_writeBytes (p : Path) (bytes : List UInt8) :
    FailsOnly IsRefusal (writeBytes p bytes) :=
  (refused_truncate p).bind fun _ => refused_change p _

theorem refused_appendBytes (p : Path) (bytes : List UInt8) :
    FailsOnly IsRefusal (appendBytes p bytes) :=
  (refused_readBytes p).bind fun _ => refused_change p _

theorem refused_makeDirectory (p : Path) : FailsOnly IsRefusal (makeDirectory p) :=
  refused_change p _

theorem refused_unlessDirectory (p : Path) (fault : SystemFault) :
    FailsOnly IsRefusal (do if ← isDirectory p then return () else throw (.system fault)) :=
  (refused_isDirectory p).bind fun _ =>
    FailsOnly.ite (fun _ => FailsOnly.pure ()) fun _ => FailsOnly.throw trivial

theorem refused_makeDirectoriesWithin (bound : Nat) (p : Path) :
    FailsOnly IsRefusal (makeDirectoriesWithin bound p) := by
  have hunless : ∀ q, FailsOnly IsRefusal (makeDirectoriesWithin.makeDirectoryUnlessThere q) := by
    intro q
    refine (refused_makeDirectory q).outcome_bind (fun _ => FailsOnly.pure ())
      fun fault hfault => ?_
    cases fault with
    | system fault => exact refused_unlessDirectory q fault
    | _ => exact FailsOnly.throw hfault
  induction bound generalizing p with
  | zero =>
      unfold makeDirectoriesWithin
      refine (refused_makeDirectory p).outcome_bind (fun _ => FailsOnly.pure ())
        fun fault hfault => ?_
      split
      · exact FailsOnly.pure ()
      · exact FailsOnly.throw trivial
      · exact refused_unlessDirectory p _
      · rename_i hended
        cases hended
        exact FailsOnly.throw hfault
  | succ bound ih =>
      unfold makeDirectoriesWithin
      refine (refused_makeDirectory p).outcome_bind (fun _ => FailsOnly.pure ())
        fun fault hfault => ?_
      split
      · exact FailsOnly.pure ()
      · exact (ih p.parent).bind fun _ => hunless p
      · exact refused_unlessDirectory p _
      · rename_i hended
        cases hended
        exact FailsOnly.throw hfault

theorem refused_makeDirectories (p : Path) : FailsOnly IsRefusal (makeDirectories p) :=
  refused_makeDirectoriesWithin _ p

theorem refused_clearBelow (loc : Location) : FailsOnly IsRefusal (clearBelow loc) :=
  FailsOnly.bind (fun _ _ => OnlyFaults.ok _) fun _ =>
    FailsOnly.bind (fun _ _ => OnlyFaults.ok _) fun _ =>
      FailsOnly.bind (fun _ _ => OnlyFaults.ok _) fun _ =>
        FailsOnly.forM fun _ _ _ _ => OnlyFaults.ok ()

theorem refused_removeTree (p : Path) : FailsOnly IsRefusal (removeTree p) := by
  unfold removeTree
  refine (refused_ask p _).bind fun (loc, node) => ?_
  have hclear : FailsOnly IsRefusal (do
      clearBelow loc
      change p fun t cwd => t.removeDirectory cwd p) :=
    (refused_clearBelow loc).bind fun _ => refused_change p _
  exact FailsOnly.ite (fun _ => (FailsOnly.throw trivial).bind fun _ => hclear) fun _ => hclear

theorem refused_entriesBelow (p : Path) : FailsOnly IsRefusal (entriesBelow p) :=
  (refused_isDirectory p).bind fun _ => FailsOnly.ite (fun _ => FailsOnly.pure _) fun _ =>
    (refused_ask p _).bind fun _ => FailsOnly.pure _

end Disk

end StagedBuild
