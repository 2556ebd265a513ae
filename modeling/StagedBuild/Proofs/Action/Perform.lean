import StagedBuild.Action.Disk

/-!
What an action does in a world, one equation for each way of putting actions together. With them an
action is carried out by rewriting, and nothing below has to look into the monad again. And what an
action keeps: a relation between the world before and the world after is kept by a composed action
when every part keeps it, whatever the outcome of the parts.
-/

namespace StagedBuild

/-- The world after the user has interrupted. -/
def World.brokenOff (w : World) : World :=
  { w with history := .interrupted :: w.history }

namespace Action

section Performing

variable {α β : Type}

theorem mapError_ok {ε ε' : Type} (f : ε → ε') (a : α) :
    (Except.ok a : Except ε α).mapError f = .ok a := rfl

theorem mapError_error {ε ε' : Type} (f : ε → ε') (e : ε) :
    (Except.error e : Except ε α).mapError f = .error (f e) := rfl

@[simp] theorem perform_pure (a : α) (around : Surroundings) (w : World) :
    perform (pure a) around w = (.ok a, w) := rfl

@[simp] theorem perform_throw (fault : Fault) (around : Surroundings) (w : World) :
    perform (throw fault : Action α) around w = (.error fault, w) := rfl

theorem perform_bind (action : Action α) (next : α → Action β) (around : Surroundings)
    (w : World) :
    perform (action >>= next) around w =
      match perform action around w with
      | (.ok a, w') => perform (next a) around w'
      | (.error fault, w') => (.error fault, w') := by
  change (match action.run around |>.run |>.run w with
    | (a, w') => (ExceptT.bindCont (fun a => next a around) a).run w') = _
  rcases h : (action.run around).run.run w with ⟨_ | a, w'⟩ <;>
    simp only [perform, h] <;> rfl

theorem perform_bind_ok {action : Action α} {next : α → Action β} {around : Surroundings}
    {w w' : World} {a : α} (h : perform action around w = (.ok a, w')) :
    perform (action >>= next) around w = perform (next a) around w' := by
  rw [perform_bind, h]

theorem perform_bind_error {action : Action α} {next : α → Action β} {around : Surroundings}
    {w w' : World} {fault : Fault} (h : perform action around w = (.error fault, w')) :
    perform (action >>= next) around w = (.error fault, w') := by
  rw [perform_bind, h]

theorem perform_bind_eq_ok {action : Action α} {next : α → Action β} {around : Surroundings}
    {w w' : World} {b : β} :
    perform (action >>= next) around w = (.ok b, w') ↔
      ∃ a v, perform action around w = (.ok a, v) ∧ perform (next a) around v = (.ok b, w') := by
  rw [perform_bind]
  rcases perform action around w with ⟨_ | a, v⟩ <;> simp [and_assoc]

theorem perform_map (f : α → β) (action : Action α) (around : Surroundings) (w : World) :
    perform (f <$> action) around w =
      ((perform action around w).1.map f, (perform action around w).2) := by
  rw [← bind_pure_comp, perform_bind]
  rcases perform action around w with ⟨_ | a, w'⟩ <;> rfl

@[simp] theorem perform_read (around : Surroundings) (w : World) :
    perform (read : Action Surroundings) around w = (.ok around, w) := rfl

@[simp] theorem perform_get (around : Surroundings) (w : World) :
    perform (get : Action World) around w = (.ok w, w) := rfl

@[simp] theorem perform_tree (around : Surroundings) (w : World) :
    perform tree around w = (.ok w.tree, w) := rfl

@[simp] theorem perform_note (event : Event) (around : Surroundings) (w : World) :
    perform (note event) around w = (.ok (), { w with history := event :: w.history }) := rfl

@[simp] theorem perform_setTree (t : FileTree) (around : Surroundings) (w : World) :
    perform (setTree t) around w = (.ok (), ⟨t, .changed t :: w.history⟩) := rfl

@[simp] theorem perform_outcome (action : Action α) (around : Surroundings) (w : World) :
    perform (outcome action) around w =
      (.ok (perform action around w).1, (perform action around w).2) := rfl

theorem perform_pause (around : Surroundings) (w : World) :
    perform pause around w =
      if around.interrupts w then (.error .interrupted, w.brokenOff) else (.ok (), w) := by
  unfold pause
  simp only [perform_bind, perform_read, perform_get]
  split <;> rfl

theorem perform_pause_bind (next : Unit → Action α) (around : Surroundings) (w : World) :
    perform (pause >>= next) around w =
      if around.interrupts w then (.error .interrupted, w.brokenOff)
      else perform (next ()) around w := by
  rw [perform_bind, perform_pause]
  by_cases h : around.interrupts w = true
  · rw [if_pos h, if_pos h]
  · rw [if_neg h, if_neg h]

theorem perform_ofExcept {ε : Type} (toFault : ε → Fault) (e : Except ε α)
    (around : Surroundings) (w : World) :
    perform (ofExcept toFault e) around w = (e.mapError toFault, w) := by
  cases e <;> rfl

@[simp] theorem perform_ofExcept_id (e : Except Fault α) (around : Surroundings) (w : World) :
    perform (ofExcept id e) around w = (e, w) := by
  cases e <;> rfl

theorem perform_ite (c : Prop) [Decidable c] (yes no : Action α) (around : Surroundings)
    (w : World) :
    perform (if c then yes else no) around w =
      if c then perform yes around w else perform no around w := by
  split <;> rfl

theorem ext_perform {first second : Action α}
    (h : ∀ around w, perform first around w = perform second around w) : first = second :=
  funext fun around => funext fun w => h around w

theorem filterM_nil (p : α → Action Bool) : List.filterM p [] = pure [] := rfl

private theorem filterAuxM_eq (p : α → Action Bool) (xs kept : List α) :
    List.filterAuxM p xs kept = (fun ys => ys.reverse ++ kept) <$> List.filterM p xs := by
  induction xs generalizing kept with
  | nil => rfl
  | cons x xs ih =>
      simp only [List.filterM, List.filterAuxM, map_eq_pure_bind, bind_assoc, pure_bind]
      refine bind_congr fun b => ?_
      cases b
      · simp only [cond_false]
        rw [ih kept, ih []]
        simp
      · simp only [cond_true]
        rw [ih (x :: kept), ih [x]]
        simp

theorem filterM_cons (p : α → Action Bool) (x : α) (xs : List α) :
    List.filterM p (x :: xs) = do
      let b ← p x
      let ys ← List.filterM p xs
      return if b then x :: ys else ys := by
  simp only [List.filterM, List.filterAuxM, bind_assoc]
  refine bind_congr fun b => ?_
  cases b
  · simp
  · simp only [cond_true]
    rw [filterAuxM_eq]
    simp [List.filterM]

end Performing

section Keeping

variable {α β : Type}

/-- A relation between worlds that doing nothing keeps, and that holds over a sequence of actions
when it holds over each of them. -/
class Passage (R : World → World → Prop) : Prop where
  refl : ∀ w, R w w
  trans : ∀ {u v w}, R u v → R v w → R u w

/-- The world that an action leaves, whatever its outcome, stands in a relation to the world before.
-/
def Keeps (around : Surroundings) (R : World → World → Prop) (action : Action α) : Prop :=
  ∀ w, R w (perform action around w).2

/-- An action that leaves the world as it is. -/
def ReadOnly (action : Action α) : Prop :=
  ∀ around, Keeps around (fun w w' => w' = w) action

namespace Keeps

variable {around : Surroundings} {R : World → World → Prop}

theorem of_perform {action : Action α} {w w' : World} {outcome : Except Fault α}
    (h : Keeps around R action) (hperform : perform action around w = (outcome, w')) : R w w' := by
  have hw := h w
  rwa [hperform] at hw

theorem of_readOnly [Passage R] {action : Action α} (h : ReadOnly action) :
    Keeps around R action := by
  intro w
  rw [show (perform action around w).2 = w from h around w]
  exact Passage.refl w

theorem mono {S : World → World → Prop} {action : Action α} (h : Keeps around R action)
    (hRS : ∀ w w', R w w' → S w w') : Keeps around S action :=
  fun w => hRS _ _ (h w)

theorem pure [Passage R] (a : α) : Keeps around R (Pure.pure a : Action α) :=
  fun w => Passage.refl w

theorem throw [Passage R] (fault : Fault) : Keeps around R (throw fault : Action α) :=
  fun w => Passage.refl w

theorem bind_at [Passage R] {action : Action α} {next : α → Action β} {w : World}
    (h : R w (perform action around w).2)
    (hnext : ∀ a v, perform action around w = (.ok a, v) → R v (perform (next a) around v).2) :
    R w (perform (action >>= next) around w).2 := by
  rw [perform_bind]
  rcases hp : perform action around w with ⟨_ | a, w'⟩
  · simpa [hp] using h
  · rw [hp] at h
    exact Passage.trans h (hnext a w' hp)

theorem bind [Passage R] {action : Action α} {next : α → Action β}
    (h : Keeps around R action) (hnext : ∀ a, Keeps around R (next a)) :
    Keeps around R (action >>= next) :=
  fun w => bind_at (h w) fun a v _ => hnext a v

theorem after [Passage R] {action : Action α} {next : α → Action β} {w v : World}
    (hworld : (perform action around w).2 = v) (hnext : ∀ a, Keeps around R (next a)) :
    R v (perform (action >>= next) around w).2 := by
  subst hworld
  rw [perform_bind]
  rcases perform action around w with ⟨_ | a, w'⟩
  · exact Passage.refl w'
  · exact hnext a w'

theorem pause [Passage R] (h : ∀ w : World, R w w.brokenOff) : Keeps around R Action.pause := by
  intro w
  rw [perform_pause]
  split
  · exact h w
  · exact Passage.refl w

theorem outcome {action : Action α} (h : Keeps around R action) :
    Keeps around R (Action.outcome action) :=
  fun w => h w

theorem ite {c : Prop} [Decidable c] {yes no : Action α} (hyes : c → Keeps around R yes)
    (hno : ¬c → Keeps around R no) : Keeps around R (if c then yes else no) := by
  split
  · exact hyes ‹_›
  · exact hno ‹_›

theorem setTree {t : FileTree} (h : ∀ w : World, R w ⟨t, .changed t :: w.history⟩) :
    Keeps around R (Action.setTree t) :=
  fun w => h w

theorem note {event : Event} (h : ∀ w : World, R w { w with history := event :: w.history }) :
    Keeps around R (Action.note event) :=
  fun w => h w

theorem forM [Passage R] {f : α → Action Unit} {xs : List α}
    (h : ∀ x ∈ xs, Keeps around R (f x)) : Keeps around R (xs.forM f) := by
  induction xs with
  | nil => exact pure ()
  | cons x xs ih =>
      exact bind (h x (by simp)) fun _ => ih fun y hy => h y (by simp [hy])

theorem mapM [Passage R] {f : α → Action β} {xs : List α}
    (h : ∀ x ∈ xs, Keeps around R (f x)) : Keeps around R (xs.mapM f) := by
  induction xs with
  | nil => exact pure []
  | cons x xs ih =>
      rw [List.mapM_cons]
      exact bind (h x (by simp)) fun _ =>
        bind (ih fun y hy => h y (by simp [hy])) fun _ => pure _

theorem filterM [Passage R] {p : α → Action Bool} {xs : List α}
    (h : ∀ x ∈ xs, Keeps around R (p x)) : Keeps around R (xs.filterM p) := by
  induction xs with
  | nil => exact pure []
  | cons x xs ih =>
      rw [filterM_cons]
      exact bind (h x (by simp)) fun _ =>
        bind (ih fun y hy => h y (by simp [hy])) fun _ => pure _

theorem filterMapM [Passage R] {f : α → Action (Option β)} {xs : List α}
    (h : ∀ x ∈ xs, Keeps around R (f x)) : Keeps around R (xs.filterMapM f) := by
  induction xs with
  | nil => exact pure []
  | cons x xs ih =>
      rw [List.filterMapM_cons]
      refine bind (h x (by simp)) fun b => ?_
      have hrest := ih fun y hy => h y (by simp [hy])
      cases b with
      | none => exact hrest
      | some b => exact bind hrest fun _ => pure _

end Keeps

namespace ReadOnly

instance : Passage (fun w w' => w' = w) where
  refl _ := rfl
  trans h h' := h'.trans h

theorem bind {action : Action α} {next : α → Action β} (h : ReadOnly action)
    (hnext : ∀ a, ReadOnly (next a)) : ReadOnly (action >>= next) :=
  fun around => Keeps.bind (h around) fun a => hnext a around

theorem ofExcept {ε : Type} (toFault : ε → Fault) (e : Except ε α) :
    ReadOnly (Action.ofExcept toFault e) := by
  intro around w
  rw [perform_ofExcept]

theorem mapM {f : α → Action β} {xs : List α} (h : ∀ x ∈ xs, ReadOnly (f x)) :
    ReadOnly (xs.mapM f) :=
  fun around => Keeps.mapM fun x hx => h x hx around

theorem filterM {p : α → Action Bool} {xs : List α} (h : ∀ x ∈ xs, ReadOnly (p x)) :
    ReadOnly (xs.filterM p) :=
  fun around => Keeps.filterM fun x hx => h x hx around

end ReadOnly

end Keeping

end Action

end StagedBuild
