import StagedBuild.Proofs.Action.Faults
import StagedBuild.Proofs.Transfer.Replies

/-!
Interrupts. The program is interrupted while it waits for an answer: of a tool, of a server, or of a
toolchain. The history of a world tells what was waited for and in which state of the disk, and so
also whether an interrupt was raised. An action surfaces interrupts when it ends in one exactly if
one was raised while it was done.
-/

namespace StagedBuild

open Action Disk

variable {α β : Type} {raises : Event → World → Prop} {sort other : Event → Prop}
  {around : Surroundings} {t : FileTree} {w w' : World}

/-- Some event, the latest first, raised an interrupt in the world before it. -/
def RaisedIn (raises : Event → World → Prop) (t : FileTree) : List Event → Prop
  | [] => False
  | event :: earlier => raises event ⟨diskAfter t earlier, earlier⟩ ∨ RaisedIn raises t earlier

/-- On the way to a world an interrupt was raised. -/
def World.Interrupted (raises : Event → World → Prop) (t : FileTree) (w : World) : Prop :=
  RaisedIn raises t w.history

theorem not_interrupted_ofTree : ¬ (World.ofTree t).Interrupted raises t :=
  nofun

theorem Chronicled.world_eq (ht : Chronicled t w) :
    (⟨diskAfter t w.history, w.history⟩ : World) = w := by
  rw [← ht]

theorem interrupted_cons {event : Event} {s : FileTree} (ht : Chronicled t w) :
    World.Interrupted raises t ⟨s, event :: w.history⟩ ↔
      raises event w ∨ w.Interrupted raises t := by
  rw [World.Interrupted, RaisedIn, ht.world_eq]
  rfl

theorem raisedIn_append {events earlier : List Event}
    (h : ∀ e ∈ events, ∀ v, ¬ raises e v) :
    RaisedIn raises t (events ++ earlier) ↔ RaisedIn raises t earlier := by
  induction events with
  | nil => rfl
  | cons event events ih =>
      have hevent := h event (by simp)
      rw [List.cons_append, RaisedIn, ih fun e he => h e (by simp [he])]
      exact or_iff_right (hevent _)

/-- From one world to another the history goes on with events of a sort, and tells every change of
the disk. -/
def Tells (sort : Event → Prop) (w w' : World) : Prop :=
  Continues w w' ∧ ∃ events, w'.history = events ++ w.history ∧ ∀ e ∈ events, sort e

namespace Tells

instance : Passage (Tells sort) where
  refl w := ⟨Passage.refl w, [], rfl, by simp⟩
  trans := by
    rintro u v w ⟨hfirst, first, hu, hs⟩ ⟨hsecond, second, hv, hs'⟩
    refine ⟨Passage.trans hfirst hsecond, second ++ first, by rw [hv, hu, List.append_assoc], ?_⟩
    intro e he
    rcases List.mem_append.1 he with he | he
    · exact hs' e he
    · exact hs e he

theorem mono (h : Tells sort w w') (hsort : ∀ e, sort e → other e) : Tells other w w' := by
  obtain ⟨hcontinues, events, hevents, hs⟩ := h
  exact ⟨hcontinues, events, hevents, fun e he => hsort e (hs e he)⟩

theorem note {event : Event} (h : sort event) (hnote : event.IsNote) (w : World) :
    Tells sort w { w with history := event :: w.history } :=
  ⟨continues_note hnote w, [event], rfl, by simpa using h⟩

theorem changed {s : FileTree} (h : sort (.changed s)) (w : World) :
    Tells sort w ⟨s, .changed s :: w.history⟩ :=
  ⟨AnyChange.changed w s, [.changed s], rfl, by simpa using h⟩

theorem chronicled (h : Tells sort w w') (ht : Chronicled t w) : Chronicled t w' :=
  h.1.2 t ht

theorem interrupted_iff (h : Tells sort w w') (hcalm : ∀ e, sort e → ∀ v, ¬ raises e v) :
    w'.Interrupted raises t ↔ w.Interrupted raises t := by
  obtain ⟨-, events, hevents, hs⟩ := h
  rw [World.Interrupted, hevents]
  exact raisedIn_append fun e he => hcalm e (hs e he)

end Tells

/-- An action that is done in a world ends in an interrupt exactly when one is raised in it, and
what happens in it is of a sort. -/
structure SurfacesAt (sort : Event → Prop) (raises : Event → World → Prop) (t : FileTree)
    (around : Surroundings) (action : Action α) (w : World) : Prop where
  tells : Tells sort w (perform action around w).2
  interrupted : (perform action around w).2.Interrupted raises t ↔
    w.Interrupted raises t ∨ EndsIn around w action .interrupted

/-- An action surfaces interrupts wherever it is done. -/
def Surfaces (sort : Event → Prop) (raises : Event → World → Prop) (t : FileTree)
    (around : Surroundings) (action : Action α) : Prop :=
  ∀ w, Chronicled t w → SurfacesAt sort raises t around action w

namespace SurfacesAt

theorem of_calm {action : Action α} (hkeeps : Tells sort w (perform action around w).2)
    (hsort : ∀ e, sort e → other e) (hcalm : ∀ e, sort e → ∀ v, ¬ raises e v)
    (hends : ¬ EndsIn around w action .interrupted) :
    SurfacesAt other raises t around action w :=
  ⟨hkeeps.mono hsort, by rw [hkeeps.interrupted_iff hcalm]; simp [hends]⟩

theorem bind {action : Action α} {next : α → Action β}
    (h : SurfacesAt sort raises t around action w) (ht : Chronicled t w)
    (hnext : ∀ a v, perform action around w = (.ok a, v) → Chronicled t v →
      SurfacesAt sort raises t around (next a) v) :
    SurfacesAt sort raises t around (action >>= next) w := by
  obtain ⟨htells, hraised⟩ := h
  rcases hperform : perform action around w with ⟨fault | a, v⟩
  · rw [hperform] at htells hraised
    refine ⟨by rwa [perform_bind_error hperform], ?_⟩
    rw [EndsIn.bind_iff_of_error hperform, perform_bind_error hperform, hraised, EndsIn, hperform]
    simp
  · rw [hperform] at htells hraised
    obtain ⟨htells', hraised'⟩ := hnext a v hperform (htells.chronicled ht)
    have hends : ¬ EndsIn around w action .interrupted := by
      rw [EndsIn, hperform]
      nofun
    refine ⟨?_, ?_⟩
    · rw [perform_bind_ok hperform]
      exact Passage.trans htells htells'
    · rw [EndsIn.bind_iff_of_ok hperform, perform_bind_ok hperform, hraised', hraised,
        or_iff_left hends]

end SurfacesAt

namespace Surfaces

theorem of_calm {action : Action α} (hkeeps : Keeps around (Tells sort) action)
    (hsort : ∀ e, sort e → other e) (hcalm : ∀ e, sort e → ∀ v, ¬ raises e v)
    (honly : FailsOnly (· ≠ .interrupted) action) : Surfaces other raises t around action :=
  fun w _ => .of_calm (hkeeps w) hsort hcalm fun hends => hends.of_failsOnly honly rfl

theorem pure (a : α) : Surfaces sort raises t around (Pure.pure a : Action α) :=
  fun w _ => ⟨Passage.refl w, by simp [EndsIn]⟩

theorem mono {action : Action α} (h : Surfaces sort raises t around action)
    (hsort : ∀ e, sort e → other e) : Surfaces other raises t around action :=
  fun w ht => ⟨(h w ht).tells.mono hsort, (h w ht).interrupted⟩

theorem note {event : Event} (h : sort event) (hnote : event.IsNote)
    (hcalm : ∀ v, ¬ raises event v) : Surfaces sort raises t around (Action.note event) :=
  fun w _ => .of_calm (Tells.note (Eq.refl event) hnote w) (fun _ he => he ▸ h)
    (fun _ he v => he ▸ hcalm v) nofun

theorem pause (h : sort .interrupted) (hraises : ∀ v, raises .interrupted v) :
    Surfaces sort raises t around Action.pause := by
  intro w ht
  by_cases hinterrupts : around.interrupts w = true
  · have hperform : perform Action.pause around w = (.error .interrupted, w.brokenOff) := by
      rw [perform_pause, if_pos hinterrupts]
    refine ⟨hperform ▸ Tells.note h (by trivial) w, ?_⟩
    rw [hperform, EndsIn, hperform]
    exact iff_of_true ((interrupted_cons ht).2 (.inl (hraises w))) (.inr rfl)
  · have hperform : perform Action.pause around w = (.ok (), w) := by
      rw [perform_pause, if_neg hinterrupts]
    refine ⟨hperform ▸ Passage.refl w, ?_⟩
    rw [hperform, EndsIn, hperform]
    simp

theorem throw {fault : Fault} (h : fault ≠ .interrupted) :
    Surfaces sort raises t around (throw fault : Action α) :=
  fun w _ => ⟨Passage.refl w, by simp [EndsIn, h]⟩

theorem bind_of {action : Action α} {next : α → Action β}
    (h : Surfaces sort raises t around action)
    (hnext : ∀ a u v, perform action around u = (.ok a, v) →
      Surfaces sort raises t around (next a)) :
    Surfaces sort raises t around (action >>= next) :=
  fun w ht => (h w ht).bind ht fun a v hperform => hnext a w v hperform v

theorem bind {action : Action α} {next : α → Action β} (h : Surfaces sort raises t around action)
    (hnext : ∀ a, Surfaces sort raises t around (next a)) :
    Surfaces sort raises t around (action >>= next) :=
  h.bind_of fun a _ _ _ => hnext a

theorem map {f : α → β} {action : Action α} (h : Surfaces sort raises t around action) :
    Surfaces sort raises t around (f <$> action) := by
  rw [← bind_pure_comp]
  exact h.bind fun _ => pure _

theorem ite {c : Prop} [Decidable c] {yes no : Action α}
    (hyes : c → Surfaces sort raises t around yes)
    (hno : ¬ c → Surfaces sort raises t around no) :
    Surfaces sort raises t around (if c then yes else no) := by
  split
  · exact hyes ‹_›
  · exact hno ‹_›

theorem outcome_bind {action : Action α} {next : Except Fault α → Action β}
    (h : Surfaces sort raises t around action)
    (hok : ∀ a, Surfaces sort raises t around (next (.ok a)))
    (herror : ∀ fault, fault ≠ .interrupted →
      Surfaces sort raises t around (next (.error fault)))
    (hinterrupted : next (.error .interrupted) = MonadExcept.throw Fault.interrupted) :
    Surfaces sort raises t around (Action.outcome action >>= next) := by
  intro w ht
  obtain ⟨htells, hraised⟩ := h w ht
  have houtcome := perform_outcome action around w
  rcases hperform : perform action around w with ⟨fault | a, v⟩
  · rw [hperform] at htells hraised houtcome
    rw [EndsIn, hperform] at hraised
    by_cases hfault : fault = .interrupted
    · subst hfault
      refine ⟨?_, ?_⟩
      · rw [perform_bind_ok houtcome, hinterrupted]
        exact htells
      · rw [EndsIn.bind_iff_of_ok houtcome, perform_bind_ok houtcome, hinterrupted]
        simpa [EndsIn] using hraised
    · obtain ⟨htells', hraised'⟩ := herror fault hfault v (htells.chronicled ht)
      refine ⟨?_, ?_⟩
      · rw [perform_bind_ok houtcome]
        exact Passage.trans htells htells'
      · rw [EndsIn.bind_iff_of_ok houtcome, perform_bind_ok houtcome, hraised', hraised]
        simp [hfault]
  · rw [hperform] at htells hraised houtcome
    rw [EndsIn, hperform] at hraised
    obtain ⟨htells', hraised'⟩ := hok a v (htells.chronicled ht)
    refine ⟨?_, ?_⟩
    · rw [perform_bind_ok houtcome]
      exact Passage.trans htells htells'
    · rw [EndsIn.bind_iff_of_ok houtcome, perform_bind_ok houtcome, hraised', hraised]
      simp

theorem forM {f : α → Action Unit} {xs : List α}
    (h : ∀ x ∈ xs, Surfaces sort raises t around (f x)) :
    Surfaces sort raises t around (xs.forM f) := by
  induction xs with
  | nil => exact pure ()
  | cons x xs ih => exact bind (h x (by simp)) fun _ => ih fun y hy => h y (by simp [hy])

theorem mapM {f : α → Action β} {xs : List α}
    (h : ∀ x ∈ xs, Surfaces sort raises t around (f x)) :
    Surfaces sort raises t around (xs.mapM f) := by
  induction xs with
  | nil => exact pure []
  | cons x xs ih =>
      rw [List.mapM_cons]
      exact bind (h x (by simp)) fun _ =>
        bind (ih fun y hy => h y (by simp [hy])) fun _ => pure _

end Surfaces

end StagedBuild
