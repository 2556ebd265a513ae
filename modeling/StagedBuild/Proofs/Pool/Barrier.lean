import Mathlib.Data.List.Nodup
import StagedBuild.Proofs.Pool.Calls

/-!
Tasks of any kind, each of which ends with a result or in an ordinary fault. A run waits for all of
them. What it gives is in the order of the items, so neither the number of workers nor the order in
which tasks end can be seen from it. Only the order of the failures, and which fault a run ends in,
tell in which order tasks were taken up, and that is not always the order in which they ended: tasks
that had ended before the first was asked for are taken up in any order.
-/

namespace StagedBuild.Pool

open Action

variable {α : Type}

/-- Each task ends with a result or in an ordinary fault. -/
def Settles (around : Surroundings) (task : α → Action (Option ToolResult)) (items : List α) :
    Prop :=
  ∀ item ∈ items, ∀ w, ∃ outcome : Except Fault ToolResult,
    (perform (task item) around w).1 = outcome.map some ∧
      ∀ fault, outcome = .error fault → fault.isOrdinary = true

/-- A task that has ended: its place among the items, its item, and what it came to. -/
structure Finished (α : Type) where
  place : Nat
  item : α
  outcome : Except Fault ToolResult

namespace Finished

/-- The fault in which a task ended. -/
def raised? (f : Finished α) : Option Fault :=
  match f.outcome with
  | .error fault => some fault
  | .ok _ => none

/-- A task that has ended, as the pool keeps it. -/
def ended (f : Finished α) : Nat × α × Ended :=
  (f.place, f.item, f.outcome.map some)

end Finished

/-- Tasks are done from one world to another, one after the other: each to its end, in the world
that the one before it has left. -/
inductive DoneAll (around : Surroundings) (task : α → Action (Option ToolResult)) :
    World → List (Finished α) → World → Prop
  | nil (w : World) : DoneAll around task w [] w
  | cons {w w₁ w' : World} {f : Finished α} {rest : List (Finished α)} :
      perform (task f.item) around { w with history := .started f.place :: w.history } =
        (f.outcome.map some, w₁) →
      DoneAll around task w₁ rest w' → DoneAll around task w (f :: rest) w'

variable {around : Surroundings} {task : α → Action (Option ToolResult)} {items : List α}
  {finished : List (Finished α)} {w w' : World}

theorem DoneAll.forall_outcome (holds : α → Except Fault ToolResult → Prop)
    (h : DoneAll around task w finished w')
    (hholds : ∀ f ∈ finished, ∀ v, (perform (task f.item) around v).1 = f.outcome.map some →
      holds f.item f.outcome) :
    ∀ f ∈ finished, holds f.item f.outcome := by
  induction h with
  | nil w => simp
  | @cons w w₁ w' f rest hfirst _ ih =>
      refine List.forall_mem_cons.2 ⟨hholds f (by simp) _ (congrArg Prod.fst hfirst), ?_⟩
      exact ih fun g hg => hholds g (List.mem_cons_of_mem _ hg)

theorem map_some_injective {a b : Except Fault ToolResult} (h : a.map some = b.map some) :
    a = b := by
  cases a <;> cases b <;> simp_all [Except.map]

theorem perform_runAll_of_settles {tasks : List (Nat × α)} (h : Settles around task items)
    (htasks : ∀ t ∈ tasks, t.2 ∈ items) (w : World) :
    ∃ finished w', perform (runAll task tasks) around w =
        (.ok (finished.map Finished.ended), w') ∧
      DoneAll around task w finished w' ∧
      finished.map (fun f => (f.place, f.item)) = tasks := by
  induction tasks generalizing w with
  | nil => exact ⟨[], w, rfl, .nil w, rfl⟩
  | cons first rest ih =>
      obtain ⟨i, item⟩ := first
      obtain ⟨w₀, hw₀⟩ : ∃ w₀ : World, w₀ = { w with history := .started i :: w.history } :=
        ⟨_, rfl⟩
      obtain ⟨outcome, houtcome, -⟩ := h item (htasks (i, item) (by simp)) w₀
      obtain ⟨finished, w', hperform, hall, hplaces⟩ :=
        ih (fun t ht => htasks t (List.mem_cons_of_mem _ ht)) (perform (task item) around w₀).2
      refine ⟨⟨i, item, outcome⟩ :: finished, w', ?_, ?_, by simp [hplaces]⟩
      · simp only [runAll, perform_bind, perform_note, perform_outcome, ← hw₀, hperform,
          perform_pure, List.map_cons, Finished.ended, houtcome]
      · refine .cons ?_ hall
        rw [← houtcome]
        exact hw₀ ▸ rfl

theorem DoneAll.isOrdinary (h : DoneAll around task w finished w')
    (hsettles : Settles around task items) (hitems : ∀ f ∈ finished, f.item ∈ items) :
    ∀ f ∈ finished, ∀ fault, f.outcome = .error fault → fault.isOrdinary = true := by
  refine h.forall_outcome (fun _ outcome =>
    ∀ fault, outcome = .error fault → fault.isOrdinary = true) fun f hf v hv => ?_
  obtain ⟨outcome, houtcome, hordinary⟩ := hsettles f.item (hitems f hf) v
  rwa [map_some_injective (hv.symm.trans houtcome)]

/-- Nothing stops the collection of results of settled tasks, so that a run ends in the fault of the
first task that ended in one. -/
theorem faultOf?_finished
    (hordinary : ∀ f ∈ finished, ∀ fault, f.outcome = .error fault → fault.isOrdinary = true) :
    faultOf? (finished.map fun f => f.ended.2.2) = finished.findSome? Finished.raised? := by
  have hstop : (finished.map fun f => f.ended.2.2).findSome? stop? = none := by
    rw [List.findSome?_eq_none_iff]
    rintro e he
    obtain ⟨f, hf, rfl⟩ := List.mem_map.1 he
    cases houtcome : f.outcome with
    | ok r => simp [Finished.ended, houtcome, Except.map, stop?]
    | error fault =>
        simp [Finished.ended, houtcome, Except.map, stop?, hordinary f hf fault houtcome]
  rw [faultOf?_eq, hstop, Option.none_or, List.findSome?_map]
  congr 1
  funext f
  cases houtcome : f.outcome <;>
    simp [Finished.ended, Finished.raised?, houtcome, Except.map, errorOf?]

section Collecting

variable {results : Nat → ToolResult} (hresults : ∀ f ∈ finished, f.outcome = .ok (results f.place))

include hresults

theorem outcomes_collect (hplaces : (finished.map Finished.place).Nodup)
    (hqueue : ∀ item i, (item, i) ∈ items.zipIdx → ∃ f ∈ finished, f.place = i ∧ f.item = item) :
    (collect items (finished.map Finished.ended)).outcomes =
      items.zipIdx.map fun (item, i) => (item, results i) := by
  refine (List.filterMap_congr ?_).trans (congrFun List.filterMap_eq_map' _)
  rintro ⟨item, i⟩ hmem
  obtain ⟨f, hf, rfl, rfl⟩ := hqueue item i hmem
  have hlookup : (finished.map Finished.ended).lookup f.ended.1 = some f.ended.2 :=
    lookup_map hplaces hf
  change _ = some (f.item, f.outcome.map some) at hlookup
  simp [show (finished.map Finished.ended).lookup f.place = _ from hlookup,
    hresults f hf, Except.map,
    result?]

/-- The failures are the results with another exit code than zero, in the order in which the tasks
were taken up. -/
theorem failures_collect :
    (collect items (finished.map Finished.ended)).failures =
      (finished.map fun f => (f.item, results f.place)).filter fun o => o.2.exitCode ≠ 0 := by
  rw [collect, List.filterMap_map, List.filter_map, ← List.filterMap_eq_filter, List.map_filterMap]
  refine List.filterMap_congr fun f hf => ?_
  by_cases hcode : (results f.place).exitCode = 0 <;>
    simp [Finished.ended, hresults f hf, Except.map, result?, ToolResult.success, hcode,
      Option.guard]

end Collecting

theorem mem_queue {schedule : Schedule} {i : Nat} {item : α} :
    (i, item) ∈ queue schedule items ↔ (item, i) ∈ items.zipIdx := by
  rw [queue, List.mem_filterMap, List.mem_zipIdx_iff_getElem?]
  constructor
  · rintro ⟨j, -, hj⟩
    obtain ⟨x, hx, heq⟩ := Option.map_eq_some_iff.1 hj
    cases heq
    exact hx
  · intro hitem
    refine ⟨i, (finishOrder_perm schedule items.length).mem_iff.2 ?_, by simp [hitem]⟩
    exact List.mem_range.2 (List.getElem?_eq_some_iff.1 hitem).1

/-- What a run gives when the tasks have been taken up with these results: every item with the
result of its own task in the order of the items, and the failures in the order in which the tasks
were taken up. -/
structure Gathered (items : List α) (taken : List (Finished α)) (results : Nat → ToolResult)
    (gathered : PoolRun α) : Prop where
  own : ∀ f ∈ taken, f.outcome = .ok (results f.place)
  outcomes : gathered.outcomes = items.zipIdx.map fun (item, i) => (item, results i)
  failures : gathered.failures =
    (taken.map fun f => (f.item, results f.place)).filter fun o => o.2.exitCode ≠ 0
  success : gathered.success = true ↔ ∀ o ∈ gathered.outcomes, o.2.exitCode = 0

/-- The tasks that have ended are those of the items, each once. -/
structure EachOnce (items : List α) (finished : List (Finished α)) : Prop where
  places : (finished.map Finished.place).Perm (List.range items.length)
  item : ∀ f ∈ finished, items[f.place]? = some f.item

namespace EachOnce

theorem nodup (h : EachOnce items finished) : (finished.map Finished.place).Nodup :=
  h.places.nodup_iff.2 List.nodup_range

theorem exists_finished (h : EachOnce items finished) {item : α} {i : Nat}
    (hitem : (item, i) ∈ items.zipIdx) : ∃ f ∈ finished, f.place = i ∧ f.item = item := by
  rw [List.mem_zipIdx_iff_getElem?] at hitem
  have hi : i ∈ finished.map Finished.place :=
    h.places.mem_iff.2 (List.mem_range.2 (List.getElem?_eq_some_iff.1 hitem).1)
  obtain ⟨f, hf, rfl⟩ := List.mem_map.1 hi
  exact ⟨f, hf, rfl, Option.some.inj ((h.item f hf).symm.trans hitem)⟩

theorem of_perm {taken : List (Finished α)} (h : EachOnce items finished)
    (hperm : taken.Perm finished) : EachOnce items taken where
  places := (hperm.map Finished.place).trans h.places
  item := fun f hf => h.item f (hperm.mem_iff.1 hf)

theorem mem (h : EachOnce items finished) {f : Finished α} (hf : f ∈ finished) : f.item ∈ items :=
  List.mem_of_getElem? (h.item f hf)

theorem exists_results (h : EachOnce items finished)
    (hnone : finished.findSome? Finished.raised? = none) :
    ∃ results : Nat → ToolResult, ∀ f ∈ finished, f.outcome = .ok (results f.place) := by
  have hplace : ∀ i, ∃ r : ToolResult, ∀ f ∈ finished, f.place = i → f.outcome = .ok r := by
    intro i
    by_cases hi : ∃ f ∈ finished, f.place = i
    · obtain ⟨f, hf, rfl⟩ := hi
      cases houtcome : f.outcome with
      | error fault =>
          have hraised := List.findSome?_eq_none_iff.1 hnone f hf
          rw [Finished.raised?, houtcome] at hraised
          cases hraised
      | ok r =>
          refine ⟨r, fun g hg heq => ?_⟩
          rw [List.inj_on_of_nodup_map h.nodup hg hf heq, houtcome]
    · exact ⟨⟨[], 0, "", ""⟩, fun f hf heq => absurd ⟨f, hf, heq⟩ hi⟩
  choose results hresults using hplace
  exact ⟨results, fun f hf => hresults f.place f hf rfl⟩

theorem gathered_collect (h : EachOnce items finished) {results : Nat → ToolResult}
    (hresults : ∀ f ∈ finished, f.outcome = .ok (results f.place)) :
    Gathered items finished results (collect items (finished.map Finished.ended)) where
  own := hresults
  outcomes := outcomes_collect hresults h.nodup fun _ _ => h.exists_finished
  failures := failures_collect hresults
  success := by
    rw [PoolRun.success, List.isEmpty_iff, failures_collect hresults,
      outcomes_collect hresults h.nodup fun _ _ => h.exists_finished, List.filter_eq_nil_iff]
    simp only [List.mem_map, forall_exists_index, and_imp, forall_apply_eq_imp_iff₂, ne_eq,
      decide_not, Bool.not_eq_true', decide_eq_false_iff_not, Decidable.not_not]
    constructor
    · rintro hzero ⟨item, i⟩ hitem
      obtain ⟨f, hf, rfl, rfl⟩ := h.exists_finished hitem
      exact hzero f hf
    · intro hzero f hf
      exact hzero (f.item, f.place) (List.mem_zipIdx_iff_getElem?.2 (h.item f hf))

theorem of_queue {schedule : Schedule}
    (h : (finished.map fun f => (f.place, f.item)) = queue schedule items) :
    EachOnce items finished ∧
      finished.map Finished.place = finishOrder schedule items.length := by
  have hplaces : finished.map Finished.place = finishOrder schedule items.length := by
    rw [← map_fst_queue, ← h, List.map_map]
    rfl
  refine ⟨⟨hplaces ▸ finishOrder_perm _ _, fun f hf => ?_⟩, hplaces⟩
  have hmem : (f.place, f.item) ∈ queue schedule items := h ▸ List.mem_map.2 ⟨f, hf, rfl⟩
  exact List.mem_zipIdx_iff_getElem?.1 (mem_queue.1 hmem)

/-- Where every result is the one that its item settles, the outcomes do not show in which order the
tasks have ended. -/
theorem outcomes_of_answers (h : EachOnce items finished) {results : Nat → ToolResult}
    {gathered : PoolRun α} (hgathered : Gathered items finished results gathered)
    {answer : α → ToolResult} (hown : ∀ f ∈ finished, f.outcome = .ok (answer f.item)) :
    gathered.outcomes = items.map fun item => (item, answer item) := by
  rw [hgathered.outcomes, ← List.zipIdx_map_fst 0 items, List.map_map, List.zipIdx_map_fst]
  refine List.map_congr_left ?_
  rintro ⟨item, i⟩ hitem
  obtain ⟨f, hf, rfl, rfl⟩ := h.exists_finished hitem
  exact congrArg (f.item, ·) (Except.ok.inj ((hgathered.own f hf).symm.trans (hown f hf)))

end EachOnce

theorem TakenUp.eq_of_le_one {early : Nat} {γ : Type} {ended taken : List γ}
    (h : TakenUp early ended taken) (hearly : early ≤ 1) : taken = ended := by
  obtain ⟨first, hfirst, rfl⟩ := h
  obtain ⟨x, hx⟩ | hnil : (∃ x, ended.take early = [x]) ∨ ended.take early = [] := by
    match early, hearly, ended with
    | 0, _, _ => exact .inr rfl
    | 1, _, [] => exact .inr rfl
    | 1, _, x :: _ => exact .inl ⟨x, rfl⟩
  · rw [hx, List.perm_singleton] at hfirst
    rw [hfirst, ← hx, List.take_append_drop]
  · rw [hnil, List.perm_nil] at hfirst
    rw [hfirst, ← hnil, List.take_append_drop]

/-- A run waits for all tasks, each of which is done once. They are taken up as they end, except
that those that have ended early, which may be any, are taken up in any order. A run ends in the
fault of the first task taken up that ended in one; if there is none, the results are gathered.
Where what a task comes to is settled by its item, neither the number of workers nor either order
can be seen from the outcomes. -/
theorem run_awaits_all (task : α → Action (Option ToolResult)) (items : List α) (jobs : Int)
    (around : Surroundings) (w : World) (h : Settles around task items) :
    ∃ finished taken w', DoneAll around task w finished w' ∧ EachOnce items finished ∧
      TakenUp (around.schedule w (workers jobs items.length) items.length).early finished taken ∧
      (∀ (order earlyOrder : List Nat) (early : Nat), order.Perm (List.range items.length) →
        earlyOrder.Perm (order.take early) →
        around.schedule w (workers jobs items.length) items.length = ⟨order, early, earlyOrder⟩ →
        finished.map Finished.place = order ∧
          taken.map Finished.place = earlyOrder ++ order.drop early) ∧
      ((around.schedule w (workers jobs items.length) items.length).early ≤ 1 →
        taken = finished) ∧
      (∀ fault, taken.findSome? Finished.raised? = some fault →
        perform (run task items jobs) around w = (.error fault, w')) ∧
      (taken.findSome? Finished.raised? = none →
        ∃ results gathered, perform (run task items jobs) around w = (.ok gathered, w') ∧
          Gathered items taken results gathered ∧
          ∀ answer : α → ToolResult,
            (∀ item ∈ items, ∀ v, (perform (task item) around v).1 = .ok (some (answer item))) →
            gathered.outcomes = items.map fun item => (item, answer item)) := by
  obtain ⟨schedule, hschedule⟩ : ∃ schedule, schedule =
      around.schedule w (workers jobs items.length) items.length := ⟨_, rfl⟩
  rw [← hschedule]
  have hqueue : ∀ t ∈ queue schedule items, t.2 ∈ items := fun t ht =>
    (queue_perm schedule items).mem_iff.1 (List.mem_map_of_mem ht)
  obtain ⟨finished, w', hperform, hdone, htasks⟩ :=
    perform_runAll_of_settles h hqueue w
  obtain ⟨honce, hplaces⟩ := EachOnce.of_queue htasks
  obtain ⟨taken, htakenUp, horder, hlookup⟩ :=
    exists_takenUp schedule Finished.ended honce.nodup
  have htaken : taken.map Finished.place = takenUp schedule (finishOrder schedule items.length) :=
    hplaces ▸ horder
  have honceTaken := honce.of_perm htakenUp.perm
  have hordinary := hdone.isOrdinary h fun f hf => honce.mem hf
  have hfault := faultOf?_finished fun f hf => hordinary f (htakenUp.perm.mem_iff.1 hf)
  have hrun := perform_run_of_runAll jobs hschedule hperform (hplaces ▸ hlookup)
  simp only [List.map_map, Function.comp_def, hfault] at hrun
  refine ⟨finished, taken, w', hdone, honce, htakenUp,
    fun order earlyOrder early hperm hearly heq => ?_,
    htakenUp.eq_of_le_one, fun fault hraised => ?_, fun hnone => ?_⟩
  · have hfinish : finishOrder schedule items.length = order := by
      rw [finishOrder, heq]
      exact inOrder_of_perm List.nodup_range hperm
    have hnodup : order.Nodup := hperm.nodup_iff.2 List.nodup_range
    refine ⟨hplaces.trans hfinish, ?_⟩
    rw [htaken, hfinish, takenUp, heq,
      inOrder_of_perm (hnodup.sublist (List.take_sublist _ _)) hearly]
  · rw [hrun, hraised, Option.elim_some]
  · obtain ⟨results, hresults⟩ := honceTaken.exists_results hnone
    have hgathered := honceTaken.gathered_collect hresults
    refine ⟨results, _, by rw [hrun, hnone, Option.elim_none], hgathered, fun answer hanswer => ?_⟩
    have hown := hdone.forall_outcome (fun item outcome => outcome = .ok (answer item))
      fun f hf v hv => map_some_injective (hv.symm.trans (hanswer _ (honce.mem hf) v))
    exact honceTaken.outcomes_of_answers hgathered fun f hf =>
      hown f (htakenUp.perm.mem_iff.1 hf)

section Overtaking

/-- Surroundings in which tasks end and are taken up as the schedule says. -/
def scheduled (schedule : Schedule) : Surroundings :=
  { Surroundings.still [] with schedule := fun _ _ _ => schedule }

/-- A task that ends with the exit code it is given. -/
def endingWith (code : Int) : Action (Option ToolResult) :=
  return some ⟨[], code, "", ""⟩

/-- Three tasks, two of them for equal items, that end in the order opposite to that of the items
and are taken up in yet another: the results are in the order of the items nevertheless. -/
theorem run_awaits_all_backwards :
    ∃ (finished taken : List (Finished Int)) (w' : World) (gathered : PoolRun Int),
      DoneAll (scheduled ⟨[2, 1, 0], 2, [1, 2]⟩) endingWith (.ofTree .empty) finished w' ∧
      finished.map Finished.place = [2, 1, 0] ∧ taken.map Finished.place = [1, 2, 0] ∧
      perform (run endingWith [0, 3, 0] (-1)) (scheduled ⟨[2, 1, 0], 2, [1, 2]⟩) (.ofTree .empty) =
        (.ok gathered, w') ∧
      gathered.outcomes = [(0, ⟨[], 0, "", ""⟩), (3, ⟨[], 3, "", ""⟩), (0, ⟨[], 0, "", ""⟩)] ∧
      gathered.success = false := by
  have hsettles : Settles (scheduled ⟨[2, 1, 0], 2, [1, 2]⟩) endingWith [0, 3, 0] :=
    fun code _ w => ⟨.ok ⟨[], code, "", ""⟩, rfl, nofun⟩
  obtain ⟨finished, taken, w', hdone, honce, htaken, horder, -, -, hgathers⟩ :=
    run_awaits_all endingWith [0, 3, 0] (-1) _ (.ofTree .empty) hsettles
  have houtcome := hdone.forall_outcome (fun code outcome => outcome = .ok ⟨[], code, "", ""⟩)
    fun f _ _ hv => map_some_injective hv.symm
  have hnone : taken.findSome? Finished.raised? = none :=
    List.findSome?_eq_none_iff.2 fun f hf => by
      rw [Finished.raised?, houtcome f (htaken.perm.mem_iff.1 hf)]
  obtain ⟨results, gathered, hrun, hgathered, hanswers⟩ := hgathers hnone
  have houtcomes := hanswers (fun code => ⟨[], code, "", ""⟩) fun _ _ _ => rfl
  obtain ⟨hfinished, htakenPlaces⟩ := horder [2, 1, 0] [1, 2] 2 (by decide) (by decide) rfl
  refine ⟨finished, taken, w', gathered, hdone, hfinished, htakenPlaces, hrun, houtcomes, ?_⟩
  have hsuccess := hgathered.success
  rw [houtcomes] at hsuccess
  simpa using hsuccess

/-- A task that ends in the fault that has this text. -/
def failingWith (text : String) : Action (Option ToolResult) :=
  throw (.failure text)

/-- Two tasks that end in the order of the items, both before the first is asked for: the failures
come in the other order, and a run ends in the fault of the task that ended last. -/
theorem later_failure_comes_first :
    ∃ (failed : List (Finished Int)) (raised : List (Finished String)) (w' w'' : World),
      DoneAll (scheduled ⟨[0, 1], 2, [1, 0]⟩) endingWith (.ofTree .empty) failed w' ∧
      failed.map Finished.item = [1, 2] ∧
      (∃ gathered, perform (run endingWith [1, 2] 1) (scheduled ⟨[0, 1], 2, [1, 0]⟩)
          (.ofTree .empty) = (.ok gathered, w') ∧
        gathered.failures = [(2, ⟨[], 2, "", ""⟩), (1, ⟨[], 1, "", ""⟩)]) ∧
      DoneAll (scheduled ⟨[0, 1], 2, [1, 0]⟩) failingWith (.ofTree .empty) raised w'' ∧
      raised.map Finished.item = ["first", "other"] ∧
      perform (run failingWith ["first", "other"] 1) (scheduled ⟨[0, 1], 2, [1, 0]⟩)
        (.ofTree .empty) = (.error (.failure "other"), w'') := by
  refine ⟨[⟨0, 1, .ok ⟨[], 1, "", ""⟩⟩, ⟨1, 2, .ok ⟨[], 2, "", ""⟩⟩],
    [⟨0, "first", .error (.failure "first")⟩, ⟨1, "other", .error (.failure "other")⟩], _, _,
    .cons rfl (.cons rfl (.nil _)), rfl, ⟨_, rfl, rfl⟩, .cons rfl (.cons rfl (.nil _)), rfl, rfl⟩

end Overtaking

end StagedBuild.Pool
