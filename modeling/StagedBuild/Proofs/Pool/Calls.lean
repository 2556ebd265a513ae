import Mathlib.Data.List.Perm.Basic
import StagedBuild.Intermediate.Linked
import StagedBuild.Pool
import StagedBuild.Proofs.Action.Steps

/-!
Tasks that run side by side, whatever the order in which they end. Every task is in the queue
exactly once. Where each task is one call of a tool, a run makes one call for each item, and it
succeeds exactly when every tool does: a tool that raises ends the run in that fault once all have
ended, and tools that end with another code than zero are its failures.
-/

namespace StagedBuild.Pool

variable {α : Type}

theorem inOrder_perm (wished : List Nat) {numbers : List Nat} (h : numbers.Nodup) :
    (inOrder wished numbers).Perm numbers := by
  have hnodup : (inOrder wished numbers).Nodup := by
    refine List.nodup_append.2 ⟨nodup_eraseDups _, h.filter _, ?_⟩
    rintro i hi j hj rfl
    simp only [List.mem_filter, decide_eq_true_eq] at hj
    exact hj.2 hi
  refine (List.perm_ext_iff_of_nodup hnodup h).2 fun i => ?_
  simp only [inOrder, List.mem_append, List.mem_eraseDups, List.mem_filter, decide_eq_true_eq]
  constructor
  · rintro (h | h)
    · exact h.2
    · exact h.1
  · intro hi
    by_cases hw : i ∈ wished
    · exact .inl ⟨hw, hi⟩
    · exact .inr ⟨hi, fun h => hw h.1⟩

theorem eraseDups_of_nodup {xs : List Nat} (h : xs.Nodup) : xs.eraseDups = xs := by
  induction xs with
  | nil => rfl
  | cons x xs ih =>
      obtain ⟨hx, hxs⟩ := List.nodup_cons.1 h
      have hfilter : (xs.filter fun y => !y == x) = xs :=
        List.filter_eq_self.2 fun y hy => by
          simpa using fun heq : y = x => hx (heq ▸ hy)
      rw [List.eraseDups_cons, hfilter, ih hxs]

theorem inOrder_of_perm {wished numbers : List Nat} (hnumbers : numbers.Nodup)
    (h : wished.Perm numbers) : inOrder wished numbers = wished := by
  have hknown : (wished.filter (· ∈ numbers)).eraseDups = wished := by
    rw [List.filter_eq_self.2 fun i hi => by simpa using h.mem_iff.1 hi]
    exact eraseDups_of_nodup (h.nodup_iff.2 hnumbers)
  have hrest : numbers.filter (· ∉ wished) = [] := by
    rw [List.filter_eq_nil_iff]
    exact fun i hi => by simpa using h.mem_iff.2 hi
  rw [inOrder]
  simp only [hknown, hrest, List.append_nil]

theorem finishOrder_perm (schedule : Schedule) (tasks : Nat) :
    (finishOrder schedule tasks).Perm (List.range tasks) :=
  inOrder_perm _ List.nodup_range

/-- The tasks in the order in which they end, with their places. -/
def queue (schedule : Schedule) (items : List α) : List (Nat × α) :=
  (finishOrder schedule items.length).filterMap fun i => items[i]?.map fun item => (i, item)

theorem filterMap_getElem?_range (items : List α) :
    (List.range items.length).filterMap (fun i => items[i]?) = items := by
  induction items with
  | nil => rfl
  | cons item items ih =>
      rw [List.length_cons, List.range_succ_eq_map]
      simpa [List.filterMap_cons, List.filterMap_map, Function.comp_def] using ih

theorem queue_perm (schedule : Schedule) (items : List α) :
    ((queue schedule items).map Prod.snd).Perm items := by
  have h := (finishOrder_perm schedule items.length).filterMap fun i => items[i]?
  rw [filterMap_getElem?_range] at h
  simpa [queue, List.map_filterMap, Function.comp_def] using h

theorem map_fst_queue (schedule : Schedule) (items : List α) :
    (queue schedule items).map Prod.fst = finishOrder schedule items.length := by
  rw [queue, List.map_filterMap]
  refine (List.filterMap_congr fun i hi => ?_).trans List.filterMap_some
  have hlt := List.mem_range.1 ((finishOrder_perm schedule items.length).mem_iff.1 hi)
  simp [List.getElem?_eq_getElem hlt]

section Taking

variable {β γ : Type} {ended taken : List γ}

/-- What has ended is taken up as it ends, but the first `early` of it in any order. -/
def TakenUp (early : Nat) (ended taken : List γ) : Prop :=
  ∃ first, first.Perm (ended.take early) ∧ taken = first ++ ended.drop early

theorem TakenUp.perm {early : Nat} (h : TakenUp early ended taken) : taken.Perm ended := by
  obtain ⟨first, hfirst, rfl⟩ := h
  have happend := hfirst.append_right (ended.drop early)
  rwa [List.take_append_drop] at happend

theorem lookup_map {entry : γ → Nat × β} (hnodup : (ended.map fun x => (entry x).1).Nodup) {x : γ}
    (hx : x ∈ ended) : (ended.map entry).lookup (entry x).1 = some (entry x).2 := by
  induction ended with
  | nil => simp at hx
  | cons y rest ih =>
      rw [List.map_cons, List.nodup_cons] at hnodup
      rw [List.map_cons, List.lookup_cons]
      rcases List.mem_cons.1 hx with rfl | hx
      · simp
      · have hne : (entry x).1 ≠ (entry y).1 := fun heq =>
          hnodup.1 (heq ▸ List.mem_map_of_mem hx)
        rw [beq_false_of_ne hne]
        exact ih hnodup.2 hx

/-- What has ended is taken up in the order of the schedule, whichever that is. -/
theorem exists_takenUp (schedule : Schedule) (entry : γ → Nat × β)
    (hnodup : (ended.map fun x => (entry x).1).Nodup) :
    ∃ taken, TakenUp schedule.early ended taken ∧
      taken.map (fun x => (entry x).1) = takenUp schedule (ended.map fun x => (entry x).1) ∧
      ((takenUp schedule (ended.map fun x => (entry x).1)).filterMap fun i =>
          ((ended.map entry).lookup i).map fun b => (i, b)) = taken.map entry := by
  have hearly := inOrder_perm schedule.earlyOrder
    (hnodup.sublist (List.take_sublist schedule.early _))
  rw [← List.map_take] at hearly
  obtain ⟨first, hplaces, hfirst⟩ :=
    (congrFun₂ (List.eq_map_comp_perm fun x => (entry x).1) _ _).mpr hearly
  have htaken : TakenUp schedule.early ended (first ++ ended.drop schedule.early) :=
    ⟨first, hfirst, rfl⟩
  have horder : (first ++ ended.drop schedule.early).map (fun x => (entry x).1) =
      takenUp schedule (ended.map fun x => (entry x).1) := by
    rw [takenUp, List.map_append, ← hplaces, List.map_take, List.map_drop]
  refine ⟨_, htaken, horder, ?_⟩
  rw [← horder, List.filterMap_map, ← List.filterMap_eq_map]
  refine List.filterMap_congr fun x hx => ?_
  simp [lookup_map hnodup (htaken.perm.mem_iff.1 hx)]

end Taking

end StagedBuild.Pool

namespace StagedBuild

open Action

/-- A call of a tool leads from one world to another; only silent events come before it. -/
def Ran (around : Surroundings) (call : Invocation) (w : World) (reply : ToolReply) (w' : World) :
    Prop :=
  ∃ w₁ : World, Silent w w₁ ∧ w₁.tree = w.tree ∧ around.tool call w₁ = (reply, w'.tree) ∧
    w'.history = .changed w'.tree :: .ran call w₁.tree :: w₁.history

namespace Ran

variable {around : Surroundings} {call : Invocation} {w w' : World} {reply : ToolReply}

theorem steps_eq (h : Ran around call w reply w') :
    w'.steps around = w.steps around ++ [.tool call reply] := by
  obtain ⟨w₁, hsilent, -, htool, hhistory⟩ := h
  rw [World.steps, hhistory, ← hsilent.steps_eq around]
  simp [stepsIn, World.steps, htool]

theorem later (h : Ran around call w reply w') : Later w w' := by
  obtain ⟨w₁, hsilent, -, -, hhistory⟩ := h
  have hends : w₁.history <:+ w'.history := by
    rw [hhistory]
    exact (List.suffix_cons _ _).trans (List.suffix_cons _ _)
  exact (Later.of_silent hsilent).trans hends

theorem of_silent {v : World} (hv : Silent v w) (htree : w.tree = v.tree)
    (h : Ran around call w reply w') : Ran around call v reply w' := by
  obtain ⟨w₁, hsilent, heq, htool, hhistory⟩ := h
  exact ⟨w₁, Disk.AnyChange.toPassage.trans hv hsilent, heq.trans htree, htool, hhistory⟩

end Ran

namespace ToolReply

/-- The tool ended with code zero. -/
def isSuccess : ToolReply → Bool
  | exited code _ _ => code == 0
  | _ => false

/-- What a tool raised. -/
def raised? : ToolReply → Option Fault
  | raised fault => some fault
  | _ => none

end ToolReply

namespace Tool

theorem exists_result {command : List String} (hcommand : command ≠ []) {reply : ToolReply}
    (h : reply.raised? = none) :
    ∃ r, result command reply = .ok r ∧ r.success = reply.isSuccess := by
  cases reply with
  | exited code stdout stderr => exact ⟨_, rfl, rfl⟩
  | notStarted fault =>
      cases command with
      | nil => exact absurd rfl hcommand
      | cons name rest => exact ⟨_, rfl, rfl⟩
  | raised fault => simp [ToolReply.raised?] at h

end Tool

namespace Pool

variable {α : Type}

/-- Each task is one call of a tool, and its outcome is the tool's. -/
structure OneCall (around : Surroundings) (task : α → Action (Option ToolResult))
    (call : α → Invocation) : Prop where
  command_ne_nil : ∀ item, (call item).command ≠ []
  ran : ∀ item w, ∃ reply, Ran around (call item) w reply (perform (task item) around w).2 ∧
    (perform (task item) around w).1 = (Tool.result (call item).command reply).map some

/-- A call for an item of the pool, and its reply. -/
structure Answered (α : Type) where
  place : Nat
  item : α
  reply : ToolReply

/-- Calls lead from one world to another, one after the other. -/
inductive RanAll (around : Surroundings) (call : α → Invocation) :
    World → List (Answered α) → World → Prop
  | nil (w : World) : RanAll around call w [] w
  | cons {w w₁ w' : World} {a : Answered α} {rest : List (Answered α)} :
      Ran around (call a.item) w a.reply w₁ → RanAll around call w₁ rest w' →
      RanAll around call w (a :: rest) w'

variable {around : Surroundings} {task : α → Action (Option ToolResult)} {call : α → Invocation}

/-- The step of an answered call. -/
def Answered.step (call : α → Invocation) (a : Answered α) : Step :=
  .tool (call a.item) a.reply

theorem RanAll.steps_eq {w w' : World} {answered : List (Answered α)}
    (h : RanAll around call w answered w') :
    w'.steps around = w.steps around ++ answered.map (Answered.step call) := by
  induction h with
  | nil w => simp
  | cons hran _ ih =>
      rw [ih, hran.steps_eq]
      simp [Answered.step]

theorem RanAll.later {w w' : World} {answered : List (Answered α)}
    (h : RanAll around call w answered w') : Later w w' := by
  induction h with
  | nil w => exact .refl w
  | cons hran _ ih => exact hran.later.trans ih

/-- What became of an answered call. -/
def ended (call : α → Invocation) (a : Answered α) : Nat × α × Ended :=
  (a.place, a.item, (Tool.result (call a.item).command a.reply).map some)

theorem perform_runAll (h : OneCall around task call) (tasks : List (Nat × α)) (w : World) :
    ∃ answered w', perform (runAll task tasks) around w =
        (.ok (answered.map (ended call)), w') ∧
      RanAll around call w answered w' ∧
      answered.map (fun a => (a.place, a.item)) = tasks := by
  induction tasks generalizing w with
  | nil => exact ⟨[], w, rfl, .nil w, rfl⟩
  | cons first rest ih =>
      obtain ⟨i, item⟩ := first
      obtain ⟨w₀, hw₀⟩ : ∃ w₀ : World, w₀ = { w with history := .started i :: w.history } :=
        ⟨_, rfl⟩
      obtain ⟨reply, hran, houtcome⟩ := h.ran item w₀
      obtain ⟨answered, w', hperform, hall, hplaces⟩ := ih (perform (task item) around w₀).2
      refine ⟨⟨i, item, reply⟩ :: answered, w', ?_, ?_, by simp [hplaces]⟩
      · simp only [runAll, perform_bind, perform_note, perform_outcome, ← hw₀, hperform,
          perform_pure, List.map_cons, ended, ← houtcome]
      · exact .cons (Ran.of_silent (hw₀ ▸ Silent.of_event rfl) (hw₀ ▸ rfl) hran) hall

theorem ended_of_raised {a : Answered α} {fault : Fault} (h : a.reply.raised? = some fault) :
    (ended call a).2.2 = .error fault := by
  obtain ⟨place, item, reply⟩ := a
  cases reply <;> simp_all [ToolReply.raised?, ended, Tool.result, Except.map]

theorem ended_of_not_raised {a : Answered α} (hcommand : ∀ item, (call item).command ≠ [])
    (h : a.reply.raised? = none) : ∃ r, (ended call a).2.2 = .ok (some r) := by
  obtain ⟨r, hr, -⟩ := Tool.exists_result (hcommand a.item) h
  exact ⟨r, by simp [ended, hr, Except.map]⟩

/-- The fault that a task ended in. -/
def errorOf? : Ended → Option Fault
  | .error fault => some fault
  | .ok _ => none

theorem faultOf?_eq (ended : List Ended) :
    faultOf? ended = (ended.findSome? stop?).or (ended.findSome? errorOf?) := by
  unfold faultOf?
  cases ended.findSome? stop? <;> rfl

section Raised

variable {a : Answered α} {fault : Fault} (hcommand : ∀ item, (call item).command ≠ [])

include hcommand

theorem raised_of_ended (h : (ended call a).2.2 = .error fault) :
    a.reply.raised? = some fault := by
  cases hraised : a.reply.raised? with
  | none =>
      obtain ⟨r, hr⟩ := ended_of_not_raised hcommand hraised
      simp [hr] at h
  | some other =>
      rw [ended_of_raised hraised] at h
      simpa using h

theorem ended_of_stop? (h : stop? (ended call a).2.2 = some fault) :
    (ended call a).2.2 = .error fault := by
  cases hraised : a.reply.raised? with
  | none =>
      obtain ⟨r, hr⟩ := ended_of_not_raised hcommand hraised
      simp [hr, stop?] at h
  | some other =>
      rw [ended_of_raised hraised] at h ⊢
      by_cases hord : other.isOrdinary = true
      · simp [stop?, hord] at h
      · simpa [stop?, hord] using h

end Raised

theorem faultOf?_ended (answered : List (Answered α))
    (hcommand : ∀ item, (call item).command ≠ []) :
    (∀ a ∈ answered, a.reply.raised? = none) ∧
        faultOf? (answered.map fun a => (ended call a).2.2) = none ∨
      ∃ a ∈ answered, ∃ fault, a.reply.raised? = some fault ∧
        faultOf? (answered.map fun a => (ended call a).2.2) = some fault := by
  rw [faultOf?_eq]
  cases hfirst : (answered.map fun a => (ended call a).2.2).findSome? stop? with
  | some fault =>
      obtain ⟨e, he, hstopped⟩ := List.exists_of_findSome?_eq_some hfirst
      obtain ⟨a, ha, rfl⟩ := List.mem_map.1 he
      exact .inr ⟨a, ha, fault, raised_of_ended hcommand (ended_of_stop? hcommand hstopped), rfl⟩
  | none =>
      cases hnext : (answered.map fun a => (ended call a).2.2).findSome? errorOf? with
      | some fault =>
          obtain ⟨e, he, herror⟩ := List.exists_of_findSome?_eq_some hnext
          obtain ⟨a, ha, rfl⟩ := List.mem_map.1 he
          refine .inr ⟨a, ha, fault, raised_of_ended hcommand ?_, rfl⟩
          cases hother : (ended call a).2.2 with
          | error other =>
              rw [hother] at herror
              exact congrArg Except.error (Option.some.inj herror)
          | ok result =>
              rw [hother] at herror
              cases herror
      | none =>
          refine .inl ⟨fun a ha => ?_, rfl⟩
          cases hraised : a.reply.raised? with
          | none => rfl
          | some fault =>
              have hnone := List.findSome?_eq_none_iff.1 hnext _ (List.mem_map.2 ⟨a, ha, rfl⟩)
              rw [ended_of_raised hraised] at hnone
              cases hnone

theorem perform_run_of_runAll {items : List α} {schedule : Schedule} {w w' : World}
    {ended taken : List (Nat × α × Ended)} (jobs : Int)
    (hschedule : schedule = around.schedule w (workers jobs items.length) items.length)
    (hended : perform (runAll task (queue schedule items)) around w = (.ok ended, w'))
    (htaken : ((takenUp schedule (finishOrder schedule items.length)).filterMap fun i =>
      (ended.lookup i).map fun e => (i, e)) = taken) :
    perform (run task items jobs) around w =
      (faultOf? (taken.map fun e => e.2.2)).elim (.ok (collect items taken), w')
        fun fault => (.error fault, w') := by
  rw [queue] at hended
  simp only [run, perform_bind, perform_read, perform_get, ← hschedule, hended, htaken]
  cases faultOf? (taken.map fun e => e.2.2) <;> rfl

/-- The failures of a run, in the order in which they were taken up. -/
def failures (call : α → Invocation) (taken : List (Answered α)) : List (α × ToolResult) :=
  taken.filterMap fun a =>
    match Tool.result (call a.item).command a.reply with
    | .ok r => if r.success then none else some (a.item, r)
    | .error _ => none

/-- A run of calls makes one call for each item. Then it ends in a fault that a tool raised, or
gives the calls that failed. -/
theorem perform_run (h : OneCall around task call) (items : List α) (jobs : Int) (w : World) :
    ∃ answered taken w', RanAll around call w answered w' ∧
      (answered.map Answered.item).Perm items ∧ taken.Perm answered ∧
      ((∃ a ∈ answered, ∃ fault, a.reply.raised? = some fault ∧
          perform (run task items jobs) around w = (.error fault, w')) ∨
        (∀ a ∈ answered, a.reply.raised? = none) ∧
          ∃ run', perform (run task items jobs) around w = (.ok run', w') ∧
            run'.failures = failures call taken) := by
  obtain ⟨schedule, hschedule⟩ : ∃ schedule, schedule =
      around.schedule w (workers jobs items.length) items.length := ⟨_, rfl⟩
  obtain ⟨answered, w', hperform, hall, hqueue⟩ := perform_runAll h (queue schedule items) w
  have hplaces : answered.map (fun a => (ended call a).1) = finishOrder schedule items.length := by
    rw [← map_fst_queue, ← hqueue, List.map_map]
    rfl
  have hitems : answered.map Answered.item = (queue schedule items).map Prod.snd := by
    simp [← hqueue, Function.comp_def]
  have hnodup : (answered.map fun a => (ended call a).1).Nodup :=
    hplaces ▸ (finishOrder_perm _ _).nodup_iff.2 List.nodup_range
  obtain ⟨taken, htakenUp, -, hlookup⟩ := exists_takenUp schedule (ended call) hnodup
  have hrun := perform_run_of_runAll jobs hschedule hperform (hplaces ▸ hlookup)
  simp only [List.map_map, Function.comp_def] at hrun
  refine ⟨answered, taken, w', hall, hitems ▸ queue_perm _ items, htakenUp.perm, ?_⟩
  rcases faultOf?_ended taken h.command_ne_nil with
    ⟨hnone, hfault⟩ | ⟨a, ha, fault, hraised, hfault⟩
  · refine .inr ⟨fun a ha => hnone a (htakenUp.perm.mem_iff.2 ha), _,
      by rw [hrun, hfault, Option.elim_none], ?_⟩
    simp only [collect, failures, List.filterMap_map]
    refine List.filterMap_congr fun a ha => ?_
    obtain ⟨r, hr, -⟩ := Tool.exists_result (h.command_ne_nil a.item) (hnone a ha)
    simp [ended, hr, Except.map, result?]
  · exact .inl
      ⟨a, htakenUp.perm.mem_iff.1 ha, fault, hraised, by rw [hrun, hfault, Option.elim_some]⟩

theorem failures_eq_nil_iff {answered : List (Answered α)}
    (hcommand : ∀ item, (call item).command ≠ [])
    (hraised : ∀ a ∈ answered, a.reply.raised? = none) :
    failures call answered = [] ↔ ∀ a ∈ answered, a.reply.isSuccess = true := by
  rw [failures, List.filterMap_eq_nil_iff]
  refine forall₂_congr fun a ha => ?_
  obtain ⟨r, hr, hsuccess⟩ := Tool.exists_result (hcommand a.item) (hraised a ha)
  simp [hr, ← hsuccess]

theorem mem_failures {answered : List (Answered α)} {item : α} {r : ToolResult}
    (h : (item, r) ∈ failures call answered) :
    ∃ a ∈ answered, a.item = item ∧ Tool.result (call item).command a.reply = .ok r ∧
      r.success = false := by
  obtain ⟨a, ha, hfail⟩ := List.mem_filterMap.1 h
  split at hfail
  · rename_i r' hr
    split at hfail
    · simp at hfail
    · simp only [Option.some.injEq, Prod.mk.injEq] at hfail
      obtain ⟨rfl, rfl⟩ := hfail
      exact ⟨a, ha, rfl, hr, by simpa using ‹¬r'.success = true›⟩
  · simp at hfail

end Pool

end StagedBuild
