import StagedBuild.Action

/-!
Tasks that run side by side. Every task is run, whatever becomes of the others, and there is no
result before all have ended. The results stand in the order of the inputs; only the order of
failures shows in which order they were taken up. Tasks are taken up as they end, but those that
have ended before the first is asked for come in any order.
-/

namespace StagedBuild

/-- The results of tasks: all of them in the order of the inputs, and the failed ones in the order
in which they were taken up. -/
structure PoolRun (α : Type) where
  outcomes : List (α × ToolResult)
  failures : List (α × ToolResult)

namespace PoolRun

def success {α : Type} (run : PoolRun α) : Bool :=
  run.failures.isEmpty

/-- The failed task that was taken up first. -/
def earliestFailure? {α : Type} (run : PoolRun α) : Option (α × ToolResult) :=
  run.failures.head?

end PoolRun

namespace Pool

/-- The number of tasks that run at a time. -/
def workers (jobs : Int) (tasks : Nat) : Nat :=
  (max 1 (min jobs tasks)).toNat

/-- Numbers in a wished order, each of them exactly once: those that the wish leaves out come last,
as they stood. -/
def inOrder (wished numbers : List Nat) : List Nat :=
  let known := (wished.filter (· ∈ numbers)).eraseDups
  known ++ numbers.filter (· ∉ known)

/-- The order in which tasks end. -/
def finishOrder (schedule : Schedule) (tasks : Nat) : List Nat :=
  inOrder schedule.finished (List.range tasks)

/-- The order in which tasks that have ended are taken up: those that have ended early in any order,
then the others as they end. -/
def takenUp (schedule : Schedule) (order : List Nat) : List Nat :=
  inOrder schedule.earlyOrder (order.take schedule.early) ++ order.drop schedule.early

/-- What a task came to: a result, nothing, or a fault. -/
abbrev Ended := Except Fault (Option ToolResult)

/-- Runs tasks one after the other, in the order in which they end. -/
def runAll {α : Type} (task : α → Action (Option ToolResult)) :
    List (Nat × α) → Action (List (Nat × α × Ended))
  | [] => return []
  | (i, item) :: rest => do
    Action.note (.started i)
    let ended ← Action.outcome (task item)
    return (i, item, ended) :: (← runAll task rest)

/-- What stops the collection of results at once: a task without a result, or an interrupt. -/
def stop? : Ended → Option Fault
  | .ok none => some .noAttribute
  | .ok (some _) => none
  | .error fault => if fault.isOrdinary then none else some fault

/-- The fault in which a run ends: what stopped it, or else the fault of the first task taken up
that ended in one. -/
def faultOf? (ended : List Ended) : Option Fault :=
  match ended.findSome? stop? with
  | some fault => some fault
  | none => ended.findSome? fun
    | .error fault => some fault
    | .ok _ => none

/-- The result of a task that has one. -/
def result? : Ended → Option ToolResult
  | .ok (some r) => some r
  | _ => none

/-- The results of tasks that have ended. -/
def collect {α : Type} (items : List α) (ended : List (Nat × α × Ended)) : PoolRun α where
  outcomes := items.zipIdx.filterMap fun (item, i) =>
    match ended.lookup i with
    | some (_, e) => (result? e).map fun r => (item, r)
    | none => none
  failures := ended.filterMap fun (_, item, e) =>
    match result? e with
    | some r => if r.success then none else some (item, r)
    | none => none

/-- Runs a task for every item, at most `jobs` at a time. -/
def run {α : Type} (task : α → Action (Option ToolResult)) (items : List α) (jobs : Int) :
    Action (PoolRun α) := do
  let around ← read
  let schedule := around.schedule (← get) (workers jobs items.length) items.length
  let order := finishOrder schedule items.length
  let ended ← runAll task (order.filterMap fun i => items[i]?.map fun item => (i, item))
  let taken := (takenUp schedule order).filterMap fun i => (ended.lookup i).map fun e => (i, e)
  match faultOf? (taken.map fun e => e.2.2) with
  | some fault => throw fault
  | none => return collect items taken

end Pool

end StagedBuild
