import StagedBuild.Proofs.Build.Sequence

/-!
Sessions: the stages of one build called in any order, also again after a stage has failed. What a
call does is a run of computations, each of one stage. A stage is computed only when everything it
needs has a result, and never again once it has one of its own.
-/

namespace StagedBuild

open Action StageResults

namespace Stage

/-- What a stage results in. -/
abbrev Value : Stage → Type
  | linkIr => Linked
  | optimize => List Definition
  | generate => List Path
  | compileUnits => List Path
  | compileLibrary => NativeLibrary.Assembled
  | linkExecutable => Path

/-- Where the result of a stage is kept. -/
def slot : (s : Stage) → Slot s.Value
  | linkIr => ⟨.linkIr, linked, fun r s => { s with linked := some r }⟩
  | optimize => ⟨.optimize, optimized, fun r s => { s with optimized := some r }⟩
  | generate => ⟨.generate, units, fun r s => { s with units := some r }⟩
  | compileUnits => ⟨.compileUnits, unitObjects, fun r s => { s with unitObjects := some r }⟩
  | compileLibrary => ⟨.compileLibrary, library, fun r s => { s with library := some r }⟩
  | linkExecutable => ⟨.linkExecutable, output, fun r s => { s with output := some r }⟩

/-- The stages that a stage depends on. -/
def needs : Stage → List Stage
  | linkIr => []
  | optimize => [linkIr]
  | generate => [linkIr, optimize]
  | compileUnits => [linkIr, optimize, generate]
  | compileLibrary => [linkIr]
  | linkExecutable => [linkIr, optimize, generate, compileUnits, compileLibrary]

/-- The stage as it is called. -/
def call (plan : Plan) (tools : IrTools) : (s : Stage) → Staged s.Value
  | linkIr => linkedStage plan tools
  | optimize => optimizedStage plan tools
  | generate => unitsStage plan tools
  | compileUnits => unitObjectsStage plan tools
  | compileLibrary => libraryStage plan tools
  | linkExecutable => outputStage plan tools

/-- What computes a stage from the results of others, if they are there. -/
def work (plan : Plan) (tools : IrTools) : (s : Stage) → StageResults → Option (Action s.Value)
  | linkIr, _ => some (Intermediate.link plan tools)
  | optimize, r => r.linked.map (Intermediate.optimize plan tools)
  | generate, r => r.optimized.map (Units.generate plan tools)
  | compileUnits, r => r.units.map (Units.compileEach plan)
  | compileLibrary, r => r.linked.map fun l => NativeLibrary.assemble plan l.links
  | linkExecutable, r => do
    let l ← r.linked
    let objects ← r.unitObjects
    let library ← r.library
    return Executable.link plan objects library.objects l.links

theorem slot_stage (s : Stage) : s.slot.stage = s := by
  cases s <;> rfl

theorem needs_trans {s d e : Stage} (hd : d ∈ s.needs) (he : e ∈ d.needs) : e ∈ s.needs := by
  revert hd he
  cases s <;> cases d <;> cases e <;> decide

end Stage

namespace StageResults

/-- A stage has a result. -/
def Has (r : StageResults) (s : Stage) : Prop :=
  (s.slot.result? r).isSome = true

/-- Every stage with a result has one for all that it needs, and the stages with a result are those
that have ended, each once. -/
structure Consistent (r : StageResults) : Prop where
  needs : ∀ s, r.Has s → ∀ d ∈ s.needs, r.Has d
  finished : ∀ s, s ∈ r.finished ↔ r.Has s
  nodup : r.finished.Nodup

theorem consistent_empty : Consistent .empty where
  needs s hs := by cases s <;> cases hs
  finished s := by cases s <;> simp [empty, Has, Stage.slot]
  nodup := List.nodup_nil

theorem result?_kept_self (s : Stage) (a : s.Value) (r : StageResults) :
    s.slot.result? (kept s.slot a r) = some a := by
  cases s <;> rfl

theorem result?_kept_ne {s d : Stage} (h : d ≠ s) (a : s.Value) (r : StageResults) :
    d.slot.result? (kept s.slot a r) = d.slot.result? r := by
  cases s <;> cases d <;> first | exact absurd rfl h | rfl

theorem finished_kept (s : Stage) (a : s.Value) (r : StageResults) :
    (kept s.slot a r).finished = r.finished ++ [s] := by
  cases s <;> rfl

theorem has_kept {s d : Stage} {a : s.Value} {r : StageResults} :
    (kept s.slot a r).Has d ↔ d = s ∨ r.Has d := by
  by_cases h : d = s
  · subst h
    simp [Has, result?_kept_self]
  · simp [Has, result?_kept_ne h, h]

theorem Consistent.has_of_result {r : StageResults} (h : r.Consistent) {s : Stage} {a : s.Value}
    (ha : s.slot.result? r = some a) : ∀ d ∈ s.needs ++ [s], r.Has d := by
  have hs : r.Has s := by rw [Has, ha]; rfl
  intro d hd
  rcases List.mem_append.1 hd with hd | hd
  · exact h.needs s hs d hd
  · exact List.mem_singleton.1 hd ▸ hs

/-- Keeping the result of a stage that has what it needs keeps the results consistent. -/
theorem Consistent.kept {r : StageResults} (h : r.Consistent) {s : Stage}
    (hneeds : ∀ d ∈ s.needs, r.Has d) (hnew : ¬ r.Has s) (a : s.Value) :
    (kept s.slot a r).Consistent where
  needs d hd e he := by
    rcases has_kept.1 hd with rfl | hd
    · exact has_kept.2 (.inr (hneeds e he))
    · exact has_kept.2 (.inr (h.needs d hd e he))
  finished d := by
    rw [finished_kept, List.mem_append, List.mem_singleton, h.finished, has_kept, or_comm]
  nodup := by
    rw [finished_kept, List.nodup_append]
    refine ⟨h.nodup, by simp, fun d hd e he => ?_⟩
    rw [List.mem_singleton.1 he]
    rintro rfl
    exact hnew ((h.finished d).1 hd)

end StageResults

/-- A moment of a session: the results so far, and the world. -/
structure Moment where
  results : StageResults
  world : World

/-- A stage that was computed: the moments before and after, and what came of it. -/
structure Computation where
  stage : Stage
  before : Moment
  outcome : Except Fault stage.Value
  after : Moment

namespace Computation

/-- The stage was computed, with its announcement, from the results of other stages. Its own result
is kept; if it failed, the results are those from before. -/
structure IsOf (plan : Plan) (tools : IrTools) (around : Surroundings) (c : Computation) :
    Prop where
  computed : ∃ action, c.stage.work plan tools c.before.results = some action ∧
    perform (announced plan c.stage action) around c.before.world = (c.outcome, c.after.world)
  results : c.after.results =
    match c.outcome with
    | .ok a => kept c.stage.slot a c.before.results
    | .error _ => c.before.results

/-- The fault in which a computation ended. -/
def fault? (c : Computation) : Option Fault :=
  match c.outcome with
  | .ok _ => none
  | .error fault => some fault

theorem IsOf.results_of_fault {plan : Plan} {tools : IrTools} {around : Surroundings}
    {c : Computation} (h : c.IsOf plan tools around) (hfault : c.fault? ≠ none) :
    c.after.results = c.before.results := by
  have hresults := h.results
  unfold fault? at hfault
  cases houtcome : c.outcome with
  | ok a => simp [houtcome] at hfault
  | error fault => rwa [houtcome] at hresults

/-- The stage had no result, and all that it needs had one. -/
def IsDue (c : Computation) : Prop :=
  (∀ d ∈ c.stage.needs, c.before.results.Has d) ∧ ¬ c.before.results.Has c.stage

end Computation

section Runs

variable (plan : Plan) (tools : IrTools) (around : Surroundings)

/-- Computations that lead from one moment to another. -/
inductive Computed : Moment → List Computation → Moment → Prop
  | nil (m : Moment) : Computed m [] m
  | cons {c : Computation} {rest : List Computation} {m' : Moment} :
      c.IsOf plan tools around → Computed c.after rest m' → Computed c.before (c :: rest) m'

/-- A call of a stage leads from one moment to another, with an outcome. -/
def Calls (m : Moment) (s : Stage) (outcome : Except Fault s.Value) (m' : Moment) : Prop :=
  perform (runFrom m.results (s.call plan tools)) around m.world =
    (.ok (outcome, m'.results), m'.world)

/-- Calls of stages, in order, that lead from one moment to another. -/
inductive Session : Moment → List Stage → Moment → Prop
  | nil (m : Moment) : Session m [] m
  | cons {m m₁ m' : Moment} {s : Stage} {outcome : Except Fault s.Value} {rest : List Stage} :
      Calls plan tools around m s outcome m₁ → Session m₁ rest m' → Session m (s :: rest) m'

/-- How a call of a stage ends: with the result that is kept by then, or in the fault of the latest
computation. -/
def EndsAt (s : Stage) (outcome : Except Fault s.Value) (computations : List Computation)
    (m' : Moment) : Prop :=
  match outcome with
  | .ok a => s.slot.result? m'.results = some a
  | .error fault => ∃ c, computations.getLast? = some c ∧ c.fault? = some fault

/-- Due computations of certain stages lead from one moment to another. No result is lost, and the
results are consistent throughout. -/
structure Advances (allowed : List Stage) (m : Moment) (computations : List Computation)
    (m' : Moment) : Prop where
  computed : Computed plan tools around m computations m'
  within : ∀ c ∈ computations, c.stage ∈ allowed
  due : ∀ c ∈ computations, c.IsDue
  consistent : ∀ c ∈ computations, c.after.results.Consistent
  keeps : ∀ (s : Stage) (a : s.Value), s.slot.result? m.results = some a →
    s.slot.result? m'.results = some a
  consistent_end : m'.results.Consistent

/-- Something that runs the stages that a stage needs, and the stage itself, ends as a call of the
stage ends. -/
def Answers (s : Stage) (staged : Staged s.Value) (m : Moment) : Prop :=
  ∃ outcome computations m',
    perform (runFrom m.results staged) around m.world = (.ok (outcome, m'.results), m'.world) ∧
      Advances plan tools around (s.needs ++ [s]) m computations m' ∧
      EndsAt s outcome computations m'

end Runs

section Calls

variable {plan : Plan} {tools : IrTools} {around : Surroundings} {m m₁ m' : Moment}
  {first rest : List Computation} {allowed : List Stage} {s d : Stage}

theorem Computed.append (h : Computed plan tools around m first m₁)
    (h' : Computed plan tools around m₁ rest m') :
    Computed plan tools around m (first ++ rest) m' := by
  induction h with
  | nil => exact h'
  | cons hc _ ih => exact .cons hc (ih h')

theorem Computed.isOf (h : Computed plan tools around m first m') :
    ∀ c ∈ first, c.IsOf plan tools around := by
  induction h with
  | nil => exact fun _ h => absurd h List.not_mem_nil
  | cons hc _ ih =>
      intro c' hc'
      rcases List.mem_cons.1 hc' with rfl | hc'
      · exact hc
      · exact ih c' hc'

namespace Advances

theorem none (hm : m.results.Consistent) : Advances plan tools around allowed m [] m where
  computed := .nil m
  within _ h := absurd h List.not_mem_nil
  due _ h := absurd h List.not_mem_nil
  consistent _ h := absurd h List.not_mem_nil
  keeps _ _ h := h
  consistent_end := hm

theorem mono {more : List Stage} (h : Advances plan tools around allowed m first m')
    (hmore : ∀ s ∈ allowed, s ∈ more) : Advances plan tools around more m first m' :=
  { h with within := fun c hc => hmore _ (h.within c hc) }

theorem trans (h : Advances plan tools around allowed m first m₁)
    (h' : Advances plan tools around allowed m₁ rest m') :
    Advances plan tools around allowed m (first ++ rest) m' where
  computed := h.computed.append h'.computed
  within c hc := (List.mem_append.1 hc).elim (h.within c) (h'.within c)
  due c hc := (List.mem_append.1 hc).elim (h.due c) (h'.due c)
  consistent c hc := (List.mem_append.1 hc).elim (h.consistent c) (h'.consistent c)
  keeps s a ha := h'.keeps s a (h.keeps s a ha)
  consistent_end := h'.consistent_end

theorem eq_nil (h : Advances plan tools around allowed m first m')
    (hall : ∀ s ∈ allowed, m.results.Has s) : first = [] ∧ m' = m := by
  have hdue := h.due
  have hwithin := h.within
  cases h.computed with
  | nil => exact ⟨rfl, rfl⟩
  | @cons c rest _ _ _ =>
      exact absurd (hall _ (hwithin c List.mem_cons_self)) (hdue c List.mem_cons_self).2

end Advances

theorem answers_demand (hm : m.results.Consistent) (hneeds : ∀ d ∈ s.needs, m.results.Has d)
    {action : Action s.Value} (hwork : s.work plan tools m.results = some action) :
    Answers plan tools around s (demand plan s.slot action) m := by
  rcases hresult : s.slot.result? m.results with _ | a
  · have hnew : ¬ m.results.Has s := by simp [Has, hresult]
    have hperform : perform (runFrom m.results (demand plan s.slot action)) around m.world = _ :=
      perform_runFrom_demand_none hresult around m.world
    rw [s.slot_stage] at hperform
    -- the computation is the only one, whatever comes of it
    have hone : ∀ c : Computation, c.IsOf plan tools around → c.before = m → c.stage = s →
        c.after.results.Consistent →
        (∀ (d : Stage) (a : d.Value), d.slot.result? m.results = some a →
          d.slot.result? c.after.results = some a) →
        Advances plan tools around (s.needs ++ [s]) m [c] c.after := by
      rintro c hc rfl rfl hafter hkeeps
      refine ⟨.cons hc (.nil _), ?_, ?_, ?_, hkeeps, hafter⟩
      · exact fun c' hc' => List.mem_singleton.1 hc' ▸ by simp
      · exact fun c' hc' => List.mem_singleton.1 hc' ▸ ⟨hneeds, hnew⟩
      · exact fun c' hc' => List.mem_singleton.1 hc' ▸ hafter
    rcases hp : perform (announced plan s action) around m.world with ⟨fault | a, w'⟩
    · let c : Computation := ⟨s, m, .error fault, ⟨m.results, w'⟩⟩
      rw [hp] at hperform
      exact ⟨.error fault, [c], c.after, hperform,
        hone c ⟨⟨action, hwork, hp⟩, rfl⟩ rfl rfl hm fun _ _ h => h, c, rfl, rfl⟩
    · let c : Computation := ⟨s, m, .ok a, ⟨kept s.slot a m.results, w'⟩⟩
      rw [hp] at hperform
      refine ⟨.ok a, [c], c.after, hperform,
        hone c ⟨⟨action, hwork, hp⟩, rfl⟩ rfl rfl (hm.kept hneeds hnew a) fun d b hb => ?_,
        result?_kept_self s a m.results⟩
      have hne : d ≠ s := by
        rintro rfl
        rw [hresult] at hb
        cases hb
      exact (result?_kept_ne hne a m.results).trans hb
  · refine ⟨.ok a, [], m, ?_, .none hm, hresult⟩
    rw [runFrom_demand_some hresult, perform_pure]

theorem Answers.bind (hd : d ∈ s.needs) {staged : Staged d.Value} {next : d.Value → Staged s.Value}
    (h : Answers plan tools around d staged m)
    (hnext : ∀ a m₁, m₁.results.Consistent → d.slot.result? m₁.results = some a →
      (∀ (e : Stage) (b : e.Value), e.slot.result? m.results = some b →
        e.slot.result? m₁.results = some b) →
      Answers plan tools around s (next a) m₁) :
    Answers plan tools around s (staged >>= next) m := by
  obtain ⟨outcome, first, m₁, hperform, hadvances, hends⟩ := h
  have hallowed : ∀ e ∈ d.needs ++ [d], e ∈ s.needs ++ [s] := by
    intro e he
    rcases List.mem_append.1 he with he | he
    · exact List.mem_append_left _ (Stage.needs_trans hd he)
    · exact List.mem_append_left _ (List.mem_singleton.1 he ▸ hd)
  have hbind := perform_runFrom_bind m.results staged next around m.world
  rw [hperform] at hbind
  cases outcome with
  | error fault => exact ⟨.error fault, first, m₁, hbind, hadvances.mono hallowed, hends⟩
  | ok a =>
      obtain ⟨outcome, rest, m', hperform', hadvances', hends'⟩ :=
        hnext a m₁ hadvances.consistent_end hends hadvances.keeps
      refine ⟨outcome, first ++ rest, m', hbind.trans hperform',
        (hadvances.mono hallowed).trans hadvances', ?_⟩
      cases outcome with
      | ok _ => exact hends'
      | error _ =>
          obtain ⟨c, hlast, hfault⟩ := hends'
          exact ⟨c, by rw [List.getLast?_append, hlast]; rfl, hfault⟩

theorem answers_linkIr (hm : m.results.Consistent) :
    Answers plan tools around .linkIr (linkedStage plan tools) m :=
  answers_demand hm (fun _ h => absurd h List.not_mem_nil) rfl

theorem answers_optimize (hm : m.results.Consistent) :
    Answers plan tools around .optimize (optimizedStage plan tools) m :=
  (answers_linkIr hm).bind (by decide) fun _ _ hm₁ hl _ =>
    answers_demand (s := .optimize) hm₁ (hm₁.has_of_result hl) (congrArg (Option.map _) hl)

theorem answers_generate (hm : m.results.Consistent) :
    Answers plan tools around .generate (unitsStage plan tools) m :=
  (answers_optimize hm).bind (by decide) fun _ _ hm₁ hdefns _ =>
    answers_demand (s := .generate) hm₁ (hm₁.has_of_result hdefns) (congrArg (Option.map _) hdefns)

theorem answers_compileUnits (hm : m.results.Consistent) :
    Answers plan tools around .compileUnits (unitObjectsStage plan tools) m :=
  (answers_generate hm).bind (by decide) fun _ _ hm₁ hunits _ =>
    answers_demand (s := .compileUnits) hm₁ (hm₁.has_of_result hunits)
      (congrArg (Option.map _) hunits)

theorem answers_compileLibrary (hm : m.results.Consistent) :
    Answers plan tools around .compileLibrary (libraryStage plan tools) m :=
  (answers_linkIr hm).bind (by decide) fun _ _ hm₁ hl _ =>
    answers_demand (s := .compileLibrary) hm₁ (hm₁.has_of_result hl) (congrArg (Option.map _) hl)

theorem answers_linkExecutable (hm : m.results.Consistent) :
    Answers plan tools around .linkExecutable (outputStage plan tools) m := by
  refine (answers_linkIr hm).bind (by decide) fun l m₁ hm₁ hl _ => ?_
  refine (answers_compileUnits hm₁).bind (by decide) fun objects m₂ hm₂ hobjects hkeeps => ?_
  refine (answers_compileLibrary hm₂).bind (by decide) fun library m₃ hm₃ hlibrary hkeeps' => ?_
  have hl' : m₃.results.linked = some l := hkeeps' .linkIr l (hkeeps .linkIr l hl)
  have hobjects' : m₃.results.unitObjects = some objects := hkeeps' .compileUnits objects hobjects
  refine answers_demand hm₃ (fun d hd => ?_) ?_
  · have hsplit : Stage.linkExecutable.needs =
        (Stage.compileUnits.needs ++ [.compileUnits]) ++ [.compileLibrary] := rfl
    rw [hsplit, List.mem_append] at hd
    rcases hd with hd | hd
    · exact hm₃.has_of_result (s := .compileUnits) hobjects' d hd
    · exact hm₃.has_of_result hlibrary d (List.mem_append_right _ hd)
  · have hlibrary' : m₃.results.library = some library := hlibrary
    simp [Stage.work, hl', hobjects', hlibrary']

/-- Every call of a stage computes what is due of the stage and of what it needs. -/
theorem answers_call (s : Stage) (hm : m.results.Consistent) :
    Answers plan tools around s (s.call plan tools) m := by
  cases s with
  | linkIr => exact answers_linkIr hm
  | optimize => exact answers_optimize hm
  | generate => exact answers_generate hm
  | compileUnits => exact answers_compileUnits hm
  | compileLibrary => exact answers_compileLibrary hm
  | linkExecutable => exact answers_linkExecutable hm

theorem calls_of_result (hm : m.results.Consistent) {a : s.Value}
    (ha : s.slot.result? m.results = some a) : Calls plan tools around m s (.ok a) m := by
  have hanswers : Answers plan tools around s (s.call plan tools) m := answers_call s hm
  obtain ⟨outcome, computations, m', hperform, hadvances, hends⟩ := hanswers
  obtain ⟨rfl, rfl⟩ := hadvances.eq_nil (hm.has_of_result ha)
  cases outcome with
  | ok b =>
      have hb : s.slot.result? m'.results = some b := hends
      rw [ha] at hb
      rw [Option.some.inj hb]
      exact hperform
  | error fault =>
      obtain ⟨c, hlast, -⟩ := hends
      cases hlast

/-- However the calls of a session end, no result is lost, and the results stay consistent. -/
theorem Session.keeps {calls : List Stage} (h : Session plan tools around m calls m')
    (hm : m.results.Consistent) :
    m'.results.Consistent ∧ ∀ (s : Stage) (a : s.Value), s.slot.result? m.results = some a →
      s.slot.result? m'.results = some a := by
  induction h with
  | nil => exact ⟨hm, fun _ _ h => h⟩
  | @cons m m₁ m' s outcome rest hcall _ ih =>
      have hanswers : Answers plan tools around s (s.call plan tools) m := answers_call s hm
      obtain ⟨outcome', computations, m₁', hperform, hadvances, -⟩ := hanswers
      have hsame := hcall.symm.trans hperform
      simp only [Prod.mk.injEq, Except.ok.injEq] at hsame
      obtain rfl : m₁ = m₁' := by
        cases m₁
        cases m₁'
        simp_all
      obtain ⟨hm', hkeeps⟩ := ih hadvances.consistent_end
      exact ⟨hm', fun s a ha => hkeeps s a (hadvances.keeps s a ha)⟩

theorem exists_session (calls : List Stage) (hm : m.results.Consistent) :
    ∃ m', Session plan tools around m calls m' := by
  induction calls generalizing m with
  | nil => exact ⟨m, .nil m⟩
  | cons s rest ih =>
      obtain ⟨outcome, _, m₁, hcall, hadvances, -⟩ := answers_call s hm
      obtain ⟨m', hrest⟩ := ih hadvances.consistent_end
      exact ⟨m', .cons hcall hrest⟩

end Calls

/-- After any calls of stages, a call of a stage is a run of computations of the stage and of what
it needs. Each of them is due: all that it needs has a result, and it has none itself. One that
fails leaves the results and the list of ended stages alone. The call ends with the result that is
kept by then, or in the fault of the latest computation; from then on a call of a stage that has a
result gives this result and does nothing. At all times the stages that are listed as ended are
those that have a result. -/
theorem session_computes_due_stages (plan : Plan) (tools : IrTools) (around : Surroundings)
    (w : World) (calls : List Stage) (s : Stage) :
    ∃ m, Session plan tools around ⟨.empty, w⟩ calls m ∧ m.results.Consistent ∧
      ∃ outcome computations m', Calls plan tools around m s outcome m' ∧
        Computed plan tools around m computations m' ∧
        (∀ c ∈ computations, c.IsDue ∧ c.stage ∈ s.needs ++ [s] ∧
          c.after.results.Consistent ∧
          (c.fault? ≠ none → c.after.results = c.before.results)) ∧
        EndsAt s outcome computations m' ∧
        ∀ later m'', Session plan tools around m' later m'' → ∀ (d : Stage) (a : d.Value),
          d.slot.result? m'.results = some a → Calls plan tools around m'' d (.ok a) m'' := by
  have hexists : ∃ m, Session plan tools around ⟨.empty, w⟩ calls m :=
    exists_session calls consistent_empty
  obtain ⟨m, hsession⟩ := hexists
  have hm := (hsession.keeps consistent_empty).1
  obtain ⟨outcome, computations, m', hcall, hadvances, hends⟩ := answers_call s hm
  refine ⟨m, hsession, hm, outcome, computations, m', hcall, hadvances.computed, fun c hc => ?_,
    hends, fun later m'' hlater d a ha => ?_⟩
  · exact ⟨hadvances.due c hc, hadvances.within c hc, hadvances.consistent c hc,
      (hadvances.computed.isOf c hc).results_of_fault⟩
  · obtain ⟨hm'', hkeeps⟩ := hlater.keeps hadvances.consistent_end
    exact calls_of_result hm'' (hkeeps d a ha)

end StagedBuild
