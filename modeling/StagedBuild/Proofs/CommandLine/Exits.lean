import StagedBuild.Proofs.Artifact.Again
import StagedBuild.Proofs.Artifact.Interrupts
import StagedBuild.Proofs.CommandLine.Endings

/-!
The exit codes of the commands that install a tool and that build an executable, whatever servers,
tools and toolchains answer. No handler on the way takes an interrupt for something else, so that a
command is interrupted exactly when an interrupt is raised in it.
-/

namespace StagedBuild.CommandLine

open Action Report

variable {around : Surroundings} {w w' : World} {title? : Fault → Option String} {verbose : Bool}

section Installing

open Artifact Transfer

variable {t : FileTree} {order : GetOrder} {text : String} {jars : List Path}

/-- A text that is printed lists jars. -/
def IsListing (text : String) : Prop :=
  ∃ rest, text = "Fetched jars" ++ rest

/-- Jars are listed on the way to a world. -/
def Lists (w : World) (text : String) : Prop :=
  .printed .output text ∈ w.history ∧ IsListing text

/-- All that happens, but that errors are printed or jars are listed. -/
def IsUnlisted : Event → Prop
  | .printed .errors _ => False
  | .printed .output text => ¬ IsListing text
  | _ => True

theorem not_isListing {c : Char} (h : text.toList.head? = some c) (hc : c ≠ 'F') :
    ¬ IsListing text := by
  rintro ⟨rest, rfl⟩
  rw [String.toList_append] at h
  exact hc (Option.some.inj h).symm

/-- The list of jars, as it is printed. -/
def listing (jars : List Path) : String :=
  "Fetched jars:\n  " ++ "\n  ".intercalate (jars.map Path.text) ++ "\n"

theorem isListing_listing (jars : List Path) : IsListing (listing jars) := by
  have hbegins : "Fetched jars:\n  " = "Fetched jars" ++ ":\n  " := rfl
  refine ⟨":\n  " ++ ("\n  ".intercalate (jars.map Path.text) ++ "\n"), ?_⟩
  change "Fetched jars:\n  " ++ _ ++ _ = _
  rw [hbegins, String.append_assoc, String.append_assoc]

/-- Fetches the manifest of a tool, and gives the jars that it leads to. -/
def gather (order : GetOrder) : Action (List Path) := do
  let properties ← PublishedTool.fetch .default order.repository
  if order.verbose then Action.say ("Artifact: " ++ properties.coordinate.text)
  let resolver ← Resolver.ofEnvironment
  obtainJars resolver properties.coordinate

theorem install_eq (order : GetOrder) :
    install order = gather order >>= fun jars => print .output (listing jars) := by
  unfold install gather
  rw [bind_assoc]
  refine bind_congr fun tool => ?_
  cases order.verbose <;> simp only [Bool.false_eq_true, if_true, if_false, bind_assoc] <;> rfl

/-- The world in which the manifest is asked for. -/
def installing (t : FileTree) (order : GetOrder) : World :=
  ⟨t, [.printed .output ("Installing " ++ order.repository.text ++ "..." ++ "\n")]⟩

theorem perform_get (order : GetOrder) (around : Surroundings) (t : FileTree) :
    perform order.run around (.ofTree t) =
      perform (attended installTitle? order.verbose (install order)) around
        (installing t order) := by
  have hattended : GetOrder.run order = (do
      Action.say ("Installing " ++ order.repository.text ++ "...")
      attended installTitle? order.verbose (install order)) := by
    refine congrArg _ (funext fun _ => congrArg _ (funext fun outcome => ?_))
    cases outcome with
    | ok _ => rfl
    | error fault => exact reportInstallFault_eq order.verbose fault
  rw [hattended]
  exact perform_bind_ok (perform_note _ around (.ofTree t))

theorem isUnlisted_of_isWork (e : Event) (h : e.IsWork) : IsUnlisted e := by
  cases e <;> trivial

theorem isNoError_of_isUnlisted (e : Event) (h : IsUnlisted e) : e.IsNoError := by
  rcases e with _ | _ | _ | _ | _ | ⟨_ | _, _⟩ | _ | _ | _ | _ <;> trivial

theorem surfaces_gather (t : FileTree) (around : Surroundings) (order : GetOrder) :
    Surfaces IsUnlisted (RequestRaises around .default (IsPlace around)) t around
      (gather order) := by
  have hasked : ∀ asked, IsUnlisted (.requested asked) := fun _ => trivial
  have hpaused : IsUnlisted .interrupted := trivial
  have hjars :
      ∀ c, Surfaces IsUnlisted (RequestRaises around .default (IsPlace around)) t around (do
      let resolver ← Resolver.ofEnvironment
      obtainJars resolver c) := fun c =>
    ((looksAround_ofEnvironment around).surfaces isUnlisted_of_isWork).bind_of fun f _ _ hf =>
      surfaces_obtainJars isUnlisted_of_isWork hasked hpaused (places_ofEnvironment hf) c
  refine (surfaces_fetchTool isUnlisted_of_isWork hasked order.repository).bind
    fun tool => ?_
  split
  · refine Surfaces.bind (Surfaces.note ?_ (by trivial) fun _ => not_false) fun _ => hjars _
    have hhead : ("Artifact: " ++ tool.coordinate.text ++ "\n").toList.head? = some 'A' := by
      simp only [String.toList_append]
      rfl
    exact not_isListing hhead (by decide)
  · exact hjars _

theorem surfaces_install (t : FileTree) (around : Surroundings) (order : GetOrder) :
    Surfaces Event.IsNoError (RequestRaises around .default (IsPlace around)) t around
      (install order) := by
  rw [install_eq]
  refine ((surfaces_gather t around order).mono isNoError_of_isUnlisted).bind fun jars => ?_
  exact Surfaces.note (by trivial) (by trivial) fun _ => not_false

theorem tells_installing (t : FileTree) (order : GetOrder) :
    Tells IsUnlisted (.ofTree t) (installing t order) := by
  refine Tells.note ?_ (by trivial) (.ofTree t)
  have hhead : ("Installing " ++ order.repository.text ++ "..." ++ "\n").toList.head? =
      some 'I' := by
    simp only [String.toList_append]
    rfl
  exact not_isListing hhead (by decide)

theorem lists_install_iff : Lists (perform (install order) around (installing t order)).2 text ↔
    ∃ jars, (perform (gather order) around (installing t order)).1 = .ok jars ∧
      text = listing jars := by
  have hinstalling := tells_installing t order
  have hgather := Passage.trans hinstalling
    (surfaces_gather t around order _ (hinstalling.chronicled rfl)).tells
  rw [install_eq]
  rcases hperform : perform (gather order) around (installing t order) with ⟨fault | jars, v⟩
  all_goals
    rw [hperform] at hgather
    have hunlisted : ¬ Lists v text := by
      rintro ⟨hmem, hlisting⟩
      obtain ⟨-, events, hevents, hsort⟩ := hgather
      rw [hevents] at hmem
      have hsorted : IsUnlisted (.printed .output text) :=
        hsort _ (by simpa [World.ofTree] using hmem)
      exact hsorted hlisting
  · rw [perform_bind_error hperform]
    exact iff_of_false hunlisted (by rintro ⟨_, ⟨⟩, _⟩)
  · rw [perform_bind_ok hperform]
    constructor
    · rintro ⟨hmem, hlisting⟩
      rcases List.mem_cons.1 hmem with heq | hmem
      · cases heq
        exact ⟨jars, rfl, rfl⟩
      · exact absurd ⟨hmem, hlisting⟩ hunlisted
    · rintro ⟨_, ⟨⟩, rfl⟩
      exact ⟨List.mem_cons_self, isListing_listing jars⟩

theorem lists_attended_iff {work : Action Unit} (htitle : title? .interrupted = none) :
    Lists (perform (attended title? verbose work) around w).2 text ↔
      Lists (perform work around w).2 text := by
  rw [perform_attended htitle]
  rcases perform work around w with ⟨fault | _, v⟩
  · refine and_congr_left fun hlisting => ?_
    rw [List.mem_append]
    refine or_iff_right fun hmem => ?_
    rcases mem_reportEvents hmem with heq | ⟨_, heq⟩
    · cases heq
      exact not_isListing (c := '\n') rfl (by decide) hlisting
    · cases heq
  · rfl

/-- How the command that installs a tool ends. It ends as told, and jars are listed when it is done
and only then. They are all there, and the first is that of the artifact to which the manifest of
the tool leads. -/
structure GetEnds (t : FileTree) (around : Surroundings) (order : GetOrder)
    (ended : Except Fault Int) (w' : World) : Prop where
  told : EndsAsTold installTitle? order.verbose
    (perform (install order) around (installing t order)).1
    (w'.Interrupted (RequestRaises around .default (IsPlace around)) t) ended (w'.printed .errors)
  lists_iff : (∃ text, Lists w' text) ↔ ended = .ok 0
  jars : ∀ text, Lists w' text → ∃ tool f first rest,
    (perform (PublishedTool.fetch .default order.repository) around (installing t order)).1 =
      .ok tool ∧
    (perform Resolver.ofEnvironment around (.ofTree t)).1 = .ok f ∧
    text = listing (first :: rest) ∧ IsJarOf f around tool.coordinate first ∧
    ∀ p ∈ first :: rest, ∃ node, Disk.answerAt p w'.tree around.directory = .ok (some node)

theorem found_of_gather
    (h : perform (gather order) around w = (.ok jars, w')) :
    ∃ tool f first rest,
      (perform (PublishedTool.fetch .default order.repository) around w).1 = .ok tool ∧
      (perform Resolver.ofEnvironment around (.ofTree t)).1 = .ok f ∧
      jars = first :: rest ∧ IsJarOf f around tool.coordinate first ∧
      ∀ p ∈ first :: rest, ∃ node, Disk.answerAt p w'.tree around.directory = .ok (some node) := by
  obtain ⟨tool, u, htool, h⟩ := perform_bind_eq_ok.1 h
  obtain ⟨v, h⟩ : ∃ v, perform (do
      let resolver ← Resolver.ofEnvironment
      obtainJars resolver tool.coordinate) around v = (.ok jars, w') := by
    cases hverbose : order.verbose with
    | false =>
        rw [hverbose] at h
        exact ⟨u, h⟩
    | true =>
        rw [hverbose] at h
        obtain ⟨_, v, -, h⟩ := perform_bind_eq_ok.1 h
        exact ⟨v, h⟩
  obtain ⟨f, v', hf, h⟩ := perform_bind_eq_ok.1 h
  obtain ⟨ds, v'', -, hjars⟩ := perform_bind_eq_ok.1 h
  have hfound := found_of_perform_mapM hjars
  have hthere : ∀ p ∈ jars, ∃ node,
      Disk.answerAt p w'.tree around.directory = .ok (some node) :=
    ((List.forall₂_and_left jars _).1 (List.Forall₂.flip (hfound.imp fun _ _ h => h.symm))).1
  rw [wanted_eq] at hfound
  obtain ⟨outcome, -, hlooks⟩ := looksAround_ofEnvironment around
  rw [hlooks] at hf
  cases hfound with
  | cons hfirst _ =>
      refine ⟨tool, f, _, _, congrArg Prod.fst htool, ?_, rfl, hfirst.1, hthere⟩
      rw [hlooks]
      exact (Prod.mk.inj hf).1

theorem interrupted_get : (perform order.run around (.ofTree t)).2.Interrupted
    (RequestRaises around .default (IsPlace around)) t ↔
      EndsIn around (installing t order) (install order) .interrupted := by
  have hinstalling := tells_installing t order
  have hsurfaces := surfaces_install t around order _ (hinstalling.chronicled rfl)
  rw [perform_get, interrupted_attended rfl fun _ _ _ => not_false, hsurfaces.interrupted]
  refine or_iff_right ?_
  rw [World.Interrupted, installing]
  rintro (h | h)
  · exact h
  · exact h

theorem lists_get_iff : Lists (perform order.run around (.ofTree t)).2 text ↔
    ∃ jars, (perform (gather order) around (installing t order)).1 = .ok jars ∧
      text = listing jars := by
  rw [perform_get, lists_attended_iff rfl, lists_install_iff]

theorem getEnds (t : FileTree) (around : Surroundings) (order : GetOrder) :
    GetEnds t around order (perform order.run around (.ofTree t)).1
      (perform order.run around (.ofTree t)).2 := by
  have hinstalling := tells_installing t order
  have hsurfaces := surfaces_install t around order _ (hinstalling.chronicled rfl)
  have hquiet : (perform (install order) around (installing t order)).2.printed .errors = "" :=
    hsurfaces.tells.printed_errors.trans
      (hinstalling.mono isNoError_of_isUnlisted).printed_errors
  have htold : EndsAsTold installTitle? order.verbose _ _ _ _ :=
    endsAsTold_attended rfl interrupted_get hquiet
  rw [← perform_get] at htold
  refine ⟨htold, ?_, ?_⟩
  · rw [htold.done_iff, install_eq]
    simp only [lists_get_iff]
    rcases hgather : perform (gather order) around (installing t order) with ⟨fault | jars, v⟩
    · rw [perform_bind_error hgather]
      exact iff_of_false (by rintro ⟨_, _, ⟨⟩, _⟩) nofun
    · rw [perform_bind_ok hgather]
      exact iff_of_true ⟨_, jars, rfl, rfl⟩ rfl
  · intro text htext
    obtain ⟨jars, hjars, rfl⟩ := lists_get_iff.1 htext
    have hgather : perform (gather order) around (installing t order) =
        (.ok jars, (perform (gather order) around (installing t order)).2) := Prod.ext hjars rfl
    obtain ⟨tool, f, first, rest, htool, hf, rfl, hfirst, hthere⟩ := found_of_gather hgather
    refine ⟨tool, f, first, rest, htool, hf, rfl, hfirst, ?_⟩
    -- what is printed after the jars were found leaves the disk as it is
    have htree : (perform order.run around (.ofTree t)).2.tree =
        (perform (gather order) around (installing t order)).2.tree := by
      rw [perform_get, perform_attended rfl, install_eq, perform_bind_ok hgather]
      rfl
    rwa [htree]

end Installing

section Linking

open Build Intermediate

variable {t : FileTree} {order : LinkOrder} {entries : List Path} {tools : IrTools}

/-- Settles the plan of a build with a toolchain; the clock is read before. -/
def planBuild (order : LinkOrder) (entries : List Path) (tools : IrTools) :
    Action (Nat × Plan) := do
  let builder ← Builder.ofEnvironment tools order.verbose
  if order.verbose then
    Action.say ("Building " ++ order.main ++ " in " ++ workdirText order.workdir)
    Action.say ""
  let start ← clock
  let plan ← settle builder
    { classpath := entries, workdir := ← workdirOf order.workdir, main := order.main,
      gc := order.gc.value?, mode := order.mode.value?, jobs := order.jobs }
  return (start, plan)

/-- Builds by a plan, and reports success. -/
def finishBuild (order : LinkOrder) (tools : IrTools) (start : Nat) (plan : Plan) :
    Action Unit := do
  let result ← build plan tools
  let finish ← clock
  Report.success "Build successful!"
  Action.say ""
  Action.say ("Executable: " ++ result.output.text)
  if order.verbose then
    Action.say ("Units: " ++ toString result.units.length ++ ", runtime objects: "
      ++ toString result.library.objects.length)
  Action.say ("Build time: " ++ hundredthsText (finish - start) ++ "s")

theorem buildExecutable_eq (order : LinkOrder) (entries : List Path) :
    buildExecutable order entries = load order.irTools >>= fun tools =>
      planBuild order entries tools >>= fun planned =>
        finishBuild order tools planned.1 planned.2 := by
  unfold buildExecutable planBuild finishBuild
  simp only [bind_assoc]
  cases order.verbose <;> simp only [Bool.false_eq_true, if_true, if_false, bind_assoc, pure_bind]

/-- The plan and the toolchain that a build has, if it comes that far. -/
def planned? (order : LinkOrder) (entries : List Path) (around : Surroundings) (t : FileTree) :
    Option (Plan × IrTools) :=
  (perform (do
    let tools ← load order.irTools
    let (_, plan) ← planBuild order entries tools
    return (plan, tools)) around (.ofTree t)).1.toOption

/-- An interrupt was raised in the command that builds an executable: when the toolchain was loaded,
by a tool, or by the toolchain. -/
def LinkInterrupted (order : LinkOrder) (entries : List Path) (around : Surroundings) (t : FileTree)
    (w' : World) : Prop :=
  (∃ plugin, find? around.plugins order.irTools = some plugin ∧
      plugin.load = .error .interrupted) ∨
    w'.Interrupted (CallRaises around t (planned? order entries around t)) t

section Surfacing

variable {planned : Option (Plan × IrTools)}

theorem surfaces_clock : SurfacesCalls around t planned clock :=
  surfaces_silently (fun _ _ => rfl) fun _ _ => OnlyFaults.ok _

theorem surfaces_planBuild : SurfacesCalls around t planned (planBuild order entries tools) := by
  have hworkdir : SurfacesCalls around t planned (workdirOf order.workdir) := by
    unfold workdirOf
    split
    · exact .pure _
    · exact .throw nofun
    · exact .pure _
  have hsettle : ∀ builder : Builder, SurfacesCalls around t planned (do
      let start ← clock
      let plan ← settle builder
        { classpath := entries, workdir := ← workdirOf order.workdir, main := order.main,
          gc := order.gc.value?, mode := order.mode.value?, jobs := order.jobs }
      return (start, plan)) := fun builder =>
    surfaces_clock.bind fun _ => hworkdir.bind fun _ =>
      (surfaces_settle builder _).bind fun _ => .pure _
  have hbuilder : SurfacesCalls around t planned (Builder.ofEnvironment tools order.verbose) :=
    surfaces_silently (fun _ _ => rfl) fun _ _ => OnlyFaults.ok _
  refine hbuilder.bind fun builder => ?_
  exact .ite (fun _ => (surfaces_say _).bind fun _ => (surfaces_say _).bind fun _ => hsettle _)
    fun _ => hsettle _

theorem surfaces_finishBuild (order : LinkOrder) (tools : IrTools) (start : Nat) (plan : Plan) :
    SurfacesCalls around t (some (plan, tools)) (finishBuild order tools start plan) := by
  have hsuccess : SurfacesCalls around t (some (plan, tools))
      (Report.success "Build successful!") :=
    .note (by trivial) (by trivial) fun _ => not_false
  refine surfaces_build.bind fun result => surfaces_clock.bind fun finish => ?_
  refine hsuccess.bind fun _ => (surfaces_say _).bind fun _ => (surfaces_say _).bind fun _ => ?_
  exact .ite (fun _ => (surfaces_say _).bind fun _ => surfaces_say _) fun _ => surfaces_say _

end Surfacing

theorem perform_load (name : Setting String) (around : Surroundings) (w : World) :
    perform (load name) around w =
      ((find? around.plugins name).elim (.error (.build (notRegistered name))) Plugin.load, w) := by
  unfold load
  rw [perform_bind_ok (perform_read _ _)]
  cases find? around.plugins name with
  | none => rfl
  | some plugin => exact perform_ofExcept_id _ _ _

theorem load_interrupted_iff {name : Setting String} :
    (∃ plugin, find? around.plugins name = some plugin ∧ plugin.load = .error .interrupted) ↔
      EndsIn around w (load name) .interrupted := by
  rw [EndsIn, perform_load]
  cases find? around.plugins name with
  | none => exact iff_of_false (by rintro ⟨_, ⟨⟩, _⟩) (by rintro ⟨⟩)
  | some plugin => exact ⟨by rintro ⟨_, ⟨⟩, h⟩; exact h, fun h => ⟨plugin, rfl, h⟩⟩

theorem surfacesAt_build {v : World} (hload : perform (load order.irTools) around (.ofTree t) =
    (.ok tools, v)) :
    SurfacesAt Event.IsNoError (CallRaises around t (planned? order entries around t)) t around
      (buildExecutable order entries) (.ofTree t) := by
  have hv : .ofTree t = v := by
    rw [perform_load] at hload
    exact (Prod.mk.inj hload).2
  subst hv
  have hloaded : SurfacesAt Event.IsNoError (CallRaises around t (planned? order entries around t))
      t around (load order.irTools) (.ofTree t) :=
    ⟨by rw [hload]; exact Passage.refl _, by simp [EndsIn, hload]⟩
  rw [buildExecutable_eq]
  refine hloaded.bind rfl fun tools' v hload' hv => ?_
  obtain ⟨⟨⟩, rfl⟩ := Prod.mk.inj (hload.symm.trans hload')
  refine (surfaces_planBuild _ hv).bind hv fun planned v hplan hv => ?_
  obtain ⟨start, plan⟩ := planned
  have hplanned : planned? order entries around t = some (plan, tools) := by
    rw [planned?, perform_bind_ok hload, perform_bind_ok hplan]
    rfl
  rw [hplanned]
  exact surfaces_finishBuild order tools start plan v hv

theorem perform_build_of_unloaded {fault : Fault} {v : World}
    (hload : perform (load order.irTools) around (.ofTree t) = (.error fault, v)) :
    perform (buildExecutable order entries) around (.ofTree t) = (.error fault, .ofTree t) := by
  rw [buildExecutable_eq, perform_bind_error hload]
  rw [perform_load] at hload
  exact Prod.ext rfl (Prod.mk.inj hload).2.symm

theorem printed_errors_build : (perform (buildExecutable order entries) around
    (.ofTree t)).2.printed .errors = "" := by
  rcases hload : perform (load order.irTools) around (.ofTree t) with ⟨fault | tools, v⟩
  · rw [perform_build_of_unloaded hload]
    rfl
  · exact (surfacesAt_build hload).tells.printed_errors

theorem linkInterrupted_iff : LinkInterrupted order entries around t
    (perform (buildExecutable order entries) around (.ofTree t)).2 ↔
      EndsIn around (.ofTree t) (buildExecutable order entries) .interrupted := by
  rw [LinkInterrupted, load_interrupted_iff (w := .ofTree t), EndsIn]
  rcases hload : perform (load order.irTools) around (.ofTree t) with ⟨fault | tools, v⟩
  · rw [EndsIn, perform_build_of_unloaded hload]
    simp [not_interrupted_ofTree]
  · rw [(surfacesAt_build hload).interrupted, or_iff_right not_interrupted_ofTree]
    exact or_iff_right (by rintro ⟨⟩)

/-- How the command that builds an executable ends. A classpath that is set to nothing ends it at
once, in a fault that nobody reports. Otherwise it ends as told. -/
structure LinkEnds (t : FileTree) (around : Surroundings) (order : LinkOrder)
    (ended : Except Fault Int) (w' : World) : Prop where
  unreported : order.classpath.mapM id = none → ended = .error .noAttribute ∧ w' = .ofTree t
  told : ∀ written, order.classpath.mapM id = some written →
    EndsAsTold buildTitle? order.verbose
      (perform (buildExecutable order (CommandLine.classpath written)) around (.ofTree t)).1
      (LinkInterrupted order (CommandLine.classpath written) around t w') ended
      (w'.printed .errors)

theorem perform_link_of_nothing (h : order.classpath.mapM id = none) :
    perform order.run around w = (.error .noAttribute, w) := by
  unfold LinkOrder.run
  rw [h]
  rfl

theorem perform_link {written : List String} (h : order.classpath.mapM id = some written) :
    perform order.run around w = perform (attended buildTitle? order.verbose
      (buildExecutable order (CommandLine.classpath written))) around w := by
  have hattended : LinkOrder.run order = attended buildTitle? order.verbose
      (buildExecutable order (CommandLine.classpath written)) := by
    unfold LinkOrder.run
    rw [h]
    dsimp only
    rw [pure_bind]
    refine congrArg _ (funext fun outcome => ?_)
    cases outcome with
    | ok _ => rfl
    | error fault => exact reportBuildFault_eq order.verbose fault
  rw [hattended]

theorem linkEnds (t : FileTree) (around : Surroundings) (order : LinkOrder) :
    LinkEnds t around order (perform order.run around (.ofTree t)).1
      (perform order.run around (.ofTree t)).2 := by
  refine ⟨fun h => ?_, fun written h => ?_⟩
  · rw [perform_link_of_nothing h]
    exact ⟨rfl, rfl⟩
  · have hinterrupted : LinkInterrupted order (CommandLine.classpath written) around t
        (perform order.run around (.ofTree t)).2 ↔
          EndsIn around (.ofTree t) (buildExecutable order (CommandLine.classpath written))
            .interrupted := by
      rw [← linkInterrupted_iff, perform_link h, LinkInterrupted, LinkInterrupted,
        interrupted_attended rfl fun _ _ _ => not_false]
    have htold : EndsAsTold buildTitle? order.verbose _ _ _ _ :=
      endsAsTold_attended rfl hinterrupted printed_errors_build
    rwa [← perform_link h] at htold

end Linking

section Runs

/-- Surroundings in which a server publishes a tool. -/
def aroundPublishing : Surroundings :=
  { Surroundings.still [] with
    environment := [("HOME", "/")]
    server := fun _ _ => .answered (.ofBytes none (Text.encode
      "name=t\norg=o\nartifact=a\nversion=1\nmain=m\nnativeVersion=0\nscalaVersion=2") none) }

/-- Where the artifact of the tool lies in the repository of the user. -/
def artifactPlace : Location :=
  [".m2", "repository", "o", "a_native0_2", "1"]

/-- A disk with the jar of the tool and a description that names no dependencies. -/
def diskWithJar : FileTree :=
  ((artifactPlace.inits.tail.foldl (·.add · .directory) FileTree.empty).add
      (artifactPlace ++ ["a_native0_2-1.jar"]) (.file ⟨[], false⟩)).add
    (artifactPlace ++ ["a_native0_2-1.pom"]) (.file ⟨Text.encode "<p/>", false⟩)

/-- Surroundings in which a toolchain is registered and every tool is interrupted. -/
def aroundInterrupting : Surroundings :=
  { Surroundings.still [] with
    environment := [("CLANG_PATH", "/clang"), ("CLANGPP_PATH", "/clang++")]
    plugins := [⟨Intermediate.group, "ir", .ok (Units.toolsWriting (.parse "/w/main.ll") (.ok ()))⟩]
    tool := fun _ w => (.raised .interrupted, w.tree) }

/-- What is asked for by a command line with a main class and these classpaths. -/
def orderFor (classpath : List (Option String)) : LinkOrder :=
  ⟨"Main", classpath, .unsaid, .unsaid, .unsaid, .unsaid, .unsaid, false⟩

end Runs

end StagedBuild.CommandLine
