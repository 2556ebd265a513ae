import StagedBuild.Proofs.Build.FailStop
import StagedBuild.Proofs.Build.Settling

/-!
The first words of the commands of a build. A variable of the environment that names a compiler is
read as a path, and the commands are written with that path. So their first word is the value of the
variable in normal form, which is another text where the value is not written that way.
-/

namespace StagedBuild

open Action

/-- Between two worlds only tools of a certain kind are called. -/
def CallsOnly (around : Surroundings) (kind : Invocation → Prop) (w w' : World) : Prop :=
  ∃ steps, w'.steps around = w.steps around ++ steps ∧
    ∀ call reply, .tool call reply ∈ steps → kind call

namespace CallsOnly

variable {around : Surroundings} {kind : Invocation → Prop} {w w' : World}

theorem of_silent (h : Silent w w') : CallsOnly around kind w w' :=
  ⟨[], by rw [h.steps_eq around, List.append_nil], by simp⟩

instance : Disk.AnyChange (CallsOnly around kind) where
  refl w := of_silent (Passage.refl w)
  trans := by
    rintro u v w ⟨first, hfirst, hkind⟩ ⟨second, hsecond, hkind'⟩
    refine ⟨first ++ second, by rw [hsecond, hfirst, List.append_assoc], ?_⟩
    intro call reply hmem
    rcases List.mem_append.1 hmem with hmem | hmem
    · exact hkind call reply hmem
    · exact hkind' call reply hmem
  changed _ _ := of_silent (Silent.of_event rfl)

theorem run {command : List String} {directory : Option Path} (h : kind ⟨command, directory⟩) :
    Keeps around (CallsOnly around kind) (Tool.run command directory) := by
  intro w
  rw [Tool.perform_run]
  refine ⟨[.tool ⟨command, directory⟩ (around.tool ⟨command, directory⟩ w).1], rfl, ?_⟩
  intro call reply hmem
  cases List.mem_singleton.1 hmem
  exact h

end CallsOnly

namespace Path

/-- A text is the written form of the path that it writes exactly when it is in normal form: a dot,
or slashes in front and steps between single slashes, none of which is empty or stays in place. -/
theorem text_parse_eq_iff (v : String) :
    (parse v).text = v ↔ v = "." ∨ ∃ (anchor : Anchor) (steps : List String),
      (∀ s ∈ steps, s ≠ "" ∧ s ≠ "." ∧ '/' ∉ s.toList) ∧ (anchor ≠ .relative ∨ steps ≠ []) ∧
        v = anchor.text ++ "/".intercalate steps := by
  constructor
  · intro h
    by_cases hdot : (parse v).anchor = .relative ∧ (parse v).steps = []
    · rw [text, if_pos hdot] at h
      exact .inl h.symm
    · rw [text, if_neg hdot] at h
      refine .inr ⟨(parse v).anchor, (parse v).steps, ?_, not_and_or.1 hdot, h.symm⟩
      intro s hs
      exact isStep_iff.1 ((parse v).steps_isStep s hs)
  · rintro (rfl | ⟨anchor, steps, hsteps, hne, rfl⟩)
    · decide
    · let p : Path := ⟨anchor, steps, fun s hs => isStep_iff.2 (hsteps s hs)⟩
      have hparse : parse p.bareText = p := parse_bareText p hne
      change (parse p.bareText).text = p.bareText
      rw [hparse, text, if_neg (not_and_or.2 hne)]

end Path

namespace Build

variable {o : Builder} {order : Order} {around : Surroundings} {w w' : World} {plan : Plan}

/-- The commands that a build makes by its plan, with the variable that names their compiler. -/
inductive CommandOf (plan : Plan) : String → Invocation → Prop
  | cSource (s : NativeLibrary.Source) : s.isCpp = false →
      CommandOf plan "CLANG_PATH" (sourceCall plan s)
  | cppSource (s : NativeLibrary.Source) : s.isCpp = true →
      CommandOf plan "CLANGPP_PATH" (sourceCall plan s)
  | unit (u : Path) : CommandOf plan "CLANGPP_PATH" (unitCall plan u)
  | executable (units : List Path) (included : List NativeLibrary.Source) (links : List String) :
      CommandOf plan "CLANGPP_PATH" (finalCall plan units included links)

/-- A command begins with the path that a variable writes, if the variable is set to something. -/
def BeginsWith (o : Builder) (key : String) (call : Invocation) : Prop :=
  ∀ v, o.finder.environment.lookup key = some v → v ≠ "" →
    call.command.head? = some (Path.parse v).text

theorem commandOf_sourceCall (plan : Plan) (s : NativeLibrary.Source) :
    ∃ key, CommandOf plan key (sourceCall plan s) := by
  cases hs : s.isCpp with
  | false => exact ⟨_, .cSource s hs⟩
  | true => exact ⟨_, .cppSource s hs⟩

theorem IsWhole.commandOf {steps : List Step} {call : Invocation} {reply : ToolReply}
    (h : IsWhole plan steps) (hmem : .tool call reply ∈ steps) :
    ∃ key, CommandOf plan key call := by
  obtain ⟨l, defns, units, answered, p, compiled, last, -, -, -, rfl⟩ := h
  rcases List.mem_append.1 hmem with hmem | hmem
  · rcases List.mem_append.1 hmem with hmem | hmem
    · simp [irSteps] at hmem
    · rcases List.mem_append.1 hmem with hmem | hmem
      · obtain ⟨a, -, ha⟩ := List.mem_map.1 hmem
        cases ha
        exact ⟨_, .unit a.item⟩
      · obtain ⟨a, -, ha⟩ := List.mem_map.1 hmem
        cases ha
        exact commandOf_sourceCall plan a.item
  · cases List.mem_singleton.1 hmem
    exact ⟨_, .executable units p.included l.links⟩

theorem callsOnly_build (plan : Plan) (tools : IrTools) (around : Surroundings) :
    Keeps around (CallsOnly around fun call => ∃ key, CommandOf plan key call)
      (build plan tools) := by
  intro w
  obtain ⟨steps, hcourse⟩ := build_takes_course plan tools around w
  obtain ⟨whole, hwhole, hbegins⟩ := hcourse.isWhole_prefix
  exact ⟨steps, hcourse.steps_eq, fun call reply hmem => hwhole.commandOf (hbegins.subset hmem)⟩

/-- The compilers of a plan are those that the variables name, where they do. -/
structure GoesBy (plan : Plan) (o : Builder) : Prop where
  clang : ∀ v, o.finder.override? "clang" = some v → plan.clang = Path.parse v
  clangpp : ∀ v, o.finder.override? "clang++" = some v → plan.clangpp = Path.parse v

theorem override?_eq_some {d : Compiler.Finder} {binary v : String}
    (h : d.environment.lookup (Compiler.overrideVariable binary) = some v) (hv : v ≠ "") :
    d.override? binary = some v := by
  rw [Compiler.Finder.override?, h]
  simp [hv]

theorem CommandOf.beginsWith {key : String} {call : Invocation}
    (h : CommandOf plan key call) (hplan : GoesBy plan o) : BeginsWith o key call := by
  intro v hlookup hv
  have hclang : key = "CLANG_PATH" → plan.clang = Path.parse v := by
    rintro rfl
    exact hplan.clang v (override?_eq_some hlookup hv)
  have hclangpp : key = "CLANGPP_PATH" → plan.clangpp = Path.parse v := by
    rintro rfl
    exact hplan.clangpp v (override?_eq_some hlookup hv)
  cases h with
  | cSource s hs =>
      rw [← hclang rfl]
      simp [sourceCall, NativeLibrary.command, hs]
  | cppSource s hs =>
      rw [← hclangpp rfl]
      simp [sourceCall, NativeLibrary.command, hs]
  | unit u =>
      rw [← hclangpp rfl]
      rfl
  | executable units included links =>
      rw [← hclangpp rfl]
      rfl

theorem locate_eq_pure {d : Compiler.Finder} {binary v : String}
    {versions : List Compiler.Version} (h : d.override? binary = some v) :
    d.locate binary versions = pure (Path.parse v) := by
  rw [Compiler.Finder.locate, h]

theorem settle_goesBy (h : (perform (settle o order) around w).1 = .ok plan) : GoesBy plan o := by
  obtain ⟨w', hsettle⟩ : ∃ w', perform (settle o order) around w = (.ok plan, w') :=
    ⟨_, Prod.ext h rfl⟩
  unfold settle at hsettle
  obtain ⟨workdir, w₁, -, hsettle⟩ := perform_bind_eq_ok.1 hsettle
  obtain ⟨-, w₂, -, hsettle⟩ := perform_bind_eq_ok.1 hsettle
  obtain ⟨archive, w₃, -, hsettle⟩ := perform_bind_eq_ok.1 hsettle
  obtain ⟨clang, w₄, hclang, hsettle⟩ := perform_bind_eq_ok.1 hsettle
  obtain ⟨clangpp, w₅, hclangpp, hsettle⟩ := perform_bind_eq_ok.1 hsettle
  obtain ⟨target, w₆, -, hsettle⟩ := perform_bind_eq_ok.1 hsettle
  obtain ⟨compileFlags, w₇, -, hsettle⟩ := perform_bind_eq_ok.1 hsettle
  obtain ⟨linkFlags, w₈, -, hsettle⟩ := perform_bind_eq_ok.1 hsettle
  obtain ⟨surroundings, w₉, -, hsettle⟩ := perform_bind_eq_ok.1 hsettle
  obtain ⟨jobs, w₁₀, -, hsettle⟩ := perform_bind_eq_ok.1 hsettle
  have hplan : plan.clang = clang ∧ plan.clangpp = clangpp := by
    cases hverbose : o.verbose with
    | false =>
        rw [hverbose] at hsettle
        cases hsettle
        exact ⟨rfl, rfl⟩
    | true =>
        rw [hverbose] at hsettle
        obtain ⟨-, w₁₁, -, hsettle⟩ := perform_bind_eq_ok.1 hsettle
        cases hsettle
        exact ⟨rfl, rfl⟩
  refine ⟨fun v hv => ?_, fun v hv => ?_⟩
  · rw [Compiler.Finder.clang, locate_eq_pure hv] at hclang
    cases hclang
    exact hplan.1
  · rw [Compiler.Finder.clangpp, locate_eq_pure hv] at hclangpp
    cases hclangpp
    exact hplan.2

/-- The tools that settling a plan calls: the compiler of the probe, and the one that knows the
directories of the platform. -/
def SettlingCall (o : Builder) (call : Invocation) : Prop :=
  (∃ flag, call = ⟨["llvm-config", flag], none⟩) ∨
    (∃ clang workdir, call = probeCall clang workdir) ∧ BeginsWith o "CLANG_PATH" call

theorem callsOnly_detectTarget {clang : Path} (workdir : Path)
    (hclang : ∀ v, o.finder.override? "clang" = some v → clang = Path.parse v) :
    Keeps around (CallsOnly around (SettlingCall o)) (Compiler.detectTarget clang workdir) := by
  have hprobe : SettlingCall o (probeCall clang workdir) := by
    refine .inr ⟨⟨clang, workdir, rfl⟩, fun v hlookup hv => ?_⟩
    rw [← hclang v (override?_eq_some hlookup hv)]
    rfl
  unfold Compiler.detectTarget
  refine (Disk.keeps_makeDirectories _).bind fun _ => (Disk.keeps_writeText _ _).bind fun _ =>
    (CallsOnly.run hprobe).bind fun r => ?_
  refine Keeps.ite (fun _ => (Keeps.throw _).bind fun _ => ?_) fun _ => ?_
  all_goals
    refine (Keeps.of_readOnly (Disk.readOnly_isOccupied _)).bind fun found => ?_
    refine Keeps.ite (fun _ => (Keeps.of_readOnly (Disk.readOnly_readText _)).bind fun _ =>
      (Keeps.pure _).bind fun triple => ?_) fun _ => (Keeps.pure _).bind fun triple => ?_
  all_goals
    cases triple with
    | some triple => exact Keeps.pure _
    | none => exact Keeps.throw _

theorem callsOnly_platformDirectories (flag : String) :
    Keeps around (CallsOnly around (SettlingCall o)) (Compiler.platformDirectories flag) :=
  (CallsOnly.run (.inl ⟨flag, rfl⟩)).bind fun _ => Keeps.pure _

theorem keeps_jobCount {R : World → World → Prop} [AnyTalk R] (environment : List (String × String))
    (asked : Setting Int) : Keeps around R (jobCount environment asked) := by
  have hread : ReadOnly (read : Action Surroundings) := fun _ _ => rfl
  unfold jobCount
  refine (Keeps.of_readOnly hread).bind fun surroundings => ?_
  split
  · exact Keeps.pure _
  · exact Keeps.throw _
  · split
    · exact Keeps.pure _
    · split
      · exact Keeps.pure _
      · exact (keeps_warn _).bind fun _ => Keeps.pure _

theorem callsOnly_settle (o : Builder) (order : Order) :
    Keeps around (CallsOnly around (SettlingCall o)) (settle o order) := by
  unfold settle
  refine (Keeps.of_readOnly (Disk.readOnly_absolute _)).bind fun workdir => ?_
  refine (Disk.keeps_makeDirectories workdir).bind fun _ => ?_
  refine (Keeps.of_readOnly (Compiler.readOnly_findArchive _)).bind fun archive => ?_
  intro w
  -- which compiler is found matters for the probe
  refine Keeps.bind_at (Keeps.of_readOnly (Compiler.Finder.readOnly_locate _ _ _) w)
    fun clang w₁ hlocate => ?_
  have hclang : ∀ v, o.finder.override? "clang" = some v → clang = Path.parse v := by
    intro v hv
    rw [Compiler.Finder.clang, locate_eq_pure hv] at hlocate
    cases hlocate
    rfl
  refine Keeps.bind (Keeps.of_readOnly (Compiler.Finder.readOnly_locate _ _ _))
    (fun clangpp => ?_) w₁
  refine (callsOnly_detectTarget workdir hclang).bind fun target => ?_
  refine Keeps.bind ((callsOnly_platformDirectories _).bind fun _ => Keeps.pure _)
    fun compileFlags => ?_
  refine Keeps.bind ((callsOnly_platformDirectories _).bind fun _ => Keeps.pure _)
    fun linkFlags => ?_
  have hread : ReadOnly (read : Action Surroundings) := fun _ _ => rfl
  refine (Keeps.of_readOnly hread).bind fun surroundings => ?_
  refine Keeps.bind ?_ fun jobs => ?_
  · have hsilent : Keeps around Silent (jobCount o.environment order.jobs) := keeps_jobCount _ _
    exact hsilent.mono fun _ _ => CallsOnly.of_silent
  · refine Keeps.ite (fun _ => ?_) fun _ => Keeps.pure _
    refine (Keeps.forM fun _ _ => ?_).bind fun _ => Keeps.pure _
    have hsilent : ∀ line, Keeps around Silent (Action.say line) := keeps_say
    exact (hsilent _).mono fun _ _ => CallsOnly.of_silent

/-- Where the environment names the C compiler, the command of the probe and those of C sources
begin with the path that it writes; where it names the C++ compiler, those of C++ sources, of units
and of the executable do. No other tools are called, but the one that knows the directories of the
platform. The first word is the text in the environment itself exactly when that text is in normal
form. -/
theorem override_begins_commands (o : Builder) (order : Order) (around : Surroundings)
    (w : World) :
    CallsOnly around (SettlingCall o) w (perform (settle o order) around w).2 ∧
      (∀ plan, (perform (settle o order) around w).1 = .ok plan →
        ∀ (tools : IrTools) (around' : Surroundings) (u : World),
          CallsOnly around' (fun call => ∃ key, CommandOf plan key call ∧ BeginsWith o key call) u
            (perform (build plan tools) around' u).2) ∧
      ∀ v, (Path.parse v).text = v ↔ v = "." ∨ ∃ (anchor : Anchor) (steps : List String),
        (∀ s ∈ steps, s ≠ "" ∧ s ≠ "." ∧ '/' ∉ s.toList) ∧ (anchor ≠ .relative ∨ steps ≠ []) ∧
          v = anchor.text ++ "/".intercalate steps := by
  refine ⟨callsOnly_settle o order w, ?_, Path.text_parse_eq_iff⟩
  intro plan hsettled tools around' u
  have hplan := settle_goesBy hsettled
  obtain ⟨steps, hsteps, hcommands⟩ := callsOnly_build plan tools around' u
  refine ⟨steps, hsteps, fun call reply hmem => ?_⟩
  obtain ⟨key, hcommand⟩ := hcommands call reply hmem
  exact ⟨key, hcommand, hcommand.beginsWith hplan⟩

section Named

/-- A builder with an environment that names both compilers. -/
def builderNaming (clang clangpp : String) : Builder :=
  ⟨Units.toolsWriting (.parse "/w/main.ll") (.ok ()), false, [],
    ⟨[("CLANG_PATH", clang), ("CLANGPP_PATH", clangpp)], none⟩⟩

/-- A build in the work directory `/w`. -/
def orderInW : Order :=
  ⟨[.parse "/scala-native-nativelib.jar"], .parse "/w", "main", none, none, .unsaid⟩

/-- A disk with the archive where the classpath has it. -/
def diskOnClasspath : FileTree :=
  FileTree.empty.writeFile ["scala-native-nativelib.jar"] archiveOfA

/-- Surroundings in which every tool writes the result of a probe to its output. -/
def answering : Surroundings :=
  aroundOfA fun _ => (.exited 0 [] [], Text.encode "target triple = \"x86\"")

/-- The first word of the command of a tool. -/
def firstWord : Step → Option String
  | .tool call _ => call.command.head?
  | .ir _ => none

/-- The first words of the commands of a link. -/
def firstWords (o : Builder) : List String :=
  ((perform (link o orderInW) answering (.ofTree diskOnClasspath)).2.steps answering).filterMap
    firstWord

/-- The plan is settled with the compilers that are named. The probe begins with the one for C, and
so does the source of the library; the unit and the executable begin with the one for C++. -/
theorem named_compilers_begin_commands :
    ∃ plan w, perform (settle (builderNaming "/clang" "/clang++") orderInW) answering
        (.ofTree diskOnClasspath) = (.ok plan, w) ∧
      plan.clang.text = "/clang" ∧ plan.clangpp.text = "/clang++" ∧
      CallsOnly answering (SettlingCall (builderNaming "/clang" "/clang++"))
        (.ofTree diskOnClasspath) w ∧
      CallsOnly answering (fun call => ∃ key, CommandOf plan key call ∧
          BeginsWith (builderNaming "/clang" "/clang++") key call) w
        (perform (build plan (builderNaming "/clang" "/clang++").tools) answering w).2 ∧
      firstWords (builderNaming "/clang" "/clang++") =
        ["/clang", "llvm-config", "llvm-config", "/clang++", "/clang", "/clang++"] := by
  have hok : (perform (settle (builderNaming "/clang" "/clang++") orderInW) answering
      (.ofTree diskOnClasspath)).1.toOption.isSome = true := by
    decide +kernel
  obtain ⟨hprobe, hbuild, -⟩ :=
    override_begins_commands (builderNaming "/clang" "/clang++") orderInW
    answering (.ofTree diskOnClasspath)
  rcases hsettled : perform (settle (builderNaming "/clang" "/clang++") orderInW) answering
    (.ofTree diskOnClasspath) with ⟨fault | plan, w⟩
  · rw [hsettled] at hok
    cases hok
  rw [hsettled] at hprobe
  have hplan := congrArg Prod.fst hsettled
  have hgoes := settle_goesBy hplan
  refine ⟨plan, w, rfl, ?_, ?_, hprobe, hbuild plan hplan _ answering w,
    by decide +kernel⟩
  · rw [hgoes.clang "/clang" (by decide)]
    decide
  · rw [hgoes.clangpp "/clang++" (by decide)]
    decide

/-- Compilers that are named in the current directory lose the step that stays there, and with it
the directory: the commands begin with names that are looked up in the search path. -/
theorem dotted_compilers_lose_directory :
    firstWords (builderNaming "./clang" "./clang++") =
      ["clang", "llvm-config", "llvm-config", "clang++", "clang", "clang++"] := by
  decide +kernel

end Named

end Build

end StagedBuild
