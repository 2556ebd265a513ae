import StagedBuild.Proofs.Build.Runs
import StagedBuild.Proofs.Build.Schedules
import StagedBuild.Proofs.NativeLibrary.Intact
import StagedBuild.Proofs.NativeLibrary.Understood

/-!
Builds that go alike. Whatever the number of jobs, the order in which the compilers end, and the
order in which libraries are listed, a build comes to the same final link on the same disk.
-/

namespace StagedBuild.Build

open Action FileTree Disk NativeLibrary Manifest StageResults

variable {around : Surroundings} {plan : Plan} {tools tools' : IrTools} {w : World}

/-- The final link by a given call. -/
def linkBy (plan : Plan) (result : Result) (call : Invocation) : Action Result := do
  let output ← announced plan .linkExecutable do
    let r ← Tool.run call.command call.directory
    if r.success then return plan.outputPath
    else throw (.build (Executable.linkFault r))
  return { result with output := output }

theorem finalLink_eq (plan : Plan) (links : List String) (result : Result) :
    finalLink plan links result = linkBy plan result (linkCall plan links result) := rfl

/-- Two builds that start alike and go alike. Both come to the same final link, with the same
results so far, or both end in a fault; by then the disks have the same entries, and the same steps
were made, in any order. -/
inductive GoAlike (plan plan' : Plan) (tools tools' : IrTools) (around around' : Surroundings)
    (w : World) : Prop
  | linked (result : Result) (call : Invocation) (v v' : World) :
      SameSoFar around v v' →
      perform (build plan tools) around w = perform (linkBy plan result call) around v →
      perform (build plan' tools') around' w = perform (linkBy plan result call) around' v' →
      GoAlike plan plan' tools tools' around around' w
  | failed (fault fault' : Fault) (v v' : World) :
      SameSoFar around v v' →
      perform (build plan tools) around w = (.error fault, v) →
      perform (build plan' tools') around' w = (.error fault', v') →
      GoAlike plan plan' tools tools' around around' w

section Agree

variable (schedule : World → Nat → Nat → Schedule) (jobs : Int)

/-- The compile commands of a build have objects of their own, so the build goes alike under every
schedule. -/
theorem build_independent_of_schedule (h : LeavesAlone plan tools around w)
    (htools : SameTools plan { plan with jobs := jobs } tools tools') :
    (∀ {w₁ w₂ v₁ v₂ : World} {units : List Path} {m : Manifest}, w₁.tree.WellFormed →
      perform (Units.find plan.workdir) around w₁ = (.ok units, w₂) →
      v₁.tree.WellFormed → v₁.tree.isDirectory around.directory = true →
      ManifestWritten around plan v₁ → perform (unpack plan) around v₁ = (.ok m, v₂) →
      DistinctOutputs around.directory plan units m.sources) ∧
    GoAlike plan { plan with jobs := jobs } tools tools' around
      { around with schedule := schedule } w := by
  refine ⟨fun hw hfind hv hcwd hmanifest hunpack =>
    distinctOutputs_of_perform hw hfind h.apart hv hcwd hmanifest hunpack, ?_⟩
  have hlink := perform_linkIr plan tools around w
  have hlink' : perform (announced { plan with jobs := jobs } .linkIr
        (Intermediate.link { plan with jobs := jobs } tools'))
        { around with schedule := schedule } w =
      (linkAnswer { plan with jobs := jobs } tools' (w.askedToLink plan), w.askedToLink plan) :=
    perform_linkIr { plan with jobs := jobs } tools' _ w
  rcases (htools.linkAnswer jobs (w.askedToLink plan)).error_or_ok with
    ⟨fault, fault', hl, hl'⟩ | ⟨l, l', hl, hl', hsame⟩
  · rw [hl] at hlink
    rw [hl'] at hlink'
    refine .failed fault fault' _ _ (.refl around (w.askedToLink plan)) ?_ ?_
    · rw [build_eq_beforeLink, perform_bind_error hlink]
    · rw [build_eq_beforeLink, perform_bind_error hlink']
  rw [hl] at hlink
  rw [hl'] at hlink'
  have hagree := beforeLink_agree schedule jobs h htools hsame hl
  rcases hagree.error_or_ok with ⟨fault, fault', hp, hp'⟩ | ⟨result, hp, hp'⟩
  · refine .failed fault fault' _ _ hagree.after ?_ ?_
    · rw [build_eq_beforeLink, perform_bind_ok hlink, perform_bind_error hp]
    · rw [build_eq_beforeLink, perform_bind_ok hlink', perform_bind_error hp']
  · refine .linked result (linkCall plan l.links result) _ _ hagree.after ?_ ?_
    · rw [build_eq_beforeLink, perform_bind_ok hlink, perform_bind_ok hp, finalLink_eq]
    · rw [build_eq_beforeLink, perform_bind_ok hlink', perform_bind_ok hp', finalLink_eq,
        linkCall_congr jobs plan result hsame.links]
      rfl

end Agree

section OutputTool

variable {made : List String → ToolReply × List UInt8}
  (htool : around.tool = outputTool around.directory made)
  (hclang : plan.clang.isAbsolute = true) (hclangpp : plan.clangpp.isAbsolute = true)
  (hflags : "-o" ∉ plan.compileFlags) (habsolute : plan.workdir.isAbsolute = true)
  (hw : w.tree.WellFormed) (hcwd : w.tree.isDirectory around.directory = true)
  (htrusted : Trusted plan.libraryDirectory w.tree)
  (hcode : ∀ l defns, linkAnswer plan tools (w.askedToLink plan) = .ok l →
    tools.optimize plan l (w.askedToOptimize plan l) = .ok defns →
    (codeCall plan tools around w l defns).WritesOnlyUnits)

include htool hclang hclangpp hflags habsolute hw hcwd htrusted hcode

theorem leavesAlone_of_output : LeavesAlone plan tools around w where
  wellFormed := hw
  directory := hcwd
  apart := .inl habsolute
  code l defns hlinked hoptimized before v hbefore := by
    have htree := codeCall_before_tree plan tools around w l defns
    have hsound := (Units.sound_beforeCode around plan).of_perform hbefore (htree ▸ hw)
      (htree ▸ hcwd)
    have hwrites := hcode l defns hlinked hoptimized before v hbefore
    exact ⟨hwrites.wellFormed, hwrites.isDirectory (hsound.2 _ (htree ▸ hcwd))⟩
  manifest l defns units answered v h hfresh := by
    obtain ⟨u, hgenerated, -⟩ := h.called
    have hcode' := hcode l defns hgenerated.linked hgenerated.optimized
    obtain ⟨t, hready, -, hchanged, -⟩ := h.ready hcode' hw hcwd habsolute
      (delivers_units_of_output htool hclangpp habsolute hw hcwd hcode' hgenerated)
    have htree : (v.announcing plan .compileLibrary).tree = v.tree :=
      (v.quiet_announcing plan .compileLibrary).2
    exact Trusted.scanned (isAbsolute_libraryDirectory habsolute)
      (htree ▸ hready.trusted habsolute hchanged htrusted) hfresh
  units way hunit hnames := by
    have hpath : (plan.workdir.descend way).isAbsolute = true := by
      rw [isAbsolute_descend _ fun s hs => isStep_of_isEntryName (hnames s hs), habsolute]
    have hword := outputWord_unitCall hclangpp hpath
    exact ⟨confined_outputTool made hword htool, ignoresOthers_outputTool made hword htool _⟩
  sources src hsrc := by
    have hpath : (plan.libraryDirectory.descend src).isAbsolute = true := by
      rw [isAbsolute_descend _ fun s hs => isStep_of_isEntryName (hsrc.2.1 s hs),
        isAbsolute_libraryDirectory habsolute]
    have hword := outputWord_sourceCall hclang hclangpp hflags
      (s := sourceAt plan.libraryDirectory (plan.libraryDirectory.descend src)) hpath
    exact ⟨confined_outputTool made hword htool, ignoresOthers_outputTool made hword htool _⟩

end OutputTool

section TwoUnits

/-- A toolchain that lists libraries and writes one unit. -/
def toolsListing (links : List String) : IrTools :=
  { Units.toolsWriting (.parse "/w/main.ll") (.ok ()) with
    link := fun _ _ => .ok (.ofLists [] links []) }

/-- The build that compiles a unit of its own and one of the user, with two compilers at a time that
end in reverse and with its libraries listed in reverse, goes as it would with one compiler. -/
theorem two_units_compiled_in_reverse :
    LeavesAlone planOfA (toolsListing ["m", "z"]) (aroundOfA succeeding)
      (.ofTree diskWithUserUnit) ∧
    SameTools planOfA { planOfA with jobs := 2 } (toolsListing ["m", "z"])
      (toolsListing ["z", "m"]) ∧
    (perform (build planOfA (toolsListing ["m", "z"])) (aroundOfA succeeding)
      (.ofTree diskWithUserUnit)).1.toOption.map Result.units =
        some [.parse "/w/extra.ll", .parse "/w/main.ll"] ∧
    GoAlike planOfA { planOfA with jobs := 2 } (toolsListing ["m", "z"]) (toolsListing ["z", "m"])
      (aroundOfA succeeding)
      { aroundOfA succeeding with schedule :=
        fun _ _ tasks => ⟨(List.range tasks).reverse, tasks, List.range tasks⟩ }
      (.ofTree diskWithUserUnit) := by
  have halone : LeavesAlone planOfA (toolsListing ["m", "z"]) (aroundOfA succeeding)
      (.ofTree diskWithUserUnit) := by
    refine leavesAlone_of_output rfl (by decide) (by decide) (by simp [planOfA])
      (by decide) wellFormed_diskWithUserUnit (isDirectory_iff.2 (node?_nil _))
      (trusted_of_unmarked (by decide)) fun l defns hlinked hoptimized => ?_
    obtain rfl : Linked.ofLists [] ["m", "z"] [] = l := Except.ok.inj hlinked
    obtain rfl : [] = defns := Except.ok.inj hoptimized
    exact Units.Call.writesOnlyUnits_of_writing rfl (by decide) (by decide)
      (show goalOf [] (.parse "/w/main.ll") = goalOf [] (.parse "/w") ++ ["main.ll"] by
        decide)
      ⟨by simp, by decide⟩ wellFormed_diskWithUserUnit (isDirectory_iff.2 (node?_nil _))
      (by decide +kernel)
  have htools : SameTools planOfA { planOfA with jobs := 2 } (toolsListing ["m", "z"])
      (toolsListing ["z", "m"]) :=
    { link := fun _ => .ok ⟨rfl, by decide, .rfl⟩
      optimize := fun _ _ _ hsame => congrArg Except.ok hsame.defns
      generate := fun _ _ => rfl }
  exact ⟨halone, htools, by decide +kernel,
    (build_independent_of_schedule
      (fun _ _ tasks => ⟨(List.range tasks).reverse, tasks, List.range tasks⟩) 2 halone htools).2⟩

end TwoUnits

section NamedTwice

/-- A source that every build needs, under the name that it has in the manifest. -/
def sourceNamed (name : String) : Source :=
  ⟨planOfA.libraryDirectory / name, .unconditional, .null⟩

/-- The manifest file that has sources under some names. -/
def manifestNaming (names : List String) : Json :=
  .object (names.map fun name => (name, entryValue (sourceNamed name)))

theorem plain_manifestNaming {names : List String} (h : names.Nodup) (depth : Nat) :
    Json.Plain (depth + 2) (manifestNaming names) := by
  refine .object (List.forall_mem_map.2 fun name _ => ?_) ?_
  · refine .object (fun m hm => ?_) (by simp)
    rcases List.mem_pair.1 hm with rfl | rfl
    · exact .text _ _
    · exact .null _
  · rw [List.map_map]
    exact (List.map_id names).symm ▸ h

/-- The disk of a current copy whose manifest was replaced by one that names its source twice. -/
def diskNamingTwice : FileTree :=
  ((diskWithLibrary.writeFile ["w", "lib", "a.c"] []).writeFile ["w", "lib", "jarhash"]
      (markingOf archiveOfA)).writeFile
    ["w", "lib", "sources.json"] (Text.encode (Json.document (manifestNaming ["./a.c", "a.c"])))

theorem isFresh_diskNamingTwice :
    perform (copyOf planOfA).isFresh (aroundOfA succeeding) (.ofTree diskNamingTwice) =
      (.ok true, .ofTree diskNamingTwice) := by
  have hmarker : diskNamingTwice.node? ["w", "lib", "jarhash"] = some (.file _) :=
    (node?_writeFile (by simp) _ _).trans ((if_neg (by simp)).trans
      ((node?_writeFile (by simp) _ _).trans (if_pos rfl)))
  exact perform_isFresh_of_marker rfl (by decide) hmarker (written_bytes _ _ _) (by decide)

theorem perform_load_diskNamingTwice :
    perform (load planOfA.libraryDirectory) (aroundOfA succeeding) (.ofTree diskNamingTwice) =
      (.ok ⟨planOfA.libraryDirectory, ["./a.c", "a.c"].map sourceNamed⟩,
        .ofTree diskNamingTwice) := by
  have hroot : LeadsToDirectory planOfA.libraryDirectory diskNamingTwice [] := rfl
  have hplain := plain_manifestNaming (show ["./a.c", "a.c"].Nodup by decide)
    (aroundOfA succeeding).stackRoom
  have hbytes : diskNamingTwice.bytes? ["w", "lib", "sources.json"] =
      some (Text.encode (Json.document (manifestNaming ["./a.c", "a.c"]))) := by
    rw [FileTree.bytes?, FileTree.file?, diskNamingTwice, node?_writeFile (by simp), if_pos rfl]
    exact congrArg some (written_bytes _ _ _)
  have hreads : FileReads (aroundOfA succeeding).nesting diskNamingTwice ["w", "lib"]
      (.ok (manifestNaming ["./a.c", "a.c"])) :=
    ⟨_, _, hbytes, hplain.decodeFile?_document, Json.parse_document hplain⟩
  refine perform_load_of_readSources ?_
  rw [perform_readSources_of_reads hroot (by decide) hreads]
  refine congrArg (·, _) (sourcesOf_object_eq_ok_iff.2 ?_)
  rw [DescribeAll, sortMembers, List.mergeSort_of_pairwise (by decide)]
  exact .cons (.entry rfl) (.cons (.entry rfl) .nil)

/-- What is unpacked is listed as the manifest file says, whoever wrote it. Two names of a source
give two compilers one object to write. -/
theorem two_names_share_object :
    ∃ m v, perform (unpack planOfA) (aroundOfA succeeding) (.ofTree diskNamingTwice) = (.ok m, v) ∧
      m.sources.map Source.objectPath = [.parse "/w/lib/a.c.o", .parse "/w/lib/a.c.o"] ∧
      ¬ DistinctOutputs [] planOfA [] m.sources := by
  have hfreshen : perform (Action.outcome ((copyOf planOfA).freshen writeManifest))
      (aroundOfA succeeding) (.ofTree diskNamingTwice) =
        (.ok (.ok none), .ofTree diskNamingTwice) := by
    rw [perform_outcome, ArchiveCopy.freshen, perform_bind_ok isFresh_diskNamingTwice]
    rfl
  have hobjects : (["./a.c", "a.c"].map sourceNamed).map Source.objectPath =
      [.parse "/w/lib/a.c.o", .parse "/w/lib/a.c.o"] := by
    decide
  refine ⟨_, _, (perform_bind_ok hfreshen).trans perform_load_diskNamingTwice, hobjects,
    fun hdistinct => ?_⟩
  have hnodup := hdistinct.nodup
  rw [outputs, hobjects] at hnodup
  exact absurd hnodup (by simp)

end NamedTwice

end StagedBuild.Build
