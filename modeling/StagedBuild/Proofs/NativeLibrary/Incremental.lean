import StagedBuild.Proofs.Build.ObjectPlaces
import StagedBuild.Proofs.Build.OutputTool
import StagedBuild.Proofs.NativeLibrary.Intact
import StagedBuild.Proofs.NativeLibrary.Selection

/-!
Assembling a library that is there already, with some of its objects. The objects that are missing
are made, those that are not needed are taken away, and nothing else changes, so that assembling it
once more has nothing to do.
-/

namespace StagedBuild.NativeLibrary

open Action FileTree Disk Manifest

variable {around later : Surroundings} {w w' : World} {plan : Plan} {lib : Path} {cwd : Location}
  {t t' : FileTree} {ways : List Location} {src : Location} {links : List String}

section Tools

variable {call : Invocation} {place : Location} {reply : ToolReply}

/-- A call that writes the file at its place when it ends with zero, and nothing else ever. -/
structure WritesExactly (around : Surroundings) (call : Invocation) (place : Location) : Prop where
  delivers : Delivers around call place
  idle : ∀ w : World, w.tree.WellFormed → ¬ (around.tool call w).1.isSuccess = true →
    SameNodes w.tree (around.tool call w).2

theorem WritesExactly.of_ran (h : WritesExactly around call place)
    (hran : Ran around call w reply w') (hwf : w.tree.WellFormed) :
    w'.tree.WellFormed ∧
      FilesChanged (fun q => reply.isSuccess = true ∧ q = place) w.tree w'.tree ∧
      (reply.isSuccess = true → w'.tree.isFile place = true) := by
  by_cases hsuccess : reply.isSuccess = true
  · obtain ⟨hwf', hchanged, hfile⟩ := h.delivers.of_ran hran hsuccess hwf
    exact ⟨hwf', hchanged.mono fun q hq => ⟨hsuccess, hq⟩, fun _ => hfile⟩
  · obtain ⟨v, htree, hreply, hleft⟩ := hran.exists_call
    have hsame := h.idle v (htree ▸ hwf) (hreply ▸ hsuccess)
    rw [htree, hleft] at hsame
    exact ⟨hsame.wellFormed hwf, hsame.filesChanged _, fun hok => absurd hok hsuccess⟩

theorem written_of_ranAll {α : Type} {call : α → Invocation} {answered : List (Pool.Answered α)}
    (hran : Pool.RanAll around call w answered w') (place : α → Location)
    (h : ∀ a ∈ answered, WritesExactly around (call a.item) (place a.item))
    (hwf : w.tree.WellFormed) :
    w'.tree.WellFormed ∧
      FilesChanged (fun q => ∃ a ∈ answered, a.reply.isSuccess = true ∧ q = place a.item)
        w.tree w'.tree ∧
      ∀ a ∈ answered, a.reply.isSuccess = true → w'.tree.isFile (place a.item) = true := by
  induction hran with
  | nil w => exact ⟨hwf, .refl _ _, by simp⟩
  | @cons w w₁ w' a rest hfirst _ ih =>
      obtain ⟨ha, hrest⟩ := List.forall_mem_cons.1 h
      obtain ⟨hwf₁, hchanged, hfile⟩ := ha.of_ran hfirst hwf
      obtain ⟨hwf', hchanged', hfiles⟩ := ih hrest hwf₁
      refine ⟨hwf', (hchanged.mono ?_).trans (hchanged'.mono ?_),
        List.forall_mem_cons.2 ⟨fun hsuccess => ?_, hfiles⟩⟩
      · rintro q ⟨hsuccess, rfl⟩
        exact ⟨a, by simp, hsuccess, rfl⟩
      · rintro q ⟨b, hb, hq⟩
        exact ⟨b, List.mem_cons_of_mem _ hb, hq⟩
      · -- what a later call writes in the same place is a file as well
        by_cases hlater : ∃ b ∈ rest, b.reply.isSuccess = true ∧ place a.item = place b.item
        · obtain ⟨b, hb, hok, heq⟩ := hlater
          exact heq ▸ hfiles b hb hok
        · exact isFile_congr (hchanged'.node?_eq hlater) ▸ hfile hsuccess

end Tools

/-- What assembling an intact library comes to, with the sources that are needed and those that are
not: one call for each needed source without an object, the objects of the others gone, and the
objects made by the calls that succeed. -/
structure Increment (around : Surroundings) (plan : Plan) (included excluded : List Source)
    (compiled : List (Pool.Answered Source)) (w w' : World) : Prop where
  calls : w'.steps around =
    w.steps around ++ compiled.map (Pool.Answered.step (Build.sourceCall plan))
  items : (compiled.map Pool.Answered.item).Perm
    (included.filter fun s => !hasObject around.directory w.tree s)
  gone : ∀ s ∈ excluded, w'.tree.node? (goalOf around.directory s.objectPath) = none
  made : ∀ a ∈ compiled, a.reply.isSuccess = true →
    w'.tree.isFile (goalOf around.directory a.item.objectPath) = true
  others : ∀ q, (∀ s ∈ excluded, q ≠ goalOf around.directory s.objectPath) →
    (∀ a ∈ compiled, a.reply.isSuccess = true →
      q ≠ goalOf around.directory a.item.objectPath) →
    w'.tree.node? q = w.tree.node? q

namespace Increment

variable {compiled : List (Pool.Answered Source)}
  (h : Increment around plan (includedOf plan links ways) (excludedOf plan links ways)
    compiled w w')

include h

theorem item_mem {a : Pool.Answered Source} (ha : a ∈ compiled) :
    a.item ∈ includedOf plan links ways :=
  List.mem_of_mem_filter (h.items.mem_iff.1 (List.mem_map_of_mem ha))

theorem filesChanged (hroom : ∀ s ∈ (manifestOf plan.libraryDirectory ways).sources,
      HasRoom around.directory w.tree s) :
    FilesChanged (fun q => ∃ s ∈ (manifestOf plan.libraryDirectory ways).sources,
      q = goalOf around.directory s.objectPath) w.tree w'.tree := by
  intro q
  by_cases hgone : ∃ s ∈ excludedOf plan links ways, q = goalOf around.directory s.objectPath
  · obtain ⟨s, hs, heq⟩ := hgone
    subst heq
    have hmem := mem_sources_of_excluded hs
    refine .inr ⟨⟨s, hmem, rfl⟩, (hroom s hmem).2, fun hdir => ?_⟩
    rw [isDirectory_iff, h.gone s hs] at hdir
    cases hdir
  · by_cases hmade : ∃ a ∈ compiled, a.reply.isSuccess = true ∧
        q = goalOf around.directory a.item.objectPath
    · obtain ⟨a, ha, hsuccess, heq⟩ := hmade
      subst heq
      have hmem := mem_sources_of_included (h.item_mem ha)
      exact .inr ⟨⟨a.item, hmem, rfl⟩, (hroom _ hmem).2, fun hdir =>
        not_isFile_of_isDirectory hdir (h.made a ha hsuccess)⟩
    · exact .inl (h.others q (fun s hs heq => hgone ⟨s, hs, heq⟩)
        fun a ha hsuccess heq => hmade ⟨a, ha, hsuccess, heq⟩)

theorem hasObject_iff (hways : IsListing ways)
    (hall : ∀ a ∈ compiled, a.reply.isSuccess = true) {s : Source}
    (hs : s ∈ (manifestOf plan.libraryDirectory ways).sources) :
    hasObject around.directory w'.tree s = true ↔ s ∈ includedOf plan links ways := by
  constructor
  · intro hocc
    refine (mem_included_or_excluded hs).resolve_right fun hexcluded => ?_
    exact not_isOccupied_iff.2 (h.gone s hexcluded) hocc
  · intro hincluded
    by_cases hmade : ∃ a ∈ compiled,
        goalOf around.directory s.objectPath = goalOf around.directory a.item.objectPath
    · obtain ⟨a, ha, heq⟩ := hmade
      rw [hasObject, heq]
      exact isOccupied_of_isFile (h.made a ha (hall a ha))
    · have hsame := h.others _ (fun s' hs' => goalOf_objectPath_ne hways hincluded hs' _)
        fun a ha _ heq => hmade ⟨a, ha, heq⟩
      -- it was not called for, so it was there
      by_contra hnot
      rw [hasObject, isOccupied_congr hsame] at hnot
      have hpending : s ∈ (includedOf plan links ways).filter fun s =>
          !hasObject around.directory w.tree s :=
        List.mem_filter.2 ⟨hincluded, by simpa [hasObject] using hnot⟩
      obtain ⟨a, ha, rfl⟩ := List.mem_map.1 (h.items.mem_iff.2 hpending)
      exact hmade ⟨a, ha, rfl⟩

end Increment

namespace Intact

variable (h : Intact around plan ways w)

include h

/-- Where nothing is missing and nothing is in excess, assembling calls no tool and changes nothing.
-/
theorem perform_assemble_of_complete
    (hroom : ∀ s ∈ (manifestOf plan.libraryDirectory ways).sources,
      HasRoom around.directory w.tree s)
    (hthere : ∀ s ∈ includedOf plan links ways, hasObject around.directory w.tree s = true)
    (hgone : ∀ s ∈ excludedOf plan links ways, ¬ hasObject around.directory w.tree s = true) :
    ∃ w', perform (assemble plan links) around w =
        (.ok ⟨plan.libraryDirectory, (includedOf plan links ways).map Source.objectPath, [], []⟩,
          w') ∧
      SameNodes w.tree w'.tree ∧ w'.steps around = w.steps around := by
  obtain ⟨w₁, hprepare, -, hnodes⟩ := h.perform_prepare hroom links
  have hpending : ((includedOf plan links ways).filter fun s =>
      !hasObject around.directory w.tree s) = [] :=
    List.filter_eq_nil_iff.2 fun s hs => by simp [hthere s hs]
  have hremoved : (excludedOf plan links ways).filter (hasObject around.directory w.tree) = [] :=
    List.filter_eq_nil_iff.2 hgone
  rw [hpending, hremoved] at hprepare
  obtain ⟨compiled, w', hran, hperm, hend⟩ := Build.perform_compilePending plan around
    ⟨includedOf plan links ways, [], []⟩ w₁
  obtain rfl := List.map_eq_nil_iff.1 hperm.eq_nil
  cases hran
  refine ⟨w₁, ?_, fun q => ?_, ((silent_prepare around plan links).of_perform hprepare).steps_eq _⟩
  · rw [assemble_eq, perform_bind_ok hprepare]
    rcases hend with ⟨-, hok⟩ | ⟨fault, hfails, -⟩
    · exact hok
    · obtain ⟨a, ha, -⟩ := hfails.exists_failed (Build.sourceCall_ne_nil plan)
      cases ha
  · rw [hnodes]
    split
    · rename_i hplace
      obtain ⟨s, hs, heq⟩ := List.mem_map.1 hplace
      exact heq ▸ not_isOccupied_iff.1 (hgone s hs)
    · rfl

theorem increment_of_ranAll {w₁ : World} {compiled : List (Pool.Answered Source)}
    (hplace : Build.placeIn around.directory plan plan.libraryDirectory =
      goalOf around.directory plan.libraryDirectory)
    (htools : ∀ s ∈ (manifestOf plan.libraryDirectory ways).sources,
      WritesExactly around (Build.sourceCall plan s)
        (Build.placeIn around.directory plan s.objectPath))
    (hsteps : w₁.steps around = w.steps around) (hwf₁ : w₁.tree.WellFormed)
    (hnodes : ∀ q, w₁.tree.node? q =
      if q ∈ (excludedOf plan links ways).map (fun s => goalOf around.directory s.objectPath)
        then none else w.tree.node? q)
    (hran : Pool.RanAll around (Build.sourceCall plan) w₁ compiled w')
    (hperm : (compiled.map Pool.Answered.item).Perm
      ((includedOf plan links ways).filter fun s => !hasObject around.directory w.tree s)) :
    w'.tree.WellFormed ∧ Increment around plan (includedOf plan links ways)
      (excludedOf plan links ways) compiled w w' := by
  have hitem : ∀ a ∈ compiled, a.item ∈ includedOf plan links ways := fun a ha =>
    List.mem_of_mem_filter (hperm.mem_iff.1 (List.mem_map_of_mem ha))
  have hexact : ∀ a ∈ compiled, WritesExactly around (Build.sourceCall plan a.item)
      (goalOf around.directory a.item.objectPath) := by
    intro a ha
    have hmem := mem_sources_of_included (hitem a ha)
    have htool := htools a.item hmem
    obtain ⟨src, hsrc, heq⟩ := List.mem_map.1 hmem
    have hsource := h.listing.fileOrder.isSourceWay src hsrc
    rwa [← heq, Build.placeIn_sourceObject hsource, ← Build.placeIn_libraryDirectory, hplace,
      ← goalOf_objectPath hsource, heq] at htool
  obtain ⟨hwf', hchanged, hfiles⟩ :=
    written_of_ranAll hran (fun s => goalOf around.directory s.objectPath) hexact hwf₁
  refine ⟨hwf', by rw [hran.steps_eq, hsteps], hperm, fun s hs => ?_, hfiles, fun q hq hnot => ?_⟩
  · rw [hchanged.node?_eq, hnodes, if_pos (List.mem_map_of_mem hs)]
    rintro ⟨a, ha, -, heq⟩
    exact goalOf_objectPath_ne h.listing (hitem a ha) hs _ heq.symm
  · rw [hchanged.node?_eq fun ⟨a, ha, hsuccess, heq⟩ => hnot a ha hsuccess heq, hnodes, if_neg]
    intro hmem
    obtain ⟨s, hs, heq⟩ := List.mem_map.1 hmem
    exact hq s hs heq.symm

/-- Assembling an intact library makes the objects that are missing and takes those away that are
not needed. When all compilers succeed, the objects of exactly the needed sources are there, and
assembling once more has nothing to do. When one does not, that is reported after all have run. -/
theorem exists_increment
    (hroom : ∀ s ∈ (manifestOf plan.libraryDirectory ways).sources,
      HasRoom around.directory w.tree s)
    (hplace : Build.placeIn around.directory plan plan.libraryDirectory =
      goalOf around.directory plan.libraryDirectory)
    (htools : ∀ s ∈ (manifestOf plan.libraryDirectory ways).sources,
      WritesExactly around (Build.sourceCall plan s)
        (Build.placeIn around.directory plan s.objectPath))
    (links : List String) :
    ∃ included excluded compiled w',
      (manifestOf plan.libraryDirectory ways).select plan.gc links = .ok (included, excluded) ∧
      Increment around plan included excluded compiled w w' ∧
      ((∀ a ∈ compiled, a.reply.isSuccess = true) ∧
          perform (assemble plan links) around w =
            (.ok ⟨plan.libraryDirectory, included.map Source.objectPath,
              (included.filter fun s => !hasObject around.directory w.tree s).map
                Source.objectPath,
              (excluded.filter (hasObject around.directory w.tree)).map Source.objectPath⟩, w') ∧
          (∀ s ∈ (manifestOf plan.libraryDirectory ways).sources,
            hasObject around.directory w'.tree s = true ↔ s ∈ included) ∧
          (∀ later : Surroundings, later.directory = around.directory → ∃ w'',
            perform (assemble plan links) later w' =
              (.ok ⟨plan.libraryDirectory, included.map Source.objectPath, [], []⟩, w'') ∧
            SameNodes w'.tree w''.tree ∧ w''.steps later = w'.steps later) ∨
        (¬ ∀ a ∈ compiled, a.reply.isSuccess = true) ∧ ∃ fault,
          FailsWith (Build.sourceCall plan) compileFault compiled fault ∧
          perform (assemble plan links) around w = (.error fault, w')) := by
  obtain ⟨w₁, hprepare, hwf₁, hnodes⟩ := h.perform_prepare hroom links
  obtain ⟨compiled, w', hran, hperm, hend⟩ := Build.perform_compilePending plan around
    ⟨includedOf plan links ways,
      (includedOf plan links ways).filter fun s => !hasObject around.directory w.tree s,
      ((excludedOf plan links ways).filter (hasObject around.directory w.tree)).map
        Source.objectPath⟩ w₁
  obtain ⟨hwf', hincrement⟩ := h.increment_of_ranAll hplace htools
    (((silent_prepare around plan links).of_perform hprepare).steps_eq _) hwf₁ hnodes hran hperm
  refine ⟨_, _, compiled, w', select_sourcesAt _ _ _ _, hincrement, ?_⟩
  rw [assemble_eq, perform_bind_ok hprepare]
  rcases hend with ⟨hall, hok⟩ | ⟨fault, hfails, hfault⟩
  · have hiff := fun s hs => hincrement.hasObject_iff (s := s) h.listing hall hs
    refine .inl ⟨hall, hok, hiff, fun later hlater => ?_⟩
    have hchanged := hincrement.filesChanged hroom
    rw [← assemble_eq]
    refine (h.of_filesChanged hlater hwf' hchanged).perform_assemble_of_complete ?_ ?_ ?_
    · rw [hlater]
      exact fun s hs => ⟨(hroom s hs).1, (hchanged.isDirectory_eq _) ▸ (hroom s hs).2⟩
    · rw [hlater]
      exact fun s hs => (hiff s (mem_sources_of_included hs)).2 hs
    · rw [hlater]
      intro s hs hocc
      exact not_isOccupied_iff.2 (hincrement.gone s hs) hocc
  · refine .inr ⟨fun hall => ?_, fault, hfails, hfault⟩
    obtain ⟨a, ha, hfailed⟩ := hfails.exists_failed (Build.sourceCall_ne_nil plan)
    exact hfailed (hall a ha)

end Intact

section Sample

theorem writesExactly_outputTool {made : List String → ToolReply × List UInt8} {call : Invocation}
    {out : Path} (htool : around.tool = outputTool around.directory made)
    (hword : outputWord call.command = some out.text)
    (hmade : (made call.command).1.isSuccess = true) :
    WritesExactly around call (goalOf (directoryOf around.directory call) out) where
  delivers := delivers_outputTool made hword htool
  idle w hw hfailed := by
    rw [htool] at hfailed ⊢
    rcases outputTool_cases made hword hw with hsame | ⟨t, f, hran, -⟩
    · rw [hsame]
      exact fun q => rfl
    · rw [hran] at hfailed
      exact absurd hmade hfailed

/-- Tools that end with zero and write an empty file. -/
def aroundWriters : Surroundings :=
  aroundOfA fun _ => (.exited 0 [] [], [])

theorem writesExactly_source (hwork : plan.workdir.isAbsolute = true)
    (hclang : plan.clang.isAbsolute = true) (hclangpp : plan.clangpp.isAbsolute = true)
    (hflags : "-o" ∉ plan.compileFlags) (hsrc : IsSourceWay src) :
    WritesExactly aroundWriters (Build.sourceCall plan
        (sourceAt plan.libraryDirectory (plan.libraryDirectory.descend src)))
      (Build.placeIn aroundWriters.directory plan
        (sourceAt plan.libraryDirectory (plan.libraryDirectory.descend src)).objectPath) := by
  have hlib := Build.isAbsolute_libraryDirectory hwork
  have htool : aroundWriters.tool = outputTool [] fun _ => (.exited 0 [] [], []) := rfl
  refine writesExactly_outputTool htool (outputWord_sourceCall hclang hclangpp hflags ?_) rfl
  change (plan.libraryDirectory.descend src).isAbsolute = true
  rw [isAbsolute_descend _ fun s hs => isStep_of_isEntryName (hsrc.2.1 s hs), hlib]

/-- A disk with an empty archive, some directories, and a library that has some files beside its
marker and its manifest. -/
def libraryWith (plan : Plan) (ways dirs files : List Location) : World :=
  let bare := ([["w"], ["w", "lib"]] ++ dirs).foldl (fun t q => t.add q .directory)
    (FileTree.empty.writeFile ["a.jar"] [])
  let filled := files.foldl (fun t q => t.writeFile (["w", "lib"] ++ q) []) bare
  .ofTree ((filled.writeFile ["w", "lib", "jarhash"] (markingOf [])).writeFile
    ["w", "lib", "sources.json"]
    (Text.encode (Json.document (fileValue plan.libraryDirectory ways))))

/-- Such a disk without the files of the library. -/
def bareLibrary (dirs : List Location) : FileTree :=
  ([["w"], ["w", "lib"]] ++ dirs).foldl (fun t q => t.add q .directory)
    (FileTree.empty.writeFile ["a.jar"] [])

/-- A file can be written at a location. -/
def Takes (t : FileTree) (q : Location) : Prop :=
  q ≠ [] ∧ (∀ name ∈ q, isEntryName name = true) ∧ t.isDirectory q.dropLast = true ∧
    ¬ t.isDirectory q = true

instance (t : FileTree) (q : Location) : Decidable (Takes t q) :=
  inferInstanceAs (Decidable (_ ∧ _))

theorem Takes.writeFile {q : Location} (h : Takes t q) (ht : t.WellFormed) (bytes : List UInt8) :
    (t.writeFile q bytes).WellFormed ∧ FilesChanged (· = q) t (t.writeFile q bytes) := by
  obtain ⟨hne, hnamed, hplaced, hnot⟩ := h
  refine ⟨?_, .of_put hnot fun p => node?_writeFile hne p bytes⟩
  have hwf := ht.writeFile hplaced (hnamed _ (List.getLast_mem hne))
    (by rwa [List.dropLast_append_getLast]) bytes
  rwa [List.dropLast_append_getLast] at hwf

theorem filesChanged_writeFiles {files : List (Location × List UInt8)} (ht : t.WellFormed)
    (hfiles : ∀ e ∈ files, Takes t e.1) :
    (files.foldl (fun t e => t.writeFile e.1 e.2) t).WellFormed ∧
      FilesChanged (fun q => ∃ e ∈ files, q = e.1) t
        (files.foldl (fun t e => t.writeFile e.1 e.2) t) := by
  induction files generalizing t with
  | nil => exact ⟨ht, .refl _ _⟩
  | cons e rest ih =>
      obtain ⟨hwf, hchanged⟩ := (hfiles e (by simp)).writeFile ht e.2
      have htakes : ∀ e' ∈ rest, Takes (t.writeFile e.1 e.2) e'.1 := by
        intro e' he'
        have h := hfiles e' (by simp [he'])
        rwa [Takes, ← hchanged.isDirectory_eq, ← hchanged.isDirectory_eq] at h
      obtain ⟨hwf', hchanged'⟩ := ih hwf htakes
      refine ⟨hwf', .trans (hchanged.mono ?_) (hchanged'.mono ?_)⟩
      · exact fun q hq => ⟨e, by simp, hq⟩
      · exact fun q ⟨e', he', hq⟩ => ⟨e', by simp [he'], hq⟩

/-- Such a disk has the archive of a plan where the plan says, and a place for its library. -/
structure Hosts (dirs : List Location) (plan : Plan) : Prop where
  wellFormed : (bareLibrary dirs).WellFormed
  takes : Takes (bareLibrary dirs) ["w", "lib", "jarhash"] ∧
    Takes (bareLibrary dirs) ["w", "lib", "sources.json"]
  library : goalOf [] plan.libraryDirectory = ["w", "lib"]
  leads : LeadsToDirectory plan.libraryDirectory (bareLibrary dirs) []
  archive : goalOf [] plan.archive = ["a.jar"]
  bytes : bytesAt plan.archive (bareLibrary dirs) [] = .ok []
  marker : (plan.libraryDirectory / markerName).text.utf8ByteSize ≤ pathLimit
  readable : (plan.libraryDirectory / fileName).text.utf8ByteSize ≤ pathLimit

theorem intact_libraryWith {dirs files : List Location} (h : Hosts dirs plan)
    (hfiles : ∀ q ∈ files, Takes (bareLibrary dirs) (["w", "lib"] ++ q))
    (hlisting : IsListing ways) :
    Intact aroundWriters plan ways (libraryWith plan ways dirs files) := by
  obtain ⟨contents, hcontents⟩ : ∃ contents, contents =
      files.map (fun q => (["w", "lib"] ++ q, [])) ++ [(["w", "lib", "jarhash"], markingOf []),
        (["w", "lib", "sources.json"],
          Text.encode (Json.document (fileValue plan.libraryDirectory ways)))] := ⟨_, rfl⟩
  have htree : (libraryWith plan ways dirs files).tree =
      contents.foldl (fun t e => t.writeFile e.1 e.2) (bareLibrary dirs) := by
    simp only [hcontents, List.foldl_append, List.foldl_map, List.foldl_cons, List.foldl_nil]
    rfl
  have hplaces : ∀ e ∈ contents, (["w", "lib"] <+: e.1) ∧ Takes (bareLibrary dirs) e.1 := by
    rw [hcontents]
    simp only [List.forall_mem_append, List.forall_mem_map, List.forall_mem_cons]
    exact ⟨fun q hq => ⟨List.prefix_append _ _, hfiles q hq⟩, ⟨⟨_, rfl⟩, h.takes.1⟩,
      ⟨⟨_, rfl⟩, h.takes.2⟩, nofun⟩
  obtain ⟨hwf, hchanged⟩ := filesChanged_writeFiles h.wellFormed fun e he => (hplaces e he).2
  rw [← htree] at hwf hchanged
  have hdirs : ∀ q, (bareLibrary dirs).isDirectory q = true →
      (libraryWith plan ways dirs files).tree.isDirectory q = true := fun q hq =>
    (hchanged.isDirectory_eq q).trans hq
  have hmark : (libraryWith plan ways dirs files).tree.node? ["w", "lib", "jarhash"] =
      some (.file _) :=
    (node?_writeFile (by simp) _ _).trans ((if_neg (by simp)).trans
      ((node?_writeFile (by simp) _ _).trans (if_pos rfl)))
  refine ⟨hwf, ?_, ?_, hlisting, ?_, h.readable⟩
  · refine perform_isFresh_of_marker (h.leads.mono hdirs) h.marker
      (show _ = some _ from (congrArg _ (congrArg (· ++ [markerName]) h.library)).trans hmark)
      (written_bytes _ _ _) ?_
    have hstay : DirectoriesStay (.ofTree (bareLibrary dirs)) (libraryWith plan ways dirs files) :=
      hdirs
    refine bytesAt_of_directoriesStay hstay (fun node hnode => ?_) h.bytes
    refine (hchanged.node?_eq ?_).trans hnode
    rintro ⟨e, he, heq⟩
    have hbelow := (hplaces e he).1
    rw [← heq, show goalOf aroundWriters.directory plan.archive = _ from h.archive] at hbelow
    exact absurd hbelow (by decide)
  · change ¬ goalOf [] plan.libraryDirectory <+: goalOf [] plan.archive
    rw [h.library, h.archive]
    decide
  · change Holds _ ((libraryWith plan ways dirs files).tree.node?
      (fileAt (goalOf [] plan.libraryDirectory))) ways
    rw [h.library]
    exact ⟨_, (node?_writeFile (by simp) _ _).trans (if_pos rfl), written_bytes _ _ _⟩

theorem perform_assemble_of_sorted (h : Intact around plan ways w) (hquiet : plan.verbose = false)
    (hsorted : fileOrder ways = ways) (links : List String) :
    perform (assemble plan links) around w =
      perform (sortOut plan links ⟨plan.libraryDirectory, sourcesAt plan.libraryDirectory ways⟩ >>=
        compilePending plan) around w := by
  obtain ⟨v, -, hv, hunpack⟩ := h.perform_unpack
  obtain rfl := hv hquiet
  rw [assemble_eq_unpack, perform_bind_ok hunpack, manifestOf, hsorted]

/-- A library with two sources that every build needs and one that is optional. -/
def threeWays : List Location :=
  [["a.c"], ["b.c"], ["optional", "z.c"]]

theorem isListing_threeWays : IsListing threeWays where
  isSourceWay := by
    simp only [threeWays, IsSourceWay, List.forall_mem_cons, List.not_mem_nil, false_implies,
      implies_true, and_true]
    decide
  nodup := by decide

/-- A disk on which the library has two objects, one of them of the source that is optional. -/
def partBuilt : World :=
  libraryWith planOfA threeWays [["w", "lib", "optional"]]
    (threeWays ++ [["b.c.o"], ["optional", "z.c.o"]])

theorem hosts_planOfA_optional : Hosts [["w", "lib", "optional"]] planOfA :=
  ⟨by decide, by decide, by decide, rfl, by decide, rfl,
    by decide, by decide⟩

/-- Assembling makes the object that is missing and takes away the one that is not needed; once
more, it does nothing. -/
theorem part_built_library_is_completed :
    ((perform (assemble planOfA []) aroundWriters partBuilt).1.toOption.map fun a =>
        (a.objects.map Path.text, a.compiled.map Path.text, a.removed.map Path.text)) =
      some (["/w/lib/a.c.o", "/w/lib/b.c.o"], ["/w/lib/a.c.o"], ["/w/lib/optional/z.c.o"]) ∧
    ∃ objects w' w'', (perform (assemble planOfA []) aroundWriters partBuilt).2 = w' ∧
      perform (assemble planOfA []) aroundWriters w' =
        (.ok ⟨planOfA.libraryDirectory, objects, [], []⟩, w'') ∧ SameNodes w'.tree w''.tree := by
  have hintact : Intact aroundWriters planOfA threeWays partBuilt :=
    intact_libraryWith hosts_planOfA_optional (by decide +kernel) isListing_threeWays
  have hended : ((perform (assemble planOfA []) aroundWriters partBuilt).1.toOption.map fun a =>
      (a.objects.map Path.text, a.compiled.map Path.text, a.removed.map Path.text)) =
        some (["/w/lib/a.c.o", "/w/lib/b.c.o"], ["/w/lib/a.c.o"], ["/w/lib/optional/z.c.o"]) := by
    rw [perform_assemble_of_sorted hintact rfl (fileOrder_eq_self_iff.2 (by decide))]
    decide +kernel
  have hroom : ∀ src ∈ threeWays, HasRoom [] partBuilt.tree
      (sourceAt planOfA.libraryDirectory (planOfA.libraryDirectory.descend src)) := by
    have hshort : ∀ src ∈ threeWays,
        (sourceAt planOfA.libraryDirectory
            (planOfA.libraryDirectory.descend src)).objectPath.text.utf8ByteSize ≤ pathLimit ∧
          (∀ step ∈ (sourceAt planOfA.libraryDirectory
            (planOfA.libraryDirectory.descend src)).objectPath.steps, fits step = true) ∧
          ¬ partBuilt.tree.isDirectory (goalOf [] (sourceAt planOfA.libraryDirectory
            (planOfA.libraryDirectory.descend src)).objectPath) = true := by
      decide +kernel
    exact fun src hsrc => ⟨⟨(hshort src hsrc).1, (hshort src hsrc).2.1⟩, (hshort src hsrc).2.2⟩
  obtain ⟨included, excluded, compiled, w', -, -, hend⟩ := hintact.exists_increment
    (fun s hs => by
      obtain ⟨src, hsrc, rfl⟩ := List.mem_map.1 hs
      exact hroom src (mem_fileOrder.1 hsrc))
    (by decide)
    (fun s hs => by
      obtain ⟨src, hsrc, rfl⟩ := List.mem_map.1 hs
      exact writesExactly_source (by decide) (by decide) (by decide)
        (by decide) (isListing_threeWays.fileOrder.isSourceWay src hsrc)) []
  refine ⟨hended, ?_⟩
  rcases hend with ⟨-, hok, -, hagain⟩ | ⟨-, fault, -, hfault⟩
  · obtain ⟨w'', hsecond, hsame, -⟩ := hagain aroundWriters rfl
    exact ⟨_, w', w'', by rw [hok], hsecond, hsame⟩
  · rw [hfault] at hended
    cases hended

theorem exists_fault_of_long_name {name : String} (hleads : LeadsToDirectory lib t cwd)
    (hsrc : IsSourceWay [name]) (hlong : ¬ fits (objectName name) = true) :
    ∃ fault, answerAt (sourceAt lib (lib.descend [name])).objectPath t cwd = .error fault := by
  have hsteps := isStep_objectWay (fun s hs => isStep_of_isEntryName (hsrc.2.1 s hs)) hsrc.1
  have hask := isAskable_objectPath hsrc hleads.isAskable
  rw [objectPath_sourceAt hsrc] at hask ⊢
  have hopen : ∀ v ∈ passedBy cwd (lib.descend (objectWay [name])), t.isDirectory v = true := by
    intro v hv
    rcases (mem_passedBy_descend_plain hsteps
        (up_not_mem_objectWay (up_not_mem hsrc.2.1))).1 hv with
      hv | ⟨front, back, hway, hback, rfl⟩
    · exact (locate_eq_ok_iff.1 hleads.locate).2.2.1 v hv
    · -- only the library itself is passed in front of the name
      have hlength := congrArg List.length hway
      have hpos := List.length_pos_of_ne_nil hback
      simp only [objectWay, List.length_append, List.length_dropLast, List.length_cons,
        List.length_nil] at hlength
      rw [List.eq_nil_of_length_eq_zero (l := front) (by omega), List.append_nil]
      exact hleads.isDirectory
  obtain ⟨-, hloc⟩ := (locate_open hopen).resolve_left fun hfits => hlong <| hfits.1.steps _ <| by
    rw [Path.steps_descend lib hsteps]
    simp [objectWay]
  refine ⟨.system (.on .nameTooLong (lib.descend (objectWay [name])).text), ?_⟩
  rw [answerAt, if_pos hask]
  simp only [lookup, hloc, bind, Except.bind]
  rfl

/-- The name of a source that is as long as names can be: most of its letters take four bytes. -/
def longName : String :=
  String.ofList (List.replicate 63 '𝄞') ++ "a.c"

/-- A library with a source of that name. -/
def longNamed : World :=
  libraryWith planOfA [[longName]] [] [[longName]]

theorem toList_longName : longName.toList = List.replicate 63 '𝄞' ++ ['a', '.', 'c'] := by
  unfold longName
  generalize 63 = n
  simp

theorem utf8ByteSize_longName : longName.utf8ByteSize = nameLimit := by
  have hletters : ∀ n, (String.ofList (List.replicate n '𝄞')).utf8ByteSize = n * 4 := by
    intro n
    induction n with
    | zero => decide
    | succ n ih =>
        have hletter : (String.ofList ['𝄞']).utf8ByteSize = 4 := by decide
        rw [List.replicate_succ, ← List.singleton_append, String.ofList_append,
          String.utf8ByteSize_append, ih, hletter]
        omega
  unfold longName
  rw [String.utf8ByteSize_append, hletters]
  decide

theorem isEntryName_longName : isEntryName longName = true := by
  have hne : ∀ s : String, s.toList.length < 66 → longName ≠ s := by
    rintro s hs rfl
    simp [toList_longName] at hs
  simp [isEntryName, isStep, toList_longName, utf8ByteSize_longName, hne "" (by decide),
    hne "." (by decide), hne ".." (by decide)]

theorem isSourceWay_longName : IsSourceWay [longName] := by
  have hstem : String.ofList (List.replicate 63 '𝄞') ++ "a" ≠ "" := fun h =>
    absurd (String.append_eq_empty_iff.1 h).2 (by decide)
  have hname : longName = String.ofList (List.replicate 63 '𝄞') ++ "a" ++ ".c" := by
    unfold longName
    rw [String.append_assoc, show "a" ++ ".c" = "a.c" by decide]
  refine ⟨by simp, by simpa using isEntryName_longName, ?_⟩
  exact isSourceName_iff.2 ⟨_, ".c", hstem, by decide, hname⟩

theorem hosts_planOfA : Hosts [] planOfA :=
  ⟨by decide, by decide, rfl, rfl, rfl, rfl, by decide, by decide⟩

theorem intact_longNamed : Intact aroundWriters planOfA [[longName]] longNamed := by
  refine intact_libraryWith hosts_planOfA ?_
    ⟨by simpa using isSourceWay_longName, List.nodup_singleton _⟩
  have hnames : ∀ name ∈ ["w", "lib", longName], isEntryName name = true := by
    simpa [isEntryName_longName] using
      (by decide : isEntryName "w" = true ∧ isEntryName "lib" = true)
  have htakes : Takes (bareLibrary []) ["w", "lib", longName] :=
    ⟨by simp, hnames, by decide, by decide⟩
  intro q hq
  rwa [List.mem_singleton.1 hq]

theorem assemble_longNamed : ∃ fault,
    perform (assemble planOfA []) aroundWriters longNamed = (.error fault, longNamed) := by
  obtain ⟨fault, hfault⟩ := exists_fault_of_long_name intact_longNamed.leads isSourceWay_longName
    (by decide +kernel)
  have hneeded : isNeededAt planOfA.libraryDirectory planOfA.gc [] [longName] = true := by
    rw [isNeededAt_eq fun s hs => isStep_of_isEntryName (isSourceWay_longName.2.1 s hs)]
    rfl
  have hselect : perform (Action.ofExcept id ((⟨planOfA.libraryDirectory,
      sourcesAt planOfA.libraryDirectory [[longName]]⟩ : Manifest).select planOfA.gc []))
        aroundWriters longNamed =
      (.ok (sourcesAt planOfA.libraryDirectory [[longName]], []), longNamed) := by
    rw [select_ways, perform_ofExcept_id]
    simp [hneeded, sourcesAt]
  have hasked : perform (withoutObject (sourcesAt planOfA.libraryDirectory [[longName]]))
      aroundWriters longNamed = (.error fault, longNamed) := by
    rw [sourcesAt_cons, withoutObject_cons]
    refine perform_bind_error ?_
    rw [perform_isOccupied, hfault]
    rfl
  have hremoved : perform (removeObjects []) aroundWriters longNamed = (.ok [], longNamed) := rfl
  refine ⟨fault, ?_⟩
  rw [perform_assemble_of_sorted intact_longNamed rfl
    (fileOrder_eq_self_iff.2 (List.pairwise_singleton _ _)), sortOut]
  refine perform_bind_error ?_
  rw [perform_bind_ok hselect]
  dsimp only
  rw [perform_bind_ok hremoved]
  exact perform_bind_error hasked

/-- A plan whose work directory is given from the current directory. -/
def relativePlan : Plan :=
  { planOfA with workdir := .parse "w" }

/-- A disk on which there are directories where the tools of that plan look for the library. -/
def relativeLibrary : World :=
  libraryWith relativePlan [["a.c"]] [["w", "w"], ["w", "w", "lib"]] [["a.c"]]

theorem hosts_relativePlan : Hosts [["w", "w"], ["w", "w", "lib"]] relativePlan :=
  ⟨by decide, by decide, by decide, rfl, by decide, rfl,
    by decide, by decide⟩

theorem intact_relativeLibrary :
    Intact aroundWriters relativePlan [["a.c"]] relativeLibrary := by
  refine intact_libraryWith hosts_relativePlan (by decide) ⟨?_, by decide⟩
  simp only [IsSourceWay, List.forall_mem_cons, List.not_mem_nil, false_implies, implies_true,
    and_true]
  decide

theorem assemble_relativeLibrary :
    ((perform (assemble relativePlan []) aroundWriters relativeLibrary).1.toOption.map fun a =>
        a.compiled.map Path.text) = some ["w/lib/a.c.o"] ∧
      (perform (assemble relativePlan []) aroundWriters relativeLibrary).2.tree.isOccupied
        ["w", "lib", "a.c.o"] = false := by
  rw [perform_assemble_of_sorted intact_relativeLibrary rfl (fileOrder_eq_self_iff.2 (by decide))]
  exact ⟨by decide +kernel, by decide +kernel⟩

/-- A source is not compiled when the name of its object is too long. Where its path leads its
compiler somewhere else, it is compiled and has no object afterwards. -/
theorem increment_is_not_made :
    Intact aroundWriters planOfA [[longName]] longNamed ∧
      (∃ fault, perform (assemble planOfA []) aroundWriters longNamed =
        (.error fault, longNamed)) ∧
      Intact aroundWriters relativePlan [["a.c"]] relativeLibrary ∧
      ((perform (assemble relativePlan []) aroundWriters relativeLibrary).1.toOption.map fun a =>
        a.compiled.map Path.text) = some ["w/lib/a.c.o"] ∧
      (perform (assemble relativePlan []) aroundWriters relativeLibrary).2.tree.isOccupied
        ["w", "lib", "a.c.o"] = false :=
  ⟨intact_longNamed, assemble_longNamed, intact_relativeLibrary, assemble_relativeLibrary.1,
    assemble_relativeLibrary.2⟩

end Sample

end StagedBuild.NativeLibrary
