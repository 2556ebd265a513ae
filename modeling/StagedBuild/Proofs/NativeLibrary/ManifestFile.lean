import Mathlib.Data.List.Nodup
import StagedBuild.NativeLibrary.Assembly
import StagedBuild.NativeLibrary.Manifest
import StagedBuild.Proofs.Action.Below
import StagedBuild.Proofs.Json.Documents

/-!
The manifest as a file. What is read of the file that was written after a scan are the sources that
were scanned, so a manifest is made anew only when somebody else has changed its file.
-/

namespace StagedBuild.NativeLibrary.Manifest

open Action FileTree

variable {around : Surroundings} {w w' : World} {root : Path} {ways : List Location}

/-- The name of an entry makes it a source. -/
def isSourceName (name : String) : Prop :=
  (Path.splitName name).2 ∈ sourceSuffixes

instance (name : String) : Decidable (isSourceName name) :=
  inferInstanceAs (Decidable (_ ∈ _))

/-- The ways down to the sources below a location, in order. -/
def sourceWays (t : FileTree) (base : Location) : List Location :=
  ((t.below base).filter fun e =>
    e.2 ≠ .directory ∧ isSourceName (e.1.getLast?.getD "")).map Prod.fst

/-- The way down to a source. -/
def IsSourceWay (way : Location) : Prop :=
  way ≠ [] ∧ (∀ s ∈ way, isEntryName s = true) ∧ isSourceName (way.getLast?.getD "")

theorem mem_sourceWays {t : FileTree} (ht : t.WellFormed) {base way : Location} :
    way ∈ sourceWays t base ↔ IsSourceWay way ∧ t.isFile (base ++ way) = true := by
  simp only [sourceWays, List.mem_map, List.mem_filter, mem_below, Prod.exists, exists_and_right,
    exists_eq_right, decide_eq_true_eq, IsSourceWay]
  constructor
  · rintro ⟨node, ⟨hne, hnode⟩, hdir, hname⟩
    have hocc := isOccupied_iff.2 ⟨node, hnode⟩
    refine ⟨⟨hne, fun s hs => ht.named _ hocc s (List.mem_append_right _ hs), hname⟩, ?_⟩
    refine (isFile_or_isDirectory hocc).resolve_right fun hdir' => hdir ?_
    rw [isDirectory_iff, hnode] at hdir'
    exact Option.some.inj hdir'
  · rintro ⟨⟨hne, -, hname⟩, hfile⟩
    obtain ⟨f, hf⟩ := isFile_iff.1 hfile
    exact ⟨.file f, ⟨hne, hf⟩, by simp, hname⟩

theorem sourceWays_nodup (t : FileTree) (base : Location) : (sourceWays t base).Nodup :=
  (below_nodup t base).sublist (List.filter_sublist.map _)

/-- The sources with these ways below a root. -/
def sourcesAt (root : Path) (ways : List Location) : List Source :=
  ways.map fun way => sourceAt root (root.descend way)

theorem perform_scan (ht : w.tree.WellFormed)
    (h : Disk.LeadsToDirectory root w.tree around.directory) :
    perform (scan root) around w =
      (.ok ⟨root, sourcesAt root (sourceWays w.tree (goalOf around.directory root))⟩, w) := by
  rw [scan, perform_bind_ok (Disk.perform_entriesBelow h), perform_pure]
  simp only [List.filter_map, List.map_map]
  have hfilter : (w.tree.below (goalOf around.directory root)).filter
      ((fun x : Path × Node => decide (x.2 ≠ .directory ∧ x.1.suffix ∈ sourceSuffixes)) ∘
        fun e => (root.descend e.1, e.2)) =
      (w.tree.below (goalOf around.directory root)).filter fun e =>
        e.2 ≠ .directory ∧ isSourceName (e.1.getLast?.getD "") := by
    refine List.filter_congr fun ⟨way, node⟩ hmem => ?_
    obtain ⟨hne, hnode⟩ := mem_below.1 hmem
    have hsteps : ∀ s ∈ way, isStep s = true := fun s hs => isStep_of_isEntryName
      (ht.named _ (isOccupied_iff.2 ⟨node, hnode⟩) s (List.mem_append_right _ hs))
    simp only [Function.comp_apply, Path.suffix, Path.name_descend root hsteps hne, isSourceName,
      List.getLast?_eq_some_getLast hne, Option.getD_some]
  rw [hfilter, sourcesAt, sourceWays, List.map_map]
  rfl

section File

variable (hways : ∀ way ∈ ways, way ≠ [] ∧ ∀ s ∈ way, isStep s = true)

/-- Ways in the order in which a manifest file names them. -/
def fileOrder (ways : List Location) : List Location :=
  ways.mergeSort fun a b => decide (Path.wayText a ≤ Path.wayText b)

theorem mem_fileOrder {way : Location} : way ∈ fileOrder ways ↔ way ∈ ways :=
  (List.mergeSort_perm ways _).mem_iff

theorem pairwise_fileOrder (ways : List Location) :
    (fileOrder ways).Pairwise fun a b => Path.wayText a ≤ Path.wayText b := by
  have hsorted : (fileOrder ways).Pairwise fun a b =>
      decide (Path.wayText a ≤ Path.wayText b) = true := List.pairwise_mergeSort
    (fun a b c hab hbc => by simpa using String.le_trans (by simpa using hab) (by simpa using hbc))
    (fun a b => by simpa using String.le_total _ _) ways
  exact hsorted.imp fun hle => by simpa using hle

theorem fileOrder_eq_self_iff :
    fileOrder ways = ways ↔ ways.Pairwise fun a b => Path.wayText a ≤ Path.wayText b := by
  constructor
  · intro h
    rw [← h]
    exact pairwise_fileOrder ways
  · intro h
    exact List.mergeSort_of_pairwise (h.imp fun hle => by simpa using hle)

theorem fileOrder_fileOrder (ways : List Location) :
    fileOrder (fileOrder ways) = fileOrder ways :=
  fileOrder_eq_self_iff.2 (pairwise_fileOrder ways)

theorem fileOrder_congr {others : List Location}
    (hsteps : ∀ way ∈ ways, ∀ s ∈ way, isStep s = true) (hnodup : ways.Nodup)
    (hnodup' : others.Nodup) (hmem : ∀ way, way ∈ ways ↔ way ∈ others) :
    fileOrder ways = fileOrder others := by
  have hperm : (fileOrder ways).Perm (fileOrder others) :=
    (List.mergeSort_perm ways _).trans
      (((List.perm_ext_iff_of_nodup hnodup hnodup').2 hmem).trans
        (List.mergeSort_perm others _).symm)
  refine hperm.eq_of_pairwise (fun a b ha hb hab hba => ?_) (pairwise_fileOrder ways)
    (pairwise_fileOrder others)
  exact Path.wayText_injective (hsteps a (mem_fileOrder.1 ha))
    (hsteps b ((hmem b).2 (mem_fileOrder.1 hb))) (String.le_antisymm hab hba)

/-- What a manifest file says about the source at a way. -/
def memberAt (root : Path) (way : Location) : String × Json :=
  (Path.wayText way, entryValue (sourceAt root (root.descend way)))

theorem sortMembers_map_memberAt (root : Path) (ways : List Location) :
    sortMembers (ways.map (memberAt root)) = (fileOrder ways).map (memberAt root) :=
  (List.map_mergeSort (f := memberAt root) (l := ways) fun _ _ _ _ => rfl).symm

/-- The value of a manifest file. -/
def fileValue (root : Path) (ways : List Location) : Json :=
  .object ((fileOrder ways).map (memberAt root))

include hways in
theorem fileText_eq :
    fileText ⟨root, sourcesAt root ways⟩ = Json.document (fileValue root ways) := by
  rw [fileText, fileValue, ← sortMembers_map_memberAt, entries, sourcesAt, List.map_map,
    List.map_map]
  refine congrArg (fun members => Json.document (.object (sortMembers members)))
    (List.map_congr_left fun way hway => ?_)
  obtain ⟨hne, hsteps⟩ := hways way hway
  have hpath : (sourceAt root (root.descend way)).path = root.descend way := rfl
  simp only [Function.comp_apply, hpath, Path.relativeTo?_descend root hsteps, Option.getD_some,
    memberAt, Path.wayText_eq_text hsteps hne]

theorem plain_entryValue (depth : Nat) (root path : Path) :
    Json.Plain (depth + 1) (entryValue (sourceAt root path)) := by
  have hnodup : ([("kind", Json.text (sourceAt root path).kind.name),
      ("tag", (sourceAt root path).tag)].map Prod.fst).Nodup := by
    simp
  refine .object (fun m hm => ?_) hnodup
  rcases List.mem_pair.1 hm with rfl | rfl
  · exact .text _ _
  · unfold sourceAt tagValue
    dsimp only
    split
    · exact .text _ _
    · exact .null _

include hways in
theorem plain_fileValue (hnodup : ways.Nodup) (depth : Nat) :
    Json.Plain (depth + 2) (fileValue root ways) := by
  refine .object (fun m hm => ?_) ?_
  · obtain ⟨way, -, rfl⟩ := List.mem_map.1 hm
    exact plain_entryValue _ root _
  · have hperm : (fileOrder ways).Perm ways := List.mergeSort_perm ways _
    rw [List.map_map]
    refine List.Nodup.map_on (fun a ha b hb heq => ?_) (hperm.nodup_iff.2 hnodup)
    exact Path.wayText_injective (hways a (mem_fileOrder.1 ha)).2 (hways b (mem_fileOrder.1 hb)).2
      heq

theorem parse_name (kind : Inclusion) : Inclusion.parse kind.name = .ok kind := by
  cases kind <;> decide

theorem sourceOf_memberAt {way : Location} (hne : way ≠ []) (hsteps : ∀ s ∈ way, isStep s = true) :
    sourceOf root (memberAt root way).1 (memberAt root way).2 =
      .ok (sourceAt root (root.descend way)) := by
  unfold memberAt entryValue sourceOf
  simp only [List.lookup_cons, beq_self_eq_true, parse_name, Path.div_wayText root hsteps hne]
  rfl

include hways in
theorem sourcesOf_fileValue :
    sourcesOf root (fileValue root ways) = .ok (sourcesAt root (fileOrder ways)) := by
  have hall : ∀ some : List Location, (∀ way ∈ some, way ∈ ways) →
      (some.map (memberAt root)).mapM (fun m => sourceOf root m.1 m.2) =
        .ok (sourcesAt root some) := by
    intro some hsome
    induction some with
    | nil => rfl
    | cons way some ih =>
        obtain ⟨hne, hsteps⟩ := hways way (hsome way (by simp))
        rw [List.map_cons, List.mapM_cons, ih fun x hx => hsome x (List.mem_cons_of_mem _ hx)]
        simp only [sourceOf_memberAt hne hsteps]
        rfl
  rw [fileValue, sourcesOf, sortMembers_map_memberAt, fileOrder_fileOrder]
  exact hall _ fun way => mem_fileOrder.1

end File

/-- Where the file of a manifest is. -/
def fileAt (base : Location) : Location :=
  base ++ [fileName]

theorem isEntryName_fileName : isEntryName fileName = true := by
  decide

/-- A file that holds the manifest of the sources at some ways. -/
def Holds (root : Path) (node : Option Node) (ways : List Location) : Prop :=
  ∃ f, node = some (.file f) ∧ f.bytes = Text.encode (Json.document (fileValue root ways))

theorem of_perform_writeManifest (ht : w.tree.WellFormed)
    (h : Disk.LeadsToDirectory root w.tree around.directory)
    (hwrite : perform (writeManifest root) around w = (.ok (), w')) :
    (root / fileName).text.utf8ByteSize ≤ pathLimit ∧
      Holds root (w'.tree.node? (fileAt (goalOf around.directory root)))
        (sourceWays w.tree (goalOf around.directory root)) ∧
      ∀ q, q ≠ fileAt (goalOf around.directory root) → w'.tree.node? q = w.tree.node? q := by
  obtain ⟨m, w₁, hscan, h₁⟩ := perform_bind_eq_ok.1 hwrite
  rw [perform_scan ht h] at hscan
  cases hscan
  obtain ⟨file, w₂, hfile, h₂⟩ := perform_bind_eq_ok.1 h₁
  obtain ⟨_, w₃, htext, h₃⟩ := perform_bind_eq_ok.1 hfile
  cases h₃
  cases h₂
  have hways : ∀ way ∈ sourceWays w.tree (goalOf around.directory root),
      way ≠ [] ∧ ∀ s ∈ way, isStep s = true := fun way hway =>
    ⟨((mem_sourceWays ht).1 hway).1.1, fun s hs =>
      isStep_of_isEntryName (((mem_sourceWays ht).1 hway).1.2.1 s hs)⟩
  obtain ⟨hfits, f, hf, hnodes⟩ := Disk.of_perform_writeBytes_child h isEntryName_fileName htext
  refine ⟨hfits, ⟨f, ?_, ?_⟩, fun q hq => ?_⟩
  · rw [hnodes, fileAt, if_pos rfl]
  · rw [hf, fileText_eq hways]
  · exact (hnodes q).trans (if_neg hq)

theorem perform_load {ways : List Location}
    (hways : ∀ way ∈ ways, way ≠ [] ∧ ∀ s ∈ way, isStep s = true) (hnodup : ways.Nodup)
    (h : Disk.LeadsToDirectory root w.tree around.directory)
    (hfits : (root / fileName).text.utf8ByteSize ≤ pathLimit)
    (hholds : Holds root (w.tree.node? (fileAt (goalOf around.directory root))) ways) :
    perform (load root) around w = (.ok ⟨root, sourcesAt root (fileOrder ways)⟩, w) := by
  obtain ⟨f, hnode, hf⟩ := hholds
  have hplain : Json.Plain around.nesting (fileValue root ways) :=
    plain_fileValue hways hnodup around.stackRoom
  have hloc := h.locate_child isEntryName_fileName hfits
  have hbytes : perform (Disk.readBytes (root / fileName)) around w = (.ok f.bytes, w) := by
    rw [Disk.readBytes, Disk.perform_ask, if_pos (h.isAskable_child isEntryName_fileName)]
    rw [fileAt] at hnode
    simp [openFile, lookup, hloc, hnode, bind, Except.bind, mapError_ok]
  have htext : perform (Disk.readText (root / fileName)) around w =
      (.ok (Json.document (fileValue root ways)), w) := by
    rw [Disk.readText, perform_bind_ok hbytes, hf, hplain.decodeFile?_document]
    rfl
  have hread : perform (readSources root) around w =
      (.ok (sourcesAt root (fileOrder ways)), w) := by
    have hvalue : perform (Json.ofText (Json.document (fileValue root ways))) around w =
        (.ok (fileValue root ways), w) := by
      rw [Json.perform_ofText, Json.parse_document hplain]
      rfl
    rw [readSources, perform_bind_ok htext, perform_bind_ok hvalue, sourcesOf_fileValue hways,
      perform_ofExcept_id]
  unfold load
  rw [perform_bind, perform_outcome, hread]
  rfl

end StagedBuild.NativeLibrary.Manifest
