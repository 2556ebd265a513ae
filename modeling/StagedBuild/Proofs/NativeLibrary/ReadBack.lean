import Mathlib.Data.List.Pairwise
import StagedBuild.Proofs.NativeLibrary.Scanned
import StagedBuild.Proofs.NativeLibrary.Selection
import StagedBuild.Proofs.Path.Order

/-!
Manifests that are read back. The file of a manifest names the sources in the order of their texts,
and a scan lists them in the order of their steps. So a manifest that is read back has the sources
that were scanned, and it has them in another order as soon as the way to one overtakes the way to
another. One that is made anew has the order of the scan in any case.
-/

namespace StagedBuild.NativeLibrary

open Action FileTree Disk Manifest Path

variable {around : Surroundings} {w w' : World} {root : Path} {t t' : FileTree}
  {ways : List Location} {m loaded : Manifest} {cwd : Location}

/-- No source of a list overtakes another one. -/
def KeepsOrder (sources : List Source) : Prop :=
  ∀ s ∈ sources, ∀ s' ∈ sources, ¬ Overtaken s.path.steps s'.path.steps

section Order

theorem InOrder.eq_of_mem_iff {others : List Location} (h : InOrder ways) (h' : InOrder others)
    (hmem : ∀ way, way ∈ ways ↔ way ∈ others) : ways = others := by
  have hperm := (List.perm_ext_iff_of_nodup h.nodup h'.nodup).2 hmem
  refine hperm.eq_of_pairwise (fun a b _ _ hab hba => ?_) h h'
  rw [show compare a b = (compare b a).swap from Std.OrientedCmp.eq_swap, hba] at hab
  cases hab

variable (hsteps : ∀ way ∈ ways, ∀ s ∈ way, isStep s = true)

include hsteps in
/-- Ways in the order of their steps are in the order of their texts when none overtakes another. -/
theorem fileOrder_eq_self_iff_not_overtaken (h : InOrder ways) :
    fileOrder ways = ways ↔ ∀ a ∈ ways, ∀ b ∈ ways, ¬ Overtaken a b := by
  rw [fileOrder_eq_self_iff]
  constructor
  · intro hsorted
    have hnot : ways.Pairwise fun a b => ¬ Overtaken a b := by
      refine (hsorted.and h).imp_of_mem fun {a b} _ hb ⟨hle, hlt⟩ hab => ?_
      exact hle ((wayText_lt_iff (hsteps b hb) hlt).2 hab)
    have hnot' : ways.Pairwise (flip fun a b => ¬ Overtaken a b) :=
      List.Pairwise.imp Overtaken.not_of_compare h
    exact List.Pairwise.forall_of_forall_of_flip (fun a _ => Overtaken.not_self a) hnot hnot'
  · intro hnot
    refine List.Pairwise.imp_of_mem (fun {a b} ha hb hlt => ?_) h
    exact fun hbefore => hnot a ha b hb ((wayText_lt_iff (hsteps b hb) hlt).1 hbefore)

include hsteps in
theorem filter_fileOrder (hnodup : ways.Nodup) (p : Location → Bool) :
    (fileOrder ways).filter p = fileOrder (ways.filter p) := by
  have hsorted : fileOrder ((fileOrder ways).filter p) = (fileOrder ways).filter p :=
    fileOrder_eq_self_iff.2 ((pairwise_fileOrder ways).filter p)
  rw [← hsorted]
  refine fileOrder_congr (fun way hway => ?_) ?_ (hnodup.filter p) fun way => ?_
  · exact hsteps way (mem_fileOrder.1 (List.mem_filter.1 hway).1)
  · exact ((List.mergeSort_perm ways _).nodup_iff.2 hnodup).filter p
  · rw [List.mem_filter, List.mem_filter, mem_fileOrder]

end Order

section Sources

theorem map_eq_map_iff {α β : Type} {f : α → β} {xs ys : List α}
    (hinj : ∀ x ∈ xs, ∀ y ∈ ys, f x = f y → x = y) : xs.map f = ys.map f ↔ xs = ys := by
  constructor
  · intro h
    induction xs generalizing ys with
    | nil => exact (List.map_eq_nil_iff.1 h.symm).symm
    | cons x xs ih =>
        cases ys with
        | nil => cases h
        | cons y ys =>
            rw [List.map_cons, List.map_cons, List.cons.injEq] at h
            rw [hinj x (by simp) y (by simp) h.1,
              ih (fun x hx y hy => hinj x (by simp [hx]) y (by simp [hy])) h.2]
  · rintro rfl
    rfl

theorem sourcesAt_eq_iff {others : List Location} (h : IsListing ways) (h' : IsListing others) :
    sourcesAt root ways = sourcesAt root others ↔ ways = others :=
  map_eq_map_iff fun a ha b hb heq =>
    descend_injective (h.steps a ha).2 (h'.steps b hb).2 (congrArg Source.path heq)

theorem objectPaths_eq_iff {others : List Location} (h : IsListing ways)
    (h' : IsListing others) :
    (sourcesAt root ways).map Source.objectPath = (sourcesAt root others).map Source.objectPath ↔
      ways = others := by
  rw [sourcesAt, sourcesAt, List.map_map, List.map_map]
  refine map_eq_map_iff fun a ha b hb heq => ?_
  have hsource := h.isSourceWay a ha
  have hsource' := h'.isSourceWay b hb
  rw [Function.comp_apply, Function.comp_apply, objectPath_sourceAt hsource,
    objectPath_sourceAt hsource'] at heq
  exact objectWay_injective hsource.1 hsource'.1 (descend_injective
    (isStep_objectWay (h.steps a ha).2 hsource.1) (isStep_objectWay (h'.steps b hb).2 hsource'.1)
    heq)

theorem keepsOrder_sourcesAt (h : IsListing ways) :
    KeepsOrder (sourcesAt root ways) ↔ ∀ a ∈ ways, ∀ b ∈ ways, ¬ Overtaken a b := by
  have hsteps : ∀ way ∈ ways,
      (sourceAt root (root.descend way)).path.steps = root.steps ++ way :=
    fun way hway => steps_descend root (h.steps way hway).2
  simp only [KeepsOrder, sourcesAt, List.forall_mem_map]
  refine forall₄_congr fun a ha b hb => ?_
  rw [hsteps a ha, hsteps b hb, Overtaken.append_iff]

theorem entries_sourcesAt (h : IsListing ways) :
    (⟨root, sourcesAt root ways⟩ : Manifest).entries.map Prod.fst = ways.map wayText := by
  rw [Manifest.entries, sourcesAt, List.map_map, List.map_map]
  refine List.map_congr_left fun way hway => ?_
  obtain ⟨hne, hsteps⟩ := h.steps way hway
  change (((root.descend way).relativeTo? root).getD (root.descend way)).text = _
  rw [relativeTo?_descend root hsteps, Option.getD_some, wayText_eq_text hsteps hne]

end Sources

/-- What reading back gives of a manifest that was scanned: the same sources, in the order of their
names in the file. -/
structure ReadBackOf (m loaded : Manifest) : Prop where
  root : loaded.root = m.root
  sources : loaded.sources.Perm m.sources
  sorted : (loaded.entries.map Prod.fst).Pairwise (· ≤ ·)
  eq_iff : loaded = m ↔ KeepsOrder m.sources
  selected : ∀ gc links, ∃ included excluded included' excluded',
    m.select gc links = .ok (included, excluded) ∧
      loaded.select gc links = .ok (included', excluded') ∧
      included'.Perm included ∧ excluded'.Perm excluded ∧
      (included'.map Source.objectPath = included.map Source.objectPath ↔ KeepsOrder included)

theorem readBackOf_fileOrder (h : IsListing ways) (horder : InOrder ways) :
    ReadBackOf ⟨root, sourcesAt root ways⟩ ⟨root, sourcesAt root (fileOrder ways)⟩ where
  root := rfl
  sources := (List.mergeSort_perm ways _).map _
  sorted := by
    rw [entries_sourcesAt h.fileOrder, List.pairwise_map]
    exact pairwise_fileOrder ways
  eq_iff := by
    rw [Manifest.mk.injEq, sourcesAt_eq_iff h.fileOrder h, keepsOrder_sourcesAt h,
      fileOrder_eq_self_iff_not_overtaken (fun way hway => (h.steps way hway).2) horder]
    simp
  selected gc links := by
    have hsteps : ∀ way ∈ ways, ∀ s ∈ way, isStep s = true := fun way hway =>
      (h.steps way hway).2
    have hperm : ∀ some : List Location,
        (sourcesAt root (fileOrder some)).Perm (sourcesAt root some) := fun some =>
      (List.mergeSort_perm some _).map _
    have hneeded := h.filter (isNeededAt root gc links)
    refine ⟨_, _, _, _, select_ways root gc links ways, select_ways root gc links _, ?_⟩
    rw [filter_fileOrder hsteps h.nodup, filter_fileOrder hsteps h.nodup]
    refine ⟨hperm _, hperm _, ?_⟩
    rw [objectPaths_eq_iff hneeded.fileOrder hneeded, keepsOrder_sourcesAt hneeded,
      fileOrder_eq_self_iff_not_overtaken (fun way hway => (hneeded.steps way hway).2)
        (horder.filter _)]

section Written

theorem append_ne_fileAt {base way : Location} (h : isSourceName (nameOf way)) (hne : way ≠ []) :
    base ++ way ≠ fileAt base := by
  intro heq
  obtain rfl : way = [fileName] := List.append_cancel_left heq
  exact absurd h (by decide)

theorem sourceWays_congr {base : Location} (ht : t.WellFormed) (ht' : t'.WellFormed)
    (hsame : ∀ q, q ≠ fileAt base → t'.node? q = t.node? q) :
    sourceWays t' base = sourceWays t base := by
  refine (inOrder_sourceWays t' base).eq_of_mem_iff (inOrder_sourceWays t base) fun way => ?_
  rw [mem_sourceWays_iff ht, mem_sourceWays_iff ht']
  refine and_congr_right fun hne => and_congr_left fun hname => ?_
  rw [isFile_congr (hsame _ (append_ne_fileAt hname hne))]

theorem leads_of_same (hroot : LeadsToDirectory root t cwd)
    (hnot : ¬ t.isDirectory (fileAt (goalOf cwd root)) = true)
    (hsame : ∀ q, q ≠ fileAt (goalOf cwd root) → t'.node? q = t.node? q) :
    LeadsToDirectory root t' cwd := by
  refine hroot.mono fun loc hloc => ?_
  have hne : loc ≠ fileAt (goalOf cwd root) := by
    rintro rfl
    exact hnot hloc
  rw [isDirectory_congr (hsame loc hne)]
  exact hloc

theorem of_perform_write {file : Path} (hleads : LeadsToDirectory root w.tree around.directory)
    (hways : IsListing ways)
    (hwrite : perform (Manifest.write ⟨root, sourcesAt root ways⟩) around w = (.ok file, w')) :
    (root / fileName).text.utf8ByteSize ≤ pathLimit ∧
      Holds root (w'.tree.node? (fileAt (goalOf around.directory root))) ways ∧
      (∀ q, q ≠ fileAt (goalOf around.directory root) → w'.tree.node? q = w.tree.node? q) ∧
      ¬ w.tree.isDirectory (fileAt (goalOf around.directory root)) = true := by
  obtain ⟨_, v, htext, hpure⟩ := perform_bind_eq_ok.1 hwrite
  cases hpure
  obtain ⟨hfits, f, hf, hnodes⟩ := of_perform_writeBytes_child hleads isEntryName_fileName htext
  refine ⟨hfits, ⟨f, ?_, ?_⟩, fun q hq => (hnodes q).trans (if_neg hq), fun hdir => ?_⟩
  · rw [hnodes, fileAt, if_pos rfl]
  · rw [hf, fileText_eq hways.steps]
  · rcases perform_writeBytes (hleads.isAskable_child isEntryName_fileName)
      (hleads.locate_child isEntryName_fileName hfits) _ with ⟨-, herror⟩ | ⟨hnot, -⟩
    · rw [writeText, herror] at htext
      cases htext
    · exact hnot hdir

section Free

/- The file of the manifest can be written. -/
variable (hleads : LeadsToDirectory root w.tree around.directory)
  (hfits : (root / fileName).text.utf8ByteSize ≤ pathLimit)
  (hnot : ¬ w.tree.isDirectory (fileAt (goalOf around.directory root)) = true)

include hleads hfits hnot

theorem perform_write_of_free (sources : List Source) :
    ∃ w', perform (Manifest.write ⟨root, sources⟩) around w = (.ok (root / fileName), w') := by
  rcases perform_writeBytes (hleads.isAskable_child isEntryName_fileName)
      (hleads.locate_child isEntryName_fileName hfits)
      (Text.encode (fileText ⟨root, sources⟩)) with ⟨hdir, -⟩ | ⟨-, w', f, hok, -⟩
  · exact absurd hdir hnot
  · exact ⟨w', perform_bind_ok hok⟩

/-- A manifest that cannot be read is made anew from the sources that are there. -/
theorem perform_load_of_unreadable {fault : Fault} (hw : w.tree.WellFormed)
    (hread : perform (readSources root) around w = (.error fault, w))
    (hrepair : isRepairable fault = true) :
    ∃ w', perform (load root) around w =
      (.ok ⟨root, sourcesAt root (sourceWays w.tree (goalOf around.directory root))⟩, w') := by
  obtain ⟨w', hwrite⟩ := perform_write_of_free hleads hfits hnot
    (sourcesAt root (sourceWays w.tree (goalOf around.directory root)))
  refine ⟨w', ?_⟩
  unfold load
  rw [perform_bind, perform_outcome, hread]
  dsimp only
  rw [if_pos hrepair, perform_bind_ok (perform_scan hw hleads), perform_bind_ok hwrite]
  rfl

end Free

end Written

/-- A manifest that was written after a scan is read back with the sources that were scanned, in the
order of their names; it is the manifest of the scan exactly when no source overtakes another. A
manifest that cannot be read and is made anew is the one of the scan. -/
theorem load_of_write {file : Path} (hwf : w.tree.WellFormed)
    (hroot : LeadsToDirectory root w.tree around.directory)
    (hscan : perform (scan root) around w = (.ok m, w))
    (hwrite : perform m.write around w = (.ok file, w')) :
    (∃ loaded, perform (load root) around w' = (.ok loaded, w') ∧ ReadBackOf m loaded) ∧
      ∀ (v : World) fault, v.tree.WellFormed →
        SameOutside (· = fileAt (goalOf around.directory root)) w v →
        ¬ v.tree.isDirectory (fileAt (goalOf around.directory root)) = true →
        perform (readSources root) around v = (.error fault, v) → isRepairable fault = true →
        ∃ v', perform (load root) around v = (.ok m, v') := by
  rw [perform_scan hwf hroot] at hscan
  cases hscan
  have hways := IsListing.sourceWays hwf (goalOf around.directory root)
  obtain ⟨hfits, hholds, hsame, hnot⟩ := of_perform_write hroot hways hwrite
  refine ⟨⟨_, ?_, readBackOf_fileOrder hways (inOrder_sourceWays _ _)⟩,
    fun v fault hv hsame' hnot' hread hrepair => ?_⟩
  · exact perform_load hways.steps hways.nodup (leads_of_same hroot hnot hsame) hfits hholds
  · have hleads := leads_of_same hroot hnot hsame'
    rw [← sourceWays_congr hwf hv hsame']
    exact perform_load_of_unreadable hleads hfits hnot' hv hread hrepair

section Sample

/-- A library in which the file `a.c` overtakes a source below the directory `a`. -/
def overtakingLibrary : FileTree :=
  let t := (FileTree.empty.add ["lib"] .directory).add ["lib", "a"] .directory
  (t.writeFile ["lib", "a.c"] []).writeFile ["lib", "a", "x.c"] []

theorem wellFormed_overtakingLibrary : overtakingLibrary.WellFormed := by
  decide

theorem sourceWays_overtakingLibrary :
    sourceWays overtakingLibrary ["lib"] = [["a", "x.c"], ["a.c"]] := by
  decide

theorem write_overtakingLibrary (sources : List Source) :
    ∃ w', perform (Manifest.write ⟨Path.parse "/lib", sources⟩) (.still [])
      (.ofTree overtakingLibrary) =
      (.ok (Path.parse "/lib" / fileName), w') := by
  have hroot : LeadsToDirectory (.parse "/lib") (World.ofTree overtakingLibrary).tree
      (Surroundings.still []).directory := rfl
  exact perform_write_of_free hroot (by decide) (by decide) sources

/-- What was scanned in front of `a.c` comes after it when it is read back, and so does its object.
-/
theorem load_reorders :
    ∃ m file w' loaded,
      perform (scan (.parse "/lib")) (.still []) (.ofTree overtakingLibrary) =
        (.ok m, .ofTree overtakingLibrary) ∧
      perform m.write (.still []) (.ofTree overtakingLibrary) = (.ok file, w') ∧
      perform (load (.parse "/lib")) (.still []) w' = (.ok loaded, w') ∧
      m.sources.map (·.path.text) = ["/lib/a/x.c", "/lib/a.c"] ∧
      loaded.sources.map (·.path.text) = ["/lib/a.c", "/lib/a/x.c"] ∧
      m.sources.map (·.objectPath.text) = ["/lib/a/x.c.o", "/lib/a.c.o"] ∧
      loaded.sources.map (·.objectPath.text) = ["/lib/a.c.o", "/lib/a/x.c.o"] := by
  have hroot : LeadsToDirectory (.parse "/lib") (World.ofTree overtakingLibrary).tree
      (Surroundings.still []).directory := rfl
  have hways := IsListing.sourceWays wellFormed_overtakingLibrary ["lib"]
  have horder : fileOrder (sourceWays overtakingLibrary ["lib"]) = [["a.c"], ["a", "x.c"]] := by
    have hsorted : fileOrder [["a.c"], ["a", "x.c"]] = [["a.c"], ["a", "x.c"]] :=
      fileOrder_eq_self_iff.2 (by decide)
    rw [← hsorted]
    refine fileOrder_congr (fun way hway => (hways.steps way hway).2) hways.nodup (by decide) ?_
    rw [sourceWays_overtakingLibrary]
    simp [or_comm]
  obtain ⟨w', hwrite⟩ := write_overtakingLibrary
    (sourcesAt (.parse "/lib") (sourceWays overtakingLibrary ["lib"]))
  obtain ⟨hfits, hholds, hsame, hnot⟩ := of_perform_write hroot hways hwrite
  refine ⟨_, _, w', _, perform_scan wellFormed_overtakingLibrary hroot, hwrite,
    perform_load hways.steps hways.nodup (leads_of_same hroot hnot hsame) hfits hholds, ?_, ?_, ?_,
    ?_⟩
  · change (sourcesAt _ (sourceWays overtakingLibrary ["lib"])).map _ = _
    rw [sourceWays_overtakingLibrary]
    decide +kernel
  · rw [horder]
    decide +kernel
  · change (sourcesAt _ (sourceWays overtakingLibrary ["lib"])).map _ = _
    rw [sourceWays_overtakingLibrary]
    decide +kernel
  · rw [horder]
    decide +kernel

/-- A source of the sample is overtaken, so its manifest is not read back as it was written. When it
is made anew it is the one of the scan. -/
theorem load_of_write_overtaking :
    ∃ m, perform (scan (.parse "/lib")) (.still []) (.ofTree overtakingLibrary) =
        (.ok m, .ofTree overtakingLibrary) ∧
      (∃ w' loaded, perform (load (.parse "/lib")) (.still []) w' = (.ok loaded, w') ∧
        ReadBackOf m loaded ∧ loaded ≠ m) ∧
      ∃ w', perform (load (.parse "/lib")) (.still []) (.ofTree overtakingLibrary) =
        (.ok m, w') := by
  have hroot : LeadsToDirectory (.parse "/lib") (World.ofTree overtakingLibrary).tree
      (Surroundings.still []).directory := rfl
  have hscan := perform_scan wellFormed_overtakingLibrary hroot
  obtain ⟨w', hwrite⟩ := write_overtakingLibrary
    (sourcesAt (.parse "/lib") (sourceWays overtakingLibrary ["lib"]))
  obtain ⟨⟨loaded, hload, hback⟩, hanew⟩ :=
    load_of_write wellFormed_overtakingLibrary hroot hscan hwrite
  refine ⟨_, hscan, ⟨w', loaded, hload, hback, fun heq => ?_⟩, ?_⟩
  · have hways := IsListing.sourceWays wellFormed_overtakingLibrary ["lib"]
    have hkept := (keepsOrder_sourcesAt hways).1 (hback.eq_iff.1 heq)
    have hlonger : "a.c".toList = "a".toList ++ '.' :: ['c'] := rfl
    rw [sourceWays_overtakingLibrary] at hkept
    exact hkept ["a", "x.c"] (by simp) ["a.c"] (by simp) (.here hlonger (by decide))
  · exact hanew (.ofTree overtakingLibrary) (.system (.on .noEntry "/lib/sources.json"))
      wellFormed_overtakingLibrary (fun _ _ => rfl) (by decide +kernel) rfl rfl

end Sample

end StagedBuild.NativeLibrary
