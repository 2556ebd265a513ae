import StagedBuild.Proofs.Action.Spares
import StagedBuild.Proofs.Archive.Local
import StagedBuild.Proofs.NativeLibrary.Filling
import StagedBuild.Proofs.NativeLibrary.Preparation

/-!
Manifests that were written after a scan. Where the file of the manifest comes from a scan, the
manifest that unpacking gives lists sources below the library, each once, whether the file is read
or made anew.
-/

namespace StagedBuild.NativeLibrary

open Action FileTree Disk Manifest

variable {around : Surroundings} {w w' : World} {lib : Path} {t t' : FileTree}
  {ways : List Location} {base dir : Location}

/-- Ways to sources, each once. -/
structure IsListing (ways : List Location) : Prop where
  isSourceWay : ∀ way ∈ ways, IsSourceWay way
  nodup : ways.Nodup

namespace IsListing

theorem steps (h : IsListing ways) : ∀ way ∈ ways, way ≠ [] ∧ ∀ s ∈ way, isStep s = true := by
  intro way hway
  obtain ⟨hne, hnames, -⟩ := h.isSourceWay way hway
  exact ⟨hne, fun s hs => isStep_of_isEntryName (hnames s hs)⟩

theorem fileOrder (h : IsListing ways) : IsListing (fileOrder ways) where
  isSourceWay way hway := h.isSourceWay way (mem_fileOrder.1 hway)
  nodup := (List.mergeSort_perm ways _).nodup_iff.2 h.nodup

theorem filter (h : IsListing ways) (keep : Location → Bool) : IsListing (ways.filter keep) where
  isSourceWay way hway := h.isSourceWay way (List.mem_of_mem_filter hway)
  nodup := h.nodup.filter keep

theorem sourceWays (ht : t.WellFormed) (base : Location) : IsListing (sourceWays t base) where
  isSourceWay _ hway := ((mem_sourceWays ht).1 hway).1
  nodup := sourceWays_nodup t base

end IsListing

/-- The file of the manifest, if there is one, was written after a scan. -/
def Scanned (lib : Path) (base : Location) (t : FileTree) : Prop :=
  ∀ f, t.node? (fileAt base) = some (.file f) →
    ∃ ways, IsListing ways ∧ f.bytes = Text.encode (Json.document (fileValue lib ways))

namespace Scanned

theorem of_file (h : Scanned lib base t)
    (hfile : ∀ f, t'.node? (fileAt base) = some (.file f) →
      t.node? (fileAt base) = some (.file f)) :
    Scanned lib base t' :=
  fun f hf => h f (hfile f hf)

theorem of_spares {touched : Location → Prop} (h : Scanned lib base t)
    (hspares : Spares touched t t') (hnot : ¬ touched (fileAt base)) : Scanned lib base t' :=
  h.of_file fun _ hf => hspares.node?_of_file hnot hf

theorem of_gone {gone : Location} (h : Scanned lib base t) (hgone : Gone gone t t') :
    Scanned lib base t' := by
  refine h.of_file fun f hf => ?_
  rcases hgone (fileAt base) with heq | ⟨-, hnone⟩
  · rw [← heq, hf]
  · rw [hnone] at hf
    cases hf

end Scanned

theorem of_perform_scan {m : Manifest} (hw : w.tree.WellFormed)
    (h : perform (scan lib) around w = (.ok m, w')) :
    w' = w ∧ ∃ ways, IsListing ways ∧ m = ⟨lib, sourcesAt lib ways⟩ := by
  have hreadOnly := readOnly_scan lib around w
  rw [h] at hreadOnly
  obtain rfl : w' = w := hreadOnly
  refine ⟨rfl, ?_⟩
  by_cases hdir : perform (isDirectory lib) around w' = (.ok true, w')
  · obtain ⟨-, hleads⟩ := leads_of_isDirectory hdir
    rw [perform_scan hw hleads] at h
    cases h
    exact ⟨_, .sourceWays hw _, rfl⟩
  · -- without a directory nothing is listed
    obtain ⟨entries, v, hentries, hm⟩ := perform_bind_eq_ok.1 h
    unfold entriesBelow at hentries
    obtain ⟨there, u, hthere, hrest⟩ := perform_bind_eq_ok.1 hentries
    have hu : u = w' := by
      have := readOnly_isDirectory lib around w'
      rwa [hthere] at this
    subst hu
    cases there with
    | true => exact absurd hthere hdir
    | false =>
        cases hrest
        cases hm
        exact ⟨[], ⟨by simp, List.nodup_nil⟩, rfl⟩

theorem scanned_of_write (lib : Path) (hways : IsListing ways) (around : Surroundings) (w : World) :
    (∃ fault, perform (Manifest.write ⟨lib, sourcesAt lib ways⟩) around w = (.error fault, w)) ∨
      ∃ file w', perform (Manifest.write ⟨lib, sourcesAt lib ways⟩) around w = (.ok file, w') ∧
        Scanned lib (goalOf around.directory lib) w'.tree := by
  unfold Manifest.write
  rcases hwrite : perform (writeText (lib / fileName)
    (fileText ⟨lib, sourcesAt lib ways⟩)) around w with ⟨fault | _, v⟩
  · obtain rfl := perform_writeBytes_error hwrite
    exact .inl ⟨fault, perform_bind_error hwrite⟩
  · refine .inr ⟨_, v, perform_bind_ok hwrite, fun f hf => ⟨ways, hways, ?_⟩⟩
    obtain ⟨g, hg, hnodes⟩ := of_perform_writeBytes hwrite
    rw [hnodes, goalOf_child _ _ isEntryName_fileName, fileAt, if_pos rfl] at hf
    cases hf
    rw [hg, fileText_eq hways.steps]

/-- However writing the manifest of a new copy ends, a manifest that was scanned is followed by one
that was scanned. When it succeeds there is one in any case. -/
theorem scanned_of_writeManifest (lib : Path) (hw : w.tree.WellFormed)
    (around : Surroundings) :
    (∃ fault, perform (writeManifest lib) around w = (.error fault, w)) ∨
      ∃ w', perform (writeManifest lib) around w = (.ok (), w') ∧
        Scanned lib (goalOf around.directory lib) w'.tree := by
  unfold writeManifest
  have hreadOnly := readOnly_scan lib around w
  rcases hscan : perform (scan lib) around w with ⟨fault | m, v⟩
  · rw [hscan] at hreadOnly
    obtain rfl : v = w := hreadOnly
    exact .inl ⟨fault, perform_bind_error hscan⟩
  · obtain ⟨rfl, ways, hways, rfl⟩ := of_perform_scan hw hscan
    rw [perform_bind_ok hscan]
    rcases scanned_of_write lib hways around v with
      ⟨fault, hfault⟩ | ⟨file, w', hok, hscanned⟩
    · exact .inl ⟨fault, perform_bind_error hfault⟩
    · exact .inr ⟨w', (perform_bind_ok hok).trans rfl, hscanned⟩

theorem of_perform_readSources {sources : List Source}
    (hscanned : Scanned lib (goalOf around.directory lib) w.tree)
    (h : perform (readSources lib) around w = (.ok sources, w')) :
    ∃ ways, IsListing ways ∧ sources = sourcesAt lib ways := by
  obtain ⟨text, v, htext, hrest⟩ := perform_bind_eq_ok.1 h
  obtain ⟨bytes, u, hbytes, hdecode⟩ := perform_bind_eq_ok.1 htext
  rw [perform_readBytes] at hbytes
  obtain ⟨hread, rfl⟩ := Prod.mk.inj hbytes
  obtain ⟨-, -, f, hnode, hf⟩ := bytesAt_eq_ok_iff.1 hread
  rw [goalOf_child _ _ isEntryName_fileName] at hnode
  obtain ⟨ways, hways, hmanifest⟩ := hscanned f hnode
  have hplain : Json.Plain around.nesting (fileValue lib ways) :=
    plain_fileValue hways.steps hways.nodup around.stackRoom
  rw [← hf, hmanifest, hplain.decodeFile?_document] at hdecode
  cases hdecode
  obtain ⟨value, u, hvalue, hsources⟩ := perform_bind_eq_ok.1 hrest
  rw [Json.perform_ofText, Json.parse_document hplain] at hvalue
  cases hvalue
  rw [sourcesOf_fileValue hways.steps, perform_ofExcept_id] at hsources
  cases hsources
  exact ⟨_, hways.fileOrder, rfl⟩

theorem of_perform_load {outcome : Except Fault Manifest} (hw : w.tree.WellFormed)
    (hscanned : Scanned lib (goalOf around.directory lib) w.tree)
    (h : perform (load lib) around w = (outcome, w')) :
    Scanned lib (goalOf around.directory lib) w'.tree ∧
      ∀ m, outcome = .ok m → ∃ ways, IsListing ways ∧ m = ⟨lib, sourcesAt lib ways⟩ := by
  unfold load at h
  have hreadOnly := readOnly_readSources lib around w
  rw [perform_bind, perform_outcome] at h
  rcases hread : perform (readSources lib) around w with ⟨fault | sources, v⟩
  · rw [hread] at h hreadOnly
    obtain rfl : v = w := hreadOnly
    dsimp only at h
    by_cases hrepair : isRepairable fault = true
    · rw [if_pos hrepair] at h
      have hscanOnly := readOnly_scan lib around v
      rcases hscan : perform (scan lib) around v with ⟨fault | m, u⟩
      · rw [hscan] at hscanOnly
        obtain rfl : u = v := hscanOnly
        rw [perform_bind_error hscan] at h
        cases h
        exact ⟨hscanned, nofun⟩
      · obtain ⟨rfl, ways, hways, rfl⟩ := of_perform_scan hw hscan
        rw [perform_bind_ok hscan] at h
        rcases scanned_of_write lib hways around u with
          ⟨fault, hfault⟩ | ⟨file, u', hok, hscanned'⟩
        · rw [perform_bind_error hfault] at h
          cases h
          exact ⟨hscanned, nofun⟩
        · rw [perform_bind_ok hok] at h
          cases h
          refine ⟨hscanned', ?_⟩
          rintro m ⟨⟩
          exact ⟨ways, hways, rfl⟩
    · rw [if_neg hrepair] at h
      cases h
      exact ⟨hscanned, nofun⟩
  · rw [hread] at h hreadOnly
    obtain rfl : v = w := hreadOnly
    cases h
    refine ⟨hscanned, ?_⟩
    rintro m ⟨⟩
    obtain ⟨ways, hways, rfl⟩ := of_perform_readSources hscanned hread
    exact ⟨ways, hways, rfl⟩

end StagedBuild.NativeLibrary
