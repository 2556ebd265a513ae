import StagedBuild.Proofs.NativeLibrary.ReadBack
import StagedBuild.Proofs.NativeLibrary.Unusable

/-!
Manifest files with any content. A file that describes sources is taken as it is, and one that
cannot be understood is made anew. Two kinds of files slip through: a file that holds a JSON value
other than an object ends loading, and a tag that is an array or an object is taken over and ends
the selection.
-/

namespace StagedBuild.NativeLibrary

open Action FileTree Disk Manifest

variable {around : Surroundings} {w w' : World} {root : Path} {t : FileTree} {base : Location}
  {members : List (String × Json)} {sources : List Source} {value : Json} {fault : Fault}
  {depth : Nat}

section MapM

variable {α β : Type} {f : α → Except Fault β} {xs : List α} {ys : List β}

theorem mapM_eq_ok_iff : xs.mapM f = .ok ys ↔ List.Forall₂ (fun x y => f x = .ok y) xs ys := by
  induction xs generalizing ys with
  | nil =>
      rw [List.mapM_nil, List.forall₂_nil_left_iff]
      exact ⟨fun h => (Except.ok.inj h).symm, fun h => congrArg Except.ok h.symm⟩
  | cons x xs ih =>
      rw [List.mapM_cons]
      rcases hx : f x with fault | y
      · refine ⟨nofun, fun h => ?_⟩
        obtain ⟨y, _, hy, -, -⟩ := List.forall₂_cons_left_iff.1 h
        rw [hx] at hy
        cases hy
      · rcases hxs : xs.mapM f with fault | zs
        · refine ⟨nofun, fun h => ?_⟩
          obtain ⟨_, _, -, hrest, -⟩ := List.forall₂_cons_left_iff.1 h
          rw [ih.2 hrest] at hxs
          cases hxs
        · constructor
          · rintro ⟨⟩
            exact .cons hx (ih.1 hxs)
          · intro h
            obtain ⟨y', ys', hy, hrest, rfl⟩ := List.forall₂_cons_left_iff.1 h
            rw [hx] at hy
            rw [ih.2 hrest] at hxs
            cases hy
            cases hxs
            rfl

theorem exists_ok_mapM_iff : (∃ ys, xs.mapM f = .ok ys) ↔ ∀ x ∈ xs, ∃ y, f x = .ok y := by
  induction xs with
  | nil => exact ⟨fun _ => by simp, fun _ => ⟨[], rfl⟩⟩
  | cons x xs ih =>
      rw [List.forall_mem_cons, ← ih]
      constructor
      · rintro ⟨ys, hys⟩
        obtain ⟨y, zs, hy, hzs, -⟩ := List.forall₂_cons_left_iff.1 (mapM_eq_ok_iff.1 hys)
        exact ⟨⟨y, hy⟩, zs, mapM_eq_ok_iff.2 hzs⟩
      · rintro ⟨⟨y, hy⟩, zs, hzs⟩
        exact ⟨y :: zs, mapM_eq_ok_iff.2 (.cons hy (mapM_eq_ok_iff.1 hzs))⟩

end MapM

section Content

/-- A member of a manifest file describes a source: an object with a kind that there is. The source
has the tag of the object, or null when the object has none. -/
inductive Describes (root : Path) : String × Json → Source → Prop
  | entry {name : String} {members : List (String × Json)} {kind : Inclusion}
      (hkind : members.lookup "kind" = some (.text kind.name)) :
      Describes root (name, .object members) ⟨root / name, kind, (members.lookup "tag").getD .null⟩

/-- The members of an object describe sources, which are listed in the order of their names. -/
def DescribeAll (root : Path) (members : List (String × Json)) (sources : List Source) : Prop :=
  List.Forall₂ (Describes root) (sortMembers members) sources

/-- What reading the manifest file as JSON of some depth gives, when there is a file that holds
text. -/
def FileReads (depth : Nat) (t : FileTree) (base : Location)
    (result : Except Json.ReadFault Json) : Prop :=
  ∃ bytes text, t.bytes? (fileAt base) = some bytes ∧ Text.decodeFile? bytes = some text ∧
    Json.parse depth text = result

def FileDescribes (depth : Nat) (root : Path) (t : FileTree) (base : Location)
    (sources : List Source) : Prop :=
  ∃ members, FileReads depth t base (.ok (.object members)) ∧ DescribeAll root members sources

theorem parse_eq_ok_iff {name : String} {kind : Inclusion} :
    Inclusion.parse name = .ok kind ↔ name = kind.name := by
  constructor
  · intro h
    unfold Inclusion.parse at h
    split at h
    · rename_i found hfound
      cases h
      have hname := List.find?_some hfound
      exact (beq_iff_eq.1 hname).symm
    · cases h
  · rintro rfl
    exact parse_name kind

theorem sourceOf_eq_ok_iff {name : String} {entry : Json} {s : Source} :
    sourceOf root name entry = .ok s ↔ Describes root (name, entry) s := by
  constructor
  · intro h
    unfold sourceOf at h
    split at h
    · split at h
      · cases h
      · rename_i hlookup
        split at h
        · rename_i hparse
          cases h
          rw [parse_eq_ok_iff.1 hparse] at hlookup
          exact .entry hlookup
        · cases h
      · cases h
    · cases h
  · rintro ⟨hkind⟩
    unfold sourceOf
    simp only [hkind, parse_name]
    rfl

theorem sourcesOf_object_eq_ok_iff :
    sourcesOf root (.object members) = .ok sources ↔ DescribeAll root members sources := by
  rw [sourcesOf, mapM_eq_ok_iff, DescribeAll]
  exact iff_of_eq (congrArg (List.Forall₂ · _ _) (funext₂ fun m s => propext sourceOf_eq_ok_iff))

theorem sourcesOf_of_not_object (h : ∀ members, value ≠ .object members) :
    sourcesOf root value = .error .noAttribute := by
  unfold sourcesOf
  split
  · exact absurd rfl (h _)
  · rfl

end Content

section Loading

variable (hleads : LeadsToDirectory root w.tree around.directory)
  (hfits : (root / fileName).text.utf8ByteSize ≤ pathLimit)

theorem FileReads.unique {result result' : Except Json.ReadFault Json}
    (h : FileReads depth t base result) (h' : FileReads depth t base result') :
      result = result' := by
  obtain ⟨bytes, text, hbytes, htext, rfl⟩ := h
  obtain ⟨bytes', text', hbytes', htext', rfl⟩ := h'
  obtain rfl := Option.some.inj (hbytes.symm.trans hbytes')
  obtain rfl := Option.some.inj (htext.symm.trans htext')
  rfl

include hleads hfits in
theorem perform_readSources_of_reads {result : Except Json.ReadFault Json}
    (h : FileReads around.nesting w.tree (goalOf around.directory root) result) :
    perform (readSources root) around w =
      ((result.mapError Json.ReadFault.toFault).bind (sourcesOf root), w) := by
  obtain ⟨bytes, text, hbytes, htext, rfl⟩ := h
  obtain ⟨f, hfile, hf⟩ := Option.map_eq_some_iff.1 hbytes
  have hread : bytesAt (root / fileName) w.tree around.directory = .ok bytes := by
    rw [bytesAt_eq_ok_iff, goalOf_child _ _ isEntryName_fileName]
    exact ⟨hleads.isAskable_child isEntryName_fileName,
      hleads.locate_child isEntryName_fileName hfits, f, file?_eq_some_iff.1 hfile, hf⟩
  have hbytes : perform (readBytes (root / fileName)) around w = (.ok bytes, w) := by
    rw [perform_readBytes, hread]
  have hdecode : perform (readText (root / fileName)) around w = (.ok text, w) := by
    rw [readText, perform_bind_ok hbytes, htext]
    rfl
  rw [readSources, perform_bind_ok hdecode, perform_bind, Json.perform_ofText]
  rcases Json.parse around.nesting text with cause | value
  · rfl
  · exact perform_ofExcept_id _ _ _

theorem perform_readSources_of_not_reads
    (h : ∀ result, ¬ FileReads around.nesting w.tree (goalOf around.directory root) result) :
    ∃ fault, isRepairable fault = true ∧
      perform (readSources root) around w = (.error fault, w) := by
  rcases hbytes : bytesAt (root / fileName) w.tree around.directory with fault | bytes
  · refine ⟨fault, Fault.IsRefusal.isRepairable (refused_bytesAt _ _ _ _ hbytes), ?_⟩
    refine perform_bind_error (perform_bind_error ?_)
    rw [perform_readBytes, hbytes]
  · have hread : perform (readBytes (root / fileName)) around w = (.ok bytes, w) := by
      rw [perform_readBytes, hbytes]
    obtain ⟨-, -, f, hnode, hf⟩ := bytesAt_eq_ok_iff.1 hbytes
    rw [goalOf_child _ _ isEntryName_fileName] at hnode
    have hbytes' : w.tree.bytes? (fileAt (goalOf around.directory root)) = some bytes :=
      Option.map_eq_some_iff.2 ⟨f, file?_eq_some_iff.2 hnode, hf⟩
    rcases htext : Text.decodeFile? bytes with _ | text
    · refine ⟨.undecodable, rfl, perform_bind_error ?_⟩
      rw [readText, perform_bind_ok hread, htext]
      rfl
    · exact absurd ⟨bytes, text, hbytes', htext, rfl⟩ (h _)

/-- The manifest is what its file describes. -/
structure Taken (around : Surroundings) (root : Path) (w : World) (m : Manifest) (w' : World) :
    Prop where
  ofRoot : m.root = root
  described : FileDescribes around.nesting root w.tree (goalOf around.directory root) m.sources
  untouched : w' = w

/-- The manifest is the one of a scan. Its file, and nothing else, is written anew, and the next
time it is read back. -/
structure MadeAnew (around : Surroundings) (root : Path) (w : World) (m : Manifest) (w' : World) :
    Prop where
  undescribed :
    ∀ sources, ¬ FileDescribes around.nesting root w.tree (goalOf around.directory root) sources
  scanned : perform (scan root) around w = (.ok m, w)
  others : SameOutside (· = fileAt (goalOf around.directory root)) w w'
  next : ∃ loaded, perform (load root) around w' = (.ok loaded, w') ∧ ReadBackOf m loaded

/-- Why loading ends in a fault: the file holds a value that is no object, or one that is nested too
deep. -/
inductive Unloadable (depth : Nat) (t : FileTree) (base : Location) : Fault → Prop
  | noObject {value : Json} (h : FileReads depth t base (.ok value))
      (hvalue : ∀ members, value ≠ .object members) : Unloadable depth t base .noAttribute
  | tooDeep (h : FileReads depth t base (.error .tooDeep)) : Unloadable depth t base .tooDeep

theorem Unloadable.not_describes {sources : List Source} (h : Unloadable depth t base fault) :
    ¬ FileDescribes depth root t base sources := by
  rintro ⟨members, hreads, -⟩
  cases h with
  | noObject h hvalue => exact hvalue members (Except.ok.inj (h.unique hreads))
  | tooDeep h => exact nomatch h.unique hreads

theorem Unloadable.not_isRepairable (h : Unloadable depth t base fault) :
    ¬ isRepairable fault = true := by
  cases h <;> decide

theorem Unloadable.perform_readSources (hleads : LeadsToDirectory root w.tree around.directory)
    (hfits : (root / fileName).text.utf8ByteSize ≤ pathLimit)
    (h : Unloadable around.nesting w.tree (goalOf around.directory root) fault) :
    perform (readSources root) around w = (.error fault, w) := by
  cases h with
  | noObject h hvalue =>
      rw [perform_readSources_of_reads hleads hfits h]
      exact congrArg (·, w) (sourcesOf_of_not_object hvalue)
  | tooDeep h => exact perform_readSources_of_reads hleads hfits h

theorem perform_readSources_cases (hleads : LeadsToDirectory root w.tree around.directory)
    (hfits : (root / fileName).text.utf8ByteSize ≤ pathLimit) :
    (∃ sources, FileDescribes around.nesting root w.tree (goalOf around.directory root) sources ∧
        perform (readSources root) around w = (.ok sources, w)) ∨
      (∃ fault, Unloadable around.nesting w.tree (goalOf around.directory root) fault ∧
        perform (readSources root) around w = (.error fault, w)) ∨
      (∀ sources,
          ¬ FileDescribes around.nesting root w.tree (goalOf around.directory root) sources) ∧
        ∃ fault, isRepairable fault = true ∧
          perform (readSources root) around w = (.error fault, w) := by
  by_cases hsome : ∃ result, FileReads around.nesting w.tree (goalOf around.directory root) result
  · obtain ⟨result, hreads⟩ := hsome
    have hperform := perform_readSources_of_reads hleads hfits hreads
    have hunlike : ∀ cause, result = .error cause → ∀ sources,
        ¬ FileDescribes around.nesting root w.tree (goalOf around.directory root) sources := by
      rintro cause rfl sources ⟨members, hmembers, -⟩
      exact nomatch hreads.unique hmembers
    match result, hreads, hperform, hunlike with
    | .error .tooDeep, hreads, hperform, _ => exact .inr (.inl ⟨_, .tooDeep hreads, hperform⟩)
    | .error .malformed, _, hperform, hunlike =>
        exact .inr (.inr ⟨hunlike _ rfl, _, rfl, hperform⟩)
    | .error (.numeral _), _, hperform, hunlike =>
        exact .inr (.inr ⟨hunlike _ rfl, _, rfl, hperform⟩)
    | .ok value, hreads, hperform, _ =>
        replace hperform : perform (readSources root) around w =
            (sourcesOf root value, w) := hperform
        by_cases hobject : ∃ members, value = .object members
        · obtain ⟨members, rfl⟩ := hobject
          rcases hsources : sourcesOf root (.object members) with fault | sources
          · refine .inr (.inr ⟨?_, fault, repairable_sourcesOf_object root members fault hsources,
              hsources ▸ hperform⟩)
            rintro sources ⟨members', hreads', hall⟩
            cases hreads.unique hreads'
            rw [sourcesOf_object_eq_ok_iff.2 hall] at hsources
            cases hsources
          · exact .inl ⟨sources, ⟨members, hreads, sourcesOf_object_eq_ok_iff.1 hsources⟩,
              hsources ▸ hperform⟩
        · have hvalue : ∀ members, value ≠ .object members := fun members heq =>
            hobject ⟨members, heq⟩
          rw [sourcesOf_of_not_object hvalue] at hperform
          exact .inr (.inl ⟨_, .noObject hreads hvalue, hperform⟩)
  · refine .inr (.inr ⟨?_, perform_readSources_of_not_reads fun result h => hsome ⟨result, h⟩⟩)
    rintro sources ⟨members, hreads, -⟩
    exact hsome ⟨_, hreads⟩

theorem perform_load_of_readSources (h : perform (readSources root) around w = (.ok sources, w)) :
    perform (load root) around w = (.ok ⟨root, sources⟩, w) := by
  rw [load, perform_bind, perform_outcome, h]
  rfl

/-- Whatever the file holds, the manifest is what the file describes or it is made anew, unless the
file is one of those that end loading. -/
theorem perform_load_cases (hw : w.tree.WellFormed)
    (hleads : LeadsToDirectory root w.tree around.directory)
    (hfits : (root / fileName).text.utf8ByteSize ≤ pathLimit)
    (hnot : ¬ w.tree.isDirectory (fileAt (goalOf around.directory root)) = true) :
    (∃ fault, Unloadable around.nesting w.tree (goalOf around.directory root) fault ∧
        perform (load root) around w = (.error fault, w)) ∨
      (∀ fault, ¬ Unloadable around.nesting w.tree (goalOf around.directory root) fault) ∧
        ∃ m w', perform (load root) around w = (.ok m, w') ∧
          (Taken around root w m w' ∨ MadeAnew around root w m w') := by
  rcases perform_readSources_cases hleads hfits with
    ⟨sources, hdescribes, hread⟩ | ⟨fault, hfault, hread⟩ | ⟨hunlike, fault, hrepair, hread⟩
  · exact .inr ⟨fun fault h => h.not_describes hdescribes, _, _, perform_load_of_readSources hread,
      .inl ⟨rfl, hdescribes, rfl⟩⟩
  · refine .inl ⟨fault, hfault, ?_⟩
    rw [load, perform_bind, perform_outcome, hread]
    dsimp only
    rw [if_neg hfault.not_isRepairable]
    rfl
  · have hloadable :
        ∀ cause, ¬ Unloadable around.nesting w.tree (goalOf around.directory root) cause := by
      intro cause hcause
      rw [hcause.perform_readSources hleads hfits] at hread
      cases hread
      exact hcause.not_isRepairable hrepair
    have hways := IsListing.sourceWays hw (goalOf around.directory root)
    obtain ⟨w', hwrite⟩ := perform_write_of_free hleads hfits hnot
      (sourcesAt root (sourceWays w.tree (goalOf around.directory root)))
    obtain ⟨-, hholds, hsame, -⟩ := of_perform_write hleads hways hwrite
    refine .inr ⟨hloadable, _, w', ?_, .inr ⟨hunlike, perform_scan hw hleads, hsame, _,
      Manifest.perform_load hways.steps hways.nodup (leads_of_same hleads hnot hsame) hfits hholds,
      readBackOf_fileOrder hways (inOrder_sourceWays _ _)⟩⟩
    rw [load, perform_bind, perform_outcome, hread]
    dsimp only
    rw [if_pos hrepair, perform_bind_ok (perform_scan hw hleads), perform_bind_ok hwrite]
    rfl

end Loading

section Selecting

/-- The tag of a source can be looked for among libraries: it is no array and no object. -/
def Source.IsSearchable (s : Source) : Prop :=
  (∀ items, s.tag ≠ .array items) ∧ ∀ members, s.tag ≠ .object members

theorem isNeeded_cases (s : Source) (gc : Collector) (links : List String) :
    (∃ needed, s.isNeeded gc links = .ok needed) ∧ (s.kind = .optional → s.IsSearchable) ∨
      s.isNeeded gc links = .error .wrongType ∧ s.kind = .optional ∧ ¬ s.IsSearchable := by
  obtain ⟨path, kind, tag⟩ := s
  cases kind with
  | optional =>
      cases tag with
      | array items => exact .inr ⟨rfl, rfl, fun h => h.1 items rfl⟩
      | object members => exact .inr ⟨rfl, rfl, fun h => h.2 members rfl⟩
      | _ => exact .inl ⟨⟨_, rfl⟩, fun _ => ⟨nofun, nofun⟩⟩
  | gc => cases tag <;> exact .inl ⟨⟨_, rfl⟩, nofun⟩
  | unconditional => exact .inl ⟨⟨_, rfl⟩, nofun⟩

theorem exists_select_eq_ok_iff (m : Manifest) (gc : Collector) (links : List String) :
    (∃ selected, m.select gc links = .ok selected) ↔
      ∀ s ∈ m.sources, s.kind = .optional → s.IsSearchable := by
  let mark : Source → Except Fault (Source × Bool) := fun s => return (s, ← s.isNeeded gc links)
  have hselect : (∃ selected, m.select gc links = .ok selected) ↔
      ∃ marked, m.sources.mapM mark = .ok marked := by
    unfold Manifest.select
    change (∃ selected, (m.sources.mapM mark >>= _) = _) ↔ _
    rcases m.sources.mapM mark with fault | marked
    · exact ⟨nofun, nofun⟩
    · exact ⟨fun _ => ⟨marked, rfl⟩, fun _ => ⟨_, rfl⟩⟩
  rw [hselect, exists_ok_mapM_iff]
  refine forall₂_congr fun s _ => ?_
  rcases isNeeded_cases s gc links with ⟨⟨needed, hneeded⟩, hsearch⟩ | ⟨herror, hkind, hnot⟩
  · exact ⟨fun _ => hsearch, fun _ => ⟨(s, needed), congrArg (· >>= _) hneeded⟩⟩
  · refine ⟨fun ⟨_, hok⟩ => ?_, fun hsearch => absurd (hsearch hkind) hnot⟩
    have hmark : mark s = .error .wrongType := congrArg (· >>= _) herror
    rw [hmark] at hok
    cases hok

theorem wrongType_select (m : Manifest) (gc : Collector) (links : List String) :
    OnlyFaults (· = .wrongType) (m.select gc links) := by
  unfold Manifest.select
  refine (OnlyFaults.mapM fun s _ => ?_).bind fun marked => OnlyFaults.ok _
  refine OnlyFaults.bind ?_ fun needed => OnlyFaults.ok _
  rcases isNeeded_cases s gc links with ⟨⟨needed, hneeded⟩, -⟩ | ⟨herror, -⟩
  · rw [hneeded]
    exact OnlyFaults.ok _
  · rw [herror]
    exact OnlyFaults.error rfl

end Selecting

/-- Whatever the manifest file holds, loading fails exactly when it holds a JSON value other than an
object or one that is nested too deep. Else the sources are those that the file describes, or they
are scanned and the file is written anew. Selecting among them fails exactly when an optional source
has an array or an object as its tag, which no source has that was scanned. -/
theorem load_of_any_file (hw : w.tree.WellFormed)
    (hleads : LeadsToDirectory root w.tree around.directory)
    (hfits : (root / fileName).text.utf8ByteSize ≤ pathLimit)
    (hnot : ¬ w.tree.isDirectory (fileAt (goalOf around.directory root)) = true) :
    (∀ fault, EndsIn around w (load root) fault ↔
        Unloadable around.nesting w.tree (goalOf around.directory root) fault) ∧
      ∀ m w', perform (load root) around w = (.ok m, w') →
        (Taken around root w m w' ∨
          MadeAnew around root w m w' ∧ ∀ s ∈ m.sources, s.kind = .optional → s.IsSearchable) ∧
        ∀ gc links, OnlyFaults (· = .wrongType) (m.select gc links) ∧
          ((∃ selected, m.select gc links = .ok selected) ↔
            ∀ s ∈ m.sources, s.kind = .optional → s.IsSearchable) := by
  rcases perform_load_cases hw hleads hfits hnot with
    ⟨fault, hfault, hload⟩ | ⟨hloadable, m, w', hload, hcases⟩
  · refine ⟨fun cause => ?_, fun m w' h => nomatch hload.symm.trans h⟩
    rw [EndsIn, hload]
    constructor
    · rintro ⟨⟩
      exact hfault
    · intro hcause
      have hread := (hcause.perform_readSources hleads hfits).symm.trans
        (hfault.perform_readSources hleads hfits)
      cases hread
      rfl
  · refine ⟨fun cause => ⟨fun h => ?_, fun h => absurd h (hloadable cause)⟩, fun m' v h => ?_⟩
    · rw [EndsIn, hload] at h
      cases h
    · cases hload.symm.trans h
      refine ⟨hcases.imp_right fun hanew => ⟨hanew, ?_⟩, fun gc links =>
        ⟨wrongType_select m gc links, exists_select_eq_ok_iff m gc links⟩⟩
      obtain ⟨loaded, -, hback⟩ := hanew.next
      obtain ⟨included, excluded, -, -, hok, -⟩ := hback.selected .immix []
      exact (exists_select_eq_ok_iff m .immix []).1 ⟨_, hok⟩

section Sample

/-- A library with one source and a manifest file that holds some text. -/
def libraryHolding (text : String) : FileTree :=
  ((FileTree.empty.add ["lib"] .directory).writeFile ["lib", "a.c"] []).writeFile
    ["lib", fileName] (Text.encode text)

/-- A manifest file that describes an optional source with an array as its tag. -/
def listAsTag : String :=
  Json.line (.object [("a.c", .object [("kind", .text "optional"), ("tag", .array [])])])

/-- A manifest file that holds an empty array ends loading, and a tag that is an array ends the
selection. -/
theorem list_is_not_repaired :
    EndsIn (.still []) (.ofTree (libraryHolding "[]")) (load (.parse "/lib")) .noAttribute ∧
      ∃ m, perform (load (.parse "/lib")) (.still []) (.ofTree (libraryHolding listAsTag)) =
          (.ok m, .ofTree (libraryHolding listAsTag)) ∧
        m.select .immix [] = .error .wrongType := by
  refine ⟨by decide +kernel,
    ⟨.parse "/lib", [⟨Path.parse "/lib" / "a.c", .optional, .array []⟩]⟩, ?_, rfl⟩
  have hroot : LeadsToDirectory (.parse "/lib") (World.ofTree (libraryHolding listAsTag)).tree
      (Surroundings.still []).directory := rfl
  have hreads : FileReads (Surroundings.still []).nesting (libraryHolding listAsTag) ["lib"]
      (.ok (.object [("a.c", .object [("kind", .text "optional"), ("tag", .array [])])])) :=
    ⟨_, listAsTag, rfl, rfl, rfl⟩
  refine perform_load_of_readSources ?_
  rw [perform_readSources_of_reads hroot (by decide) hreads]
  refine congrArg (·, _) (sourcesOf_object_eq_ok_iff.2 ?_)
  rw [DescribeAll, sortMembers, List.mergeSort_singleton]
  exact .cons (.entry rfl) .nil

/-- An empty manifest file is made anew, and the sources can be selected. -/
theorem load_of_empty_file :
    ∃ m w', perform (load (.parse "/lib")) (.still []) (.ofTree (libraryHolding "")) =
        (.ok m, w') ∧ MadeAnew (.still []) (.parse "/lib") (.ofTree (libraryHolding "")) m w' ∧
      ∃ selected, m.select .immix [] = .ok selected := by
  have hreads :
      FileReads (Surroundings.still []).nesting (libraryHolding "") ["lib"] (.error .malformed) :=
    ⟨[], "", by decide +kernel, by decide +kernel, rfl⟩
  have hroot : LeadsToDirectory (.parse "/lib") (World.ofTree (libraryHolding "")).tree
      (Surroundings.still []).directory := rfl
  obtain ⟨hfails, hgives⟩ := load_of_any_file (by decide +kernel) hroot (by decide)
    (by decide +kernel)
  rcases hload : perform (load (.parse "/lib")) (.still []) (.ofTree (libraryHolding "")) with
    ⟨fault | m, w'⟩
  · cases (hfails fault).1 (EndsIn.of_perform hload) with
    | noObject h _ => exact nomatch h.unique hreads
    | tooDeep h => exact nomatch h.unique hreads
  · obtain ⟨htaken | ⟨hanew, hsearch⟩, hselect⟩ := hgives m w' hload
    · obtain ⟨members, h, -⟩ := htaken.described
      exact nomatch h.unique hreads
    · exact ⟨m, w', rfl, hanew, (hselect .immix []).2.2 hsearch⟩

end Sample

end StagedBuild.NativeLibrary
