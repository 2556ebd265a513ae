import StagedBuild.Proofs.NativeLibrary.Filling
import StagedBuild.Proofs.NativeLibrary.ManifestFile
import StagedBuild.Proofs.NativeLibrary.Preparation
import StagedBuild.Proofs.Path.Extension

/-!
Where the objects of a native library go. The object of a source lies beside it; different sources
have different objects, and no object is a source, the manifest or the marker of a copy. So objects
come and go while the copy stays what it is. Where there is a directory in place of an object, it
stays.
-/

namespace StagedBuild

namespace NativeLibrary

open FileTree Manifest

variable {way : Location}

def objectName (name : String) : String := name ++ ".o"

/-- The way to the object of a source. -/
def objectWay (way : Location) : Location :=
  way.dropLast ++ [objectName (way.getLast?.getD "")]

theorem objectWay_concat (front : Location) (name : String) :
    objectWay (front ++ [name]) = front ++ [objectName name] := by
  simp [objectWay]

theorem toList_objectName (name : String) :
    (objectName name).toList = name.toList ++ ['.', 'o'] := by
  simp [objectName]

theorem isStep_objectName {name : String} (h : isStep name = true) :
    isStep (objectName name) = true := by
  obtain ⟨-, -, hslash⟩ := isStep_iff.1 h
  refine isStep_iff.2 ⟨fun heq => ?_, fun heq => ?_, ?_⟩
  · simpa [toList_objectName] using congrArg String.toList heq
  · have := congrArg List.length (congrArg String.toList heq)
    simp [toList_objectName] at this
  · simpa [toList_objectName] using hslash

theorem objectName_ne_up (name : String) : objectName name ≠ ".." := by
  intro heq
  have := congrArg (List.getLast? ∘ String.toList) heq
  simp [toList_objectName] at this

theorem objectName_injective {a b : String} (h : objectName a = objectName b) : a = b := by
  have := congrArg String.toList h
  rw [toList_objectName, toList_objectName] at this
  exact String.toList_inj.1 (List.append_cancel_right this)

theorem suffix_objectName {name : String} (h : name ≠ "") :
    (Path.splitName (objectName name)).2 = ".o" := by
  have hextension : Path.IsExtension ".o" := ⟨['o'], rfl, by decide, by decide⟩
  rw [objectName, Path.splitName_extended h hextension]

theorem not_isSourceName_objectName {name : String} (h : name ≠ "") :
    ¬ isSourceName (objectName name) := by
  rw [isSourceName, suffix_objectName h]
  decide

theorem isStep_objectWay (h : ∀ s ∈ way, isStep s = true) (hne : way ≠ []) :
    ∀ s ∈ objectWay way, isStep s = true := by
  obtain ⟨front, name, rfl⟩ := (List.eq_nil_or_concat way).resolve_left hne
  rw [List.concat_eq_append] at h ⊢
  rw [objectWay_concat]
  intro s hs
  rcases List.mem_append.1 hs with hs | hs
  · exact h s (List.mem_append_left _ hs)
  · rw [List.mem_singleton.1 hs]
    exact isStep_objectName (h name (by simp))

theorem up_not_mem_objectWay (hup : ".." ∉ way) : ".." ∉ objectWay way := by
  intro h
  rcases List.mem_append.1 h with h | h
  · exact hup (List.dropLast_subset _ h)
  · exact objectName_ne_up _ (List.mem_singleton.1 h).symm

theorem objectWay_injective {other : Location} (hne : way ≠ []) (hne' : other ≠ [])
    (h : objectWay way = objectWay other) : way = other := by
  obtain ⟨front, name, rfl⟩ := (List.eq_nil_or_concat way).resolve_left hne
  obtain ⟨front', name', rfl⟩ := (List.eq_nil_or_concat other).resolve_left hne'
  rw [List.concat_eq_append, List.concat_eq_append, objectWay_concat, objectWay_concat] at h
  obtain ⟨rfl, hname⟩ := List.append_inj' h rfl
  rw [List.concat_eq_append, objectName_injective (List.head_eq_of_cons_eq hname)]
  simp

theorem not_isSourceWay_objectWay (h : IsSourceWay way) : ¬ IsSourceWay (objectWay way) := by
  obtain ⟨hne, hnames, -⟩ := h
  obtain ⟨front, name, rfl⟩ := (List.eq_nil_or_concat way).resolve_left hne
  rw [List.concat_eq_append] at hnames ⊢
  rw [objectWay_concat]
  rintro ⟨-, -, hsource⟩
  rw [List.getLast?_concat, Option.getD_some] at hsource
  have hstep := isStep_of_isEntryName (hnames name (by simp))
  exact not_isSourceName_objectName (isStep_iff.1 hstep).1 hsource

theorem objectWay_ne_singleton {name : String} (h : IsSourceWay way)
    (hname : (Path.splitName name).2 ≠ ".o") : objectWay way ≠ [name] := by
  obtain ⟨hne, hnames, -⟩ := h
  obtain ⟨front, last, rfl⟩ := (List.eq_nil_or_concat way).resolve_left hne
  rw [List.concat_eq_append] at hnames ⊢
  rw [objectWay_concat]
  intro heq
  obtain ⟨-, hlast⟩ := List.append_inj' (heq.trans (List.nil_append [name]).symm) rfl
  have hstep := isStep_of_isEntryName (hnames last (by simp))
  apply hname
  rw [← List.head_eq_of_cons_eq hlast, suffix_objectName (isStep_iff.1 hstep).1]

theorem objectPath_descend (lib : Path) (h : ∀ s ∈ way, isStep s = true) (hne : way ≠ []) :
    (lib.descend way).objectPath = lib.descend (objectWay way) := by
  have hobject := isStep_objectWay h hne
  obtain ⟨front, name, rfl⟩ := (List.eq_nil_or_concat way).resolve_left hne
  rw [List.concat_eq_append] at h hne hobject ⊢
  rw [objectWay_concat] at hobject ⊢
  suffices (lib.descend (front ++ [name])).text ++ ".o" =
      (lib.descend (front ++ [objectName name])).text by
    rw [Path.objectPath, Path.extend, this, Path.parse_text]
  have hbare : ∀ p : Path, p.steps ≠ [] → p.text = p.bareText := fun p hp => by
    rw [Path.text, if_neg fun hq => hp hq.2]
  have hsteps := Path.steps_descend lib h
  have hsteps' := Path.steps_descend lib hobject
  rw [hbare _ (by simp [hsteps]), hbare _ (by simp [hsteps']), Path.bareText, Path.bareText,
    Path.anchor_descend lib h, Path.anchor_descend lib hobject, hsteps, hsteps',
    String.append_assoc]
  congr 1
  apply String.toList_inj.1
  rw [String.toList_append, Path.steps_joined, Path.steps_joined, ← List.append_assoc,
    ← List.append_assoc, List.map_append, List.map_append, List.map_append,
    List.map_append, List.map_singleton, List.map_singleton, toList_objectName]
  exact intercalate_concat_append _ _ _ _

end NativeLibrary

end StagedBuild

namespace StagedBuild.NativeLibrary

open Action FileTree Disk Manifest

variable {around : Surroundings} {w w' : World} {lib : Path} {t t' t₀ : FileTree}
  {archive : List UInt8} {ways : List Location} {src : Location}

/-- Where the object of a source goes. -/
def objectAt (lib : Path) (src : Location) : Location :=
  goalOf [] lib ++ objectWay src

theorem goalOf_descend_objectWay (h : IsSourceWay src) :
    goalOf [] (lib.descend (objectWay src)) = objectAt lib src := by
  have hsteps := fun s hs => isStep_of_isEntryName (h.2.1 s hs)
  exact goalOf_descend_plain [] lib (isStep_objectWay hsteps h.1)
    (up_not_mem_objectWay (up_not_mem h.2.1))

theorem objectAt_injective {other : Location} (h : IsSourceWay src) (h' : IsSourceWay other)
    (heq : objectAt lib src = objectAt lib other) : src = other :=
  objectWay_injective h.1 h'.1 (List.append_cancel_left heq)

theorem objectPath_sourceAt (h : IsSourceWay src) :
    (sourceAt lib (lib.descend src)).objectPath = lib.descend (objectWay src) :=
  objectPath_descend lib (fun s hs => isStep_of_isEntryName (h.2.1 s hs)) h.1

theorem isAbsolute_descend_objectWay (hlib : lib.isAbsolute = true) (h : IsSourceWay src) :
    (lib.descend (objectWay src)).isAbsolute = true := by
  rw [isAbsolute_descend _ (isStep_objectWay
    (fun s hs => isStep_of_isEntryName (h.2.1 s hs)) h.1), hlib]

theorem isAskable_descend_objectWay (hask : isAskable lib = true) (h : IsSourceWay src) :
    isAskable (lib.descend (objectWay src)) = true := by
  have hsteps := fun s hs => isStep_of_isEntryName (h.2.1 s hs)
  have hplain : ∀ s ∈ src, '\x00' ∉ s.toList := fun s hs => by
    have := h.2.1 s hs
    simp only [isEntryName, Bool.and_eq_true, Bool.not_eq_true', List.contains_eq_mem,
      decide_eq_false_iff_not] at this
    exact this.1.2
  refine isAskable_iff.2 fun s hs => ?_
  rw [Path.steps_descend lib (isStep_objectWay hsteps h.1)] at hs
  rcases List.mem_append.1 hs with hs | hs
  · exact isAskable_iff.1 hask s hs
  · rcases List.mem_append.1 hs with hs | hs
    · exact hplain s (List.dropLast_subset _ hs)
    · rw [List.mem_singleton.1 hs, toList_objectName, List.getLast?_eq_some_getLast h.1]
      simpa using hplain _ (List.getLast_mem _)

theorem isDirectory_of_passed_objectWay {dir : Path} {cwd way : Location} (hwf : t.WellFormed)
    (hopen : ∀ v ∈ passedBy cwd dir, t.isDirectory v = true) (hne : way ≠ [])
    (hnames : ∀ s ∈ way, isEntryName s = true)
    (hocc : t.isOccupied (goalOf cwd dir ++ way) = true) {v : Location}
    (hv : v ∈ passedBy cwd (dir.descend (objectWay way))) : t.isDirectory v = true := by
  have hsteps := fun s hs => isStep_of_isEntryName (hnames s hs)
  rcases (mem_passedBy_descend_plain (isStep_objectWay hsteps hne)
    (up_not_mem_objectWay (up_not_mem hnames))).1 hv with hv | ⟨front, back, hway, hback, rfl⟩
  · exact hopen v hv
  · obtain ⟨rest, last, rfl⟩ := (List.eq_nil_or_concat back).resolve_left hback
    rw [objectWay, List.concat_eq_append, ← List.append_assoc] at hway
    obtain ⟨hfront, -⟩ := List.append_inj' hway rfl
    have hlast := List.dropLast_append_getLast hne
    rw [hfront, List.append_assoc] at hlast
    rw [← hlast, ← List.append_assoc] at hocc
    exact hwf.isDirectory_above hocc (by simp)

theorem isDirectory_of_passed_object (hwf : t.WellFormed)
    (hopen : ∀ v ∈ passedBy [] lib, t.isDirectory v = true) (h : IsSourceWay src)
    (hfile : t.isFile (goalOf [] lib ++ src) = true) {v : Location}
    (hv : v ∈ passedBy [] (lib.descend (objectWay src))) : t.isDirectory v = true :=
  isDirectory_of_passed_objectWay hwf hopen h.1 h.2.1 (isOccupied_of_isFile hfile) hv

/-- A copy has become another one: only objects of its sources have come or gone. -/
def Derived (lib : Path) (ways : List Location) (t t' : FileTree) : Prop :=
  ∀ way, t'.node? (goalOf [] lib ++ way) = t.node? (goalOf [] lib ++ way) ∨
    (∃ src ∈ ways, way = objectWay src) ∧
      ¬ t.isDirectory (goalOf [] lib ++ way) = true ∧
      ¬ t'.isDirectory (goalOf [] lib ++ way) = true

namespace Derived

theorem refl (lib : Path) (ways : List Location) (t : FileTree) : Derived lib ways t t :=
  fun _ => .inl rfl

theorem trans {t'' : FileTree} (h : Derived lib ways t t') (h' : Derived lib ways t' t'') :
    Derived lib ways t t'' := by
  intro way
  rcases h' way with heq | ⟨hobject, hnot, hnot'⟩
  · rcases h way with heq' | ⟨hobject, hnot, hnot'⟩
    · exact .inl (heq.trans heq')
    · exact .inr ⟨hobject, hnot, isDirectory_congr heq ▸ hnot'⟩
  · rcases h way with heq | ⟨-, hnot₀, -⟩
    · exact .inr ⟨hobject, isDirectory_congr heq ▸ hnot, hnot'⟩
    · exact .inr ⟨hobject, hnot₀, hnot'⟩

theorem node?_eq (h : Derived lib ways t t') {way : Location}
    (hway : ∀ src ∈ ways, way ≠ objectWay src) :
    t'.node? (goalOf [] lib ++ way) = t.node? (goalOf [] lib ++ way) :=
  (h way).resolve_right fun ⟨⟨src, hsrc, heq⟩, _⟩ => hway src hsrc heq

theorem isDirectory_eq (h : Derived lib ways t t') (way : Location) :
    t'.isDirectory (goalOf [] lib ++ way) = t.isDirectory (goalOf [] lib ++ way) := by
  rcases h way with heq | ⟨-, hnot, hnot'⟩
  · exact isDirectory_congr heq
  · rw [Bool.not_eq_true] at hnot hnot'
    rw [hnot, hnot']

end Derived

/-- Nothing but objects of a copy has come or gone. -/
def ObjectsChanged (lib : Path) (ways : List Location) (w w' : World) : Prop :=
  ChangedBelow (goalOf [] lib) w w' ∧ Derived lib ways w.tree w'.tree

namespace ObjectsChanged

instance : Passage (ObjectsChanged lib ways) where
  refl w := ⟨Passage.refl w, .refl lib ways w.tree⟩
  trans h h' := ⟨Passage.trans h.1 h'.1, h.2.trans h'.2⟩

theorem isDirectory_eq (h : ObjectsChanged lib ways w w') (q : Location) :
    w'.tree.isDirectory q = w.tree.isDirectory q := by
  by_cases hq : goalOf [] lib <+: q
  · obtain ⟨way, rfl⟩ := hq
    exact h.2.isDirectory_eq way
  · exact isDirectory_congr (h.1 q hq)

theorem of_nodes (h : ∀ q, w'.tree.node? q = w.tree.node? q ∨
      (∃ src ∈ ways, q = objectAt lib src) ∧ ¬ w.tree.isDirectory q = true ∧
        ¬ w'.tree.isDirectory q = true) : ObjectsChanged lib ways w w' := by
  refine ⟨fun q hq => (h q).resolve_right ?_, fun way => (h _).imp_right ?_⟩
  · rintro ⟨⟨src, -, rfl⟩, -⟩
    exact hq (List.prefix_append _ _)
  · rintro ⟨⟨src, hsrc, heq⟩, hnot⟩
    exact ⟨⟨src, hsrc, List.append_cancel_left heq⟩, hnot⟩

theorem of_gone {out : List Location} (hout : ∀ src ∈ out, src ∈ ways)
    (hfree : ∀ src ∈ out, ¬ w.tree.isDirectory (objectAt lib src) = true)
    (h : ∀ q, w'.tree.node? q =
      if q ∈ out.map (objectAt lib) then none else w.tree.node? q) :
    ObjectsChanged lib ways w w' := by
  refine .of_nodes fun q => ?_
  by_cases hq : q ∈ out.map (objectAt lib)
  · have hgone : w'.tree.node? q = none := by rw [h, if_pos hq]
    obtain ⟨src, hsrc, rfl⟩ := List.mem_map.1 hq
    refine .inr ⟨⟨src, hout src hsrc, rfl⟩, hfree src hsrc, ?_⟩
    simp [isDirectory_iff, hgone]
  · exact .inl (by rw [h, if_neg hq])

end ObjectsChanged

namespace Copied

theorem isSourceWay (h : Copied lib archive ways t) (hsrc : src ∈ ways) : IsSourceWay src :=
  ((h.sources src).1 hsrc).1

theorem isStep (h : Copied lib archive ways t) (hsrc : src ∈ ways) :
    ∀ s ∈ src, isStep s = true :=
  fun s hs => isStep_of_isEntryName ((h.isSourceWay hsrc).2.1 s hs)

theorem of_derived (h : Copied lib archive ways t) (hderived : Derived lib ways t t')
    (hwf : t'.WellFormed) (hleads : LeadsToDirectory lib t' []) :
    Copied lib archive ways t' where
  wellFormed := hwf
  leads := hleads
  sources way := by
    rw [h.sources]
    refine and_congr_right fun hway => ?_
    rw [isFile_congr (hderived.node?_eq fun src hsrc heq =>
      not_isSourceWay_objectWay (h.isSourceWay hsrc) (heq ▸ hway))]
  nodup := h.nodup
  manifest := by
    rw [fileAt, hderived.node?_eq fun src hsrc => Ne.symm
      (objectWay_ne_singleton (h.isSourceWay hsrc) (by decide))]
    exact h.manifest
  marker := by
    rw [hderived.node?_eq fun src hsrc => Ne.symm
      (objectWay_ne_singleton (h.isSourceWay hsrc) (by decide))]
    exact h.marker
  fits := h.fits

theorem of_changed (h : Copied lib archive ways w.tree) (hchanged : ObjectsChanged lib ways w w')
    (hwf : w'.tree.WellFormed) : Copied lib archive ways w'.tree :=
  h.of_derived hchanged.2 hwf
    (h.leads.mono fun q hq => (hchanged.isDirectory_eq q).trans hq)

variable (hlib : lib.isAbsolute = true)

include hlib

theorem locate_object (h : Copied lib archive ways t) (hsrc : src ∈ ways) (cwd : Location) :
    PathFits (lib.descend (objectWay src)) ∧
        t.locate cwd (lib.descend (objectWay src)) = .ok (objectAt lib src) ∨
      ¬ PathFits (lib.descend (objectWay src)) ∧
        t.locate cwd (lib.descend (objectWay src)) = .error .nameTooLong := by
  obtain ⟨hsource, hfile⟩ := (h.sources src).1 hsrc
  rw [locate_of_absolute (isAbsolute_descend_objectWay hlib hsource),
    ← goalOf_descend_objectWay hsource]
  exact locate_open fun v hv => isDirectory_of_passed_object h.wellFormed
    (locate_eq_ok_iff.1 h.leads.locate).2.2.1 hsource hfile hv

theorem answerAt_object (h : Copied lib archive ways t) (hsrc : src ∈ ways) (cwd : Location) :
    PathFits (lib.descend (objectWay src)) ∧
        answerAt (lib.descend (objectWay src)) t cwd = .ok (t.node? (objectAt lib src)) ∨
      ¬ PathFits (lib.descend (objectWay src)) ∧
        ∃ fault, answerAt (lib.descend (objectWay src)) t cwd = .error fault := by
  have hask := isAskable_descend_objectWay h.leads.isAskable (h.isSourceWay hsrc)
  rcases h.locate_object hlib hsrc cwd with ⟨hfits, hloc⟩ | ⟨hlong, hloc⟩
  · exact .inl ⟨hfits, answerAt_of_locate hask hloc⟩
  · refine .inr ⟨hlong, .system (.on .nameTooLong (lib.descend (objectWay src)).text), ?_⟩
    rw [answerAt, if_pos hask]
    simp only [lookup, hloc, bind, Except.bind]
    rfl

end Copied

end StagedBuild.NativeLibrary
