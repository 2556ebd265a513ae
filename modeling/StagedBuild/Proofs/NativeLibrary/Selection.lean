import StagedBuild.Proofs.NativeLibrary.Completion
import StagedBuild.Proofs.Path.Extension

/-!
Which sources a build needs, by the way down to them. The directories on the way decide: below a
directory `optional` a source is needed when the library it is named after is linked; else below a
directory `gc` it is needed when the directory after the first such one has the name of the
collector; every other source is needed in any case. A scan lists the sources in order, and
selecting splits that list by need.
-/

namespace StagedBuild.NativeLibrary

open Action FileTree Manifest

/-- The name of the file at a way. -/
def nameOf (way : Location) : String :=
  way.getLast?.getD ""

/-- The name of the file at a way, without its extension. -/
def stemOf (way : Location) : String :=
  (Path.splitName (nameOf way)).1

/-- A build with this collector and these libraries needs the source at a way. -/
inductive IsSelected (gc : Collector) (links : List String) (way : Location) : Prop
  | optional : "optional" ∈ way.dropLast → stemOf way ∈ links → IsSelected gc links way
  | collector (front rest : List String) : "optional" ∉ way.dropLast →
      way.dropLast = front ++ "gc" :: gc.name :: rest → "gc" ∉ front → IsSelected gc links way
  | always : "optional" ∉ way.dropLast → "gc" ∉ way.dropLast → IsSelected gc links way

theorem isExtension_of_mem {suffix : String} (h : suffix ∈ sourceSuffixes) :
    Path.IsExtension suffix := by
  simp only [sourceSuffixes, List.mem_cons, List.not_mem_nil, or_false] at h
  rcases h with rfl | rfl
  · exact ⟨['c'], rfl, by decide, by decide⟩
  · exact ⟨['c', 'p', 'p'], rfl, by decide, by decide⟩

theorem isSourceName_iff {name : String} :
    isSourceName name ↔ ∃ stem suffix, stem ≠ "" ∧ suffix ∈ sourceSuffixes ∧
      name = stem ++ suffix := by
  constructor
  · intro h
    refine ⟨(Path.splitName name).1, (Path.splitName name).2, ?_, h,
      (Path.splitName_append name).symm⟩
    intro hstem
    -- a name that is nothing but an extension has none
    have hname : name = (Path.splitName name).2 := by
      conv_lhs => rw [← Path.splitName_append name, hstem, String.empty_append]
    have hbare : ∀ suffix ∈ sourceSuffixes, ¬ isSourceName suffix := by decide
    exact hbare _ h (hname ▸ h)
  · rintro ⟨stem, suffix, hstem, hsuffix, rfl⟩
    rw [isSourceName, Path.splitName_extended hstem (isExtension_of_mem hsuffix)]
    exact hsuffix

theorem stemOf_concat {dirs : List String} {stem suffix : String} (hstem : stem ≠ "")
    (hsuffix : suffix ∈ sourceSuffixes) : stemOf (dirs ++ [stem ++ suffix]) = stem := by
  rw [stemOf, nameOf, List.getLast?_concat, Option.getD_some,
    Path.splitName_extended hstem (isExtension_of_mem hsuffix)]

theorem exists_stem {way : Location} (h : IsSourceWay way) :
    ∃ suffix ∈ sourceSuffixes, stemOf way ≠ "" ∧
      way = way.dropLast ++ [stemOf way ++ suffix] := by
  obtain ⟨hne, -, hname⟩ := h
  obtain ⟨stem, suffix, hstem, hsuffix, heq⟩ := isSourceName_iff.1 hname
  have hway : way = way.dropLast ++ [stem ++ suffix] := by
    rw [← heq, List.getLast?_eq_some_getLast hne, Option.getD_some,
      List.dropLast_append_getLast hne]
  have hstemOf : stemOf way = stem := by
    rw [hway, stemOf_concat hstem hsuffix]
  exact ⟨suffix, hsuffix, hstemOf ▸ hstem, hstemOf ▸ hway⟩

section Need

variable {lib : Path} {gc : Collector} {links : List String} {way : Location}

theorem isNeededAt_eq (hsteps : ∀ s ∈ way, isStep s = true) :
    isNeededAt lib gc links way =
      if "optional" ∈ way.dropLast then links.contains (Path.firstPart (nameOf way))
      else if "gc" ∈ way.dropLast then
        (way.dropLast.dropWhile (· != "gc")).getD 1 "" == gc.name
      else true := by
  have hname : Path.name ⟨.relative, way, hsteps⟩ = nameOf way := rfl
  have hkey : Path.key ⟨.relative, way, hsteps⟩ = way := rfl
  unfold isNeededAt sourceAt inclusionOf tagValue Source.isNeeded
  simp only [Path.relativeTo?_descend lib hsteps, Option.getD_some, hkey, hname, Path.head?_pieces]
  by_cases hoptional : "optional" ∈ way.dropLast
  · simp [hoptional, Except.toOption]
  · by_cases hgc : "gc" ∈ way.dropLast
    · simp [hoptional, hgc, Except.toOption]
    · simp [hoptional, hgc, Except.toOption]

theorem dropWhile_append_cons {x : String} {front : List String} (rest : List String)
    (h : x ∉ front) : (front ++ x :: rest).dropWhile (· != x) = x :: rest := by
  have hall : ∀ y ∈ front, (y != x) = true := by
    intro y hy
    rw [bne_iff_ne]
    rintro rfl
    exact h hy
  rw [List.dropWhile_append_of_pos hall, List.dropWhile_cons_of_neg (by simp)]

theorem name_ne_empty (gc : Collector) : gc.name ≠ "" := by
  cases gc <;> decide

theorem tag_eq_iff {dirs : List String} (hgc : "gc" ∈ dirs) :
    (dirs.dropWhile (· != "gc")).getD 1 "" = gc.name ↔
      ∃ front rest, dirs = front ++ "gc" :: gc.name :: rest ∧ "gc" ∉ front := by
  constructor
  · intro htag
    obtain ⟨front, rest, hdirs, hfront⟩ := List.eq_append_cons_of_mem hgc
    rw [hdirs, dropWhile_append_cons rest hfront] at htag
    cases rest with
    | nil => exact absurd htag.symm (name_ne_empty gc)
    | cons next rest =>
        obtain rfl : next = gc.name := htag
        exact ⟨front, rest, hdirs, hfront⟩
  · rintro ⟨front, rest, rfl, hfront⟩
    rw [dropWhile_append_cons _ hfront]
    rfl

/-- A source is needed exactly when it is selected, where the stems of optional sources have no
dots. -/
theorem isNeededAt_iff (h : IsSourceWay way)
    (hstem : "optional" ∈ way.dropLast → '.' ∉ (stemOf way).toList) :
    isNeededAt lib gc links way = true ↔ IsSelected gc links way := by
  have hsteps : ∀ s ∈ way, isStep s = true := fun s hs => isStep_of_isEntryName (h.2.1 s hs)
  rw [isNeededAt_eq hsteps]
  obtain ⟨suffix, hsuffix, -, hway⟩ := exists_stem h
  have hname : nameOf way = stemOf way ++ suffix := by
    conv_lhs => rw [hway, nameOf, List.getLast?_concat, Option.getD_some]
  by_cases hoptional : "optional" ∈ way.dropLast
  · rw [if_pos hoptional, hname, Path.firstPart_extended _ (isExtension_of_mem hsuffix),
      Path.firstPart_of_not_mem (hstem hoptional), List.contains_iff_mem]
    constructor
    · exact .optional hoptional
    · intro hselected
      cases hselected with
      | optional _ hlinked => exact hlinked
      | collector _ _ hnot _ _ => exact absurd hoptional hnot
      | always hnot _ => exact absurd hoptional hnot
  · rw [if_neg hoptional]
    by_cases hgc : "gc" ∈ way.dropLast
    · rw [if_pos hgc, beq_iff_eq, tag_eq_iff hgc]
      constructor
      · rintro ⟨front, rest, hdirs, hfront⟩
        exact .collector front rest hoptional hdirs hfront
      · intro hselected
        cases hselected with
        | optional hoptional' _ => exact absurd hoptional' hoptional
        | collector front rest _ hdirs hfront => exact ⟨front, rest, hdirs, hfront⟩
        | always _ hnot => exact absurd hgc hnot
    · rw [if_neg hgc]
      exact iff_of_true rfl (.always hoptional hgc)

end Need

section Optional

variable {dirs : List String} {stem suffix : String}

theorem isNeededAt_optional {lib : Path} {gc : Collector} {links : List String}
    (hsteps : ∀ s ∈ dirs ++ [stem ++ suffix], isStep s = true) (hoptional : "optional" ∈ dirs)
    (hsuffix : suffix ∈ sourceSuffixes) :
    isNeededAt lib gc links (dirs ++ [stem ++ suffix]) = links.contains (Path.firstPart stem) := by
  rw [isNeededAt_eq hsteps, List.dropLast_concat, if_pos hoptional, nameOf, List.getLast?_concat,
    Option.getD_some, Path.firstPart_extended stem (isExtension_of_mem hsuffix)]

/-- A source below a directory `optional` is needed when what stands before the first dot of its
name is a library that is linked. This is the same as asking for its stem exactly when the stem has
no dot. -/
theorem optional_isNeeded_by_first_part (hsteps : ∀ s ∈ dirs ++ [stem ++ suffix], isStep s = true)
    (hoptional : "optional" ∈ dirs) (hsuffix : suffix ∈ sourceSuffixes) :
    (∀ lib gc links, (sourceAt lib (lib.descend (dirs ++ [stem ++ suffix]))).isNeeded gc links =
        .ok (links.contains (Path.firstPart stem))) ∧
      ((∀ lib gc links, (sourceAt lib (lib.descend (dirs ++ [stem ++ suffix]))).isNeeded gc links =
          .ok (links.contains stem)) ↔ '.' ∉ stem.toList) := by
  have hneeded : ∀ lib gc links,
      (sourceAt lib (lib.descend (dirs ++ [stem ++ suffix]))).isNeeded gc links =
        .ok (links.contains (Path.firstPart stem)) := fun lib gc links => by
    rw [isNeeded_sourceAt, isNeededAt_optional hsteps hoptional hsuffix]
  refine ⟨hneeded, ?_, fun hdot lib gc links => ?_⟩
  · intro hstem
    have hlinked := (hneeded (.parse "") .default [stem]).symm.trans
      (hstem (.parse "") .default [stem])
    have hsame : Path.firstPart stem = stem := by
      simpa using Except.ok.inj hlinked
    exact Path.firstPart_eq_self_iff.1 hsame
  · rw [hneeded, Path.firstPart_of_not_mem hdot]

/-- The library `a` brings in the source `optional/a.b.c`. -/
theorem optional_isNeeded_by_a :
    (sourceAt (.parse "/lib") ((Path.parse "/lib").descend ["optional", "a.b.c"])).isNeeded .immix
      ["a"] = .ok true := by
  have hneeded := (optional_isNeeded_by_first_part
    (show ∀ s ∈ ["optional"] ++ ["a.b" ++ ".c"], isStep s = true by decide)
    (by decide) (by decide)).1 (.parse "/lib") .immix ["a"]
  exact hneeded.trans (congrArg Except.ok (by decide))

/-- The source `optional/a.b.c` is left out although its stem is a library that is linked, and it is
brought in by one that is not its stem. -/
theorem dotted_stem_not_needed :
    stemOf ["optional", "a.b.c"] = "a.b" ∧
      (sourceAt (.parse "/lib") ((Path.parse "/lib").descend ["optional", "a.b.c"])).isNeeded
        .immix ["a.b"] = .ok false ∧
      (sourceAt (.parse "/lib") ((Path.parse "/lib").descend ["optional", "a.b.c"])).isNeeded
        .immix ["a"] = .ok true :=
  ⟨by decide, by decide +kernel, by decide +kernel⟩

end Optional

namespace IsSelected

variable {gc : Collector} {links more : List String} {way : Location}

theorem mono (hmore : links ⊆ more) (h : IsSelected gc links way) : IsSelected gc more way := by
  cases h with
  | optional hoptional hlinked => exact .optional hoptional (hmore hlinked)
  | collector front rest hnot hdirs hfront => exact .collector front rest hnot hdirs hfront
  | always hnot hgc => exact .always hnot hgc

theorem optional_of_not (h : IsSelected gc more way) (hnot : ¬ IsSelected gc links way) :
    "optional" ∈ way.dropLast := by
  cases h with
  | optional hoptional _ => exact hoptional
  | collector front rest hoptional hdirs hfront =>
      exact absurd (.collector front rest hoptional hdirs hfront) hnot
  | always hoptional hgc => exact absurd (.always hoptional hgc) hnot

theorem tag_eq (h : IsSelected gc links way) (hoptional : "optional" ∉ way.dropLast)
    {front rest : List String} (hdirs : way.dropLast = front ++ "gc" :: rest)
    (hfront : "gc" ∉ front) : rest.head? = some gc.name := by
  cases h with
  | optional hoptional' _ => exact absurd hoptional' hoptional
  | collector front' rest' _ hdirs' hfront' =>
      have hfound := dropWhile_append_cons rest hfront
      rw [← hdirs, hdirs', dropWhile_append_cons _ hfront', List.cons.injEq] at hfound
      rw [← hfound.2]
      rfl
  | always _ hgc => exact absurd (by simp [hdirs]) hgc

end IsSelected

theorem name_injective {gc other : Collector} (h : gc.name = other.name) : gc = other := by
  cases gc <;> cases other <;> first | rfl | exact absurd h (by decide)

theorem key_descend (root : Path) {way : Location} (hsteps : ∀ s ∈ way, isStep s = true) :
    (root.descend way).key = root.key ++ way := by
  rw [Path.key, Path.key, Path.anchor_descend root hsteps, Path.steps_descend root hsteps]
  split <;> simp

section Scan

variable {around : Surroundings} {w : World} {root : Path} {t : FileTree}
  {ways : List Location}

theorem mem_sourceWays_iff (hwf : t.WellFormed) {base way : Location} :
    way ∈ sourceWays t base ↔
      way ≠ [] ∧ t.isFile (base ++ way) = true ∧ isSourceName (nameOf way) := by
  rw [mem_sourceWays hwf]
  constructor
  · rintro ⟨⟨hne, -, hname⟩, hfile⟩
    exact ⟨hne, hfile, hname⟩
  · rintro ⟨hne, hfile, hname⟩
    exact ⟨⟨hne, fun s hs => hwf.named _ (isOccupied_of_isFile hfile) s
      (List.mem_append_right _ hs), hname⟩, hfile⟩

/-- Ways in the order of their steps. -/
def InOrder (ways : List Location) : Prop :=
  ways.Pairwise fun a b => compare a b = .lt

theorem InOrder.filter (h : InOrder ways) (p : Location → Bool) : InOrder (ways.filter p) :=
  List.Pairwise.filter p h

theorem InOrder.nodup (h : InOrder ways) : ways.Nodup := by
  refine List.Pairwise.imp (fun {a b} hlt heq => ?_) h
  simp [heq] at hlt

theorem inOrder_sourceWays (t : FileTree) (base : Location) : InOrder (sourceWays t base) :=
  List.pairwise_map.2 ((below_pairwise t base).filter _)

theorem sourcesAt_pairwise (hwf : t.WellFormed) (root : Path) (base : Location) :
    (sourcesAt root (sourceWays t base)).Pairwise fun a b =>
      compare a.path.key b.path.key = .lt := by
  refine List.pairwise_map.2 (List.Pairwise.imp_of_mem (fun {a b} ha hb hlt => ?_)
    (inOrder_sourceWays t base))
  have hsteps : ∀ {way}, way ∈ sourceWays t base → ∀ s ∈ way, isStep s = true :=
    fun hway s hs => isStep_of_isEntryName (((mem_sourceWays hwf).1 hway).1.2.1 s hs)
  change compare (root.descend a).key (root.descend b).key = .lt
  rw [key_descend root (hsteps ha), key_descend root (hsteps hb), compare_append_left, hlt]

/-- A scan lists the sources below its root, each once and in the order of their paths, and
selecting splits the list, in its order, by whether a source is selected. With more libraries only
optional sources are needed in addition, and a source directly below `gc` or of another collector
never is. As in every result about a listing, no path below the root is longer than the system
takes. -/
theorem select_of_scan (hwf : w.tree.WellFormed)
    (hroot : Disk.LeadsToDirectory root w.tree around.directory)
    (hstems : ∀ way, w.tree.isFile (goalOf around.directory root ++ way) = true →
      isSourceName (nameOf way) → "optional" ∈ way.dropLast → '.' ∉ (stemOf way).toList) :
    ∃ ways, perform (scan root) around w = (.ok ⟨root, sourcesAt root ways⟩, w) ∧
      (∀ way, way ∈ ways ↔ way ≠ [] ∧
        w.tree.isFile (goalOf around.directory root ++ way) = true ∧ isSourceName (nameOf way)) ∧
      (sourcesAt root ways).Pairwise (fun a b => compare a.path.key b.path.key = .lt) ∧
      ∀ gc links,
        Manifest.select ⟨root, sourcesAt root ways⟩ gc links =
          .ok (sourcesAt root (ways.filter (isNeededAt root gc links)),
            sourcesAt root (ways.filter fun way => !isNeededAt root gc links way)) ∧
        ∀ way ∈ ways, (isNeededAt root gc links way = true ↔ IsSelected gc links way) ∧
          (∀ more, links ⊆ more → isNeededAt root gc links way = true →
            isNeededAt root gc more way = true) ∧
          (∀ more, isNeededAt root gc more way = true → isNeededAt root gc links way = false →
            "optional" ∈ way.dropLast) ∧
          ∀ front rest, "optional" ∉ way.dropLast → way.dropLast = front ++ "gc" :: rest →
            "gc" ∉ front →
            (∀ other : Collector, other ≠ gc → rest.head? = some other.name →
              isNeededAt root gc links way = false) ∧
            (rest = [] → isNeededAt root gc links way = false) := by
  refine ⟨_, perform_scan hwf hroot, fun way => mem_sourceWays_iff hwf,
    sourcesAt_pairwise hwf root _, fun gc links => ⟨select_ways root gc links _, ?_⟩⟩
  intro way hway
  obtain ⟨hsource, hfile⟩ := (mem_sourceWays hwf).1 hway
  have hneeded : ∀ links, isNeededAt root gc links way = true ↔ IsSelected gc links way :=
    fun links => isNeededAt_iff hsource (hstems way hfile hsource.2.2)
  have hspared : ∀ links, isNeededAt root gc links way = false ↔ ¬ IsSelected gc links way :=
    fun links => by rw [← hneeded, Bool.not_eq_true]
  refine ⟨hneeded links, fun more hmore h => ?_, fun more h hnot => ?_,
    fun front rest hoptional hdirs hfront => ⟨fun other hother htag => ?_, fun hrest => ?_⟩⟩
  · exact (hneeded more).2 (((hneeded links).1 h).mono hmore)
  · exact ((hneeded more).1 h).optional_of_not ((hspared links).1 hnot)
  · refine (hspared links).2 fun h => hother (name_injective ?_)
    exact Option.some.inj (htag.symm.trans (h.tag_eq hoptional hdirs hfront))
  · refine (hspared links).2 fun h => ?_
    have htag := h.tag_eq hoptional hdirs hfront
    rw [hrest] at htag
    cases htag

end Scan

section Sample

/-- A library with a source of each kind, and one that belongs to no collector. -/
def sampleLibrary : FileTree :=
  let directories := [["lib"], ["lib", "gc"], ["lib", "gc", "immix"], ["lib", "optional"]]
  let files := [["lib", "gc", "immix", "heap.c"], ["lib", "gc", "shared.c"],
    ["lib", "main.cpp"], ["lib", "optional", "z.c"]]
  files.foldl (fun t way => t.writeFile way [])
    (directories.foldl (fun t way => t.add way .directory)
    .empty)

/-- What a build with this collector and these libraries compiles of the sample. -/
def sampleNeeded (gc : Collector) (links : List String) : List Location :=
  (sourceWays sampleLibrary ["lib"]).filter (isNeededAt (.parse "/lib") gc links)

/-- The sample satisfies what is asked of a library, so its sources are split as they should be. -/
theorem select_of_scan_sample :
    sampleNeeded .immix [] = [["gc", "immix", "heap.c"], ["main.cpp"]] ∧
      sampleNeeded .boehm ["z"] = [["main.cpp"], ["optional", "z.c"]] ∧
      IsSelected .boehm ["z"] ["optional", "z.c"] := by
  have hwf : (World.ofTree sampleLibrary).tree.WellFormed := by
    decide +kernel
  have hroot : Disk.LeadsToDirectory (.parse "/lib") (World.ofTree sampleLibrary).tree
      (Surroundings.still []).directory := rfl
  have hstems : ∀ way, (World.ofTree sampleLibrary).tree.isFile
      (goalOf (Surroundings.still []).directory (.parse "/lib") ++ way) = true →
      isSourceName (nameOf way) → "optional" ∈ way.dropLast → '.' ∉ (stemOf way).toList := by
    intro way hfile hname
    have hall : ∀ way ∈ sourceWays sampleLibrary ["lib"],
        "optional" ∈ way.dropLast → '.' ∉ (stemOf way).toList := by
      decide +kernel
    refine hall way ((mem_sourceWays_iff hwf).2 ⟨?_, hfile, hname⟩)
    rintro rfl
    exact absurd hname (by decide)
  obtain ⟨ways, -, hways, -, hselect⟩ := select_of_scan hwf hroot hstems
  refine ⟨by decide +kernel, by decide +kernel, ?_⟩
  have hmem : ["optional", "z.c"] ∈ ways := (hways _).2 ⟨by decide, by decide +kernel, by decide⟩
  exact (((hselect .boehm ["z"]).2 _ hmem).1).1 (by decide +kernel)

end Sample

end StagedBuild.NativeLibrary
