import Mathlib.Data.List.Forall2
import Mathlib.Data.List.TakeWhile
import StagedBuild.Artifact.Pom
import StagedBuild.Proofs.Action.Perform

/-!
What a project description declares. The properties, the replacing of placeholders and the
conditions on a dependency are stated apart from the way they are computed; a description gives
one coordinate for each dependency that is declared in full, in document order, and warns of each
other one that counts.
-/

namespace StagedBuild.Pom

open Action

section Placeholders

variable {properties : Properties} {cs name rest out : List Char} {bound : Nat}

/-- A placeholder stands at the front of a text. Its name is not empty and holds no closing brace;
after the brace comes the rest. -/
structure Opens (cs name rest : List Char) : Prop where
  name_ne : name ≠ []
  name_free : '\x7d' ∉ name
  eq : cs = '$' :: '\x7b' :: (name ++ '\x7d' :: rest)

theorem Opens.length_lt (h : Opens cs name rest) : rest.length < cs.length := by
  rw [h.eq]
  simp only [List.length_cons, List.length_append]
  omega

theorem takeWhile_of_not_mem {c : Char} (h : c ∉ name) (rest : List Char) :
    (name ++ c :: rest).takeWhile (· != c) = name := by
  rw [List.takeWhile_append_of_pos, List.takeWhile_cons_of_neg, List.append_nil]
  · simp
  · intro x hx
    exact bne_iff_ne.2 fun heq => h (heq ▸ hx)

theorem replaceWithin_opens (h : Opens cs name rest) :
    replaceWithin properties (bound + 1) cs =
      (properties.get? (String.ofList name)).elim ('$' :: '\x7b' :: (name ++ ['\x7d']))
        String.toList ++ replaceWithin properties bound rest := by
  obtain ⟨hne, hfree, rfl⟩ := h
  obtain ⟨c, more, rfl⟩ := List.exists_cons_of_ne_nil hne
  rw [replaceWithin]
  simp only [takeWhile_of_not_mem hfree, List.drop_left]
  cases properties.get? (String.ofList (c :: more)) <;> rfl

theorem opens_of_takeWhile {tail : List Char} {c d : Char} {more after : List Char}
    (hname : tail.takeWhile (· != '\x7d') = c :: more)
    (hafter : tail.drop (c :: more).length = d :: after) :
    Opens ('$' :: '\x7b' :: tail) (c :: more) after := by
  have hsplit := List.takeWhile_append_dropWhile (p := (· != '\x7d')) (l := tail)
  rw [hname] at hsplit
  have hdrop : tail.dropWhile (· != '\x7d') = d :: after :=
    List.drop_left.symm.trans (by rw [hsplit, hafter])
  have hd : d = '\x7d' := by
    have hhead := List.head?_dropWhile_not (· != '\x7d') tail
    rw [hdrop] at hhead
    simpa using hhead
  refine ⟨List.cons_ne_nil c more, fun hmem => ?_, ?_⟩
  · rw [← hname] at hmem
    simpa using List.mem_takeWhile_imp hmem
  · rw [← hsplit, hdrop, hd]

theorem replaceWithin_char {c : Char} (h : ∀ name tail, ¬ Opens (c :: rest) name tail) :
    replaceWithin properties (bound + 1) (c :: rest) =
      c :: replaceWithin properties bound rest := by
  by_cases hfront : ∃ tail, c = '$' ∧ rest = '\x7b' :: tail
  · obtain ⟨tail, rfl, rfl⟩ := hfront
    rw [replaceWithin]
    split
    next hname hafter => exact absurd (opens_of_takeWhile hname (hname ▸ hafter)) (h _ _)
    next => rfl
  · rw [replaceWithin]
    exact fun tail hc hrest => hfront ⟨tail, hc, hrest⟩

/-- Every placeholder that stands for a value is replaced, once and from left to right; what is put
in is not looked at again. -/
inductive Replaces (binds : String → String → Prop) : List Char → List Char → Prop
  | done : Replaces binds [] []
  | bound {cs name rest out : List Char} {value : String} (h : Opens cs name rest)
      (hvalue : binds (String.ofList name) value) (hrest : Replaces binds rest out) :
      Replaces binds cs (value.toList ++ out)
  | unbound {cs name rest out : List Char} (h : Opens cs name rest)
      (hnone : ∀ value, ¬ binds (String.ofList name) value) (hrest : Replaces binds rest out) :
      Replaces binds cs ('$' :: '\x7b' :: (name ++ '\x7d' :: out))
  | char {c : Char} {rest out : List Char} (h : ∀ name tail, ¬ Opens (c :: rest) name tail)
      (hrest : Replaces binds rest out) : Replaces binds (c :: rest) (c :: out)

/-- Replacing follows the relation as soon as its bound is the length of the text. -/
theorem replaces_replaceWithin {binds : String → String → Prop}
    (hbinds : ∀ name value, properties.get? name = some value ↔ binds name value)
    (hbound : cs.length ≤ bound) : Replaces binds cs (replaceWithin properties (bound + 1) cs) := by
  induction bound generalizing cs with
  | zero =>
    obtain rfl := List.eq_nil_of_length_eq_zero (Nat.le_zero.1 hbound)
    exact .done
  | succ bound ih =>
    by_cases hopens : ∃ name rest, Opens cs name rest
    · obtain ⟨name, rest, hopens⟩ := hopens
      have hshorter : rest.length ≤ bound := Nat.le_of_lt_succ (hopens.length_lt.trans_le hbound)
      have hrest := ih hshorter
      rw [replaceWithin_opens hopens]
      cases hvalue : properties.get? (String.ofList name) with
      | some value => exact .bound hopens ((hbinds _ _).1 hvalue) hrest
      | none =>
        have hnone : ∀ value, ¬ binds (String.ofList name) value := fun value h =>
          Option.some_ne_none value (((hbinds _ _).2 h).symm.trans hvalue)
        simpa using Replaces.unbound hopens hnone hrest
    · cases cs with
      | nil => exact .done
      | cons c rest =>
        have hchar : ∀ name tail, ¬ Opens (c :: rest) name tail := fun name tail h =>
          hopens ⟨name, tail, h⟩
        rw [replaceWithin_char hchar]
        exact .char hchar (ih (Nat.le_of_succ_le_succ hbound))

theorem Replaces.eq_replaceWithin {binds : String → String → Prop}
    (hbinds : ∀ name value, properties.get? name = some value ↔ binds name value)
    (h : Replaces binds cs out) (hbound : cs.length ≤ bound) :
    out = replaceWithin properties (bound + 1) cs := by
  induction h generalizing bound with
  | done => rfl
  | @bound cs name rest out value hopens hvalue _ ih =>
    obtain ⟨bound, rfl⟩ := Nat.exists_eq_add_one_of_ne_zero
      (Nat.ne_zero_of_lt (hopens.length_lt.trans_le hbound))
    rw [replaceWithin_opens hopens, (hbinds _ _).2 hvalue, Option.elim_some,
      ih (Nat.le_of_lt_succ (hopens.length_lt.trans_le hbound))]
  | @unbound cs name rest out hopens hnone _ ih =>
    obtain ⟨bound, rfl⟩ := Nat.exists_eq_add_one_of_ne_zero
      (Nat.ne_zero_of_lt (hopens.length_lt.trans_le hbound))
    have hvalue : properties.get? (String.ofList name) = none :=
      Option.eq_none_iff_forall_ne_some.2 fun value h => hnone value ((hbinds _ _).1 h)
    rw [replaceWithin_opens hopens, hvalue,
      ih (Nat.le_of_lt_succ (hopens.length_lt.trans_le hbound))]
    simp
  | @char c rest out hchar _ ih =>
    obtain ⟨bound, rfl⟩ := Nat.exists_eq_add_one_of_ne_zero
      (Nat.ne_zero_of_lt ((Nat.succ_pos rest.length).trans_le hbound))
    rw [replaceWithin_char hchar, ih (Nat.le_of_succ_le_succ hbound)]

theorem hasPlaceholder_iff (cs : List Char) :
    hasPlaceholder cs = true ↔ ['$', '\x7b'] <:+: cs := by
  induction cs with
  | nil => simp [hasPlaceholder]
  | cons c rest ih =>
    rw [List.infix_cons_iff, ← ih]
    by_cases hfront : ∃ tail, c = '$' ∧ rest = '\x7b' :: tail
    · obtain ⟨tail, rfl, rfl⟩ := hfront
      simp [hasPlaceholder]
    · rw [hasPlaceholder]
      · refine ⟨Or.inr, fun h => h.resolve_left fun hprefix => ?_⟩
        obtain ⟨tail, htail⟩ := hprefix
        obtain ⟨rfl, rfl⟩ := List.cons.inj htail
        exact hfront ⟨tail, rfl, rfl⟩
      · exact fun tail hc hrest => hfront ⟨tail, hc, hrest⟩

theorem resolve?_eq_some_iff {binds : String → String → Prop}
    (hbinds : ∀ name value, properties.get? name = some value ↔ binds name value)
    {value resolved : String} :
    resolve? properties value = some resolved ↔
      Replaces binds value.toList resolved.toList ∧ ¬ ['$', '\x7b'] <:+: resolved.toList := by
  have hlength : value.toList.length ≤ value.length := le_of_eq String.length_toList
  rw [resolve?, ← hasPlaceholder_iff]
  constructor
  · intro h
    split at h
    next => cases h
    next hnone =>
      obtain rfl := Option.some.inj h
      rw [String.toList_ofList]
      exact ⟨replaces_replaceWithin hbinds hlength, hnone⟩
  · rintro ⟨hreplaces, hnone⟩
    rw [← hreplaces.eq_replaceWithin hbinds hlength, if_neg hnone, String.ofList_toList]

end Placeholders

section Values

variable {properties declared : Properties} {root : Xml.Element} {name value version : String}

theorem Properties.get?_append (properties declared : Properties) (name : String) :
    Properties.get? (properties ++ declared) name =
      (declared.get? name).or (properties.get? name) := by
  rw [get?, List.reverse_append, List.find?_append, Option.map_or]
  rfl

theorem Properties.get?_eq_some_iff :
    properties.get? name = some value ↔
      ∃ before after, properties = before ++ (name, value) :: after ∧
        ∀ p ∈ after, p.1 ≠ name := by
  rw [get?, Option.map_eq_some_iff]
  constructor
  · rintro ⟨⟨_, _⟩, hfind, rfl⟩
    obtain ⟨hname, front, back, hsplit, hfront⟩ := List.find?_eq_some_iff_append.1 hfind
    obtain rfl := beq_iff_eq.1 hname
    refine ⟨back.reverse, front.reverse, ?_, fun p hp => ?_⟩
    · rw [← List.reverse_reverse properties, hsplit]
      simp
    · simpa using hfront p (List.mem_reverse.1 hp)
  · rintro ⟨before, after, rfl, hafter⟩
    refine ⟨(name, value), List.find?_eq_some_iff_append.2
      ⟨beq_self_eq_true name, after.reverse, before.reverse, by simp, fun p hp => ?_⟩, rfl⟩
    simpa using hafter p (List.mem_reverse.1 hp)

theorem Properties.get?_eq_none_iff :
    properties.get? name = none ↔ ∀ p ∈ properties, p.1 ≠ name := by
  simp [get?]

/-- The property that a project gives a value: the last one of its name among the children of the
first element for properties, or else the version of the project under one of its two names. -/
inductive Binds (root : Xml.Element) (version : String) : String → String → Prop
  | declared {e p : Xml.Element} {before after : List Xml.Element}
      (he : root.child? "properties" = some e) (hsplit : e.children = before ++ p :: after)
      (hlast : ∀ q ∈ after, q.name ≠ p.name) : Binds root version p.name (Text.trim p.text)
  | own {name : String} (hname : name = "project.version" ∨ name = "version")
      (hnone : ∀ e, root.child? "properties" = some e → ∀ p ∈ e.children, p.name ≠ name) :
      Binds root version name version

theorem get?_declared_iff {children : List Xml.Element} :
    Properties.get? (children.map fun p => (p.name, Text.trim p.text)) name = some value ↔
      ∃ before p after, children = before ++ p :: after ∧ (∀ q ∈ after, q.name ≠ p.name) ∧
        p.name = name ∧ Text.trim p.text = value := by
  rw [Properties.get?_eq_some_iff]
  constructor
  · rintro ⟨before, after, hsplit, hlast⟩
    obtain ⟨before, tail, rfl, rfl, htail⟩ := List.map_eq_append_iff.1 hsplit
    obtain ⟨p, after, rfl, hp, rfl⟩ := List.map_eq_cons_iff.1 htail
    obtain ⟨rfl, rfl⟩ := Prod.mk.inj hp
    exact ⟨before, p, after, rfl, fun q hq => hlast _ (List.mem_map_of_mem hq), rfl, rfl⟩
  · rintro ⟨before, p, after, rfl, hlast, rfl, rfl⟩
    refine ⟨_, _, List.map_append.trans (by rw [List.map_cons]), ?_⟩
    exact List.forall_mem_map.2 hlast

theorem get?_own_iff :
    Properties.get? [("project.version", version), ("version", version)] name = some value ↔
      (name = "project.version" ∨ name = "version") ∧ value = version := by
  rw [Properties.get?_eq_some_iff]
  constructor
  · rintro ⟨before, after, hsplit, -⟩
    have hmem : (name, value) ∈ [("project.version", version), ("version", version)] := by
      rw [hsplit]
      simp
    simpa [← or_and_right] using hmem
  · rintro ⟨rfl | rfl, rfl⟩
    · exact ⟨[], [("version", value)], rfl, by simp⟩
    · exact ⟨[("project.version", value)], [], rfl, by simp⟩

theorem propertiesOf_get?_iff :
    (propertiesOf root version).get? name = some value ↔ Binds root version name value := by
  rw [propertiesOf, Properties.get?_append, Option.or_eq_some_iff, get?_own_iff,
    Properties.get?_eq_none_iff]
  constructor
  · intro h
    split at h
    next e he =>
      rw [get?_declared_iff] at h
      obtain ⟨before, p, after, hsplit, hlast, rfl, rfl⟩ | ⟨hnone, hname, rfl⟩ := h
      · exact .declared he hsplit hlast
      · refine .own hname fun e' he' p hp => ?_
        obtain rfl := Option.some.inj (he.symm.trans he')
        exact hnone _ (List.mem_map_of_mem hp)
    next hnone =>
      obtain h | ⟨-, hname, rfl⟩ := h
      · cases h
      · exact .own hname fun e he => by rw [hnone] at he; cases he
  · intro h
    cases h with
    | declared he hsplit hlast =>
      rw [he]
      exact .inl (get?_declared_iff.2 ⟨_, _, _, hsplit, hlast, rfl, rfl⟩)
    | own hname hnone =>
      refine .inr ⟨?_, hname, rfl⟩
      split
      next e he => exact List.forall_mem_map.2 (hnone e he)
      next => simp

end Values

section Dependencies

variable {root d : Xml.Element} {dependent c : Coordinate} {text : String}

/-- A dependency counts if it is for compiling or running and not optional. -/
structure Counts (d : Xml.Element) : Prop where
  scope : ∀ scope, trimmedChild? d "scope" = some scope → scope ∈ ["", "compile", "runtime"]
  optional : trimmedChild? d "optional" ≠ some "true"

theorem counts_iff : counts d = true ↔ Counts d := by
  rw [counts, Bool.and_eq_true, bne_iff_ne]
  refine ⟨fun ⟨hscope, hoptional⟩ => ⟨?_, hoptional⟩, fun ⟨hscope, hoptional⟩ => ⟨?_, hoptional⟩⟩
  · intro scope h
    rw [h] at hscope
    by_cases hempty : scope = ""
    · simp [hempty]
    · simpa [nonEmpty?, Option.filter, hempty, countingScopes] using hscope
  · cases h : trimmedChild? d "scope" with
    | none => rfl
    | some scope =>
      have hmem := hscope scope h
      simp only [List.mem_cons, List.not_mem_nil, or_false] at hmem
      obtain rfl | rfl | rfl := hmem <;> rfl

instance : DecidablePred Counts := fun d => decidable_of_iff (counts d = true) counts_iff

/-- The dependencies of a project that count, in document order. -/
def countingDependencies (root : Xml.Element) : List Xml.Element :=
  ((root.child? "dependencies").elim [] Xml.Element.children).filter fun d =>
    d.name = "dependency" ∧ Counts d

/-- A dependency is declared in full: it names an artifact, and its version is not empty and left
open nowhere. -/
structure Declares (root : Xml.Element) (dependent : Coordinate) (d : Xml.Element)
    (c : Coordinate) : Prop where
  org : trimmedChild? d "groupId" = some c.org
  org_ne : c.org ≠ ""
  name : trimmedChild? d "artifactId" = some c.name
  name_ne : c.name ≠ ""
  version : Replaces (Binds root dependent.version) ((trimmedChild? d "version").getD "").toList
    c.version.toList
  version_ne : c.version ≠ ""
  version_closed : ¬ ['$', '\x7b'] <:+: c.version.toList

/-- The warning about a dependency that is not declared in full. -/
def unresolved (dependent : Coordinate) (d : Xml.Element) : Warning :=
  .unresolvedDependency (trimmedChild? d "groupId") (trimmedChild? d "artifactId") dependent.text

theorem nonEmpty?_eq_some_iff {s : Option String} {t : String} :
    nonEmpty? s = some t ↔ s = some t ∧ t ≠ "" := by
  simp [nonEmpty?]

theorem coordinateOf_eq_ok_iff :
    coordinateOf (propertiesOf root dependent.version) dependent d = .ok c ↔
      Declares root dependent d c := by
  have hversion : ∀ value resolved : String,
      resolve? (propertiesOf root dependent.version) value = some resolved ↔
        Replaces (Binds root dependent.version) value.toList resolved.toList ∧
          ¬ ['$', '\x7b'] <:+: resolved.toList := fun _ _ =>
    resolve?_eq_some_iff fun _ _ => propertiesOf_get?_iff
  rw [coordinateOf]
  constructor
  · intro h
    split at h
    next horg hname hresolved =>
      obtain rfl := Except.ok.inj h
      rw [nonEmpty?_eq_some_iff] at horg hname hresolved
      rw [hversion] at hresolved
      exact ⟨horg.1, horg.2, hname.1, hname.2, hresolved.1.1, hresolved.2, hresolved.1.2⟩
    next => cases h
  · intro h
    simp only [nonEmpty?_eq_some_iff.2 ⟨h.org, h.org_ne⟩,
      nonEmpty?_eq_some_iff.2 ⟨h.name, h.name_ne⟩,
      nonEmpty?_eq_some_iff.2 ⟨(hversion _ _).2 ⟨h.version, h.version_closed⟩, h.version_ne⟩]

theorem Declares.unique {c' : Coordinate} (h : Declares root dependent d c)
    (h' : Declares root dependent d c') : c = c' :=
  Except.ok.inj ((coordinateOf_eq_ok_iff.2 h).symm.trans (coordinateOf_eq_ok_iff.2 h'))

theorem coordinateOf_eq_error (h : ∀ c, ¬ Declares root dependent d c) :
    coordinateOf (propertiesOf root dependent.version) dependent d =
      .error (unresolved dependent d) := by
  cases hc : coordinateOf (propertiesOf root dependent.version) dependent d with
  | ok c => exact absurd (coordinateOf_eq_ok_iff.1 hc) (h c)
  | error warning =>
    rw [coordinateOf] at hc
    split at hc
    next => cases hc
    next => exact hc.symm ▸ rfl

instance : DecidablePred fun d => ∃ c, Declares root dependent d c := fun d =>
  match h : coordinateOf (propertiesOf root dependent.version) dependent d with
  | .ok c => isTrue ⟨c, coordinateOf_eq_ok_iff.1 h⟩
  | .error _ => isFalse fun ⟨c, hc⟩ => by
    rw [coordinateOf_eq_ok_iff.2 hc] at h
    cases h

theorem findings_eq (root : Xml.Element) (dependent : Coordinate) :
    findings root dependent =
      (countingDependencies root).map
        (coordinateOf (propertiesOf root dependent.version) dependent) := by
  rw [findings, countingDependencies]
  cases root.child? "dependencies" with
  | none => rfl
  | some e =>
    refine congrArg (List.map _) (List.filter_congr fun d _ => ?_)
    rw [Bool.eq_iff_iff, Bool.and_eq_true, beq_iff_eq, counts_iff, decide_eq_true_iff]

/-- Each dependency in a list comes to its coordinate or to one warning. -/
theorem perform_report (root : Xml.Element) (dependent : Coordinate) (around : Surroundings)
    (ds : List Xml.Element) (w : World) :
    ∃ found,
      List.Forall₂ (Declares root dependent) (ds.filter fun d => ∃ c, Declares root dependent d c)
        found ∧
      perform (report (ds.map (coordinateOf (propertiesOf root dependent.version) dependent)))
          around w =
        (.ok found,
          { w with
            history :=
              ((ds.filter fun d => ¬ ∃ c, Declares root dependent d c).map
                fun d => Event.warned (unresolved dependent d)).reverse ++ w.history }) := by
  induction ds generalizing w with
  | nil => exact ⟨[], .nil, rfl⟩
  | cons d ds ih =>
    by_cases hd : ∃ c, Declares root dependent d c
    · obtain ⟨c, hc⟩ := hd
      obtain ⟨found, hfound, hrest⟩ := ih w
      refine ⟨c :: found, ?_, ?_⟩
      · rw [List.filter_cons, if_pos (decide_eq_true ⟨c, hc⟩)]
        exact .cons hc hfound
      · rw [List.map_cons, coordinateOf_eq_ok_iff.2 hc, report, perform_bind_ok hrest,
          perform_pure, List.filter_cons, if_neg (by simpa using ⟨c, hc⟩)]
    · obtain ⟨found, hfound, hrest⟩ :=
        ih { w with history := .warned (unresolved dependent d) :: w.history }
      refine ⟨found, ?_, ?_⟩
      · rw [List.filter_cons, if_neg (by simpa using hd)]
        exact hfound
      · rw [List.map_cons, coordinateOf_eq_error (not_exists.1 hd), report, Action.warn,
          perform_bind_ok (perform_note _ around w), hrest, List.filter_cons,
          if_pos (decide_eq_true hd)]
        simp

/-- A description gives one coordinate for each dependency that counts and is declared in full, in
document order; of each other dependency that counts it warns once, and nothing else happens. -/
theorem dependencies_exact (hroot : Xml.parse? text = some root) (dependent : Coordinate)
    (around : Surroundings) (w : World) :
    ∃ found,
      List.Forall₂ (Declares root dependent)
        ((countingDependencies root).filter fun d => ∃ c, Declares root dependent d c) found ∧
      perform (dependencies text dependent) around w =
        (.ok found,
          { w with
            history :=
              (((countingDependencies root).filter fun d =>
                ¬ ∃ c, Declares root dependent d c).map
                  fun d => Event.warned (unresolved dependent d)).reverse ++ w.history }) := by
  rw [dependencies, hroot]
  dsimp only
  rw [findings_eq]
  exact perform_report root dependent around (countingDependencies root) w

/-- A project with a property that is set twice and two dependencies, one of which refers to the
property; the other declares nothing. -/
def twoDependencies : String :=
  "<p><properties><v>1</v><v>2</v></properties><dependencies><dependency><groupId>g</groupId>"
    ++ "<artifactId>a</artifactId><version>$\x7bv\x7d</version></dependency><dependency/>"
    ++ "</dependencies></p>"

theorem one_of_two_dependencies :
    ∃ root found w,
      Xml.parse? twoDependencies = some root ∧
      List.Forall₂ (Declares root ⟨"o", "p", "3"⟩)
        ((countingDependencies root).filter fun d => ∃ c, Declares root ⟨"o", "p", "3"⟩ d c)
        found ∧
      perform (dependencies twoDependencies ⟨"o", "p", "3"⟩) (.still []) (.ofTree .empty) =
        (.ok found, w) ∧
      found = [⟨"g", "a", "2"⟩] ∧ w.warnings = [.unresolvedDependency none none "o:p:3"] := by
  have hroot : Xml.parse? twoDependencies =
      some ((Xml.parse? twoDependencies).get (by decide +kernel)) := (Option.some_get _).symm
  obtain ⟨found, hfound, hperform⟩ :=
    dependencies_exact hroot ⟨"o", "p", "3"⟩ (.still []) (.ofTree .empty)
  have hresult : ∀ r, perform (dependencies twoDependencies ⟨"o", "p", "3"⟩) (.still [])
      (.ofTree .empty) = r → r.1 = .ok [⟨"g", "a", "2"⟩] ∧
        r.2.warnings = [.unresolvedDependency none none "o:p:3"] := by
    rintro _ rfl
    decide +kernel
  obtain ⟨houtcome, hwarnings⟩ := hresult _ hperform
  exact ⟨_, found, _, hroot, hfound, hperform, Except.ok.inj houtcome, hwarnings⟩

end Dependencies

end StagedBuild.Pom
