import StagedBuild.Artifact.PublishedTool
import StagedBuild.Proofs.Properties.Lines

/-!
Manifests of published tools. A text whose keys are not indented says of each key what the last line
with that key says, whatever stands between the lines; and of every text a manifest is made, or the
first key that is missing is named, or the lines that could not be read.
-/

namespace StagedBuild

namespace Properties

variable {s : Section} {st : Standing} {line : Line} {lines : List Line}

section Lookup

variable {β : Type}

theorem lookup_cons_eq (key k : String) (b : β) (rest : List (String × β)) :
    ((key, b) :: rest).lookup k = if k = key then some b else rest.lookup k := by
  by_cases h : k = key
  · rw [if_pos h, h, List.lookup_cons_self]
  · rw [if_neg h, List.lookup_cons, beq_false_of_ne h]

theorem isSome_lookup (entries : List (String × β)) (key : String) :
    (entries.lookup key).isSome = entries.any fun e => e.1 == key := by
  induction entries with
  | nil => rfl
  | cons e rest ih =>
      rw [lookup_cons_eq, List.any_cons]
      by_cases h : key = e.1
      · rw [if_pos h, h, beq_self_eq_true]
        rfl
      · rw [if_neg h, ih, beq_false_of_ne (Ne.symm h), Bool.false_or]

end Lookup

theorem lookup_map_put (s : Section) (key k : String) (value : Value) :
    (s.map fun e => if e.1 == key then (key, value) else e).lookup k =
      if k = key then (s.lookup k).map fun _ => value else s.lookup k := by
  induction s with
  | nil => simp
  | cons e rest ih =>
      rw [List.map_cons, lookup_cons_eq _ _ _ rest]
      by_cases hname : e.1 = key
      · rw [hname, beq_self_eq_true, if_pos rfl, lookup_cons_eq, ih]
        by_cases hk : k = key <;> simp [hk]
      · rw [beq_false_of_ne hname, if_neg Bool.false_ne_true, lookup_cons_eq, ih]
        by_cases hk : k = key
        · have hne : ¬ key = e.1 := Ne.symm hname
          simp [hk, hne]
        · simp [hk]

theorem lookup_put (s : Section) (key k : String) (value : Value) :
    (s.put key value).lookup k = if k = key then some value else s.lookup k := by
  have hkey := isSome_lookup s key
  unfold Section.put
  by_cases hany : (s.any fun e => e.1 == key) = true
  · rw [if_pos hany, lookup_map_put]
    rw [hany, Option.isSome_iff_exists] at hkey
    obtain ⟨old, hold⟩ := hkey
    by_cases hk : k = key
    · rw [if_pos hk, if_pos hk, hk, hold, Option.map_some]
    · rw [if_neg hk, if_neg hk]
  · rw [Bool.not_eq_true] at hany
    rw [hany, Option.isSome_eq_false_iff, Option.isNone_iff_eq_none] at hkey
    rw [hany, if_neg Bool.false_ne_true, List.lookup_append, lookup_cons_eq, List.lookup_nil]
    by_cases hk : k = key
    · rw [if_pos hk, if_pos hk, hk, hkey, Option.none_or]
    · rw [if_neg hk, if_neg hk, Option.or_none]

theorem lookup_told (st : Standing) (k : String) :
    st.told.lookup k = (st.entries.lookup k).map valueText := by
  unfold Standing.told
  induction st.entries with
  | nil => rfl
  | cons e rest ih =>
      rw [List.map_cons, lookup_cons_eq, lookup_cons_eq, ih]
      by_cases hk : k = e.1 <;> simp [hk]

/-- The value of a key in the last line with that key. -/
def lastValue? (lines : List Line) (key : String) : Option String :=
  ((lines.reverse.filterMap Line.entry?).find? (·.key.name == key)).map
    fun e => String.ofList e.value

theorem lastValue?_concat (lines : List Line) (line : Line) (key : String) :
    lastValue? (lines ++ [line]) key = match line.entry? with
      | some e => if e.key.name = key then some (String.ofList e.value) else lastValue? lines key
      | none => lastValue? lines key := by
  unfold lastValue?
  rw [List.reverse_append, List.reverse_singleton, List.singleton_append, List.filterMap_cons]
  cases line.entry? with
  | none => rfl
  | some e =>
      dsimp only
      rw [List.find?_cons]
      by_cases hkey : e.key.name = key
      · rw [if_pos hkey, hkey, beq_self_eq_true]
        rfl
      · rw [if_neg hkey, beq_false_of_ne hkey]

theorem lookup_take (st : Standing) (hline : line.IsFlush) (key : String) :
    (st.take line).told.lookup key = match line.entry? with
      | some e => if e.key.name = key then some e.told else st.told.lookup key
      | none => st.told.lookup key := by
  cases line with
  | blank blanks =>
      rw [Standing.take, Standing.told_goOn_blank]
      rfl
  | comment indent remark => rfl
  | entry indent e =>
      rw [Standing.take, not_isDeeper hline, if_neg Bool.false_ne_true, lookup_told, lookup_put,
        Line.entry?]
      dsimp only
      by_cases hkey : e.key.name = key
      · rw [if_pos hkey, if_pos hkey.symm, Option.map_some, valueText_told]
      · rw [if_neg hkey, if_neg (Ne.symm hkey), lookup_told]

theorem lookup_foldl_take (h : ∀ line ∈ lines, line.IsFlush) (key : String) :
    (lines.foldl Standing.take .start).told.lookup key =
      (lastValue? lines key).map Text.trim := by
  induction lines using List.reverseRecOn with
  | nil => rfl
  | append_singleton lines line ih =>
      rw [List.foldl_append, List.foldl_cons, List.foldl_nil, lookup_take _ (h line (by simp)),
        lastValue?_concat, ih fun l hl => h l (by simp [hl])]
      cases line.entry? with
      | none => rfl
      | some e =>
          dsimp only
          split <;> rfl

theorem lines_of_parse_error {text : String} {fault : PropertyFault}
    (h : parse text = .error fault) : fault.lines ≠ [] := by
  unfold parse at h
  dsimp only at h
  split at h
  · cases h
  · rename_i hrefused
    cases h
    simpa using hrefused

end Properties

namespace PublishedTool

open Properties

variable {text : String} {properties : List (String × String)}

/-- The keys that a manifest has to have, in the order in which they are asked for. -/
def manifestKeys : List String :=
  ["name", "org", "artifact", "version", "main", "nativeVersion", "scalaVersion"]

/-- The tool whose manifest has these values. -/
def ofValues (value : String → String) : PublishedTool where
  name := value "name"
  org := value "org"
  artifact := value "artifact"
  version := value "version"
  main := value "main"
  nativeVersion := value "nativeVersion"
  scalaVersion := value "scalaVersion"

/-- The first key that is missing. -/
def missing? (properties : List (String × String)) : Option String :=
  manifestKeys.find? fun key => (properties.lookup key).isNone

theorem load_of_parse (source : String) (h : parse text = .ok properties) :
    load text source = match missing? properties with
      | some key => .error (.missingKey key source)
      | none => .ok (ofValues fun key => Text.trim ((properties.lookup key).getD "")) := by
  unfold load missing? manifestKeys
  rw [h]
  simp only [required, ofValues, List.find?_cons, List.find?_nil]
  rcases properties.lookup "name" with _ | name
  · rfl
  rcases properties.lookup "org" with _ | org
  · rfl
  rcases properties.lookup "artifact" with _ | artifact
  · rfl
  rcases properties.lookup "version" with _ | version
  · rfl
  rcases properties.lookup "main" with _ | main
  · rfl
  rcases properties.lookup "nativeVersion" with _ | nativeVersion
  · rfl
  rcases properties.lookup "scalaVersion" with _ | scalaVersion
  · rfl
  rfl

theorem ofValues_congr {value value' : String → String}
    (h : ∀ key ∈ manifestKeys, value key = value' key) : ofValues value = ofValues value' := by
  simp only [manifestKeys, List.forall_mem_cons] at h
  simp only [ofValues, h]

/-- What becomes of a text: it makes a tool, or it is refused for a key that it lacks, or for lines
that are neither a key nor a section. -/
inductive Ends (text source : String) : Except ManifestFault PublishedTool → Prop where
  | made (properties : List (String × String)) (parsed : parse text = .ok properties)
      (complete : missing? properties = none) :
      Ends text source (.ok (ofValues fun key => Text.trim ((properties.lookup key).getD "")))
  | lacking (properties : List (String × String)) (key : String)
      (parsed : parse text = .ok properties) (missing : missing? properties = some key) :
      Ends text source (.error (.missingKey key source))
  | refused (fault : PropertyFault) (parsed : parse text = .error fault)
      (lines : fault.lines ≠ []) : Ends text source (.error (.invalid source fault))

theorem ends_load (text source : String) : Ends text source (load text source) := by
  cases hparse : parse text with
  | error fault =>
      rw [load, hparse]
      exact .refused fault hparse (lines_of_parse_error hparse)
  | ok properties =>
      rw [load_of_parse source hparse]
      cases hmissing : missing? properties with
      | none => exact .made properties hparse hmissing
      | some key => exact .lacking properties key hparse hmissing

/-- A manifest whose keys are not indented makes the tool with the last value of each key, without
the blanks around it, or lacks a key, of which the first is named. Every text makes a tool, or is
refused for a key that it lacks or for lines that are neither a key nor a section. -/
theorem load_manifest (lines : List Line) (source : String)
    (hflush : ∀ line ∈ lines, line.IsFlush) :
    (∀ value : String → String, (∀ key ∈ manifestKeys, lastValue? lines key = some (value key)) →
      load (textOf lines) source = .ok (ofValues fun key => Text.trim (value key))) ∧
    (∀ key, (manifestKeys.find? fun key => (lastValue? lines key).isNone) = some key →
      load (textOf lines) source = .error (.missingKey key source)) ∧
    ∀ text, Ends text source (load text source) := by
  have hload := load_of_parse source (parse_textOf lines)
  have hlookup := lookup_foldl_take hflush
  have hmissing : missing? (lines.foldl Standing.take .start).told =
      manifestKeys.find? fun key => (lastValue? lines key).isNone := by
    simp only [missing?, hlookup, Option.isNone_map]
  refine ⟨fun value hvalue => ?_, fun key hkey => ?_, fun text => ends_load text source⟩
  · have hnone : missing? (lines.foldl Standing.take .start).told = none := by
      rw [hmissing, List.find?_eq_none]
      intro key hkey
      simp [hvalue key hkey]
    rw [hload, hnone]
    refine congrArg Except.ok (ofValues_congr fun key hkey => ?_)
    rw [hlookup, hvalue key hkey, Option.map_some, Option.getD_some, Text.trim_trim]
  · rw [hload, hmissing, hkey]

section Published

/-- A manifest with a comment, a blank line, a key that nobody asks for and one that is repeated. -/
def publishedLines : List Line :=
  [.comment .none { chars := "# Installation".toList },
    .entry .none { key := { first := 'n', rest := "ame".toList }, value := "my:tool ".toList },
    .entry .none {
      key := { first := 'o', rest := "rg".toList }
      gap := { chars := ['\t'] }
      delimiter := .colon
      lead := { chars := [' ', ' '] }
      value := "com.example".toList },
    .entry .none { key := { first := 'a', rest := "rtifact".toList }, value := "old".toList },
    .blank .none,
    .entry .none { key := { first := 'v', rest := "ersion".toList }, value := "0.1.0".toList },
    .entry .none { key := { first := 'm', rest := "ain".toList }, value := "%(a)s#".toList },
    .entry .none { key := { first := 'n', rest := "ativeVersion".toList }, value := "0.3".toList },
    .entry .none { key := { first := 'X', rest := [] }, value := "=".toList },
    .entry .none { key := { first := 's', rest := "calaVersion".toList }, value := "2.1".toList },
    .entry .none { key := { first := 'a', rest := "rtifact".toList }, value := "mytool".toList }]

theorem load_published :
    textOf publishedLines =
      "# Installation\nname=my:tool \norg\t:  com.example\nartifact=old\n\n" ++
      "version=0.1.0\nmain=%(a)s#\nnativeVersion=0.3\nX==\nscalaVersion=2.1\nartifact=mytool" ∧
      (∀ line ∈ publishedLines, line.IsFlush) ∧
      load (textOf publishedLines) "https://x" =
        .ok ⟨"my:tool", "com.example", "mytool", "0.1.0", "%(a)s#", "0.3", "2.1"⟩ := by
  have hflush : ∀ line ∈ publishedLines, line.IsFlush := by
    simp [publishedLines, Line.IsFlush, Blanks.none]
  refine ⟨by decide +kernel, hflush, ?_⟩
  obtain ⟨hvalues, -, -⟩ := load_manifest publishedLines "https://x" hflush
  rw [hvalues (fun key => (lastValue? publishedLines key).getD "") (by decide +kernel)]
  decide +kernel

end Published

end PublishedTool

end StagedBuild
