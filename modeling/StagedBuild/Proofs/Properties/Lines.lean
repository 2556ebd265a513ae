import Mathlib.Data.List.DropRight
import Mathlib.Data.List.Forall2
import StagedBuild.Proofs.Path.Text
import StagedBuild.Properties

/-!
Property texts that are made of lines: keys with their values, comments and blanks, each behind an
indentation. What reading such a text comes to is said line by line, without its characters: a key
that is not deeper than the key before it begins a value, a deeper one goes on with the value before
it, and nothing else counts.
-/

namespace StagedBuild

namespace Text

section Trimming

variable {c : Char} {xs ys : List Char}

theorem dropEndWhile_append_of_all (xs : List Char) (h : ∀ c ∈ ys, isBlank c = true) :
    dropEndWhile isBlank (xs ++ ys) = dropEndWhile isBlank xs := by
  rw [dropEndWhile, List.reverse_append, List.dropWhile_append_of_pos (by simpa using h)]
  rfl

theorem dropEndWhile_append_cons (xs ys : List Char) (h : isBlank c = false) :
    dropEndWhile isBlank (xs ++ c :: ys) = xs ++ c :: dropEndWhile isBlank ys := by
  have hc : ¬ isBlank c = true := by simp [h]
  rw [dropEndWhile, List.reverse_append, List.reverse_cons, List.append_assoc,
    List.dropWhile_append, List.singleton_append, List.dropWhile_cons_of_neg hc]
  cases hrest : ys.reverse.dropWhile isBlank <;> simp [dropEndWhile, hrest]

theorem exists_dropEndWhile_append (xs : List Char) :
    ∃ blanks, (∀ c ∈ blanks, isBlank c = true) ∧ xs = dropEndWhile isBlank xs ++ blanks := by
  refine ⟨(xs.reverse.takeWhile isBlank).reverse, fun c hc => ?_, ?_⟩
  · exact List.mem_takeWhile_imp (List.mem_reverse.1 hc)
  · rw [dropEndWhile, ← List.reverse_append, List.takeWhile_append_dropWhile, List.reverse_reverse]

theorem trimChars_blanks_append (ys : List Char) (h : ∀ c ∈ xs, isBlank c = true) :
    trimChars (xs ++ ys) = trimChars ys := by
  rw [trimChars, List.dropWhile_append_of_pos h]
  rfl

theorem trimChars_append_blanks (xs : List Char) (h : ∀ c ∈ ys, isBlank c = true) :
    trimChars (xs ++ ys) = trimChars xs := by
  rw [trimChars, List.dropWhile_append]
  split
  · rename_i hxs
    rw [List.dropWhile_eq_nil_iff.2 h, trimChars, List.isEmpty_iff.1 hxs]
  · exact dropEndWhile_append_of_all _ h

theorem trimChars_of_blanks (h : ∀ c ∈ xs, isBlank c = true) : trimChars xs = [] := by
  simpa [trimChars, dropEndWhile] using trimChars_blanks_append [] h

theorem trimChars_cons (xs : List Char) (h : isBlank c = false) :
    trimChars (c :: xs) = c :: dropEndWhile isBlank xs := by
  rw [trimChars, List.dropWhile_cons_of_neg (by simp [h])]
  exact dropEndWhile_append_cons [] xs h

theorem trimChars_dropEndWhile (xs : List Char) :
    trimChars (dropEndWhile isBlank xs) = trimChars xs := by
  obtain ⟨blanks, hblanks, hxs⟩ := exists_dropEndWhile_append xs
  conv_rhs => rw [hxs, trimChars_append_blanks _ hblanks]

theorem dropEndWhile_dropEndWhile (xs : List Char) :
    dropEndWhile isBlank (dropEndWhile isBlank xs) = dropEndWhile isBlank xs :=
  List.rdropWhile_idempotent _ _

theorem trimEnd_trim (s : String) : trimEnd (trim s) = trim s := by
  rw [trimEnd, trim, String.toList_ofList, trimChars, dropEndWhile_dropEndWhile]

theorem trimChars_trimChars (xs : List Char) : trimChars (trimChars xs) = trimChars xs := by
  rcases h : xs.dropWhile isBlank with _ | ⟨c, ys⟩
  · have htrim : trimChars xs = [] := by
      rw [trimChars, h]
      rfl
    rw [htrim]
    rfl
  · have hc : isBlank c = false := by
      have hhead := List.head_dropWhile_not isBlank (by simp [h] : xs.dropWhile isBlank ≠ [])
      simpa [h] using hhead
    have htrim : trimChars xs = c :: dropEndWhile isBlank ys := by
      rw [trimChars, h]
      exact dropEndWhile_append_cons [] ys hc
    rw [htrim, trimChars_cons _ hc, dropEndWhile_dropEndWhile]

theorem trim_trim (s : String) : trim (trim s) = trim s := by
  rw [trim, trim, String.toList_ofList, trimChars_trimChars]

end Trimming

end Text

namespace Properties

/-- Blanks on one line. -/
structure Blanks where
  chars : List Char
  allBlank : chars.all Text.isBlank = true := by decide
  inLine : '\n' ∉ chars := by decide

theorem Blanks.blank (blanks : Blanks) : ∀ c ∈ blanks.chars, Text.isBlank c = true :=
  List.all_eq_true.1 blanks.allBlank

def Blanks.none : Blanks :=
  { chars := [] }

/-- A key: neither a section nor a comment begins with its first character, and it holds no
delimiter. -/
structure Key where
  first : Char
  rest : List Char
  inLine : '\n' ∉ first :: rest := by decide
  noDelimiter : (first :: rest).all (!isDelimiter ·) = true := by decide
  noSection : first ≠ '[' := by decide
  noComment : isComment [first] = false := by decide
  starts : Text.isBlank first = false := by decide
  ends : Text.dropEndWhile Text.isBlank (first :: rest) = first :: rest := by decide

theorem Key.undelimited (k : Key) : ∀ c ∈ k.first :: k.rest, (!isDelimiter c) = true :=
  List.all_eq_true.1 k.noDelimiter

/-- What stands between a key and its value. -/
inductive Delimiter where
  | equals
  | colon

def Delimiter.char : Delimiter → Char
  | .equals => '='
  | .colon => ':'

/-- A key with its value. Blanks around the delimiter do not count. -/
structure Entry where
  key : Key
  gap : Blanks := .none
  delimiter : Delimiter := .equals
  lead : Blanks := .none
  value : List Char
  inLine : '\n' ∉ value := by decide

/-- A comment begins with its mark. -/
structure Comment where
  chars : List Char
  marked : isComment chars = true := by decide
  inLine : '\n' ∉ chars := by decide

/-- A line of a property text. -/
inductive Line where
  | blank (blanks : Blanks)
  | comment (indent : Blanks) (remark : Comment)
  | entry (indent : Blanks) (entry : Entry)

def Key.name (k : Key) : String :=
  String.ofList (k.first :: k.rest)

/-- The value that an entry gives to its key. -/
def Entry.told (e : Entry) : String :=
  Text.trim (String.ofList e.value)

/-- An entry as it is written. -/
def Entry.chars (e : Entry) : List Char :=
  e.key.first :: (e.key.rest ++ e.gap.chars ++ e.delimiter.char :: (e.lead.chars ++ e.value))

/-- A line as it is written. -/
def Line.chars : Line → List Char
  | .blank blanks => blanks.chars
  | .comment indent remark => indent.chars ++ remark.chars
  | .entry indent e => indent.chars ++ e.chars

/-- A key that begins a value stands at the beginning of its line. -/
def Line.IsFlush : Line → Prop
  | .entry indent _ => indent.chars = []
  | _ => True

def Line.entry? : Line → Option Entry
  | .entry _ e => some e
  | _ => none

/-- The text that is made of lines. -/
def textOf (lines : List Line) : String :=
  "\n".intercalate (lines.map fun line => String.ofList line.chars)

section Trimmed

variable {ending : List Char}

theorem not_isDelimiter_of_isBlank {c : Char} (h : Text.isBlank c = true) :
    isDelimiter c = false := by
  rw [isDelimiter, Bool.or_eq_false_iff, beq_eq_false_iff_ne, beq_eq_false_iff_ne]
  constructor <;> rintro rfl <;> revert h <;> decide

theorem Delimiter.isDelimiter_char (d : Delimiter) : isDelimiter d.char = true := by
  cases d <;> decide

theorem Delimiter.not_isBlank (d : Delimiter) : Text.isBlank d.char = false := by
  cases d <;> decide

theorem not_isBlank_of_isComment {c : Char} {rest : List Char}
    (h : isComment (c :: rest) = true) : Text.isBlank c = false := by
  simp only [isComment, Bool.or_eq_true, beq_iff_eq] at h
  rcases h with rfl | rfl <;> decide

theorem trimChars_comment (indent : Blanks) (remark : Comment)
    (hending : ∀ c ∈ ending, Text.isBlank c = true) :
    isComment (Text.trimChars ((Line.comment indent remark).chars ++ ending)) = true := by
  rw [Text.trimChars_append_blanks _ hending, Line.chars,
    Text.trimChars_blanks_append _ indent.blank]
  have hmarked := remark.marked
  rcases hchars : remark.chars with _ | ⟨mark, rest⟩
  · rw [hchars] at hmarked
    cases hmarked
  · rw [hchars] at hmarked
    rw [Text.trimChars_cons _ (not_isBlank_of_isComment hmarked)]
    exact hmarked

/-- What is left of an entry when the blanks around it are gone. -/
def Entry.trimmed (e : Entry) : List Char :=
  e.key.first :: (e.key.rest ++ e.gap.chars ++
    e.delimiter.char :: Text.dropEndWhile Text.isBlank (e.lead.chars ++ e.value))

theorem trimChars_entry (indent : Blanks) (e : Entry)
    (hending : ∀ c ∈ ending, Text.isBlank c = true) :
    Text.trimChars ((Line.entry indent e).chars ++ ending) = e.trimmed := by
  rw [Text.trimChars_append_blanks _ hending, Line.chars,
    Text.trimChars_blanks_append _ indent.blank, Entry.chars, Text.trimChars_cons _ e.key.starts,
    Text.dropEndWhile_append_cons _ _ e.delimiter.not_isBlank]
  rfl

theorem indentOf_entry (indent : Blanks) (e : Entry) (ending : List Char) :
    indentOf ((Line.entry indent e).chars ++ ending) = indent.chars.length := by
  rw [indentOf, Line.chars, List.append_assoc, List.takeWhile_append_of_pos indent.blank,
    Entry.chars, List.cons_append, List.takeWhile_cons_of_neg (by simp [e.key.starts]),
    List.append_nil]

theorem sectionName?_entry (e : Entry) : sectionName? e.trimmed = none := by
  have hfirst := e.key.noSection
  unfold sectionName? Entry.trimmed
  split
  · rename_i heq
    exact absurd (List.cons.inj heq).1 hfirst
  · rfl

theorem isComment_entry (e : Entry) : isComment e.trimmed = false :=
  e.key.noComment

theorem splitKey?_entry (e : Entry) : splitKey? e.trimmed = some (e.key.name, e.told) := by
  have htrimmed : e.trimmed = (e.key.first :: e.key.rest ++ e.gap.chars) ++
      e.delimiter.char :: Text.dropEndWhile Text.isBlank (e.lead.chars ++ e.value) := rfl
  have hundelimited : ∀ c ∈ e.key.first :: e.key.rest ++ e.gap.chars,
      (!isDelimiter c) = true := by
    intro c hc
    rcases List.mem_append.1 hc with hc | hc
    · exact e.key.undelimited c hc
    · rw [not_isDelimiter_of_isBlank (e.gap.blank c hc), Bool.not_false]
  have hkey : e.trimmed.takeWhile (!isDelimiter ·) = e.key.first :: e.key.rest ++ e.gap.chars := by
    rw [htrimmed, List.takeWhile_append_of_pos hundelimited,
      List.takeWhile_cons_of_neg (by simp [e.delimiter.isDelimiter_char]), List.append_nil]
  have hname : Text.trimEnd (String.ofList (e.key.first :: e.key.rest ++ e.gap.chars)) =
      e.key.name := by
    rw [Text.trimEnd, String.toList_ofList, Text.dropEndWhile_append_of_all _ e.gap.blank,
      e.key.ends]
    rfl
  have htold : Text.trim (String.ofList
      (Text.dropEndWhile Text.isBlank (e.lead.chars ++ e.value))) = e.told := by
    rw [Text.trim, String.toList_ofList, Text.trimChars_dropEndWhile,
      Text.trimChars_blanks_append _ e.lead.blank]
    simp [Entry.told, Text.trim]
  unfold splitKey?
  rw [hkey]
  dsimp only
  rw [htrimmed, List.drop_left]
  simp only [hname, htold]

end Trimmed

section Values

theorem valueText_blank (value : Value) : valueText ("" :: value) = valueText value := by
  unfold valueText
  rw [List.reverse_cons, Text.trimEnd, Text.trimEnd, String.toList_intercalate,
    String.toList_intercalate, List.map_append]
  by_cases h : value = []
  · subst h
    rfl
  · rw [intercalate_append_of_ne_nil _ (by simpa using h) (by simp), List.append_assoc,
      Text.dropEndWhile_append_of_all _ (by simp [Text.isBlank])]

theorem valueText_told (e : Entry) : valueText [e.told] = e.told := by
  rw [valueText, List.reverse_singleton, String.intercalate_singleton, Entry.told,
    Text.trimEnd_trim]

end Values

theorem Key.name_ne_empty (k : Key) : k.name ≠ "" := by
  simp [Key.name]

/-- An entry lies deeper than the last one that began a value. -/
def isDeeper (limit : Option Nat) (indent : Blanks) : Bool :=
  limit.any (· < indent.chars.length)

theorem not_isDeeper {indent : Blanks} (hindent : indent.chars = []) (limit : Option Nat) :
    isDeeper limit indent = false := by
  rw [isDeeper, hindent]
  cases limit <;> simp

/-- How far a text without sections is read: its keys with their values, and the last key with its
indentation. -/
structure Standing where
  entries : Section
  last : Option (Key × Nat)

namespace Standing

/-- Before the first line. -/
def start : Standing :=
  ⟨[], none⟩

/-- Goes on with the value of the last key. -/
def goOn (st : Standing) (line : String) : Standing :=
  match st.last with
  | some (key, _) => { st with entries := st.entries.extend key.name line }
  | none => st

def take (st : Standing) : Line → Standing
  | .blank _ => st.goOn ""
  | .comment _ _ => st
  | .entry indent e =>
    if isDeeper (st.last.map (·.2)) indent then st.goOn (String.ofList e.trimmed)
    else ⟨st.entries.put e.key.name [e.told], some (e.key, indent.chars.length)⟩

/-- The keys with the texts of their values. -/
def told (st : Standing) : List (String × String) :=
  st.entries.map fun (key, value) => (key, valueText value)

/-- The same as it is kept while the text is read. -/
def progress (st : Standing) : Progress :=
  ⟨[(mainSection, st.entries)], mainSection, st.last.map (·.1.name), st.last.elim 0 (·.2), []⟩

variable {st : Standing} {line : Line} {ending : List Char}

theorem openKey?_progress (st : Standing) : openKey? st.progress = st.last.map (·.1.name) := by
  unfold openKey? progress
  cases st.last with
  | none => rfl
  | some last => simp [last.1.name_ne_empty]

theorem change_progress (st : Standing) (edit : Section → Section) :
    st.progress.change edit = { st with entries := edit st.entries : Standing }.progress := by
  simp [Progress.change, progress]

theorem progress_goOn (st : Standing) (line : String) :
    (st.goOn line).progress = match openKey? st.progress with
      | some key => st.progress.change (·.extend key line)
      | none => st.progress := by
  obtain ⟨entries, last⟩ := st
  rw [openKey?_progress]
  cases last with
  | none => rfl
  | some last => exact (change_progress _ _).symm

theorem told_goOn_blank (st : Standing) : (st.goOn "").told = st.told := by
  unfold goOn
  split
  · rename_i key _ _
    simp only [told, Section.extend, List.map_map, List.map_inj_left, Function.comp_apply]
    intro e _
    by_cases hkey : e.1 = key.name <;> simp [hkey, valueText_blank]
  · rfl

theorem readLine_progress (st : Standing) (line : Line) (number : Nat)
    (hending : ∀ c ∈ ending, Text.isBlank c = true) :
    readLine st.progress number (String.ofList (line.chars ++ ending)) =
      (st.take line).progress := by
  unfold readLine
  rw [String.toList_ofList]
  cases line with
  | blank blanks =>
      have htrimmed : Text.trimChars ((Line.blank blanks).chars ++ ending) = [] := by
        rw [Text.trimChars_append_blanks _ hending, Line.chars,
          Text.trimChars_of_blanks blanks.blank]
      rw [htrimmed, take, progress_goOn]
      rfl
  | comment indent remark =>
      dsimp only
      rw [trimChars_comment indent remark hending, if_pos rfl, take]
  | entry indent e =>
      dsimp only
      rw [trimChars_entry indent e hending, indentOf_entry, isComment_entry, take]
      have htaken : readEntry { st.progress with indent := indent.chars.length } number
          (String.ofList ((Line.entry indent e).chars ++ ending)) e.trimmed =
            progress ⟨st.entries.put e.key.name [e.told], some (e.key, indent.chars.length)⟩ := by
        unfold readEntry
        rw [sectionName?_entry, splitKey?_entry]
        simp [e.key.name_ne_empty, progress, Progress.change]
      have hfull : e.trimmed.isEmpty = false := rfl
      rw [if_neg Bool.false_ne_true, hfull, if_neg Bool.false_ne_true]
      rcases st with ⟨entries, _ | ⟨key, limit⟩⟩
      · exact htaken
      · have hlimit : isDeeper (some limit) indent = decide (limit < indent.chars.length) := rfl
        rw [openKey?_progress, Option.map_some, Option.map_some, hlimit]
        dsimp only
        by_cases hdeeper : limit < indent.chars.length
        · rw [decide_eq_true hdeeper, if_pos rfl, progress_goOn, openKey?_progress]
          exact if_pos hdeeper
        · rw [decide_eq_false hdeeper, if_neg Bool.false_ne_true]
          exact (if_neg hdeeper).trans htaken

end Standing

/-- A line as it stands in a text, with what ends it. -/
def IsWritten (line : Line) (written : String) : Prop :=
  ∃ ending, (∀ c ∈ ending, Text.isBlank c = true) ∧ written = String.ofList (line.chars ++ ending)

theorem foldl_readLine {lines : List Line} {written : List String}
    (h : List.Forall₂ IsWritten lines written) (st : Standing) (k : Nat) :
    ((written.zipIdx k).map fun (line, i) => (i + 2, line)).foldl
      (fun p (number, line) => readLine p number line) st.progress =
        (lines.foldl Standing.take st).progress := by
  induction h generalizing st k with
  | nil => rfl
  | cons hline _ ih =>
      obtain ⟨ending, hending, rfl⟩ := hline
      rw [List.zipIdx_cons, List.map_cons, List.foldl_cons, List.foldl_cons]
      dsimp only
      rw [Standing.readLine_progress st _ _ hending]
      exact ih _ _

theorem chars_inLine (line : Line) : '\n' ∉ line.chars := by
  cases line with
  | blank blanks => exact blanks.inLine
  | comment indent remark => simp [Line.chars, indent.inLine, remark.inLine]
  | entry indent e =>
      have hkey := e.key.inLine
      have hdelimiter : '\n' ≠ e.delimiter.char := by cases e.delimiter <;> decide
      simp only [List.mem_cons, not_or] at hkey
      simp [Line.chars, Entry.chars, indent.inLine, hkey.1, hkey.2, e.gap.inLine, hdelimiter,
        e.lead.inLine, e.inLine]

theorem take_of_chars_eq_nil {line : Line} (h : line.chars = []) (st : Standing) :
    st.take line = st.goOn "" := by
  cases line with
  | blank blanks => rfl
  | comment indent remark =>
      have hmarked := remark.marked
      rw [Line.chars, List.append_eq_nil_iff] at h
      rw [h.2] at hmarked
      cases hmarked
  | entry indent e => simp [Line.chars, Entry.chars] at h

theorem pieces_textOf {lines : List Line} (h : lines ≠ []) :
    Text.pieces '\n' (textOf lines) = lines.map fun line => String.ofList line.chars := by
  rw [Text.pieces, textOf, String.toList_intercalate, List.map_map]
  rw [show ("\n" : String).toList = ['\n'] from rfl, Text.cut_intercalate (by simpa using h)]
  · simp [Function.comp_def]
  · intro piece hpiece
    obtain ⟨line, -, rfl⟩ := List.mem_map.1 hpiece
    simpa using chars_inLine line

/-- The lines of a text keep the breaks after them, and an empty line at its end does not count. -/
theorem numberedLines_textOf (init : List Line) (last : Line) :
    numberedLines (textOf (init ++ [last])) =
      ((init.map (fun line => String.ofList (line.chars ++ ['\n'])) ++
        if last.chars = [] then [] else [String.ofList last.chars]).zipIdx.map
          fun (line, i) => (i + 2, line)) := by
  have hended : ∀ line : Line, String.ofList line.chars ++ "\n" =
      String.ofList (line.chars ++ ['\n']) := fun line => by
    rw [String.ofList_append]
  have hlast : ((some (String.ofList last.chars)).filter (· ≠ "")).toList =
      if last.chars = [] then [] else [String.ofList last.chars] := by
    by_cases h : last.chars = [] <;> simp [h]
  unfold numberedLines
  rw [pieces_textOf (by simp)]
  dsimp only
  rw [List.map_append, List.map_singleton, List.dropLast_concat, List.getLast?_concat, hlast,
    List.map_map]
  simp only [Function.comp_def, hended]

theorem parse_of_progress {text : String} {st : Standing}
    (h : (numberedLines text).foldl (fun p (number, line) => readLine p number line) .start =
      st.progress) : parse text = .ok st.told := by
  have hother : (defaultSection == mainSection) = false := by decide
  unfold parse
  rw [h]
  simp [Standing.progress, Progress.keysOf, Standing.told, List.lookup_cons, hother]

theorem parse_textOf (lines : List Line) :
    parse (textOf lines) = .ok (lines.foldl Standing.take .start).told := by
  rcases List.eq_nil_or_concat lines with rfl | ⟨init, last, rfl⟩
  · exact parse_of_progress rfl
  rw [List.concat_eq_append]
  have hinit : List.Forall₂ IsWritten init
      (init.map fun line => String.ofList (line.chars ++ ['\n'])) :=
    List.forall₂_map_right_iff.2 (List.forall₂_same.2 fun line _ =>
      ⟨['\n'], by simp [Text.isBlank], rfl⟩)
  have hlines := numberedLines_textOf init last
  by_cases hlast : last.chars = []
  · rw [if_pos hlast, List.append_nil] at hlines
    rw [List.foldl_append, List.foldl_cons, List.foldl_nil, take_of_chars_eq_nil hlast,
      Standing.told_goOn_blank]
    refine parse_of_progress ?_
    rw [hlines]
    exact foldl_readLine hinit .start 0
  · rw [if_neg hlast] at hlines
    refine parse_of_progress ?_
    rw [hlines]
    refine foldl_readLine (List.rel_append hinit ?_) .start 0
    exact .cons ⟨[], by simp, by rw [List.append_nil]⟩ .nil

end Properties

end StagedBuild
