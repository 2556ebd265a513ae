import StagedBuild.Proofs.Properties.Lines

/-!
What the indentation of keys comes to. A key that is indented deeper than the last one that began a
value goes on with that value, and is lost. Which keys are lost in this way decides what a text
says, and nothing else about their indentation does; none is lost when no key lies deeper than the
key before it.
-/

namespace StagedBuild.Properties

variable {st st' : Standing} {line line' : Line} {lines lines' : List Line}

/-- A line goes on with the value of a key before it. -/
def continues (limit : Option Nat) : Line → Bool
  | .entry indent _ => isDeeper limit indent
  | _ => false

/-- The indentation of the last key that began a value. -/
def limitAfter (limit : Option Nat) : Line → Option Nat
  | .entry indent _ => if isDeeper limit indent then limit else some indent.chars.length
  | _ => limit

/-- Which lines go on with the value of a key before them. -/
def continued (limit : Option Nat) : List Line → List Bool
  | [] => []
  | line :: rest => continues limit line :: continued (limitAfter limit line) rest

/-- Lines that differ in the indentation of their key at most. -/
inductive Reindented : Line → Line → Prop where
  | blank (blanks : Blanks) : Reindented (.blank blanks) (.blank blanks)
  | comment (indent : Blanks) (remark : Comment) :
    Reindented (.comment indent remark) (.comment indent remark)
  | entry (indent indent' : Blanks) (e : Entry) : Reindented (.entry indent e) (.entry indent' e)

def keysOf (lines : List Line) : List String :=
  (lines.filterMap Line.entry?).map (·.key.name)

def Line.indent? : Line → Option Nat
  | .entry indent _ => some indent.chars.length
  | _ => none

/-- No key lies deeper than the key before it. -/
def NeverDeeper (lines : List Line) : Prop :=
  (lines.filterMap Line.indent?).IsChain (· ≥ ·)

namespace Standing

/-- The indentation of the last key. -/
def limit (st : Standing) : Option Nat :=
  st.last.map (·.2)

theorem last_goOn (st : Standing) (text : String) : (st.goOn text).last = st.last := by
  unfold goOn
  split <;> rfl

theorem limit_take (st : Standing) (line : Line) :
    (st.take line).limit = limitAfter st.limit line := by
  cases line with
  | blank blanks => rw [take, limit, last_goOn, limitAfter, limit]; simp
  | comment indent remark => rfl
  | entry indent e =>
      rw [take, limitAfter]
      split
      · rw [if_pos ‹_›, limit, last_goOn, limit]
      · rw [if_neg ‹_›, limit, Option.map_some]

end Standing

section Agreement

/-- The same values have been read, at whatever indentation. -/
structure Standing.Agrees (st st' : Standing) : Prop where
  entries : st.entries = st'.entries
  key : st.last.map (·.1) = st'.last.map (·.1)

theorem Standing.Agrees.goOn (h : st.Agrees st') (text : String) :
    (st.goOn text).Agrees (st'.goOn text) := by
  obtain ⟨entries, last⟩ := st
  obtain ⟨entries', last'⟩ := st'
  obtain ⟨rfl, hkey⟩ := h
  rcases last with _ | ⟨key, n⟩ <;> rcases last' with _ | ⟨key', n'⟩ <;> cases hkey
  · exact ⟨rfl, rfl⟩
  · exact ⟨rfl, rfl⟩

theorem Standing.Agrees.take (h : st.Agrees st') (hline : Reindented line line')
    (hcontinues : continues st.limit line = continues st'.limit line') :
    (st.take line).Agrees (st'.take line') := by
  cases hline with
  | blank blanks => exact h.goOn ""
  | comment indent remark => exact h
  | entry indent indent' e =>
      rw [Standing.take, Standing.take]
      rw [continues, continues, Standing.limit, Standing.limit] at hcontinues
      rw [hcontinues]
      split
      · exact h.goOn _
      · exact ⟨by rw [h.entries], rfl⟩

theorem Standing.Agrees.foldl_take (hlines : List.Forall₂ Reindented lines lines')
    (h : st.Agrees st')
    (hcontinued : continued st.limit lines = continued st'.limit lines') :
    (lines.foldl Standing.take st).Agrees (lines'.foldl Standing.take st') := by
  induction hlines generalizing st st' with
  | nil => exact h
  | cons hline _ ih =>
      rw [continued, continued, List.cons.injEq] at hcontinued
      refine ih (h.take hline hcontinued.1) ?_
      rw [Standing.limit_take, Standing.limit_take]
      exact hcontinued.2

theorem parse_eq_of_continued (hlines : List.Forall₂ Reindented lines lines')
    (hcontinued : continued none lines = continued none lines') :
    parse (textOf lines) = parse (textOf lines') := by
  have hagrees : (lines.foldl Standing.take .start).Agrees (lines'.foldl Standing.take .start) :=
    Standing.Agrees.foldl_take hlines ⟨rfl, rfl⟩ hcontinued
  rw [parse_textOf, parse_textOf, Standing.told, Standing.told, hagrees.entries]

end Agreement

section Keys

/-- The keys that begin a value. -/
def begun (limit : Option Nat) : List Line → List String
  | [] => []
  | line :: rest =>
    (if continues limit line then [] else keysOf [line]) ++ begun (limitAfter limit line) rest

theorem keysOf_cons (line : Line) (lines : List Line) :
    keysOf (line :: lines) = keysOf [line] ++ keysOf lines := by
  rw [keysOf, ← List.singleton_append, List.filterMap_append, List.map_append]
  rfl

theorem keys_put {s : Section} {key : String} (h : key ∉ s.map (·.1)) (value : Value) :
    (s.put key value).map (·.1) = s.map (·.1) ++ [key] := by
  have hnone : (s.any fun e => e.1 == key) = false :=
    List.any_eq_false.2 fun e he heq => h (eq_of_beq heq ▸ List.mem_map_of_mem he)
  rw [Section.put, hnone, if_neg Bool.false_ne_true, List.map_append, List.map_singleton]

theorem keys_goOn (st : Standing) (text : String) :
    (st.goOn text).entries.map (·.1) = st.entries.map (·.1) := by
  unfold Standing.goOn
  split
  · rw [Section.extend, List.map_map, List.map_inj_left]
    intro e _
    dsimp only [Function.comp_apply]
    split
    · rename_i hkey
      exact (eq_of_beq hkey).symm
    · rfl
  · rfl

theorem keys_take (h : (st.entries.map (·.1) ++ keysOf [line]).Nodup) :
    (st.take line).entries.map (·.1) =
      st.entries.map (·.1) ++ if continues st.limit line then [] else keysOf [line] := by
  cases line with
  | blank blanks => exact (keys_goOn st "").trans (by simp [keysOf, Line.entry?])
  | comment indent remark => simp [Standing.take, keysOf, Line.entry?]
  | entry indent e =>
      rw [Standing.take, continues, Standing.limit]
      split
      · rw [keys_goOn, List.append_nil]
      · rw [List.nodup_append] at h
        exact keys_put (fun hmem => h.2.2 _ hmem _ (List.mem_singleton_self _) rfl) _

theorem keys_foldl_take (h : (st.entries.map (·.1) ++ keysOf lines).Nodup) :
    (lines.foldl Standing.take st).entries.map (·.1) =
      st.entries.map (·.1) ++ begun st.limit lines := by
  induction lines generalizing st with
  | nil => rw [List.foldl_nil, begun, List.append_nil]
  | cons line lines ih =>
      rw [keysOf_cons, ← List.append_assoc] at h
      have htake := keys_take (List.nodup_append.1 h).1
      have hrest : ((st.take line).entries.map (·.1) ++ keysOf lines).Nodup := by
        rw [htake]
        split
        · rw [List.append_nil]
          exact h.sublist ((List.sublist_append_left _ _).append (List.Sublist.refl _))
        · exact h
      rw [List.foldl_cons, ih hrest, htake, Standing.limit_take, begun, List.append_assoc]

theorem begun_subset (limit : Option Nat) (lines : List Line) :
    begun limit lines ⊆ keysOf lines := by
  induction lines generalizing limit with
  | nil => exact List.Subset.refl _
  | cons line lines ih =>
      rw [begun, keysOf_cons line lines]
      refine List.append_subset.2 ⟨?_, List.subset_append_of_subset_right _ (ih _)⟩
      split
      · exact List.nil_subset _
      · exact List.subset_append_left _ _

theorem Reindented.keysOf_eq (h : Reindented line line') : keysOf [line] = keysOf [line'] := by
  cases h <;> rfl

theorem keysOf_eq (hlines : List.Forall₂ Reindented lines lines') :
    keysOf lines = keysOf lines' := by
  induction hlines with
  | nil => rfl
  | cons hline _ ih => rw [keysOf_cons, hline.keysOf_eq, ih, ← keysOf_cons]

theorem not_begun (limit : Option Nat) {key : String} {rest : List String}
    (h : (key :: keysOf lines).Nodup) : begun limit lines ≠ key :: rest := fun hbegun =>
  (List.nodup_cons.1 h).1 (begun_subset limit lines (hbegun ▸ List.mem_cons_self))

/-- Where no key is repeated, the keys that begin a value tell which lines do not. -/
theorem continued_eq_of_begun (hlines : List.Forall₂ Reindented lines lines')
    (hkeys : (keysOf lines).Nodup) {limit limit' : Option Nat}
    (h : begun limit lines = begun limit' lines') :
    continued limit lines = continued limit' lines' := by
  induction hlines generalizing limit limit' with
  | nil => rfl
  | cons hline hrest ih =>
      rw [keysOf_cons] at hkeys
      have hkeysRest := (List.nodup_append.1 hkeys).2.1
      rw [begun, begun] at h
      rw [continued, continued]
      cases hline with
      | blank blanks => exact congrArg _ (ih hkeysRest h)
      | comment indent remark => exact congrArg _ (ih hkeysRest h)
      | entry indent indent' e =>
          rw [continues, continues] at *
          have hkeys' := keysOf_eq hrest ▸ hkeys
          cases hdeeper : isDeeper limit indent <;> cases hdeeper' : isDeeper limit' indent' <;>
            rw [hdeeper, hdeeper'] at h
          · rw [ih hkeysRest (List.cons.inj h).2]
          · exact absurd h.symm (not_begun _ hkeys')
          · exact absurd h (not_begun _ hkeys)
          · rw [ih hkeysRest h]

theorem keys_told (hkeys : (keysOf lines).Nodup) :
    (lines.foldl Standing.take .start).told.map (·.1) = begun none lines := by
  have hread : (lines.foldl Standing.take .start).entries.map (·.1) = _ :=
    keys_foldl_take (by simpa [Standing.start] using hkeys)
  rw [Standing.told, List.map_map]
  exact hread

theorem continued_eq_of_parse (hlines : List.Forall₂ Reindented lines lines')
    (hkeys : (keysOf lines).Nodup) (h : parse (textOf lines) = parse (textOf lines')) :
    continued none lines = continued none lines' := by
  rw [parse_textOf, parse_textOf, Except.ok.injEq] at h
  have hbegun := congrArg (List.map (·.1)) h
  rw [keys_told hkeys, keys_told (keysOf_eq hlines ▸ hkeys)] at hbegun
  exact continued_eq_of_begun hlines hkeys hbegun

end Keys

theorem not_continued_iff (limit : Option Nat) (lines : List Line) :
    (∀ flag ∈ continued limit lines, flag = false) ↔
      (limit.toList ++ lines.filterMap Line.indent?).IsChain (· ≥ ·) := by
  induction lines generalizing limit with
  | nil => cases limit <;> simp [continued]
  | cons line lines ih =>
      rw [continued, List.forall_mem_cons, ih]
      cases line with
      | blank blanks =>
          rw [List.filterMap_cons_none rfl]
          simp [continues, limitAfter]
      | comment indent remark =>
          rw [List.filterMap_cons_none rfl]
          simp [continues, limitAfter]
      | entry indent e =>
          have hindent : (Line.entry indent e).indent? = some indent.chars.length := rfl
          rw [List.filterMap_cons_some hindent, continues, limitAfter]
          cases limit with
          | none => simp [isDeeper]
          | some n =>
              by_cases hdeeper : n < indent.chars.length
              · simp [isDeeper, hdeeper, Nat.not_le.2 hdeeper]
              · simp [isDeeper, hdeeper, Nat.not_lt.1 hdeeper]

theorem length_continued (limit : Option Nat) (lines : List Line) :
    (continued limit lines).length = lines.length := by
  induction lines generalizing limit with
  | nil => rfl
  | cons line lines ih => rw [continued, List.length_cons, List.length_cons, ih]

theorem neverDeeper_iff (lines : List Line) :
    NeverDeeper lines ↔ continued none lines = List.replicate lines.length false := by
  rw [NeverDeeper, ← List.nil_append (lines.filterMap _), List.eq_replicate_iff, length_continued]
  exact (not_continued_iff none lines).symm.trans ⟨fun h => ⟨rfl, h⟩, fun h => h.2⟩

theorem not_continued_of_isFlush (h : ∀ line ∈ lines, line.IsFlush) (limit : Option Nat) :
    ∀ flag ∈ continued limit lines, flag = false := by
  induction lines generalizing limit with
  | nil => simp [continued]
  | cons line lines ih =>
      rw [List.forall_mem_cons] at h
      rw [continued, List.forall_mem_cons]
      refine ⟨?_, ih h.2 _⟩
      cases line with
      | blank blanks => rfl
      | comment indent remark => rfl
      | entry indent e => exact not_isDeeper h.1 limit

/-- How keys are indented counts only for which lines go on with a value: texts say the same if the
same lines do, and, where no key is repeated, only if they do. Against a text without indentation
this means that no key lies deeper than the key before it. -/
theorem parse_reindented (hlines : List.Forall₂ Reindented lines lines') :
    (continued none lines = continued none lines' →
      parse (textOf lines) = parse (textOf lines')) ∧
    ((keysOf lines).Nodup → parse (textOf lines) = parse (textOf lines') →
      continued none lines = continued none lines') ∧
    ((∀ line ∈ lines', line.IsFlush) →
      (NeverDeeper lines → parse (textOf lines) = parse (textOf lines')) ∧
      ((keysOf lines).Nodup → parse (textOf lines) = parse (textOf lines') →
        NeverDeeper lines)) := by
  refine ⟨parse_eq_of_continued hlines, continued_eq_of_parse hlines, fun hflush => ?_⟩
  have hflat : NeverDeeper lines' :=
    (not_continued_iff none lines').1 (not_continued_of_isFlush hflush none)
  rw [neverDeeper_iff] at hflat
  rw [← hlines.length_eq] at hflat
  rw [neverDeeper_iff, ← hflat]
  exact ⟨parse_eq_of_continued hlines, continued_eq_of_parse hlines⟩

section TwoKeys

def twoKeys (first second : Blanks) : List Line :=
  [.entry first { key := { first := 'p', rest := [] }, value := ['1'] },
    .entry second { key := { first := 'q', rest := [] }, value := ['2'] }]

theorem reindented_twoKeys (first second first' second' : Blanks) :
    List.Forall₂ Reindented (twoKeys first second) (twoKeys first' second') :=
  .cons (.entry _ _ _) (.cons (.entry _ _ _) .nil)

/-- Where the second key is not the deeper one, both may be indented. -/
theorem twoKeys_indented :
    textOf (twoKeys { chars := [' ', '\t'] } { chars := [' '] }) = " \tp=1\n q=2" ∧
      List.Forall₂ Reindented (twoKeys { chars := [' ', '\t'] } { chars := [' '] })
        (twoKeys .none .none) ∧
      parse (textOf (twoKeys { chars := [' ', '\t'] } { chars := [' '] })) =
        parse (textOf (twoKeys .none .none)) := by
  have hlines := reindented_twoKeys { chars := [' ', '\t'] } { chars := [' '] } .none .none
  refine ⟨by decide +kernel, hlines, ((parse_reindented hlines).2.2 ?_).1 ?_⟩
  · simp [twoKeys, Line.IsFlush, Blanks.none]
  · simp [NeverDeeper, twoKeys, Line.indent?]

/-- A key that is indented below one that is not is lost. -/
theorem twoKeys_deeper :
    List.Forall₂ Reindented (twoKeys .none .none) (twoKeys .none { chars := [' '] }) ∧
      parse (textOf (twoKeys .none .none)) = .ok [("p", "1"), ("q", "2")] ∧
      parse (textOf (twoKeys .none { chars := [' '] })) = .ok [("p", "1\nq=2")] :=
  ⟨reindented_twoKeys _ _ _ _, by decide +kernel, by decide +kernel⟩

end TwoKeys

end StagedBuild.Properties
