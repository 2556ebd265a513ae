import StagedBuild.Proofs.Build.Settling
import StagedBuild.Proofs.Path.Text

/-!
What the probe for the target answers. The compiler is called once, and when it ends with zero the
answer is read off the file for its result. That file is not taken away before, so where a compiler
writes nothing the answer is that of an earlier probe.
-/

namespace StagedBuild.Compiler

open Action FileTree Disk

section Reading

variable {line text triple : String}

/-- What stands behind the first double quote of a line, up to the next one or to the end. -/
def Quotes (line part : String) : Prop :=
  ∃ front back, line.toList = front ++ '"' :: (part.toList ++ back) ∧ '"' ∉ front ∧
    '"' ∉ part.toList ∧ (back = [] ∨ ∃ rest, back = '"' :: rest)

/-- A text tells a triple: its first line that begins with the marker quotes it, and it is not
empty. -/
def Tells (text triple : String) : Prop :=
  ∃ before line after, Text.lines text = before ++ line :: after ∧
    (∀ other ∈ before, ¬ targetMarker.toList <+: other.toList) ∧
    targetMarker.toList <+: line.toList ∧ Quotes line triple ∧ triple ≠ ""

theorem cut_cases {α : Type} [DecidableEq α] (sep : α) (xs : List α) :
    (sep ∉ xs ∧ Text.cut sep xs = [xs]) ∨
      ∃ front back, xs = front ++ sep :: back ∧ sep ∉ front ∧
        Text.cut sep xs = front :: Text.cut sep back := by
  by_cases hmem : sep ∈ xs
  · obtain ⟨front, back, rfl, hfront⟩ := List.eq_append_cons_of_mem hmem
    exact .inr ⟨front, back, rfl, hfront, Text.cut_append back hfront⟩
  · exact .inl ⟨hmem, Text.cut_of_not_mem hmem⟩

theorem quotedPart_of_cut {front part : List Char} {rest : List (List Char)}
    (h : Text.cut '"' line.toList = front :: part :: rest) :
    quotedPart line = some triple ↔ triple.toList = part ∧ triple ≠ "" := by
  rw [quotedPart, Text.pieces, h, List.map_cons, List.map_cons]
  dsimp only
  split
  · rename_i hempty
    refine ⟨fun hnone => absurd hnone (by simp), ?_⟩
    rintro ⟨rfl, hne⟩
    exact absurd (String.ofList_toList.symm.trans hempty) hne
  · rename_i hne
    rw [Option.some.injEq]
    constructor
    · rintro rfl
      exact ⟨String.toList_ofList, hne⟩
    · rintro ⟨rfl, -⟩
      exact String.ofList_toList

theorem quotedPart_eq_some_iff :
    quotedPart line = some triple ↔ Quotes line triple ∧ triple ≠ "" := by
  constructor
  · intro h
    rcases cut_cases '"' line.toList with ⟨-, hcut⟩ | ⟨front, back, hline, hfront, hcut⟩
    · rw [quotedPart, Text.pieces, hcut] at h
      cases h
    · rcases cut_cases '"' back with ⟨hback, hcut'⟩ | ⟨part, rest, rfl, hpart, hcut'⟩
      · obtain ⟨rfl, hne⟩ := (quotedPart_of_cut (hcut.trans (congrArg _ hcut'))).1 h
        exact ⟨⟨front, [], by simpa using hline, hfront, hback, .inl rfl⟩, hne⟩
      · obtain ⟨rfl, hne⟩ := (quotedPart_of_cut (hcut.trans (congrArg _ hcut'))).1 h
        exact ⟨⟨front, _, hline, hfront, hpart, .inr ⟨rest, rfl⟩⟩, hne⟩
  · rintro ⟨⟨front, back, hline, hfront, htriple, hback⟩, hne⟩
    have hcut := Text.cut_append (triple.toList ++ back) hfront
    rw [← hline] at hcut
    rcases hback with rfl | ⟨rest, rfl⟩
    · rw [List.append_nil, Text.cut_of_not_mem htriple] at hcut
      exact (quotedPart_of_cut hcut).2 ⟨rfl, hne⟩
    · rw [Text.cut_append rest htriple] at hcut
      exact (quotedPart_of_cut hcut).2 ⟨rfl, hne⟩

theorem parseTriple_eq_some_iff : parseTriple text = some triple ↔ Tells text triple := by
  have hunmarked : ∀ other : String, (!targetMarker.toList.isPrefixOf other.toList) = true ↔
      ¬ targetMarker.toList <+: other.toList := by
    intro other
    rw [Bool.not_eq_true', ← Bool.not_eq_true, List.isPrefixOf_iff_prefix]
  rw [parseTriple, Option.bind_eq_some_iff]
  simp only [List.find?_eq_some_iff_append, quotedPart_eq_some_iff, hunmarked,
    List.isPrefixOf_iff_prefix]
  constructor
  · rintro ⟨line, ⟨hmarked, before, after, hlines, hbefore⟩, hquotes, hne⟩
    exact ⟨before, line, after, hlines, hbefore, hmarked, hquotes, hne⟩
  · rintro ⟨before, line, after, hlines, hbefore, hmarked, hquotes, hne⟩
    exact ⟨line, ⟨hmarked, before, after, hlines, hbefore⟩, hquotes, hne⟩

theorem parseTriple_eq_none_iff : parseTriple text = none ↔ ∀ triple, ¬ Tells text triple := by
  simp only [← parseTriple_eq_some_iff, Option.eq_none_iff_forall_ne_some, ne_eq]

end Reading

section Outcome

variable {clang workdir : Path} {around : Surroundings} {w u : World} {t : FileTree}
  {r : ToolResult} {outcome : Except Fault String}

/-- What is done before the compiler is called: the directory of the probe is made, and its source
is written. -/
def prepareProbe (workdir : Path) : Action Unit := do
  makeDirectories (probeDirectory workdir)
  writeText (probeDirectory workdir / "c.probe") "int probe;"

/-- Where the compiler of a probe is to write its result. -/
def probeResult (workdir : Path) : Path :=
  probeDirectory workdir / "ll.probe"

/-- The answer of a probe whose compiler has ended. -/
def answerProbe (workdir : Path) (r : ToolResult) : Action String := do
  if !r.success then throw (.build (probeFault r))
  let triple ←
    if ← isOccupied (probeResult workdir) then do
      let text ← readText (probeResult workdir)
      pure (parseTriple text)
    else pure none
  match triple with
  | some triple => return triple
  | none => throw (.build (probeFault r))

theorem detectTarget_eq (clang workdir : Path) :
    detectTarget clang workdir = (do
      prepareProbe workdir
      let r ← Tool.run (Build.probeCall clang workdir).command (some workdir)
      answerProbe workdir r) := by
  rw [prepareProbe, bind_assoc]
  rfl

/-- What is read of a file that may be missing. -/
def readAt (p : Path) (t : FileTree) (cwd : Location) : Except Fault (Option (List UInt8)) :=
  (answerAt p t cwd).bind fun found =>
    if found.isSome then (bytesAt p t cwd).map some else .ok none

/-- The triple that bytes tell. -/
def tripleIn (r : ToolResult) (bytes : List UInt8) : Except Fault String :=
  match Text.decodeFile? bytes with
  | none => .error .undecodable
  | some text => (parseTriple text).elim (.error (.build (probeFault r))) .ok

/-- The outcome of a probe whose compiler has ended. -/
def probeOutcome (workdir : Path) (r : ToolResult) (t : FileTree) (cwd : Location) :
    Except Fault String :=
  if r.success then
    (readAt (probeResult workdir) t cwd).bind fun found =>
      found.elim (.error (.build (probeFault r))) (tripleIn r)
  else .error (.build (probeFault r))

theorem perform_answerProbe (workdir : Path) (r : ToolResult) (around : Surroundings) (w : World) :
    perform (answerProbe workdir r) around w =
      (probeOutcome workdir r w.tree around.directory, w) := by
  unfold answerProbe probeOutcome readAt
  cases r.success with
  | false => rfl
  | true =>
      simp only [Bool.not_true, Bool.false_eq_true, if_false, if_true]
      rw [perform_bind, perform_isOccupied]
      rcases answerAt (probeResult workdir) w.tree around.directory with fault | _ | node
      · rfl
      · rfl
      · simp only [Except.map, Except.bind, Option.isSome_some, if_true]
        rw [perform_bind, perform_readText]
        rcases bytesAt (probeResult workdir) w.tree around.directory with fault | bytes
        · rfl
        · simp only [Except.bind, Option.elim_some, tripleIn]
          cases Text.decodeFile? bytes with
          | none => rfl
          | some text =>
              simp only [Option.elim_some]
              rw [perform_bind_ok (perform_pure _ _ _)]
              cases parseTriple text <;> rfl

/-- The compiler of a probe is called in a world, and ends. -/
structure Ended (clang workdir : Path) (around : Surroundings) (w u : World) (r : ToolResult)
    (t : FileTree) : Prop where
  prepared : perform (prepareProbe workdir) around w = (.ok (), u)
  result : Tool.result (Build.probeCall clang workdir).command
    (around.tool (Build.probeCall clang workdir) u).1 = .ok r
  tree : (around.tool (Build.probeCall clang workdir) u).2 = t

/-- The ways in which a probe can end. Only where the compiler has ended with zero the file for its
result counts, and it counts whether this compiler has written it or not. -/
inductive Probed (clang workdir : Path) (around : Surroundings) (w : World) :
    Except Fault String → Prop
  | unprepared {u : World} {fault : Fault} :
      perform (prepareProbe workdir) around w = (.error fault, u) →
      Probed clang workdir around w (.error fault)
  | raised {u : World} {fault : Fault} :
      perform (prepareProbe workdir) around w = (.ok (), u) →
      (around.tool (Build.probeCall clang workdir) u).1.raised? = some fault →
      Probed clang workdir around w (.error fault)
  | failed {u : World} {r : ToolResult} {t : FileTree} :
      Ended clang workdir around w u r t → r.success = false →
      Probed clang workdir around w (.error (.build (probeFault r)))
  | missing {u : World} {r : ToolResult} {t : FileTree} :
      Ended clang workdir around w u r t → r.success = true →
      readAt (probeResult workdir) t around.directory = .ok none →
      Probed clang workdir around w (.error (.build (probeFault r)))
  | unreadable {u : World} {r : ToolResult} {t : FileTree} {fault : Fault} :
      Ended clang workdir around w u r t → r.success = true →
      readAt (probeResult workdir) t around.directory = .error fault →
      Probed clang workdir around w (.error fault)
  | undecodable {u : World} {r : ToolResult} {t : FileTree} {bytes : List UInt8} :
      Ended clang workdir around w u r t → r.success = true →
      readAt (probeResult workdir) t around.directory = .ok (some bytes) →
      Text.decodeFile? bytes = none → Probed clang workdir around w (.error .undecodable)
  | untold {u : World} {r : ToolResult} {t : FileTree} {bytes : List UInt8} {text : String} :
      Ended clang workdir around w u r t → r.success = true →
      readAt (probeResult workdir) t around.directory = .ok (some bytes) →
      Text.decodeFile? bytes = some text → (∀ triple, ¬ Tells text triple) →
      Probed clang workdir around w (.error (.build (probeFault r)))
  | told {u : World} {r : ToolResult} {t : FileTree} {bytes : List UInt8} {text triple : String} :
      Ended clang workdir around w u r t → r.success = true →
      t.file? (goalOf around.directory (probeResult workdir)) ≠
        u.tree.file? (goalOf around.directory (probeResult workdir)) →
      readAt (probeResult workdir) t around.directory = .ok (some bytes) →
      Text.decodeFile? bytes = some text → Tells text triple →
      Probed clang workdir around w (.ok triple)
  | toldBefore {u : World} {r : ToolResult} {t : FileTree} {bytes : List UInt8}
      {text triple : String} :
      Ended clang workdir around w u r t → r.success = true →
      t.file? (goalOf around.directory (probeResult workdir)) =
        w.tree.file? (goalOf around.directory (probeResult workdir)) →
      readAt (probeResult workdir) t around.directory = .ok (some bytes) →
      Text.decodeFile? bytes = some text → Tells text triple →
      Probed clang workdir around w (.ok triple)

theorem Ended.outcome_eq (h : Ended clang workdir around w u r t) :
    (perform (detectTarget clang workdir) around w).1 =
      probeOutcome workdir r t around.directory := by
  have hrun : perform (Tool.run (Build.probeCall clang workdir).command (some workdir)) around u =
      (.ok r, ⟨t, .changed t :: .ran (Build.probeCall clang workdir) u.tree :: u.history⟩) := by
    rw [Tool.perform_run, ← h.tree]
    exact Prod.ext h.result rfl
  rw [detectTarget_eq, perform_bind_ok h.prepared, perform_bind_ok hrun, perform_answerProbe]

theorem outcome_of_unprepared {fault : Fault}
    (h : perform (prepareProbe workdir) around w = (.error fault, u)) :
    (perform (detectTarget clang workdir) around w).1 = .error fault := by
  rw [detectTarget_eq, perform_bind_error h]

theorem outcome_of_raised {fault : Fault}
    (h : perform (prepareProbe workdir) around w = (.ok (), u))
    (hraised : (around.tool (Build.probeCall clang workdir) u).1.raised? = some fault) :
    (perform (detectTarget clang workdir) around w).1 = .error fault := by
  have hresult : Tool.result (Build.probeCall clang workdir).command
      (around.tool (Build.probeCall clang workdir) u).1 = .error fault := by
    cases hreply : (around.tool (Build.probeCall clang workdir) u).1 <;>
      simp_all [ToolReply.raised?, Tool.result]
  have hrun := Tool.perform_run (Build.probeCall clang workdir).command (some workdir) around u
  rw [detectTarget_eq, perform_bind_ok h,
    perform_bind_error (hrun.trans (Prod.ext hresult rfl))]

/-- What an earlier probe has left is still there when the compiler is called. -/
theorem file?_of_prepared (h : perform (prepareProbe workdir) around w = (.ok (), u)) :
    u.tree.file? (goalOf around.directory (probeResult workdir)) =
      w.tree.file? (goalOf around.directory (probeResult workdir)) := by
  have hkeeps : Keeps around
      (Sparing fun q => q = goalOf around.directory (probeDirectory workdir / "c.probe"))
      (prepareProbe workdir) :=
    (sparing_makeDirectories _ _).bind fun _ => sparing_writeBytes (by rfl) _
  refine (hkeeps.of_perform h).file?_eq ?_
  rw [probeResult, goalOf_child _ _ (by decide), goalOf_child _ _ (by decide)]
  intro heq
  exact absurd (List.append_cancel_left heq) (by decide)

theorem Ended.probed (h : Ended clang workdir around w u r t) :
    Probed clang workdir around w (probeOutcome workdir r t around.directory) := by
  unfold probeOutcome
  cases hsuccess : r.success with
  | false => exact .failed h hsuccess
  | true =>
      rw [if_pos rfl]
      rcases hread : readAt (probeResult workdir) t around.directory with fault | _ | bytes
      · exact .unreadable h hsuccess hread
      · exact .missing h hsuccess hread
      · change Probed clang workdir around w (tripleIn r bytes)
        unfold tripleIn
        cases hdecoded : Text.decodeFile? bytes with
        | none => exact .undecodable h hsuccess hread hdecoded
        | some text =>
            dsimp only
            cases hparsed : parseTriple text with
            | none => exact .untold h hsuccess hread hdecoded (parseTriple_eq_none_iff.1 hparsed)
            | some triple =>
                have htells := parseTriple_eq_some_iff.1 hparsed
                by_cases hsame : t.file? (goalOf around.directory (probeResult workdir)) =
                  u.tree.file? (goalOf around.directory (probeResult workdir))
                · exact .toldBefore h hsuccess (hsame.trans (file?_of_prepared h.prepared)) hread
                    hdecoded htells
                · exact .told h hsuccess hsame hread hdecoded htells

theorem outcome_of_read {bytes : List UInt8} {cwd : Location} (hsuccess : r.success = true)
    (hread : readAt (probeResult workdir) t cwd = .ok (some bytes)) :
    probeOutcome workdir r t cwd = tripleIn r bytes := by
  rw [probeOutcome, if_pos hsuccess, hread]
  rfl

theorem tripleIn_of_tells {bytes : List UInt8} {text triple : String}
    (hdecoded : Text.decodeFile? bytes = some text) (htells : Tells text triple) :
    tripleIn r bytes = .ok triple := by
  rw [tripleIn, hdecoded]
  dsimp only
  rw [parseTriple_eq_some_iff.2 htells]
  rfl

theorem Probed.outcome_eq (h : Probed clang workdir around w outcome) :
    (perform (detectTarget clang workdir) around w).1 = outcome := by
  cases h with
  | unprepared hprepared => exact outcome_of_unprepared hprepared
  | raised hprepared hraised => exact outcome_of_raised hprepared hraised
  | failed h hfailed => rw [h.outcome_eq, probeOutcome, hfailed, if_neg (by simp)]
  | missing h hsuccess hread =>
      rw [h.outcome_eq, probeOutcome, if_pos hsuccess, hread]
      rfl
  | unreadable h hsuccess hread =>
      rw [h.outcome_eq, probeOutcome, if_pos hsuccess, hread]
      rfl
  | undecodable h hsuccess hread hdecoded =>
      rw [h.outcome_eq, outcome_of_read hsuccess hread, tripleIn, hdecoded]
  | untold h hsuccess hread hdecoded huntold =>
      rw [h.outcome_eq, outcome_of_read hsuccess hread, tripleIn, hdecoded]
      dsimp only
      rw [parseTriple_eq_none_iff.2 huntold]
      rfl
  | told h hsuccess _ hread hdecoded htells =>
      rw [h.outcome_eq, outcome_of_read hsuccess hread]
      exact tripleIn_of_tells hdecoded htells
  | toldBefore h hsuccess _ hread hdecoded htells =>
      rw [h.outcome_eq, outcome_of_read hsuccess hread]
      exact tripleIn_of_tells hdecoded htells

theorem probed_detectTarget (clang workdir : Path) (around : Surroundings) (w : World) :
    Probed clang workdir around w (perform (detectTarget clang workdir) around w).1 := by
  rcases hprepared : perform (prepareProbe workdir) around w with ⟨fault | ⟨⟩, u⟩
  · rw [outcome_of_unprepared hprepared]
    exact .unprepared hprepared
  · cases hreply : (around.tool (Build.probeCall clang workdir) u).1.raised? with
    | some fault =>
        rw [outcome_of_raised hprepared hreply]
        exact .raised hprepared hreply
    | none =>
        have hcommand : (Build.probeCall clang workdir).command ≠ [] := by
          simp [Build.probeCall, probeCommand]
        obtain ⟨r, hr, -⟩ := Tool.exists_result hcommand hreply
        have hended : Ended clang workdir around w u r _ := ⟨hprepared, hr, rfl⟩
        rw [hended.outcome_eq]
        exact hended.probed

/-- A probe ends in one of these ways and no other. A compiler that fails, that leaves no result, or
whose result tells no triple, makes the probe fail; a triple is given exactly when the compiler
ended with zero and the file for its result tells it. It may be one that an earlier probe has left.
-/
theorem detectTarget_ends_iff (clang workdir : Path) (around : Surroundings) (w : World)
    (outcome : Except Fault String) :
    (perform (detectTarget clang workdir) around w).1 = outcome ↔
      Probed clang workdir around w outcome := by
  constructor
  · rintro rfl
    exact probed_detectTarget clang workdir around w
  · exact Probed.outcome_eq

end Outcome

section Leftover

/-- A disk with the result of an earlier probe in the work directory `/w`. -/
def diskWithResult : FileTree :=
  ((FileTree.empty.add ["w"] .directory).add ["w", "target"] .directory).writeFile
    ["w", "target", "ll.probe"] (Text.encode "target triple = \"old\"\n")

/-- Surroundings in which every tool ends with zero and writes nothing. -/
def silentTools : Surroundings :=
  { Surroundings.still [] with tool := fun _ w => (.exited 0 [] [], w.tree) }

/-- A compiler that writes nothing is said to compile for the target of an earlier one. -/
theorem silent_compiler_repeats_triple :
    (∀ call w, silentTools.tool call w = (.exited 0 [] [], w.tree)) ∧
      (perform (detectTarget (.parse "/clang") (.parse "/w")) silentTools
        (.ofTree diskWithResult)).1 = .ok "old" := by
  constructor
  · intro call w
    rfl
  · decide +kernel

end Leftover

end StagedBuild.Compiler
