import StagedBuild.Proofs.Units.Calls

/-!
Units that no longer belong to a program. A unit that an earlier call wrote and the last one did not
is gone, unless the call that wrote it failed before it could be recorded, or its name is nothing
but the extension.
-/

namespace StagedBuild.Units

open Action FileTree

variable {workdir : Path} {cwd : Location} {w v : World} {c : Call} {calls : List Call}
  {way : Location}

theorem hasSuffix_iff (h : IsUnitWay way) : HasSuffix way ↔ way.getLast? ≠ some suffix := by
  rw [HasSuffix, suffix_of_isUnitName h.2, List.getLast?_eq_some_getLast h.1]
  simp

/-- What holds of one way between calls: the record lists it when the last call that succeeded wrote
it, and a file that was written is recorded or left behind. -/
structure Traced (workdir : Path) (cwd : Location) (calls : List Call) (t : FileTree)
    (ways : List Location) (way : Location) : Prop where
  recorded : ¬ t.isDirectory (goalOf cwd workdir ++ way) = true →
    (way ∈ ways ↔ InRecord calls (goalOf cwd workdir ++ way))
  left : LeftBehind calls (goalOf cwd workdir ++ way) →
    t.isFile (goalOf cwd workdir ++ way) = true ∧
      ¬ InRecord calls (goalOf cwd workdir ++ way)
  present : HasSuffix way → (∃ e ∈ calls, e.Wrote (goalOf cwd workdir ++ way)) →
    t.isFile (goalOf cwd workdir ++ way) = true →
    ¬ LeftBehind calls (goalOf cwd workdir ++ way) →
    InRecord calls (goalOf cwd workdir ++ way)
  bare : ¬ HasSuffix way → (∃ e ∈ calls, e.Wrote (goalOf cwd workdir ++ way)) →
    t.isFile (goalOf cwd workdir ++ way) = true

/-- What holds of a disk between calls in a work directory. -/
structure Invariant (workdir : Path) (cwd : Location) (calls : List Call) (t : FileTree) :
    Prop where
  wellFormed : t.WellFormed
  directory : t.isDirectory cwd = true
  record : ∃ ways, Records workdir cwd t ways ∧
    ∀ way, IsUnitWay way → Traced workdir cwd calls t ways way

theorem not_removable_of_not_mem {base : Location} {ways : List Location} (h : way ∉ ways) :
    ¬ removable base ways (base ++ way) := by
  rintro ⟨way', hway', -, heq⟩
  rw [List.append_cancel_left heq] at h
  exact h hway'

theorem not_removable_of_bare {base : Location} {ways : List Location} (h : ¬ HasSuffix way) :
    ¬ removable base ways (base ++ way) := by
  rintro ⟨way', -, hsuffix, heq⟩
  rw [List.append_cancel_left heq] at h
  exact h hsuffix

theorem invariant_initial (hw : w.tree.WellFormed) (hcwd : w.tree.isDirectory cwd = true)
    (hnone : w.tree.node? (recordAt cwd workdir) = none) :
    Invariant workdir cwd [] w.tree where
  wellFormed := hw
  directory := hcwd
  record := by
    refine ⟨[], ⟨fun _ => by rw [hnone]; rfl, by simp⟩, fun way _ => ?_⟩
    exact {
      recorded := fun _ => by simp [InRecord]
      left := fun h => h.elim
      present := fun _ h => by simp at h
      bare := fun _ h => by simp at h }

namespace Call.Effect

variable {ways : List Location} (h : c.Effect workdir cwd ways)
  (hdirs : ∀ loc, c.before.tree.isDirectory loc = true → c.after.tree.isDirectory loc = true)
  (htraced : Traced workdir cwd calls c.before.tree ways way)

include h

/-- A file left behind is still there: it is not recorded, so it is not taken away. -/
theorem isFile_of_leftBehind (htraced : Traced workdir cwd calls c.before.tree ways way)
    (hleft : LeftBehind calls (goalOf cwd workdir ++ way)) :
    c.after.tree.isFile (goalOf cwd workdir ++ way) = true := by
  obtain ⟨hfile, hnot⟩ := htraced.left hleft
  refine h.kept _ hfile (not_removable_of_not_mem fun hmem => hnot ?_)
  exact (htraced.recorded fun hdir => not_isFile_of_isDirectory hdir hfile).1 hmem

theorem isFile_of_bare (htraced : Traced workdir cwd calls c.before.tree ways way)
    (hbare : ¬ HasSuffix way)
    (hwrote : ∃ e ∈ c :: calls, e.Wrote (goalOf cwd workdir ++ way)) :
    c.after.tree.isFile (goalOf cwd workdir ++ way) = true := by
  obtain ⟨e, he, hwrote⟩ := hwrote
  rcases List.mem_cons.1 he with rfl | he
  · exact h.written _ hwrote
  · exact h.kept _ (htraced.bare hbare ⟨e, he, hwrote⟩) (not_removable_of_bare hbare)

/-- What a call that succeeds did not write, and left there, was left behind or has no extension. -/
theorem leftBehind_of_isFile (hsucceeded : c.succeeded = true) (hunit : IsUnitWay way)
    (htraced : Traced workdir cwd calls c.before.tree ways way)
    (hwrote : ∃ e ∈ calls, e.Wrote (goalOf cwd workdir ++ way))
    (hnot : ¬ c.Wrote (goalOf cwd workdir ++ way)) (hsuffix : HasSuffix way)
    (hfile : c.after.tree.isFile (goalOf cwd workdir ++ way) = true) :
    LeftBehind calls (goalOf cwd workdir ++ way) := by
  by_contra hleft
  have hbefore := h.unwritten way hunit hfile hnot
  have hmem : way ∈ ways :=
    (htraced.recorded fun hdir => not_isFile_of_isDirectory hdir hbefore).2
      (htraced.present hsuffix hwrote hbefore hleft)
  exact h.removed hsucceeded way hmem hunit hsuffix hnot hfile

include hdirs htraced

theorem traced_of_failed (hfailed : c.succeeded = false) (hunit : IsUnitWay way) :
    Traced workdir cwd (c :: calls) c.after.tree ways way where
  recorded hnot := by
    rw [InRecord, if_neg (by simp [hfailed])]
    exact htraced.recorded fun hdir => hnot (hdirs _ hdir)
  left hleft := by
    rw [InRecord, if_neg (by simp [hfailed])]
    rcases hleft with ⟨hwrote, -, hnot⟩ | ⟨-, hleft⟩
    · exact ⟨h.written _ hwrote, hnot⟩
    · exact ⟨h.isFile_of_leftBehind htraced hleft, (htraced.left hleft).2⟩
  present hsuffix hwrote hfile hnot := by
    rw [InRecord, if_neg (by simp [hfailed])]
    rw [LeftBehind, not_or] at hnot
    by_cases hc : c.Wrote (goalOf cwd workdir ++ way)
    · by_contra hrecord
      exact hnot.1 ⟨hc, hfailed, hrecord⟩
    · obtain ⟨e, he, hwrote⟩ := hwrote
      refine htraced.present hsuffix ⟨e, ?_, hwrote⟩ (h.unwritten way hunit hfile hc)
        fun hleft => hnot.2 ⟨hc, hleft⟩
      exact (List.mem_cons.1 he).resolve_left fun heq => hc (heq ▸ hwrote)
  bare hbare hwrote := h.isFile_of_bare htraced hbare hwrote

omit hdirs in
theorem traced_of_succeeded {ways' : List Location} (hsucceeded : c.succeeded = true)
    (hunit : IsUnitWay way)
    (hrecorded : ¬ c.after.tree.isDirectory (goalOf cwd workdir ++ way) = true →
      (way ∈ ways' ↔ c.Wrote (goalOf cwd workdir ++ way))) :
    Traced workdir cwd (c :: calls) c.after.tree ways' way where
  recorded hnot := by
    rw [InRecord, if_pos hsucceeded]
    exact hrecorded hnot
  left hleft := by
    rw [InRecord, if_pos hsucceeded]
    rcases hleft with ⟨-, hfailed, -⟩ | ⟨hnot, hleft⟩
    · simp [hsucceeded] at hfailed
    · exact ⟨h.isFile_of_leftBehind htraced hleft, hnot⟩
  present hsuffix hwrote hfile hnot := by
    rw [InRecord, if_pos hsucceeded]
    by_contra hc
    obtain ⟨e, he, hwrote⟩ := hwrote
    have hearlier : ∃ e ∈ calls, e.Wrote (goalOf cwd workdir ++ way) :=
      ⟨e, (List.mem_cons.1 he).resolve_left fun heq => hc (heq ▸ hwrote), hwrote⟩
    exact hnot (.inr ⟨hc, h.leftBehind_of_isFile hsucceeded hunit htraced hearlier hc hsuffix
      hfile⟩)
  bare hbare hwrote := h.isFile_of_bare htraced hbare hwrote

end Call.Effect

theorem Invariant.step (hbefore : Invariant workdir cwd calls c.before.tree)
    (hin : c.IsIn workdir cwd) (hfits : RecordFits workdir) :
    Invariant workdir cwd (c :: calls) c.after.tree := by
  obtain ⟨ways, hrecords, htraced⟩ := hbefore.record
  obtain ⟨hwf, hdirs⟩ := Call.sound hin hbefore.wellFormed hbefore.directory
  have heffect := Call.effect hin hbefore.wellFormed hbefore.directory hfits hrecords
  refine ⟨hwf, hdirs _ hbefore.directory, ?_⟩
  cases hsucceeded : c.succeeded with
  | false =>
      exact ⟨ways, heffect.failed hsucceeded, fun way hunit =>
        heffect.traced_of_failed hdirs (htraced way hunit) hsucceeded hunit⟩
  | true =>
      obtain ⟨ways', hrecords', hrecorded⟩ := heffect.recorded hsucceeded
      exact ⟨ways', hrecords', fun way hunit =>
        heffect.traced_of_succeeded (htraced way hunit) hsucceeded hunit (hrecorded way hunit)⟩

theorem History.invariant (hist : History workdir cwd w calls v)
    (hw : w.tree.WellFormed) (hcwd : w.tree.isDirectory cwd = true)
    (hnone : w.tree.node? (recordAt cwd workdir) = none) (hfits : RecordFits workdir) :
    Invariant workdir cwd calls v.tree := by
  induction hist with
  | nil => exact invariant_initial hw hcwd hnone
  | cons _ hin ih => exact ih.step hin hfits

/-- A toolchain whose code generation writes one empty file and ends in a given way. -/
def toolsWriting (p : Path) (ended : Except Fault Unit) : IrTools where
  label := "tools"
  link := fun _ _ => .ok (.ofLists [] [] [])
  optimize := fun _ linked _ => .ok linked.defns
  generate := fun _ _ w => ((w.tree.write [] p []).toOption.getD w.tree, ended)

theorem writesFiles_toolsWriting {p : Path} {t : FileTree} {record : Location}
    (ht : t.WellFormed) (habsolute : p.isAbsolute = true)
    (hask : Disk.isAskable p = true) (hrecord : goalOf [] p ≠ record) :
    WritesFiles record t ((t.write [] p []).toOption.getD t) := by
  rcases hwrite : t.write [] p [] with e | t'
  · exact ⟨ht, fun _ h => h, fun _ h => h, rfl⟩
  · obtain ⟨loc, hloc, hnot, rfl⟩ := exists_of_write hwrite
    obtain rfl := (locate_eq_ok_iff.1 hloc).1
    have hne : goalOf [] p ≠ [] := by
      intro hnil
      rw [hnil] at hnot
      exact hnot (isDirectory_iff.2 (node?_nil t))
    have hstart : t.isDirectory (start [] p) = true := by
      rw [start, if_pos habsolute]
      exact isDirectory_iff.2 (node?_nil t)
    refine ⟨ht.write hstart hask hwrite, fun q hq => ?_, fun q hq => ?_, ?_⟩
    · rw [Except.toOption, Option.getD_some, isDirectory_iff, node?_writeFile hne, if_neg]
      · exact isDirectory_iff.1 hq
      · rintro rfl
        exact hnot hq
    · rw [Except.toOption, Option.getD_some, isFile_iff, node?_writeFile hne]
      split
      · exact ⟨_, rfl⟩
      · exact isFile_iff.1 hq
    · rw [Except.toOption, Option.getD_some, node?_writeFile hne, if_neg (Ne.symm hrecord)]

/-- A call in the work directory `/w` whose toolchain writes one file. -/
def callWriting (p : Path) (ended : Except Fault Unit) (before : World) : Call where
  plan := ⟨.parse "clang", .parse "clang++", "x86_64-linux", "main", .parse "/w",
    .parse "/nativelib.jar", [], [], [], .default, .default, "Linux", true, 1, false⟩
  tools := toolsWriting p ended
  defns := []
  around := .still []
  before := before

theorem isIn_callWriting {p : Path} {ended : Except Fault Unit} {before : World}
    (hw : before.tree.WellFormed) (habsolute : p.isAbsolute = true)
    (hask : Disk.isAskable p = true) (hrecord : goalOf [] p ≠ recordAt [] (.parse "/w")) :
    (callWriting p ended before).IsIn (.parse "/w") [] where
  workdir_eq := rfl
  directory_eq := rfl
  writes stamped v hv := by
    have hsound := sound_beforeCode (callWriting p ended before).around
      (callWriting p ended before).plan (callWriting p ended before).before hw
      (isDirectory_iff.2 (node?_nil _))
    rw [show perform _ _ _ = _ from hv] at hsound
    exact writesFiles_toolsWriting hsound.1 habsolute hask hrecord

/-- Code generation that fails after it has written `old.ll`. -/
def interrupted : Call :=
  callWriting (.parse "/w/old.ll") (.error (.failure "out of memory")) (.ofTree .empty)

/-- Code generation that writes `old.ll` and succeeds. -/
def completed : Call :=
  callWriting (.parse "/w/old.ll") (.ok ()) (.ofTree .empty)

/-- Code generation for a program whose only unit is `main.ll`. -/
def renamedFrom (before : World) : Call :=
  callWriting (.parse "/w/main.ll") (.ok ()) before

theorem history_renamed {ended : Except Fault Unit} {first : Call}
    (hfirst : first = callWriting (.parse "/w/old.ll") ended (.ofTree .empty)) :
    History (.parse "/w") [] (.ofTree .empty) [renamedFrom first.after, first]
      (renamedFrom first.after).after := by
  have hin : first.IsIn (.parse "/w") [] := by
    rw [hfirst]
    exact isIn_callWriting wellFormed_empty (by decide) (by decide)
      (by decide)
  have hone : History (.parse "/w") [] (.ofTree .empty) [first] first.after := by
    refine .cons ?_ hin
    rw [hfirst]
    exact .nil
  have hwf : first.after.tree.WellFormed := by
    refine (Call.sound hin ?_ (isDirectory_iff.2 (node?_nil _))).1
    rw [hfirst]
    exact wellFormed_empty
  exact .cons hone (isIn_callWriting hwf (by decide) (by decide)
    (by decide))

instance (t t' : FileTree) (loc : Location) : Decidable (Rewrote t t' loc) :=
  inferInstanceAs (Decidable (_ ∧ _))

theorem wrote_of_stamps {loc : Location}
    (hok : (perform (beforeCode c.plan) c.around c.before).1.isOk = true)
    (h : Rewrote (perform (beforeCode c.plan) c.around c.before).2.tree
      (c.treeFrom (perform (beforeCode c.plan) c.around c.before).2) loc) : c.Wrote loc := by
  rcases hbefore : perform (beforeCode c.plan) c.around c.before with ⟨fault | before, v⟩
  · rw [hbefore] at hok
    cases hok
  · rw [hbefore] at h
    exact ⟨before, v, hbefore, h⟩

theorem not_wrote_of_stamps {loc : Location}
    (h : ¬ Rewrote (perform (beforeCode c.plan) c.around c.before).2.tree
      (c.treeFrom (perform (beforeCode c.plan) c.around c.before).2) loc) : ¬ c.Wrote loc := by
  rintro ⟨before, v, hbefore, hrewrote⟩
  rw [hbefore] at h
  exact h hrewrote

/-- A unit that an earlier call wrote and this one did not is still among the units exactly when its
name is nothing but the extension, or when the last call that wrote it failed while the record did
not list it. -/
theorem stale_unit_remains_iff {units : List Path} (hist : History workdir cwd w (c :: calls) v)
    (hw : w.tree.WellFormed) (hcwd : w.tree.isDirectory cwd = true)
    (hnone : w.tree.node? (recordAt cwd workdir) = none) (hok : c.outcome = .ok units)
    (hunit : IsUnitWay way) (hwrote : ∃ e ∈ calls, e.Wrote (goalOf cwd workdir ++ way))
    (hnot : ¬ c.Wrote (goalOf cwd workdir ++ way)) :
    (v.tree.isFile (goalOf cwd workdir ++ way) = true ∧ workdir.descend way ∈ units) ↔
      way.getLast? = some suffix ∨ LeftBehind calls (goalOf cwd workdir ++ way) := by
  cases hist with
  | cons hist hin =>
      have hfits : RecordFits workdir := by
        rw [← hin.workdir_eq]
        exact recordFits_of_generate (Prod.ext hok rfl)
      obtain ⟨hwf, hdirectory, ways, hrecords, htraced⟩ := hist.invariant hw hcwd hnone hfits
      have heffect := Call.effect hin hwf hdirectory hfits hrecords
      have hsucceeded := Call.succeeded_of_ok hok
      constructor
      · rintro ⟨hfile, -⟩
        by_cases hsuffix : HasSuffix way
        · exact .inr (heffect.leftBehind_of_isFile hsucceeded hunit (htraced way hunit) hwrote hnot
            hsuffix hfile)
        · exact .inl (not_not.1 fun hne => hsuffix ((hasSuffix_iff hunit).2 hne))
      · intro hremains
        have hfile : c.after.tree.isFile (goalOf cwd workdir ++ way) = true := by
          rcases hremains with hbare | hleft
          · obtain ⟨e, he, hwrote⟩ := hwrote
            exact heffect.isFile_of_bare (htraced way hunit)
              (fun hsuffix => (hasSuffix_iff hunit).1 hsuffix hbare)
              ⟨e, List.mem_cons_of_mem _ he, hwrote⟩
          · exact heffect.isFile_of_leftBehind (htraced way hunit) hleft
        exact ⟨hfile, heffect.listed units hok way hunit hfile⟩

/-- A unit of a call that succeeds is gone after the next call, which did not write it. -/
theorem stale_unit_gone_after_success :
    completed.Wrote (goalOf [] (.parse "/w") ++ ["old.ll"]) ∧
      ¬ (renamedFrom completed.after).Wrote (goalOf [] (.parse "/w") ++ ["old.ll"]) ∧
      (renamedFrom completed.after).outcome = .ok [.parse "/w/main.ll"] ∧
      ¬ ((renamedFrom completed.after).after.tree.isFile
          (goalOf [] (.parse "/w") ++ ["old.ll"]) = true ∧
        (Path.parse "/w").descend ["old.ll"] ∈ [Path.parse "/w/main.ll"]) := by
  have hwrote : completed.Wrote (goalOf [] (.parse "/w") ++ ["old.ll"]) :=
    wrote_of_stamps (by decide +kernel) (by decide +kernel)
  have hnot : ¬ (renamedFrom completed.after).Wrote (goalOf [] (.parse "/w") ++ ["old.ll"]) :=
    not_wrote_of_stamps (by decide +kernel)
  have hok : (renamedFrom completed.after).outcome = .ok [.parse "/w/main.ll"] := by
    decide +kernel
  refine ⟨hwrote, hnot, hok, fun hstale => ?_⟩
  have hsucceeded : completed.succeeded = true := by decide +kernel
  have hfirst : completed = callWriting (.parse "/w/old.ll") (.ok ()) (.ofTree .empty) := rfl
  rcases (stale_unit_remains_iff (history_renamed hfirst) wellFormed_empty
    (isDirectory_iff.2 (node?_nil _)) (by decide) hok ⟨by simp, by decide⟩
    ⟨completed, by simp, hwrote⟩ hnot).1 hstale with hbare | ⟨-, hfailed, -⟩ | ⟨hnot, -⟩
  · exact absurd hbare (by decide)
  · rw [hsucceeded] at hfailed
    cases hfailed
  · exact hnot hwrote

/-- A unit of a call that fails is among the units of the next call, which did not write it. -/
theorem stale_unit_after_failure :
    ∃ units, History (.parse "/w") [] (.ofTree .empty)
        [renamedFrom interrupted.after, interrupted] (renamedFrom interrupted.after).after ∧
      (renamedFrom interrupted.after).outcome = .ok units ∧
      interrupted.Wrote ["w", "old.ll"] ∧
      ¬ (renamedFrom interrupted.after).Wrote ["w", "old.ll"] ∧
      (renamedFrom interrupted.after).after.tree.isFile ["w", "old.ll"] = true ∧
      .parse "/w/old.ll" ∈ units :=
  ⟨[.parse "/w/main.ll", .parse "/w/old.ll"], history_renamed rfl, by decide +kernel,
    wrote_of_stamps (by decide +kernel) (by decide +kernel),
    not_wrote_of_stamps (by decide +kernel), by decide +kernel, by decide⟩

end StagedBuild.Units
