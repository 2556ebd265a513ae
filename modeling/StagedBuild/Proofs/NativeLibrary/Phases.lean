import StagedBuild.Proofs.Action.Faults
import StagedBuild.Proofs.Archive.Fresh
import StagedBuild.Proofs.NativeLibrary.Unpacked

/-!
The phases of a renewal. Seeing to the copy of an archive ends in a fault when the copy cannot be
seen, when the archive cannot be read, or in one of the phases.
-/

namespace StagedBuild.NativeLibrary

open Action Disk Manifest

variable {around : Surroundings} {w v : World} {plan : Plan} {bytes : List UInt8} {fault : Fault}

/-- What the marker of a copy holds, if the copy and its marker are there. -/
def markAt (lib : Path) (t : FileTree) (cwd : Location) : Except Fault (Option (List UInt8)) := do
  if (← answerAt lib t cwd).isNone then return none
  if (← answerAt (lib / markerName) t cwd).isNone then return none
  return some (← bytesAt (lib / markerName) t cwd)

theorem perform_isFresh (plan : Plan) (around : Surroundings) (w : World) :
    perform (copyOf plan).isFresh around w =
      (do
        let held ← markAt plan.libraryDirectory w.tree around.directory
        match held with
        | none => return false
        | some held =>
          return held == markingOf (← bytesAt plan.archive w.tree around.directory), w) := by
  have hprint : (copyOf plan).printAt around.spareMemory w.tree around.directory =
      (bytesAt plan.archive w.tree around.directory).map markingOf :=
    (Prod.mk.inj ((ArchiveCopy.perform_marking (copyOf plan) around w).symm.trans
      (perform_marking plan.archive plan.libraryDirectory around w))).1
  have hheld : (copyOf plan).heldAt w.tree around.directory =
      markAt plan.libraryDirectory w.tree around.directory := rfl
  rw [ArchiveCopy.perform_isFresh, hprint, hheld]
  rcases markAt plan.libraryDirectory w.tree around.directory with fault | _ | held
  · rfl
  · rfl
  rcases bytesAt plan.archive w.tree around.directory with fault | bytes <;> rfl

/-- A copy that is not current: the archive can be read, and no marker holds its digest. -/
structure IsOld (around : Surroundings) (plan : Plan) (w : World) (bytes : List UInt8) : Prop where
  archive : bytesAt plan.archive w.tree around.directory = .ok bytes
  marked : ∃ held, markAt plan.libraryDirectory w.tree around.directory = .ok held ∧
    held ≠ some (markingOf bytes)

/-- The phases of a renewal, once the digest of the archive is taken. -/
inductive Phase where
  | clearing
  | making
  | pouring
  | listing
  | placing
  | marking
  deriving DecidableEq

namespace Phase

/-- The phases in their order. -/
def all : List Phase := [clearing, making, pouring, listing, placing, marking]

def before (phase : Phase) : List Phase := all.takeWhile (· ≠ phase)

theorem exists_all_eq (phase : Phase) : ∃ rest, all = phase.before ++ phase :: rest := by
  cases phase <;> exact ⟨_, rfl⟩

theorem eq_before {phase : Phase} {done rest : List Phase} (h : all = done ++ phase :: rest) :
    done = phase.before := by
  have hnodup : (done ++ phase :: rest).Nodup := h ▸ (by decide : all.Nodup)
  have hdone : ∀ p ∈ done, decide (p ≠ phase) = true := by
    intro p hp
    refine decide_eq_true fun heq => ?_
    exact List.disjoint_of_nodup_append hnodup hp (heq ▸ List.mem_cons_self)
  rw [before, h, List.takeWhile_append_of_pos hdone]
  simp

/-- What an archive is refused for, in the words of an extraction that failed. -/
def refusalOf (archive : Path) : Fault → Fault
  | .archive fault => .extraction (.malformed archive fault)
  | .system fault => .extraction (.refused archive fault)
  | fault => fault

/-- What is done in a phase. -/
def action (plan : Plan) (print : List UInt8) : Phase → Action Unit
  | clearing => Site.clear plan.libraryDirectory
  | making => do
    if !(← isOccupied plan.archive) then throw (.extraction (.missing plan.archive))
    makeDirectories plan.libraryDirectory
  | pouring => do
    if plan.archive.suffix ∉ Archive.knownSuffixes then
      throw (.extraction (.unsupported plan.archive.suffix))
    match ← Action.outcome (readBytes plan.archive >>= pour plan.libraryDirectory) with
    | .ok _ => return ()
    | .error fault => throw (refusalOf plan.archive fault)
  | listing => writeManifest plan.libraryDirectory
  | placing => makeDirectories plan.libraryDirectory
  | marking => writeBytes (plan.libraryDirectory / markerName) print

end Phase

theorem extract_eq_phases (plan : Plan) (print : List UInt8) :
    Archive.extract plan.archive plan.libraryDirectory =
      Phase.making.action plan print >>= fun _ => Phase.pouring.action plan print := by
  unfold Archive.extract Phase.action
  rw [bind_assoc]
  refine bind_congr fun there => ?_
  cases there with
  | false => rfl
  | true =>
      refine bind_congr fun _ => ?_
      by_cases hknown : plan.archive.suffix ∈ Archive.knownSuffixes
      · rw [if_neg (not_not.2 hknown), if_neg (not_not.2 hknown)]
        refine bind_congr fun ended => ?_
        rcases ended with fault | _
        · cases fault <;> rfl
        · rfl
      · rw [if_pos hknown, if_pos hknown]
        rfl

theorem renew_eq_phases (plan : Plan) : (copyOf plan).renew writeManifest =
    (copyOf plan).marking >>= fun print => Phase.all.forM (Phase.action plan print) := by
  have hparent : (copyOf plan).marker.parent = plan.libraryDirectory :=
    parent_marker plan.libraryDirectory
  rw [renew_eq_clear]
  refine bind_congr fun print => ?_
  unfold makeCopy
  rw [hparent, copyOf_marker, copyOf_directory]
  change (Phase.clearing.action plan print >>= fun _ =>
    Archive.extract plan.archive plan.libraryDirectory >>= _) = _
  rw [extract_eq_phases plan print]
  simp only [bind_assoc]
  rfl

/-- A renewal has come to a phase. -/
def ComesTo (around : Surroundings) (plan : Plan) (w : World) (bytes : List UInt8)
    (phase : Phase) (v : World) : Prop :=
  perform (phase.before.forM (Phase.action plan (markingOf bytes))) around w = (.ok (), v)

/-- A renewal ends in a fault when the archive cannot be read, or in one of its phases. -/
theorem endsIn_renew_iff :
    EndsIn around w ((copyOf plan).renew writeManifest) fault ↔
      bytesAt plan.archive w.tree around.directory = .error fault ∨
      ∃ bytes, bytesAt plan.archive w.tree around.directory = .ok bytes ∧
        ∃ phase v, ComesTo around plan w bytes phase v ∧
          EndsIn around v (phase.action plan (markingOf bytes)) fault := by
  have hmarking : perform (copyOf plan).marking around w =
      ((bytesAt plan.archive w.tree around.directory).map markingOf, w) :=
    perform_marking plan.archive plan.libraryDirectory around w
  rw [renew_eq_phases]
  rcases hbytes : bytesAt plan.archive w.tree around.directory with cause | bytes
  · rw [hbytes] at hmarking
    rw [EndsIn.bind_iff_of_error hmarking]
    simp
  · rw [hbytes] at hmarking
    rw [EndsIn.bind_iff_of_ok hmarking, EndsIn.forM_iff]
    constructor
    · rintro ⟨done, phase, rest, v, hall, hdone, hphase⟩
      rw [Phase.eq_before hall] at hdone
      exact .inr ⟨bytes, rfl, phase, v, hdone, hphase⟩
    · rintro (h | ⟨_, ⟨⟩, phase, v, hcomes, hphase⟩)
      · cases h
      · obtain ⟨rest, hall⟩ := phase.exists_all_eq
        exact ⟨phase.before, phase, rest, v, hall, hcomes, hphase⟩

theorem judged (plan : Plan) (around : Surroundings) (w : World) :
    (∃ cause, markAt plan.libraryDirectory w.tree around.directory = .error cause ∧
        perform (copyOf plan).isFresh around w = (.error cause, w)) ∨
      ∃ held, markAt plan.libraryDirectory w.tree around.directory = .ok held ∧
        ((∃ cause, bytesAt plan.archive w.tree around.directory = .error cause ∧
            (perform (copyOf plan).isFresh around w = (.error cause, w) ∨
              perform (copyOf plan).isFresh around w = (.ok false, w))) ∨
          ∃ bytes, bytesAt plan.archive w.tree around.directory = .ok bytes ∧
            (held = some (markingOf bytes) ∧
                perform (copyOf plan).isFresh around w = (.ok true, w) ∨
              held ≠ some (markingOf bytes) ∧
                perform (copyOf plan).isFresh around w = (.ok false, w))) := by
  have hfresh := perform_isFresh plan around w
  rcases hmark : markAt plan.libraryDirectory w.tree around.directory with cause | held
  · rw [hmark] at hfresh
    exact .inl ⟨cause, rfl, hfresh⟩
  rw [hmark] at hfresh
  refine .inr ⟨held, rfl, ?_⟩
  rcases hbytes : bytesAt plan.archive w.tree around.directory with cause | bytes
  · rw [hbytes] at hfresh
    refine .inl ⟨cause, rfl, ?_⟩
    cases held with
    | none => exact .inr hfresh
    | some held => exact .inl hfresh
  · rw [hbytes] at hfresh
    refine .inr ⟨bytes, rfl, ?_⟩
    cases held with
    | none => exact .inr ⟨nofun, hfresh⟩
    | some held =>
        by_cases hheld : held = markingOf bytes
        · subst hheld
          refine .inl ⟨rfl, hfresh.trans ?_⟩
          simp [bind, Except.bind, pure, Except.pure]
        · refine .inr ⟨fun h => hheld (Option.some.inj h), hfresh.trans ?_⟩
          simp [bind, Except.bind, pure, Except.pure, hheld]

/-- Seeing to the copy ends in a fault when the copy cannot be seen, when the archive cannot be
read, or in a phase of the renewal of a copy that is not current. -/
theorem endsIn_freshen_iff :
    EndsIn around w ((copyOf plan).freshen writeManifest) fault ↔
      markAt plan.libraryDirectory w.tree around.directory = .error fault ∨
      (∃ held, markAt plan.libraryDirectory w.tree around.directory = .ok held ∧
        bytesAt plan.archive w.tree around.directory = .error fault) ∨
      ∃ bytes phase v, IsOld around plan w bytes ∧ ComesTo around plan w bytes phase v ∧
        EndsIn around v (phase.action plan (markingOf bytes)) fault := by
  have hrenew : perform (copyOf plan).isFresh around w = (.ok false, w) →
      (EndsIn around w ((copyOf plan).freshen writeManifest) fault ↔
        EndsIn around w ((copyOf plan).renew writeManifest) fault) := fun h =>
    (EndsIn.bind_iff_of_ok h).trans EndsIn.map_iff
  rcases judged plan around w with ⟨cause, hmark, hfresh⟩ | ⟨held, hmark, hjudged⟩
  · refine (EndsIn.bind_iff_of_error hfresh).trans ⟨fun h => .inl (hmark.trans (congrArg _ h)), ?_⟩
    rintro (h | ⟨_, h, -⟩ | ⟨_, _, _, ⟨-, _, h, -⟩, -⟩) <;> rw [hmark] at h
    · exact Except.error.inj h
    · cases h
    · cases h
  have hseen : markAt plan.libraryDirectory w.tree around.directory ≠ .error fault := by
    rw [hmark]
    nofun
  rcases hjudged with ⟨cause, hbytes, hfresh⟩ | ⟨bytes, hbytes, hfresh⟩
  · have hends : EndsIn around w ((copyOf plan).freshen writeManifest) fault ↔ cause = fault := by
      rcases hfresh with hfresh | hfresh
      · exact EndsIn.bind_iff_of_error hfresh
      · rw [hrenew hfresh, endsIn_renew_iff, hbytes]
        simp
    rw [hends]
    constructor
    · rintro rfl
      exact .inr (.inl ⟨held, hmark, hbytes⟩)
    · rintro (h | ⟨_, -, h⟩ | ⟨_, _, _, ⟨h, -⟩, -⟩)
      · exact absurd h hseen
      · exact Except.error.inj (hbytes.symm.trans h)
      · cases hbytes.symm.trans h
  · rcases hfresh with ⟨rfl, hfresh⟩ | ⟨hne, hfresh⟩
    · refine (EndsIn.bind_iff_of_ok hfresh).trans ⟨nofun, ?_⟩
      rintro (h | ⟨_, -, h⟩ | ⟨other, _, _, ⟨h, held, hmark', hne⟩, -⟩)
      · exact absurd h hseen
      · cases hbytes.symm.trans h
      · obtain rfl := Except.ok.inj (hbytes.symm.trans h)
        exact absurd (Except.ok.inj (hmark'.symm.trans hmark)) hne
    · rw [hrenew hfresh, endsIn_renew_iff]
      constructor
      · rintro (h | ⟨other, h, phase, v, hcomes, hphase⟩)
        · cases hbytes.symm.trans h
        · obtain rfl := Except.ok.inj (hbytes.symm.trans h)
          exact .inr (.inr ⟨bytes, phase, v, ⟨hbytes, held, hmark, hne⟩, hcomes, hphase⟩)
      · rintro (h | ⟨_, -, h⟩ | ⟨other, phase, v, hold, hcomes, hphase⟩)
        · exact absurd h hseen
        · exact .inl h
        · exact .inr ⟨other, hold.archive, phase, v, hcomes, hphase⟩

/-- Where the archive is poured out it is still the one whose digest was taken. -/
theorem bytesAt_pouring (hold : IsOld around plan w bytes)
    (h : ComesTo around plan w bytes .pouring v) :
    bytesAt plan.archive v.tree around.directory = .ok bytes := by
  obtain ⟨_, u, hclear, h⟩ := perform_bind_eq_ok.1 h
  obtain ⟨_, x, hmaking, h⟩ := perform_bind_eq_ok.1 h
  cases h
  obtain ⟨there, y, hthere, hmake⟩ := perform_bind_eq_ok.1 hmaking
  rw [perform_isOccupied] at hthere
  obtain ⟨hanswer, rfl⟩ := Prod.mk.inj hthere
  cases there with
  | false => cases hmake
  | true =>
      have hmade : perform (makeDirectories plan.libraryDirectory) around u = (.ok (), v) := hmake
      have hkept : bytesAt plan.archive u.tree around.directory = .ok bytes := by
        obtain ⟨hask, -, f, hf, hbytes⟩ := bytesAt_eq_ok_iff.1 hold.archive
        have hgone := gone_of_clear plan.libraryDirectory around w
        have hcleared : (perform (Site.clear plan.libraryDirectory) around w).2 = u :=
          congrArg Prod.snd hclear
        rw [hcleared] at hgone
        rcases hthere : answerAt plan.archive u.tree around.directory with cause | _ | node
        · rw [hthere] at hanswer
          cases hanswer
        · rw [hthere] at hanswer
          cases hanswer
        · obtain ⟨-, hloc, hnode⟩ := answerAt_eq_some_iff.1 hthere
          refine bytesAt_eq_ok_iff.2 ⟨hask, hloc, f, ?_, hbytes⟩
          rcases hgone (FileTree.goalOf around.directory plan.archive) with heq | ⟨-, hnone⟩
          · rw [heq, hf]
          · rw [hnone] at hnode
            cases hnode
      exact bytesAt_of_added ((adds_makeDirectories around _).of_perform hmade) hkept

theorem endsIn_making_iff (print : List UInt8) :
    EndsIn around v (Phase.making.action plan print) fault ↔
      answerAt plan.archive v.tree around.directory = .error fault ∨
      (answerAt plan.archive v.tree around.directory = .ok none ∧
        fault = .extraction (.missing plan.archive)) ∨
      (∃ node, answerAt plan.archive v.tree around.directory = .ok (some node)) ∧
        EndsIn around v (makeDirectories plan.libraryDirectory) fault := by
  have hthere := perform_isOccupied plan.archive around v
  unfold Phase.action
  rcases hanswer : answerAt plan.archive v.tree around.directory with cause | _ | node
  · rw [hanswer] at hthere
    refine (EndsIn.bind_iff_of_error hthere).trans ⟨fun h => .inl (congrArg _ h), ?_⟩
    rintro (h | ⟨⟨⟩, -⟩ | ⟨⟨_, ⟨⟩⟩, -⟩)
    exact Except.error.inj h
  · rw [hanswer] at hthere
    refine (EndsIn.bind_iff_of_ok hthere).trans ?_
    refine (EndsIn.bind_iff_of_error (perform_throw _ _ _)).trans
      ⟨fun h => .inr (.inl ⟨rfl, h.symm⟩), ?_⟩
    rintro (⟨⟨⟩⟩ | ⟨-, h⟩ | ⟨⟨_, ⟨⟩⟩, -⟩)
    exact h.symm
  · rw [hanswer] at hthere
    refine (EndsIn.bind_iff_of_ok hthere).trans ⟨fun h => .inr (.inr ⟨⟨node, rfl⟩, h⟩), ?_⟩
    rintro (⟨⟨⟩⟩ | ⟨⟨⟩, -⟩ | ⟨-, h⟩)
    exact h

theorem endsIn_pouring_iff (hbytes : bytesAt plan.archive v.tree around.directory = .ok bytes)
    (print : List UInt8) :
    EndsIn around v (Phase.pouring.action plan print) fault ↔
      (plan.archive.suffix ∉ Archive.knownSuffixes ∧
        fault = .extraction (.unsupported plan.archive.suffix)) ∨
      plan.archive.suffix ∈ Archive.knownSuffixes ∧
        ∃ cause, EndsIn around v (pour plan.libraryDirectory bytes) cause ∧
          fault = Phase.refusalOf plan.archive cause := by
  have hread : perform (readBytes plan.archive) around v = (.ok bytes, v) := by
    rw [perform_readBytes, hbytes]
  unfold Phase.action
  by_cases hknown : plan.archive.suffix ∈ Archive.knownSuffixes
  · rw [if_neg (not_not.2 hknown)]
    have houtcome :=
      perform_outcome (readBytes plan.archive >>= pour plan.libraryDirectory) around v
    rw [perform_bind_ok hread] at houtcome
    rw [EndsIn.bind_iff_of_ok houtcome]
    simp only [hknown, not_true_eq_false, false_and, false_or, true_and]
    unfold EndsIn
    rcases perform (pour plan.libraryDirectory bytes) around v with ⟨cause | _, u⟩
    · refine EndsIn.throw_iff.trans ⟨fun h => ⟨cause, rfl, h.symm⟩, ?_⟩
      rintro ⟨_, ⟨⟩, h⟩
      exact h.symm
    · refine ⟨nofun, ?_⟩
      rintro ⟨_, ⟨⟩, -⟩
  · rw [if_pos hknown]
    refine (EndsIn.bind_iff_of_error (perform_throw _ _ _)).trans ?_
    simp [hknown, eq_comm]

end StagedBuild.NativeLibrary
