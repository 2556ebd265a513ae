import StagedBuild.NativeLibrary.Assembly
import StagedBuild.Proofs.Archive.Keeps
import StagedBuild.Proofs.Json.Documents

/-!
Assembling the native library in two parts: everything before the first source is compiled, which is
seeing to the copy of the archive, reading its manifest, and sorting out objects; and the compiling
of the sources that have no object. And what the first part keeps.
-/

namespace StagedBuild.NativeLibrary

open Action

variable {around : Surroundings} {R : World → World → Prop}

namespace Manifest

theorem readOnly_scan (root : Path) : ReadOnly (scan root) :=
  (Disk.readOnly_entriesBelow root).bind fun _ _ _ => rfl

theorem readOnly_readSources (root : Path) : ReadOnly (readSources root) :=
  (Disk.readOnly_readText _).bind fun _ => (Json.readOnly_ofText _).bind fun _ =>
    ReadOnly.ofExcept _ _

end Manifest

section Within

variable [Passage R]

theorem keeps_writeManifest_within {root : Path}
    (hwrite : ∀ bytes, Keeps around R (Disk.writeBytes (root / Manifest.fileName) bytes)) :
    Keeps around R (writeManifest root) := by
  unfold writeManifest Manifest.scan Manifest.write
  simp only [bind_assoc, pure_bind]
  exact (Keeps.of_readOnly (Disk.readOnly_entriesBelow root)).bind fun _ =>
    (hwrite _).bind fun _ => Keeps.pure ()

theorem Manifest.keeps_load_within {root : Path}
    (hwrite : ∀ bytes, Keeps around R (Disk.writeBytes (root / Manifest.fileName) bytes)) :
    Keeps around R (load root) := by
  unfold load
  refine (Keeps.of_readOnly (readOnly_readSources root)).outcome.bind fun ended => ?_
  split
  · exact Keeps.pure _
  · refine Keeps.ite (fun _ => ?_) fun _ => Keeps.throw _
    unfold scan write
    simp only [bind_assoc, pure_bind]
    exact (Keeps.of_readOnly (Disk.readOnly_entriesBelow root)).bind fun _ =>
      (hwrite _).bind fun _ => Keeps.pure _

theorem keeps_removeObjects_within {sources : List Source}
    (hunlink : ∀ s ∈ sources, Keeps around R (Disk.unlink s.objectPath)) :
    Keeps around R (removeObjects sources) := by
  unfold removeObjects
  refine Keeps.filterMapM fun s hs => ?_
  refine (Keeps.of_readOnly (Disk.readOnly_isOccupied _)).bind fun there => ?_
  exact Keeps.ite (fun _ => (hunlink s hs).bind fun _ => Keeps.pure _) fun _ => Keeps.pure _

theorem of_perform_unpack {plan : Plan} {w : World}
    (hrenew : R w (perform ((copyOf plan).renew writeManifest) around w).2)
    (hload : Keeps around R (Manifest.load plan.libraryDirectory))
    (hsay : ∀ line, Keeps around R (Action.say line)) : R w (perform (unpack plan) around w).2 := by
  unfold unpack
  have hfreshen := ArchiveCopy.of_perform_freshen hrenew
  refine Keeps.bind_at (by rw [perform_outcome]; exact hfreshen) fun ended v _ => ?_
  refine (show Keeps around R _ from ?_) v
  split
  · exact Keeps.ite (fun _ => (hsay _).bind fun _ => hload) fun _ => hload
  · exact Keeps.throw _
  · exact Keeps.throw _

end Within

section AnyChange

variable [Disk.AnyChange R]

theorem keeps_writeManifest (root : Path) : Keeps around R (writeManifest root) :=
  keeps_writeManifest_within fun _ => Disk.keeps_writeBytes _ _

theorem Manifest.keeps_load (root : Path) : Keeps around R (load root) :=
  keeps_load_within fun _ => Disk.keeps_writeBytes _ _

theorem keeps_removeObjects (sources : List Source) : Keeps around R (removeObjects sources) :=
  keeps_removeObjects_within fun _ _ => Disk.keeps_unlink _

end AnyChange

theorem readOnly_withoutObject (sources : List Source) : ReadOnly (withoutObject sources) :=
  ReadOnly.filterM fun _ _ => (Disk.readOnly_isOccupied _).bind fun _ _ _ => rfl

theorem keeps_unpack [AnyTalk R] (plan : Plan) : Keeps around R (unpack plan) := fun w =>
  of_perform_unpack
    (ArchiveCopy.keeps_renew_within _ (Disk.keeps_removeTree _) (Archive.keeps_extract _ _)
      (keeps_writeManifest _) (Disk.keeps_makeDirectories _)
      (fun _ => Disk.keeps_writeBytes _ _) w)
    (Manifest.keeps_load _) keeps_say

open Action

/-- What is settled before a source is compiled: the sources that a build needs, those of them that
have no object, and the objects that were taken away. -/
structure Preparation where
  included : List Source
  pending : List Source
  removed : List Path

/-- Everything before the first source is compiled. -/
def prepare (plan : Plan) (links : List String) : Action Preparation := do
  let manifest ← unpack plan
  let (included, excluded) ← Action.ofExcept id (manifest.select plan.gc links)
  let removed ← removeObjects excluded
  let pending ← withoutObject included
  return ⟨included, pending, removed⟩

/-- Compiles the sources that have no object. -/
def compilePending (plan : Plan) (p : Preparation) : Action Assembled := do
  let run ← Pool.run (fun s => some <$> compile plan s) p.pending plan.jobs
  match run.earliestFailure? with
  | some (s, r) => throw (.build (compileFault s r))
  | none =>
    return ⟨plan.libraryDirectory, p.included.map Source.objectPath,
      p.pending.map Source.objectPath, p.removed⟩

theorem assemble_eq (plan : Plan) (links : List String) :
    assemble plan links = prepare plan links >>= compilePending plan := by
  unfold assemble prepare
  simp only [bind_assoc, pure_bind] <;> rfl

/-- The library has no object of a source. -/
def lacksObject (cwd : Location) (t : FileTree) (s : Source) : Bool :=
  (Disk.answerAt s.objectPath t cwd).toOption.any Option.isNone

variable {around : Surroundings} {w w' : World}

theorem withoutObject_nil : withoutObject [] = pure [] :=
  filterM_nil _

theorem withoutObject_cons (s : Source) (sources : List Source) :
    withoutObject (s :: sources) = do
      let there ← Disk.isOccupied s.objectPath
      let rest ← withoutObject sources
      return if there then rest else s :: rest := by
  rw [withoutObject, filterM_cons, bind_assoc]
  simp only [pure_bind]
  refine bind_congr fun there => ?_
  cases there <;> rfl

theorem perform_withoutObject_ok {sources pending : List Source}
    (h : perform (withoutObject sources) around w = (.ok pending, w')) :
    w' = w ∧ pending = sources.filter (lacksObject around.directory w.tree) := by
  induction sources generalizing pending w' with
  | nil =>
      rw [withoutObject_nil] at h
      cases h
      exact ⟨rfl, rfl⟩
  | cons s sources ih =>
      rw [withoutObject_cons] at h
      obtain ⟨there, w₁, hthere, h₁⟩ := perform_bind_eq_ok.1 h
      obtain ⟨rest, w₂, hrest, h₂⟩ := perform_bind_eq_ok.1 h₁
      rw [Disk.perform_isOccupied] at hthere
      rcases hs : Disk.answerAt s.objectPath w.tree around.directory with fault | node
      · rw [hs] at hthere
        cases hthere
      · simp only [hs, Except.map, Prod.mk.injEq, Except.ok.injEq] at hthere
        obtain ⟨rfl, rfl⟩ := hthere
        obtain ⟨rfl, rfl⟩ := ih hrest
        cases h₂
        refine ⟨rfl, ?_⟩
        rw [List.filter_cons, lacksObject, hs]
        cases node <;> rfl

theorem exists_answer_of_withoutObject {sources pending : List Source}
    (h : perform (withoutObject sources) around w = (.ok pending, w')) :
    ∀ s ∈ sources, ∃ node, Disk.answerAt s.objectPath w.tree around.directory = .ok node := by
  induction sources generalizing pending w' with
  | nil => simp
  | cons s sources ih =>
      rw [withoutObject_cons] at h
      obtain ⟨there, w₁, hthere, h₁⟩ := perform_bind_eq_ok.1 h
      obtain ⟨rest, w₂, hrest, h₂⟩ := perform_bind_eq_ok.1 h₁
      rw [Disk.perform_isOccupied] at hthere
      obtain ⟨hanswer, rfl⟩ := Prod.mk.inj hthere
      rcases hs : Disk.answerAt s.objectPath w.tree around.directory with fault | node
      · rw [hs] at hanswer
        cases hanswer
      · intro s' hs'
        rcases List.mem_cons.1 hs' with rfl | hs'
        · exact ⟨node, hs⟩
        · exact ih hrest s' hs'

theorem pending_of_prepare {plan : Plan} {links : List String} {p : Preparation}
    (h : perform (prepare plan links) around w = (.ok p, w')) :
    p.pending = p.included.filter (lacksObject around.directory w'.tree) := by
  obtain ⟨manifest, w₁, hunpack, h₁⟩ := perform_bind_eq_ok.1 h
  obtain ⟨⟨included, excluded⟩, w₂, hselect, h₂⟩ := perform_bind_eq_ok.1 h₁
  obtain ⟨removed, w₃, hremove, h₃⟩ := perform_bind_eq_ok.1 h₂
  obtain ⟨pending, w₄, hpending, h₄⟩ := perform_bind_eq_ok.1 h₃
  obtain ⟨rfl, hfilter⟩ := perform_withoutObject_ok hpending
  cases h₄
  exact hfilter

theorem keeps_prepare {R : World → World → Prop} [AnyTalk R] (plan : Plan) (links : List String) :
    Keeps around R (prepare plan links) := by
  refine (keeps_unpack plan).bind fun manifest => ?_
  refine (Keeps.of_readOnly (ReadOnly.ofExcept _ _)).bind fun (included, excluded) => ?_
  refine (keeps_removeObjects excluded).bind fun removed => ?_
  exact (Keeps.of_readOnly (readOnly_withoutObject included)).bind fun _ => Keeps.pure _

theorem silent_prepare (around : Surroundings) (plan : Plan) (links : List String) :
    Keeps around Silent (prepare plan links) :=
  keeps_prepare plan links

end StagedBuild.NativeLibrary
