import StagedBuild.Proofs.Action.Renaming
import StagedBuild.Proofs.Archive.Keeps

/-!
When a copy is current: it is there, and its marker holds the digest of what is read of the archive.
-/

namespace StagedBuild.ArchiveCopy

open Action Disk

variable {c : ArchiveCopy} {around : Surroundings} {w : World} {t : FileTree} {cwd : Location}

/-- What the marker holds, if the copy and the marker are there. -/
def heldAt (c : ArchiveCopy) (t : FileTree) (cwd : Location) :
    Except Fault (Option (List UInt8)) := do
  if (← answerAt c.directory t cwd).isNone then return none
  if (← answerAt c.marker t cwd).isNone then return none
  return some (← bytesAt c.marker t cwd)

/-- A read accepts a size: there is room for a chunk of it. -/
def Accepts (spare : Nat) (size : Int) : Prop :=
  size ≤ chunkLimit ∧ size ≤ defaultChunkSize + spare

theorem accepts_defaultChunkSize (spare : Nat) : Accepts spare defaultChunkSize :=
  ⟨by decide, by omega⟩

theorem readInChunks_eq_ok_iff {spare : Nat} {size : Int} (hpos : 0 < size)
    {bytes chunks : List UInt8} :
    readInChunks spare size bytes = .ok chunks ↔ Accepts spare size ∧ chunks = bytes := by
  have hlimit : chunkLimit < Int.pow 2 63 := by decide
  have hlow : -Int.pow 2 63 < 0 := by decide
  unfold readInChunks
  by_cases hlarge : Int.pow 2 63 ≤ size
  · rw [if_pos (.inr hlarge)]
    exact ⟨nofun, fun ⟨h, _⟩ => absurd h.1 (by omega)⟩
  rw [if_neg (by omega), if_neg (by omega), if_neg (by omega)]
  by_cases hlong : chunkLimit < size
  · rw [if_pos hlong]
    exact ⟨nofun, fun ⟨h, _⟩ => absurd h.1 (by omega)⟩
  rw [if_neg hlong]
  by_cases hroom : defaultChunkSize + spare < size
  · rw [if_pos hroom]
    exact ⟨nofun, fun ⟨h, _⟩ => absurd h.2 (by omega)⟩
  rw [if_neg hroom]
  constructor
  · rintro ⟨⟩
    exact ⟨⟨by omega, by omega⟩, rfl⟩
  · rintro ⟨-, rfl⟩
    rfl

/-- The digest of the archive as a marker holds it. -/
def printAt (c : ArchiveCopy) (spare : Nat) (t : FileTree) (cwd : Location) :
    Except Fault (List UInt8) := do
  let bytes ← bytesAt c.archive t cwd
  let chunks ← readInChunks spare c.chunkSize bytes
  return Text.encode (Digest.hexText (Digest.sha256 chunks))

theorem perform_marking (c : ArchiveCopy) (around : Surroundings) (w : World) :
    perform c.marking around w =
      (c.printAt around.spareMemory w.tree around.directory, w) := by
  unfold marking digestFile printAt
  rw [bind_assoc, perform_bind, perform_readBytes]
  rcases bytesAt c.archive w.tree around.directory with fault | bytes
  · rfl
  · dsimp only
    rw [bind_assoc, perform_bind_ok (perform_read around w), bind_assoc, perform_bind,
      perform_ofExcept_id]
    change _ = (readInChunks around.spareMemory c.chunkSize bytes >>= _, w)
    rcases readInChunks around.spareMemory c.chunkSize bytes with fault | chunks <;> rfl

theorem perform_isFresh (c : ArchiveCopy) (around : Surroundings) (w : World) :
    perform c.isFresh around w =
      (do
        match ← c.heldAt w.tree around.directory with
        | none => return false
        | some held =>
          return held == (← c.printAt around.spareMemory w.tree around.directory), w) := by
  unfold isFresh heldAt
  rw [perform_bind, perform_isOccupied]
  rcases answerAt c.directory w.tree around.directory with fault | _ | there
  · rfl
  · rfl
  change perform (isOccupied c.marker >>= _) around w = _
  rw [perform_bind, perform_isOccupied]
  rcases answerAt c.marker w.tree around.directory with fault | _ | marked
  · rfl
  · rfl
  change perform (readBytes c.marker >>= _) around w = _
  rw [perform_bind, perform_readBytes]
  rcases bytesAt c.marker w.tree around.directory with fault | held
  · rfl
  dsimp only
  rw [perform_bind, perform_marking]
  change _ = (c.printAt around.spareMemory w.tree around.directory >>= _, w)
  rcases c.printAt around.spareMemory w.tree around.directory with fault | print <;> rfl

theorem heldAt_eq_some_iff {print : List UInt8} :
    c.heldAt t cwd = .ok (some print) ↔
      (∃ node, answerAt c.directory t cwd = .ok (some node)) ∧
        bytesAt c.marker t cwd = .ok print := by
  unfold heldAt
  rcases answerAt c.directory t cwd with fault | _ | there
  · exact ⟨nofun, fun ⟨⟨_, h⟩, _⟩ => nomatch h⟩
  · exact ⟨nofun, fun ⟨⟨_, h⟩, _⟩ => nomatch h⟩
  rcases hmarked : answerAt c.marker t cwd with fault | _ | marked
  · exact ⟨nofun, fun ⟨_, h⟩ => nomatch hmarked.symm.trans (Readable.answerAt ⟨_, h⟩).choose_spec⟩
  · exact ⟨nofun, fun ⟨_, h⟩ => nomatch hmarked.symm.trans (Readable.answerAt ⟨_, h⟩).choose_spec⟩
  rcases bytesAt c.marker t cwd with fault | held
  · exact ⟨nofun, fun ⟨_, h⟩ => nomatch h⟩
  · constructor
    · rintro ⟨⟩
      exact ⟨⟨there, rfl⟩, rfl⟩
    · rintro ⟨-, ⟨⟩⟩
      rfl

theorem perform_isFresh_eq_true_iff :
    perform c.isFresh around w = (.ok true, w) ↔
      ∃ print, c.heldAt w.tree around.directory = .ok (some print) ∧
        c.printAt around.spareMemory w.tree around.directory = .ok print := by
  rw [perform_isFresh]
  rcases c.heldAt w.tree around.directory with fault | _ | held
  · exact ⟨nofun, fun ⟨_, h, _⟩ => nomatch h⟩
  · exact ⟨nofun, fun ⟨_, h, _⟩ => nomatch h⟩
  rcases c.printAt around.spareMemory w.tree around.directory with fault | print
  · exact ⟨nofun, fun ⟨_, _, h⟩ => nomatch h⟩
  constructor
  · intro h
    have hequal : (held == print) = true := Except.ok.inj (Prod.mk.inj h).1
    exact ⟨held, rfl, congrArg Except.ok (beq_iff_eq.1 hequal).symm⟩
  · rintro ⟨_, ⟨⟩, ⟨⟩⟩
    exact congrArg (fun b => (Except.ok b, w)) (beq_self_eq_true held)

end StagedBuild.ArchiveCopy
