import Mathlib.Algebra.GroupWithZero.Nat
import StagedBuild.Proofs.Action.Renaming
import StagedBuild.Transfer.Download

/-!
Bodies in pieces. What is written of the pieces in which a body is read is all of them, and the bar
moves by as much.
-/

namespace StagedBuild

namespace Response

/-- An accepted answer to a request for a file. Its body comes in one piece, and may break off. -/
def ofBytes (length : Option String) (bytes : List UInt8) (cut : Option (Nat × Fault)) :
    Response where
  status := 200
  refusal := none
  header? name := if name = "content-length" then length else none
  text := match cut with
    | none => .ok (Text.decodeLenient bytes)
    | some (_, fault) => .error fault
  body _ := match cut with
    | none => ⟨[bytes], none⟩
    | some (n, fault) => ⟨[bytes.take n], some fault⟩
  content := bytes

/-- The answer that a file is not there. -/
def notFound (url : String) : Response where
  status := 404
  refusal := some ("404 Client Error: Not Found for url: " ++ url)
  header? _ := none
  text := .ok ""
  body _ := ⟨[], none⟩
  content := []

theorem flatten_ofBytes {length : Option String} {bytes : List UInt8}
    {cut : Option (Nat × Fault)} {size : Int}
    (h : ((ofBytes length bytes cut).body size).fault = none) :
    ((ofBytes length bytes cut).body size).pieces.flatten = bytes := by
  cases cut with
  | none => exact List.flatten_singleton
  | some cut => cases h

end Response

namespace World

theorem progressBars_note (w : World) (event : Event) :
    progressBars { w with history := event :: w.history } =
      (barsAfter w.progressBars.reverse event).reverse := by
  simp [progressBars, events]

theorem progressBars_opened (w : World) (total : Int) (label : String) :
    progressBars { w with history := .barOpened total label :: w.history } =
      w.progressBars ++ [⟨total, label, [], false⟩] := by
  simp [progressBars_note, barsAfter]

theorem progressBars_moved {w : World} {bars : List ProgressBar} {bar : ProgressBar}
    (h : w.progressBars = bars ++ [bar]) (n : Nat) :
    progressBars { w with history := .barMoved n :: w.history } =
      bars ++ [{ bar with moves := bar.moves ++ [n] }] := by
  simp [progressBars_note, barsAfter, h]

theorem progressBars_closed {w : World} {bars : List ProgressBar} {bar : ProgressBar}
    (h : w.progressBars = bars ++ [bar]) :
    progressBars { w with history := .barClosed :: w.history } =
      bars ++ [{ bar with closed := true }] := by
  simp [progressBars_note, barsAfter, h]

/-- From one world to another the bars stay as they are. -/
def SameBars (w w' : World) : Prop :=
  w'.progressBars = w.progressBars

namespace SameBars

instance : Action.Passage SameBars where
  refl _ := rfl
  trans h h' := h'.trans h

theorem changed (w : World) (t : FileTree) : SameBars w ⟨t, .changed t :: w.history⟩ := by
  have hnote := progressBars_note ⟨t, w.history⟩ (.changed t)
  rw [SameBars, hnote]
  exact List.reverse_reverse _

instance : Disk.AnyChange SameBars where
  changed := changed

end SameBars

end World

namespace Transfer

open Action Disk FileTree

variable {around : Surroundings} {w w' : World} {file : Path} {withBar : Bool}

section Moves

/-- On the way from one world to another a bar that is shown has moved by a number of bytes. -/
def Moves (withBar : Bool) (size : Nat) (w w' : World) : Prop :=
  (withBar = false → w'.progressBars = w.progressBars) ∧
    (withBar = true → ∀ bars bar, w.progressBars = bars ++ [bar] → ∃ moves, moves.sum = size ∧
      w'.progressBars = bars ++ [{ bar with moves := bar.moves ++ moves }])

namespace Moves

variable {size size' : Nat} {v : World}

theorem of_sameBars (h : World.SameBars w w') : Moves withBar 0 w w' :=
  ⟨fun _ => h, fun _ bars bar hbars => ⟨[], rfl, by rw [h, hbars, List.append_nil]⟩⟩

theorem trans (h : Moves withBar size v w) (h' : Moves withBar size' w w') :
    Moves withBar (size + size') v w' := by
  refine ⟨fun hbar => (h'.1 hbar).trans (h.1 hbar), fun hbar bars bar hbars => ?_⟩
  obtain ⟨first, hfirst, hw⟩ := h.2 hbar bars bar hbars
  obtain ⟨second, hsecond, hw'⟩ := h'.2 hbar bars _ hw
  exact ⟨first ++ second, by rw [List.sum_append, hfirst, hsecond], by simp [hw']⟩

end Moves

end Moves

section WritePieces

theorem bytesAt_of_perform_append {old piece : List UInt8}
    (hold : bytesAt file w.tree around.directory = .ok old)
    (h : perform (appendBytes file piece) around w = (.ok (), w')) :
    bytesAt file w'.tree around.directory = .ok (old ++ piece) := by
  obtain ⟨read, v, hread, hwrite⟩ := perform_bind_eq_ok.1 h
  rw [perform_readBytes, hold] at hread
  cases hread
  exact bytesAt_of_perform_write hwrite

theorem writePiece_nil : writePiece file withBar [] = pure () := rfl

theorem writePiece_of_ne_nil {piece : List UInt8} (h : piece ≠ []) :
    writePiece file withBar piece = (do
      appendBytes file piece
      if withBar then note (.barMoved piece.length)) :=
  if_pos h

theorem of_perform_writePiece {piece old : List UInt8}
    (hold : bytesAt file w.tree around.directory = .ok old)
    (h : perform (writePiece file withBar piece) around w = (.ok (), w')) :
    bytesAt file w'.tree around.directory = .ok (old ++ piece) ∧
      Moves withBar piece.length w w' := by
  by_cases hnil : piece = []
  · subst hnil
    cases h
    exact ⟨by rw [hold, List.append_nil], .of_sameBars rfl⟩
  · rw [writePiece_of_ne_nil hnil] at h
    obtain ⟨_, v, happend, h⟩ := perform_bind_eq_ok.1 h
    have hv := bytesAt_of_perform_append hold happend
    have hkeeps : Keeps around World.SameBars (appendBytes file piece) :=
      keeps_appendBytes file piece
    have hbars := hkeeps.of_perform happend
    cases withBar with
    | false =>
        cases h
        exact ⟨hv, fun _ => hbars, by simp⟩
    | true =>
        cases h
        refine ⟨hv, by simp, fun _ bars bar hopen => ⟨[piece.length], by simp, ?_⟩⟩
        exact World.progressBars_moved (hbars.trans hopen) _

/-- Pieces that were written stand behind what was there, and the bar has moved by their lengths. -/
theorem of_perform_writePieces {pieces : List (List UInt8)} {old : List UInt8}
    (hold : bytesAt file w.tree around.directory = .ok old)
    (h : perform (writePieces file withBar pieces) around w = (.ok (), w')) :
    bytesAt file w'.tree around.directory = .ok (old ++ pieces.flatten) ∧
      Moves withBar pieces.flatten.length w w' := by
  induction pieces generalizing w old with
  | nil =>
      cases h
      exact ⟨by simpa using hold, .of_sameBars rfl⟩
  | cons piece rest ih =>
      obtain ⟨_, v, hpiece, h⟩ := perform_bind_eq_ok.1 h
      obtain ⟨hv, hmoves⟩ := of_perform_writePiece hold hpiece
      obtain ⟨hbytes, hrest⟩ := ih hv h
      rw [List.flatten_cons, List.length_append, ← List.append_assoc]
      exact ⟨hbytes, hmoves.trans hrest⟩

theorem keeps_writePieces_of_piece {R : World → World → Prop} [Passage R]
    (h : ∀ piece, Keeps around R (writePiece file withBar piece)) (pieces : List (List UInt8)) :
    Keeps around R (writePieces file withBar pieces) := by
  induction pieces with
  | nil => exact Keeps.pure ()
  | cons piece rest ih => exact (h piece).bind fun _ => ih

theorem keeps_writePieces_of_write {R : World → World → Prop} [OfTree R]
    (hwrite : ∀ bytes, Keeps around R (change file fun t cwd => t.write cwd file bytes))
    (withBar : Bool) (pieces : List (List UInt8)) :
    Keeps around R (writePieces file withBar pieces) := by
  refine keeps_writePieces_of_piece (fun piece => Keeps.ite (fun _ => ?_) fun _ => Keeps.pure ()) _
  refine ((Keeps.of_readOnly (readOnly_readBytes file)).bind fun _ => hwrite _).bind fun _ => ?_
  exact Keeps.ite (fun _ => Keeps.note fun w => OfTree.same w _ rfl) fun _ => Keeps.pure ()

end WritePieces

end Transfer

end StagedBuild
