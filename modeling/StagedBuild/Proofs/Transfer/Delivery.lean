import StagedBuild.Proofs.Action.Faults
import StagedBuild.Proofs.Transfer.Body

/-!
What becomes of a body that is asked for. Before anything is written the reply is made a body, or a
fault; a body is written as far as it goes if the temporary file can be written at all. The bar that
is shown for it stays open.
-/

namespace StagedBuild

/-- The world after a request is noted. -/
def World.requesting (w : World) (asked : Request) : World :=
  { w with history := .requested asked :: w.history }

namespace Disk

open Action FileTree

variable {around : Surroundings} {w w' : World} {p : Path} {t : FileTree} {cwd : Location}

/-- A file can be written where a path leads: it leads somewhere, and not to a directory. -/
structure CanWrite (p : Path) (t : FileTree) (cwd : Location) : Prop where
  askable : isAskable p = true
  locate : t.locate cwd p = .ok (goalOf cwd p)
  free : ¬ t.isDirectory (goalOf cwd p) = true

theorem Readable.canWrite (h : Readable p t cwd) : CanWrite p t cwd := by
  obtain ⟨hask, hloc, hfile⟩ := readable_iff.1 h
  exact ⟨hask, hloc, fun hdir => not_isFile_of_isDirectory hdir hfile⟩

theorem exists_perform_write (h : CanWrite p w.tree around.directory) (bytes : List UInt8) :
    ∃ w', perform (change p fun t cwd => t.write cwd p bytes) around w = (.ok (), w') ∧
      Readable p w'.tree around.directory := by
  have hwrite : perform (change p fun t cwd => t.write cwd p bytes) around w =
      (.ok (), ⟨w.tree.writeFile (goalOf around.directory p) bytes,
        .changed (w.tree.writeFile (goalOf around.directory p) bytes) :: w.history⟩) := by
    rw [perform_change, if_pos h.askable, write_eq h.locate, if_neg h.free]
  exact ⟨_, hwrite, bytes, bytesAt_of_perform_write hwrite⟩

theorem perform_truncate_refused (h : ¬ CanWrite p w.tree around.directory) :
    ∃ fault, perform (truncate p) around w = (.error fault, w) ∧ fault.IsRefusal := by
  have hrefused : FailsOnly Fault.IsRefusal (truncate p) := refused_truncate p
  rcases hperform : perform (truncate p) around w with ⟨fault | _, v⟩
  · have hv : v = w := by
      rw [truncate, perform_change] at hperform
      split at hperform
      · split at hperform <;> cases hperform
        rfl
      · cases hperform
        rfl
    exact ⟨fault, by rw [hv], hrefused.of_perform hperform⟩
  · rw [truncate, perform_change] at hperform
    split at hperform
    · rename_i hask
      split at hperform
      · rename_i t ht
        obtain ⟨loc, hloc, hfree, -⟩ := exists_of_write ht
        obtain rfl := (locate_eq_ok_iff.1 hloc).1
        exact absurd ⟨hask, hloc, hfree⟩ h
      · cases hperform
    · cases hperform

theorem exists_perform_unlinkIfPresent (h : CanWrite p w.tree around.directory) :
    ∃ w', perform (unlinkIfPresent p) around w = (.ok (), w') := by
  have hanswer := answerAt_of_locate h.askable h.locate
  rw [perform_unlinkIfPresent]
  rcases hnode : w.tree.node? (goalOf around.directory p) with _ | _ | f
  · rw [hnode] at hanswer
    exact ⟨w, by rw [hanswer]⟩
  · exact absurd (isDirectory_iff.2 hnode) h.free
  · rw [hnode] at hanswer
    rw [hanswer]
    exact ⟨_, perform_unlink_file (readable_of_answerAt hanswer)⟩

end Disk

namespace Transfer

open Action Disk FileTree

variable {around : Surroundings} {u v w w' : World} {settings : Settings} {url : String}
  {temporary : Path} {showProgress withBar : Bool} {r : Response} {fault : Fault}
  {shown : Option ProgressBar}

section Shows

/-- Beyond the bars from before there is this one, or none. -/
def Shows (shown : Option ProgressBar) (w w' : World) : Prop :=
  w'.progressBars = w.progressBars ++ shown.toList

namespace Shows

theorem none_of_sameBars (h : World.SameBars w w') : Shows none w w' :=
  h.trans (List.append_nil _).symm

theorem trans_sameBars (h : Shows shown v w) (hsame : World.SameBars w w') : Shows shown v w' :=
  hsame.trans h

theorem sameBars_trans (hsame : World.SameBars u v) (h : Shows shown v w) : Shows shown u w := by
  rw [Shows, h, hsame]

theorem exists_of_moves {size : Nat} (h : Shows shown v w) (hmoves : Moves shown.isSome size w w') :
    ∃ moves : List Nat, moves.sum = size ∧
      Shows (shown.map fun bar => { bar with moves := bar.moves ++ moves }) v w' := by
  cases shown with
  | none => exact ⟨[size], by simp, (hmoves.1 rfl).trans h⟩
  | some bar => exact hmoves.2 rfl _ bar h

end Shows

theorem perform_closeBar (around : Surroundings) (h : Shows shown v w) :
    ∃ w', perform (closeBar shown.isSome) around w = (.ok (), w') ∧ w'.tree = w.tree ∧
      Shows (shown.map fun bar => { bar with closed := true }) v w' := by
  cases shown with
  | none => exact ⟨w, rfl, rfl, h⟩
  | some bar => exact ⟨_, rfl, rfl, World.progressBars_closed h⟩

end Shows

section Asking

/-- The length that a server announces, if it is a number. -/
def announced (r : Response) : Except Text.NumeralFault Int :=
  match r.header? "content-length" with
  | some value => Text.readInt value
  | none => .ok 0

theorem announcedLength_eq (r : Response) :
    announcedLength r = Action.ofExcept (fun fault => .value (.numeral fault)) (announced r) := by
  unfold announcedLength announced
  cases r.header? "content-length" <;> rfl

/-- Whether a bar is shown. It needs a label. -/
def labelled (url : String) (showProgress : Bool) (total : Int) : Except ValueFault Bool :=
  if showProgress && decide (0 < total) then (fileName url).map fun _ => true else .ok false

/-- What a download makes of a reply before it writes anything. -/
def takeIn (url : String) (showProgress : Bool) : Reply → Except Fault Intake
  | .failed fault => .error fault
  | .answered r =>
    match r.refusal with
    | some text => .error (.transfer (.refused r.status text))
    | none =>
      match announced r with
      | .error fault => .error (.value (.numeral fault))
      | .ok total => ((labelled url showProgress total).mapError .value).map (Intake.mk r)

theorem perform_request (settings : Settings) (url : String) (streamed : Bool)
    (around : Surroundings) (w : World) :
    perform (request settings url streamed) around w =
      (match around.server ⟨url, streamed, settings.timeout⟩ w with
        | .failed fault => .error fault
        | .answered r => .ok r,
        w.requesting ⟨url, streamed, settings.timeout⟩) := by
  unfold request
  simp only [perform_bind, perform_read, perform_get, perform_note]
  cases around.server ⟨url, streamed, settings.timeout⟩ w <;> rfl

theorem perform_receive (settings : Settings) (url : String) (around : Surroundings) (w : World) :
    perform (receive settings url) around w =
      (match around.server ⟨url, true, settings.timeout⟩ w with
        | .failed fault => .error fault
        | .answered r =>
          match r.refusal with
          | some text => .error (.transfer (.refused r.status text))
          | none => ((announced r).mapError fun fault => .value (.numeral fault)).map (r, ·),
        w.requesting ⟨url, true, settings.timeout⟩) := by
  unfold receive
  rw [perform_bind, perform_request]
  cases around.server ⟨url, true, settings.timeout⟩ w with
  | failed fault => rfl
  | answered r =>
      dsimp only
      rw [perform_bind, checkStatus, announcedLength_eq]
      cases r.refusal with
      | some text => rfl
      | none =>
          simp only [perform_pure]
          rw [perform_bind, perform_ofExcept]
          cases announced r <;> rfl

theorem sameBars_requesting (w : World) (asked : Request) :
    World.SameBars w (w.requesting asked) := by
  rw [World.SameBars, World.requesting, World.progressBars_note]
  exact List.reverse_reverse _

/-- A bar that has not moved and is open. -/
def IsNew (bar : ProgressBar) : Prop :=
  bar.moves = [] ∧ bar.closed = false

theorem IsNew.moved (h : ∀ bar ∈ shown, IsNew bar) (moves : List Nat) :
    ∀ bar ∈ shown.map fun bar => { bar with moves := bar.moves ++ moves },
      bar.closed = false ∧ bar.moves.sum = moves.sum := by
  intro bar hbar
  obtain ⟨fresh, hfresh, rfl⟩ := Option.map_eq_some_iff.1 (Option.mem_def.1 hbar)
  obtain ⟨hnone, hopen⟩ := h fresh hfresh
  exact ⟨hopen, by simp [hnone]⟩

theorem perform_openBar (url : String) (total : Int) (showProgress : Bool)
    (around : Surroundings) (w : World) :
    ∃ shown w', perform (openBar url total (showProgress && decide (0 < total))) around w =
        (((labelled url showProgress total).mapError Fault.value).map fun _ => (), w') ∧
      w'.tree = w.tree ∧ Shows shown w w' ∧ (∀ bar ∈ shown, IsNew bar) ∧
      match labelled url showProgress total with
        | .ok withBar =>
            (showProgress && decide (0 < total)) = withBar ∧ shown.isSome = withBar
        | .error _ => shown = none := by
  unfold openBar labelled
  cases showProgress && decide (0 < total) with
  | false => exact ⟨none, w, rfl, rfl, .none_of_sameBars rfl, by simp, rfl, rfl⟩
  | true =>
      rw [if_pos rfl, if_pos rfl, perform_bind, perform_ofExcept]
      cases fileName url with
      | error fault => exact ⟨none, w, rfl, rfl, .none_of_sameBars rfl, by simp, rfl⟩
      | ok name =>
          refine ⟨some _, _, rfl, rfl, World.progressBars_opened w total _, ?_, rfl, rfl⟩
          rintro bar ⟨⟩
          exact ⟨rfl, rfl⟩

/-- What is taken in of the reply to the request for a body. -/
def takenIn (settings : Settings) (url : String) (showProgress : Bool) (around : Surroundings)
    (w : World) : Except Fault Intake :=
  takeIn url showProgress (around.server ⟨url, true, settings.timeout⟩ w)

theorem perform_requestBody (settings : Settings) (url : String) (showProgress : Bool)
    (around : Surroundings) (w : World) :
    ∃ shown w', perform (requestBody settings url showProgress) around w =
        (takenIn settings url showProgress around w, w') ∧
      w'.tree = w.tree ∧ Shows shown w w' ∧ (∀ bar ∈ shown, IsNew bar) ∧
      match takenIn settings url showProgress around w with
        | .ok intake => shown.isSome = intake.withBar
        | .error _ => shown = none := by
  have hasked := Shows.none_of_sameBars (sameBars_requesting w ⟨url, true, settings.timeout⟩)
  unfold requestBody takenIn
  rw [perform_bind, perform_receive]
  cases around.server ⟨url, true, settings.timeout⟩ w with
  | failed fault => exact ⟨none, _, rfl, rfl, hasked, by simp, rfl⟩
  | answered r =>
      dsimp only
      rw [takeIn]
      cases r.refusal with
      | some text => exact ⟨none, _, rfl, rfl, hasked, by simp, rfl⟩
      | none =>
          dsimp only
          cases announced r with
          | error fault => exact ⟨none, _, rfl, rfl, hasked, by simp, rfl⟩
          | ok total =>
              obtain ⟨shown, v, hopen, htree, hshown, hnew, hbar⟩ := perform_openBar url total
                showProgress around (w.requesting ⟨url, true, settings.timeout⟩)
              replace hshown := hshown.sameBars_trans (sameBars_requesting w _)
              simp only [mapError_ok, Except.map]
              rw [perform_bind, hopen]
              cases hlabel : labelled url showProgress total with
              | error fault =>
                  rw [hlabel] at hbar
                  exact ⟨shown, v, rfl, htree, hshown, hnew, hbar⟩
              | ok withBar =>
                  rw [hlabel] at hbar
                  obtain ⟨rfl, hsome⟩ := hbar
                  exact ⟨shown, v, rfl, htree, hshown, hnew, hsome⟩

end Asking

section WriteBody

variable {file : Path} {body : Body}

theorem exists_perform_writePiece (hread : Readable file w.tree around.directory)
    (withBar : Bool) (piece : List UInt8) :
    ∃ w', perform (writePiece file withBar piece) around w = (.ok (), w') ∧
      Readable file w'.tree around.directory := by
  by_cases hnil : piece = []
  · exact ⟨w, by rw [hnil, writePiece_nil]; rfl, hread⟩
  · obtain ⟨old, hold⟩ := hread
    obtain ⟨v, hwrite, hv⟩ := exists_perform_write (Readable.canWrite ⟨old, hold⟩) (old ++ piece)
    have happend : perform (appendBytes file piece) around w = (.ok (), v) := by
      have hbytes : perform (readBytes file) around w = (.ok old, w) := by
        rw [perform_readBytes, hold]
      rw [appendBytes, perform_bind_ok hbytes, hwrite]
    rw [writePiece_of_ne_nil hnil, perform_bind_ok happend]
    cases withBar <;> exact ⟨_, rfl, hv⟩

theorem exists_perform_writePieces (hread : Readable file w.tree around.directory)
    (withBar : Bool) (pieces : List (List UInt8)) :
    ∃ w', perform (writePieces file withBar pieces) around w = (.ok (), w') := by
  induction pieces generalizing w with
  | nil => exact ⟨w, rfl⟩
  | cons piece rest ih =>
      obtain ⟨v, hpiece, hv⟩ := exists_perform_writePiece hread withBar piece
      obtain ⟨w', hrest⟩ := ih hv
      exact ⟨w', by rw [writePieces, perform_bind_ok hpiece, hrest]⟩

theorem perform_writeBody (h : CanWrite file w.tree around.directory) (body : Body)
    (hshown : Shows shown v w) :
    ∃ (moves : List Nat) (w' : World), perform (writeBody file shown.isSome body) around w =
        (body.fault.elim (.ok ()) .error, w') ∧
      bytesAt file w'.tree around.directory = .ok body.pieces.flatten ∧
      moves.sum = body.pieces.flatten.length ∧
      Shows (shown.map fun bar => { bar with moves := bar.moves ++ moves }) v w' := by
  obtain ⟨x, htruncate, hx⟩ := exists_perform_write h []
  obtain ⟨w', hpieces⟩ := exists_perform_writePieces hx shown.isSome body.pieces
  obtain ⟨hbytes, hmoved⟩ := of_perform_writePieces (bytesAt_of_perform_write htruncate) hpieces
  have hsame : Keeps around World.SameBars (truncate file) := keeps_truncate file
  obtain ⟨moves, hsum, hshown⟩ :=
    (hshown.trans_sameBars (hsame.of_perform htruncate)).exists_of_moves hmoved
  refine ⟨moves, w', ?_, hbytes, hsum, hshown⟩
  rw [writeBody, truncate, perform_bind_ok htruncate, perform_bind_ok hpieces]
  cases body.fault <;> rfl

end WriteBody

theorem keeps_deliver_of_write {R : World → World → Prop} [OfTree R]
    (hwrite : ∀ bytes, Keeps around R (change temporary fun t cwd => t.write cwd temporary bytes)) :
    Keeps around R (deliver settings url temporary showProgress) := by
  have hask : Keeps around R (requestBody settings url showProgress) := by
    intro w
    obtain ⟨shown, u, hask, htree, -⟩ := perform_requestBody settings url showProgress around w
    rw [hask]
    exact OfTree.same w u htree
  refine hask.bind fun intake => Keeps.bind ?_ fun _ => Keeps.pure _
  refine (hwrite []).bind fun _ => (keeps_writePieces_of_write hwrite _ _).bind fun _ => ?_
  split
  · exact Keeps.throw _
  · exact Keeps.pure _

/-- What was taken in has been written to the temporary file, and the bar for it has moved by as
much and is open still. -/
structure Delivered (settings : Settings) (url : String) (temporary : Path) (showProgress : Bool)
    (around : Surroundings) (w : World) (intake : Intake) (shown : Option ProgressBar) (u : World) :
    Prop where
  taken : takenIn settings url showProgress around w = .ok intake
  writable : CanWrite temporary w.tree around.directory
  unbroken : (intake.response.body settings.chunkSize).fault = none
  bytes : bytesAt temporary u.tree around.directory =
    .ok (intake.response.body settings.chunkSize).pieces.flatten
  others : SameOutside (· = goalOf around.directory temporary) w u
  shows : Shows shown w u
  withBar : shown.isSome = intake.withBar
  moved : ∀ bar ∈ shown, bar.closed = false ∧
    bar.moves.sum = (intake.response.body settings.chunkSize).pieces.flatten.length

/-- What a delivery to a temporary file ends in, and the world that it leaves. -/
inductive Delivery (settings : Settings) (url : String) (temporary : Path) (showProgress : Bool)
    (around : Surroundings) (w : World) : Except Fault Bool → World → Prop
  | refused {fault : Fault} {u : World} :
      takenIn settings url showProgress around w = .error fault →
      u.tree = w.tree → Shows none w u →
      Delivery settings url temporary showProgress around w (.error fault) u
  | unwritable {intake : Intake} {fault : Fault} {u : World} {shown : Option ProgressBar} :
      takenIn settings url showProgress around w = .ok intake →
      ¬ CanWrite temporary w.tree around.directory → fault.IsRefusal → u.tree = w.tree →
      Shows shown w u → shown.isSome = intake.withBar → (∀ bar ∈ shown, bar.closed = false) →
      Delivery settings url temporary showProgress around w (.error fault) u
  | broken {intake : Intake} {fault : Fault} {u : World} {shown : Option ProgressBar} :
      takenIn settings url showProgress around w = .ok intake →
      CanWrite temporary w.tree around.directory →
      (intake.response.body settings.chunkSize).fault = some fault →
      Readable temporary u.tree around.directory →
      SameOutside (· = goalOf around.directory temporary) w u →
      Shows shown w u → shown.isSome = intake.withBar → (∀ bar ∈ shown, bar.closed = false) →
      Delivery settings url temporary showProgress around w (.error fault) u
  | delivered {intake : Intake} {shown : Option ProgressBar} {u : World} :
      Delivered settings url temporary showProgress around w intake shown u →
      Delivery settings url temporary showProgress around w (.ok intake.withBar) u

theorem Delivery.sameOutside {ended : Except Fault Bool}
    (h : Delivery settings url temporary showProgress around w ended u) :
    SameOutside (· = goalOf around.directory temporary) w u := by
  cases h with
  | refused _ htree _ => exact OfTree.same w u htree
  | unwritable _ _ _ htree => exact OfTree.same w u htree
  | broken _ _ _ _ hsame => exact hsame
  | delivered h => exact h.others

theorem perform_deliver (settings : Settings) (url : String) (temporary : Path)
    (showProgress : Bool) (around : Surroundings) (w : World) :
    Delivery settings url temporary showProgress around w
      (perform (deliver settings url temporary showProgress) around w).1
      (perform (deliver settings url temporary showProgress) around w).2 := by
  have hkeeps : Keeps around (SameOutside (· = goalOf around.directory temporary))
      (deliver settings url temporary showProgress) :=
    keeps_deliver_of_write (sameOutside_write rfl)
  obtain ⟨shown, v, hask, htree, hshown, hnew, hbar⟩ :=
    perform_requestBody settings url showProgress around w
  cases htaken : takenIn settings url showProgress around w with
  | error fault =>
      rw [htaken] at hask hbar
      subst hbar
      rw [deliver, perform_bind_error hask]
      exact .refused htaken htree hshown
  | ok intake =>
      rw [htaken] at hask hbar
      have hopen : ∀ bar ∈ shown, bar.closed = false := fun bar hmem => (hnew bar hmem).2
      by_cases hfile : CanWrite temporary w.tree around.directory
      · obtain ⟨moves, u, hwrite, hbytes, hsum, hmoved⟩ := perform_writeBody (htree ▸ hfile)
          (intake.response.body settings.chunkSize) hshown
        rw [hbar] at hwrite
        cases hfault : (intake.response.body settings.chunkSize).fault with
        | some fault =>
            rw [hfault] at hwrite
            have hdeliver : perform (deliver settings url temporary showProgress) around w =
                (.error fault, u) := by
              rw [deliver, perform_bind_ok hask]
              exact perform_bind_error hwrite
            rw [hdeliver]
            exact .broken htaken hfile hfault ⟨_, hbytes⟩ (hkeeps.of_perform hdeliver) hmoved
              (by simpa using hbar) fun bar hmem => (IsNew.moved hnew moves bar hmem).1
        | none =>
            rw [hfault] at hwrite
            have hdeliver : perform (deliver settings url temporary showProgress) around w =
                (.ok intake.withBar, u) := by
              rw [deliver, perform_bind_ok hask]
              exact perform_bind_ok hwrite
            rw [hdeliver]
            refine .delivered ⟨htaken, hfile, hfault, hbytes, hkeeps.of_perform hdeliver, hmoved,
              by simpa using hbar, ?_⟩
            rw [← hsum]
            exact IsNew.moved hnew moves
      · obtain ⟨fault, htruncate, hrefusal⟩ := perform_truncate_refused (htree ▸ hfile)
        have hdeliver : perform (deliver settings url temporary showProgress) around w =
            (.error fault, v) := by
          rw [deliver, perform_bind_ok hask]
          exact perform_bind_error (perform_bind_error htruncate)
        rw [hdeliver]
        exact .unwritable htaken hfile hrefusal htree hshown hbar hopen

end Transfer

end StagedBuild
