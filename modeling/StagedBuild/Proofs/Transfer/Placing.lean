import StagedBuild.Proofs.Transfer.Delivery
import StagedBuild.Proofs.Transfer.Temporary

/-!
How what was delivered takes the place of the destination. The destination is cleared and then the
temporary file is moved, which cannot fail half way unless the user interrupts: then the destination
is as it was, or empty with the temporary file still there, or replaced already.
-/

namespace StagedBuild.Transfer

open Action Disk FileTree

variable {around : Surroundings} {u v w w' : World} {settings : Settings} {url : String}
  {destination temporary : Path} {showProgress withBar : Bool} {fault : Fault}
  {shown : Option ProgressBar}

theorem sameBars_brokenOff (w : World) : World.SameBars w w.brokenOff := by
  rw [World.SameBars, World.brokenOff, World.progressBars_note]
  exact List.reverse_reverse _

/-- A bar that has come to its end. -/
def closedBar (shown : Option ProgressBar) : Option ProgressBar :=
  shown.map fun bar => { bar with closed := true }

theorem closed_closedBar : ∀ bar ∈ closedBar shown, bar.closed = true := by
  intro bar hbar
  obtain ⟨open', -, rfl⟩ := Option.map_eq_some_iff.1 (Option.mem_def.1 hbar)
  rfl

/-- A destination from which the old file was taken away: the temporary file is there still, and the
way to both is as it was. -/
structure Cleared (destination : Path) (cwd : Location) (w v : World) : Prop where
  free : v.tree.node? (goalOf cwd destination) = none
  others : SameOutside (· = goalOf cwd destination) w v
  bytes : bytesAt (temporaryFor destination) v.tree cwd =
    bytesAt (temporaryFor destination) w.tree cwd
  askable : isAskable destination = true
  locate : v.tree.locate cwd destination = .ok (goalOf cwd destination)

/-- The whole temporary file has taken the place of the destination. -/
structure Moved (destination : Path) (cwd : Location) (w u : World) : Prop where
  bytes : bytesAt destination u.tree cwd = bytesAt (temporaryFor destination) w.tree cwd
  gone : u.tree.node? (goalOf cwd (temporaryFor destination)) = none
  others : SameOutside (fun q => q = goalOf cwd destination ∨
    q = goalOf cwd (temporaryFor destination)) w u

theorem Cleared.of_trees {cwd : Location} {x y : World} (h : Cleared destination cwd x y)
    (hw : x.tree = w.tree) (hu : u.tree = y.tree) : Cleared destination cwd w u where
  free := by rw [hu, h.free]
  others q hq := by rw [hu, h.others q hq, hw]
  bytes := by rw [hu, h.bytes, hw]
  askable := h.askable
  locate := by rw [hu, h.locate]

theorem Moved.of_trees {cwd : Location} {x : World} (h : Moved destination cwd x u)
    (hw : x.tree = w.tree) : Moved destination cwd w u where
  bytes := by rw [h.bytes, hw]
  gone := h.gone
  others q hq := by rw [h.others q hq, hw]

section PutInPlace

variable (hname : destination.name ≠ "")
  (hread : Readable (temporaryFor destination) w.tree around.directory)

include hname hread

theorem cleared_of_unlinkIfPresent
    (hunlink : perform (unlinkIfPresent destination) around w = (.ok (), v)) :
    Cleared destination around.directory w v := by
  obtain ⟨hask, hloc⟩ := reaches_destination hname hread
  have hne := goalOf_ne_temporary hname around.directory
  have hnodes := node?_of_unlinkIfPresent hask hloc hunlink
  have hsame : SameOutside (· = goalOf around.directory destination) w v := fun q hq => by
    rw [hnodes, if_neg hq]
  have hnot : ¬ w.tree.isDirectory (goalOf around.directory destination) = true := by
    intro hdir
    have hanswer := answerAt_of_locate hask hloc
    rw [isDirectory_iff.1 hdir] at hanswer
    rw [perform_unlinkIfPresent, hanswer] at hunlink
    simp only [perform_unlink_directory hanswer] at hunlink
    cases hunlink
  -- the way to both files goes through directories, which are still there
  have hpassed : ∀ q ∈ passedBy around.directory destination,
      w.tree.node? q = v.tree.node? q := by
    intro q hq
    have hdir := (locate_eq_ok_iff.1 hloc).2.2.1 q hq
    exact (hsame q fun heq => hnot (heq ▸ hdir)).symm
  refine ⟨by rw [hnodes, if_pos rfl], hsame, ?_, hask, by rw [← locate_congr hpassed, hloc]⟩
  exact (bytesAt_congr (fun q hq => hpassed q ((mem_passedBy_temporary hname).1 hq))
    (hsame _ hne.symm).symm).symm

end PutInPlace

theorem moved_of_cleared (hname : destination.name ≠ "")
    (hread : Readable (temporaryFor destination) w.tree around.directory)
    (hcleared : Cleared destination around.directory w v) :
    ∃ u, perform (rename (temporaryFor destination) destination) around v = (.ok (), u) ∧
      Moved destination around.directory w u := by
  have hne := goalOf_ne_temporary hname around.directory
  have hthere : Readable (temporaryFor destination) v.tree around.directory := by
    rwa [Readable, hcleared.bytes]
  obtain ⟨u, f, hf, hrename, hmoved⟩ :=
    perform_rename_free hthere hcleared.askable hcleared.locate hcleared.free
  have hsame : SameOutside (fun q => q = goalOf around.directory destination ∨
      q = goalOf around.directory (temporaryFor destination)) v u := by
    intro q hq
    rw [not_or] at hq
    rw [hmoved, if_neg hq.1, if_neg hq.2]
  obtain ⟨hask, hloc, hfile⟩ := readable_iff.1 hthere
  have hpassed : ∀ q ∈ passedBy around.directory destination, v.tree.node? q = u.tree.node? q := by
    intro q hq
    have hdir := (locate_eq_ok_iff.1 hcleared.locate).2.2.1 q hq
    refine (hsame q (not_or.2 ⟨?_, ?_⟩)).symm
    · rintro rfl
      rw [isDirectory_iff, hcleared.free] at hdir
      cases hdir
    · rintro rfl
      exact not_isFile_of_isDirectory hdir hfile
  refine ⟨u, hrename, ?_, by rw [hmoved, if_neg hne.symm, if_pos rfl], ?_⟩
  · have hput : bytesAt destination u.tree around.directory = .ok f.bytes := by
      refine bytesAt_eq_ok_iff.2 ⟨hcleared.askable, ?_, f, by rw [hmoved, if_pos rfl], rfl⟩
      rw [← locate_congr hpassed, hcleared.locate]
    rw [hput, ← hcleared.bytes, bytesAt_eq_ok_iff.2 ⟨hask, hloc, f, hf, rfl⟩]
  · exact Passage.trans (fun q hq => hcleared.others q fun heq => hq (.inl heq)) hsame

/-- What putting a delivered file in place ends in, and the world that it leaves. Bars are counted
from a world `v`. -/
inductive Placement (destination : Path) (shown : Option ProgressBar) (around : Surroundings)
    (v w : World) : Except Fault Unit → World → Prop
  | waiting : around.interrupts w = true → Shows shown v w.brokenOff →
      Placement destination shown around v w (.error .interrupted) w.brokenOff
  | untouched {fault : Fault} {u : World} : ¬ around.interrupts w = true →
      fault = .interrupted ∨ fault.IsRefusal → u.tree = w.tree → Shows (closedBar shown) v u →
      Placement destination shown around v w (.error fault) u
  | cleared {u : World} : ¬ around.interrupts w = true → Cleared destination around.directory w u →
      Shows (closedBar shown) v u →
      Placement destination shown around v w (.error .interrupted) u
  | moved {u : World} : ¬ around.interrupts w = true → Moved destination around.directory w u →
      Shows (closedBar shown) v u → Placement destination shown around v w (.ok ()) u

theorem refused_unlinkIfPresent (p : Path) : FailsOnly Fault.IsRefusal (unlinkIfPresent p) :=
  (refused_isOccupied p).bind fun _ =>
    FailsOnly.ite (fun _ => refused_change p _) fun _ => FailsOnly.pure ()

theorem perform_putInPlace (hname : destination.name ≠ "")
    (hread : Readable (temporaryFor destination) w.tree around.directory)
    (hshown : Shows shown v w) :
    Placement destination shown around v w
      (perform (putInPlace (temporaryFor destination) destination shown.isSome) around w).1
      (perform (putInPlace (temporaryFor destination) destination shown.isSome) around w).2 := by
  have hrename : Keeps around World.SameBars (rename (temporaryFor destination) destination) :=
    keeps_rename _ _
  have hunlinks : Keeps around World.SameBars (unlinkIfPresent destination) :=
    keeps_unlinkIfPresent (keeps_unlink destination)
  obtain ⟨x, hclose, htree, hclosed⟩ := perform_closeBar around hshown
  replace hread : Readable (temporaryFor destination) x.tree around.directory := htree ▸ hread
  rw [putInPlace, perform_pause_bind]
  by_cases hfirst : around.interrupts w = true
  · rw [if_pos hfirst]
    exact .waiting hfirst (hshown.trans_sameBars (sameBars_brokenOff w))
  rw [if_neg hfirst, perform_bind_ok hclose, perform_pause_bind]
  by_cases hsecond : around.interrupts x = true
  · rw [if_pos hsecond]
    exact .untouched hfirst (.inl rfl) htree (hclosed.trans_sameBars (sameBars_brokenOff x))
  rw [if_neg hsecond]
  rcases hunlink : perform (unlinkIfPresent destination) around x with ⟨fault | _, y⟩
  · rw [perform_bind_error hunlink]
    obtain rfl := perform_unlinkIfPresent_error hunlink
    exact .untouched hfirst (.inr ((refused_unlinkIfPresent _).of_perform hunlink)) htree hclosed
  have hcleared := cleared_of_unlinkIfPresent hname hread hunlink
  have hshown' := hclosed.trans_sameBars (hunlinks.of_perform hunlink)
  rw [perform_bind_ok hunlink, perform_pause_bind]
  by_cases hthird : around.interrupts y = true
  · rw [if_pos hthird]
    exact .cleared hfirst (hcleared.of_trees htree rfl)
      (hshown'.trans_sameBars (sameBars_brokenOff y))
  rw [if_neg hthird]
  obtain ⟨u, hmove, hmoved⟩ := moved_of_cleared hname hread hcleared
  rw [hmove]
  exact .moved hfirst (hmoved.of_trees htree) (hshown'.trans_sameBars (hrename.of_perform hmove))

section DownloadTo

/-- What a download to the temporary file ends in, and the world that it leaves: it ends as its
delivery does, or while what was delivered is put in place, or it is interrupted when all is done,
or it is done. -/
inductive Attempt (settings : Settings) (url : String) (destination : Path) (showProgress : Bool)
    (around : Surroundings) (w : World) : Except Fault Unit → World → Prop
  | undelivered {fault : Fault} {u : World} :
      perform (deliver settings url (temporaryFor destination) showProgress) around w =
        (.error fault, u) →
      Delivery settings url (temporaryFor destination) showProgress around w (.error fault) u →
      Attempt settings url destination showProgress around w (.error fault) u
  | unplaced {intake : Intake} {shown : Option ProgressBar} {x : World}
      {fault : Fault} {u : World} :
      perform (deliver settings url (temporaryFor destination) showProgress) around w =
        (.ok intake.withBar, x) →
      Delivered settings url (temporaryFor destination) showProgress around w intake shown x →
      perform (putInPlace (temporaryFor destination) destination intake.withBar) around x =
        (.error fault, u) →
      Placement destination shown around w x (.error fault) u →
      Attempt settings url destination showProgress around w (.error fault) u
  | interrupted {intake : Intake} {shown : Option ProgressBar} {x u : World} :
      perform (deliver settings url (temporaryFor destination) showProgress) around w =
        (.ok intake.withBar, x) →
      Delivered settings url (temporaryFor destination) showProgress around w intake shown x →
      perform (putInPlace (temporaryFor destination) destination intake.withBar) around x =
        (.ok (), u) →
      Placement destination shown around w x (.ok ()) u →
      Attempt settings url destination showProgress around w (.error .interrupted) u.brokenOff
  | placed {intake : Intake} {shown : Option ProgressBar} {x u : World} :
      perform (deliver settings url (temporaryFor destination) showProgress) around w =
        (.ok intake.withBar, x) →
      Delivered settings url (temporaryFor destination) showProgress around w intake shown x →
      perform (putInPlace (temporaryFor destination) destination intake.withBar) around x =
        (.ok (), u) →
      Placement destination shown around w x (.ok ()) u →
      Attempt settings url destination showProgress around w (.ok ()) u

theorem perform_downloadTo (settings : Settings) (url : String) (showProgress : Bool)
    (around : Surroundings) (w : World) (hname : destination.name ≠ "") :
    Attempt settings url destination showProgress around w
      (perform (downloadTo settings url destination (temporaryFor destination) showProgress)
        around w).1
      (perform (downloadTo settings url destination (temporaryFor destination) showProgress)
        around w).2 := by
  have hdelivery := perform_deliver settings url (temporaryFor destination) showProgress around w
  unfold downloadTo
  rcases hdeliver : perform (deliver settings url (temporaryFor destination) showProgress) around w
    with ⟨fault | withBar, x⟩
  · rw [hdeliver] at hdelivery
    rw [perform_bind_error hdeliver]
    exact .undelivered hdeliver hdelivery
  · rw [hdeliver] at hdelivery
    cases hdelivery with
    | delivered hdelivered =>
        rename_i intake shown
        have hplacement := perform_putInPlace hname ⟨_, hdelivered.bytes⟩ hdelivered.shows
        rw [hdelivered.withBar] at hplacement
        rw [perform_bind_ok hdeliver]
        rcases hplace : perform (putInPlace (temporaryFor destination) destination intake.withBar)
          around x with ⟨fault | _, u⟩
        · rw [hplace] at hplacement
          rw [perform_bind_error hplace]
          exact .unplaced hdeliver hdelivered hplace hplacement
        · rw [hplace] at hplacement
          rw [perform_bind_ok hplace, perform_pause]
          by_cases hinterrupts : around.interrupts u = true
          · rw [if_pos hinterrupts]
            exact .interrupted hdeliver hdelivered hplace hplacement
          · rw [if_neg hinterrupts]
            exact .placed hdeliver hdelivered hplace hplacement

end DownloadTo

section Work

/-- A relation that holds over every change of the disk, and over every move of a bar. -/
class AnyWork (R : World → World → Prop) : Prop extends AnyChange R where
  opened : ∀ (w : World) (total : Int) (label : String),
    R w { w with history := .barOpened total label :: w.history }
  moved : ∀ (w : World) (n : Nat), R w { w with history := .barMoved n :: w.history }
  closed : ∀ w : World, R w { w with history := .barClosed :: w.history }

/-- A relation that holds over all work, and when the user interrupts it. -/
class AnyPausedWork (R : World → World → Prop) : Prop extends AnyWork R where
  interrupted : ∀ w : World, R w w.brokenOff

section

variable {R : World → World → Prop} [AnyWork R]

theorem keeps_writePiece (file : Path) (withBar : Bool) (piece : List UInt8) :
    Keeps around R (writePiece file withBar piece) :=
  Keeps.ite (fun _ => (keeps_appendBytes file piece).bind fun _ =>
    Keeps.ite (fun _ => Keeps.note fun w => AnyWork.moved w _) fun _ => Keeps.pure ())
    fun _ => Keeps.pure ()

theorem keeps_writeBody (file : Path) (withBar : Bool) (body : Body) :
    Keeps around R (writeBody file withBar body) := by
  refine (keeps_truncate file).bind fun _ =>
    (keeps_writePieces_of_piece (keeps_writePiece file withBar) _).bind fun _ => ?_
  split
  · exact Keeps.throw _
  · exact Keeps.pure _

theorem keeps_openBar (url : String) (total : Int) (withBar : Bool) :
    Keeps around R (openBar url total withBar) :=
  Keeps.ite (fun _ => (Keeps.of_readOnly (ReadOnly.ofExcept _ _)).bind fun _ =>
    Keeps.note fun w => AnyWork.opened w _ _) fun _ => Keeps.pure _

theorem keeps_closeBar (withBar : Bool) : Keeps around R (closeBar withBar) :=
  Keeps.ite (fun _ => Keeps.note AnyWork.closed) fun _ => Keeps.pure _

theorem work_of_deliver (settings : Settings) (url : String) (temporary : Path)
    (showProgress : Bool) (around : Surroundings) (w : World) :
    R (w.requesting ⟨url, true, settings.timeout⟩)
      (perform (deliver settings url temporary showProgress) around w).2 := by
  have hasked : (perform (receive settings url) around w).2 =
      w.requesting ⟨url, true, settings.timeout⟩ := by
    rw [perform_receive]
  unfold deliver requestBody
  rw [bind_assoc]
  refine Keeps.after hasked fun received => ?_
  refine ((keeps_openBar _ _ _).bind fun _ => Keeps.pure _).bind fun intake => ?_
  exact (keeps_writeBody _ _ _).bind fun _ => Keeps.pure _

end

variable {R : World → World → Prop} [AnyPausedWork R]

theorem keeps_putInPlace (temporary destination : Path) (withBar : Bool) :
    Keeps around R (putInPlace temporary destination withBar) :=
  (Keeps.pause AnyPausedWork.interrupted).bind fun _ =>
    (keeps_closeBar withBar).bind fun _ =>
    (Keeps.pause AnyPausedWork.interrupted).bind fun _ =>
    (keeps_unlinkIfPresent (keeps_unlink destination)).bind fun _ =>
    (Keeps.pause AnyPausedWork.interrupted).bind fun _ => keeps_rename _ _

theorem work_of_downloadTo (settings : Settings) (url : String) (destination temporary : Path)
    (showProgress : Bool) (around : Surroundings) (w : World) :
    R (w.requesting ⟨url, true, settings.timeout⟩)
      (perform (downloadTo settings url destination temporary showProgress) around w).2 := by
  have hdeliver := work_of_deliver (R := R) settings url temporary showProgress around w
  unfold downloadTo
  rw [perform_bind]
  rcases hended : perform (deliver settings url temporary showProgress) around w with
    ⟨fault | withBar, x⟩
  · rwa [hended] at hdeliver
  · rw [hended] at hdeliver
    have hrest : Keeps around R (do
        putInPlace temporary destination withBar
        pause) :=
      (keeps_putInPlace _ _ _).bind fun _ => Keeps.pause AnyPausedWork.interrupted
    exact Passage.trans hdeliver (hrest x)

end Work

end StagedBuild.Transfer
