import StagedBuild.Proofs.Transfer.Asking

/-!
What a download leaves behind when it fails. A temporary file stays only behind an interrupt, if it
was there already or the body had come to be written; and a bar stays open exactly when it is shown
for a body that is not written to its end, whatever the fault.
-/

namespace StagedBuild.Transfer

open Action Disk FileTree

variable {around : Surroundings} {u v w w' : World} {settings : Settings} {url : String}
  {destination : Path} {showProgress withBar closed : Bool} {intake : Intake}
  {fault fault' : Fault}

/-- Whatever raised a fault, and wherever: the temporary file stays behind an interrupt alone. -/
theorem of_perform_giveUp
    (h : perform (giveUp url (temporaryFor destination) fault') around u = (.error fault, w')) :
    (fault' = .interrupted ↔ fault = .interrupted) ∧
      (Readable (temporaryFor destination) w'.tree around.directory ↔
        fault = .interrupted ∧
          Readable (temporaryFor destination) u.tree around.directory) ∧
      World.SameBars u w' := by
  obtain ⟨cause, v, hgive, hgiven⟩ :=
    perform_giveUp url (temporaryFor destination) fault' around u
  rw [hgive] at h
  obtain ⟨rfl, rfl⟩ : cause = fault ∧ v = w' := by
    cases h
    exact ⟨rfl, rfl⟩
  cases hgiven with
  | interrupted hfault => exact ⟨by simp [hfault], by simp, rfl⟩
  | cleared hordinary' hordinary =>
      have hsame : Keeps around World.SameBars (unlinkIfPresent (temporaryFor destination)) :=
        keeps_unlinkIfPresent (keeps_unlink _)
      have hcleared := not_readable_of_unlinkIfPresent (temporaryFor destination) around u
      have hnot : ∀ {f : Fault}, f.isOrdinary = true → f ≠ .interrupted := by
        rintro _ hf rfl
        cases hf
      exact ⟨by simp [hnot hordinary, hnot hordinary'], by simp [hnot hordinary, hcleared], hsame u⟩

/-- A body is to be written. -/
def BringsBody (settings : Settings) (url : String) (showProgress : Bool) (around : Surroundings)
    (w : World) : Prop :=
  ∃ intake, takenIn settings url showProgress around w = .ok intake

/-- What was delivered has come to the destination. -/
def ComesToPlace (settings : Settings) (url : String) (destination : Path) (showProgress : Bool)
    (around : Surroundings) (w : World) : Prop :=
  ∃ withBar x y,
    perform (deliver settings url (temporaryFor destination) showProgress) around w =
      (.ok withBar, x) ∧
    perform (putInPlace (temporaryFor destination) destination withBar) around x = (.ok (), y)

/-- A bar is shown for a body that is not written to its end, or that is written when the user
interrupts before the bar is closed. -/
structure StopsUnderBar (settings : Settings) (url : String) (destination : Path)
    (showProgress : Bool) (around : Surroundings) (w : World) (intake : Intake) : Prop where
  taken : takenIn settings url showProgress around w = .ok intake
  withBar : intake.withBar = true
  stops : CanWrite (temporaryFor destination) w.tree around.directory →
    (intake.response.body settings.chunkSize).fault = none →
    ∀ x, perform (deliver settings url (temporaryFor destination) showProgress) around w =
      (.ok true, x) → around.interrupts x = true

/-- There is one bar more or none, and it stays open on a condition. -/
def LeavesOpen (condition : Prop) (w w' : World) : Prop :=
  ∃ shown : Option ProgressBar, Shows shown w w' ∧
    ((∃ bar ∈ shown, bar.closed = false) ↔ condition)

section LeavesOpen

variable {condition condition' : Prop} {shown : Option ProgressBar}

theorem LeavesOpen.of_open (h : Shows shown w w') (hopen : ∀ bar ∈ shown, bar.closed = false)
    (hcondition : shown.isSome = true ↔ condition) : LeavesOpen condition w w' := by
  refine ⟨shown, h, Iff.trans ?_ hcondition⟩
  cases shown with
  | none => simp
  | some bar => simp [hopen bar rfl]

theorem LeavesOpen.of_closed (h : Shows (closedBar shown) w w') (hcondition : ¬ condition) :
    LeavesOpen condition w w' := by
  refine ⟨_, h, iff_of_false ?_ hcondition⟩
  rintro ⟨bar, hbar, hopen⟩
  rw [closed_closedBar bar hbar] at hopen
  cases hopen

theorem LeavesOpen.of_sameBars (h : World.SameBars w w') (hcondition : ¬ condition) :
    LeavesOpen condition w w' :=
  have hshown : Shows (closedBar none) w w' := .none_of_sameBars h
  .of_closed hshown hcondition

theorem LeavesOpen.trans_sameBars (h : LeavesOpen condition v w) (hsame : World.SameBars w w') :
    LeavesOpen condition v w' := by
  obtain ⟨shown, hshown, hopen⟩ := h
  exact ⟨shown, hshown.trans_sameBars hsame, hopen⟩

theorem LeavesOpen.sameBars_trans (hsame : World.SameBars v w) (h : LeavesOpen condition w w')
    (hcondition : condition ↔ condition') : LeavesOpen condition' v w' := by
  obtain ⟨shown, hshown, hopen⟩ := h
  exact ⟨shown, hshown.sameBars_trans hsame, hopen.trans hcondition⟩

end LeavesOpen

section Attempts

variable {shown : Option ProgressBar} {x : World}

theorem not_comesToPlace_of_putInPlace
    (hdeliver : perform (deliver settings url (temporaryFor destination) showProgress) around v =
      (.ok withBar, x))
    (hplace : perform (putInPlace (temporaryFor destination) destination withBar) around x =
      (.error fault, u)) :
    ¬ ComesToPlace settings url destination showProgress around v := by
  rintro ⟨withBar', x', y, hdeliver', hplace'⟩
  obtain ⟨hbar, rfl⟩ := Prod.mk.inj (hdeliver.symm.trans hdeliver')
  obtain rfl := Except.ok.inj hbar
  rw [hplace] at hplace'
  cases hplace'

theorem stopsUnderBar_iff (htaken : takenIn settings url showProgress around v = .ok intake) :
    (∃ intake, StopsUnderBar settings url destination showProgress around v intake) ↔
      intake.withBar = true ∧ (CanWrite (temporaryFor destination) v.tree around.directory →
        (intake.response.body settings.chunkSize).fault = none →
        ∀ x, perform (deliver settings url (temporaryFor destination) showProgress) around v =
          (.ok true, x) → around.interrupts x = true) := by
  refine ⟨?_, fun ⟨hbar, hstops⟩ => ⟨intake, htaken, hbar, hstops⟩⟩
  rintro ⟨intake', htaken', hbar, hstops⟩
  obtain rfl := Except.ok.inj (htaken.symm.trans htaken')
  exact ⟨hbar, hstops⟩

theorem stopsUnderBar_of_delivered
    (hdeliver : perform (deliver settings url (temporaryFor destination) showProgress) around v =
      (.ok intake.withBar, x))
    (hdelivered : Delivered settings url (temporaryFor destination) showProgress around v intake
      shown x) :
    (∃ intake, StopsUnderBar settings url destination showProgress around v intake) ↔
      intake.withBar = true ∧ around.interrupts x = true := by
  rw [stopsUnderBar_iff hdelivered.taken]
  refine and_congr_right fun hbar => ?_
  rw [hbar] at hdeliver
  constructor
  · exact fun h => h hdelivered.writable hdelivered.unbroken x hdeliver
  · intro h _ _ x' hdeliver'
    obtain ⟨-, rfl⟩ := Prod.mk.inj (hdeliver.symm.trans hdeliver')
    exact h

/-- What is left where the body was to be written, before anything is cleared away. -/
def LeftBehind (settings : Settings) (url : String) (destination : Path) (showProgress : Bool)
    (around : Surroundings) (v : World) (fault : Fault) (u : World) : Prop :=
  (fault = .interrupted → (Readable (temporaryFor destination) u.tree around.directory ↔
    (Readable (temporaryFor destination) v.tree around.directory ∨
      BringsBody settings url showProgress around v) ∧
    ¬ ComesToPlace settings url destination showProgress around v)) ∧
  LeavesOpen (∃ intake, StopsUnderBar settings url destination showProgress around v intake) v u

theorem leftBehind_of_undelivered
    (hdeliver : perform (deliver settings url (temporaryFor destination) showProgress) around v =
      (.error fault, u))
    (h : Delivery settings url (temporaryFor destination) showProgress around v (.error fault) u) :
    LeftBehind settings url destination showProgress around v fault u := by
  have hnot : ¬ ComesToPlace settings url destination showProgress around v := by
    rintro ⟨withBar, x, y, hdeliver', -⟩
    rw [hdeliver] at hdeliver'
    cases hdeliver'
  cases h with
  | refused htaken htree hshown =>
      refine ⟨fun _ => ?_, .of_sameBars (hshown.trans (List.append_nil _)) ?_⟩
      · simp [htree, BringsBody, htaken, hnot]
      · rintro ⟨intake, hstops⟩
        cases htaken.symm.trans hstops.taken
  | unwritable htaken hfile hrefusal htree hshown hbar hopen =>
      refine ⟨fun hinterrupted => absurd hinterrupted hrefusal.ne_interrupted,
        .of_open hshown hopen ?_⟩
      rw [stopsUnderBar_iff htaken, hbar]
      simp [hfile]
  | broken htaken hfile hfault hread _ hshown hbar hopen =>
      refine ⟨fun _ => iff_of_true hread ⟨.inr ⟨_, htaken⟩, hnot⟩, .of_open hshown hopen ?_⟩
      rw [stopsUnderBar_iff htaken, hbar]
      simp [hfault]

theorem leftBehind_of_unplaced
    (hdeliver : perform (deliver settings url (temporaryFor destination) showProgress) around v =
      (.ok intake.withBar, x))
    (hdelivered : Delivered settings url (temporaryFor destination) showProgress around v intake
      shown x)
    (hplace : perform (putInPlace (temporaryFor destination) destination intake.withBar) around x =
      (.error fault, u))
    (h : Placement destination shown around v x (.error fault) u) :
    LeftBehind settings url destination showProgress around v fault u := by
  have hnot := not_comesToPlace_of_putInPlace hdeliver hplace
  have hbrings : BringsBody settings url showProgress around v := ⟨intake, hdelivered.taken⟩
  have hread : Readable (temporaryFor destination) x.tree around.directory := ⟨_, hdelivered.bytes⟩
  unfold LeftBehind
  rw [stopsUnderBar_of_delivered hdeliver hdelivered]
  cases h with
  | waiting hinterrupts hshown =>
      refine ⟨fun _ => iff_of_true hread ⟨.inr hbrings, hnot⟩,
        .of_open hshown (fun bar hbar => (hdelivered.moved bar hbar).1) ?_⟩
      rw [hdelivered.withBar]
      simp [hinterrupts]
  | untouched hcalm _ htree hshown =>
      exact ⟨fun _ => iff_of_true (htree ▸ hread) ⟨.inr hbrings, hnot⟩,
        .of_closed hshown (by simp [hcalm])⟩
  | cleared hcalm hcleared hshown =>
      refine ⟨fun _ => iff_of_true ?_ ⟨.inr hbrings, hnot⟩, .of_closed hshown (by simp [hcalm])⟩
      rwa [Readable, hcleared.bytes]

theorem leftBehind_of_perform_downloadTo (hname : destination.name ≠ "")
    (h : perform (downloadTo settings url destination (temporaryFor destination) showProgress)
      around v = (.error fault, u)) :
    LeftBehind settings url destination showProgress around v fault u := by
  have hattempt := perform_downloadTo settings url showProgress around v hname
  rw [h] at hattempt
  cases hattempt with
  | undelivered hdeliver hdelivery => exact leftBehind_of_undelivered hdeliver hdelivery
  | unplaced hdeliver hdelivered hplace hplacement =>
      exact leftBehind_of_unplaced hdeliver hdelivered hplace hplacement
  | @interrupted _ _ _ y hdeliver hdelivered hplace hplacement =>
      cases hplacement with
      | moved hcalm hmoved hshown =>
          refine ⟨fun _ => iff_of_false (fun hread => ?_)
            fun h => h.2 ⟨_, _, _, hdeliver, hplace⟩, ?_⟩
          · obtain ⟨f, hf⟩ := isFile_iff.1 (readable_iff.1 hread).2.2
            cases hmoved.gone.symm.trans hf
          · rw [stopsUnderBar_of_delivered hdeliver hdelivered]
            exact .of_closed (hshown.trans_sameBars (sameBars_brokenOff y)) (by simp [hcalm])

end Attempts

theorem of_perform_makeDirectories_error (hname : destination.name ≠ "")
    (h : perform (makeDirectories destination.parent) around w = (.error fault, w')) :
    ¬ Readable (temporaryFor destination) w'.tree around.directory :=
  fun hread => not_leads_of_makeDirectoriesWithin h (leads_parent_of_readable hname hread)

theorem sameBars_of_nameless (hname : destination.name = "") :
    Keeps around World.SameBars (download settings url destination showProgress) := by
  have hnone : destination.withSuffix? (destination.suffix ++ ".tmp") = none := by
    rw [Path.withSuffix?, if_pos hname]
  unfold download
  rw [hnone]
  exact (keeps_makeDirectories _).bind fun _ => Keeps.throw _

/-- A download that fails leaves the temporary file behind exactly when it was interrupted before
what was delivered came to its place, and the temporary file was there or the body had come to be
written. It leaves a bar open exactly when the bar is shown for a body that is not written to its
end, or the user interrupts before the bar is closed. -/
theorem leftovers_of_download
    (h : perform (download settings url destination showProgress) around w = (.error fault, w')) :
    (destination.name ≠ "" →
      (Readable (temporaryFor destination) w'.tree around.directory ↔
        fault = .interrupted ∧ ∃ v,
          perform (makeDirectories destination.parent) around w = (.ok (), v) ∧
          (Readable (temporaryFor destination) v.tree around.directory ∨
            BringsBody settings url showProgress around v) ∧
          ¬ ComesToPlace settings url destination showProgress around v)) ∧
    LeavesOpen (destination.name ≠ "" ∧ ∃ v intake,
      perform (makeDirectories destination.parent) around w = (.ok (), v) ∧
      StopsUnderBar settings url destination showProgress around v intake) w w' := by
  by_cases hname : destination.name = ""
  · exact ⟨fun hnot => absurd hname hnot,
      .of_sameBars ((sameBars_of_nameless hname).of_perform h) fun hnot => hnot.1 hname⟩
  have hsame : Keeps around World.SameBars (makeDirectories destination.parent) :=
    keeps_makeDirectories _
  rw [perform_download hname] at h
  rcases hmake : perform (makeDirectories destination.parent) around w with ⟨_ | _, v⟩
  · simp only [hmake, Prod.mk.injEq, Except.error.injEq] at h
    obtain ⟨rfl, rfl⟩ := h
    have hnot := of_perform_makeDirectories_error hname hmake
    exact ⟨by simp [hnot], .of_sameBars (hsame.of_perform hmake) (by simp)⟩
  · rcases hdown : perform (downloadTo settings url destination (temporaryFor destination)
      showProgress) around v with ⟨fault' | _, u⟩
    · simp only [hmake, hdown] at h
      obtain ⟨hfile, hbars⟩ := leftBehind_of_perform_downloadTo hname hdown
      obtain ⟨hfault, hleft, hkept⟩ := of_perform_giveUp h
      refine ⟨fun _ => ?_, (hbars.trans_sameBars hkept).sameBars_trans (hsame.of_perform hmake)
        (by simp [hname])⟩
      rw [hleft]
      refine and_congr_right fun hinterrupted => ?_
      rw [hfile (hfault.2 hinterrupted)]
      simp
    · simp only [hmake, hdown] at h
      cases h

section Stopping

/-- Surroundings in which every body stops after two of the three bytes that are announced. -/
def aroundStopping (fault : Fault) : Surroundings :=
  { Surroundings.still [] with
    server := fun _ _ => .answered (.ofBytes (some "3") [80, 75, 5] (some (2, fault))) }

/-- What comes of a download of such a body. -/
def stopped (fault : Fault) : Except Fault Path × World :=
  perform (download .default "http://h/t.jar" (.parse "/t.jar") true) (aroundStopping fault)
    (.ofTree .empty)

/-- A reset connection leaves no temporary file, but a bar that stays open. -/
theorem reset_leaves_open_bar :
    ∃ w', stopped (.transfer (.connection "reset")) =
        (.error (.download ⟨.download, "http://h/t.jar", .connection "reset"⟩), w') ∧
      ¬ Readable (.parse "/t.jar.tmp") w'.tree [] ∧
      ∃ bar ∈ w'.progressBars, bar.closed = false := by
  have hended : (stopped (.transfer (.connection "reset"))).1 =
      .error (.download ⟨.download, "http://h/t.jar", .connection "reset"⟩) := by
    decide +kernel
  have hstopped : stopped (.transfer (.connection "reset")) =
      (.error (.download ⟨.download, "http://h/t.jar", .connection "reset"⟩), _) :=
    Prod.ext hended rfl
  have hmake : perform (makeDirectories (Path.parse "/t.jar").parent)
      (aroundStopping (.transfer (.connection "reset"))) (.ofTree .empty) =
        (.ok (), .ofTree .empty) :=
    perform_makeDirectories_there (answerAt_eq_some_iff.2 ⟨by decide +kernel, rfl, rfl⟩)
  obtain ⟨hfile, shown, hbars, hopen⟩ := leftovers_of_download hstopped
  refine ⟨_, hstopped, fun hread => ?_, ?_⟩
  · cases ((hfile (by decide)).1 hread).1
  · obtain ⟨bar, hbar, hclosed⟩ := hopen.2 ⟨by decide, _, ⟨_, true⟩, hmake, rfl, rfl,
      fun _ hunbroken => by cases hunbroken⟩
    exact ⟨bar, by rw [hbars, Option.mem_def.1 hbar]; simp, hclosed⟩

/-- An interrupt in the middle of a body leaves the temporary file, and the bar open. -/
theorem interrupt_leaves_file_and_open_bar :
    (stopped .interrupted).1 = .error .interrupted ∧
      bytesAt (.parse "/t.jar.tmp") (stopped .interrupted).2.tree [] = .ok [80, 75] ∧
      (stopped .interrupted).2.progressBars = [⟨3, "Downloading t.jar", [2], false⟩] := by
  decide +kernel

end Stopping

end StagedBuild.Transfer
