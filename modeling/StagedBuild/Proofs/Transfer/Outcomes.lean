import StagedBuild.Proofs.Transfer.Asking

/-!
How transfers end. A transfer returns, or it fails with the status of the server's refusal, if there
is one: this holds of a download exactly when the announced length is a number and a bar that is
shown has a label, and of a text exactly when it can be made of the body.
-/

namespace StagedBuild

/-- The status of a reply that stands for a failure. -/
def Reply.failureStatus? : Reply → Option Int
  | .answered r => if 400 ≤ r.status ∧ r.status < 600 then some r.status else none
  | .failed _ => none

/-- Servers fail as transfers do, be it before they answer or in the middle of a body, and without a
status. An answer is refused exactly when its status stands for a failure. Making a text of a body
is no transfer of its own. -/
structure Surroundings.FailsInTransfer (around : Surroundings) : Prop where
  failed : ∀ asked w fault, around.server asked w = .failed fault →
    ∃ cause : TransferFault, fault = .transfer cause ∧ cause.status? = none
  broken : ∀ asked w r size fault, around.server asked w = .answered r →
    (r.body size).fault = some fault →
    ∃ cause : TransferFault, fault = .transfer cause ∧ cause.status? = none
  refused : ∀ asked w r, around.server asked w = .answered r →
    (r.refusal.isSome = true ↔ IsFailure r.status)
  text : ∀ asked w r fault, around.server asked w = .answered r → r.text = .error fault →
    ∀ cause, fault ≠ .download cause

namespace Transfer

open Action Disk FileTree

variable {α : Type} {around : Surroundings} {u v w : World} {settings : Settings} {url : String}
  {destination : Path} {showProgress : Bool} {r : Response} {fault : Fault}

/-- A transfer ends in a report on the reply: it returns something, unless the reply stands for a
failure, or it fails as a transfer of its purpose with the status that the reply has. -/
inductive Reports (purpose : TransferPurpose) (url : String) (reply : Reply) :
    Except Fault α → Prop where
  | returned (a : α) (accepted : reply.failureStatus? = none) : Reports purpose url reply (.ok a)
  | failed (cause : TransferFault) (status : cause.status? = reply.failureStatus?) :
    Reports purpose url reply (.error (.download ⟨purpose, url, cause⟩))

/-- What an accepted reply says about its body is understood: the length is a number, and a bar that
is shown for it can be labelled. -/
def Understood (url : String) (showProgress : Bool) (reply : Reply) : Prop :=
  ∀ r, reply = .answered r → r.refusal = none →
    ∃ total, announced r = .ok total ∧
      (showProgress = true → 0 < total → ∃ name, fileName url = .ok name)

/-- A text can be made of the body of an accepted reply. -/
def MakesText (reply : Reply) : Prop :=
  ∀ r, reply = .answered r → r.refusal = none → ∃ text, r.text = .ok text

/-- A download can be written: the directories for its destination can be made, and then neither at
the destination nor beside it, where the temporary file is to be, stands a directory. -/
structure Writable (destination : Path) (around : Surroundings) (w v : World) : Prop where
  name : destination.name ≠ ""
  made : perform (makeDirectories destination.parent) around w = (.ok (), v)
  temporary : CanWrite (temporaryFor destination) v.tree around.directory
  free : ¬ v.tree.isDirectory (goalOf around.directory destination) = true

section TakeIn

theorem failureStatus?_of_refused (h : IsFailure r.status) :
    (Reply.answered r).failureStatus? = some r.status :=
  if_pos h

theorem failureStatus?_of_accepted (h : ¬ IsFailure r.status) :
    (Reply.answered r).failureStatus? = none :=
  if_neg h

theorem takeIn_accepted (url : String) (showProgress : Bool) (h : r.refusal = none) :
    (Understood url showProgress (.answered r) ∧
        ∃ withBar, takeIn url showProgress (.answered r) = .ok ⟨r, withBar⟩) ∨
      ¬ Understood url showProgress (.answered r) ∧
        ∃ fault, takeIn url showProgress (.answered r) = .error (.value fault) := by
  rw [takeIn, h]
  dsimp only
  cases hlength : announced r with
  | error fault =>
      refine .inr ⟨fun hunderstood => ?_, _, rfl⟩
      obtain ⟨total, htotal, -⟩ := hunderstood r rfl h
      rw [hlength] at htotal
      cases htotal
  | ok total =>
      dsimp only
      unfold labelled
      cases hbar : showProgress && decide (0 < total) with
      | false =>
          refine .inl ⟨?_, false, rfl⟩
          rintro _ ⟨⟩ -
          refine ⟨total, hlength, fun hshow htotal => ?_⟩
          simp [hshow, htotal] at hbar
      | true =>
          rw [if_pos rfl]
          rw [Bool.and_eq_true, decide_eq_true_eq] at hbar
          cases hname : fileName url with
          | error fault =>
              refine .inr ⟨fun hunderstood => ?_, fault, rfl⟩
              obtain ⟨total', htotal', hlabel⟩ := hunderstood r rfl h
              obtain rfl := Except.ok.inj (hlength.symm.trans htotal')
              obtain ⟨name, hname'⟩ := hlabel hbar.1 hbar.2
              rw [hname] at hname'
              cases hname'
          | ok name =>
              refine .inl ⟨?_, true, rfl⟩
              rintro _ ⟨⟩ -
              exact ⟨total, hlength, fun _ _ => ⟨name, hname⟩⟩

end TakeIn

section Download

theorem exists_perform_giveUp (h : CanWrite (temporaryFor destination) u.tree around.directory)
    (url : String) (fault : Fault) :
    ∃ u', perform (giveUp url (temporaryFor destination) fault) around u =
      (.error (blame .download url fault), u') := by
  unfold giveUp
  by_cases hordinary : fault.isOrdinary = true
  · obtain ⟨u', hunlink⟩ := exists_perform_unlinkIfPresent h
    exact ⟨u', by rw [if_pos hordinary, perform_bind_ok hunlink]; rfl⟩
  · exact ⟨u, by rw [if_neg hordinary]; rfl⟩

theorem outcome_of_deliver_error (h : Writable destination around w v)
    (hdeliver : perform (deliver settings url (temporaryFor destination) showProgress) around v =
      (.error fault, u))
    (hfile : CanWrite (temporaryFor destination) u.tree around.directory) :
    (perform (download settings url destination showProgress) around w).1 =
      .error (blame .download url fault) := by
  have hdown : perform (downloadTo settings url destination (temporaryFor destination) showProgress)
      around v = (.error fault, u) := perform_bind_error hdeliver
  obtain ⟨u', hgive⟩ := exists_perform_giveUp hfile url fault
  rw [perform_download h.name, h.made]
  simp only [hdown, hgive]

variable (hcalm : ∀ w, around.interrupts w = false)

include hcalm

theorem perform_pause_bind_of_calm {β : Type} (next : Unit → Action β) (w : World) :
    perform (pause >>= next) around w = perform (next ()) around w := by
  rw [perform_pause_bind, hcalm w, if_neg Bool.false_ne_true]

theorem exists_perform_putInPlace (withBar : Bool) (hname : destination.name ≠ "")
    (hread : Readable (temporaryFor destination) u.tree around.directory)
    (hfree : ¬ u.tree.isDirectory (goalOf around.directory destination) = true) :
    ∃ u', perform (putInPlace (temporaryFor destination) destination withBar) around u =
      (.ok (), u') := by
  obtain ⟨y, hclose, htree⟩ : ∃ y, perform (closeBar withBar) around u = (.ok (), y) ∧
      y.tree = u.tree := by
    cases withBar
    · exact ⟨u, rfl, rfl⟩
    · exact ⟨_, rfl, rfl⟩
  rw [← htree] at hread hfree
  obtain ⟨hask, hloc⟩ := reaches_destination hname hread
  have hwrite : CanWrite destination y.tree around.directory := ⟨hask, hloc, hfree⟩
  obtain ⟨x, hunlink⟩ := exists_perform_unlinkIfPresent hwrite
  obtain ⟨u', hmove, -⟩ :=
    moved_of_cleared hname hread (cleared_of_unlinkIfPresent hname hread hunlink)
  refine ⟨u', ?_⟩
  rw [putInPlace, perform_pause_bind_of_calm hcalm, perform_bind_ok hclose,
    perform_pause_bind_of_calm hcalm, perform_bind_ok hunlink, perform_pause_bind_of_calm hcalm,
    hmove]

theorem outcome_of_deliver_ok {withBar : Bool} (h : Writable destination around w v)
    (hdeliver : perform (deliver settings url (temporaryFor destination) showProgress) around v =
      (.ok withBar, u))
    (hread : Readable (temporaryFor destination) u.tree around.directory)
    (hfree : ¬ u.tree.isDirectory (goalOf around.directory destination) = true) :
    (perform (download settings url destination showProgress) around w).1 = .ok destination := by
  obtain ⟨u', hplace⟩ := exists_perform_putInPlace hcalm withBar h.name hread hfree
  have hdown : perform (downloadTo settings url destination (temporaryFor destination) showProgress)
      around v = (.ok (), u') := by
    rw [downloadTo, perform_bind_ok hdeliver, perform_bind_ok hplace, perform_pause, hcalm,
      if_neg Bool.false_ne_true]
  rw [perform_download h.name, h.made]
  simp only [hdown]

theorem outcome_of_download (h : Writable destination around w v) :
    (perform (download settings url destination showProgress) around w).1 =
      match takenIn settings url showProgress around v with
      | .error fault => .error (blame .download url fault)
      | .ok intake =>
        match (intake.response.body settings.chunkSize).fault with
        | some fault => .error (blame .download url fault)
        | none => .ok destination := by
  have hdelivery := perform_deliver settings url (temporaryFor destination) showProgress around v
  rcases hdeliver : perform (deliver settings url (temporaryFor destination) showProgress) around v
    with ⟨fault | withBar, u⟩
  · rw [hdeliver] at hdelivery
    cases hdelivery with
    | refused htaken htree _ =>
        rw [htaken]
        exact outcome_of_deliver_error h hdeliver (htree ▸ h.temporary)
    | unwritable _ hfile => exact absurd h.temporary hfile
    | broken htaken _ hfault hread =>
        rw [htaken]
        simp only [hfault]
        exact outcome_of_deliver_error h hdeliver hread.canWrite
  · rw [hdeliver] at hdelivery
    cases hdelivery with
    | delivered hdelivered =>
        have hfree : ¬ u.tree.isDirectory (goalOf around.directory destination) = true := by
          rw [isDirectory_congr (hdelivered.others _ (goalOf_ne_temporary h.name around.directory))]
          exact h.free
        rw [hdelivered.taken]
        simp only [hdelivered.unbroken]
        exact outcome_of_deliver_ok hcalm h hdeliver ⟨_, hdelivered.bytes⟩ hfree

theorem reports_download (hfails : around.FailsInTransfer) (h : Writable destination around w v)
    (hunderstood : Understood url showProgress
      (around.server ⟨url, true, settings.timeout⟩ v)) :
    Reports .download url (around.server ⟨url, true, settings.timeout⟩ v)
      (perform (download settings url destination showProgress) around w).1 := by
  rw [outcome_of_download hcalm h, takenIn]
  cases hserver : around.server ⟨url, true, settings.timeout⟩ v with
  | failed fault =>
      obtain ⟨cause, rfl, hstatus⟩ := hfails.failed _ _ _ hserver
      exact .failed cause hstatus
  | answered r =>
      have hrefused := hfails.refused _ _ r hserver
      cases hrefusal : r.refusal with
      | some text =>
          rw [takeIn, hrefusal]
          rw [hrefusal] at hrefused
          exact .failed (.refused r.status text) (failureStatus?_of_refused (hrefused.1 rfl)).symm
      | none =>
          have haccepted : (Reply.answered r).failureStatus? = none :=
            failureStatus?_of_accepted (by rw [← hrefused, hrefusal]; simp)
          rw [hserver] at hunderstood
          rcases takeIn_accepted url showProgress hrefusal with ⟨-, withBar, htaken⟩ | ⟨hnot, -⟩
          · rw [htaken]
            dsimp only
            cases hbody : (r.body settings.chunkSize).fault with
            | some fault =>
                obtain ⟨cause, rfl, hstatus⟩ := hfails.broken _ _ _ _ _ hserver hbody
                exact .failed cause (hstatus.trans haccepted.symm)
            | none => exact .returned destination haccepted
          · exact absurd hunderstood hnot

theorem value_of_download (h : Writable destination around w v)
    (hnot : ¬ Understood url showProgress (around.server ⟨url, true, settings.timeout⟩ v)) :
    ∃ fault, (perform (download settings url destination showProgress) around w).1 =
      .error (.value fault) := by
  rw [outcome_of_download hcalm h, takenIn]
  cases hserver : around.server ⟨url, true, settings.timeout⟩ v with
  | failed fault =>
      rw [hserver] at hnot
      exact absurd (by rintro _ ⟨⟩) hnot
  | answered r =>
      rw [hserver] at hnot
      cases hrefusal : r.refusal with
      | some text =>
          refine absurd ?_ hnot
          rintro _ ⟨⟩ haccepted
          cases hrefusal.symm.trans haccepted
      | none =>
          rcases takeIn_accepted url showProgress hrefusal with ⟨hunderstood, -⟩ |
            ⟨-, fault, htaken⟩
          · exact absurd hunderstood hnot
          · exact ⟨fault, by rw [htaken]; rfl⟩

end Download

section Text

theorem outcome_of_textAt (settings : Settings) (url : String) (around : Surroundings) (w : World) :
    (perform (textAt settings url) around w).1 =
      match around.server ⟨url, false, settings.timeout⟩ w with
      | .failed fault => .error (blame .fetch url fault)
      | .answered r =>
        match r.refusal with
        | some text => .error (.download ⟨.fetch, url, .refused r.status text⟩)
        | none => r.text := by
  unfold textAt
  rw [perform_bind, perform_outcome, perform_bind, perform_request]
  cases around.server ⟨url, false, settings.timeout⟩ w with
  | failed fault => rfl
  | answered r =>
      dsimp only
      rw [perform_bind, checkStatus]
      cases r.refusal with
      | some text => rfl
      | none => exact congrArg Prod.fst (perform_ofExcept_id r.text around _)

theorem reports_textAt (hfails : around.FailsInTransfer)
    (htext : MakesText (around.server ⟨url, false, settings.timeout⟩ w)) :
    Reports .fetch url (around.server ⟨url, false, settings.timeout⟩ w)
      (perform (textAt settings url) around w).1 := by
  rw [outcome_of_textAt]
  cases hserver : around.server ⟨url, false, settings.timeout⟩ w with
  | failed fault =>
      obtain ⟨cause, rfl, hstatus⟩ := hfails.failed _ _ _ hserver
      exact .failed cause hstatus
  | answered r =>
      have hrefused := hfails.refused _ _ r hserver
      rw [hserver] at htext
      cases hrefusal : r.refusal with
      | some text =>
          rw [hrefusal] at hrefused
          simp only [hrefusal]
          exact .failed (.refused r.status text) (failureStatus?_of_refused (hrefused.1 rfl)).symm
      | none =>
          obtain ⟨text, hmade⟩ := htext r rfl hrefusal
          simp only [hrefusal, hmade]
          exact .returned text
            (failureStatus?_of_accepted (by rw [← hrefused, hrefusal]; simp))

theorem outcome_of_textAt_unmade
    (hnot : ¬ MakesText (around.server ⟨url, false, settings.timeout⟩ w)) :
    ∃ r fault, around.server ⟨url, false, settings.timeout⟩ w = .answered r ∧
      r.text = .error fault ∧ (perform (textAt settings url) around w).1 = .error fault := by
  simp only [MakesText, not_forall] at hnot
  obtain ⟨r, hserver, haccepted, hmade⟩ := hnot
  cases htext : r.text with
  | ok text => exact absurd ⟨text, htext⟩ hmade
  | error fault =>
      refine ⟨r, fault, hserver, htext, ?_⟩
      rw [outcome_of_textAt, hserver]
      simp only [haccepted, htext]

end Text

theorem not_reports_error {purpose : TransferPurpose} {reply : Reply} {ended : Except Fault α}
    (h : ended = .error fault) (hother : ∀ cause, fault ≠ .download cause) :
    ¬ Reports purpose url reply ended := by
  rintro (⟨a, -⟩ | ⟨cause, -⟩)
  · cases h
  · cases h
    exact hother _ rfl

/-- Where a download can be written, servers fail as transfers do and nobody interrupts, a download
ends in a report on the reply exactly when this is understood, and otherwise in a value that cannot
be used. A text ends in a report exactly when it can be made of the body, and otherwise as that
ends. -/
theorem transfers_report_iff (settings : Settings) (url : String) (showProgress : Bool)
    (hfails : around.FailsInTransfer) (hcalm : ∀ w, around.interrupts w = false)
    (h : Writable destination around w v) :
    (Reports .download url (around.server ⟨url, true, settings.timeout⟩ v)
        (perform (download settings url destination showProgress) around w).1 ↔
      Understood url showProgress (around.server ⟨url, true, settings.timeout⟩ v)) ∧
    (¬ Understood url showProgress (around.server ⟨url, true, settings.timeout⟩ v) →
      ∃ fault, (perform (download settings url destination showProgress) around w).1 =
        .error (.value fault)) ∧
    (Reports .fetch url (around.server ⟨url, false, settings.timeout⟩ w)
        (perform (textAt settings url) around w).1 ↔
      MakesText (around.server ⟨url, false, settings.timeout⟩ w)) ∧
    (¬ MakesText (around.server ⟨url, false, settings.timeout⟩ w) →
      ∃ r fault, around.server ⟨url, false, settings.timeout⟩ w = .answered r ∧
        r.text = .error fault ∧ (perform (textAt settings url) around w).1 = .error fault) := by
  refine ⟨⟨fun hreports => ?_, reports_download hcalm hfails h⟩, value_of_download hcalm h,
    ⟨fun hreports => ?_, reports_textAt hfails⟩, outcome_of_textAt_unmade⟩
  · by_contra hnot
    obtain ⟨fault, hended⟩ := value_of_download hcalm h hnot
    exact not_reports_error hended (fun _ => nofun) hreports
  · by_contra hnot
    obtain ⟨r, fault, hserver, htext, hended⟩ := outcome_of_textAt_unmade hnot
    exact not_reports_error hended (hfails.text _ _ r fault hserver htext) hreports

section Breaking

/-- Surroundings in which the address of a missing file is refused, and every other body breaks off
after two of the three bytes that are announced. A request that brings the whole body fails then. -/
def aroundBreaking : Surroundings :=
  { Surroundings.still [] with
    server := fun asked _ =>
      if asked.url = "http://h/gone" then .answered (.notFound asked.url)
      else if asked.streamed then
        .answered (.ofBytes (some "3") [80, 75, 5] (some (2, .transfer (.connection "reset"))))
      else .failed (.transfer (.connection "reset")) }

theorem server_breaking (asked : Request) (w : World) :
    aroundBreaking.server asked w = .answered (.notFound asked.url) ∨
      aroundBreaking.server asked w = .answered
        (.ofBytes (some "3") [80, 75, 5] (some (2, .transfer (.connection "reset")))) ∨
      aroundBreaking.server asked w = .failed (.transfer (.connection "reset")) := by
  by_cases hgone : asked.url = "http://h/gone"
  · exact .inl (if_pos hgone)
  · cases hstreamed : asked.streamed
    · exact .inr (.inr (by simp [aroundBreaking, hgone, hstreamed]))
    · exact .inr (.inl (by simp [aroundBreaking, hgone, hstreamed]))

theorem failsInTransfer_breaking : aroundBreaking.FailsInTransfer where
  failed asked w fault h := by
    rcases server_breaking asked w with h' | h' | h' <;> rw [h'] at h <;> cases h
    exact ⟨_, rfl, rfl⟩
  broken asked w r size fault h hbroken := by
    rcases server_breaking asked w with h' | h' | h' <;> rw [h'] at h <;> cases h <;> cases hbroken
    exact ⟨_, rfl, rfl⟩
  refused asked w r h := by
    rcases server_breaking asked w with h' | h' | h' <;> rw [h'] at h <;> cases h
    · exact iff_of_true rfl (isFailure_notFound _)
    · exact iff_of_false nofun (not_isFailure_ofBytes _ _ _)
  text asked w r fault h htext := by
    rcases server_breaking asked w with h' | h' | h' <;> rw [h'] at h <;> cases h <;> cases htext
    nofun

theorem writable_jar (around : Surroundings) (hroot : around.directory = []) :
    Writable (.parse "/t.jar") around (.ofTree .empty) (.ofTree .empty) where
  name := by decide
  made := perform_makeDirectories_there (by
    rw [hroot]
    exact answerAt_eq_some_iff.2 ⟨by decide, rfl, rfl⟩)
  temporary := by
    rw [hroot]
    exact ⟨by decide +kernel, rfl, by decide⟩
  free := by
    rw [hroot]
    decide

/-- A body that breaks off is reported, of a file and of a text, and so is a refusal. -/
theorem broken_body_is_reported :
    aroundBreaking.FailsInTransfer ∧ (∀ w, aroundBreaking.interrupts w = false) ∧
      Writable (.parse "/t.jar") aroundBreaking (.ofTree .empty) (.ofTree .empty) ∧
      Reports .download "http://h/t.jar"
        (aroundBreaking.server ⟨"http://h/t.jar", true, 30⟩ (.ofTree .empty))
        (perform (download .default "http://h/t.jar" (.parse "/t.jar") true) aroundBreaking
          (.ofTree .empty)).1 ∧
      Reports .fetch "http://h/t.jar"
        (aroundBreaking.server ⟨"http://h/t.jar", false, 30⟩ (.ofTree .empty))
        (perform (textAt .default "http://h/t.jar") aroundBreaking (.ofTree .empty)).1 ∧
      Reports .fetch "http://h/gone"
        (aroundBreaking.server ⟨"http://h/gone", false, 30⟩ (.ofTree .empty))
        (perform (textAt .default "http://h/gone") aroundBreaking (.ofTree .empty)).1 := by
  have hwrite := writable_jar aroundBreaking rfl
  have hcalm : ∀ w, aroundBreaking.interrupts w = false := fun _ => rfl
  have hjar := transfers_report_iff .default "http://h/t.jar" true failsInTransfer_breaking hcalm
    hwrite
  have hgone := transfers_report_iff .default "http://h/gone" true failsInTransfer_breaking hcalm
    hwrite
  refine ⟨failsInTransfer_breaking, hcalm, hwrite, hjar.1.2 ?_, hjar.2.2.1.2 ?_, hgone.2.2.1.2 ?_⟩
  · rintro r ⟨⟩ -
    exact ⟨3, by decide, fun _ _ => ⟨"t.jar", by decide +kernel⟩⟩
  · rintro r ⟨⟩
  · rintro r ⟨⟩ haccepted
    cases haccepted

end Breaking

section Announcing

/-- Surroundings in which every body is announced with the same text. -/
def aroundAnnouncing (length : String) : Surroundings :=
  { Surroundings.still [] with
    server := fun _ _ => .answered (.ofBytes (some length) [80, 75, 5] none) }

theorem failsInTransfer_announcing (length : String) :
    (aroundAnnouncing length).FailsInTransfer where
  failed _ _ _ h := by cases h
  broken _ _ _ _ _ h hbroken := by
    cases h
    cases hbroken
  refused _ _ _ h := by
    cases h
    exact iff_of_false nofun (not_isFailure_ofBytes _ _ _)
  text _ _ _ _ h htext := by
    cases h
    cases htext

/-- An announced length that is no number ends a download in something else than a report, although
the server has failed in nothing and the disk can be written. -/
theorem unreadable_length_is_not_reported :
    (aroundAnnouncing "abc").FailsInTransfer ∧
      (∀ w, (aroundAnnouncing "abc").interrupts w = false) ∧
      Writable (.parse "/t.jar") (aroundAnnouncing "abc") (.ofTree .empty) (.ofTree .empty) ∧
      ¬ Reports .download "http://h/t.jar"
        ((aroundAnnouncing "abc").server ⟨"http://h/t.jar", true, 30⟩ (.ofTree .empty))
        (perform (download .default "http://h/t.jar" (.parse "/t.jar") true)
          (aroundAnnouncing "abc") (.ofTree .empty)).1 := by
  have hended : (perform (download .default "http://h/t.jar" (.parse "/t.jar") true)
      (aroundAnnouncing "abc") (.ofTree .empty)).1 =
        .error (.value (.numeral (.malformed "abc"))) := by
    rw [outcome_of_download (fun _ => rfl) (writable_jar (aroundAnnouncing "abc") rfl)]
    decide
  exact ⟨failsInTransfer_announcing "abc", fun _ => rfl,
    writable_jar (aroundAnnouncing "abc") rfl, not_reports_error hended fun _ => nofun⟩

end Announcing

end Transfer

end StagedBuild
