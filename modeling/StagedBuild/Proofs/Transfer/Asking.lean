import StagedBuild.Proofs.Action.Faults
import StagedBuild.Proofs.Transfer.Replacement

/-!
What a download asks and how it is refused. It makes one request, as soon as the directories for its
destination are there. It reports a status exactly when the server has answered with one that stands
for a failure, and what an earlier download left behind could be cleared away.
-/

namespace StagedBuild

open Action Disk

variable {around : Surroundings} {w w' : World}

namespace World

theorem requests_requesting (w : World) (asked : Request) :
    (w.requesting asked).requests = w.requests ++ [asked] := by
  simp [requesting, requests, events]

/-- From one world to another no request is made. -/
def AsksNothing (w w' : World) : Prop :=
  w'.requests = w.requests

instance : Transfer.AnyPausedWork AsksNothing where
  refl _ := rfl
  trans h h' := h'.trans h
  changed w _ := by simp [AsksNothing, requests, events]
  opened w _ _ := by simp [AsksNothing, requests, events]
  moved w _ := by simp [AsksNothing, requests, events]
  closed w := by simp [AsksNothing, requests, events]
  interrupted w := by simp [AsksNothing, brokenOff, requests, events]

end World

/-- A fault that comes from outside: it is none of those by which the program reports on servers and
repositories. -/
def Fault.IsOutside : Fault → Prop
  | .download _ | .resolution _ | .transfer (.refused _ _) => False
  | _ => True

theorem Fault.IsRefusal.isOutside {fault : Fault} (h : fault.IsRefusal) : fault.IsOutside := by
  cases fault <;> first | exact h.elim | trivial

/-- A status that stands for a failure. -/
def IsFailure (status : Int) : Prop :=
  400 ≤ status ∧ status < 600

/-- Servers fail in ways of their own, be it before they answer or in the middle of a body. An
answer is refused exactly when its status stands for a failure. -/
structure Surroundings.SpeaksHttp (around : Surroundings) : Prop where
  failed : ∀ asked w fault, around.server asked w = .failed fault → fault.IsOutside
  broken : ∀ asked w r size fault, around.server asked w = .answered r →
    (r.body size).fault = some fault → fault.IsOutside
  refused : ∀ asked w r, around.server asked w = .answered r →
    (r.refusal.isSome = true ↔ IsFailure r.status)

namespace Transfer

open FileTree

variable {settings : Settings} {url : String} {destination temporary : Path} {showProgress : Bool}
  {fault : Fault} {v : World} {r : Response}

theorem isFailure_notFound (url : String) : IsFailure (Response.notFound url).status := by
  change (400 : Int) ≤ 404 ∧ (404 : Int) < 600
  decide

theorem not_isFailure_ofBytes (length : Option String) (bytes : List UInt8)
    (cut : Option (Nat × Fault)) : ¬ IsFailure (Response.ofBytes length bytes cut).status := by
  change ¬ ((400 : Int) ≤ 200 ∧ (200 : Int) < 600)
  decide

theorem requests_of_download (hname : destination.name ≠ "")
    (hmake : perform (makeDirectories destination.parent) around w = (.ok (), v)) :
    (perform (download settings url destination showProgress) around w).2.requests =
      w.requests ++ [⟨url, true, settings.timeout⟩] := by
  have hasks : Keeps around World.AsksNothing (makeDirectories destination.parent) :=
    keeps_makeDirectories _
  have hrequests : v.requests = w.requests := hasks.of_perform hmake
  have hwork : World.AsksNothing (v.requesting ⟨url, true, settings.timeout⟩)
      (perform (download settings url destination showProgress) around w).2 :=
    work_of_download hname hmake
  rw [hwork, World.requests_requesting, hrequests]

section Refusal

variable {text : String}

theorem perform_downloadTo_refused (destination temporary : Path) (showProgress : Bool)
    (hserver : around.server ⟨url, true, settings.timeout⟩ w = .answered r)
    (hrefusal : r.refusal = some text) :
    perform (downloadTo settings url destination temporary showProgress) around w =
      (.error (.transfer (.refused r.status text)),
        w.requesting ⟨url, true, settings.timeout⟩) := by
  have hreceive : perform (receive settings url) around w =
      (.error (.transfer (.refused r.status text)),
        w.requesting ⟨url, true, settings.timeout⟩) := by
    rw [perform_receive, hserver]
    simp only [hrefusal]
  exact perform_bind_error (perform_bind_error (perform_bind_error hreceive))

theorem outside_of_takeIn {reply : Reply} (hfailed : ∀ fault, reply = .failed fault →
      fault.IsOutside) (haccepted : ∀ r, reply = .answered r → r.refusal = none)
    (h : takeIn url showProgress reply = .error fault) : fault.IsOutside := by
  cases reply with
  | failed cause =>
      cases h
      exact hfailed _ rfl
  | answered r =>
      rw [takeIn, haccepted r rfl] at h
      dsimp only at h
      cases hlength : announced r with
      | error cause =>
          rw [hlength] at h
          cases h
          trivial
      | ok total =>
          rw [hlength] at h
          dsimp only at h
          cases hlabel : labelled url showProgress total with
          | error cause =>
              rw [hlabel] at h
              cases h
              trivial
          | ok withBar =>
              rw [hlabel] at h
              cases h

variable (hname : destination.name ≠ "") (hspeaks : around.SpeaksHttp)

include hname hspeaks

theorem outside_of_downloadTo
    (haccepted : ∀ r, around.server ⟨url, true, settings.timeout⟩ w = .answered r →
      r.refusal = none)
    (h : perform (downloadTo settings url destination (temporaryFor destination) showProgress)
      around w = (.error fault, w')) : fault.IsOutside := by
  have hattempt := perform_downloadTo settings url showProgress around w hname
  rw [h] at hattempt
  cases hattempt with
  | undelivered _ hdelivery =>
      cases hdelivery with
      | refused htaken _ _ =>
          exact outside_of_takeIn (fun _ => hspeaks.failed _ _ _) haccepted htaken
      | unwritable _ _ hrefusal => exact hrefusal.isOutside
      | broken htaken _ hfault =>
          exact hspeaks.broken _ _ _ _ _ (served_of_takenIn htaken).answered hfault
  | unplaced _ _ _ hplacement =>
      cases hplacement with
      | waiting _ _ => trivial
      | untouched _ hfault _ _ =>
          rcases hfault with rfl | hrefusal
          · trivial
          · exact hrefusal.isOutside
      | cleared _ _ _ => trivial
  | interrupted _ _ _ _ => trivial

/-- A download to a temporary file reports a status only where the server has answered with it, and
then nothing has come of it. -/
theorem fault_of_downloadTo
    (h : perform (downloadTo settings url destination (temporaryFor destination) showProgress)
      around w = (.error fault, w')) :
    fault.IsOutside ∨ ∃ r text, around.server ⟨url, true, settings.timeout⟩ w = .answered r ∧
      r.refusal = some text ∧ IsFailure r.status ∧ fault = .transfer (.refused r.status text) ∧
      w' = w.requesting ⟨url, true, settings.timeout⟩ := by
  by_cases haccepted : ∀ r, around.server ⟨url, true, settings.timeout⟩ w = .answered r →
      r.refusal = none
  · exact .inl (outside_of_downloadTo hname hspeaks haccepted h)
  · simp only [not_forall] at haccepted
    obtain ⟨r, hserver, hrefused⟩ := haccepted
    obtain ⟨text, htext⟩ := Option.ne_none_iff_exists'.1 hrefused
    rw [perform_downloadTo_refused destination _ showProgress hserver htext] at h
    cases h
    exact .inr ⟨r, text, hserver, htext, (hspeaks.refused _ _ r hserver).1 (by simp [htext]), rfl,
      rfl⟩

end Refusal

theorem refused_rename (source target : Path) :
    FailsOnly Fault.IsRefusal (rename source target) := by
  intro around w
  rw [perform_rename]
  split
  · split
    · exact OnlyFaults.ok ()
    · exact OnlyFaults.error trivial
  · exact OnlyFaults.error trivial

theorem blame_of_isOutside (h : fault.IsOutside) (url : String) :
    (blame .download url fault).IsOutside ∨
      ∃ cause, blame .download url fault = .download ⟨.download, url, cause⟩ ∧
        cause.status? = none := by
  cases fault with
  | transfer cause =>
      cases cause with
      | refused _ _ => exact h.elim
      | _ => exact .inr ⟨_, rfl, rfl⟩
  | _ => exact .inl h

section Download

variable (hname : destination.name ≠ "")

include hname

theorem perform_download_refused {text : String}
    (hmake : perform (makeDirectories destination.parent) around w = (.ok (), v))
    (hserver : around.server ⟨url, true, settings.timeout⟩ v = .answered r)
    (hrefusal : r.refusal = some text) :
    perform (download settings url destination showProgress) around w =
      match perform (unlinkIfPresent (temporaryFor destination)) around
        (v.requesting ⟨url, true, settings.timeout⟩) with
      | (.ok _, w') => (.error (.download ⟨.download, url, .refused r.status text⟩), w')
      | (.error fault, w') => (.error fault, w') := by
  rw [perform_download hname, hmake]
  simp only [perform_downloadTo_refused destination _ showProgress hserver hrefusal]
  have hordinary : (Fault.transfer (.refused r.status text)).isOrdinary = true := rfl
  rw [giveUp, if_pos hordinary, perform_bind]
  rcases perform (unlinkIfPresent (temporaryFor destination)) around
    (v.requesting ⟨url, true, settings.timeout⟩) with ⟨_ | _, _⟩ <;> rfl

variable (hspeaks : around.SpeaksHttp)

include hspeaks

theorem fault_of_download
    (h : perform (download settings url destination showProgress) around w = (.error fault, w')) :
    fault.IsOutside ∨ (∃ cause, fault = .download ⟨.download, url, cause⟩ ∧
        cause.status? = none) ∨
      ∃ v r text, perform (makeDirectories destination.parent) around w = (.ok (), v) ∧
        around.server ⟨url, true, settings.timeout⟩ v = .answered r ∧ IsFailure r.status ∧
        perform (unlinkIfPresent (temporaryFor destination)) around
          (v.requesting ⟨url, true, settings.timeout⟩) = (.ok (), w') ∧
        fault = .download ⟨.download, url, .refused r.status text⟩ := by
  rcases hmake : perform (makeDirectories destination.parent) around w with ⟨cause | _, v⟩
  · rw [perform_download hname, hmake] at h
    cases h
    exact .inl ((refused_makeDirectories _).of_perform hmake).isOutside
  rcases hdown : perform (downloadTo settings url destination (temporaryFor destination)
    showProgress) around v with ⟨cause | _, u⟩
  · rcases fault_of_downloadTo hname hspeaks hdown with houtside |
      ⟨r, text, hserver, hrefusal, hstatus, rfl, rfl⟩
    · rw [perform_download hname, hmake] at h
      simp only [hdown] at h
      rw [giveUp] at h
      by_cases hordinary : cause.isOrdinary = true
      · rw [if_pos hordinary, perform_bind] at h
        rcases hunlink : perform (unlinkIfPresent (temporaryFor destination)) around u with
          ⟨fault' | _, u'⟩
        · rw [hunlink] at h
          cases h
          exact .inl ((refused_unlinkIfPresent _).of_perform hunlink).isOutside
        · rw [hunlink] at h
          obtain rfl := Except.error.inj (Prod.mk.inj h).1
          rcases blame_of_isOutside houtside url with h | h
          · exact .inl h
          · exact .inr (.inl h)
      · rw [if_neg hordinary] at h
        obtain rfl := Except.error.inj (Prod.mk.inj h).1
        rcases blame_of_isOutside houtside url with h | h
        · exact .inl h
        · exact .inr (.inl h)
    · rw [perform_download_refused hname hmake hserver hrefusal] at h
      rcases hunlink : perform (unlinkIfPresent (temporaryFor destination)) around
        (v.requesting ⟨url, true, settings.timeout⟩) with ⟨fault' | _, u'⟩
      · rw [hunlink] at h
        cases h
        exact .inl ((refused_unlinkIfPresent _).of_perform hunlink).isOutside
      · rw [hunlink] at h
        cases h
        exact .inr (.inr ⟨v, r, text, rfl, hserver, hstatus, hunlink, rfl⟩)
  · rw [perform_download hname, hmake] at h
    simp only [hdown] at h
    cases h

/-- A download reports a status exactly when a server has answered with it, it stands for a failure,
and what was left behind could be cleared away. -/
theorem status_of_download_iff {status : Int} :
    (∃ cause, perform (download settings url destination showProgress) around w =
        (.error (.download cause), w') ∧ cause.status? = some status) ↔
      ∃ v r, perform (makeDirectories destination.parent) around w = (.ok (), v) ∧
        around.server ⟨url, true, settings.timeout⟩ v = .answered r ∧ IsFailure r.status ∧
        r.status = status ∧
        perform (unlinkIfPresent (temporaryFor destination)) around
          (v.requesting ⟨url, true, settings.timeout⟩) = (.ok (), w') := by
  constructor
  · rintro ⟨cause, h, hstatus⟩
    rcases fault_of_download hname hspeaks h with houtside | ⟨cause', heq, hnone⟩ |
      ⟨v, r, text, hmake, hserver, hfailure, hunlink, heq⟩
    · exact houtside.elim
    · cases heq
      rw [DownloadFault.status?, hnone] at hstatus
      cases hstatus
    · cases heq
      exact ⟨v, r, hmake, hserver, hfailure, Option.some.inj hstatus, hunlink⟩
  · rintro ⟨v, r, hmake, hserver, hfailure, rfl, hunlink⟩
    obtain ⟨text, hrefusal⟩ :=
      Option.isSome_iff_exists.1 ((hspeaks.refused _ _ r hserver).2 hfailure)
    refine ⟨⟨.download, url, .refused r.status text⟩, ?_, rfl⟩
    rw [perform_download_refused hname hmake hserver hrefusal, hunlink]

end Download

end Transfer

end StagedBuild
