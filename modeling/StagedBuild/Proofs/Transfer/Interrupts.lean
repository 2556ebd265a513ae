import StagedBuild.Proofs.Action.Interrupts
import StagedBuild.Proofs.Transfer.Leftovers
import StagedBuild.Proofs.Transfer.Outcomes

/-!
Interrupts while a server is waited for. A request raises one when the server gives none but that
for an answer, or when the text or the file that is made of the answer breaks off in one. A body of
which a file is made is read only where the response is taken in and the file can be written.
-/

namespace StagedBuild

open Action Disk

/-- Work on the disk, moves of a bar, and warnings. -/
def Event.IsWork : Event → Prop
  | .changed _ | .warned _ | .barOpened _ _ | .barMoved _ | .barClosed => True
  | _ => False

instance : Transfer.AnyWork (Tells Event.IsWork) where
  changed w _ := Tells.changed (by trivial) w
  opened w _ _ := Tells.note (by trivial) (by trivial) w
  moved w _ := Tells.note (by trivial) (by trivial) w
  closed w := Tells.note (by trivial) (by trivial) w

namespace Transfer

variable {around : Surroundings} {t : FileTree} {place : String → Path → Prop}
  {sort : Event → Prop} {v w w' : World} {settings : Settings} {url : String}
  {destination : Path} {showProgress : Bool} {r : Response} {fault : Fault}

/-- A request raises an interrupt in the world in which it is made. The place of an address is where
the file that it leads to goes. -/
inductive Interrupts (around : Surroundings) (settings : Settings) (place : String → Path → Prop)
    (asked : Request) (v : World) : Prop
  | unanswered : around.server asked v = .failed .interrupted →
      Interrupts around settings place asked v
  | text {r : Response} :
      asked.streamed = false → around.server asked v = .answered r → r.refusal = none →
      r.text = .error .interrupted → Interrupts around settings place asked v
  | file {destination : Path} {intake : Intake} :
      asked.streamed = true → place asked.url destination →
      takeIn asked.url true (around.server asked v) = .ok intake →
      CanWrite (temporaryFor destination) v.tree around.directory →
      (intake.response.body settings.chunkSize).fault = some .interrupted →
      Interrupts around settings place asked v

/-- What raises an interrupt is a request, or the user while a download is finished. -/
def RequestRaises (around : Surroundings) (settings : Settings) (place : String → Path → Prop) :
    Event → World → Prop
  | .requested asked, v => Interrupts around settings place asked v
  | .interrupted, _ => True
  | _, _ => False

theorem not_requestRaises_work (e : Event) (he : e.IsWork) (v : World) :
    ¬ RequestRaises around settings place e v := by
  cases e <;> first | exact he.elim | exact not_false

theorem interrupted_requesting {asked : Request} (ht : Chronicled t v) :
    (v.requesting asked).Interrupted (RequestRaises around settings place) t ↔
      Interrupts around settings place asked v ∨
        v.Interrupted (RequestRaises around settings place) t :=
  interrupted_cons ht

section Text

theorem world_of_textAt (settings : Settings) (url : String) (around : Surroundings) (w : World) :
    (perform (textAt settings url) around w).2 =
      w.requesting ⟨url, false, settings.timeout⟩ := by
  unfold textAt
  rw [perform_bind, perform_outcome, perform_bind, perform_request]
  cases around.server ⟨url, false, settings.timeout⟩ w with
  | failed fault => rfl
  | answered r =>
      dsimp only
      rw [perform_bind, checkStatus]
      cases r.refusal with
      | some text => rfl
      | none => exact congrArg Prod.snd (perform_ofExcept_id r.text around _)

theorem endsIn_textAt_iff : EndsIn around w (textAt settings url) .interrupted ↔
    Interrupts around settings place ⟨url, false, settings.timeout⟩ w := by
  rw [EndsIn, outcome_of_textAt]
  constructor
  · intro hends
    cases hserver : around.server ⟨url, false, settings.timeout⟩ w with
    | failed fault =>
        rw [hserver] at hends
        refine .unanswered (hserver.trans ?_)
        cases fault <;> simp_all [blame]
    | answered r =>
        simp only [hserver] at hends
        cases hrefusal : r.refusal with
        | some text =>
            rw [hrefusal] at hends
            cases hends
        | none =>
            rw [hrefusal] at hends
            exact .text rfl hserver hrefusal hends
  · rintro (hfailed | ⟨-, hanswered, haccepted, htext⟩ | ⟨hstreamed, -⟩)
    · rw [hfailed]
      rfl
    · simp only [hanswered, haccepted, htext]
    · cases hstreamed

variable (hasked : ∀ asked, sort (.requested asked))

include hasked

theorem surfaces_textAt (settings : Settings) (url : String) :
    Surfaces sort (RequestRaises around settings place) t around (textAt settings url) := by
  intro w ht
  refine ⟨?_, ?_⟩
  · rw [world_of_textAt]
    exact Tells.note (hasked _) (by trivial) w
  · rw [world_of_textAt, interrupted_requesting ht, endsIn_textAt_iff, or_comm]

end Text

section Download

theorem takeIn_interrupted_iff {reply : Reply} :
    takeIn url showProgress reply = .error .interrupted ↔ reply = .failed .interrupted := by
  cases reply with
  | failed fault => simp [takeIn]
  | answered r =>
      rw [takeIn]
      cases r.refusal with
      | some text => simp
      | none =>
          dsimp only
          rcases announced r with _ | total
          · simp
          · dsimp only
            cases labelled url showProgress total <;> simp [mapError_ok, mapError_error, Except.map]

theorem endsIn_deliver_iff (hplace : ∀ p, place url p ↔ p = destination) :
    EndsIn around v (deliver settings url (temporaryFor destination) true) .interrupted ↔
      Interrupts around settings place ⟨url, true, settings.timeout⟩ v := by
  have hiff : Interrupts around settings place ⟨url, true, settings.timeout⟩ v ↔
      takenIn settings url true around v = .error .interrupted ∨
        ∃ intake, takenIn settings url true around v = .ok intake ∧
          CanWrite (temporaryFor destination) v.tree around.directory ∧
          (intake.response.body settings.chunkSize).fault = some .interrupted := by
    rw [takenIn, takeIn_interrupted_iff]
    constructor
    · rintro (hfailed | ⟨hstreamed, -⟩ | ⟨-, hp, htaken, hfile, hbroken⟩)
      · exact .inl hfailed
      · cases hstreamed
      · obtain rfl := (hplace _).1 hp
        exact .inr ⟨_, htaken, hfile, hbroken⟩
    · rintro (hfailed | ⟨intake, htaken, hfile, hbroken⟩)
      · exact .unanswered hfailed
      · exact .file rfl ((hplace _).2 rfl) htaken hfile hbroken
  have hdelivery := perform_deliver settings url (temporaryFor destination) true around v
  rw [hiff, EndsIn]
  cases hended : (perform (deliver settings url (temporaryFor destination) true) around v).1 with
  | error fault =>
      rw [hended] at hdelivery
      cases hdelivery with
      | refused htaken => simp [htaken]
      | unwritable htaken hfile hrefusal => simp [htaken, hfile, hrefusal.ne_interrupted]
      | broken htaken hfile hfault => simp [htaken, hfile, hfault]
  | ok withBar =>
      rw [hended] at hdelivery
      cases hdelivery with
      | delivered hdelivered => simp [hdelivered.taken, hdelivered.unbroken]

variable (hwork : ∀ e : Event, e.IsWork → sort e) (hasked : ∀ asked, sort (.requested asked))
  (hpaused : sort .interrupted)

include hwork hasked

theorem surfaces_deliver (hplace : ∀ p, place url p ↔ p = destination) :
    Surfaces sort (RequestRaises around settings place) t around
      (deliver settings url (temporaryFor destination) true) := by
  intro w ht
  have hafter : Tells Event.IsWork (w.requesting ⟨url, true, settings.timeout⟩)
      (perform (deliver settings url (temporaryFor destination) true) around w).2 :=
    work_of_deliver _ _ _ _ _ w
  refine ⟨Passage.trans (Tells.note (hasked _) (by trivial) w) (hafter.mono hwork), ?_⟩
  rw [hafter.interrupted_iff not_requestRaises_work, interrupted_requesting ht,
    endsIn_deliver_iff hplace, or_comm]

include hpaused

theorem surfaces_download (hname : destination.name ≠ "")
    (hplace : ∀ p, place url p ↔ p = destination) :
    Surfaces sort (RequestRaises around settings place) t around
      (download settings url destination true) := by
  have hcalm : ∀ {α : Type} {action : Action α}, Keeps around (Tells Event.IsWork) action →
      FailsOnly Fault.IsRefusal action →
      Surfaces sort (RequestRaises around settings place) t around action :=
    fun hkeeps honly => .of_calm hkeeps hwork not_requestRaises_work honly.ordinary
  have hpause : Surfaces sort (RequestRaises around settings place) t around pause :=
    .pause hpaused fun _ => trivial
  have hunlink : ∀ p, Surfaces sort (RequestRaises around settings place) t around
      (unlinkIfPresent p) := fun p =>
    hcalm (keeps_unlinkIfPresent (keeps_unlink p)) (refused_unlinkIfPresent p)
  have hclose : ∀ withBar, FailsOnly Fault.IsRefusal (closeBar withBar) := fun _ =>
    FailsOnly.ite (fun _ _ _ => OnlyFaults.ok ()) fun _ => FailsOnly.pure ()
  have hplacing : ∀ withBar, Surfaces sort (RequestRaises around settings place) t around
      (putInPlace (temporaryFor destination) destination withBar) := fun withBar =>
    hpause.bind fun _ => (hcalm (keeps_closeBar withBar) (hclose withBar)).bind fun _ =>
      hpause.bind fun _ => (hunlink destination).bind fun _ =>
      hpause.bind fun _ => hcalm (keeps_rename _ _) (refused_rename _ _)
  have hdown : Surfaces sort (RequestRaises around settings place) t around
      (downloadTo settings url destination (temporaryFor destination) true) :=
    (surfaces_deliver hwork hasked hplace).bind fun withBar =>
      (hplacing withBar).bind fun _ => hpause
  unfold download
  refine (hcalm (keeps_makeDirectories _) (refused_makeDirectories _)).bind fun _ => ?_
  simp only [withSuffix?_eq_temporary hname]
  refine Surfaces.outcome_bind hdown (fun _ => .pure _) (fun fault hfault => ?_) rfl
  have hne : blame .download url fault ≠ .interrupted := by
    cases fault <;> simp_all [blame]
  exact Surfaces.ite (fun _ => (hunlink _).bind fun _ => .throw hne) fun _ => .throw hne

end Download

end Transfer

end StagedBuild
