import StagedBuild.Artifact.PublishedTool
import StagedBuild.Proofs.Artifact.Search
import StagedBuild.Proofs.Transfer.Interrupts

/-!
Interrupts while artifacts are looked up. No handler takes one for the absence of a file or of a
manifest, so that looking up the jars of a tool surfaces every interrupt that a request raises.
-/

namespace StagedBuild.Artifact

open Action Disk Transfer

variable {α : Type} {around : Surroundings} {t : FileTree} {settings : Settings}
  {place : String → Path → Prop} {sort : Event → Prop} {w w' : World} {f f' : Resolver}
  {c : Coordinate} {p : Path}
  {action : Action α}

section Environment

/-- An action that looks at the surroundings only, and is not interrupted. -/
def LooksAround (around : Surroundings) (action : Action α) : Prop :=
  ∃ outcome : Except Fault α, outcome ≠ .error .interrupted ∧
    ∀ w, perform action around w = (outcome, w)

namespace LooksAround

variable {β : Type} {next : α → Action β}

theorem pure (a : α) : LooksAround around (Pure.pure a : Action α) :=
  ⟨.ok a, nofun, fun _ => rfl⟩

theorem error {fault : Fault} (h : fault ≠ .interrupted) :
    LooksAround around (throw fault : Action α) :=
  ⟨.error fault, by simpa using h, fun _ => rfl⟩

theorem read : LooksAround around (MonadReader.read : Action Surroundings) :=
  ⟨.ok around, nofun, fun _ => rfl⟩

theorem bind (h : LooksAround around action) (hnext : ∀ a, LooksAround around (next a)) :
    LooksAround around (action >>= next) := by
  obtain ⟨outcome, houtcome, hperform⟩ := h
  cases outcome with
  | error fault =>
      exact ⟨.error fault, by simpa using houtcome, fun w => perform_bind_error (hperform w)⟩
  | ok a =>
      obtain ⟨outcome', houtcome', hperform'⟩ := hnext a
      exact ⟨outcome', houtcome', fun w => (perform_bind_ok (hperform w)).trans (hperform' w)⟩

theorem ite {c : Prop} [Decidable c] {yes no : Action α} (hyes : LooksAround around yes)
    (hno : LooksAround around no) : LooksAround around (if c then yes else no) := by
  split
  · exact hyes
  · exact hno

theorem check {c : Prop} [Decidable c] {fault : Fault} (h : fault ≠ .interrupted)
    (haction : LooksAround around action) :
    LooksAround around (do
      if c then throw fault
      action) := by
  by_cases hc : c
  · rw [if_pos hc]
    exact (error h).bind fun _ => haction
  · rw [if_neg hc]
    exact haction

theorem unique {a b : α} {u u' v v' : World} (h : LooksAround around action)
    (ha : perform action around u = (.ok a, u')) (hb : perform action around v = (.ok b, v')) :
    a = b := by
  obtain ⟨outcome, -, hperform⟩ := h
  rw [hperform] at ha hb
  exact Except.ok.inj ((Prod.mk.inj ha).1.symm.trans (Prod.mk.inj hb).1)

end LooksAround

theorem looksAround_homeDirectory (step : String) : LooksAround around (homeDirectory step) := by
  unfold homeDirectory
  refine .check (by decide) (.bind .read fun around => ?_)
  dsimp only
  split
  · exact .ite (.error (by decide)) (.pure _)
  · exact .error (by decide)

theorem looksAround_expandUser (p : Path) : LooksAround around (expandUser p) := by
  unfold expandUser
  split
  · exact .ite (.pure _) ((looksAround_homeDirectory _).bind fun _ => .pure _)
  · exact .pure _

theorem looksAround_absolutePath (p : Path) : LooksAround around (absolutePath p) := by
  unfold absolutePath
  refine .check (by decide) (.bind ?_ fun _ => .pure _)
  exact .ite (.pure _) (.bind .read fun _ => .pure _)

theorem looksAround_ofEnvironment (around : Surroundings) :
    LooksAround around Resolver.ofEnvironment := by
  have hcache : ∀ environment, LooksAround around (usualCache environment) := by
    intro environment
    unfold usualCache
    split
    · exact (looksAround_expandUser _).bind fun _ => looksAround_absolutePath _
    · exact (looksAround_homeDirectory _).bind fun _ => .pure _
  unfold Resolver.ofEnvironment usualRepositories
  exact .bind .read fun _ => (hcache _).bind fun _ =>
    .bind ((looksAround_homeDirectory _).bind fun _ => .pure _) fun _ => .pure _

theorem of_perform_ofEnvironment
    (h : perform Resolver.ofEnvironment around w = (.ok f, w')) :
    f.settings = .default ∧ f.showProgress = true ∧
      ∃ root, f.repositories = [.onDisk root, .onWeb centralRepository] := by
  unfold Resolver.ofEnvironment usualRepositories at h
  obtain ⟨_, _, -, h⟩ := perform_bind_eq_ok.1 h
  obtain ⟨_, _, -, h⟩ := perform_bind_eq_ok.1 h
  obtain ⟨_, _, hrepositories, h⟩ := perform_bind_eq_ok.1 h
  obtain ⟨home, _, -, hrepositories⟩ := perform_bind_eq_ok.1 hrepositories
  cases hrepositories
  cases h
  exact ⟨rfl, rfl, _, rfl⟩

/-- The place where the file that an address leads to is kept, by the environment. -/
def IsPlace (around : Surroundings) (url : String) (p : Path) : Prop :=
  ∃ f relative v, perform Resolver.ofEnvironment around v = (.ok f, v) ∧
    url = addressIn centralRepository relative ∧ p = cachePath f relative

theorem addressIn_injective {url relative relative' : String}
    (h : addressIn url relative = addressIn url relative') : relative = relative' := by
  have hlist := congrArg String.toList h
  simp only [addressIn, String.toList_append, List.append_cancel_left_eq] at hlist
  exact String.toList_inj.1 hlist

end Environment

/-- A resolver shows how far its downloads are, and keeps each file at the place of its address. -/
structure Resolver.Places (f : Resolver) (settings : Settings) (place : String → Path → Prop) :
    Prop where
  progress : f.showProgress = true
  settings : f.settings = settings
  place_iff : ∀ url, .onWeb url ∈ f.repositories → ∀ relative p,
    place (addressIn url relative) p ↔ p = cachePath f relative

theorem places_ofEnvironment (h : perform Resolver.ofEnvironment around w = (.ok f, w')) :
    f.Places .default (IsPlace around) := by
  obtain ⟨hsettings, hprogress, root, hrepositories⟩ := of_perform_ofEnvironment h
  refine ⟨hprogress, hsettings, fun url hurl relative p => ⟨?_, ?_⟩⟩
  all_goals
    have hcentral : url = centralRepository := by simpa [hrepositories] using hurl
    subst hcentral
  · rintro ⟨f', relative', v, hf', haddress, rfl⟩
    rw [(looksAround_ofEnvironment around).unique h hf', addressIn_injective haddress]
  · rintro rfl
    obtain ⟨outcome, -, hperform⟩ := looksAround_ofEnvironment around
    refine ⟨f, relative, w, ?_, rfl, rfl⟩
    rw [hperform] at h ⊢
    rw [(Prod.mk.inj h).1]

section Lookup

variable (hwork : ∀ e : Event, e.IsWork → sort e) (hasked : ∀ asked, sort (.requested asked))
  (hpaused : sort .interrupted)

include hwork

theorem LooksAround.surfaces (h : LooksAround around action) :
    Surfaces sort (RequestRaises around settings place) t around action := by
  intro w _
  obtain ⟨outcome, houtcome, hperform⟩ := h
  refine .of_calm ?_ hwork not_requestRaises_work ?_
  · rw [hperform]
    exact Passage.refl w
  · rwa [EndsIn, hperform]

theorem surfaces_work (hkeeps : Keeps around (Tells Event.IsWork) action)
    (honly : FailsOnly (· ≠ .interrupted) action) :
    Surfaces sort (RequestRaises around settings place) t around action :=
  .of_calm hkeeps hwork not_requestRaises_work honly

theorem surfaces_isOccupied (p : Path) :
    Surfaces sort (RequestRaises around settings place) t around (isOccupied p) :=
  surfaces_work hwork (Keeps.of_readOnly (readOnly_isOccupied p))
    (refused_isOccupied p).ordinary

theorem surfaces_readText (p : Path) :
    Surfaces sort (RequestRaises around settings place) t around (readText p) :=
  surfaces_work hwork (Keeps.of_readOnly (readOnly_readText p)) (ordinary_readText p)

theorem surfaces_dependencies (text : String) (c : Coordinate) :
    Surfaces sort (RequestRaises around settings place) t around (Pom.dependencies text c) := by
  have hreport : ∀ findings, FailsOnly (· ≠ .interrupted) (Pom.report findings) := by
    intro findings
    induction findings with
    | nil => exact FailsOnly.pure _
    | cons finding rest ih =>
        cases finding with
        | ok d => exact ih.bind fun _ => FailsOnly.pure _
        | error warning => exact FailsOnly.bind (fun _ _ => OnlyFaults.ok ()) fun _ => ih
  refine surfaces_work hwork (keeps_dependencies (fun warning =>
    Keeps.note (Tells.note (by trivial) (by trivial))) text c) ?_
  unfold Pom.dependencies
  split
  · exact hreport _
  · exact FailsOnly.throw nofun

include hasked

theorem surfaces_fetchTool (r : ToolRepository) :
    Surfaces sort (RequestRaises around settings place) t around
      (PublishedTool.fetch settings r) := by
  refine Surfaces.outcome_bind (surfaces_textAt hasked settings r.manifestAddress) ?_ ?_ rfl
  · intro text
    refine surfaces_work hwork (Keeps.of_readOnly (ReadOnly.ofExcept _ _)) fun around w => ?_
    rw [perform_ofExcept]
    cases PublishedTool.load text r.manifestAddress with
    | error fault => exact OnlyFaults.error nofun
    | ok tool => exact OnlyFaults.ok tool
  · intro fault hfault
    split
    · rename_i hended
      cases hended
    · exact .throw nofun
    · rename_i hended
      cases hended
      exact .throw hfault

include hpaused

theorem surfaces_obtainFrom (hplaces : f.Places settings place) (c : Coordinate)
    (extension : String)
    (repositories : List Repository) (tried : List String)
    (hrepositories : ∀ url, .onWeb url ∈ repositories → .onWeb url ∈ f.repositories) :
    Surfaces sort (RequestRaises around settings place) t around
      (obtainFrom f c extension repositories tried) := by
  induction repositories generalizing tried with
  | nil => exact Surfaces.throw nofun
  | cons repository rest ih =>
      have hrest := fun tried => ih tried fun url hurl => hrepositories url (by simp [hurl])
      cases repository with
      | onDisk root =>
          exact (surfaces_isOccupied hwork _).bind fun there =>
            .ite (fun _ => .pure _) fun _ => hrest _
      | onWeb url =>
          refine (surfaces_isOccupied hwork _).bind fun there => .ite (fun _ => .pure _) fun _ => ?_
          rw [hplaces.progress, hplaces.settings]
          refine Surfaces.outcome_bind (surfaces_download hwork hasked hpaused
            (name_cachePath_ne f c extension)
            (hplaces.place_iff url (hrepositories url (by simp)) _)) ?_ ?_ rfl
          · exact fun _ => .pure _
          · exact fun fault hfault => .ite (fun _ => hrest _) fun _ => .throw hfault

theorem surfaces_obtain (hplaces : f.Places settings place) (c : Coordinate) (extension : String) :
    Surfaces sort (RequestRaises around settings place) t around (obtain f c extension) :=
  surfaces_obtainFrom hwork hasked hpaused hplaces c extension _ [] fun _ hurl => hurl

theorem surfaces_obtainJars (hplaces : f.Places settings place) (c : Coordinate) :
    Surfaces sort (RequestRaises around settings place) t around (obtainJars f c) := by
  have hdependencies :
      Surfaces sort (RequestRaises around settings place) t around (dependenciesOf f c) := by
    refine Surfaces.outcome_bind (surfaces_obtain hwork hasked hpaused hplaces c "pom") ?_ ?_ rfl
    · exact fun pom => (surfaces_readText hwork pom).bind fun text =>
        surfaces_dependencies hwork text c
    · intro fault hfault
      split
      · rename_i hended
        cases hended
      · exact .pure _
      · rename_i hended
        cases hended
        exact .throw hfault
  exact hdependencies.bind
    fun ds => .mapM fun d _ => surfaces_obtain hwork hasked hpaused hplaces d "jar"

end Lookup

end StagedBuild.Artifact
