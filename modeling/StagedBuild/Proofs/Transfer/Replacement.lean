import StagedBuild.Proofs.Transfer.Placing

/-!
What a download leaves on the disk. When it returns, the destination holds the whole body; when it
ends in an ordinary fault, the destination is as it was. Either way no temporary file stays behind,
and nothing else is changed but that directories are made. An interrupt may leave the temporary
file, and a destination that is empty or replaced already.
-/

namespace StagedBuild

namespace Disk

open Action FileTree

variable {around : Surroundings} {u v w : World} {touched more places : Location → Prop}

/-- Outside certain places the only changes of the disk are new directories in some others. -/
def AddsOutside (touched places : Location → Prop) (w w' : World) : Prop :=
  ∀ q, ¬ touched q → w'.tree.node? q = w.tree.node? q ∨
    places q ∧ w.tree.node? q = none ∧ w'.tree.node? q = some .directory

namespace AddsOutside

theorem of_added (h : DirectoriesAdded places v w) : AddsOutside touched places v w :=
  fun q _ => h q

theorem trans (h : AddsOutside touched places u v) (hsame : SameOutside touched v w) :
    AddsOutside touched places u w := by
  intro q hq
  rw [hsame q hq]
  exact h q hq

instance : Passage (AddsOutside touched places) where
  refl _ := fun _ _ => .inl rfl
  trans := by
    intro u v w huv hvw q hq
    rcases hvw q hq with heq | ⟨hplace, hnone, hdir⟩
    · rw [heq]
      exact huv q hq
    · rcases huv q hq with heq | ⟨-, -, hdir'⟩
      · exact .inr ⟨hplace, heq ▸ hnone, hdir⟩
      · rw [hnone] at hdir'
        cases hdir'

theorem isOccupied (h : AddsOutside touched places v w) {q : Location} (hq : ¬ touched q)
    (hoccupied : v.tree.isOccupied q = true) : w.tree.isOccupied q = true := by
  rcases h q hq with heq | ⟨-, -, hdir⟩
  · rwa [isOccupied_congr heq]
  · exact isOccupied_iff.2 ⟨_, hdir⟩

theorem mono (h : AddsOutside touched places v w) (hmore : ∀ q, touched q → more q) :
    AddsOutside more places v w :=
  fun q hq => h q fun htouched => hq (hmore q htouched)

end AddsOutside

end Disk

/-- What is read of a body that does not break off is all that the server has sent. -/
structure Surroundings.ReadsWhole (around : Surroundings) : Prop where
  whole : ∀ asked w r size, around.server asked w = .answered r → (r.body size).fault = none →
    (r.body size).pieces.flatten = r.content

namespace Transfer

open Action Disk FileTree

variable {around : Surroundings} {u v w w' : World} {settings : Settings} {url : String}
  {destination p : Path} {showProgress : Bool} {fault fault' : Fault}

/-- A server answers a request in a world, and the answer is not refused. -/
structure Served (around : Surroundings) (asked : Request) (w : World) (r : Response) : Prop where
  answered : around.server asked w = .answered r
  accepted : r.refusal = none

theorem served_of_takenIn {intake : Intake}
    (h : takenIn settings url showProgress around w = .ok intake) :
    Served around ⟨url, true, settings.timeout⟩ w intake.response := by
  unfold takenIn at h
  cases hserver : around.server ⟨url, true, settings.timeout⟩ w with
  | failed fault =>
      rw [hserver] at h
      cases h
  | answered r =>
      rw [hserver, takeIn] at h
      cases hrefusal : r.refusal with
      | some text =>
          rw [hrefusal] at h
          cases h
      | none =>
          rw [hrefusal] at h
          dsimp only at h
          cases hlength : announced r with
          | error fault =>
              rw [hlength] at h
              cases h
          | ok total =>
              rw [hlength] at h
              dsimp only at h
              cases hlabel : labelled url showProgress total with
              | error fault =>
                  rw [hlabel] at h
                  cases h
              | ok withBar =>
                  rw [hlabel] at h
                  cases h
                  exact ⟨hserver, hrefusal⟩

/-- The destination holds what was read of the body of an answer, which did not break off. -/
structure Brought (settings : Settings) (url : String) (destination : Path) (around : Surroundings)
    (w u : World) (r : Response) : Prop where
  served : Served around ⟨url, true, settings.timeout⟩ w r
  unbroken : (r.body settings.chunkSize).fault = none
  bytes : bytesAt destination u.tree around.directory =
    .ok (r.body settings.chunkSize).pieces.flatten

/-- What a download that returns has done: a server answered the only request, the destination holds
all that it sent, each bar that was shown has moved by its length and is closed, and no temporary
file is left. -/
structure Replaced (settings : Settings) (url : String) (destination : Path)
    (around : Surroundings) (w w' : World) : Prop where
  delivered : ∃ (r : Response) (shown : Option ProgressBar),
    Served around ⟨url, true, settings.timeout⟩
      (perform (makeDirectories destination.parent) around w).2 r ∧
    bytesAt destination w'.tree around.directory = .ok r.content ∧ Shows shown w w' ∧
    ∀ bar ∈ shown, bar.moves.sum = r.content.length ∧ bar.closed = true
  cleared : ¬ Readable (temporaryFor destination) w'.tree around.directory
  others : AddsOutside
    (fun q => q = goalOf around.directory destination ∨
      q = goalOf around.directory (temporaryFor destination))
    (OnTheWay around.directory destination.parent) w w'

/-- What a download that ends in an ordinary fault has done: only the temporary file was touched,
and it is gone. The destination is as it was, unless it is one of the directories above it, which
come to be made. -/
structure Restored (destination : Path) (cwd : Location) (w w' : World) : Prop where
  others : AddsOutside (· = goalOf cwd (temporaryFor destination))
    (OnTheWay cwd destination.parent) w w'
  restored : ¬ OnTheWay cwd destination.parent (goalOf cwd destination) →
    w'.tree.node? (goalOf cwd destination) = w.tree.node? (goalOf cwd destination)
  cleared : ¬ Readable (temporaryFor destination) w'.tree cwd

/-- What an interrupt may leave at the destination when it is not as it was: nothing, or all of a
body. -/
structure Exposed (settings : Settings) (url : String) (destination : Path) (around : Surroundings)
    (w u : World) : Prop where
  others : SameOutside (fun q => q = goalOf around.directory destination ∨
    q = goalOf around.directory (temporaryFor destination)) w u
  left : u.tree.node? (goalOf around.directory destination) = none ∨
    ∃ r, Brought settings url destination around w u r

section GiveUp

theorem isOrdinary_eq_false_iff : fault.isOrdinary = false ↔ fault = .interrupted := by
  cases fault <;> simp [Fault.isOrdinary]

theorem isOrdinary_of_isRefusal (h : fault.IsRefusal) : fault.isOrdinary = true := by
  rw [← Bool.not_eq_false, isOrdinary_eq_false_iff]
  exact h.ne_interrupted

theorem isOrdinary_blame (url : String) (fault : Fault) :
    (blame .download url fault).isOrdinary = fault.isOrdinary := by
  cases fault <;> rfl

/-- Clears up behind a fault. -/
def giveUp (url : String) (temporary : Path) (fault : Fault) : Action Path := do
  if fault.isOrdinary then unlinkIfPresent temporary
  throw (blame .download url fault)

/-- What giving up behind a fault ends in, and the world that it leaves: behind an interrupt nothing
is cleared away. -/
inductive GivenUp (temporary : Path) (fault : Fault) (around : Surroundings) (u : World) :
    Fault → World → Prop
  | interrupted : fault = .interrupted → GivenUp temporary fault around u .interrupted u
  | cleared {fault' : Fault} : fault.isOrdinary = true → fault'.isOrdinary = true →
      GivenUp temporary fault around u fault' (perform (unlinkIfPresent temporary) around u).2

theorem perform_giveUp (url : String) (temporary : Path) (fault : Fault) (around : Surroundings)
    (u : World) :
    ∃ fault' w', perform (giveUp url temporary fault) around u = (.error fault', w') ∧
      GivenUp temporary fault around u fault' w' := by
  unfold giveUp
  by_cases hordinary : fault.isOrdinary = true
  · rw [if_pos hordinary]
    rcases hunlink : perform (unlinkIfPresent temporary) around u with ⟨cause | _, v⟩
    · have hrefusal := (refused_unlinkIfPresent temporary).of_perform hunlink
      have hgiven : GivenUp temporary fault around u cause _ :=
        .cleared hordinary (isOrdinary_of_isRefusal hrefusal)
      rw [hunlink] at hgiven
      exact ⟨cause, v, perform_bind_error hunlink, hgiven⟩
    · have hgiven : GivenUp temporary fault around u (blame .download url fault) _ :=
        .cleared hordinary ((isOrdinary_blame url fault).trans hordinary)
      rw [hunlink] at hgiven
      exact ⟨_, v, perform_bind_ok hunlink, hgiven⟩
  · obtain rfl := isOrdinary_eq_false_iff.1 (Bool.eq_false_iff.2 hordinary)
    exact ⟨_, u, rfl, .interrupted rfl⟩

end GiveUp

section

variable (hname : destination.name ≠ "")

include hname

theorem perform_download : perform (download settings url destination showProgress) around w =
    match perform (makeDirectories destination.parent) around w with
    | (.error fault, v) => (.error fault, v)
    | (.ok _, v) =>
      match perform (downloadTo settings url destination (temporaryFor destination) showProgress)
        around v with
      | (.ok _, u) => (.ok destination, u)
      | (.error fault, u) => perform (giveUp url (temporaryFor destination) fault) around u := by
  unfold download
  rw [perform_bind]
  rcases perform (makeDirectories destination.parent) around w with ⟨_ | _, v⟩
  · rfl
  · simp only [withSuffix?_eq_temporary hname, perform_bind, perform_outcome]
    rcases perform (downloadTo settings url destination (temporaryFor destination) showProgress)
      around v with ⟨fault | _, u⟩
    · rfl
    · rfl

theorem work_of_download {R : World → World → Prop} [AnyPausedWork R]
    (hmake : perform (makeDirectories destination.parent) around w = (.ok (), v)) :
    R (v.requesting ⟨url, true, settings.timeout⟩)
      (perform (download settings url destination showProgress) around w).2 := by
  have hwork := work_of_downloadTo (R := R) settings url destination (temporaryFor destination)
    showProgress around v
  rw [perform_download hname, hmake]
  rcases hdown : perform (downloadTo settings url destination (temporaryFor destination)
    showProgress) around v with ⟨fault | _, u⟩
  · have hgiveUp : Keeps around R (giveUp url (temporaryFor destination) fault) :=
      Keeps.ite (fun _ => (keeps_unlinkIfPresent (keeps_unlink _)).bind fun _ => Keeps.throw _)
        fun _ => Keeps.throw _
    rw [hdown] at hwork
    simp only [hdown]
    exact Passage.trans hwork (hgiveUp u)
  · rw [hdown] at hwork
    simpa only [hdown] using hwork

/-- A download to the temporary file that fails has touched no other file, unless an interrupt has
exposed the destination. -/
theorem of_perform_downloadTo_error
    (h : perform (downloadTo settings url destination (temporaryFor destination) showProgress)
      around v = (.error fault, u)) :
    SameOutside (· = goalOf around.directory (temporaryFor destination)) v u ∨
      fault = .interrupted ∧ Exposed settings url destination around v u := by
  have hattempt := perform_downloadTo settings url showProgress around v hname
  rw [h] at hattempt
  cases hattempt with
  | undelivered _ hdelivery => exact .inl hdelivery.sameOutside
  | unplaced _ hdelivered _ hplacement =>
      cases hplacement with
      | waiting _ _ => exact .inl (Passage.trans hdelivered.others (OfTree.same _ _ rfl))
      | untouched _ _ htree _ =>
          exact .inl (Passage.trans hdelivered.others (OfTree.same _ _ htree))
      | cleared _ hcleared _ =>
          exact .inr ⟨rfl, Passage.trans (hdelivered.others.mono fun _ => .inr)
            (hcleared.others.mono fun _ => .inl), .inl hcleared.free⟩
  | interrupted _ hdelivered _ hplacement =>
      cases hplacement with
      | moved _ hmoved _ =>
          exact .inr ⟨rfl, Passage.trans (hdelivered.others.mono fun _ => .inr) hmoved.others,
            .inr ⟨_, served_of_takenIn hdelivered.taken, hdelivered.unbroken,
              hmoved.bytes.trans hdelivered.bytes⟩⟩

/-- What a download that returns has done to the disk: there is a file at the destination, no
temporary file is left, and nothing else is changed but that directories are made. -/
structure Placed (destination : Path) (cwd : Location) (w w' : World) : Prop where
  readable : Readable destination w'.tree cwd
  cleared : w'.tree.node? (goalOf cwd (temporaryFor destination)) = none
  others : AddsOutside
    (fun q => q = goalOf cwd destination ∨ q = goalOf cwd (temporaryFor destination))
    (OnTheWay cwd destination.parent) w w'

theorem of_perform_download_ok
    (h : perform (download settings url destination showProgress) around w = (.ok p, w')) :
    ∃ v x intake shown, p = destination ∧
      perform (makeDirectories destination.parent) around w = (.ok (), v) ∧
      Delivered settings url (temporaryFor destination) showProgress around v intake shown x ∧
      Moved destination around.directory x w' ∧ Shows (closedBar shown) v w' := by
  rw [perform_download hname] at h
  rcases hmake : perform (makeDirectories destination.parent) around w with ⟨_ | _, v⟩
  · rw [hmake] at h
    cases h
  have hattempt := perform_downloadTo settings url showProgress around v hname
  rcases hdown : perform (downloadTo settings url destination (temporaryFor destination)
    showProgress) around v with ⟨fault | _, u⟩
  · simp only [hmake, hdown] at h
    obtain ⟨fault', u', hgive, -⟩ := perform_giveUp url (temporaryFor destination) fault around u
    rw [hgive] at h
    cases h
  · simp only [hmake, hdown, Prod.mk.injEq, Except.ok.injEq] at h
    obtain ⟨rfl, rfl⟩ := h
    rw [hdown] at hattempt
    cases hattempt with
    | placed _ hdelivered _ hplacement =>
        cases hplacement with
        | moved _ hmoved hshown => exact ⟨v, _, _, _, rfl, rfl, hdelivered, hmoved, hshown⟩

theorem placed_of_download
    (h : perform (download settings url destination showProgress) around w = (.ok p, w')) :
    p = destination ∧ Placed destination around.directory w w' := by
  obtain ⟨v, x, intake, shown, rfl, hmake, hdelivered, hmoved, -⟩ := of_perform_download_ok hname h
  have hadded := adds_makeDirectories around p.parent w
  rw [hmake] at hadded
  exact ⟨rfl, ⟨_, hmoved.bytes.trans hdelivered.bytes⟩, hmoved.gone,
    ((AddsOutside.of_added hadded).trans (hdelivered.others.mono fun _ => .inr)).trans
      hmoved.others⟩

theorem brought_of_download
    (h : perform (download settings url destination showProgress) around w = (.ok p, w')) :
    ∃ r shown, Brought settings url destination around
        (perform (makeDirectories destination.parent) around w).2 w' r ∧ Shows shown w w' ∧
      ∀ bar ∈ shown, bar.moves.sum = (r.body settings.chunkSize).pieces.flatten.length ∧
        bar.closed = true := by
  obtain ⟨v, x, intake, shown, rfl, hmake, hdelivered, hmoved, hshown⟩ :=
    of_perform_download_ok hname h
  have hsame : Keeps around World.SameBars (makeDirectories p.parent) :=
    keeps_makeDirectories p.parent
  rw [hmake]
  refine ⟨intake.response, closedBar shown, ⟨served_of_takenIn hdelivered.taken,
    hdelivered.unbroken, hmoved.bytes.trans hdelivered.bytes⟩,
    hshown.sameBars_trans (hsame.of_perform hmake), fun bar hbar => ?_⟩
  obtain ⟨opened, hopened, rfl⟩ := Option.map_eq_some_iff.1 (Option.mem_def.1 hbar)
  exact ⟨(hdelivered.moved opened hopened).2, rfl⟩

theorem replaced_of_download (hreads : around.ReadsWhole)
    (h : perform (download settings url destination showProgress) around w = (.ok p, w')) :
    p = destination ∧ Replaced settings url destination around w w' := by
  obtain ⟨rfl, hplaced⟩ := placed_of_download hname h
  obtain ⟨r, shown, ⟨hserved, hunbroken, hbytes⟩, hshown, hmoved⟩ := brought_of_download hname h
  rw [hreads.whole _ _ r _ hserved.answered hunbroken] at hbytes hmoved
  refine ⟨rfl, ⟨r, shown, hserved, hbytes, hshown, hmoved⟩, fun hread => ?_, hplaced.others⟩
  obtain ⟨f, hf⟩ := isFile_iff.1 (readable_iff.1 hread).2.2
  rw [hplaced.cleared] at hf
  cases hf

/-- What spares all but the temporary file spares the destination, unless this is one of the
directories that come to be made. -/
theorem node?_destination
    (h : AddsOutside (· = goalOf around.directory (temporaryFor destination))
      (OnTheWay around.directory destination.parent) w w')
    (hway : ¬ OnTheWay around.directory destination.parent (goalOf around.directory destination)) :
    w'.tree.node? (goalOf around.directory destination) =
      w.tree.node? (goalOf around.directory destination) := by
  rcases h _ (goalOf_ne_temporary hname around.directory) with heq | ⟨hway', -⟩
  · exact heq
  · exact absurd hway' hway

theorem left_of_download
    (h : perform (download settings url destination showProgress) around w = (.error fault, w')) :
    AddsOutside (· = goalOf around.directory (temporaryFor destination))
        (OnTheWay around.directory destination.parent) w w' ∧
      (fault.isOrdinary = true → ¬ Readable (temporaryFor destination) w'.tree around.directory) ∨
    fault = .interrupted ∧
      ∃ v, perform (makeDirectories destination.parent) around w = (.ok (), v) ∧
      Exposed settings url destination around v w' := by
  rw [perform_download hname] at h
  have hadded := adds_makeDirectories around destination.parent w
  rcases hmake : perform (makeDirectories destination.parent) around w with ⟨_ | _, v⟩
  · simp only [hmake, Prod.mk.injEq, Except.error.injEq] at h
    obtain ⟨rfl, rfl⟩ := h
    rw [hmake] at hadded
    -- no temporary file can be where there is no directory for it
    exact .inl ⟨.of_added hadded, fun _ hread =>
      not_leads_of_makeDirectoriesWithin hmake (leads_parent_of_readable hname hread)⟩
  rw [hmake] at hadded
  rcases hdown : perform (downloadTo settings url destination (temporaryFor destination)
    showProgress) around v with ⟨cause | _, u⟩
  · simp only [hmake, hdown] at h
    obtain ⟨fault', u', hgive, hgiven⟩ :=
      perform_giveUp url (temporaryFor destination) cause around u
    rw [hgive] at h
    obtain ⟨hfault, rfl⟩ := Prod.mk.inj h
    obtain rfl := Except.error.inj hfault
    have hunlink :
        Keeps around (SameOutside (· = goalOf around.directory (temporaryFor destination)))
        (unlinkIfPresent (temporaryFor destination)) :=
      keeps_unlinkIfPresent (sameOutside_unlink rfl)
    rcases of_perform_downloadTo_error hname hdown with hsame | ⟨rfl, hexposed⟩
    · refine .inl ?_
      cases hgiven with
      | interrupted _ => exact ⟨(AddsOutside.of_added hadded).trans hsame, nofun⟩
      | cleared _ _ =>
          exact ⟨(AddsOutside.of_added hadded).trans (Passage.trans hsame (hunlink u)),
            fun _ => not_readable_of_unlinkIfPresent _ _ _⟩
    · cases hgiven with
      | interrupted _ => exact .inr ⟨rfl, v, rfl, hexposed⟩
      | cleared hordinary _ => cases hordinary
  · simp only [hmake, hdown] at h
    cases h

theorem restored_of_download (hordinary : fault.isOrdinary = true)
    (h : perform (download settings url destination showProgress) around w = (.error fault, w')) :
    Restored destination around.directory w w' := by
  rcases left_of_download hname h with ⟨hothers, hcleared⟩ | ⟨rfl, -⟩
  · exact ⟨hothers, node?_destination hname hothers, hcleared hordinary⟩
  · cases hordinary

end

section Edits

variable {R : World → World → Prop} [OfTree R]

theorem keeps_download_of_edits (hmake : ∀ p, Keeps around R (makeDirectory p))
    (hwrite : ∀ p bytes, Keeps around R (change p fun t cwd => t.write cwd p bytes))
    (hunlink : ∀ p, Keeps around R (unlink p)) (hrename : ∀ p q, Keeps around R (rename p q)) :
    Keeps around R (download settings url destination showProgress) := by
  have hmakeAll : Keeps around R (makeDirectories destination.parent) :=
    keeps_makeDirectoriesWithin (P := fun _ => True) _ trivial (fun _ _ => trivial)
      fun q _ => hmake q
  have hdown : ∀ temporary, Keeps around R
      (downloadTo settings url destination temporary showProgress) := by
    intro temporary
    have hnote : ∀ w event, R w { w with history := event :: w.history } :=
      fun w _ => OfTree.same w _ rfl
    have hpause : Keeps around R pause := Keeps.pause fun w => hnote w _
    unfold downloadTo putInPlace
    refine (keeps_deliver_of_write (hwrite temporary)).bind
      fun withBar => Keeps.bind ?_ fun _ => hpause
    refine hpause.bind fun _ => Keeps.bind ?_ fun _ => hpause.bind fun _ =>
      (keeps_unlinkIfPresent (hunlink _)).bind fun _ => hpause.bind fun _ => hrename _ _
    exact Keeps.ite (fun _ => Keeps.note fun w => hnote w _) fun _ => Keeps.pure ()
  unfold download
  refine hmakeAll.bind fun _ => ?_
  split
  · exact Keeps.throw _
  · refine (hdown _).outcome.bind fun ended => ?_
    split
    · exact Keeps.pure _
    · exact Keeps.ite (fun _ => (keeps_unlinkIfPresent (hunlink _)).bind fun _ => Keeps.throw _)
        fun _ => Keeps.throw _

theorem directoriesStay_download (settings : Settings) (url : String) (destination : Path)
    (showProgress : Bool) :
    Keeps around DirectoriesStay (download settings url destination showProgress) :=
  keeps_download_of_edits directoriesStay_makeDirectory directoriesStay_write directoriesStay_unlink
    directoriesStay_rename

end Edits

/-- A download either returns, and then the destination holds all of the body that a server has
answered with, or it fails. If that is in an ordinary fault, the destination is as it was, unless it
is one of the directories above it. No temporary file is left, and no other file is touched. -/
theorem download_replaces_or_restores (settings : Settings) (url : String) (destination : Path)
    (showProgress : Bool) (around : Surroundings) (w : World) (hreads : around.ReadsWhole)
    (hname : destination.name ≠ "") :
    (∃ w', perform (download settings url destination showProgress) around w =
        (.ok destination, w') ∧ Replaced settings url destination around w w') ∨
      ∃ fault w', perform (download settings url destination showProgress) around w =
        (.error fault, w') ∧
        (fault.isOrdinary = true → Restored destination around.directory w w') := by
  rcases hperform : perform (download settings url destination showProgress) around w with
    ⟨fault | p, w'⟩
  · exact .inr ⟨fault, w', rfl, fun hordinary => restored_of_download hname hordinary hperform⟩
  · obtain ⟨rfl, hreplaced⟩ := replaced_of_download hname hreads hperform
    exact .inl ⟨w', rfl, hreplaced⟩

section OldJar

/-- Surroundings in which every request is answered with a jar of three bytes. -/
def aroundServingJar : Surroundings :=
  { Surroundings.still [] with
    server := fun _ _ => .answered (.ofBytes (some "3") [80, 75, 5] none) }

theorem readsWhole_servingJar : aroundServingJar.ReadsWhole where
  whole asked w r size h hfault := by
    cases h
    exact Response.flatten_ofBytes hfault

/-- A disk with an older jar, and with a temporary file that was left behind. -/
def diskWithOldJar : FileTree :=
  ((FileTree.empty.add ["c"] .directory).writeFile ["c", "t.jar"] [79]).writeFile ["c", "t.jar.tmp"]
    [80]

theorem download_replaces_old_jar :
    aroundServingJar.ReadsWhole ∧ (Path.parse "/c/t.jar").name ≠ "" ∧
      bytesAt (.parse "/c/t.jar") diskWithOldJar [] = .ok [79] ∧
      ∃ w', perform (download .default "http://h/t.jar" (.parse "/c/t.jar") true) aroundServingJar
          (.ofTree diskWithOldJar) = (.ok (.parse "/c/t.jar"), w') ∧
        bytesAt (.parse "/c/t.jar") w'.tree [] = .ok [80, 75, 5] ∧
        Replaced .default "http://h/t.jar" (.parse "/c/t.jar") aroundServingJar
          (.ofTree diskWithOldJar) w' := by
  have hname : (Path.parse "/c/t.jar").name ≠ "" := by decide
  refine ⟨readsWhole_servingJar, hname, by decide +kernel, ?_⟩
  rcases download_replaces_or_restores .default "http://h/t.jar" (.parse "/c/t.jar") true
    aroundServingJar (.ofTree diskWithOldJar) readsWhole_servingJar hname with
    ⟨w', hok, hreplaced⟩ | ⟨fault, w', herror, -⟩
  · refine ⟨w', hok, ?_, hreplaced⟩
    obtain ⟨r, shown, hserved, hbytes, -⟩ := hreplaced.delivered
    rw [← Reply.answered.inj hserved.answered] at hbytes
    exact hbytes
  · have hreturns : (perform (download .default "http://h/t.jar" (.parse "/c/t.jar") true)
        aroundServingJar (.ofTree diskWithOldJar)).1.isOk = true := by
      decide +kernel
    rw [herror] at hreturns
    cases hreturns

/-- A destination that was not there, and that is one of the directories on the way to it, has
become a directory by a download that ends in an ordinary fault. -/
theorem destination_becomes_directory :
    answerAt (.parse "/a/../a") .empty [] = .ok none ∧
      (perform (download .default "http://h/a" (.parse "/a/../a") true) aroundServingJar
          (.ofTree .empty)).1 = .error (.system (.on .isDirectory "/a/../a")) ∧
      answerAt (.parse "/a/../a") (perform (download .default "http://h/a" (.parse "/a/../a") true)
          aroundServingJar (.ofTree .empty)).2.tree [] = .ok (some .directory) := by
  decide +kernel

end OldJar

end Transfer

end StagedBuild
