import StagedBuild.Proofs.Transfer.Replacement

/-!
What servers have answered. The history of a world tells in which state of the disk each request was
made, and with it what the server replied.
-/

namespace StagedBuild

open Action Disk

variable {around : Surroundings} {t : FileTree} {w w' : World}

/-- The disk as events leave it, the latest first. -/
def diskAfter (t : FileTree) : List Event → FileTree
  | [] => t
  | .changed s :: _ => s
  | _ :: earlier => diskAfter t earlier

/-- The replies to the requests among events, the latest first. -/
def replies (around : Surroundings) (t : FileTree) : List Event → List (Request × Reply)
  | [] => []
  | .requested asked :: earlier =>
    (asked, around.server asked ⟨diskAfter t earlier, earlier⟩) :: replies around t earlier
  | _ :: earlier => replies around t earlier

theorem mem_replies_cons {event : Event} {earlier : List Event} {reply : Request × Reply}
    (h : reply ∈ replies around t earlier) : reply ∈ replies around t (event :: earlier) := by
  cases event <;> first | exact h | exact List.mem_cons_of_mem _ h

theorem mem_replies_of_suffix {earlier later : List Event} {reply : Request × Reply}
    (h : earlier <:+ later) (hmem : reply ∈ replies around t earlier) :
    reply ∈ replies around t later := by
  obtain ⟨new, rfl⟩ := h
  induction new with
  | nil => exact hmem
  | cons event new ih => exact mem_replies_cons ih

theorem server_of_mem_replies {events : List Event} {asked : Request} {reply : Reply}
    (h : (asked, reply) ∈ replies around t events) : ∃ w, reply = around.server asked w := by
  induction events with
  | nil => cases h
  | cons event earlier ih =>
      cases event with
      | requested request =>
          rcases List.mem_cons.1 h with heq | hmem
          · cases heq
            exact ⟨_, rfl⟩
          · exact ih hmem
      | _ => exact ih h

/-- The history of a world tells how the disk has come to be as it is. -/
def Chronicled (t : FileTree) (w : World) : Prop :=
  w.tree = diskAfter t w.history

/-- From one world to another the history goes on, and tells every change of the disk. -/
def Continues (w w' : World) : Prop :=
  w.history <:+ w'.history ∧ ∀ t, Chronicled t w → Chronicled t w'

instance : Passage Continues where
  refl _ := ⟨List.suffix_rfl, fun _ h => h⟩
  trans h h' := ⟨h.1.trans h'.1, fun t ht => h'.2 t (h.2 t ht)⟩

instance : AnyChange Continues where
  changed _ _ := ⟨List.suffix_cons _ _, fun _ _ => rfl⟩

/-- An event that is no change of the disk. -/
def Event.IsNote : Event → Prop
  | .changed _ => False
  | _ => True

theorem continues_note {event : Event} (h : event.IsNote) (w : World) :
    Continues w { w with history := event :: w.history } := by
  refine ⟨List.suffix_cons _ _, fun t ht => ?_⟩
  cases event <;> first | exact h.elim | exact ht

namespace Transfer

variable {settings : Settings} {url : String} {destination p : Path} {showProgress : Bool}

instance : AnyPausedWork Continues where
  opened w _ _ := continues_note (by trivial) w
  moved w _ := continues_note (by trivial) w
  closed w := continues_note (by trivial) w
  interrupted w := continues_note (by trivial) w

theorem continues_download (settings : Settings) (url : String) (showProgress : Bool)
    (hname : destination.name ≠ "") :
    Keeps around Continues (download settings url destination showProgress) := by
  intro w
  have hmake : Keeps around Continues (makeDirectories destination.parent) :=
    keeps_makeDirectories destination.parent
  rcases hv : perform (makeDirectories destination.parent) around w with ⟨_ | _, v⟩
  · rw [perform_download hname, hv]
    exact hmake.of_perform hv
  · exact Passage.trans (hmake.of_perform hv)
      (Passage.trans (continues_note (by trivial) v) (work_of_download hname hv))

theorem requested_of_download {v : World} {ended : Except Fault Path}
    (hname : destination.name ≠ "")
    (hmake : perform (makeDirectories destination.parent) around w = (.ok (), v))
    (h : perform (download settings url destination showProgress) around w = (ended, w')) :
    .requested ⟨url, true, settings.timeout⟩ :: v.history <:+ w'.history := by
  have hwork : Continues (v.requesting ⟨url, true, settings.timeout⟩)
      (perform (download settings url destination showProgress) around w).2 :=
    work_of_download hname hmake
  rw [h] at hwork
  exact hwork.1

/-- A body that a server has answered with in full, and that was not refused. -/
structure WasReceived (around : Surroundings) (t : FileTree) (w : World) (url : String)
    (bytes : List UInt8) : Prop where
  received : ∃ asked r, asked.url = url ∧ (asked, .answered r) ∈ replies around t w.history ∧
    r.refusal = none ∧ r.content = bytes

theorem WasReceived.mono {bytes : List UInt8} (h : WasReceived around t w url bytes)
    (hlater : w.history <:+ w'.history) : WasReceived around t w' url bytes := by
  obtain ⟨asked, r, hurl, hmem, hrest⟩ := h.received
  exact ⟨asked, r, hurl, mem_replies_of_suffix hlater hmem, hrest⟩

theorem WasReceived.of_file {bytes : List UInt8} {file : File}
    (h : WasReceived around t w url bytes)
    (hbytes : bytesAt p w.tree around.directory = .ok bytes)
    (hfile : w.tree.node? (FileTree.goalOf around.directory p) = some (.file file)) :
    WasReceived around t w url file.bytes := by
  obtain ⟨-, -, file', hfile', rfl⟩ := bytesAt_eq_ok_iff.1 hbytes
  rw [hfile] at hfile'
  cases hfile'
  exact h

/-- The body that a download has brought, whether it returns or not, was received. -/
theorem received_of_brought {v : World} {r : Response} {ended : Except Fault Path}
    (hname : destination.name ≠ "") (hreads : around.ReadsWhole) (ht : Chronicled t w)
    (hmake : perform (makeDirectories destination.parent) around w = (.ok (), v))
    (h : perform (download settings url destination showProgress) around w = (ended, w'))
    (hbrought : Brought settings url destination around v w' r) :
    ∃ bytes, bytesAt destination w'.tree around.directory = .ok bytes ∧
      WasReceived around t w' url bytes := by
  have hkeeps : Keeps around Continues (makeDirectories destination.parent) :=
    keeps_makeDirectories destination.parent
  have htree : Chronicled t v := (hkeeps.of_perform hmake).2 t ht
  obtain ⟨⟨hanswered, haccepted⟩, hunbroken, hbytes⟩ := hbrought
  refine ⟨r.content, hreads.whole _ _ r _ hanswered hunbroken ▸ hbytes,
    ⟨⟨url, true, settings.timeout⟩, r, rfl, ?_, haccepted, rfl⟩⟩
  refine mem_replies_of_suffix (requested_of_download hname hmake h) (List.mem_cons.2 (.inl ?_))
  rw [← htree, ← hanswered]

theorem received_of_download (hname : destination.name ≠ "") (hreads : around.ReadsWhole)
    (ht : Chronicled t w)
    (h : perform (download settings url destination showProgress) around w = (.ok p, w')) :
    ∃ bytes, bytesAt destination w'.tree around.directory = .ok bytes ∧
      WasReceived around t w' url bytes := by
  obtain ⟨v, -, -, -, -, hmake, -⟩ := of_perform_download_ok hname h
  obtain ⟨r, -, hbrought, -⟩ := brought_of_download hname h
  rw [hmake] at hbrought
  exact received_of_brought hname hreads ht hmake h hbrought

end Transfer

end StagedBuild
