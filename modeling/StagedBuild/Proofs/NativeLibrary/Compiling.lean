import StagedBuild.Proofs.Action.Renaming
import StagedBuild.Proofs.Build.Calls
import StagedBuild.Proofs.NativeLibrary.Objects

/-!
What happens to the objects of a copy in a build: those of sources that are not needed are taken
away, and those that are needed and missing are made, by compilers that write nothing else.
-/

namespace StagedBuild.NativeLibrary

open Action FileTree Disk Manifest

variable {around : Surroundings} {w w' : World} {lib : Path} {t t' t₀ : FileTree}
  {archive : List UInt8} {ways : List Location} {src : Location}

/-- The object of a source is not in the way of taking it away. -/
def Removable (lib : Path) (t : FileTree) (src : Location) : Prop :=
  PathFits (lib.descend (objectWay src)) ∧ ¬ t.isDirectory (objectAt lib src) = true

section RemoveObjects

/-- Takes the object of a source away, if it is there. -/
def removeObject (s : Source) : Action Bool := do
  let there ← Disk.isOccupied s.objectPath
  if there then Disk.unlink s.objectPath
  return there

theorem removeObjects_cons (s : Source) (rest : List Source) :
    removeObjects (s :: rest) = do
      let there ← removeObject s
      let removed ← removeObjects rest
      return if there then s.objectPath :: removed else removed := by
  rw [removeObjects, List.filterMapM_cons, removeObject]
  simp only [bind_assoc]
  refine bind_congr fun there => ?_
  cases there <;> simp [removeObjects]

variable (hlib : lib.isAbsolute = true)

include hlib

theorem perform_removeObject (h : Copied lib archive ways w.tree) (hsrc : src ∈ ways)
    (around : Surroundings) :
    ¬ Removable lib w.tree src ∧ (∃ fault,
        perform (removeObject (sourceAt lib (lib.descend src))) around w = (.error fault, w)) ∨
      Removable lib w.tree src ∧ ∃ there w',
        perform (removeObject (sourceAt lib (lib.descend src))) around w = (.ok there, w') ∧
        w'.tree.WellFormed ∧
        ∀ q, w'.tree.node? q = if q = objectAt lib src then none else w.tree.node? q := by
  have hsource := h.isSourceWay hsrc
  have hgoal : goalOf around.directory (lib.descend (objectWay src)) = objectAt lib src := by
    rw [goalOf_of_absolute (isAbsolute_descend_objectWay hlib hsource),
      goalOf_descend_objectWay hsource]
  unfold removeObject
  rw [objectPath_sourceAt hsource]
  rcases h.answerAt_object hlib hsrc around.directory with ⟨hfits, hanswer⟩ | ⟨hlong, fault, hfault⟩
  · have hocc : perform (isOccupied (lib.descend (objectWay src))) around w =
        (.ok (w.tree.node? (objectAt lib src)).isSome, w) := by
      rw [perform_isOccupied, hanswer]
      rfl
    rw [perform_bind_ok hocc]
    rcases hnode : w.tree.node? (objectAt lib src) with _ | _ | f
    · refine .inr ⟨⟨hfits, fun hdir => ?_⟩, false, w, rfl, h.wellFormed, fun q => ?_⟩
      · exact not_isOccupied_iff.2 hnode (isOccupied_of_isDirectory hdir)
      · split
        · rename_i heq
          rw [heq, hnode]
        · rfl
    · rw [hnode] at hanswer
      refine .inl ⟨fun hremovable => hremovable.2 (isDirectory_iff.2 hnode), ?_⟩
      exact ⟨_, perform_bind_error (perform_unlink_directory hanswer)⟩
    · rw [hnode] at hanswer
      have hreadable := readable_of_answerAt hanswer
      obtain ⟨-, hloc, hfile⟩ := readable_iff.1 hreadable
      have hunlink := perform_unlink_file hreadable
      rw [hgoal] at hunlink hloc hfile
      exact .inr ⟨⟨hfits, fun hdir => not_isFile_of_isDirectory hdir hfile⟩, true, _,
        (perform_bind_ok hunlink).trans rfl, h.wellFormed.unlink (unlink_eq hloc hfile),
        node?_remove (ne_nil_of_isFile hfile)⟩
  · refine .inl ⟨fun hremovable => hlong hremovable.1, fault, perform_bind_error ?_⟩
    rw [perform_isOccupied, hfault]
    rfl

theorem perform_removeObjects {out : List Location} (hout : ∀ src ∈ out, src ∈ ways)
    (h : Copied lib archive ways w.tree) (around : Surroundings) :
    (∃ fault w', perform (removeObjects (sourcesAt lib out)) around w = (.error fault, w') ∧
        (¬ ∀ src ∈ out, Removable lib w.tree src) ∧ w'.tree.WellFormed ∧
        ObjectsChanged lib ways w w') ∨
      ∃ removed w', perform (removeObjects (sourcesAt lib out)) around w = (.ok removed, w') ∧
        (∀ src ∈ out, Removable lib w.tree src) ∧ w'.tree.WellFormed ∧
        ∀ q, w'.tree.node? q =
          if q ∈ out.map (objectAt lib) then none else w.tree.node? q := by
  induction out generalizing w with
  | nil =>
      exact .inr ⟨[], w, rfl, by simp, h.wellFormed, fun q => by simp⟩
  | cons src rest ih =>
      have hsrc := hout src (by simp)
      rw [sourcesAt, List.map_cons, removeObjects_cons]
      rcases perform_removeObject hlib h hsrc around with
        ⟨hnot, fault, hfault⟩ | ⟨hremovable, there, w₁, hok, hwf, hnodes⟩
      · exact .inl ⟨fault, w, perform_bind_error hfault, fun hall => hnot (hall src (by simp)),
          h.wellFormed, Passage.refl w⟩
      · have hchanged : ObjectsChanged lib ways w w₁ :=
          .of_gone (List.forall_mem_singleton.2 hsrc) (List.forall_mem_singleton.2 hremovable.2)
            (by simpa using hnodes)
        have hsame : ∀ s, Removable lib w₁.tree s ↔ Removable lib w.tree s := fun s => by
          rw [Removable, Removable, hchanged.isDirectory_eq]
        rw [perform_bind_ok hok]
        rcases ih (fun s hs => hout s (List.mem_cons_of_mem _ hs)) (h.of_changed hchanged hwf) with
          ⟨fault, w', hrest, hnot, hwf', hchanged'⟩ | ⟨removed, w', hrest, hall, hwf', hnodes'⟩
        · refine .inl ⟨fault, w', perform_bind_error hrest, fun hall => hnot fun s hs => ?_, hwf',
            Passage.trans hchanged hchanged'⟩
          exact (hsame s).2 (hall s (List.mem_cons_of_mem _ hs))
        · refine .inr ⟨_, w', perform_bind_ok hrest, ?_, hwf', fun q => ?_⟩
          · rw [List.forall_mem_cons]
            exact ⟨hremovable, fun s hs => (hsame s).1 (hall s hs)⟩
          · rw [hnodes', hnodes, List.map_cons]
            by_cases hq : q = objectAt lib src
            · simp [hq]
            · simp [hq, List.mem_cons]

end RemoveObjects

theorem perform_withoutObject (hlib : lib.isAbsolute = true) {inc : List Location}
    (hinc : ∀ src ∈ inc, src ∈ ways) (h : Copied lib archive ways w.tree)
    (around : Surroundings) :
    (¬ ∀ src ∈ inc, PathFits (lib.descend (objectWay src))) ∧
        (∃ fault, perform (withoutObject (sourcesAt lib inc)) around w = (.error fault, w)) ∨
      (∀ src ∈ inc, PathFits (lib.descend (objectWay src))) ∧
        perform (withoutObject (sourcesAt lib inc)) around w =
          (.ok (sourcesAt lib (inc.filter fun src => !w.tree.isOccupied (objectAt lib src))),
            w) := by
  induction inc with
  | nil => exact .inr ⟨by simp, rfl⟩
  | cons src rest ih =>
      have hsrc := hinc src (by simp)
      rw [sourcesAt, List.map_cons, withoutObject_cons, objectPath_sourceAt (h.isSourceWay hsrc)]
      rcases h.answerAt_object hlib hsrc around.directory with
        ⟨hfits, hanswer⟩ | ⟨hlong, fault, hanswer⟩
      · have hocc : perform (isOccupied (lib.descend (objectWay src))) around w =
            (.ok (w.tree.isOccupied (objectAt lib src)), w) := by
          rw [perform_isOccupied, hanswer]
          rfl
        rw [perform_bind_ok hocc]
        rcases ih fun s hs => hinc s (List.mem_cons_of_mem _ hs) with
          ⟨hnot, fault, hfault⟩ | ⟨hall, hrest⟩
        · exact .inl ⟨fun hall => hnot fun s hs => hall s (List.mem_cons_of_mem _ hs), fault,
            perform_bind_error hfault⟩
        · refine .inr ⟨List.forall_mem_cons.2 ⟨hfits, hall⟩, (perform_bind_ok hrest).trans ?_⟩
          cases hthere : w.tree.isOccupied (objectAt lib src) <;>
            simp [hthere, sourcesAt]
      · refine .inl ⟨fun hall => hlong (hall src (by simp)), fault, perform_bind_error ?_⟩
        rw [perform_isOccupied, hanswer]
        rfl

section Compilers

variable {plan : Plan}

/-- Compilers that write the object they are asked for and nothing else when they end with zero,
and that write nothing when they end otherwise. -/
def Honest (around : Surroundings) (plan : Plan) : Prop :=
  ∀ (src : Location) (w : World) (reply : ToolReply) (t : FileTree), IsSourceWay src →
    w.tree.WellFormed →
    around.tool (Build.sourceCall plan
      (sourceAt plan.libraryDirectory (plan.libraryDirectory.descend src))) w = (reply, t) →
    if reply.isSuccess = true then
      t.WellFormed ∧ ∃ f, ∀ q, t.node? q =
        if q = objectAt plan.libraryDirectory src then some (.file f) else w.tree.node? q
    else ∀ q, t.node? q = w.tree.node? q

/-- Compilers that succeed where the source is there and its object has a place. -/
def Succeeds (around : Surroundings) (plan : Plan) : Prop :=
  ∀ (src : Location) (w : World), IsSourceWay src → w.tree.WellFormed →
    w.tree.isFile (goalOf [] plan.libraryDirectory ++ src) = true →
    ¬ w.tree.isDirectory (objectAt plan.libraryDirectory src) = true →
    PathFits (plan.libraryDirectory.descend (objectWay src)) →
    (around.tool (Build.sourceCall plan
      (sourceAt plan.libraryDirectory (plan.libraryDirectory.descend src))) w).1.isSuccess = true

section Writing

/-- A compiler that writes some bytes to the last of its arguments. -/
def writingTool (bytes : List UInt8) (call : Invocation) (w : World) : ToolReply × FileTree :=
  let object := Path.parse (call.command.getLast?.getD "")
  if isAskable object then
    match w.tree.write [] object bytes with
    | .ok t => (.exited 0 [] [], t)
    | .error _ => (.exited 1 [] [], w.tree)
  else (.exited 1 [] [], w.tree)

theorem getLast?_sourceCall (hsrc : IsSourceWay src) :
    (Build.sourceCall plan
      (sourceAt plan.libraryDirectory (plan.libraryDirectory.descend src))).command.getLast? =
        some (plan.libraryDirectory.descend (objectWay src)).text := by
  rw [← objectPath_sourceAt hsrc]
  simp [Build.sourceCall, command, List.getLast?_append]

variable {bytes : List UInt8} (htool : around.tool = writingTool bytes)
  (hlib : plan.libraryDirectory.isAbsolute = true)

include htool hlib

theorem honest_of_writing : Honest around plan := by
  intro src w reply t hsrc hwf h
  have hobject := isAbsolute_descend_objectWay hlib hsrc
  rw [htool, writingTool, getLast?_sourceCall hsrc, Option.getD_some, Path.parse_text] at h
  split at h
  · rename_i hask
    split at h
    · rename_i t' hwrite
      cases h
      obtain ⟨loc, hloc, hnot, rfl⟩ := exists_of_write hwrite
      obtain rfl := (locate_eq_ok_iff.1 hloc).1
      rw [goalOf_descend_objectWay hsrc] at hwrite hnot ⊢
      have hne : objectAt plan.libraryDirectory src ≠ [] := by
        intro hnil
        rw [hnil] at hnot
        exact hnot (isDirectory_iff.2 (node?_nil _))
      rw [if_pos (show (ToolReply.exited 0 [] []).isSuccess = true from rfl)]
      have hstart : w.tree.isDirectory
          (start [] (plan.libraryDirectory.descend (objectWay src))) = true := by
        rw [start_of_absolute hobject]
        exact isDirectory_iff.2 (node?_nil _)
      exact ⟨hwf.write hstart hask hwrite, _, fun q => node?_writeFile hne q bytes⟩
    · cases h
      exact fun q => rfl
  · cases h
    exact fun q => rfl

theorem succeeds_of_writing (hask : isAskable plan.libraryDirectory = true)
    (hup : ".." ∉ plan.libraryDirectory.steps) : Succeeds around plan := by
  intro src w hsrc hwf hfile hnot hfits
  have hopen : ∀ v ∈ passedBy [] plan.libraryDirectory, w.tree.isDirectory v = true := by
    intro v hv
    rw [passedBy, start_of_absolute hlib] at hv
    obtain ⟨front, back, hsteps, hback, hfront⟩ := (mem_passed_of_plain hup).1 hv
    rw [List.nil_append] at hfront
    subst hfront
    have hgoal : goalOf [] plan.libraryDirectory = v ++ back := by
      rw [goalOf, start_of_absolute hlib, reach_of_plain hup, hsteps, List.nil_append]
    rw [hgoal, List.append_assoc] at hfile
    exact hwf.isDirectory_above (isOccupied_of_isFile hfile) (by simp [hback])
  have hloc := (locate_open fun v hv =>
    isDirectory_of_passed_object hwf hopen hsrc hfile hv).resolve_right fun h => h.1 hfits
  rw [goalOf_descend_objectWay hsrc] at hloc
  rw [htool, writingTool, getLast?_sourceCall hsrc, Option.getD_some, Path.parse_text]
  rw [if_pos (isAskable_descend_objectWay hask hsrc), write_eq hloc.2, if_neg hnot]
  rfl

end Writing

/-- Some places hold files now, and all else is as before. -/
def FilesMade (places : Location → Prop) (t t' : FileTree) : Prop :=
  ∀ q, t'.node? q = t.node? q ∨ places q ∧ t'.isFile q = true

namespace FilesMade

variable {places more : Location → Prop}

theorem refl (places : Location → Prop) (t : FileTree) : FilesMade places t t :=
  fun _ => .inl rfl

theorem mono (h : FilesMade places t t') (hmore : ∀ q, places q → more q) :
    FilesMade more t t' :=
  fun q => (h q).imp_right fun ⟨hq, hfile⟩ => ⟨hmore q hq, hfile⟩

theorem trans {t'' : FileTree} (h : FilesMade places t t') (h' : FilesMade places t' t'') :
    FilesMade places t t'' := by
  intro q
  rcases h' q with heq | hmade
  · rcases h q with heq' | ⟨hq, hfile⟩
    · exact .inl (heq.trans heq')
    · exact .inr ⟨hq, isFile_congr heq ▸ hfile⟩
  · exact .inr hmade

theorem isFile (h : FilesMade places t t') {q : Location} (hq : t.isFile q = true) :
    t'.isFile q = true := by
  rcases h q with heq | ⟨-, hfile⟩
  · exact isFile_congr heq ▸ hq
  · exact hfile

end FilesMade

theorem filesMade_of_ran (hhonest : Honest around plan) {src : Location} (hsrc : IsSourceWay src)
    {reply : ToolReply} (hwf : w.tree.WellFormed)
    (hran : Ran around (Build.sourceCall plan
      (sourceAt plan.libraryDirectory (plan.libraryDirectory.descend src))) w reply w') :
    w'.tree.WellFormed ∧
      FilesMade (· = objectAt plan.libraryDirectory src) w.tree w'.tree ∧
      (reply.isSuccess = true →
        w'.tree.isFile (objectAt plan.libraryDirectory src) = true) := by
  obtain ⟨v, -, htree, htool, -⟩ := hran
  have htold := hhonest src v reply w'.tree hsrc (htree ▸ hwf) htool
  rw [htree] at htold
  split at htold
  · obtain ⟨hwf', f, hf⟩ := htold
    have hfile : w'.tree.isFile (objectAt plan.libraryDirectory src) = true :=
      isFile_iff.2 ⟨f, by rw [hf, if_pos rfl]⟩
    refine ⟨hwf', fun q => ?_, fun _ => hfile⟩
    by_cases hq : q = objectAt plan.libraryDirectory src
    · exact .inr ⟨hq, hq ▸ hfile⟩
    · exact .inl (by rw [hf, if_neg hq])
  · rename_i hfailed
    exact ⟨hwf.congr htold, fun q => .inl (htold q), fun h => absurd h hfailed⟩

/-- Compilers leave objects behind where they succeed, and nothing else. Each was called when only
objects of the others had been made. -/
theorem filesMade_of_ranAll (hhonest : Honest around plan)
    {answered : List (Pool.Answered Source)} {some : List Location}
    (hsome : ∀ src ∈ some, IsSourceWay src)
    (hitems : ∀ a ∈ answered, ∃ src ∈ some,
      a.item = sourceAt plan.libraryDirectory (plan.libraryDirectory.descend src))
    (hran : Pool.RanAll around (Build.sourceCall plan) w answered w')
    (hwf : w.tree.WellFormed) :
    w'.tree.WellFormed ∧
      FilesMade (fun q => ∃ src ∈ some, q = objectAt plan.libraryDirectory src) w.tree w'.tree ∧
      ∀ a ∈ answered,
        (a.reply.isSuccess = true → w'.tree.isFile (goalOf [] a.item.objectPath) = true) ∧
        ∃ v : World, (around.tool (Build.sourceCall plan a.item) v).1 = a.reply ∧
          v.tree.WellFormed ∧
          FilesMade (fun q => ∃ src ∈ some, q = objectAt plan.libraryDirectory src)
            w.tree v.tree := by
  induction hran with
  | nil w => exact ⟨hwf, .refl _ _, by simp⟩
  | @cons w w₁ w' a rest hfirst _ ih =>
      obtain ⟨src, hmem, hitem⟩ := hitems a (by simp)
      have hsrc := hsome src hmem
      have hplace : goalOf [] a.item.objectPath = objectAt plan.libraryDirectory src := by
        rw [hitem, objectPath_sourceAt hsrc, goalOf_descend_objectWay hsrc]
      obtain ⟨hwf₁, hmade₁, hfile₁⟩ := filesMade_of_ran hhonest hsrc hwf (hitem ▸ hfirst)
      have hmade : FilesMade (fun q => ∃ src ∈ some, q = objectAt plan.libraryDirectory src)
          w.tree w₁.tree := hmade₁.mono fun q hq => ⟨src, hmem, hq⟩
      obtain ⟨hwf', hmade', hrest⟩ := ih (fun b hb => hitems b (List.mem_cons_of_mem _ hb)) hwf₁
      refine ⟨hwf', hmade.trans hmade', List.forall_mem_cons.2 ⟨⟨fun hsuccess => ?_, ?_⟩,
        fun b hb => ?_⟩⟩
      · rw [hplace]
        exact hmade'.isFile (hfile₁ hsuccess)
      · obtain ⟨v, -, htree, htool, -⟩ := hfirst
        exact ⟨v, by rw [htool], htree ▸ hwf, htree ▸ .refl _ _⟩
      · obtain ⟨hsuccess, v, hreply, hwfv, hmadev⟩ := hrest b hb
        exact ⟨hsuccess, v, hreply, hwfv, hmade.trans hmadev⟩

end Compilers

end StagedBuild.NativeLibrary
