import StagedBuild.Proofs.Action.Faults
import StagedBuild.Proofs.Units.Exact

/-!
Records of any content. A record that is not there, that is no text or no JSON counts as empty, and
the strings of an array are the recorded units. Three kinds of records stop code generation all the
same: a value without items, values nested too deep, and a unit whose path the operating system
refuses as too long.
-/

namespace StagedBuild

namespace FileTree

variable {t t' : FileTree} {cwd loc : Location} {p : Path}

theorem follow_nameTooLong_congr (h : ∀ q, t'.isDirectory q = t.isDirectory q)
    (loc : Location) (steps : List String) :
    t'.follow loc steps = .error .nameTooLong ↔ t.follow loc steps = .error .nameTooLong := by
  induction steps generalizing loc with
  | nil => exact ⟨nofun, nofun⟩
  | cons step rest ih =>
      rw [follow_cons, follow_cons, h loc]
      by_cases hdir : t.isDirectory loc = true
      · rw [if_pos hdir, if_pos hdir]
        split
        · exact ih _
        · rfl
      · rw [if_neg hdir, if_neg hdir]
        constructor <;> intro heq <;> split at heq <;> cases heq

theorem locate_nameTooLong_congr (h : ∀ q, t'.isDirectory q = t.isDirectory q) (cwd : Location)
    (p : Path) :
    t'.locate cwd p = .error .nameTooLong ↔ t.locate cwd p = .error .nameTooLong := by
  rw [locate, locate]
  split
  · rfl
  · exact follow_nameTooLong_congr h _ _

theorem isAbsence_of_follow {steps : List String} {e : SystemError}
    (h : t.follow loc steps = .error e) (hlong : e ≠ .nameTooLong) : e.isAbsence = true := by
  induction steps generalizing loc with
  | nil => cases h
  | cons step rest ih =>
      rw [follow_cons] at h
      split at h
      · split at h
        · exact ih h
        · cases h
          exact absurd rfl hlong
      · cases h
        split <;> rfl

end FileTree

namespace Disk

open FileTree

variable {t : FileTree} {cwd : Location} {p : Path}

/-- The operating system does not look a path up, because the path or a name on it is too long. -/
def Refused (p : Path) (t : FileTree) (cwd : Location) : Prop :=
  isAskable p = true ∧ t.locate cwd p = .error .nameTooLong

theorem exists_error_answerAt_iff :
    (∃ fault, answerAt p t cwd = .error fault) ↔ Refused p t cwd := by
  rw [answerAt, Refused]
  by_cases hask : isAskable p = true
  · rw [if_pos hask, and_iff_right hask]
    rcases hloc : t.locate cwd p with e | loc
    · have hlookup : t.lookup cwd p = .error e := by
        rw [lookup, hloc]
        rfl
      rw [hlookup]
      dsimp only
      by_cases hlong : e = .nameTooLong
      · subst hlong
        exact ⟨fun _ => rfl, fun _ => ⟨_, rfl⟩⟩
      · have habsence : e.isAbsence = true := by
          rw [locate] at hloc
          split at hloc
          · cases hloc
            exact absurd rfl hlong
          · exact isAbsence_of_follow hloc hlong
        rw [if_pos habsence]
        refine ⟨?_, fun h => absurd (Except.error.inj h) hlong⟩
        rintro ⟨_, ⟨⟩⟩
    · refine ⟨?_, fun h => by cases h⟩
      rintro ⟨fault, hfault⟩
      rcases hnode : t.node? loc with _ | node
      · have hlookup : t.lookup cwd p = .error .noEntry := by
          simp only [lookup, hloc, bind, Except.bind, hnode]
        rw [hlookup] at hfault
        cases hfault
      · rw [lookup_eq_ok_iff.2 ⟨hloc, hnode⟩] at hfault
        cases hfault
  · rw [if_neg hask]
    refine ⟨?_, fun h => absurd h.1 hask⟩
    rintro ⟨_, ⟨⟩⟩

end Disk

/-- A JSON value that has no items: null, a truth value or a number. -/
def Json.IsScalar : Json → Prop
  | .null | .bool _ | .int _ | .real _ => True
  | _ => False

namespace Units

open Action FileTree Disk Event

variable {around : Surroundings} {w w' : World} {workdir : Path} {t : FileTree} {cwd : Location}
  {value : Json} {fault : Fault} {depth : Nat}

/-- What reading the record as JSON of some depth gives, when there is a file that holds text. -/
def RecordReads (depth : Nat) (workdir : Path) (t : FileTree) (cwd : Location)
    (result : Except Json.ReadFault Json) : Prop :=
  ∃ bytes text, bytesAt (workdir / recordName) t cwd = .ok bytes ∧
    Text.decodeFile? bytes = some text ∧ Json.parse depth text = result

theorem RecordReads.unique {result result' : Except Json.ReadFault Json}
    (h : RecordReads depth workdir t cwd result) (h' : RecordReads depth workdir t cwd result') :
    result = result' := by
  obtain ⟨bytes, text, hbytes, htext, rfl⟩ := h
  obtain ⟨bytes', text', hbytes', htext', rfl⟩ := h'
  obtain rfl := Except.ok.inj (hbytes.symm.trans hbytes')
  obtain rfl := Option.some.inj (htext.symm.trans htext')
  rfl

theorem RecordReads.perform_readRecordValue {result : Except Json.ReadFault Json}
    (h : RecordReads around.nesting workdir w.tree around.directory result) :
    perform (readRecordValue (workdir / recordName)) around w =
      (result.mapError Json.ReadFault.toFault, w) := by
  obtain ⟨bytes, text, hbytes, htext, rfl⟩ := h
  have hread : perform (readBytes (workdir / recordName)) around w = (.ok bytes, w) := by
    rw [perform_readBytes, hbytes]
  have hdecode : perform (readText (workdir / recordName)) around w = (.ok text, w) := by
    rw [readText, perform_bind_ok hread, htext]
    rfl
  rw [readRecordValue, perform_bind_ok hdecode, Json.perform_ofText]

theorem perform_readRecordValue_of_not_reads
    (h : ∀ result, ¬ RecordReads around.nesting workdir w.tree around.directory result) :
    ∃ fault, (fault.IsRefusal ∨ fault = .undecodable) ∧
      perform (readRecordValue (workdir / recordName)) around w = (.error fault, w) := by
  have hread := perform_readBytes (workdir / recordName) around w
  rcases hbytes : bytesAt (workdir / recordName) w.tree around.directory with fault | bytes
  · rw [hbytes] at hread
    exact ⟨fault, .inl (refused_bytesAt _ _ _ _ hbytes),
      perform_bind_error (perform_bind_error hread)⟩
  · rw [hbytes] at hread
    rcases htext : Text.decodeFile? bytes with _ | text
    · refine ⟨.undecodable, .inr rfl, perform_bind_error ?_⟩
      rw [readText, perform_bind_ok hread, htext]
      rfl
    · exact absurd ⟨bytes, text, hbytes, htext, rfl⟩ (h _)

theorem perform_readRecord_of_value
    (h : perform (readRecordValue (workdir / recordName)) around w = (.ok value, w)) :
    perform (readRecord workdir) around w =
      ((recordedNames value).map fun names => names.map fun (name : String) => workdir / name,
        w) := by
  unfold readRecord
  simp only [perform_bind, perform_outcome, h, perform_ofExcept_id]
  rcases recordedNames value with fault | names <;> rfl

theorem perform_readRecord_of_fault
    (h : perform (readRecordValue (workdir / recordName)) around w = (.error fault, w)) :
    perform (readRecord workdir) around w = perform (withoutRecord workdir fault) around w := by
  unfold readRecord
  simp only [perform_bind, perform_outcome, h]
  rfl

/-- Why reading a record ends in a fault: its value has no items, or is nested too deep. -/
inductive RecordStops (depth : Nat) (workdir : Path) (t : FileTree) (cwd : Location) : Fault → Prop
  | noItems {value : Json} (h : RecordReads depth workdir t cwd (.ok value))
      (hvalue : value.IsScalar) : RecordStops depth workdir t cwd .wrongType
  | tooDeep (h : RecordReads depth workdir t cwd (.error .tooDeep)) :
      RecordStops depth workdir t cwd .tooDeep

theorem recordedNames_eq_error_iff :
    recordedNames value = .error fault ↔ value.IsScalar ∧ fault = .wrongType := by
  unfold recordedNames Json.IsScalar
  rcases value <;> simp [eq_comm]

theorem not_endsIn_withoutRecord {cause : Fault}
    (h : (cause.isSystem || cause.isValue) = true) :
    ¬ EndsIn around w (withoutRecord workdir cause) fault := by
  rw [withoutRecord]
  by_cases hmissing : cause.isMissing = true
  · rw [if_pos hmissing]
    exact EndsIn.not_pure _
  · rw [if_neg hmissing, if_pos h]
    exact nofun

theorem not_recordStops (h : ∀ result, ¬ RecordReads depth workdir t cwd result) :
    ¬ RecordStops depth workdir t cwd fault := by
  rintro (⟨hreads, -⟩ | hreads)
  · exact h _ hreads
  · exact h _ hreads

theorem endsIn_readRecord_iff :
    EndsIn around w (readRecord workdir) fault ↔
      RecordStops around.nesting workdir w.tree around.directory fault := by
  by_cases hsome : ∃ result, RecordReads around.nesting workdir w.tree around.directory result
  · obtain ⟨result, hreads⟩ := hsome
    have hperform := hreads.perform_readRecordValue
    match result, hreads, hperform with
    | .ok value, hreads, hperform =>
        have hends : EndsIn around w (readRecord workdir) fault ↔
            recordedNames value = .error fault := by
          rw [EndsIn, perform_readRecord_of_value hperform]
          rcases recordedNames value with cause | names
          · exact ⟨fun h => congrArg _ (Except.error.inj h),
              fun h => congrArg _ (Except.error.inj h)⟩
          · exact ⟨nofun, nofun⟩
        rw [hends, recordedNames_eq_error_iff]
        constructor
        · rintro ⟨hvalue, rfl⟩
          exact .noItems hreads hvalue
        · rintro (⟨hreads', hvalue⟩ | hreads')
          · obtain rfl := Except.ok.inj (hreads.unique hreads')
            exact ⟨hvalue, rfl⟩
          · exact nomatch hreads.unique hreads'
    | .error cause, hreads, hperform =>
        have hends : EndsIn around w (readRecord workdir) fault ↔
            EndsIn around w (withoutRecord workdir cause.toFault) fault := by
          rw [EndsIn, perform_readRecord_of_fault hperform, EndsIn]
        rw [hends]
        have hstops : RecordStops around.nesting workdir w.tree around.directory fault ↔
            cause = .tooDeep ∧ fault = .tooDeep := by
          constructor
          · rintro (⟨hreads', -⟩ | hreads')
            · exact nomatch hreads.unique hreads'
            · exact ⟨Except.error.inj (hreads.unique hreads'), rfl⟩
          · rintro ⟨rfl, rfl⟩
            exact .tooDeep hreads
        rw [hstops]
        cases cause with
        | malformed => exact iff_of_false (not_endsIn_withoutRecord rfl) nofun
        | numeral digits => exact iff_of_false (not_endsIn_withoutRecord rfl) nofun
        | tooDeep => exact ⟨fun h => ⟨rfl, (Except.error.inj h).symm⟩, fun h => h.2 ▸ rfl⟩
  · have hnone := not_exists.1 hsome
    obtain ⟨cause, hcause, hperform⟩ := perform_readRecordValue_of_not_reads hnone
    rw [EndsIn, perform_readRecord_of_fault hperform]
    refine iff_of_false (not_endsIn_withoutRecord ?_) (not_recordStops hnone)
    rcases hcause with hrefusal | rfl
    · unfold Fault.IsRefusal at hrefusal
      split at hrefusal
      · rfl
      · rfl
      · exact hrefusal.elim
    · rfl

/-- The strings of an array. -/
def stringsOf (items : List Json) : List String :=
  items.filterMap fun
    | .text s => some s
    | _ => none

theorem perform_readRecord_of_array {items : List Json}
    (h : RecordReads around.nesting workdir w.tree around.directory (.ok (.array items))) :
    perform (readRecord workdir) around w =
      (.ok ((stringsOf items).map fun (name : String) => workdir / name), w) :=
  perform_readRecord_of_value h.perform_readRecordValue

theorem perform_readRecord_cases (workdir : Path) (around : Surroundings) (w : World) :
    (∃ fault, RecordStops around.nesting workdir w.tree around.directory fault ∧
        EndsIn around w (readRecord workdir) fault) ∨
      (∃ value names, RecordReads around.nesting workdir w.tree around.directory (.ok value) ∧
        recordedNames value = .ok names ∧ perform (readRecord workdir) around w =
          (.ok (names.map fun (name : String) => workdir / name), w)) ∨
      (∀ value, ¬ RecordReads around.nesting workdir w.tree around.directory (.ok value)) ∧
        ∃ w', perform (readRecord workdir) around w = (.ok [], w') ∧ w'.tree = w.tree := by
  rcases hended : perform (readRecord workdir) around w with ⟨fault | paths, w'⟩
  · have hends : EndsIn around w (readRecord workdir) fault := congrArg Prod.fst hended
    exact .inl ⟨fault, endsIn_readRecord_iff.1 hends, hends⟩
  · refine .inr ?_
    by_cases hvalue :
      ∃ value, RecordReads around.nesting workdir w.tree around.directory (.ok value)
    · obtain ⟨value, hreads⟩ := hvalue
      have hperform := perform_readRecord_of_value hreads.perform_readRecordValue
      rw [hended] at hperform
      rcases hnames : recordedNames value with fault | names
      · rw [hnames] at hperform
        cases hperform
      · rw [hnames] at hperform
        exact .inl ⟨value, names, hreads, hnames, hperform⟩
    · have hfault : ∃ fault, perform (readRecordValue (workdir / recordName)) around w =
          (.error fault, w) := by
        by_cases hsome : ∃ result, RecordReads around.nesting workdir w.tree around.directory result
        · obtain ⟨_ | value, hreads⟩ := hsome
          · exact ⟨_, hreads.perform_readRecordValue⟩
          · exact absurd ⟨value, hreads⟩ hvalue
        · obtain ⟨fault, -, hperform⟩ :=
            perform_readRecordValue_of_not_reads (not_exists.1 hsome)
          exact ⟨fault, hperform⟩
      obtain ⟨fault, hfault⟩ := hfault
      obtain ⟨htree, hempty⟩ := perform_withoutRecord workdir fault around w
      rw [← perform_readRecord_of_fault hfault, hended] at htree hempty
      obtain rfl := hempty paths rfl
      exact .inr ⟨not_exists.1 hvalue, w', rfl, htree⟩

/-- A recorded unit is taken away, or there is none to take away, unless its path is refused. -/
theorem exists_perform_removeUnit_iff {u : Path} :
    (∃ w', perform (removeUnit u) around w = (.ok (), w')) ↔
      (u.suffix = suffix → ¬ Refused u w.tree around.directory) := by
  rw [perform_removeUnit]
  by_cases hsuffix : u.suffix = suffix
  · rw [if_pos hsuffix, ← exists_error_answerAt_iff]
    rcases hanswer : answerAt u w.tree around.directory with fault | node
    · exact iff_of_false nofun fun h => h hsuffix ⟨fault, rfl⟩
    · refine iff_of_true ?_ fun _ => ?_
      rotate_left
      · rintro ⟨fault, hfault⟩
        cases hfault
      dsimp only
      by_cases hnode : isFileNode node = true
      · rw [if_pos hnode]
        obtain ⟨f, rfl⟩ : ∃ f, node = some (.file f) := by
          rcases node with _ | _ | f
          · cases hnode
          · cases hnode
          · exact ⟨f, rfl⟩
        obtain ⟨hask, hloc, hf⟩ := answerAt_eq_some_iff.1 hanswer
        rw [Disk.unlink, perform_change, if_pos hask, unlink_eq hloc (isFile_iff.2 ⟨f, hf⟩)]
        exact ⟨_, rfl⟩
      · rw [if_neg hnode]
        exact ⟨_, rfl⟩
  · rw [if_neg hsuffix]
    exact iff_of_true ⟨_, rfl⟩ fun h => absurd h hsuffix

theorem FilesGone.refused_iff {places : Location → Prop} (h : FilesGone places w w') (p : Path)
    (cwd : Location) : Refused p w'.tree cwd ↔ Refused p w.tree cwd :=
  and_congr_right' (locate_nameTooLong_congr h.isDirectory_eq cwd p)

theorem exists_perform_removeUnits_iff {us : List Path} :
    (∃ w', perform (us.forM removeUnit) around w = (.ok (), w')) ↔
      ∀ u ∈ us, u.suffix = suffix → ¬ Refused u w.tree around.directory := by
  induction us generalizing w with
  | nil => exact iff_of_true ⟨w, rfl⟩ (by simp)
  | cons u us ih =>
      rw [List.forall_mem_cons, ← exists_perform_removeUnit_iff]
      have hgone : ∀ {v : World}, perform (removeUnit u) around w = (.ok (), v) →
          FilesGone (placesOf around.directory [u]) w v := fun hfirst =>
        (keeps_removeUnit (List.mem_singleton_self u)).of_perform hfirst
      change (∃ w', perform (removeUnit u >>= fun _ => us.forM removeUnit) around w = _) ↔ _
      constructor
      · rintro ⟨w', h⟩
        obtain ⟨_, v, hfirst, hrest⟩ := perform_bind_eq_ok.1 h
        exact ⟨⟨v, hfirst⟩, fun x hx hsuffix hrefused =>
          ih.1 ⟨w', hrest⟩ x hx hsuffix (((hgone hfirst).refused_iff x _).2 hrefused)⟩
      · rintro ⟨⟨v, hfirst⟩, hrest⟩
        obtain ⟨w', hw'⟩ := ih.2 fun x hx hsuffix hrefused =>
          hrest x hx hsuffix (((hgone hfirst).refused_iff x _).1 hrefused)
        exact ⟨w', by rw [perform_bind_ok hfirst, hw']⟩

/-- What stops code generation before the toolchain is asked: a record that cannot be read, or a
recorded unit whose path is refused. -/
inductive StopsGeneration (depth : Nat) (workdir : Path) (t : FileTree) (cwd : Location) : Prop
  | unreadable {fault : Fault} (h : RecordStops depth workdir t cwd fault)
  | refused {value : Json} {names : List String} {name : String}
      (hreads : RecordReads depth workdir t cwd (.ok value))
      (hnames : recordedNames value = .ok names)
      (hname : name ∈ names) (hsuffix : (workdir / name).suffix = suffix)
      (hrefused : Refused (workdir / name) t cwd)

theorem exists_perform_removeRecorded_iff :
    (∃ w', perform (removeRecorded workdir) around w = (.ok (), w')) ↔
      ¬ StopsGeneration around.nesting workdir w.tree around.directory := by
  rw [removeRecorded_eq]
  rcases perform_readRecord_cases workdir around w with ⟨fault, hstops, hends⟩ |
    ⟨value, names, hreads, hnames, hperform⟩ | ⟨hnone, v, hperform, htree⟩
  · refine iff_of_false ?_ (not_not.2 (.unreadable hstops))
    rintro ⟨w', h⟩
    obtain ⟨us, v, hread, -⟩ := perform_bind_eq_ok.1 h
    rw [EndsIn, hread] at hends
    cases hends
  · rw [perform_bind_ok hperform, exists_perform_removeUnits_iff]
    constructor
    · rintro h (hstops | ⟨hreads', hnames', hname, hsuffix, hrefused⟩)
      · rw [← endsIn_readRecord_iff, EndsIn, hperform] at hstops
        cases hstops
      · obtain rfl := Except.ok.inj (hreads.unique hreads')
        obtain rfl := Except.ok.inj (hnames.symm.trans hnames')
        exact h _ (List.mem_map_of_mem hname) hsuffix hrefused
    · intro h u hu hsuffix hrefused
      obtain ⟨name, hname, rfl⟩ := List.mem_map.1 hu
      exact h (.refused hreads hnames hname hsuffix hrefused)
  · rw [perform_bind_ok hperform]
    refine iff_of_true ⟨v, rfl⟩ ?_
    rintro (hstops | ⟨hreads, -⟩)
    · rw [← endsIn_readRecord_iff, EndsIn, hperform] at hstops
      cases hstops
    · exact hnone _ hreads

theorem irCalls_of_silent (h : Silent w w') : w'.irCalls = w.irCalls := by
  obtain ⟨events, hevents, hsilent⟩ := h
  unfold World.irCalls World.events
  rw [hevents, List.reverse_append, List.filterMap_append, List.append_right_eq_self,
    List.filterMap_eq_nil_iff]
  intro e he
  have he := hsilent e (List.mem_reverse.1 he)
  cases e with
  | called call => cases he
  | _ => rfl

theorem keeps_beforeCode {R : World → World → Prop} [AnyTalk R] (around : Surroundings)
    (plan : Plan) : Keeps around R (beforeCode plan) :=
  (keeps_makeDirectories _).bind fun _ => (keeps_removeRecorded _).bind fun _ =>
    Keeps.of_readOnly (readOnly_stamps _)

theorem keeps_afterCode {R : World → World → Prop} [AnyChange R] (around : Surroundings)
    (plan : Plan) (before : List (Path × Nat)) : Keeps around R (afterCode plan before) :=
  (Keeps.of_readOnly (readOnly_stamps _)).bind fun _ =>
    (keeps_writeRecord _ _).bind fun _ => Keeps.pure _

namespace Call

variable {c : Call}

/-- The toolchain is asked for code, once. -/
def AsksForCode (c : Call) : Prop :=
  c.after.irCalls = c.before.irCalls ++ [.generate c.defns]

/-- The world in which the work directory has been made. -/
def made (c : Call) : World :=
  (perform (makeDirectories c.plan.workdir) c.around c.before).2

/-- The world in which the recorded units have been taken away. -/
def cleared (c : Call) : World :=
  (perform (removeRecorded c.plan.workdir) c.around c.made).2

theorem asksForCode_iff_beforeCode :
    c.AsksForCode ↔
      ∃ before v, perform (beforeCode c.plan) c.around c.before = (.ok before, v) := by
  have hsilent : Silent c.before (perform (beforeCode c.plan) c.around c.before).2 :=
    keeps_beforeCode c.around c.plan c.before
  rw [AsksForCode, after, generate_eq]
  rcases hbefore : perform (beforeCode c.plan) c.around c.before with ⟨fault | before, v⟩
  · rw [hbefore] at hsilent
    rw [perform_bind_error hbefore, irCalls_of_silent hsilent]
    refine iff_of_false (by simp) ?_
    rintro ⟨_, _, ⟨⟩⟩
  · rw [hbefore] at hsilent
    refine iff_of_true ?_ ⟨before, v, rfl⟩
    have hcalled : (c.worldFrom v).irCalls = c.before.irCalls ++ [.generate c.defns] := by
      rw [← irCalls_of_silent hsilent]
      simp [worldFrom, World.irCalls, World.events, World.calling]
    have hcode := perform_codeGeneration c.plan c.tools c.defns c.around v
    rw [perform_bind_ok hbefore]
    rcases hended : (c.tools.generate c.plan c.defns (v.calling (.generate c.defns))).2
      with fault | _
    · rw [hended] at hcode
      rw [perform_bind_error hcode]
      exact hcalled
    · rw [hended] at hcode
      rw [perform_bind_ok hcode]
      exact (irCalls_of_silent (keeps_afterCode _ _ _ _)).trans hcalled

theorem leads_of_cleared (hwf : c.before.tree.WellFormed)
    (hcwd : c.before.tree.isDirectory c.around.directory = true)
    (hmade : perform (makeDirectories c.plan.workdir) c.around c.before = (.ok (), c.made)) :
    c.cleared.tree.WellFormed ∧
      LeadsToDirectory c.plan.workdir c.cleared.tree c.around.directory := by
  obtain ⟨hwf', hdirs⟩ :=
    (sound_makeDirectories (startsFrom_self _ c.plan.workdir)).of_perform hmade hwf hcwd
  obtain ⟨hwf'', hdirs'⟩ :=
    sound_removeRecorded c.around c.plan.workdir c.made hwf' (hdirs _ hcwd)
  exact ⟨hwf'', (leads_of_makeDirectories hmade).mono hdirs'⟩

/-- Reading a record ends in a fault exactly when its value has no items or is nested too deep, and
the strings of an array are the recorded units. The toolchain is asked for code exactly when the
work directory can be made, the record does not stop the call, and each unit that is left can be
reached. -/
theorem asks_unless_record_stops (hwf : c.before.tree.WellFormed)
    (hcwd : c.before.tree.isDirectory c.around.directory = true) :
    (∀ around w workdir fault, EndsIn around w (readRecord workdir) fault ↔
      RecordStops around.nesting workdir w.tree around.directory fault) ∧
    (∀ (around : Surroundings) (w : World) workdir items,
      RecordReads around.nesting workdir w.tree around.directory (.ok (.array items)) →
      perform (readRecord workdir) around w =
        (.ok ((stringsOf items).map fun (name : String) => workdir / name), w)) ∧
    (c.AsksForCode ↔
      perform (makeDirectories c.plan.workdir) c.around c.before = (.ok (), c.made) ∧
      ¬ StopsGeneration c.around.nesting c.plan.workdir c.made.tree c.around.directory ∧
      ∀ way, IsUnitWay way →
        c.cleared.tree.isOccupied (goalOf c.around.directory c.plan.workdir ++ way) = true →
        (c.plan.workdir.descend way).text.utf8ByteSize ≤ pathLimit) := by
  refine ⟨fun _ _ _ _ => endsIn_readRecord_iff, fun _ _ _ _ => perform_readRecord_of_array, ?_⟩
  rw [asksForCode_iff_beforeCode]
  constructor
  · rintro ⟨before, v, hbefore⟩
    obtain ⟨_, u, hmake, hrest⟩ := perform_bind_eq_ok.1 hbefore
    obtain rfl : c.made = u := congrArg Prod.snd hmake
    obtain ⟨_, u', hremove, hstamps⟩ := perform_bind_eq_ok.1 hrest
    obtain rfl : c.cleared = u' := congrArg Prod.snd hremove
    obtain ⟨hwf', hleads⟩ := leads_of_cleared hwf hcwd hmake
    refine ⟨hmake, exists_perform_removeRecorded_iff.1 ⟨_, hremove⟩, fun way hunit hocc => ?_⟩
    obtain ⟨-, -, hanswers⟩ := perform_stamps_ok hwf' hleads hstamps
    obtain ⟨node, hanswer⟩ := hanswers way (mem_unitWays.2 ⟨hunit, hocc⟩)
    exact (locate_eq_ok_iff.1 (answerAt_eq_some_iff.1 hanswer).2.1).2.1
  · rintro ⟨hmake, hgoes, hreach⟩
    obtain ⟨u, hremove⟩ := exists_perform_removeRecorded_iff.2 hgoes
    obtain rfl : c.cleared = u := congrArg Prod.snd hremove
    obtain ⟨hwf', hleads⟩ := leads_of_cleared hwf hcwd hmake
    have hstamps := perform_stamps hwf' hleads hreach
    exact ⟨_, _, (perform_bind_ok hmake).trans ((perform_bind_ok hremove).trans hstamps)⟩

end Call

/-- A disk on which the record of `/w` holds a text. -/
def treeWithRecord (text : String) : FileTree :=
  (FileTree.empty.add ["w"] .directory).add ["w", "units.json"]
    (.file ⟨Text.encode text, false⟩)

/-- Code generation in a work directory whose record holds a text. -/
def callWithRecord (text : String) : Call :=
  callWriting (.parse "/w/main.ll") (.ok ()) (.ofTree (treeWithRecord text))

/-- A record of strings among other items does not stop a call. -/
theorem array_does_not_stop :
    (callWithRecord "[1, \"old.ll\", null]").before.tree.WellFormed ∧
    (callWithRecord "[1, \"old.ll\", null]").AsksForCode ∧
    ¬ StopsGeneration (callWithRecord "[1, \"old.ll\", null]").around.nesting (.parse "/w")
      (callWithRecord "[1, \"old.ll\", null]").made.tree [] := by
  have hwf : (callWithRecord "[1, \"old.ll\", null]").before.tree.WellFormed := by
    decide +kernel
  obtain ⟨-, -, hiff⟩ := Call.asks_unless_record_stops hwf (isDirectory_iff.2 (node?_nil _))
  have hasks : (callWithRecord "[1, \"old.ll\", null]").AsksForCode := by
    rw [Call.AsksForCode]
    decide +kernel
  exact ⟨hwf, hasks, (hiff.1 hasks).2.1⟩

/-- A record that holds nothing but null ends reading, and the toolchain is not asked. -/
theorem null_record_stops :
    EndsIn (.still []) (.ofTree (treeWithRecord "null")) (readRecord (.parse "/w")) .wrongType ∧
      (callWithRecord "null").outcome = .error .wrongType ∧
      (callWithRecord "null").after.irCalls = [] := by
  decide +kernel

end Units

end StagedBuild
