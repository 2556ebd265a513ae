import StagedBuild.Proofs.Artifact.Search
import StagedBuild.Proofs.Transfer.Replies

/-!
The cache of artifacts over any calls. Every file in it is either what an interrupted download has
left behind, or all of what a server has answered to the request for the artifact that its place
stands for.
-/

namespace StagedBuild.Artifact

open Action Disk FileTree Transfer Coordinate

variable {around : Surroundings} {t : FileTree} {root : Location} {cache p : Path}
  {u v w w' : World} {f : Resolver} {c : Coordinate} {extension url : String}

/-- What an interrupted download has left behind. -/
def IsLeftover (way : Location) : Prop :=
  ∃ (c : Coordinate) (extension : String), c.IsPlain ∧ IsPlainExtension extension ∧
    way = c.leftoverWay extension

/-- All of what a server has answered to the request for the artifact that a way stands for. -/
def IsWholeAt (around : Surroundings) (t : FileTree) (w : World) (way : Location)
    (bytes : List UInt8) : Prop :=
  ∃ (c : Coordinate) (extension url : String), c.IsPlain ∧ IsPlainExtension extension ∧
    way = c.way extension ∧ WasReceived around t w (addressIn url (c.relativePath extension)) bytes

/-- Every file below a directory is left behind or whole. -/
structure Intact (around : Surroundings) (t : FileTree) (root : Location) (w : World) :
    Prop where
  chronicled : Chronicled t w
  files : ∀ way file, way ≠ [] → w.tree.node? (root ++ way) = some (.file file) →
    IsLeftover way ∨ IsWholeAt around t w way file.bytes

/-- From one world to another the files below a directory stay intact. -/
def StaysIntact (around : Surroundings) (t : FileTree) (root : Location) (w w' : World) : Prop :=
  Intact around t root w → Intact around t root w'

instance : Passage (StaysIntact around t root) where
  refl _ := id
  trans h h' := h' ∘ h

theorem IsWholeAt.mono {way : Location} {bytes : List UInt8} (h : IsWholeAt around t w way bytes)
    (hlater : w.history <:+ w'.history) : IsWholeAt around t w' way bytes := by
  obtain ⟨c, extension, url, hc, hextension, hway, hreceived⟩ := h
  exact ⟨c, extension, url, hc, hextension, hway, hreceived.mono hlater⟩

theorem intact_of_empty (h : ∀ way, way ≠ [] → t.node? (root ++ way) = none) :
    Intact around t root (.ofTree t) where
  chronicled := rfl
  files way file hway hfile := by
    have hnone : (World.ofTree t).tree.node? (root ++ way) = none := h way hway
    rw [hnone] at hfile
    cases hfile

theorem Intact.of_adds {touched places : Location → Prop} (h : Intact around t root w)
    (hcontinues : Continues w w') (hadds : AddsOutside touched places w w')
    (htouched : ∀ way file, touched (root ++ way) →
      w'.tree.node? (root ++ way) = some (.file file) →
      IsLeftover way ∨ IsWholeAt around t w' way file.bytes) : Intact around t root w' where
  chronicled := hcontinues.2 t h.chronicled
  files way file hway hfile := by
    by_cases htouch : touched (root ++ way)
    · exact htouched way file htouch hfile
    · rcases hadds _ htouch with heq | ⟨-, -, hdir⟩
      · rcases h.files way file hway (heq ▸ hfile) with hleft | hwhole
        · exact .inl hleft
        · exact .inr (hwhole.mono hcontinues.1)
      · rw [hdir] at hfile
        cases hfile

theorem staysIntact_note {event : Event} (h : event.IsNote) :
    Keeps around (StaysIntact around t root) (note event) := by
  intro w hw
  have hadds : AddsOutside (fun _ => False) (fun _ => False) w (perform (note event) around w).2 :=
    fun _ _ => .inl rfl
  exact hw.of_adds (continues_note h w) hadds fun _ _ hfalse => hfalse.elim

section Obtaining

variable (hc : c.IsPlain) (hextension : IsPlainExtension extension)

include hc hextension

theorem isLeftover_of_temporary {way : Location}
    (hway : cacheRoot around.directory f.cache ++ way =
      goalOf around.directory (temporaryFor (cachePath f (c.relativePath extension)))) :
    IsLeftover way := by
  rw [goalOf_temporary_cachePath hc hextension.slash around.directory] at hway
  exact ⟨c, extension, hc, hextension, List.append_cancel_left hway⟩

/-- The files in the cache stay intact when none has changed but the temporary file of a download
and its destination, and what is at the destination was received. -/
theorem Intact.of_received (url : String) {places : Location → Prop}
    (hw : Intact around t (cacheRoot around.directory f.cache) w) (hcontinues : Continues w w')
    (hadds : AddsOutside (fun q =>
      q = goalOf around.directory (cachePath f (c.relativePath extension)) ∨
        q = goalOf around.directory (temporaryFor (cachePath f (c.relativePath extension))))
      places w w')
    (hreceived : ∀ file, w'.tree.node? (goalOf around.directory
        (cachePath f (c.relativePath extension))) = some (.file file) →
      WasReceived around t w' (addressIn url (c.relativePath extension)) file.bytes) :
    Intact around t (cacheRoot around.directory f.cache) w' := by
  refine hw.of_adds hcontinues hadds fun way file htouched hfile => ?_
  rcases htouched with hway | hway
  · have hwhole := hreceived file (hway ▸ hfile)
    rw [goalOf_cachePath hc hextension.slash around.directory] at hway
    exact .inr ⟨c, extension, url, hc, hextension, List.append_cancel_left hway, hwhole⟩
  · exact .inl (isLeftover_of_temporary hc hextension hway)

variable (hreads : around.ReadsWhole)

include hreads

theorem staysIntact_download (url : String) :
    Keeps around (StaysIntact around t (cacheRoot around.directory f.cache))
      (download f.settings (addressIn url (c.relativePath extension))
        (cachePath f (c.relativePath extension)) f.showProgress) := by
  intro w hw
  have hname := name_cachePath_ne f c extension
  have hcontinues : Keeps around Continues (download f.settings
      (addressIn url (c.relativePath extension)) (cachePath f (c.relativePath extension))
      f.showProgress) := continues_download _ _ _ hname
  rcases hperform : perform (download f.settings (addressIn url (c.relativePath extension))
    (cachePath f (c.relativePath extension)) f.showProgress) around w with ⟨fault | p, w'⟩
  · rcases left_of_download hname hperform with ⟨hothers, -⟩ | ⟨-, v, hmake, hexposed⟩
    · exact hw.of_adds (hcontinues.of_perform hperform) hothers
        fun way file hway _ => .inl (isLeftover_of_temporary hc hextension hway)
    · have hadded := adds_makeDirectories around (cachePath f (c.relativePath extension)).parent w
      rw [hmake] at hadded
      refine hw.of_received hc hextension url (hcontinues.of_perform hperform)
        ((AddsOutside.of_added hadded).trans hexposed.others) fun file hfile => ?_
      rcases hexposed.left with hnone | ⟨r, hbrought⟩
      · cases hnone.symm.trans hfile
      · obtain ⟨bytes, hbytes, hreceived⟩ :=
          received_of_brought hname hreads hw.chronicled hmake hperform hbrought
        exact hreceived.of_file hbytes hfile
  · obtain ⟨-, hplaced⟩ := placed_of_download hname hperform
    obtain ⟨bytes, hbytes, hreceived⟩ :=
      received_of_download hname hreads hw.chronicled hperform
    exact hw.of_received hc hextension url (hcontinues.of_perform hperform) hplaced.others
      fun file hfile => hreceived.of_file hbytes hfile

theorem staysIntact_obtain :
    Keeps around (StaysIntact around t (cacheRoot around.directory f.cache))
      (obtain f c extension) :=
  keeps_obtain (staysIntact_download hc hextension hreads)

end Obtaining

theorem staysIntact_dependenciesOf (hc : c.IsPlain) (hreads : around.ReadsWhole) :
    Keeps around (StaysIntact around t (cacheRoot around.directory f.cache))
      (dependenciesOf f c) := by
  have hpom : IsPlainExtension "pom" := ⟨by decide, by decide⟩
  exact keeps_dependenciesOf (fun _ => staysIntact_note (by trivial))
    (staysIntact_obtain hc hpom hreads)

/-- A call of a resolver. -/
inductive Call where
  | file (f : Resolver) (c : Coordinate) (extension : String)
  | jars (f : Resolver) (c : Coordinate)

namespace Call

def resolver : Call → Resolver
  | file f _ _ => f
  | jars f _ => f

def run : Call → Action (List Path)
  | file f c extension => do return [← obtain f c extension]
  | jars f c => obtainJars f c

/-- A call in a world is about plain coordinates only. -/
def IsPlain (around : Surroundings) (w : World) : Call → Prop
  | file _ c extension => c.IsPlain ∧ IsPlainExtension extension
  | jars f c => c.IsPlain ∧ ∀ ds w', perform (dependenciesOf f c) around w = (.ok ds, w') →
      ∀ d ∈ ds, d.IsPlain

end Call

theorem staysIntact_run {call : Call} (hreads : around.ReadsWhole)
    (hplain : call.IsPlain around w)
    (hw : Intact around t (cacheRoot around.directory call.resolver.cache) w) :
    Intact around t (cacheRoot around.directory call.resolver.cache)
      (perform call.run around w).2 := by
  cases call with
  | file f c extension =>
      have hkeeps : Keeps around (StaysIntact around t (cacheRoot around.directory f.cache))
          (Call.run (.file f c extension)) :=
        (staysIntact_obtain hplain.1 hplain.2 hreads).bind fun _ => Keeps.pure _
      exact hkeeps w hw
  | jars f c =>
      obtain ⟨hc, hdependencies⟩ := hplain
      have hjar : IsPlainExtension "jar" := ⟨by decide, by decide⟩
      refine Keeps.bind_at (R := StaysIntact around t (cacheRoot around.directory f.cache))
        (staysIntact_dependenciesOf hc hreads w) (fun ds v hds => ?_) hw
      have hwanted : ∀ d ∈ wanted c ds, d.IsPlain := by
        intro d hd
        rcases List.mem_cons.1 (List.mem_eraseDups.1 hd) with rfl | hd
        · exact hc
        · exact hdependencies ds v hds d hd
      have hmap : Keeps around (StaysIntact around t (cacheRoot around.directory f.cache))
          ((wanted c ds).mapM fun d => obtain f d "jar") :=
        Keeps.mapM fun d hd => staysIntact_obtain (hwanted d hd) hjar hreads
      exact hmap v

/-- Calls of resolvers with one cache, one after the other, each whatever came of those before. -/
inductive Run (around : Surroundings) (cache : Path) : World → List Call → World → Prop
  | nil (w : World) : Run around cache w [] w
  | cons {w w' : World} {call : Call} {rest : List Call} (hcache : call.resolver.cache = cache)
      (hplain : call.IsPlain around w)
      (hrest : Run around cache (perform call.run around w).2 rest w') :
      Run around cache w (call :: rest) w'

theorem whole_of_obtain (hc : c.IsPlain) (hextension : IsPlainExtension extension)
    (hreads : around.ReadsWhole)
    (hw : Intact around t (cacheRoot around.directory f.cache) w)
    (h : perform (obtain f c extension) around w = (.ok p, w')) {way : Location} {file : File}
    (hway : way ≠ [])
    (hplace : goalOf around.directory p = cacheRoot around.directory f.cache ++ way)
    (hfile : w'.tree.node? (goalOf around.directory p) = some (.file file)) :
    IsWholeAt around t w' way file.bytes := by
  have hkeeps : Keeps around (StaysIntact around t (cacheRoot around.directory f.cache))
      (obtain f c extension) := staysIntact_obtain hc hextension hreads
  have hw' := hkeeps.of_perform h hw
  rw [hplace] at hfile
  rcases hw'.files way file hway hfile with ⟨c', extension', -, -, rfl⟩ | hwhole
  · -- the place shows name, version and extension at its end, and a leftover has another one there
    have hgoal : ∃ front, goalOf around.directory p = front ++ c.way extension := by
      rcases place_of_obtain h with hp | ⟨base, -, hp⟩
      · rw [hp]
        exact ⟨_, goalOf_cachePath hc hextension.slash around.directory⟩
      · rw [hp]
        exact ⟨_, goalOf_place hc hextension.slash around.directory base⟩
    obtain ⟨front, hfront⟩ := hgoal
    rw [hplace, append_leftoverWay, append_way] at hfront
    exact absurd hfront.symm (not_leftover hextension _ _)
  · exact hwhole

/-- A run of calls leaves the files in the cache intact. -/
theorem Run.intact {calls : List Call} (h : Run around cache w calls w')
    (hreads : around.ReadsWhole) (hw : Intact around t (cacheRoot around.directory cache) w) :
    Intact around t (cacheRoot around.directory cache) w' := by
  induction h with
  | nil => exact hw
  | cons hcache hplain _ ih =>
      subst hcache
      exact ih (staysIntact_run hreads hplain hw)

/-- What a call that obtains a file gives back: where the file is in a repository on the disk, or
where it is kept. What is read there out of the cache is all of an answer to the request for the
artifact that the place stands for; where the file is kept, this is the artifact that was asked
for. -/
structure Obtained (around : Surroundings) (t : FileTree) (f : Resolver) (c : Coordinate)
    (extension : String) (p : Path) (w : World) : Prop where
  place : p = cachePath f (c.relativePath extension) ∨
    ∃ base, .onDisk base ∈ f.repositories ∧ p = base / c.relativePath extension
  whole : ∀ way bytes, way ≠ [] → goalOf around.directory p =
      cacheRoot around.directory f.cache ++ way →
    bytesAt p w.tree around.directory = .ok bytes → IsWholeAt around t w way bytes
  own : p = cachePath f (c.relativePath extension) → ∀ bytes,
    bytesAt p w.tree around.directory = .ok bytes →
      ∃ url, WasReceived around t w (addressIn url (c.relativePath extension)) bytes

theorem obtained_of_perform (hc : c.IsPlain) (hextension : IsPlainExtension extension)
    (hreads : around.ReadsWhole)
    (hw : Intact around t (cacheRoot around.directory f.cache) w)
    (h : perform (obtain f c extension) around w = (.ok p, w')) :
    Obtained around t f c extension p w' := by
  have hwhole : ∀ way bytes, way ≠ [] → goalOf around.directory p =
      cacheRoot around.directory f.cache ++ way →
      bytesAt p w'.tree around.directory = .ok bytes → IsWholeAt around t w' way bytes := by
    intro way bytes hway hplace hbytes
    obtain ⟨-, -, file, hfile, rfl⟩ := bytesAt_eq_ok_iff.1 hbytes
    exact whole_of_obtain hc hextension hreads hw h hway hplace hfile
  refine ⟨place_of_obtain h, hwhole, fun hp bytes hbytes => ?_⟩
  have hplace : goalOf around.directory p =
      cacheRoot around.directory f.cache ++ c.way extension := by
    rw [hp]
    exact goalOf_cachePath hc hextension.slash around.directory
  obtain ⟨c', extension', url, -, -, hway, hreceived⟩ :=
    hwhole (c.way extension) bytes (c.way_ne_nil extension) hplace hbytes
  obtain ⟨rfl, rfl⟩ := way_injective hway
  exact ⟨url, hreceived⟩

/-- Whatever calls were made since the cache was empty, every file in it is a leftover of an
interrupted download or all of an answer to the request for the artifact that its place stands for.
What the next call gives back from the cache is such an answer, never a leftover. -/
theorem cached_files_are_whole (around : Surroundings) (cache : Path) (t : FileTree)
    (calls : List Call) (w : World) (hreads : around.ReadsWhole)
    (hempty : ∀ way, way ≠ [] → t.node? (cacheRoot around.directory cache ++ way) = none)
    (hrun : Run around cache (.ofTree t) calls w) :
    (∀ way file, way ≠ [] →
        w.tree.node? (cacheRoot around.directory cache ++ way) = some (.file file) →
        IsLeftover way ∨ IsWholeAt around t w way file.bytes) ∧
      ∀ (f : Resolver) (c : Coordinate) (extension : String) (p : Path) (w' : World),
        f.cache = cache → c.IsPlain → IsPlainExtension extension →
        perform (obtain f c extension) around w = (.ok p, w') →
        Obtained around t f c extension p w' := by
  have hintact := hrun.intact hreads (intact_of_empty hempty)
  refine ⟨hintact.files, fun f c extension p w' hcache hc hextension hobtain => ?_⟩
  subst hcache
  exact obtained_of_perform hc hextension hreads hintact hobtain

section Served

/-- A resolver that asks one server. -/
def resolverOfWeb : Resolver :=
  ⟨.parse "/c", [.onWeb "http://h/m"], .default, false⟩

theorem cached_jar_is_whole :
    aroundServingJar.ReadsWhole ∧
    (∀ way, way ≠ [] → FileTree.empty.node? (cacheRoot [] (.parse "/c") ++ way) = none) ∧
      ∃ w p w', Run aroundServingJar (.parse "/c") (.ofTree .empty)
          [.file resolverOfWeb ⟨"o", "n", "1"⟩ "jar"] w ∧
        perform (obtain resolverOfWeb ⟨"o", "n", "1"⟩ "jar") aroundServingJar w = (.ok p, w') ∧
        bytesAt p w'.tree [] = .ok [80, 75, 5] ∧
        Obtained aroundServingJar .empty resolverOfWeb ⟨"o", "n", "1"⟩ "jar" p w' := by
  have hplain : Coordinate.IsPlain ⟨"o", "n", "1"⟩ :=
    ⟨by decide, by decide, by decide, by decide⟩
  have hjar : IsPlainExtension "jar" := ⟨by decide, by decide⟩
  have hempty : ∀ way, way ≠ [] →
      FileTree.empty.node? (cacheRoot [] (.parse "/c") ++ way) = none := by
    intro way hway
    rw [FileTree.node?, if_neg (by simp [hway])]
    rfl
  have hrun : Run aroundServingJar (.parse "/c") (.ofTree .empty)
      [.file resolverOfWeb ⟨"o", "n", "1"⟩ "jar"] _ :=
    .cons rfl ⟨hplain, hjar⟩ (.nil _)
  obtain ⟨-, hnext⟩ := cached_files_are_whole aroundServingJar (.parse "/c") .empty _ _
    readsWhole_servingJar hempty hrun
  have hkept : perform (obtain resolverOfWeb ⟨"o", "n", "1"⟩ "jar") aroundServingJar
      (perform (Call.file resolverOfWeb ⟨"o", "n", "1"⟩ "jar").run aroundServingJar
        (.ofTree .empty)).2 = (.ok (.parse "/c/maven/o/n/1/n-1.jar"), _) :=
    Prod.ext (by decide +kernel) rfl
  exact ⟨readsWhole_servingJar, hempty, _, _, _, hrun, hkept, by decide +kernel,
    hnext _ _ _ _ _ rfl hplain hjar hkept⟩

/-- Surroundings in which every answer breaks off after two of its bytes. -/
def aroundBreakingOff : Surroundings :=
  { Surroundings.still [] with
    server := fun _ _ => .answered (.ofBytes none [80, 75, 5] (some (2, .interrupted))) }

/-- Two extensions that are not plain: the one gives back what an interrupted download has left
behind, the other puts its file in the place of another version. -/
theorem unplain_extensions_mix_files :
    (∃ w p w',
      perform (obtain resolverOfWeb ⟨"o", "n", "1"⟩ "jar") aroundBreakingOff (.ofTree .empty) =
        (.error .interrupted, w) ∧
      perform (obtain resolverOfWeb ⟨"o", "n", "1"⟩ "jar.tmp") aroundBreakingOff w =
        (.ok p, w') ∧
      bytesAt p w'.tree [] = .ok [80, 75] ∧
      ∀ url, ¬ WasReceived aroundBreakingOff .empty w' url [80, 75]) ∧
    ∃ q w p w',
      perform (obtain resolverOfWeb ⟨"o", "n", "1"⟩ "x/../../2/n-2.jar") aroundServingJar
        (.ofTree .empty) = (.ok q, w) ∧
      perform (obtain resolverOfWeb ⟨"o", "n", "2"⟩ "jar") aroundServingJar w = (.ok p, w') ∧
      bytesAt p w'.tree [] = .ok [80, 75, 5] ∧
      ∀ bytes, ¬ WasReceived aroundServingJar .empty w' "http://h/m/o/n/2/n-2.jar" bytes := by
  refine ⟨⟨_, .parse "/c/maven/o/n/1/n-1.jar.tmp", _, Prod.ext (by decide +kernel) rfl,
    Prod.ext (by decide +kernel) rfl, by decide +kernel, ?_⟩,
    .parse "/c/maven/o/n/1/n-1.x/../../2/n-2.jar", _, .parse "/c/maven/o/n/2/n-2.jar", _,
    Prod.ext (by decide +kernel) rfl, Prod.ext (by decide +kernel) rfl, by decide +kernel, ?_⟩
  · rintro url ⟨asked, r, -, hreply, -, hcontent⟩
    obtain ⟨v, hserver⟩ := server_of_mem_replies hreply
    obtain rfl := Reply.answered.inj hserver
    cases hcontent
  · rintro bytes ⟨asked, r, hurl, hreply, -⟩
    have hasked : ∀ reply ∈ replies aroundServingJar .empty
        (perform (obtain resolverOfWeb ⟨"o", "n", "2"⟩ "jar") aroundServingJar
          (perform (obtain resolverOfWeb ⟨"o", "n", "1"⟩ "x/../../2/n-2.jar") aroundServingJar
            (.ofTree .empty)).2).2.history, reply.1.url ≠ "http://h/m/o/n/2/n-2.jar" := by
      decide +kernel
    exact hasked _ hreply hurl

end Served

end StagedBuild.Artifact
