import StagedBuild.Proofs.Artifact.Declared
import StagedBuild.Proofs.Artifact.Search

/-!
What is looked up for the jars of an artifact: its own files, and the jars of the dependencies that
its description declares in full. No placeholder is left in the version of such a dependency; its
publisher and its name are taken as they are written.
-/

namespace StagedBuild

open Action

namespace World

variable {w w' : World} {sort other : Request → Prop}

/-- From one world to another only requests of a sort are made. -/
def AsksOnly (sort : Request → Prop) (w w' : World) : Prop :=
  ∃ asked, w'.requests = w.requests ++ asked ∧ ∀ request ∈ asked, sort request

instance : Passage (AsksOnly sort) where
  refl _ := ⟨[], (List.append_nil _).symm, by simp⟩
  trans := by
    rintro u v w ⟨first, hfirst, hsort⟩ ⟨second, hsecond, hsort'⟩
    refine ⟨first ++ second, by rw [hsecond, hfirst, List.append_assoc], fun request h => ?_⟩
    rcases List.mem_append.1 h with h | h
    · exact hsort request h
    · exact hsort' request h

theorem AsksOnly.of_eq (h : w'.requests = w.requests) : AsksOnly sort w w' :=
  ⟨[], by rw [h, List.append_nil], by simp⟩

theorem AsksOnly.mono (h : AsksOnly sort w w') (hsort : ∀ request, sort request → other request) :
    AsksOnly other w w' := by
  obtain ⟨asked, hrequests, hasked⟩ := h
  exact ⟨asked, hrequests, fun request hrequest => hsort _ (hasked request hrequest)⟩

theorem requests_warned (w : World) (warnings : List Warning) :
    requests { w with history := (warnings.map Event.warned).reverse ++ w.history } =
      w.requests := by
  simp [requests, events, List.filterMap_append, List.filterMap_map]

theorem warnings_warned (w : World) (warnings : List Warning) :
    World.warnings { w with history := (warnings.map Event.warned).reverse ++ w.history } =
      w.warnings ++ warnings := by
  simp [World.warnings, events, List.filterMap_append, List.filterMap_map]

end World

namespace Pom

variable {around : Surroundings} {w w' : World} {text : String} {c d : Coordinate}
  {ds : List Coordinate} {root e : Xml.Element}

/-- A placeholder begins in a text. -/
def HasOpening (s : String) : Prop :=
  ['$', '\x7b'] <:+: s.toList

instance (s : String) : Decidable (HasOpening s) :=
  decidable_of_iff _ (hasPlaceholder_iff s.toList)

/-- The dependencies of a project that count and are declared in full. -/
def declaredDependencies (root : Xml.Element) (dependent : Coordinate) : List Xml.Element :=
  (countingDependencies root).filter fun e => ∃ d, Declares root dependent e d

/-- The warnings about dependencies of a project that count and are not declared in full. -/
def skippedWarnings (root : Xml.Element) (dependent : Coordinate) : List Warning :=
  ((countingDependencies root).filter fun e => ¬ ∃ d, Declares root dependent e d).map
    (unresolved dependent)

/-- A description gives the dependencies that are declared in full, and warns of the others. -/
structure Gives (text : String) (c : Coordinate) (root : Xml.Element) (ds : List Coordinate)
    (w w' : World) : Prop where
  parsed : Xml.parse? text = some root
  declared : List.Forall₂ (Declares root c) (declaredDependencies root c) ds
  world : w' = { w with
    history := ((skippedWarnings root c).map Event.warned).reverse ++ w.history }

theorem exists_gives (hroot : Xml.parse? text = some root) (c : Coordinate)
    (around : Surroundings) (w : World) :
    ∃ ds w', perform (dependencies text c) around w = (.ok ds, w') ∧ Gives text c root ds w w' := by
  obtain ⟨found, hfound, hreport⟩ := perform_report root c around (countingDependencies root) w
  refine ⟨found, _, ?_, hroot, hfound, rfl⟩
  rw [dependencies, hroot]
  dsimp only
  rw [findings_eq, hreport, skippedWarnings, List.map_map]
  rfl

theorem gives_of_dependencies (h : perform (dependencies text c) around w = (.ok ds, w')) :
    ∃ root, Gives text c root ds w w' := by
  cases hroot : Xml.parse? text with
  | none =>
      rw [dependencies, hroot] at h
      cases h
  | some root =>
      obtain ⟨ds', v, hperform, hgives⟩ := exists_gives hroot c around w
      obtain ⟨hds, rfl⟩ := Prod.mk.inj (hperform.symm.trans h)
      obtain rfl := Except.ok.inj hds
      exact ⟨root, hgives⟩

theorem Gives.exists_declares (h : Gives text c root ds w w') (hd : d ∈ ds) :
    ∃ e ∈ countingDependencies root, Declares root c e d := by
  have hmem : ∀ {es ds}, List.Forall₂ (Declares root c) es ds → d ∈ ds →
      ∃ e ∈ es, Declares root c e d := by
    intro es ds hdeclared hd
    induction hdeclared with
    | nil => cases hd
    | cons hfirst _ ih =>
        rcases List.mem_cons.1 hd with rfl | hd
        · exact ⟨_, List.mem_cons_self, hfirst⟩
        · obtain ⟨e, he, hdeclares⟩ := ih hd
          exact ⟨e, List.mem_cons_of_mem _ he, hdeclares⟩
  obtain ⟨e, he, hdeclares⟩ := hmem h.declared hd
  exact ⟨e, (List.mem_filter.1 he).1, hdeclares⟩

theorem Gives.unique {ds' : List Coordinate} {v v' : World} (h : Gives text c root ds w w')
    (h' : Gives text c root ds' v v') : ds = ds' :=
  List.right_unique_forall₂' (fun _ _ _ hd hd' => hd.unique hd') h.declared h'.declared

theorem Gives.requests (h : Gives text c root ds w w') : w'.requests = w.requests := by
  rw [h.world, World.requests_warned]

theorem Gives.warnings (h : Gives text c root ds w w') :
    w'.warnings = w.warnings ++ skippedWarnings root c := by
  rw [h.world, World.warnings_warned]

theorem Gives.tree (h : Gives text c root ds w w') : w'.tree = w.tree := by
  rw [h.world]

end Pom

namespace Artifact

open Disk Pom

variable {around : Surroundings} {u v w w' : World} {f : Resolver} {c d : Coordinate}
  {ds : List Coordinate} {extension : String} {ps : List Path} {outcome : Except Fault (List Path)}

theorem asksOnly_obtain (f : Resolver) (c : Coordinate) (extension : String) :
    Keeps around (World.AsksOnly fun request => ∃ url, .onWeb url ∈ f.repositories ∧
      request = requestTo f c extension url) (obtain f c extension) := by
  intro w
  obtain ⟨outcome, asked, w', hends⟩ := exists_ends f c extension around f.repositories w
  rw [hends.perform_obtain]
  exact ⟨asked, requests_of_ends hends, fun request h => requestTo_of_ends hends h⟩

/-- How the dependencies of an artifact come out: there is no description, or it was found and read,
and gives them. -/
inductive DependsOn (f : Resolver) (c : Coordinate) (around : Surroundings) :
    List Coordinate → World → World → Prop
  | nothing {w w' : World} {missing : ResolutionFault}
      (hpom : perform (obtain f c "pom") around w = (.error (.resolution missing), w')) :
      DependsOn f c around [] w w'
  | described {w v w' : World} {pom : Path} {text : String} {root : Xml.Element}
      {ds : List Coordinate} (hpom : perform (obtain f c "pom") around w = (.ok pom, v))
      (htext : perform (readText pom) around v = (.ok text, v))
      (hgives : Gives text c root ds v w') :
      DependsOn f c around ds w w'

theorem dependsOn_of_dependenciesOf
    (h : perform (dependenciesOf f c) around w = (.ok ds, w')) : DependsOn f c around ds w w' := by
  unfold dependenciesOf at h
  obtain ⟨ended, v, hended, h⟩ := perform_bind_eq_ok.1 h
  rw [perform_outcome] at hended
  obtain ⟨hok, rfl⟩ := Prod.mk.inj hended
  obtain rfl := Except.ok.inj hok
  rcases hpom : perform (obtain f c "pom") around w with ⟨fault | pom, v⟩
  · rw [hpom] at h
    cases fault with
    | resolution missing =>
        cases h
        exact .nothing hpom
    | _ => cases h
  · rw [hpom] at h
    dsimp only at h
    obtain ⟨text, v', htext, hdependencies⟩ := perform_bind_eq_ok.1 h
    obtain rfl : v' = v := (readOnly_readText pom around).of_perform htext
    obtain ⟨root, hgives⟩ := gives_of_dependencies hdependencies
    exact .described hpom htext hgives

/-- A file that is looked up for the jars of an artifact: its description, its jar, or the jar of a
dependency that the description declares in full. -/
inductive IsSought (f : Resolver) (c : Coordinate) (around : Surroundings) (w : World) :
    Coordinate → String → Prop
  | description : IsSought f c around w c "pom"
  | jar : IsSought f c around w c "jar"
  | dependency {v : World} {pom : Path} {text : String} {root e : Xml.Element} {d : Coordinate}
      (hpom : perform (obtain f c "pom") around w = (.ok pom, v))
      (htext : perform (readText pom) around v = (.ok text, v))
      (hroot : Xml.parse? text = some root) (he : e ∈ countingDependencies root)
      (hd : Declares root c e d) : IsSought f c around w d "jar"

theorem isSought_of_wanted (h : DependsOn f c around ds w w') (hd : d ∈ wanted c ds) :
    IsSought f c around w d "jar" := by
  rcases List.mem_cons.1 (List.mem_eraseDups.1 hd) with rfl | hd
  · exact .jar
  · cases h with
    | nothing => cases hd
    | described hpom htext hgives =>
        obtain ⟨e, he, hdeclares⟩ := hgives.exists_declares hd
        exact .dependency hpom htext hgives.parsed he hdeclares

/-- No placeholder is left open in a version that is looked up for the sake of an artifact, but that
of the artifact itself. -/
theorem IsSought.closed (h : IsSought f c around w d extension) :
    d = c ∨ ¬ HasOpening d.version := by
  cases h with
  | description | jar => exact .inl rfl
  | dependency _ _ _ _ hd => exact .inr hd.version_closed

theorem asksOnly_dependenciesOf (f : Resolver) (c : Coordinate) :
    Keeps around (World.AsksOnly fun request => ∃ url, .onWeb url ∈ f.repositories ∧
      request = requestTo f c "pom" url) (dependenciesOf f c) :=
  keeps_dependenciesOf (fun warning w => .of_eq (World.requests_warned w [warning]))
    (asksOnly_obtain f c "pom")

theorem asksOnly_obtainJars (f : Resolver) (c : Coordinate) (around : Surroundings) (w : World) :
    World.AsksOnly (fun request => ∃ url d extension, .onWeb url ∈ f.repositories ∧
        request = requestTo f d extension url ∧ IsSought f c around w d extension) w
      (perform (obtainJars f c) around w).2 := by
  refine Keeps.bind_at ((asksOnly_dependenciesOf f c w).mono ?_) fun ds v hds => ?_
  · rintro request ⟨url, hurl, rfl⟩
    exact ⟨url, c, "pom", hurl, rfl, .description⟩
  · refine Keeps.mapM (fun d hd u => (asksOnly_obtain f d "jar" u).mono ?_) v
    rintro request ⟨url, hurl, rfl⟩
    exact ⟨url, d, "jar", hurl, rfl, isSought_of_wanted (dependsOn_of_dependenciesOf hds) hd⟩

/-- A description gives the dependencies that are declared in full, with publisher and name as they
are written and with no placeholder left in the version, and warns of every other one. For the jars
of an artifact nothing is looked up but its own files and the jars of such dependencies. -/
theorem jars_take_closed_versions (f : Resolver) (c : Coordinate) (around : Surroundings)
    (w : World) :
    (∀ text ds w', perform (dependencies text c) around w = (.ok ds, w') →
      (∃ root, Xml.parse? text = some root ∧
        List.Forall₂ (Declares root c) (declaredDependencies root c) ds ∧
        w'.warnings = w.warnings ++ skippedWarnings root c) ∧
      ∀ d ∈ ds, ¬ HasOpening d.version) ∧
    (∀ outcome w', perform (obtainJars f c) around w = (outcome, w') →
      World.AsksOnly (fun request => ∃ url d extension, .onWeb url ∈ f.repositories ∧
        request = requestTo f d extension url ∧ IsSought f c around w d extension) w w' ∧
      ((∃ fault, outcome = .error fault ∧
          perform (dependenciesOf f c) around w = (.error fault, w')) ∨
        ∃ ds v, perform (dependenciesOf f c) around w = (.ok ds, v) ∧
          perform ((wanted c ds).mapM fun d => obtain f d "jar") around v = (outcome, w') ∧
          ∀ d ∈ wanted c ds, IsSought f c around w d "jar")) ∧
    ∀ d extension, IsSought f c around w d extension → d = c ∨ ¬ HasOpening d.version := by
  refine ⟨fun text ds w' h => ?_, fun outcome w' h => ⟨?_, ?_⟩, fun _ _ h => h.closed⟩
  · obtain ⟨root, hgives⟩ := gives_of_dependencies h
    refine ⟨⟨root, hgives.parsed, hgives.declared, hgives.warnings⟩, fun d hd => ?_⟩
    obtain ⟨e, -, hdeclares⟩ := hgives.exists_declares hd
    exact hdeclares.version_closed
  · have hasks := asksOnly_obtainJars f c around w
    rwa [h] at hasks
  · unfold obtainJars at h
    rcases hds : perform (dependenciesOf f c) around w with ⟨fault | ds, v⟩
    · rw [perform_bind_error hds] at h
      obtain ⟨rfl, rfl⟩ := Prod.mk.inj h
      exact .inl ⟨fault, rfl, rfl⟩
    · rw [perform_bind_ok hds] at h
      exact .inr ⟨ds, v, rfl, h, fun d hd =>
        isSought_of_wanted (dependsOn_of_dependenciesOf hds) hd⟩

section Open

def projectWith (org version : String) : String :=
  "<p><dependencies><dependency><groupId>" ++ org ++ "</groupId><artifactId>a</artifactId><version>"
    ++ version ++ "</version></dependency></dependencies></p>"

theorem open_version_is_skipped :
    ∃ w', perform (dependencies (projectWith "g" "$\x7bv\x7d") ⟨"o", "p", "3"⟩) (.still [])
        (.ofTree .empty) = (.ok [], w') ∧
      ∃ root, Xml.parse? (projectWith "g" "$\x7bv\x7d") = some root ∧
        w'.warnings = (World.ofTree .empty).warnings ++ skippedWarnings root ⟨"o", "p", "3"⟩ ∧
        w'.warnings = [.unresolvedDependency (some "g") (some "a") "o:p:3"] := by
  have hresult : ∀ r, perform (dependencies (projectWith "g" "$\x7bv\x7d") ⟨"o", "p", "3"⟩)
      (.still []) (.ofTree .empty) = r → r.1 = .ok [] ∧
        r.2.warnings = [.unresolvedDependency (some "g") (some "a") "o:p:3"] := by
    rintro _ rfl
    decide +kernel
  rcases hperform : perform (dependencies (projectWith "g" "$\x7bv\x7d") ⟨"o", "p", "3"⟩)
    (.still []) (.ofTree .empty) with ⟨outcome, w'⟩
  obtain ⟨rfl, hskipped⟩ := hresult _ hperform
  obtain ⟨⟨root, hroot, -, hwarnings⟩, -⟩ :=
    (jars_take_closed_versions resolverOfBoth ⟨"o", "p", "3"⟩ (.still []) (.ofTree .empty)).1 _ _ _
      hperform
  exact ⟨w', rfl, root, hroot, hwarnings, hskipped⟩

/-- A placeholder in the publisher of a dependency is taken as it is written. -/
theorem open_publisher_is_taken :
    (perform (dependencies (projectWith "$\x7bg\x7d" "1") ⟨"o", "p", "3"⟩) (.still [])
        (.ofTree .empty)).1 = .ok [⟨"$\x7bg\x7d", "a", "1"⟩] ∧ HasOpening "$\x7bg\x7d" := by
  decide +kernel

end Open

end Artifact

end StagedBuild
