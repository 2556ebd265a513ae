import StagedBuild.Proofs.Artifact.Lasting

/-!
Looking up the jars of an artifact twice. The jars that come are those of the artifact and of its
dependencies, each once. When the description was found and the repositories on the disk lie apart
from the cache, the second time everything is found where it was found the first time, and no server
is asked.
-/

namespace StagedBuild

namespace Action

variable {α β : Type} {around : Surroundings} {R : World → World → Prop} {w w' : World}
  {g : α → Action β} {xs : List α} {ys : List β}

theorem passage_of_perform_mapM [Passage R]
    (hkeeps : ∀ x ∈ xs, ∀ u y v, perform (g x) around u = (.ok y, v) → R u v)
    (h : perform (xs.mapM g) around w = (.ok ys, w')) : R w w' := by
  induction xs generalizing w ys with
  | nil =>
      cases h
      exact Passage.refl _
  | cons x xs ih =>
      rw [List.mapM_cons] at h
      obtain ⟨y, v, hx, h⟩ := perform_bind_eq_ok.1 h
      obtain ⟨zs, v', hxs, h⟩ := perform_bind_eq_ok.1 h
      cases h
      exact Passage.trans (hkeeps x List.mem_cons_self w y v hx)
        (ih (fun x hx => hkeeps x (List.mem_cons_of_mem _ hx)) hxs)

theorem forall₂_of_perform_mapM [Passage R]
    (hkeeps : ∀ x ∈ xs, ∀ u y v, perform (g x) around u = (.ok y, v) → R u v)
    (h : perform (xs.mapM g) around w = (.ok ys, w')) :
    List.Forall₂
      (fun x y => ∃ u v, R w u ∧ perform (g x) around u = (.ok y, v) ∧ R v w') xs ys := by
  induction xs generalizing w ys with
  | nil =>
      cases h
      exact .nil
  | cons x xs ih =>
      rw [List.mapM_cons] at h
      obtain ⟨y, v, hx, h⟩ := perform_bind_eq_ok.1 h
      obtain ⟨zs, v', hxs, h⟩ := perform_bind_eq_ok.1 h
      cases h
      have hrest : ∀ x ∈ xs, ∀ u y v, perform (g x) around u = (.ok y, v) → R u v :=
        fun x hx => hkeeps x (List.mem_cons_of_mem _ hx)
      have hfirst := hkeeps x List.mem_cons_self _ y v hx
      refine .cons ⟨w, v, Passage.refl w, hx, passage_of_perform_mapM hrest hxs⟩ ?_
      refine (ih hrest hxs).imp ?_
      rintro x y ⟨a, b, ha, hperform, hb⟩
      exact ⟨a, b, Passage.trans hfirst ha, hperform, hb⟩

theorem perform_mapM_of_forall₂
    (h : List.Forall₂ (fun x y => perform (g x) around w = (.ok y, w)) xs ys) :
    perform (xs.mapM g) around w = (.ok ys, w) := by
  induction h with
  | nil => rfl
  | cons hx _ ih =>
      rw [List.mapM_cons, perform_bind_ok hx, perform_bind_ok ih]
      rfl

end Action

namespace Artifact

open Action Disk FileTree Transfer Pom

variable {around around' : Surroundings} {u v w w' x : World} {f : Resolver} {c d : Coordinate}
  {extension : String} {p : Path} {repository : Repository} {rest : List Repository}
  {roots : List Path} {urls : List String} {asked : List Request} {ps : List Path}
  {ds : List Coordinate}

section Search

theorem Ends.of_cons (h : Ends f c extension around (repository :: rest) (.ok p) asked u v) :
    (∃ asked, Provides f c extension around repository p asked u v) ∨
      ∃ w asked, Lacks f c extension around repository u w ∧
        Ends f c extension around rest (.ok p) asked w v := by
  generalize hrepositories : repository :: rest = repositories at h
  cases h with
  | found hbefore hprovides =>
      cases hbefore with
      | nil =>
          obtain ⟨rfl, rfl⟩ := List.cons.inj hrepositories
          exact .inl ⟨_, hprovides⟩
      | cons hlacks hbefore =>
          obtain ⟨rfl, rfl⟩ := List.cons.inj hrepositories
          exact .inr ⟨_, _, hlacks, .found hbefore hprovides⟩

theorem Ends.cons (hlacks : Lacks f c extension around repository u v)
    (h : Ends f c extension around rest (.ok p) asked v w) :
    ∃ asked, Ends f c extension around (repository :: rest) (.ok p) asked u w := by
  cases h with
  | found hbefore hprovides =>
      rw [← List.cons_append]
      exact ⟨_, .found (.cons hlacks hbefore) hprovides⟩

theorem Provides.answerAt (h : Provides f c extension around repository p asked u v) :
    ∃ node, answerAt p v.tree around.directory = .ok (some node) := by
  cases h with
  | onDisk hnode | kept hnode => exact ⟨_, hnode⟩
  | fetched _ hfetch =>
      obtain ⟨file, hfile⟩ := (placed_of_fetch hfetch).2.readable.answerAt
      exact ⟨_, hfile⟩

theorem Ends.answerAt {repositories : List Repository}
    (h : Ends f c extension around repositories (.ok p) asked u v) :
    ∃ node, answerAt p v.tree around.directory = .ok (some node) := by
  cases h with
  | found _ hprovides => exact hprovides.answerAt

theorem Ends.kept (h : Ends f c extension around (urls.map .onWeb) (.ok p) asked u v) :
    p = cachePath f (c.relativePath extension) ∧ urls ≠ [] := by
  generalize hrepositories : urls.map Repository.onWeb = repositories at h
  cases h with
  | @found _ _ repository _ _ _ _ _ _ hprovides =>
      obtain ⟨url, hurl, rfl⟩ : ∃ url ∈ urls, .onWeb url = repository :=
        List.mem_map.1 (hrepositories ▸ List.mem_append_right _ List.mem_cons_self)
      refine ⟨?_, List.ne_nil_of_mem hurl⟩
      cases hprovides with
      | kept | fetched => rfl

/-- Where everything that was absent from the disk is absent and what was found is there, a search
ends at the same place, and changes nothing. -/
theorem Ends.again (hdirectory : around'.directory = around.directory)
    (h : Ends f c extension around (roots.map .onDisk ++ urls.map .onWeb) (.ok p) asked u v)
    (habsent : ∀ root ∈ roots,
      Disk.answerAt (root / c.relativePath extension) u.tree around.directory = .ok none →
      Disk.answerAt (root / c.relativePath extension) x.tree around.directory = .ok none)
    {node : Node} (hnode : Disk.answerAt p x.tree around.directory = .ok (some node)) :
    ∃ asked, Ends f c extension around' (roots.map .onDisk ++ urls.map .onWeb) (.ok p)
      asked x x := by
  rw [← hdirectory] at hnode
  induction roots generalizing asked u with
  | nil =>
      obtain ⟨hp, hne⟩ := Ends.kept h
      obtain ⟨url, urls, rfl⟩ := List.exists_cons_of_ne_nil hne
      rw [hp] at hnode ⊢
      exact ⟨_, .found (.nil x) (.kept hnode)⟩
  | cons root roots ih =>
      rcases Ends.of_cons h with ⟨_, hprovides⟩ | ⟨w, _, hlacks, hrest⟩
      · cases hprovides with
        | onDisk => exact ⟨_, .found (.nil x) (.onDisk hnode)⟩
      · cases hlacks with
        | onDisk hnone =>
            have hnone' := habsent root List.mem_cons_self hnone
            rw [← hdirectory] at hnone'
            obtain ⟨_, hends⟩ :=
              ih hrest fun root hroot => habsent root (List.mem_cons_of_mem _ hroot)
            exact hends.cons (.onDisk hnone')

end Search

/-- The repositories of a resolver are arranged: those on the disk come first, and each of them lies
apart from the cache. -/
structure IsArranged (t : FileTree) (cwd : Location) (f : Resolver) : Prop where
  order : ∃ (roots : List Path) (urls : List String),
    f.repositories = roots.map .onDisk ++ urls.map .onWeb
  cache : IsSettled t cwd f.cache
  apart : ∀ root, .onDisk root ∈ f.repositories → LiesApart t cwd f root

theorem place_of_found (hkind : IsKind extension)
    (h : perform (obtain f c extension) around u = (.ok p, v)) :
    ¬ EndsIn ".tmp" (goalOf around.directory p) ∧
      ∀ step ∈ (Path.parse (c.relativePath extension)).steps, FileTree.fits step = true := by
  obtain ⟨_, hends⟩ := perform_obtain_iff.1 h
  obtain ⟨node, hnode⟩ := hends.answerAt
  obtain ⟨base, hp⟩ := exists_base_of_obtain h
  obtain ⟨-, hlocate, -⟩ := answerAt_eq_some_iff.1 hnode
  refine ⟨hp ▸ not_temporary_place hkind base c _, fun step hstep => ?_⟩
  refine (locate_eq_ok_iff.1 hlocate).2.2.2 step ?_
  rw [hp]
  exact Path.mem_steps_join hstep

section Twice

variable (ht : w.tree.WellFormed) (harranged : IsArranged w.tree around.directory f)
  (hdirectory : around'.directory = around.directory) (hx : x.tree = w'.tree)

include ht harranged hdirectory hx

theorem obtain_again (hkind : IsKind extension) (hconfined : IsConfined c extension)
    (hu : Lasts around.directory f w u)
    (hobtain : perform (obtain f c extension) around u = (.ok p, v))
    (hv : Lasts around.directory f v w') :
    perform (obtain f c extension) around' x = (.ok p, x) := by
  obtain ⟨htemporary, hfits⟩ := place_of_found hkind hobtain
  obtain ⟨_, hends⟩ := perform_obtain_iff.1 hobtain
  obtain ⟨node, hnode⟩ := hends.answerAt
  obtain ⟨node', hnode'⟩ := hv.remains.found htemporary hnode
  have hlasts : Lasts around.directory f u w' :=
    Passage.trans (lasts_of_obtain hconfined hobtain nofun) hv
  obtain ⟨roots, urls, hrepositories⟩ := harranged.order
  rw [hrepositories] at hends
  have habsent : ∀ root ∈ roots,
      Disk.answerAt (root / c.relativePath extension) u.tree around.directory = .ok none →
      Disk.answerAt (root / c.relativePath extension) x.tree around.directory = .ok none := by
    intro root hroot hnone
    have hapart := harranged.apart root
      (hrepositories ▸ List.mem_append_left _ (List.mem_map_of_mem hroot))
    rw [hx]
    exact hu.absent hlasts ht harranged.cache hapart hconfined hfits hnone
  obtain ⟨_, hagain⟩ := hends.again hdirectory habsent (hx ▸ hnode')
  rw [← hrepositories] at hagain
  exact hagain.perform_obtain

theorem jars_again (hconfined : ∀ d ∈ ds, IsConfined d "jar") (hu : Lasts around.directory f w u)
    (h : perform (ds.mapM fun d => obtain f d "jar") around u = (.ok ps, w')) :
    perform (ds.mapM fun d => obtain f d "jar") around' x = (.ok ps, x) := by
  have hjars := forall₂_of_perform_mapM (R := Lasts around.directory f)
    (fun d hd _ _ _ hobtain => lasts_of_obtain (hconfined d hd) hobtain nofun) h
  refine perform_mapM_of_forall₂ ?_
  have hmem : List.Forall₂ (fun d p => d ∈ ds ∧ ∃ a b, Lasts around.directory f u a ∧
      perform (obtain f d "jar") around a = (.ok p, b) ∧ Lasts around.directory f b w') ds ps :=
    (List.forall₂_and_left ds ps).2 ⟨fun _ hd => hd, hjars⟩
  refine hmem.imp ?_
  rintro d p ⟨hd, a, b, ha, hobtain, hb⟩
  exact obtain_again ht harranged hdirectory hx .jar (hconfined d hd)
    (Passage.trans hu ha) hobtain hb

end Twice

theorem bytesAt_again {base : Path} {bytes : List UInt8} (hp : p = base / c.relativePath "pom")
    (hdirectories : DirectoriesStay v w') (hnodes : NodesStay ".jar" v w')
    (hbytes : bytesAt p v.tree around.directory = .ok bytes) :
    bytesAt p w'.tree around.directory = .ok bytes := by
  have htemporary : ¬ EndsIn ".tmp" (goalOf around.directory p) :=
    hp ▸ not_temporary_place .pom base c _
  have hpom : EndsIn ("." ++ "pom") (goalOf around.directory p) := hp ▸ endsIn_place .pom base c _
  have hending : ¬ EndsIn ".jar" (goalOf around.directory p) := fun hjar =>
    absurd (endsIn_unique hjar hpom (by decide)) (by decide)
  exact bytesAt_of_directoriesStay hdirectories
    (fun node => hnodes _ node htemporary hending) hbytes

theorem dependencies_again (ht : w.tree.WellFormed)
    (harranged : IsArranged w.tree around.directory f)
    (hdirectory : around'.directory = around.directory) (hx : x.tree = w'.tree)
    (hconfined : IsConfined c "pom")
    (hfound : ∃ pom u, perform (obtain f c "pom") around w = (.ok pom, u))
    (h : DependsOn f c around ds w v) (hlasts : Lasts around.directory f v w')
    (hnodes : NodesStay ".jar" v w') :
    ∃ x', perform (dependenciesOf f c) around' x = (.ok ds, x') ∧ x'.tree = x.tree ∧
      x'.requests = x.requests := by
  cases h with
  | nothing hpom =>
      obtain ⟨_, _, hfound⟩ := hfound
      rw [hpom] at hfound
      cases hfound
  | @described _ u _ pom text root _ hpom htext hgives =>
      have hsince : Lasts around.directory f u w' :=
        Passage.trans (OfTree.same u v hgives.tree) hlasts
      have hpom' :=
        obtain_again ht harranged hdirectory hx .pom hconfined (Passage.refl w) hpom hsince
      have htext' : perform (readText pom) around' x = (.ok text, x) := by
        obtain ⟨base, hp⟩ := exists_base_of_obtain hpom
        rw [perform_readText] at htext ⊢
        rw [hx, hdirectory]
        rcases hbytes : bytesAt pom u.tree around.directory with _ | bytes
        · rw [hbytes] at htext
          cases htext
        · have hnodes' : NodesStay ".jar" u w' := fun q node => hgives.tree ▸ hnodes q node
          rw [bytesAt_again hp hsince.directories hnodes' hbytes]
          rw [hbytes] at htext
          exact Prod.ext (Prod.mk.inj htext).1 rfl
      obtain ⟨ds', x', hdependencies, hgives'⟩ := exists_gives hgives.parsed c around' x
      obtain rfl := hgives.unique hgives'
      refine ⟨x', ?_, hgives'.tree, hgives'.requests⟩
      have hended : perform (Action.outcome (obtain f c "pom")) around' x = (.ok (.ok pom), x) := by
        rw [perform_outcome, hpom']
      rw [dependenciesOf, perform_bind_ok hended]
      dsimp only
      rw [perform_bind_ok htext', hdependencies]

/-- A path is where the jar of an artifact was found: in the cache or in a repository on the disk.
-/
structure IsJarOf (f : Resolver) (around : Surroundings) (d : Coordinate) (p : Path) : Prop where
  place : p = cachePath f (d.relativePath "jar") ∨
    ∃ root, .onDisk root ∈ f.repositories ∧ p = root / d.relativePath "jar"
  found : ∃ u v node, perform (obtain f d "jar") around u = (.ok p, v) ∧
    Disk.answerAt p v.tree around.directory = .ok (some node)

theorem isJarOf_of_obtain (h : perform (obtain f d "jar") around u = (.ok p, v)) :
    IsJarOf f around d p := by
  obtain ⟨_, hends⟩ := perform_obtain_iff.1 h
  obtain ⟨node, hnode⟩ := hends.answerAt
  exact ⟨place_of_obtain h, u, v, node, h, hnode⟩

theorem found_of_perform_mapM
    (h : perform (ds.mapM fun d => obtain f d "jar") around w = (.ok ps, w')) :
    List.Forall₂ (fun d p => IsJarOf f around d p ∧
      ∃ node, Disk.answerAt p w'.tree around.directory = .ok (some node)) ds ps := by
  refine (forall₂_of_perform_mapM (R := Remains)
    (fun _ _ _ _ _ hobtain => remains_of_obtain hobtain nofun) h).imp ?_
  rintro d p ⟨_, _, -, hobtain, hremains⟩
  obtain ⟨_, hends⟩ := perform_obtain_iff.1 hobtain
  obtain ⟨node, hnode⟩ := hends.answerAt
  obtain ⟨base, hp⟩ := exists_base_of_obtain hobtain
  have htemporary : ¬ EndsIn ".tmp" (goalOf around.directory p) :=
    hp ▸ not_temporary_place .jar base d _
  exact ⟨isJarOf_of_obtain hobtain, hremains.found htemporary hnode⟩

/-- The artifact comes first, and then each of its dependencies once, in order of their first
declarations. -/
theorem wanted_eq (c : Coordinate) (ds : List Coordinate) :
    wanted c ds = c :: (ds.filter (· ≠ c)).eraseDups := by
  rw [wanted, List.eraseDups_cons]
  congr 2
  refine List.filter_congr fun d _ => ?_
  rw [Bool.eq_iff_iff]
  simp

/-- The jars that come are that of the artifact and one for each other artifact among its
dependencies. If the description was found and the repositories are arranged, then looking the jars
up again gives the same list, whatever servers answer, and neither asks them nor changes the disk.
-/
theorem jars_are_found_again (f : Resolver) (c : Coordinate) (around : Surroundings) (w w' : World)
    (ps : List Path) (h : perform (obtainJars f c) around w = (.ok ps, w')) :
    ∃ ds v, perform (dependenciesOf f c) around w = (.ok ds, v) ∧ DependsOn f c around ds w v ∧
      List.Forall₂ (IsJarOf f around) (c :: (ds.filter (· ≠ c)).eraseDups) ps ∧
      ((∃ pom u, perform (obtain f c "pom") around w = (.ok pom, u)) →
        w.tree.WellFormed → IsArranged w.tree around.directory f → IsConfined c "pom" →
        (∀ d ∈ c :: ds, IsConfined d "jar") →
        ∀ (around' : Surroundings) (x : World), around'.directory = around.directory →
          x.tree = w'.tree →
          ∃ x', perform (obtainJars f c) around' x = (.ok ps, x') ∧ x'.tree = x.tree ∧
            x'.requests = x.requests) := by
  unfold obtainJars at h
  obtain ⟨ds, v, hds, hjars⟩ := perform_bind_eq_ok.1 h
  have hdepends := dependsOn_of_dependenciesOf hds
  refine ⟨ds, v, hds, hdepends, ?_, ?_⟩
  · rw [← wanted_eq]
    exact (found_of_perform_mapM hjars).imp fun _ _ h => h.1
  · intro hfound ht harranged hpom hjar around' x hdirectory hx
    have hconfined : ∀ d ∈ wanted c ds, IsConfined d "jar" := fun d hd =>
      hjar d (List.mem_eraseDups.1 hd)
    have hlasts : Lasts around.directory f v w' := passage_of_perform_mapM
      (fun d hd _ _ _ hobtain => lasts_of_obtain (hconfined d hd) hobtain nofun) hjars
    have hnodes : Keeps around (NodesStay ".jar") ((wanted c ds).mapM fun d => obtain f d "jar") :=
      Keeps.mapM fun d _ => nodesStay_obtain .jar f d
    obtain ⟨x', hagain, htree, hrequests⟩ :=
      dependencies_again ht harranged hdirectory hx hpom hfound
      hdepends hlasts (hnodes.of_perform hjars)
    have hjars' := jars_again ht harranged hdirectory (htree.trans hx) hconfined
      (lasts_of_dependsOn hpom hdepends) hjars
    refine ⟨x', ?_, htree, hrequests⟩
    rw [obtainJars, perform_bind_ok hagain, hjars']

section Served

/-- Surroundings in which a server has every jar, and one description for all artifacts. -/
def aroundServing (project : String) : Surroundings :=
  { Surroundings.still [] with
    server := fun asked _ => .answered (.ofBytes none
      (if ['.', 'p', 'o', 'm'] <:+ asked.url.toList then Text.encode project else [80, 75, 5])
      none) }

theorem isArranged_resolverOfBoth (t : FileTree) : IsArranged t [] resolverOfBoth where
  order := ⟨[.parse "/m"], ["http://h/m"], rfl⟩
  cache := .inr (by decide +kernel)
  apart := by
    intro root hroot
    obtain rfl : root = .parse "/m" := by simpa [resolverOfBoth] using hroot
    exact ⟨.inr (by decide +kernel), by decide +kernel, by decide +kernel⟩

theorem jars_without_server :
    ∃ w', perform (obtainJars resolverOfBoth ⟨"o", "p", "3"⟩) (aroundServing (projectWith "g" "1"))
        (.ofTree .empty) =
        (.ok [.parse "/c/maven/o/p/3/p-3.jar", .parse "/c/maven/g/a/1/a-1.jar"], w') ∧
      FileTree.empty.WellFormed ∧ IsArranged .empty [] resolverOfBoth ∧
      ∃ w'', perform (obtainJars resolverOfBoth ⟨"o", "p", "3"⟩) (.still []) w' =
          (.ok [.parse "/c/maven/o/p/3/p-3.jar", .parse "/c/maven/g/a/1/a-1.jar"], w'') ∧
        w''.tree = w'.tree ∧ w''.requests = w'.requests := by
  have hsteps : ∀ r, perform (dependenciesOf resolverOfBoth ⟨"o", "p", "3"⟩)
      (aroundServing (projectWith "g" "1")) (.ofTree .empty) = r → r.1 = .ok [⟨"g", "a", "1"⟩] ∧
      (perform ((wanted ⟨"o", "p", "3"⟩ [⟨"g", "a", "1"⟩]).mapM
        fun d => obtain resolverOfBoth d "jar")
        (aroundServing (projectWith "g" "1")) r.2).1 =
        .ok [.parse "/c/maven/o/p/3/p-3.jar", .parse "/c/maven/g/a/1/a-1.jar"] := by
    rintro _ rfl
    decide +kernel
  rcases hdependencies : perform (dependenciesOf resolverOfBoth ⟨"o", "p", "3"⟩)
    (aroundServing (projectWith "g" "1")) (.ofTree .empty) with ⟨outcome, u⟩
  obtain ⟨rfl, hjars⟩ := hsteps _ hdependencies
  have hfirst : perform (obtainJars resolverOfBoth ⟨"o", "p", "3"⟩)
      (aroundServing (projectWith "g" "1")) (.ofTree .empty) =
      (.ok [.parse "/c/maven/o/p/3/p-3.jar", .parse "/c/maven/g/a/1/a-1.jar"], _) :=
    (perform_bind_ok hdependencies).trans (Prod.ext hjars rfl)
  obtain ⟨ds, v, hds, hdepends, -, hagain⟩ := jars_are_found_again _ _ _ _ _ _ hfirst
  obtain ⟨hds, -⟩ := Prod.mk.inj (hds.symm.trans hdependencies)
  obtain rfl := Except.ok.inj hds
  have hfound : ∃ pom u, perform (obtain resolverOfBoth ⟨"o", "p", "3"⟩ "pom")
      (aroundServing (projectWith "g" "1")) (.ofTree .empty) = (.ok pom, u) := by
    cases hdepends with
    | described hpom => exact ⟨_, _, hpom⟩
  have harranged := isArranged_resolverOfBoth .empty
  exact ⟨_, hfirst, wellFormed_empty, harranged, hagain hfound wellFormed_empty harranged
    (by decide +kernel) (by decide +kernel) (.still []) _ rfl rfl⟩

/-- A resolver whose cache is in its repository on the disk. -/
def nestedResolver : Resolver :=
  ⟨.parse "/m/c", [.onDisk (.parse "/m"), .onWeb "http://h/m"], .default, false⟩

/-- A resolver whose repository on the disk is reached through its cache. -/
def crossingResolver : Resolver :=
  ⟨.parse "/c", [.onDisk (.parse "/c/../m"), .onWeb "http://h/m"], .default, false⟩

/-- A disk with a directory where a repository would have a description. -/
def diskWithDirectory : FileTree :=
  [["m"], ["m", "o"], ["m", "o", "n"], ["m", "o", "n", "1"], ["m", "o", "n", "1", "n-1.pom"]].foldl
    (·.add · .directory) .empty

/-- What the first of two calls has made is found by the second one in a repository on the disk: in
the one case the repository holds the cache, in the other the cache is passed on the way to it. -/
theorem new_files_are_found :
    (¬ cacheRoot [] nestedResolver.cache <+: goalOf [] (.parse "/m") ∧
      ∃ w, perform (obtainJars nestedResolver ⟨"c.maven.x", "a", "1"⟩)
          (aroundServing (projectWith "x" "1")) (.ofTree .empty) =
          (.ok [.parse "/m/c/maven/c/maven/x/a/1/a-1.jar", .parse "/m/c/maven/x/a/1/a-1.jar"], w) ∧
        (perform (obtainJars nestedResolver ⟨"c.maven.x", "a", "1"⟩) (.still []) w).1 =
          .ok [.parse "/m/c/maven/x/a/1/a-1.jar", .parse "/m/c/maven/x/a/1/a-1.jar"]) ∧
    ¬ cacheRoot [] crossingResolver.cache <+: goalOf [] (.parse "/c/../m") ∧
      ∃ w, perform (obtainJars crossingResolver ⟨"o", "n", "1"⟩) (aroundServing "<p/>")
          (.ofTree diskWithDirectory) = (.ok [.parse "/c/maven/o/n/1/n-1.jar"], w) ∧
        (perform (obtainJars crossingResolver ⟨"o", "n", "1"⟩) (.still []) w).1 =
          .error (.system (.on .isDirectory "/c/../m/o/n/1/n-1.pom")) := by
  have hnested : ∀ r, perform (obtainJars nestedResolver ⟨"c.maven.x", "a", "1"⟩)
      (aroundServing (projectWith "x" "1")) (.ofTree .empty) = r →
      r.1 = .ok [.parse "/m/c/maven/c/maven/x/a/1/a-1.jar", .parse "/m/c/maven/x/a/1/a-1.jar"] ∧
      (perform (obtainJars nestedResolver ⟨"c.maven.x", "a", "1"⟩) (.still []) r.2).1 =
        .ok [.parse "/m/c/maven/x/a/1/a-1.jar", .parse "/m/c/maven/x/a/1/a-1.jar"] := by
    rintro _ rfl
    decide +kernel
  have hcrossing : ∀ r, perform (obtainJars crossingResolver ⟨"o", "n", "1"⟩)
      (aroundServing "<p/>") (.ofTree diskWithDirectory) = r →
      r.1 = .ok [.parse "/c/maven/o/n/1/n-1.jar"] ∧
      (perform (obtainJars crossingResolver ⟨"o", "n", "1"⟩) (.still []) r.2).1 =
        .error (.system (.on .isDirectory "/c/../m/o/n/1/n-1.pom")) := by
    rintro _ rfl
    decide +kernel
  rcases hfirst : perform (obtainJars nestedResolver ⟨"c.maven.x", "a", "1"⟩)
    (aroundServing (projectWith "x" "1")) (.ofTree .empty) with ⟨outcome, w⟩
  rcases hfirst' : perform (obtainJars crossingResolver ⟨"o", "n", "1"⟩) (aroundServing "<p/>")
    (.ofTree diskWithDirectory) with ⟨outcome', w'⟩
  obtain ⟨rfl, hsecond⟩ := hnested _ hfirst
  obtain ⟨rfl, hsecond'⟩ := hcrossing _ hfirst'
  exact ⟨⟨by decide +kernel, w, rfl, hsecond⟩, by decide +kernel, w', rfl, hsecond'⟩

end Served

end Artifact

end StagedBuild
