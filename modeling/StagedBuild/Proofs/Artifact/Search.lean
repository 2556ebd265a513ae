import StagedBuild.Proofs.Artifact.Ways
import StagedBuild.Proofs.Transfer.Asking

/-!
Looking a file up in repositories, in order. A repository provides the file, or lacks it, or the
search breaks off at it; the search goes on past those that lack it and no further. From this it
follows what is given back, which requests were made, and what has changed on the disk.
-/

namespace StagedBuild.Artifact

open Action Disk FileTree Transfer

variable {around : Surroundings} {u v w w' : World} {f : Resolver} {c : Coordinate}
  {extension : String} {p : Path} {repository : Repository} {repositories before : List Repository}
  {asked : List Request} {fault : Fault} {outcome : Except Fault Path} {tried : List String}

/-- Where a file of an artifact is looked for in a repository: at a path or at an address. -/
def Repository.place (c : Coordinate) (extension : String) : Repository → String
  | .onDisk root => (root / c.relativePath extension).text
  | .onWeb url => addressIn url (c.relativePath extension)

section Definitions

variable (f : Resolver) (c : Coordinate) (extension : String)

/-- The request for a file of an artifact to a repository on the web. -/
def requestTo (url : String) : Request :=
  ⟨addressIn url (c.relativePath extension), true, f.settings.timeout⟩

/-- The requests for a file of an artifact to those repositories that are on the web. -/
def requestsTo (repositories : List Repository) : List Request :=
  repositories.filterMap fun
    | .onDisk _ => none
    | .onWeb url => some (requestTo f c extension url)

/-- Downloads a file of an artifact from a repository on the web to where it is kept. -/
def fetch (url : String) : Action Path :=
  download f.settings (addressIn url (c.relativePath extension))
    (cachePath f (c.relativePath extension)) f.showProgress

variable (around : Surroundings)

/-- A repository lacks the file: nothing is at its path, or nothing is kept and the download ends
with the report that the server does not have it. -/
inductive Lacks : Repository → World → World → Prop
  | onDisk {root : Path} {w : World}
      (hnone : answerAt (root / c.relativePath extension) w.tree around.directory = .ok none) :
      Lacks (.onDisk root) w w
  | onWeb {url : String} {w w' : World} {fault : Fault}
      (hnone : answerAt (cachePath f (c.relativePath extension)) w.tree around.directory = .ok none)
      (hfetch : perform (fetch f c extension url) around w = (.error fault, w'))
      (habsent : isAbsent fault = true) : Lacks (.onWeb url) w w'

/-- A repository provides the file at a path: something is there, or something is kept, or the
download returns. With it go the requests that this takes. -/
inductive Provides : Repository → Path → List Request → World → World → Prop
  | onDisk {root : Path} {w : World} {node : Node}
      (hnode : answerAt (root / c.relativePath extension) w.tree around.directory =
        .ok (some node)) :
      Provides (.onDisk root) (root / c.relativePath extension) [] w w
  | kept {url : String} {w : World} {node : Node}
      (hnode : answerAt (cachePath f (c.relativePath extension)) w.tree around.directory =
        .ok (some node)) :
      Provides (.onWeb url) (cachePath f (c.relativePath extension)) [] w w
  | fetched {url : String} {w w' : World}
      (hnone : answerAt (cachePath f (c.relativePath extension)) w.tree around.directory = .ok none)
      (hfetch : perform (fetch f c extension url) around w =
        (.ok (cachePath f (c.relativePath extension)), w')) :
      Provides (.onWeb url) (cachePath f (c.relativePath extension)) [requestTo f c extension url]
        w w'

/-- A search breaks off at a repository: the question whether the file is there is refused, or the
download fails otherwise than by the report that the server does not have it. -/
inductive Breaks : Repository → Fault → List Request → World → World → Prop
  | onDisk {root : Path} {w : World} {fault : Fault}
      (hrefused : answerAt (root / c.relativePath extension) w.tree around.directory =
        .error fault) : Breaks (.onDisk root) fault [] w w
  | kept {url : String} {w : World} {fault : Fault}
      (hrefused : answerAt (cachePath f (c.relativePath extension)) w.tree around.directory =
        .error fault) : Breaks (.onWeb url) fault [] w w
  | unmade {url : String} {w w' : World} {fault : Fault}
      (hnone : answerAt (cachePath f (c.relativePath extension)) w.tree around.directory = .ok none)
      (hmake : perform (makeDirectories (cachePath f (c.relativePath extension)).parent) around w =
        (.error fault, w')) : Breaks (.onWeb url) fault [] w w'
  | fetching {url : String} {w v w' : World} {fault : Fault}
      (hnone : answerAt (cachePath f (c.relativePath extension)) w.tree around.directory = .ok none)
      (hmake : perform (makeDirectories (cachePath f (c.relativePath extension)).parent) around w =
        (.ok (), v))
      (hfetch : perform (fetch f c extension url) around w = (.error fault, w'))
      (hother : isAbsent fault = false) :
      Breaks (.onWeb url) fault [requestTo f c extension url] w w'

/-- Repositories that are asked one after the other, and all lack the file. -/
inductive LackAll : List Repository → World → World → Prop
  | nil (w : World) : LackAll [] w w
  | cons {repository : Repository} {rest : List Repository} {u v w : World}
      (hlacks : Lacks f c extension around repository u v) (hrest : LackAll rest v w) :
      LackAll (repository :: rest) u w

/-- How a search through repositories ends: with the file, with a fault, or with the report of all
places that were tried. Nothing is asked behind the repository that ends it. -/
inductive Ends : List Repository → Except Fault Path → List Request → World → World → Prop
  | found {before after : List Repository} {repository : Repository} {p : Path}
      {asked : List Request} {u v w : World} (hbefore : LackAll f c extension around before u v)
      (hprovides : Provides f c extension around repository p asked v w) :
      Ends (before ++ repository :: after) (.ok p) (requestsTo f c extension before ++ asked) u w
  | broken {before after : List Repository} {repository : Repository} {fault : Fault}
      {asked : List Request} {u v w : World} (hbefore : LackAll f c extension around before u v)
      (hbreaks : Breaks f c extension around repository fault asked v w) :
      Ends (before ++ repository :: after) (.error fault) (requestsTo f c extension before ++ asked)
        u w
  | nowhere {repositories : List Repository} {u w : World}
      (hall : LackAll f c extension around repositories u w) :
      Ends repositories
        (.error (.resolution ⟨c.text, extension, repositories.map (·.place c extension)⟩))
        (requestsTo f c extension repositories) u w

end Definitions

theorem isAbsent_iff : isAbsent fault = true ↔
    ∃ cause, fault = .download cause ∧ cause.status? = some 404 := by
  cases fault <;> simp [isAbsent]

section Fetch

variable {url : String}

theorem placed_of_fetch (h : perform (fetch f c extension url) around w = (.ok p, w')) :
    p = cachePath f (c.relativePath extension) ∧
      Placed (cachePath f (c.relativePath extension)) around.directory w w' := by
  unfold fetch at h
  exact placed_of_download (name_cachePath_ne f c extension) h

theorem restored_of_fetch (hordinary : fault.isOrdinary = true)
    (h : perform (fetch f c extension url) around w = (.error fault, w')) :
    Restored (cachePath f (c.relativePath extension)) around.directory w w' := by
  unfold fetch at h
  exact restored_of_download (name_cachePath_ne f c extension) hordinary h

theorem requests_of_fetch
    (hmake : perform (makeDirectories (cachePath f (c.relativePath extension)).parent) around w =
      (.ok (), v)) :
    (perform (fetch f c extension url) around w).2.requests =
      w.requests ++ [requestTo f c extension url] :=
  requests_of_download (name_cachePath_ne f c extension) hmake

theorem perform_fetch_unmade (url : String)
    (hmake : perform (makeDirectories (cachePath f (c.relativePath extension)).parent) around w =
      (.error fault, v)) :
    perform (fetch f c extension url) around w = (.error fault, v) := by
  rw [fetch, perform_download (name_cachePath_ne f c extension), hmake]

end Fetch

section Steps

theorem lacks_or_provides_or_breaks (f : Resolver) (c : Coordinate) (extension : String)
    (around : Surroundings) (repository : Repository) (w : World) :
    (∃ v, Lacks f c extension around repository w v) ∨
      (∃ p asked v, Provides f c extension around repository p asked w v) ∨
      ∃ fault asked v, Breaks f c extension around repository fault asked w v := by
  cases repository with
  | onDisk root =>
      rcases hanswer : answerAt (root / c.relativePath extension) w.tree around.directory with
        fault | _ | node
      · exact .inr (.inr ⟨_, _, _, .onDisk hanswer⟩)
      · exact .inl ⟨_, .onDisk hanswer⟩
      · exact .inr (.inl ⟨_, _, _, .onDisk hanswer⟩)
  | onWeb url =>
      rcases hanswer :
          answerAt (cachePath f (c.relativePath extension)) w.tree around.directory with
        fault | _ | node
      · exact .inr (.inr ⟨_, _, _, .kept hanswer⟩)
      · rcases hfetch : perform (fetch f c extension url) around w with ⟨fault | p, v⟩
        · rcases hmake : perform (makeDirectories (cachePath f (c.relativePath extension)).parent)
            around w with ⟨cause | _, u⟩
          · exact .inr (.inr ⟨_, _, _, .unmade hanswer hmake⟩)
          · cases habsent : isAbsent fault with
            | true => exact .inl ⟨_, .onWeb hanswer hfetch habsent⟩
            | false => exact .inr (.inr ⟨_, _, _, .fetching hanswer hmake hfetch habsent⟩)
        · have hp := (placed_of_fetch hfetch).1
          exact .inr (.inl ⟨_, _, _, .fetched hanswer (hp ▸ hfetch)⟩)
      · exact .inr (.inl ⟨_, _, _, .kept hanswer⟩)

theorem perform_obtainFrom_fetch {url : String}
    (hnone : answerAt (cachePath f (c.relativePath extension)) w.tree around.directory = .ok none)
    (rest : List Repository) (tried : List String) :
    perform (obtainFrom f c extension (.onWeb url :: rest) tried) around w =
      match perform (fetch f c extension url) around w with
      | (.ok p, v) => (.ok p, v)
      | (.error fault, v) =>
        if isAbsent fault then perform (obtainFrom f c extension rest
          (tried ++ [Repository.place c extension (.onWeb url)])) around v
        else (.error fault, v) := by
  rw [obtainFrom, perform_bind, perform_isOccupied, hnone]
  change perform (Action.outcome (fetch f c extension url) >>= _) around w = _
  rw [perform_bind, perform_outcome]
  rcases perform (fetch f c extension url) around w with ⟨fault | p, v⟩
  · dsimp only
    rw [perform_ite]
    rfl
  · rfl

theorem Lacks.perform_obtainFrom (h : Lacks f c extension around repository w v)
    (rest : List Repository) (tried : List String) :
    perform (obtainFrom f c extension (repository :: rest) tried) around w =
      perform (obtainFrom f c extension rest (tried ++ [repository.place c extension]))
        around v := by
  cases h with
  | onDisk hnone =>
      rw [obtainFrom, perform_bind, perform_isOccupied, hnone]
      rfl
  | onWeb hnone hfetch habsent =>
      rw [perform_obtainFrom_fetch hnone, hfetch]
      exact if_pos habsent

theorem Provides.perform_obtainFrom (h : Provides f c extension around repository p asked w v)
    (rest : List Repository) (tried : List String) :
    perform (obtainFrom f c extension (repository :: rest) tried) around w = (.ok p, v) := by
  cases h with
  | onDisk hnode =>
      rw [obtainFrom, perform_bind, perform_isOccupied, hnode]
      rfl
  | kept hnode =>
      rw [obtainFrom, perform_bind, perform_isOccupied, hnode]
      rfl
  | fetched hnone hfetch => rw [perform_obtainFrom_fetch hnone, hfetch]

theorem Breaks.perform_obtainFrom (h : Breaks f c extension around repository fault asked w v)
    (rest : List Repository) (tried : List String) :
    perform (obtainFrom f c extension (repository :: rest) tried) around w = (.error fault, v) := by
  cases h with
  | onDisk hrefused =>
      rw [obtainFrom, perform_bind, perform_isOccupied, hrefused]
      rfl
  | kept hrefused =>
      rw [obtainFrom, perform_bind, perform_isOccupied, hrefused]
      rfl
  | unmade hnone hmake =>
      have hrefusal := (refused_makeDirectories _).of_perform hmake
      have hother : isAbsent fault = false := by
        cases fault <;> first | exact hrefusal.elim | rfl
      rw [perform_obtainFrom_fetch hnone, perform_fetch_unmade _ hmake]
      exact if_neg (by simp [hother])
  | fetching hnone hmake hfetch hother =>
      rw [perform_obtainFrom_fetch hnone, hfetch]
      exact if_neg (by simp [hother])

end Steps

section Runs

theorem LackAll.perform_obtainFrom (h : LackAll f c extension around before w v)
    (rest : List Repository) (tried : List String) :
    perform (obtainFrom f c extension (before ++ rest) tried) around w =
      perform (obtainFrom f c extension rest (tried ++ before.map (·.place c extension)))
        around v := by
  induction h generalizing tried with
  | nil => simp
  | cons hlacks _ ih =>
      rw [List.cons_append, hlacks.perform_obtainFrom, ih, List.map_cons, List.append_assoc,
        List.singleton_append]

theorem Ends.perform_obtain (h : Ends f c extension around f.repositories outcome asked w w') :
    perform (obtain f c extension) around w = (outcome, w') := by
  have hrun : ∀ {repositories}, Ends f c extension around repositories outcome asked w w' →
      perform (obtainFrom f c extension repositories []) around w = (outcome, w') := by
    intro repositories h
    cases h with
    | found hbefore hprovides =>
        rw [hbefore.perform_obtainFrom, hprovides.perform_obtainFrom]
    | broken hbefore hbreaks =>
        rw [hbefore.perform_obtainFrom, hbreaks.perform_obtainFrom]
    | nowhere hall =>
        have hend := hall.perform_obtainFrom [] []
        rw [List.append_nil, List.nil_append] at hend
        rw [hend]
        rfl
  exact hrun h

/-- Every search ends in one of the three ways. -/
theorem exists_ends (f : Resolver) (c : Coordinate) (extension : String) (around : Surroundings)
    (repositories : List Repository) (w : World) :
    ∃ outcome asked w', Ends f c extension around repositories outcome asked w w' := by
  induction repositories generalizing w with
  | nil => exact ⟨_, _, _, .nowhere (.nil w)⟩
  | cons repository rest ih =>
      rcases lacks_or_provides_or_breaks f c extension around repository w with
        ⟨v, hlacks⟩ | ⟨p, asked, v, hprovides⟩ | ⟨fault, asked, v, hbreaks⟩
      · obtain ⟨outcome, asked, w', hends⟩ := ih v
        cases hends with
        | found hbefore hprovides =>
            rw [← List.cons_append]
            exact ⟨_, _, _, .found (.cons hlacks hbefore) hprovides⟩
        | broken hbefore hbreaks =>
            rw [← List.cons_append]
            exact ⟨_, _, _, .broken (.cons hlacks hbefore) hbreaks⟩
        | nowhere hall => exact ⟨_, _, _, .nowhere (.cons hlacks hall)⟩
      · rw [← List.nil_append (repository :: rest)]
        exact ⟨_, _, _, .found (.nil w) hprovides⟩
      · rw [← List.nil_append (repository :: rest)]
        exact ⟨_, _, _, .broken (.nil w) hbreaks⟩

theorem perform_obtain_iff : perform (obtain f c extension) around w = (outcome, w') ↔
    ∃ asked, Ends f c extension around f.repositories outcome asked w w' := by
  refine ⟨fun h => ?_, fun ⟨asked, hends⟩ => hends.perform_obtain⟩
  obtain ⟨outcome', asked, v, hends⟩ := exists_ends f c extension around f.repositories w
  obtain ⟨rfl, rfl⟩ := Prod.mk.inj (hends.perform_obtain.symm.trans h)
  exact ⟨asked, hends⟩

end Runs

section Keeping

variable {R : World → World → Prop} [Passage R]

/-- What the downloads of a search keep, the search keeps. Those that are interrupted count only if
the search ends in that interrupt. -/
theorem Ends.passage (hends : Ends f c extension around repositories outcome asked w w')
    (h : ∀ url u v ended, perform (fetch f c extension url) around u = (ended, v) →
      (ended = .error .interrupted → outcome = .error .interrupted) → R u v) : R w w' := by
  have hlacks : ∀ {repository u v}, Lacks f c extension around repository u v → R u v := by
    intro repository u v hlacks
    cases hlacks with
    | onDisk => exact Passage.refl u
    | onWeb _ hfetch habsent => exact h _ _ _ _ hfetch fun heq => by cases heq; cases habsent
  have hlackAll : ∀ {before u v}, LackAll f c extension around before u v → R u v := by
    intro before u v hbefore
    induction hbefore with
    | nil u => exact Passage.refl u
    | cons hfirst _ ih => exact Passage.trans (hlacks hfirst) ih
  cases hends with
  | found hbefore hprovides =>
      refine Passage.trans (hlackAll hbefore) ?_
      cases hprovides with
      | onDisk | kept => exact Passage.refl _
      | fetched _ hfetch => exact h _ _ _ _ hfetch nofun
  | broken hbefore hbreaks =>
      refine Passage.trans (hlackAll hbefore) ?_
      cases hbreaks with
      | onDisk | kept => exact Passage.refl _
      | @unmade url _ _ _ _ hmake => exact h url _ _ _ (perform_fetch_unmade url hmake) id
      | fetching _ _ hfetch => exact h _ _ _ _ hfetch id
  | nowhere hall => exact hlackAll hall

theorem keeps_obtain (h : ∀ url, Keeps around R (fetch f c extension url)) :
    Keeps around R (obtain f c extension) := by
  intro w
  obtain ⟨outcome, asked, w', hends⟩ := exists_ends f c extension around f.repositories w
  rw [hends.perform_obtain]
  exact hends.passage fun url u v _ hfetch _ => (h url).of_perform hfetch

theorem passage_of_obtain
    (h : ∀ url u v ended, perform (fetch f c extension url) around u = (ended, v) →
      ended ≠ .error .interrupted → R u v)
    (hobtain : perform (obtain f c extension) around w = (outcome, w'))
    (houtcome : outcome ≠ .error .interrupted) : R w w' := by
  obtain ⟨asked, hends⟩ := perform_obtain_iff.1 hobtain
  exact hends.passage fun url u v ended hfetch hended =>
    h url u v ended hfetch fun heq => houtcome (hended heq)

end Keeping

section Dependencies

variable {R : World → World → Prop} [Passage R]
  (hwarn : ∀ warning, Keeps around R (Action.warn warning))

include hwarn

theorem keeps_dependencies (text : String) (c : Coordinate) :
    Keeps around R (Pom.dependencies text c) := by
  have hreport : ∀ findings, Keeps around R (Pom.report findings) := by
    intro findings
    induction findings with
    | nil => exact Keeps.pure _
    | cons finding rest ih =>
        cases finding with
        | ok d => exact ih.bind fun _ => Keeps.pure _
        | error warning => exact (hwarn warning).bind fun _ => ih
  unfold Pom.dependencies
  split
  · exact hreport _
  · exact Keeps.throw _

theorem keeps_dependenciesOf (hobtain : Keeps around R (obtain f c "pom")) :
    Keeps around R (dependenciesOf f c) := by
  refine hobtain.outcome.bind fun ended => ?_
  split
  · exact (Keeps.of_readOnly (readOnly_readText _)).bind fun text => keeps_dependencies hwarn text c
  · exact Keeps.pure _
  · exact Keeps.throw _

end Dependencies

theorem place_of_obtain (h : perform (obtain f c extension) around w = (.ok p, w')) :
    p = cachePath f (c.relativePath extension) ∨
      ∃ root, .onDisk root ∈ f.repositories ∧ p = root / c.relativePath extension := by
  obtain ⟨asked, hends⟩ := perform_obtain_iff.1 h
  generalize f.repositories = repositories at hends ⊢
  cases hends with
  | found _ hprovides =>
      cases hprovides with
      | onDisk => exact .inr ⟨_, by simp, rfl⟩
      | kept | fetched => exact .inl rfl

theorem exists_base_of_obtain (h : perform (obtain f c extension) around w = (.ok p, w')) :
    ∃ base : Path, p = base / c.relativePath extension := by
  rcases place_of_obtain h with hp | ⟨root, -, hp⟩
  · exact ⟨f.cache / "maven", hp⟩
  · exact ⟨root, hp⟩

section Requests

theorem requests_of_absent {url : String} (habsent : isAbsent fault = true)
    (hfetch : perform (fetch f c extension url) around w = (.error fault, w')) :
    w'.requests = w.requests ++ [requestTo f c extension url] := by
  rcases hmake : perform (makeDirectories (cachePath f (c.relativePath extension)).parent) around w
    with ⟨cause | _, v⟩
  · have hrefusal := (refused_makeDirectories _).of_perform hmake
    rw [perform_fetch_unmade _ hmake] at hfetch
    cases hfetch
    cases fault <;> first | exact hrefusal.elim | cases habsent
  · rw [← requests_of_fetch hmake, hfetch]

theorem requests_of_lacks (h : Lacks f c extension around repository w v) :
    v.requests = w.requests ++ requestsTo f c extension [repository] := by
  cases h with
  | onDisk => exact (List.append_nil _).symm
  | onWeb _ hfetch habsent => exact requests_of_absent habsent hfetch

theorem requests_of_lackAll (h : LackAll f c extension around before w v) :
    v.requests = w.requests ++ requestsTo f c extension before := by
  induction h with
  | nil => exact (List.append_nil _).symm
  | cons hlacks _ ih =>
      rw [ih, requests_of_lacks hlacks, List.append_assoc, requestsTo, requestsTo,
        ← List.filterMap_append, List.singleton_append]
      rfl

theorem requests_of_provides (h : Provides f c extension around repository p asked w v) :
    v.requests = w.requests ++ asked := by
  cases h with
  | onDisk | kept => exact (List.append_nil _).symm
  | fetched _ hfetch =>
      obtain ⟨u, _, _, _, -, hmake, -⟩ :=
        of_perform_download_ok (name_cachePath_ne f c extension) hfetch
      rw [← requests_of_fetch hmake, hfetch]

theorem requests_of_breaks (h : Breaks f c extension around repository fault asked w v) :
    v.requests = w.requests ++ asked := by
  cases h with
  | onDisk | kept => exact (List.append_nil _).symm
  | unmade _ hmake =>
      have hasks : Keeps around World.AsksNothing
          (makeDirectories (cachePath f (c.relativePath extension)).parent) :=
        keeps_makeDirectories _
      rw [List.append_nil]
      exact hasks.of_perform hmake
  | fetching _ hmake hfetch => rw [← requests_of_fetch hmake, hfetch]

theorem requests_of_ends (h : Ends f c extension around repositories outcome asked w w') :
    w'.requests = w.requests ++ asked := by
  cases h with
  | found hbefore hprovides =>
      rw [requests_of_provides hprovides, requests_of_lackAll hbefore, List.append_assoc]
  | broken hbefore hbreaks =>
      rw [requests_of_breaks hbreaks, requests_of_lackAll hbefore, List.append_assoc]
  | nowhere hall => exact requests_of_lackAll hall

theorem mem_requestsTo {request : Request} : request ∈ requestsTo f c extension repositories ↔
    ∃ url, .onWeb url ∈ repositories ∧ request = requestTo f c extension url := by
  rw [requestsTo, List.mem_filterMap]
  constructor
  · rintro ⟨repository, hmem, h⟩
    cases repository with
    | onDisk => cases h
    | onWeb url => exact ⟨url, hmem, (Option.some.inj h).symm⟩
  · rintro ⟨url, hmem, rfl⟩
    exact ⟨.onWeb url, hmem, rfl⟩

theorem requestTo_of_ends (h : Ends f c extension around repositories outcome asked w w')
    {request : Request} (hrequest : request ∈ asked) :
    ∃ url, .onWeb url ∈ repositories ∧ request = requestTo f c extension url := by
  have hbefore : ∀ {before : List Repository}, before ⊆ repositories →
      request ∈ requestsTo f c extension before →
      ∃ url, .onWeb url ∈ repositories ∧ request = requestTo f c extension url := by
    intro before hsubset hmem
    obtain ⟨url, hurl, heq⟩ := mem_requestsTo.1 hmem
    exact ⟨url, hsubset hurl, heq⟩
  cases h with
  | found _ hprovides =>
      rcases List.mem_append.1 hrequest with hrequest | hrequest
      · exact hbefore (List.subset_append_left _ _) hrequest
      · cases hprovides with
        | onDisk | kept => cases hrequest
        | fetched => exact ⟨_, by simp, List.mem_singleton.1 hrequest⟩
  | broken _ hbreaks =>
      rcases List.mem_append.1 hrequest with hrequest | hrequest
      · exact hbefore (List.subset_append_left _ _) hrequest
      · cases hbreaks with
        | onDisk | kept | unmade => cases hrequest
        | fetching => exact ⟨_, by simp, List.mem_singleton.1 hrequest⟩
  | nowhere => exact mem_requestsTo.1 hrequest

end Requests

theorem adds_of_lackAll (h : LackAll f c extension around before w v) :
    AddsOutside
      (· = goalOf around.directory (temporaryFor (cachePath f (c.relativePath extension))))
      (OnTheWay around.directory (cachePath f (c.relativePath extension)).parent) w v := by
  induction h with
  | nil w => exact Passage.refl w
  | cons hlacks _ ih =>
      refine Passage.trans ?_ ih
      cases hlacks with
      | onDisk => exact Passage.refl _
      | onWeb _ hfetch habsent =>
          obtain ⟨_, rfl, -⟩ := isAbsent_iff.1 habsent
          exact (restored_of_fetch rfl hfetch).others

section Speaking

variable (hspeaks : around.SpeaksHttp)

include hspeaks

/-- A download reports that the server does not have the file exactly when the server says so, with
the directories for the file made before, and with what an earlier download has left behind cleared
away after. -/
theorem absent_of_fetch_iff {url : String} :
    (∃ fault, perform (fetch f c extension url) around w = (.error fault, w') ∧
        isAbsent fault = true) ↔
      ∃ v r, perform (makeDirectories (cachePath f (c.relativePath extension)).parent) around w =
          (.ok (), v) ∧
        around.server (requestTo f c extension url) v = .answered r ∧ r.status = 404 ∧
        perform (unlinkIfPresent (temporaryFor (cachePath f (c.relativePath extension)))) around
          (v.requesting (requestTo f c extension url)) = (.ok (), w') := by
  have hstatus := @status_of_download_iff around w w' f.settings
    (addressIn url (c.relativePath extension)) (cachePath f (c.relativePath extension))
    f.showProgress (name_cachePath_ne f c extension) hspeaks 404
  unfold fetch
  constructor
  · rintro ⟨fault, hfetch, habsent⟩
    obtain ⟨cause, rfl, h404⟩ := isAbsent_iff.1 habsent
    obtain ⟨v, r, hmake, hserver, -, hr, hunlink⟩ := hstatus.1 ⟨cause, hfetch, h404⟩
    exact ⟨v, r, hmake, hserver, hr, hunlink⟩
  · rintro ⟨v, r, hmake, hserver, hr, hunlink⟩
    have hfailure : IsFailure r.status := by
      rw [hr]
      exact ⟨by decide, by decide⟩
    obtain ⟨cause, hfetch, h404⟩ := hstatus.2 ⟨v, r, hmake, hserver, hfailure, hr, hunlink⟩
    exact ⟨_, hfetch, isAbsent_iff.2 ⟨cause, rfl, h404⟩⟩

theorem lacks_onWeb_iff {url : String} : Lacks f c extension around (.onWeb url) w w' ↔
    answerAt (cachePath f (c.relativePath extension)) w.tree around.directory = .ok none ∧
      ∃ v r, perform (makeDirectories (cachePath f (c.relativePath extension)).parent) around w =
          (.ok (), v) ∧
        around.server (requestTo f c extension url) v = .answered r ∧ r.status = 404 ∧
        perform (unlinkIfPresent (temporaryFor (cachePath f (c.relativePath extension)))) around
          (v.requesting (requestTo f c extension url)) = (.ok (), w') := by
  rw [← absent_of_fetch_iff hspeaks]
  constructor
  · intro h
    cases h with
    | onWeb hnone hfetch habsent => exact ⟨hnone, _, hfetch, habsent⟩
  · rintro ⟨hnone, fault, hfetch, habsent⟩
    exact .onWeb hnone hfetch habsent

theorem not_resolution_of_breaks {missing : ResolutionFault}
    (h : Breaks f c extension around repository (.resolution missing) asked w v) : False := by
  cases h with
  | onDisk hrefused | kept hrefused => exact refused_answerAt _ _ _ _ hrefused
  | unmade _ hmake => exact (refused_makeDirectories _).of_perform hmake
  | fetching _ _ hfetch =>
      rcases fault_of_download (name_cachePath_ne f c extension) hspeaks hfetch with
        houtside | ⟨_, heq, -⟩ | ⟨_, _, _, -, -, -, -, heq⟩
      · exact houtside
      · cases heq
      · cases heq

end Speaking

/-- A search ends at the first repository that provides the file or breaks it off, all before it
lacking the file, and makes the requests to those before and to this one, in order. The places are
reported exactly when every repository lacks the file, and then the disk is as before, up to what an
earlier download has left behind and to new directories for the file. -/
theorem obtain_asks_in_order (f : Resolver) (c : Coordinate) (extension : String)
    (around : Surroundings) (w w' : World) (outcome : Except Fault Path)
    (hspeaks : around.SpeaksHttp) :
    (perform (obtain f c extension) around w = (outcome, w') ↔
      ∃ asked, Ends f c extension around f.repositories outcome asked w w' ∧
        w'.requests = w.requests ++ asked) ∧
    ((∃ missing, perform (obtain f c extension) around w = (.error (.resolution missing), w')) ↔
      LackAll f c extension around f.repositories w w') ∧
    (LackAll f c extension around f.repositories w w' → AddsOutside
      (· = goalOf around.directory (temporaryFor (cachePath f (c.relativePath extension))))
      (OnTheWay around.directory (cachePath f (c.relativePath extension)).parent) w w') ∧
    ∀ (url : String) (u u' : World), Lacks f c extension around (.onWeb url) u u' ↔
      answerAt (cachePath f (c.relativePath extension)) u.tree around.directory = .ok none ∧
        ∃ v r, perform (makeDirectories (cachePath f (c.relativePath extension)).parent) around u =
            (.ok (), v) ∧
          around.server (requestTo f c extension url) v = .answered r ∧ r.status = 404 ∧
          perform (unlinkIfPresent (temporaryFor (cachePath f (c.relativePath extension)))) around
            (v.requesting (requestTo f c extension url)) = (.ok (), u') := by
  refine ⟨?_, ?_, adds_of_lackAll, fun _ _ _ => lacks_onWeb_iff hspeaks⟩
  · rw [perform_obtain_iff]
    exact ⟨fun ⟨asked, h⟩ => ⟨asked, h, requests_of_ends h⟩, fun ⟨asked, h, _⟩ => ⟨asked, h⟩⟩
  · constructor
    · rintro ⟨missing, h⟩
      obtain ⟨asked, hends⟩ := perform_obtain_iff.1 h
      generalize hrepositories : f.repositories = repositories at hends
      cases hends with
      | broken _ hbreaks => exact (not_resolution_of_breaks hspeaks hbreaks).elim
      | nowhere hall => exact hrepositories ▸ hall
    · intro hall
      exact ⟨_, perform_obtain_iff.2 ⟨_, .nowhere hall⟩⟩

section Served

/-- A resolver that asks the disk first, and then a server. -/
def resolverOfBoth : Resolver :=
  ⟨.parse "/c", [.onDisk (.parse "/m"), .onWeb "http://h/m"], .default, false⟩

theorem speaksHttp_servingJar : aroundServingJar.SpeaksHttp where
  failed _ _ _ h := nomatch h
  broken _ _ r _ _ h hbroken := by
    obtain rfl := Reply.answered.inj h
    cases hbroken
  refused _ _ r h := by
    obtain rfl := Reply.answered.inj h
    exact iff_of_false nofun (not_isFailure_ofBytes _ _ _)

theorem server_provides_after_disk :
    aroundServingJar.SpeaksHttp ∧ ∃ asked w',
      perform (obtain resolverOfBoth ⟨"o", "n", "1"⟩ "jar") aroundServingJar (.ofTree .empty) =
        (.ok (.parse "/c/maven/o/n/1/n-1.jar"), w') ∧
      Ends resolverOfBoth ⟨"o", "n", "1"⟩ "jar" aroundServingJar resolverOfBoth.repositories
        (.ok (.parse "/c/maven/o/n/1/n-1.jar")) asked (.ofTree .empty) w' ∧
      w'.requests = (World.ofTree .empty).requests ++ asked ∧
      w'.requests = [⟨"http://h/m/o/n/1/n-1.jar", true, 30⟩] := by
  have hfound : perform (obtain resolverOfBoth ⟨"o", "n", "1"⟩ "jar") aroundServingJar
      (.ofTree .empty) = (.ok (.parse "/c/maven/o/n/1/n-1.jar"), _) :=
    Prod.ext (by decide +kernel) rfl
  obtain ⟨hiff, -⟩ := obtain_asks_in_order resolverOfBoth ⟨"o", "n", "1"⟩ "jar" aroundServingJar
    (.ofTree .empty) _ _ speaksHttp_servingJar
  obtain ⟨asked, hends, hrequests⟩ := hiff.1 hfound
  exact ⟨speaksHttp_servingJar, asked, _, hfound, hends, hrequests, by decide +kernel⟩

/-- An extension that makes names longer than the operating system takes them. -/
def longExtension : String := String.ofList (List.replicate 64 '𝄞')

/-- A disk with the directories for the file of an artifact in a repository and in the cache. In the
cache a directory is where the temporary file of a download would be. -/
def diskInTheWay : FileTree :=
  [["m"], ["m", "o"], ["m", "o", "n"], ["m", "o", "n", "1"], ["c"], ["c", "maven"],
    ["c", "maven", "o"], ["c", "maven", "o", "n"], ["c", "maven", "o", "n", "1"],
    ["c", "maven", "o", "n", "1", "n-1.jar.tmp"]].foldl (·.add · .directory) .empty

/-- Surroundings in which no server has any file. -/
def aroundAbsent : Surroundings :=
  { Surroundings.still [] with
    server := fun asked _ => .answered (.notFound asked.url) }

/-- Where a file with the long extension is looked for on the disk. -/
def longPlace : Path :=
  Path.parse "/m" / Coordinate.relativePath ⟨"o", "n", "1"⟩ longExtension

/-- The name of a file with the long extension. -/
def longName : String := Coordinate.fileName ⟨"o", "n", "1"⟩ longExtension

theorem eq_of_mem_replicated {n : Nat} {a x : Char}
    (h : x ∈ (String.ofList (List.replicate n a)).toList) : x = a := by
  rw [String.toList_ofList] at h
  exact List.eq_of_mem_replicate h

theorem longPlace_eq : longPlace.isAbsolute = true ∧
    longPlace.steps = ["m", "o", "n", "1", longName] := by
  have hplain : Coordinate.IsPlain ⟨"o", "n", "1"⟩ :=
    ⟨by decide, by decide, by decide, by decide⟩
  have hslash : '/' ∉ longExtension.toList := fun h =>
    absurd (eq_of_mem_replicated h) (by decide)
  have hnames := Coordinate.isName_way hplain hslash
  rw [longPlace, Coordinate.relativePath_eq, Path.div_wayText _ (fun s hs => (hnames s hs).1)
    (Coordinate.way_ne_nil _ _), Path.isAbsolute, Path.anchor_descend _ fun s hs => (hnames s hs).1,
    Path.steps_descend _ fun s hs => (hnames s hs).1]
  exact ⟨rfl, rfl⟩

theorem answerAt_of_tooLong {t : FileTree} {cwd : Location} (hask : isAskable p = true)
    (hlocate : t.locate cwd p = .error .nameTooLong) :
    answerAt p t cwd = .error (.system (.on .nameTooLong p.text)) := by
  simp [answerAt, hask, lookup, hlocate, bind, Except.bind, SystemError.isAbsence]

theorem answerAt_longPlace :
    answerAt longPlace diskInTheWay [] = .error (.system (.on .nameTooLong longPlace.text)) := by
  obtain ⟨habsolute, hsteps⟩ := longPlace_eq
  have hask : isAskable longPlace = true := by
    have hnull : '\x00' ∉ longExtension.toList := fun h =>
      absurd (eq_of_mem_replicated h) (by decide)
    rw [isAskable_iff, hsteps]
    have hname : '\x00' ∉ longName.toList := by
      simp [longName, Coordinate.toList_fileName, hnull]
    simpa using hname
  have hopen : ∀ v ∈ passedBy [] longPlace, diskInTheWay.isDirectory v = true := by
    have hpassed : passed [] ["m", "o", "n", "1", longName] =
        [[], ["m"], ["m", "o"], ["m", "o", "n"], ["m", "o", "n", "1"]] := rfl
    rw [passedBy, start_of_absolute habsolute, hsteps, hpassed]
    decide +kernel
  have hlong : ¬ PathFits longPlace := by
    intro hfits
    have hname := hfits.steps longName (by rw [hsteps]; simp)
    revert hname
    decide +kernel
  obtain ⟨hfits, -⟩ | ⟨-, hlocate⟩ := locate_open hopen
  · exact absurd hfits hlong
  · exact answerAt_of_tooLong hask hlocate

/-- A resolver that looks on the disk only. -/
def resolverOfDisk : Resolver :=
  ⟨.parse "/c", [.onDisk (.parse "/m")], .default, false⟩

/-- Nothing has the file, and yet the places that were tried are not reported: a question to the
disk is refused, or clearing up behind a download is. -/
theorem refusals_hide_absence :
    (diskInTheWay.node? (goalOf [] longPlace) = none ∧
      ∃ w', perform (obtain resolverOfDisk ⟨"o", "n", "1"⟩ longExtension) (.still [])
        (.ofTree diskInTheWay) = (.error (.system (.on .nameTooLong longPlace.text)), w')) ∧
    diskInTheWay.node? (goalOf [] (.parse "/c/maven/o/n/1/n-1.jar")) = none ∧
      (∀ asked w, ∃ r, aroundAbsent.server asked w = .answered r ∧ r.status = 404) ∧
      ∃ w', perform (obtain ⟨.parse "/c", [.onWeb "http://h/m"], .default, false⟩
          ⟨"o", "n", "1"⟩ "jar") aroundAbsent (.ofTree diskInTheWay) =
        (.error (.system (.on .isDirectory "/c/maven/o/n/1/n-1.jar.tmp")), w') := by
  have hgoal : goalOf [] longPlace = ["m", "o", "n", "1", longName] := by
    rw [goalOf, start_of_absolute longPlace_eq.1, longPlace_eq.2,
      reach_of_plain (by decide +kernel)]
    rfl
  have hrefused : Breaks resolverOfDisk ⟨"o", "n", "1"⟩ longExtension (.still [])
      (.onDisk (.parse "/m")) (.system (.on .nameTooLong longPlace.text)) [] (.ofTree diskInTheWay)
      (.ofTree diskInTheWay) := .onDisk answerAt_longPlace
  exact ⟨⟨by rw [hgoal]; decide +kernel, _, hrefused.perform_obtainFrom [] []⟩, by decide +kernel,
    fun _ _ => ⟨_, rfl, rfl⟩, _, Prod.ext (by decide +kernel) rfl⟩

end Served

end StagedBuild.Artifact
