import Barista.Pom.ProfileProperties

/-!
# Inheritance along the parent chain

A text is taken from the POM nearest to the leaf that declares it. Plugins are joined, except those
that an ancestor keeps to itself. Of the repositories with one id the one declared last is kept, the
profiles after the POMs; before interpolation no id occurs twice.
-/

namespace Barista.Pom

open List

theorem findSome?_cons_or {α β : Type} (f : α → Option β) (head : α) (tail : List α) :
    (head :: tail).findSome? f = (f head).or (tail.findSome? f) := by
  rw [findSome?_cons]
  cases f head <;> rfl

theorem mergeChain_findSome? {α : Type} {declared : RawPom → Option α}
    (inherits : ∀ parent child,
      declared (merge parent child) = (declared child).or (declared parent))
    (root : RawPom) (chain : List RawPom) :
    declared (mergeChain root chain) = (root :: chain).findSome? declared := by
  induction chain generalizing root with
  | nil => rw [mergeChain_nil, findSome?_cons_or, findSome?_nil, Option.or_none]
  | cons parent chain ih => rw [mergeChain_cons, inherits, ih, findSome?_cons_or _ root]

def buildTexts : List (RawBuild → Option String) :=
  [RawBuild.sourceDirectory, RawBuild.scriptSourceDirectory, RawBuild.testSourceDirectory,
    RawBuild.outputDirectory, RawBuild.testOutputDirectory, RawBuild.directory, RawBuild.finalName,
    RawBuild.defaultGoal]

def inheritedTexts : List (RawPom → Option String) :=
  [RawPom.groupId, RawPom.version, RawPom.name, RawPom.description, RawPom.url,
    RawPom.inceptionYear] ++
    buildTexts.map fun text pom => pom.build.bind text

theorem mergeBuild_bind : ∀ text ∈ buildTexts, ∀ parent child,
    (mergeBuild parent child).bind text = (child.bind text).or (parent.bind text) := by
  simp only [buildTexts, forall_mem_cons]
  refine ⟨?_, ?_, ?_, ?_, ?_, ?_, ?_, ?_, by simp⟩ <;> rintro (_ | parent) (_ | child) <;>
    simp [mergeBuild]

/-- What the nearest POM of the chain declares is what the merged POM declares. -/
theorem nearest_declaration_wins (root : RawPom) (chain : List RawPom) :
    (∀ text ∈ inheritedTexts, text (mergeChain root chain) = (root :: chain).findSome? text) ∧
      ∀ key, (mergeChain root chain).properties.get? key =
        (root :: chain).findSome? fun pom => pom.properties.get? key := by
  constructor
  · intro text listed
    apply mergeChain_findSome?
    intro parent child
    rcases mem_append.mp listed with scalar | inBuild
    · fin_cases scalar <;> rfl
    · rcases mem_map.mp inBuild with ⟨text, inTexts, rfl⟩
      exact mergeBuild_bind text inTexts parent.build child.build
  · intro key
    have inherits : ∀ parent child : RawPom, (merge parent child).properties.get? key =
        (child.properties.get? key).or (parent.properties.get? key) := by
      intro parent child
      have merged : (merge parent child).properties =
          ((∅ : Properties).extend parent.properties.entries).extend child.properties.entries := rfl
      rw [merged, IndexMap.get?_extend, IndexMap.get?_extend, IndexMap.get?_empty, Option.or_none]
    let declared : RawPom → Option String := fun pom => pom.properties.get? key
    exact mergeChain_findSome? (show ∀ parent child, declared (merge parent child) =
      (declared child).or (declared parent) from inherits) root chain

example : (mergeChain { artifactId := "app" } [{ groupId := some "org" }]).groupId =
    some "org" := by
  decide

section Plugins

variable {listed : RawPom → List RawPlugin}

theorem mergeChain_plugins (joins : ∀ parent child,
      listed (merge parent child) = (listed parent).filter isPluginInheritable ++ listed child)
    (root : RawPom) (chain : List RawPom) :
    listed (mergeChain root chain) =
      (chain.reverse.flatMap fun pom => (listed pom).filter isPluginInheritable) ++
      listed root := by
  induction chain generalizing root with
  | nil => rfl
  | cons parent chain ih =>
    rw [mergeChain_cons, joins, ih, filter_append, filter_flatMap, reverse_cons, flatMap_append]
    simp only [filter_filter, Bool.and_self, flatMap_singleton]

theorem plugins_merge (parent child : RawPom) :
    (merge parent child).plugins = parent.plugins.filter isPluginInheritable ++ child.plugins := by
  unfold RawPom.plugins merge
  cases parent.build <;> cases child.build <;> simp [mergeBuild]

theorem managedPlugins_merge (parent child : RawPom) : (merge parent child).managedPlugins =
    parent.managedPlugins.filter isPluginInheritable ++ child.managedPlugins := by
  unfold RawPom.managedPlugins merge
  rcases parent.build with _ | parent <;> rcases child.build with _ | child
  · rfl
  · rfl
  · cases management : parent.pluginManagement <;>
      simp [mergeBuild, RawBuild.managedPlugins, management]
  · cases management : parent.pluginManagement <;>
      cases childManagement : child.pluginManagement <;>
      simp [mergeBuild, mergePluginManagement, RawBuild.managedPlugins, management, childManagement]

end Plugins

/-- The plugins of the effective POM are those of its ancestors, the farthest first, and its own.
The plugins that an ancestor declares with `inherited` set to `false` are left out. -/
theorem plugins_inherited {σ : Type} (env : String → Option String)
    (reply : RawParent → σ → Except String RawPom × σ) (root : RawPom) (st st' : σ)
    (effective : EffectivePom)
    (ran : (buildEffective env root).run reply st = (.ok effective, st')) :
    ∀ listed ∈ [RawPom.plugins, RawPom.managedPlugins],
      Forall₂ (fun plugin settled => interpPlugin
          (settleText (lookupIn env (mergeChain root effective.parentChain))) plugin = .ok settled)
        ((effective.parentChain.reverse.flatMap fun pom =>
          (listed pom).filter fun plugin => plugin.inherited ≠ some "false") ++ listed root)
        (listed effective.pom) := by
  rcases buildEffective_run ran with ⟨-, settled, interpolates, same⟩
  have plugins := plugins_of_mapM_interpBuild interpolates.build
  have settledBuild : effective.pom.build = settled.build := by rw [same]
  rw [← settledBuild] at plugins
  intro listed kind
  rcases mem_pair.mp kind with rfl | rfl
  · exact mergeChain_plugins plugins_merge root effective.parentChain ▸ plugins.1
  · exact mergeChain_plugins managedPlugins_merge root effective.parentChain ▸ plugins.2

variable (parent : Option RawParent)

def pluginPom (plugin : RawPlugin) : RawPom :=
  { parent, groupId := some "org.example", artifactId := "app", version := some "1"
    build := some { plugins := [plugin] } }

def pluginRun : Except EffectiveError EffectivePom × Unit :=
  let parent : RawParent := { groupId := "org.example", artifactId := "parent", version := "1" }
  (buildEffective (fun _ => none) (pluginPom (some parent) { artifactId := "jar" })).run
    (fun _ _ => (.ok (pluginPom none { artifactId := "site", inherited := some "false" }), ())) ()

theorem plugins_inherited_private : ∃ effective, pluginRun = (.ok effective, ()) ∧
    effective.parentChain.length = 1 ∧ effective.pom.plugins.length = 1 := by
  have built : pluginRun.1.map (fun effective => (effective.parentChain.length,
      (effective.parentChain.reverse.flatMap fun pom =>
        pom.plugins.filter fun plugin => plugin.inherited ≠ some "false").length)) =
          .ok (1, 0) := by
    decide
  rcases Dialogue.exists_run_of_map built with ⟨effective, _, ran, lengths⟩
  rw [Prod.mk.injEq] at lengths
  refine ⟨effective, ran, lengths.1, ?_⟩
  rw [← (plugins_inherited _ _ _ _ _ _ ran RawPom.plugins mem_cons_self).length_eq, length_append,
    lengths.2]
  rfl

theorem packaging_mergeChain_eq_jar (root : RawPom) (chain : List RawPom) :
    (mergeChain root chain).packaging = "jar" ↔ ∀ pom ∈ root :: chain, pom.packaging = "jar" := by
  induction chain generalizing root with
  | nil => simp [mergeChain_nil]
  | cons parent chain ih =>
    simp only [mergeChain_cons, merge]
    rw [forall_mem_cons, ← ih parent]
    split_ifs with inherits
    · simp [inherits]
    · tauto

theorem packaging_mergeChain {root : RawPom} (other : root.packaging ≠ "jar")
    (chain : List RawPom) :
    (mergeChain root chain).packaging = root.packaging := by
  cases chain <;> simp [mergeChain_nil, mergeChain_cons, merge, other]

theorem packaging_interpolatePom {pom settled : RawPom}
    {interp : InterpolationLocation → String → Except EffectiveError String}
    (ran : interpolatePom interp pom = .ok settled) : settled.packaging = pom.packaging := by
  simp only [interpolatePom, bind_eq_ok] at ran
  rcases ran with ⟨_, -, _, -, _, -, _, -, _, -, _, -, _, -, _, -, _, -, _, -, _, -, _, -, _, -, ⟨⟩⟩
  rfl

/-- A leaf that is a jar takes the packaging of the nearest ancestor that is none. -/
theorem packaging_own_iff {σ : Type} (env : String → Option String)
    (reply : RawParent → σ → Except String RawPom × σ) (root : RawPom) (st st' : σ)
    (effective : EffectivePom)
    (ran : (buildEffective env root).run reply st = (.ok effective, st')) :
    effective.pom.packaging = root.packaging ↔
      root.packaging ≠ "jar" ∨ ∀ pom ∈ effective.parentChain, pom.packaging = "jar" := by
  rcases finishEffective_of_run ran with ⟨chain, -, finished⟩
  rcases interpolatePom_of_finishEffective finished with ⟨settled, interpolated, same, rfl⟩
  have merged : effective.pom.packaging = (mergeChain root effective.parentChain).packaging := by
    rw [same, ← packaging_interpolatePom interpolated]
  rw [merged]
  by_cases jar : root.packaging = "jar"
  · rw [jar, packaging_mergeChain_eq_jar, forall_mem_cons]
    simp [jar]
  · simp [packaging_mergeChain jar, jar]

def packagedPom (packaging : String) : RawPom :=
  { parent, groupId := some "org.example", artifactId := "app", version := some "1", packaging }

def packagingRun (ancestor : String) : Except EffectiveError EffectivePom × Unit :=
  let parent : RawParent := { groupId := "org.example", artifactId := "parent", version := "1" }
  (buildEffective (fun _ => none) (packagedPom (some parent) "jar")).run
    (fun _ _ => (.ok (packagedPom none ancestor), ())) ()

theorem packaging_own_jar : ∃ effective, packagingRun "jar" = (.ok effective, ()) ∧
    effective.pom.packaging = "jar" := by
  have built : (packagingRun "jar").1.map (·.parentChain.map RawPom.packaging) = .ok ["jar"] := by
    decide
  rcases Dialogue.exists_run_of_map built with ⟨effective, _, ran, chain⟩
  refine ⟨effective, ran, (packaging_own_iff _ _ _ _ _ _ ran).mpr (.inr fun pom mem => ?_)⟩
  simpa [chain] using mem_map_of_mem (f := RawPom.packaging) mem

/-- A POM with packaging `jar` takes over the packaging of its parent. -/
theorem packaging_inherited : (packagingRun "pom").1.map (·.pom.packaging) = .ok "pom" := by
  decide

section Repositories

variable {α : Type} {idOf : α → Option String}

variable (idOf) in
/-- The lists are merged by id, and later lists take precedence. -/
structure MergedById (lists : List (List α)) (merged : List α) : Prop where
  distinct : (merged.filterMap idOf).Nodup
  found : ∀ id, (merged.find? fun element => idOf element = some id) =
    lists.reverse.findSome? fun list => list.find? fun element => idOf element = some id
  unnamed : merged.filter (fun element => (idOf element).isNone) =
    lists.flatten.filter fun element => (idOf element).isNone

theorem keepNewIds_of_nodup {seen : List String} {later : List α}
    (distinct : (later.filterMap idOf).Nodup) (fresh : ∀ id ∈ later.filterMap idOf, id ∉ seen) :
    keepNewIds idOf seen later = later := by
  induction later generalizing seen with
  | nil => rfl
  | cons element rest ih =>
    rcases named : idOf element with _ | id
    · rw [filterMap_cons_none named] at distinct fresh
      simp [keepNewIds, named, ih distinct fresh]
    · rw [filterMap_cons_some named, nodup_cons] at distinct
      rw [filterMap_cons_some named, forall_mem_cons] at fresh
      have later : keepNewIds idOf (id :: seen) rest = rest := by
        apply ih distinct.2
        intro other mem
        rw [mem_cons, not_or]
        exact ⟨fun same => distinct.1 (same ▸ mem), fresh.2 other mem⟩
      simp [keepNewIds, named, fresh.1, later]

theorem MergedById.single {list : List α} (distinct : (list.filterMap idOf).Nodup) :
    MergedById idOf [list] list where
  distinct
  found id := by simp [findSome?_cons_or]
  unnamed := by simp

theorem MergedById.snoc {lists : List (List α)} {merged next : List α}
    (merges : MergedById idOf lists merged) (distinct : (next.filterMap idOf).Nodup) :
    MergedById idOf (lists ++ [next]) (mergeById idOf merged next) := by
  let kept := merged.filter fun element => !(idOf element).any fun id => id ∈ next.filterMap idOf
  have fresh : ∀ id ∈ kept.filterMap idOf, id ∉ next.filterMap idOf := by
    intro id mem
    rcases mem_filterMap.mp mem with ⟨element, inKept, named⟩
    simpa [named] using (mem_filter.mp inKept).2
  have joined : mergeById idOf merged next = kept ++ next := by
    change kept ++ keepNewIds idOf (kept.filterMap idOf) next = kept ++ next
    rw [keepNewIds_of_nodup distinct fun id inNext inKept => fresh id inKept inNext]
  rw [joined]
  refine ⟨?_, ?_, ?_⟩
  · rw [filterMap_append, nodup_append]
    refine ⟨merges.distinct.sublist (filter_sublist.filterMap _), distinct, ?_⟩
    rintro id inKept _ inNext rfl
    exact fresh id inKept inNext
  · intro id
    rw [reverse_append, reverse_singleton, singleton_append, findSome?_cons_or, ← merges.found,
      find?_append]
    by_cases inNext : id ∈ next.filterMap idOf
    · have absent : (kept.find? fun element => idOf element = some id) = none := by
        rw [find?_eq_none]
        intro element mem named
        exact fresh id (mem_filterMap.mpr ⟨element, mem, of_decide_eq_true named⟩) inNext
      rcases mem_filterMap.mp inNext with ⟨element, mem, named⟩
      have present : (next.find? fun element => idOf element = some id).isSome :=
        find?_isSome.mpr ⟨element, mem, decide_eq_true named⟩
      rcases Option.isSome_iff_exists.mp present with ⟨hit, found⟩
      rw [absent, found]
      rfl
    · have absent : (next.find? fun element => idOf element = some id) = none := by
        rw [find?_eq_none]
        intro element mem named
        exact inNext (mem_filterMap.mpr ⟨element, mem, of_decide_eq_true named⟩)
      have same : (kept.find? fun element => idOf element = some id) =
          merged.find? fun element => idOf element = some id := by
        rw [find?_filter]
        congr 1
        funext element
        by_cases named : idOf element = some id
        · simpa [named] using inNext
        · simp [named]
      rw [absent, same, Option.or_none, Option.none_or]
  · have unnamed : kept.filter (fun element => (idOf element).isNone) =
        merged.filter fun element => (idOf element).isNone := by
      rw [filter_filter]
      apply filter_congr
      intro element _
      cases idOf element <;> rfl
    rw [filter_append, unnamed, merges.unnamed, flatten_append, filter_append, flatten_singleton]

theorem mergedById_mergeChain {listed : RawPom → List α}
    (merges : ∀ parent child,
      listed (merge parent child) = mergeById idOf (listed parent) (listed child))
    {root : RawPom} {chain : List RawPom}
    (distinct : ∀ pom ∈ root :: chain, ((listed pom).filterMap idOf).Nodup) :
    MergedById idOf ((ancestorFirst root chain).map listed) (listed (mergeChain root chain)) := by
  induction chain generalizing root with
  | nil => exact .single (distinct root mem_cons_self)
  | cons parent chain ih =>
    have inherited := ih fun pom mem => distinct pom (mem_cons_of_mem _ mem)
    have last : ancestorFirst root (parent :: chain) = ancestorFirst parent chain ++ [root] :=
      reverse_cons
    rw [mergeChain_cons, merges, last, map_append]
    exact inherited.snoc (distinct root mem_cons_self)

theorem MergedById.map {lists : List (List α)} {merged : List α}
    (merges : MergedById idOf lists merged) {f : α → α}
    (sameId : ∀ element, idOf (f element) = idOf element) :
    MergedById idOf (lists.map (List.map f)) (merged.map f) where
  distinct := by
    have same : (merged.map f).filterMap idOf = merged.filterMap idOf := by
      rw [filterMap_map]
      exact congrArg (filterMap · merged) (funext sameId)
    rw [same]
    exact merges.distinct
  found := by
    intro id
    have find (list : List α) : (list.map f).find? (fun element => idOf element = some id) =
        (list.find? fun element => idOf element = some id).map f := by
      rw [find?_map]
      simp [sameId]
    rw [find, merges.found, ← map_reverse, findSome?_map, map_findSome?]
    congr 1
    funext list
    exact (find list).symm
  unnamed := by
    have unnamed (list : List α) : (list.map f).filter (fun element => (idOf element).isNone) =
        (list.filter fun element => (idOf element).isNone).map f := by
      rw [filter_map]
      simp [Function.comp_def, sameId]
    rw [unnamed, merges.unnamed, ← unnamed, map_flatten]

theorem MergedById.foldl {β : Type} {listed : β → List α} {lists : List (List α)} {merged : List α}
    (merges : MergedById idOf lists merged) {others : List β}
    (distinct : ∀ other ∈ others, ((listed other).filterMap idOf).Nodup) :
    MergedById idOf (lists ++ others.map listed)
      (others.foldl (fun merged other => mergeById idOf merged (listed other)) merged) := by
  induction others generalizing lists merged with
  | nil => simpa using merges
  | cons other others ih =>
    rw [forall_mem_cons] at distinct
    simpa using ih (merges.snoc distinct.1) distinct.2

end Repositories

theorem exists_settle {interp : InterpolationLocation → String → Except EffectiveError String}
    {repos settled : List RawRepository} (ran : repos.mapM' (interpRepository interp) = .ok settled)
    (keepsIds : ∀ repo ∈ repos, ∀ id ∈ repo.id, interp (.repositoryUrl id) id = .ok id) :
    ∃ settle : RawRepository → RawRepository, (∀ repo, (settle repo).id = repo.id) ∧
      (∀ repo ∈ repos, interpRepository interp repo = .ok (settle repo)) ∧
        settled = repos.map settle := by
  let settle (repo : RawRepository) : RawRepository :=
    { (interpRepository interp repo).toOption.getD repo with id := repo.id }
  have settles : ∀ repo ∈ repos, ∀ repo', interpRepository interp repo = .ok repo' →
      repo' = settle repo := by
    intro repo mem repo' found
    have sameId : repo'.id = repo.id := by
      unfold interpRepository at found
      rcases bind_eq_ok.mp found with ⟨id, idOk, found⟩
      rcases bind_eq_ok.mp found with ⟨name, -, found⟩
      rcases bind_eq_ok.mp found with ⟨url, -, found⟩
      rcases bind_eq_ok.mp found with ⟨layout, -, found⟩
      cases found
      cases named : repo.id with
      | none =>
        rw [named] at idOk
        cases idOk
        rfl
      | some text =>
        have kept := keepsIds repo mem text named
        simp only [named, Option.getD_some, Option.mapM_some, kept] at idOk
        cases idOk
        rfl
    simp only [settle, found, Except.toOption, Option.getD_some, ← sameId]
  have pointwise := mapM'_eq_ok.mp ran
  refine ⟨settle, fun _ => rfl, ?_, ?_⟩
  · intro repo mem
    rcases forall₂_exists_right pointwise mem with ⟨repo', -, found⟩
    rw [found, settles repo mem repo' found]
  · clear ran keepsIds
    induction pointwise with
    | nil => rfl
    | cons found _ ih =>
      rw [forall_mem_cons] at settles
      rw [map_cons, ← settles.1 _ found, ← ih settles.2]

/-- Repositories and plugin repositories are merged by id, if no list declares an id twice and
interpolation, which comes between the chain and the profiles, changes no id.  The list that the
profiles are spliced into has the definition of the nearest declarer, interpolated. -/
theorem repositories_merged_by_id (inPom : RawPom → List RawRepository)
    (inProfile : RawProfile → List RawRepository)
    (kind : (inPom, inProfile) ∈ [(RawPom.repositories, RawProfile.repositories),
      (RawPom.pluginRepositories, RawProfile.pluginRepositories)])
    (root : RawPom) (chain : List RawPom)
    (interp : InterpolationLocation → String → Except EffectiveError String) (interpolated : RawPom)
    (ran : interpolatePom interp (mergeChain root chain) = .ok interpolated)
    (profiles : List RawProfile)
    (distinct : ∀ pom ∈ root :: chain, ((inPom pom).filterMap RawRepository.id).Nodup)
    (keepsIds : ∀ repo ∈ inPom (mergeChain root chain), ∀ id ∈ repo.id,
      interp (.repositoryUrl id) id = .ok id)
    (profilesDistinct : ∀ profile ∈ profiles,
      ((inProfile profile).filterMap RawRepository.id).Nodup) :
    MergedById RawRepository.id ((ancestorFirst root chain).map inPom)
      (inPom (mergeChain root chain)) ∧
    ∃ settle : RawRepository → RawRepository, (∀ repo, (settle repo).id = repo.id) ∧
      (∀ repo ∈ inPom (mergeChain root chain), interpRepository interp repo = .ok (settle repo)) ∧
      MergedById RawRepository.id
        (((ancestorFirst root chain).map inPom).map (map settle) ++ profiles.map inProfile)
        (inPom (profiles.foldl spliceProfile interpolated)) := by
  have merges : ∀ parent child,
      inPom (merge parent child) = mergeById RawRepository.id (inPom parent) (inPom child) := by
    fin_cases kind <;> exact fun _ _ => rfl
  have splices : inPom (profiles.foldl spliceProfile interpolated) =
      profiles.foldl (fun merged profile =>
      mergeById RawRepository.id merged (inProfile profile)) (inPom interpolated) := by
    have both := repositories_foldl_spliceProfile profiles interpolated
    fin_cases kind
    · exact both.1
    · exact both.2
  have passed : (inPom (mergeChain root chain)).mapM' (interpRepository interp) =
      .ok (inPom interpolated) := by
    have interpolates := interpolates_of_eq_ok ran
    fin_cases kind
    · exact interpolates.repositories
    · exact interpolates.pluginRepositories
  have merged := mergedById_mergeChain merges distinct
  rcases exists_settle passed keepsIds with ⟨settle, sameId, settles, same⟩
  refine ⟨merged, settle, sameId, settles, ?_⟩
  rw [splices, same]
  exact (merged.map sameId).foldl profilesDistinct

def mirrorPom (parent : Option RawParent) (id url : String) : RawPom :=
  { parent, groupId := some "org.example", artifactId := "app", version := some "1"
    properties := (∅ : Properties).insert "mirror" "central"
    repositories := [{ id := some id, url := some url }] }

def mirroredParent : RawPom :=
  { mirrorPom none "central" "old" with
    repositories := [{ id := some "central", url := some "old" },
      { id := some "extra", url := some "https://$\x7bmirror\x7d" }] }

def mirrorProfile : RawProfile :=
  { id := some "dev", repositories := [{ id := some "central", url := some "theirs" }] }

/-- The profile has the last word on `central`, and the parent alone declares `extra`. -/
theorem repositories_merged_by_id_profile :
    let leaf := mirrorPom none "central" "new"
    let merged := mergeChain leaf [mirroredParent]
    ∃ (interpolated : RawPom) (settle : RawRepository → RawRepository),
      interpolatePom (settleText (lookupIn (fun _ => none) merged)) merged = .ok interpolated ∧
      (spliceProfile interpolated mirrorProfile).repositories.map RawRepository.url =
        [some "https://central", some "theirs"] ∧
      MergedById RawRepository.id
        [mirroredParent.repositories.map settle, leaf.repositories.map settle,
          mirrorProfile.repositories]
        (spliceProfile interpolated mirrorProfile).repositories := by
  intro leaf merged
  have urls : (interpolatePom (settleText (lookupIn (fun _ => none) merged)) merged).map
      (fun pom => (spliceProfile pom mirrorProfile).repositories.map RawRepository.url) =
        .ok [some "https://central", some "theirs"] := by
    decide
  rcases map_eq_ok.mp urls with ⟨interpolated, ran, urls⟩
  rcases (repositories_merged_by_id _ _ mem_cons_self leaf [mirroredParent] _ interpolated ran
    [mirrorProfile] (by decide) (by decide) (by decide)).2 with ⟨settle, -, -, merges⟩
  exact ⟨interpolated, settle, ran, urls, merges⟩

/-- Interpolation gives two repositories the same id. -/
theorem repositories_share_id :
    let parent : RawParent := { groupId := "org.example", artifactId := "parent", version := "1" }
    ((buildEffective (fun _ => none) (mirrorPom (some parent) "central" "new")).run
        (fun _ _ => (.ok (mirrorPom none "$\x7bmirror\x7d" "old"), ())) ()).1.map
        (fun effective => effective.pom.repositories.map RawRepository.id) =
      .ok [some "central", some "central"] := by
  decide

end Barista.Pom
