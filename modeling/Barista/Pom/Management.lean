import Barista.Pom.Resolve
import Barista.Pointwise

/-!
# What imports expand to

Managed dependencies are a tree: the entries that a POM declares itself, and below it the
POMs that it imports.  The expanded list is the preorder of that tree.  It does not matter
what the resolver replies, only that it does.
-/

namespace Barista.Pom

open List

section Preparation

section Imports

def declaredEntries (entries : List RawDependency) : List RawDependency :=
  entries.filter fun dep => !isBomImport dep

def importEntries (entries : List RawDependency) : List RawDependency :=
  entries.filter isBomImport

variable {σ : Type} (env : String → Option String)
  (reply : RawParent → σ → Except String RawPom × σ)

inductive ImportsTo : σ → List RawDependency → σ → List (List RawDependency) → Prop where
  | nil (state : σ) : ImportsTo state [] state []
  | cons {asked replied built expanded done : σ} {dep : RawDependency}
      {deps : List RawDependency} {raw : RawPom} {effective : EffectivePom}
      {below rest : List (List RawDependency)}
      (replies : reply dep.importGav.toParent asked = (.ok raw, replied))
      (builds : (buildEffective env raw).run reply replied = (.ok effective, built))
      (inside : ImportsTo built (importEntries effective.pom.managed) expanded below)
      (further : ImportsTo expanded deps done rest) :
      ImportsTo asked (dep :: deps) done
        ((declaredEntries effective.pom.managed ++ below.flatten) :: rest)

variable {env reply} {st st' : σ}
  {expand : RawPom → ImportState → Resolution ResolveError (RawPom × ImportState)}

def ExpandsWell (env : String → Option String) (reply : RawParent → σ → Except String RawPom × σ)
    (expand : RawPom → ImportState → Resolution ResolveError (RawPom × ImportState)) : Prop :=
  ∀ ⦃pom pom' before after state state'⦄,
    (expand pom before).run reply state = (.ok (pom', after), state') →
    after.stack = before.stack ∧
      ∃ parts, ImportsTo env reply state (importEntries pom.managed) state' parts ∧
        pom'.managed = declaredEntries pom.managed ++ parts.flatten

theorem effectiveBom_run {gav : Gav} {eff : EffectivePom}
    (ran : (effectiveBom env gav).run reply st = (.ok eff, st')) :
    ∃ raw replied, reply gav.toParent st = (.ok raw, replied) ∧
      (buildEffective env raw).run reply replied = (.ok eff, st') := by
  rcases replies : reply gav.toParent st with ⟨ans, replied⟩
  rw [effectiveBom, Dialogue.run_bind_eq_ok] at ran
  rcases ran with ⟨_, _, asked, ran⟩
  rw [Dialogue.run_request, replies] at asked
  cases asked
  rcases ans with _ | raw
  · cases ran
  · exact ⟨raw, replied, rfl, Dialogue.run_mapError_eq_ok.mp ran⟩

theorem expandImports_run (well : ExpandsWell env reply expand) {deps appended : List RawDependency}
    {pre post : ImportState} (ran : (expandImports env expand deps pre).run reply st =
      (.ok (appended, post), st')) :
    post.stack = pre.stack ∧
      ∃ parts, ImportsTo env reply st deps st' parts ∧ appended = parts.flatten := by
  induction deps generalizing pre appended post st st' with
  | nil =>
    cases ran
    exact ⟨rfl, [], .nil st, rfl⟩
  | cons dep deps ih =>
    rw [expandImports] at ran
    split_ifs at ran with missing cyclic
    · cases ran
    · cases ran
    · rcases Dialogue.run_bind_eq_ok.mp ran with ⟨eff, built, imports, ran⟩
      rcases effectiveBom_run imports with ⟨raw, replied, replies, builds⟩
      rcases Dialogue.run_bind_eq_ok.mp ran with ⟨⟨bom, inner⟩, expanded, inside, ran⟩
      rcases Dialogue.run_bind_eq_ok.mp ran with ⟨⟨rest, outer⟩, done, further, ended⟩
      cases ended
      rcases well inside with ⟨innerStack, below, importsBelow, bomEq⟩
      rcases ih further with ⟨outerStack, parts, importsRest, restEq⟩
      refine ⟨?_, _, .cons replies builds importsBelow importsRest, ?_⟩
      · -- the import is taken off the stack again
        rw [outerStack]
        simp [innerStack]
      · rw [bomEq, restEq, flatten_cons]

theorem expandBomImports_run (remaining : ℕ) :
    ExpandsWell env reply (expandBomImports env remaining) := by
  induction remaining with
  | zero =>
    intro pom pom' pre post st st' ran
    cases ran
  | succ remaining ih =>
    intro pom pom' pre post st st' ran
    rw [expandBomImports] at ran
    rcases managed : pom.dependencyManagement with _ | _ <;> rw [managed] at ran
    · cases ran
      refine ⟨rfl, [], ?_, ?_⟩
      · simpa [RawPom.managed, managed, importEntries] using ImportsTo.nil st
      · simp [RawPom.managed, managed, declaredEntries]
    · rcases Dialogue.run_bind_eq_ok.mp ran with ⟨⟨appended, inner⟩, done, expanded, ended⟩
      cases ended
      rcases expandImports_run ih expanded with ⟨stack, parts, imports, appendedEq⟩
      refine ⟨stack, parts, ?_, ?_⟩
      · simpa [RawPom.managed, managed, importEntries] using imports
      · simp [RawPom.managed, managed, appendedEq, declaredEntries]

theorem expandBomImports_keeps {remaining : ℕ} {pom pom' : RawPom} {pre post : ImportState}
    (ran : (expandBomImports env remaining pom pre).run reply st = (.ok (pom', post), st')) :
    pom' = { pom with dependencyManagement := pom'.dependencyManagement } := by
  cases remaining with
  | zero => cases ran
  | succ remaining =>
    rw [expandBomImports] at ran
    rcases managed : pom.dependencyManagement with _ | _ <;> rw [managed] at ran
    · cases ran
      rfl
    · rcases Dialogue.run_bind_eq_ok.mp ran with ⟨⟨appended, inner⟩, done, -, ended⟩
      cases ended
      rfl

theorem ImportsTo.no_import {deps : List RawDependency} {parts : List (List RawDependency)}
    (imports : ImportsTo env reply st deps st' parts) :
    ∀ part ∈ parts, ∀ dep ∈ part, isBomImport dep = false := by
  have decl : ∀ entries, ∀ dep ∈ declaredEntries entries, isBomImport dep = false := by
    intro entries dep mem
    simpa [declaredEntries] using (mem_filter.mp mem).2
  induction imports with
  | nil st => simp
  | cons replies builds inside further insideIh furtherIh =>
    intro part partMem dep depMem
    rcases mem_cons.mp partMem with rfl | later
    · rcases mem_append.mp depMem with own | imported
      · exact decl _ dep own
      · rcases mem_flatten.mp imported with ⟨below, belowMem, mem⟩
        exact insideIh below belowMem dep mem
    · exact furtherIh part later dep depMem

theorem get?_indexByKey (deps : List RawDependency) (key : DepKey) :
    (indexByKey deps).get? key = deps.find? fun dep => DepKey.of dep = key := by
  have general : ∀ (idx : IndexMap DepKey RawDependency),
      (deps.foldl (fun idx dep => idx.insertIfNew (DepKey.of dep) dep) idx).get? key =
        (idx.get? key).or (deps.find? fun dep => DepKey.of dep = key) := by
    induction deps with
    | nil => simp
    | cons head tail ih =>
      intro idx
      rw [foldl_cons, ih, IndexMap.get?_insertIfNew, Option.or_assoc]
      by_cases same : DepKey.of head = key
      · simp [same]
      · simp [same, Ne.symm same]
  exact general ∅

/-- The expansion of imports.  It ends whatever the resolver replies, and then the managed
list is what the POM declares itself, followed by what its imports expand to.  So a declared
entry comes before an imported one, and an earlier import before a later one. -/
theorem expandBomImports_spec (env : String → Option String)
    (reply : RawParent → σ → Except String RawPom × σ) (remaining : ℕ) (pom : RawPom)
    (before : ImportState) (st : σ) :
    (∃ limit, (Dialogue.runWithin reply limit (expandBomImports env remaining pom before)
      st).isSome) ∧
    ∀ pom' after st',
      (expandBomImports env remaining pom before).run reply st = (.ok (pom', after), st') →
      (∀ dep ∈ pom'.managed, isBomImport dep = false) ∧
      ∃ parts, ImportsTo env reply st (importEntries pom.managed) st' parts ∧
        pom'.managed = declaredEntries pom.managed ++ parts.flatten ∧
        ∀ key, (buildDmIndex pom').get? key =
          ((declaredEntries pom.managed).find? fun dep => DepKey.of dep = key).or
            (parts.findSome? fun part => part.find? fun dep => DepKey.of dep = key) := by
  refine ⟨?_, ?_⟩
  · rcases Dialogue.exists_runWithin reply (expandBomImports env remaining pom before) st with
      ⟨limit, ended⟩
    exact ⟨limit, by rw [ended]; rfl⟩
  · intro pom' after st' ran
    rcases expandBomImports_run remaining ran with ⟨-, parts, imports, managed⟩
    have noImport : ∀ dep ∈ pom'.managed, isBomImport dep = false := by
      intro dep member
      rw [managed] at member
      rcases mem_append.mp member with declared | imported
      · simpa using (mem_filter.mp declared).2
      · rcases mem_flatten.mp imported with ⟨part, partMem, depMem⟩
        exact imports.no_import part partMem dep depMem
    refine ⟨noImport, parts, imports, managed, ?_⟩
    intro key
    have all : (pom'.managed.filter fun dep => !isBomImport dep) = pom'.managed := by
      rw [filter_eq_self]
      intro dep member
      simp [noImport dep member]
    rw [buildDmIndex, all, get?_indexByKey, managed, find?_append, find?_flatten]

def importingPom : RawPom :=
  { artifactId := "app"
    dependencyManagement := some
      { dependencies :=
          [{ groupId := "org.example", artifactId := "bom", version := some "1.0",
             scope := some "import", type := some "pom" },
           { groupId := "org.example", artifactId := "core", version := some "2.0" }] } }

def importedPom : RawPom :=
  { groupId := some "org.example"
    artifactId := "bom"
    version := some "1.0"
    dependencyManagement := some
      { dependencies :=
          [{ groupId := "org.example", artifactId := "core", version := some "1.0" },
           { groupId := "org.example", artifactId := "util", version := some "1.0" }] } }

/-- The declared version of `core` comes before the imported one. -/
theorem expandBomImports_spec_importingPom :
    ∃ pom' after st',
      (expandBomImports (fun _ => none) (maxBomImportDepth + 1) importingPom {}).run
        (fun _ count => (.ok importedPom, count + 1)) 0 = (.ok (pom', after), st') ∧
      (∀ dep ∈ pom'.managed, isBomImport dep = false) ∧
      pom'.managed.map (fun dep => (dep.artifactId, dep.version)) =
        [("core", some "2.0"), ("core", some "1.0"), ("util", some "1.0")] := by
  have expanded : ((expandBomImports (fun _ => none) (maxBomImportDepth + 1) importingPom
      {}).run (fun _ count => (.ok importedPom, count + 1)) 0).1.map (fun result =>
        result.1.managed.map fun dep => (dep.artifactId, dep.version)) =
      .ok [("core", some "2.0"), ("core", some "1.0"), ("util", some "1.0")] := by
    decide
  rcases Dialogue.exists_run_of_map expanded with ⟨⟨pom', after⟩, st', ran, managed⟩
  have noImport := ((expandBomImports_spec _ _ _ _ _ _).2 pom' after st' ran).1
  exact ⟨pom', after, st', ran, noImport, managed⟩

end Imports

/-!
# The stages of POM resolution

What each stage of the pipeline does to the dependencies and to the managed entries.  The
declarations of a chain of POMs stand one after the other, the farthest ancestor first, and
interpolation treats them one by one.
-/

variable {σ : Type} {env : String → Option String} {pathExists : String → String → Bool}
  {reply : RawParent → σ → Except String RawPom × σ} {st st' : σ}
  {root pom : RawPom} {ctx : ActivationContext}

theorem mergeChain_nil (root : RawPom) : mergeChain root [] = root := rfl

theorem mergeChain_cons (root parent : RawPom) (chain : List RawPom) :
    mergeChain root (parent :: chain) = merge (mergeChain parent chain) root := by
  unfold mergeChain
  rw [reverse_cons]
  rcases chain.reverse with _ | _
  · rfl
  · simp [foldl_append]

@[simp]
theorem managed_merge (parent child : RawPom) :
    (merge parent child).managed = parent.managed ++ child.managed := by
  unfold RawPom.managed merge
  cases parent.dependencyManagement <;> cases child.dependencyManagement <;>
    simp [mergeDependencyManagement]

def ancestorFirst (root : RawPom) (chain : List RawPom) : List RawPom := (root :: chain).reverse

theorem managed_mergeChain (root : RawPom) (chain : List RawPom) :
    (mergeChain root chain).managed = ((ancestorFirst root chain).map RawPom.managed).flatten := by
  induction chain generalizing root with
  | nil => simp [ancestorFirst, mergeChain_nil]
  | cons parent chain ih =>
    rw [mergeChain_cons, managed_merge, ih]
    simp [ancestorFirst]

theorem dependencies_mergeChain (root : RawPom) (chain : List RawPom) :
    (mergeChain root chain).dependencies =
      ((ancestorFirst root chain).map RawPom.dependencies).flatten := by
  induction chain generalizing root with
  | nil => simp [ancestorFirst, mergeChain_nil]
  | cons parent chain ih =>
    have merged : (merge (mergeChain parent chain) root).dependencies =
        (mergeChain parent chain).dependencies ++ root.dependencies := rfl
    rw [mergeChain_cons, merged, ih]
    simp [ancestorFirst]

variable (lookup : String → Option String)

def settleText (location : InterpolationLocation) (text : String) : Except EffectiveError String :=
  (interp lookup location text).value

def settleDependency (dep : RawDependency) : Except EffectiveError RawDependency :=
  interpDependency (settleText lookup) dep

def Settles (dep settled : RawDependency) : Prop :=
  settleDependency lookup dep = .ok settled

variable {eff : EffectivePom}

theorem interpolatePom_of_finishEffective {chain : List RawPom} {merged : RawPom}
    (finished : finishEffective env chain merged = .ok eff) :
    ∃ settled, interpolatePom (settleText (lookupIn env merged)) merged = .ok settled ∧
      eff.pom = { settled with parent := none } ∧ eff.parentChain = chain := by
  unfold finishEffective at finished
  rcases ran : interpolatePom (interp (lookupIn env merged)) merged with err | ⟨settled, log⟩
  · rw [ran] at finished
    cases finished
  · have val := apply_interpolatePom (interp (lookupIn env merged)) Interp.valueMorphism merged
    rw [ran] at finished val
    cases finished
    exact ⟨settled, val.symm, rfl, rfl⟩

section Pointwise

variable {interp : InterpolationLocation → String → Except EffectiveError String}

structure Interpolates (interp : InterpolationLocation → String → Except EffectiveError String)
    (pom settled : RawPom) : Prop where
  properties : interpProperties interp pom.properties = .ok settled.properties
  dependencies : pom.dependencies.mapM' (interpDependency interp) = .ok settled.dependencies
  management : pom.dependencyManagement.mapM (interpManagement interp) =
    .ok settled.dependencyManagement
  build : pom.build.mapM (interpBuild interp) = .ok settled.build
  profiles : pom.profiles.mapM' (interpProfile interp) = .ok settled.profiles
  repositories : pom.repositories.mapM' (interpRepository interp) = .ok settled.repositories
  pluginRepositories : pom.pluginRepositories.mapM' (interpRepository interp) =
    .ok settled.pluginRepositories

theorem interpolates_of_eq_ok {settled : RawPom} (ran : interpolatePom interp pom = .ok settled) :
    Interpolates interp pom settled := by
  unfold interpolatePom at ran
  rcases bind_eq_ok.mp ran with ⟨properties, propertiesOk, ran⟩
  rcases bind_eq_ok.mp ran with ⟨groupId, groupIdOk, ran⟩
  rcases bind_eq_ok.mp ran with ⟨ver, versionOk, ran⟩
  rcases bind_eq_ok.mp ran with ⟨name, nameOk, ran⟩
  rcases bind_eq_ok.mp ran with ⟨description, descriptionOk, ran⟩
  rcases bind_eq_ok.mp ran with ⟨url, urlOk, ran⟩
  rcases bind_eq_ok.mp ran with ⟨inceptionYear, inceptionYearOk, ran⟩
  rcases bind_eq_ok.mp ran with ⟨deps, dependenciesOk, ran⟩
  rcases bind_eq_ok.mp ran with ⟨mgmt, managementOk, ran⟩
  rcases bind_eq_ok.mp ran with ⟨build, buildOk, ran⟩
  rcases bind_eq_ok.mp ran with ⟨profs, profilesOk, ran⟩
  rcases bind_eq_ok.mp ran with ⟨repos, repositoriesOk, ran⟩
  rcases bind_eq_ok.mp ran with ⟨pluginRepositories, pluginRepositoriesOk, ran⟩
  cases ran
  exact ⟨propertiesOk, dependenciesOk, managementOk, buildOk, profilesOk, repositoriesOk,
    pluginRepositoriesOk⟩

theorem forall₂_managed {settled : RawPom} (interpolates : Interpolates interp pom settled) :
    Forall₂ (fun dep final => interpDependency interp dep = .ok final)
      pom.managed settled.managed := by
  have mgmt := option_mapM_eq_ok.mp interpolates.management
  unfold RawPom.managed
  generalize pom.dependencyManagement = pre at mgmt ⊢
  generalize settled.dependencyManagement = post at mgmt ⊢
  cases mgmt with
  | none => exact .nil
  | some related =>
    rcases bind_eq_ok.mp related with ⟨deps, dependenciesOk, same⟩
    cases same
    exact mapM'_eq_ok.mp dependenciesOk

end Pointwise

/-- The stages of a resolution before dependency management is applied. -/
structure Prepares (env : String → Option String) (pathExists : String → String → Bool)
    (reply : RawParent → σ → Except String RawPom × σ) (root : RawPom)
    (context : ActivationContext) (state state' : σ) (prepared : ResolvedPom)
    (expanded spliced : RawPom) : Prop where
  collected : ∃ middle imports,
    (collectParentChain root).run reply state = (.ok prepared.effective.parentChain, middle) ∧
    (expandBomImports env (maxBomImportDepth + 1) prepared.effective.pom {}).run reply middle =
      (.ok (expanded, imports), state') ∧ prepared.importedBoms = imports.imported
  interpolated : ∃ settled,
    Interpolates (settleText (lookupIn env (mergeChain root prepared.effective.parentChain)))
      (mergeChain root prepared.effective.parentChain) settled ∧
    prepared.effective.pom = { settled with parent := none }
  activated : applyProfiles pathExists expanded context = .ok (spliced, prepared.activeProfileIds)
  again : if prepared.importedBoms = [] ∧ prepared.activeProfileIds = [] then prepared.pom = spliced
    else ∃ settled, Interpolates (settleText (lookupIn env spliced)) spliced settled ∧
      prepared.pom = { settled with parent := none }

theorem finishEffective_of_run (ran : (buildEffective env root).run reply st = (.ok eff, st')) :
    ∃ chain, (collectParentChain root).run reply st = (.ok chain, st') ∧
      finishEffective env chain (mergeChain root chain) = .ok eff := by
  rcases Dialogue.run_bind_eq_ok.mp ran with ⟨chain, mid, collected, ran⟩
  rcases finished : finishEffective env chain (mergeChain root chain) with _ | _ <;>
    rw [finished] at ran <;> cases ran
  exact ⟨chain, collected, finished⟩

theorem buildEffective_run (ran : (buildEffective env root).run reply st = (.ok eff, st')) :
    (collectParentChain root).run reply st = (.ok eff.parentChain, st') ∧
      ∃ settled, Interpolates (settleText (lookupIn env (mergeChain root eff.parentChain)))
          (mergeChain root eff.parentChain) settled ∧
        eff.pom = { settled with parent := none } := by
  rcases finishEffective_of_run ran with ⟨chain, collected, finished⟩
  rcases interpolatePom_of_finishEffective finished with ⟨settled, interpolated, pomEq, rfl⟩
  exact ⟨collected, settled, interpolates_of_eq_ok interpolated, pomEq⟩

theorem collectParentChain_of_none (orphan : root.parent = none) :
    collectParentChain root = pure [] := by
  unfold collectParentChain
  rw [orphan]
  rfl

variable (profs : List RawProfile) (pom : RawPom)

theorem parent_foldl_spliceProfile : (profs.foldl spliceProfile pom).parent = pom.parent := by
  induction profs generalizing pom with
  | nil => rfl
  | cons prof profs ih => exact ih _

def activeProfiles (profiles : List RawProfile) (statuses : List Bool) : List RawProfile :=
  ((profiles.zip statuses).filter Prod.snd).map Prod.fst

theorem zipIdx_filter_map (keep : Bool → Bool) (marked : List (RawProfile × Bool)) :
    (marked.zipIdx.filter fun entry => keep entry.1.2).map (fun entry => entry.1.1) =
      (marked.filter fun entry => keep entry.2).map Prod.fst := by
  nth_rewrite 2 [← zipIdx_map_fst 0 marked]
  rw [filter_map, map_map]
  rfl

theorem spliceProfiles_fst (statuses : List Bool) : (spliceProfiles pom statuses).1 =
      { (activeProfiles pom.profiles statuses).foldl spliceProfile pom with
        profiles := ((pom.profiles.zip statuses).filter fun entry => !entry.2).map Prod.fst } := by
  have active : _ = activeProfiles pom.profiles statuses := zipIdx_filter_map id _
  rw [← active, foldl_map, ← zipIdx_filter_map not]
  rfl

theorem applyProfiles_eq_ok {expanded spliced : RawPom} {active : List String}
    (applied : applyProfiles pathExists expanded ctx = .ok (spliced, active)) :
    ∃ statuses inactive, profileStatuses pathExists ctx expanded.profiles = .ok statuses ∧
      spliced = { (activeProfiles expanded.profiles statuses).foldl spliceProfile expanded with
        profiles := inactive } := by
  rcases bind_eq_ok.mp applied with ⟨statuses, found, same⟩
  have splicedEq := (congrArg Prod.fst (Except.ok.inj same)).symm
  exact ⟨statuses, _, found, splicedEq.trans (spliceProfiles_fst expanded statuses)⟩

theorem prepares_of_run {prep : ResolvedPom}
    (ran : (preparePom env pathExists root ctx).run reply st = (.ok prep, st')) :
    ∃ expanded spliced, Prepares env pathExists reply root ctx st st' prep expanded spliced := by
  rcases Dialogue.run_bind_eq_ok.mp ran with ⟨eff, built, builds, ran⟩
  rw [Dialogue.run_mapError_eq_ok] at builds
  rcases buildEffective_run builds with ⟨collected, interpolated⟩
  rcases Dialogue.run_bind_eq_ok.mp ran with ⟨⟨expanded, imports⟩, done, expands, ran⟩
  rcases Dialogue.run_bind_eq_ok.mp ran with ⟨⟨spliced, active⟩, done', applied, ran⟩
  rcases Dialogue.run_ofExcept_eq_ok.mp applied with ⟨activated, rfl⟩
  have orphan : spliced.parent = none := by
    rcases applyProfiles_eq_ok activated with ⟨statuses, inactive, -, splicedEq⟩
    rcases interpolated with ⟨settled, -, effectiveEq⟩
    rw [splicedEq, parent_foldl_spliceProfile, expandBomImports_keeps expands, effectiveEq]
  dsimp only at ran
  by_cases nothing : imports.imported = [] ∧ active = []
  · rw [if_pos nothing] at ran
    cases ran
    exact ⟨expanded, spliced, ⟨_, imports, collected, expands, rfl⟩, interpolated, activated,
      by rw [if_pos nothing]⟩
  · rw [if_neg nothing] at ran
    rcases Dialogue.run_bind_eq_ok.mp ran with ⟨again, done', rebuilds, ended⟩
    rw [Dialogue.run_mapError_eq_ok] at rebuilds
    cases ended
    rcases buildEffective_run rebuilds with ⟨recollected, resettled⟩
    -- without a parent nothing is asked and nothing is merged
    rw [collectParentChain_of_none orphan, Dialogue.run_pure, Prod.mk.injEq,
      Except.ok.injEq] at recollected
    rcases recollected with ⟨alone, rfl⟩
    rw [← alone, mergeChain_nil] at resettled
    exact ⟨expanded, spliced, ⟨_, imports, collected, expands, rfl⟩, interpolated, activated,
      by rwa [if_neg nothing]⟩

def RawProfile.managed (profile : RawProfile) : List RawDependency :=
  match profile.dependencyManagement with
  | none => []
  | some management => management.dependencies

theorem managed_foldl_spliceProfile : (profs.foldl spliceProfile pom).managed =
      pom.managed ++ (profs.map RawProfile.managed).flatten := by
  induction profs generalizing pom with
  | nil => simp
  | cons prof profs ih =>
    have spliced : (spliceProfile pom prof).managed = pom.managed ++ prof.managed := by
      unfold RawPom.managed RawProfile.managed spliceProfile
      cases pom.dependencyManagement <;> cases prof.dependencyManagement <;>
        simp [mergeDependencyManagement]
    rw [foldl_cons, ih, spliced]
    simp

theorem dependencies_foldl_spliceProfile : (profs.foldl spliceProfile pom).dependencies =
      pom.dependencies ++ (profs.map RawProfile.dependencies).flatten := by
  induction profs generalizing pom with
  | nil => simp
  | cons prof profs ih =>
    have spliced : (spliceProfile pom prof).dependencies =
        pom.dependencies ++ prof.dependencies := rfl
    rw [foldl_cons, ih, spliced]
    simp

def SettlesAgain (env : String → Option String) (prepared : ResolvedPom) (spliced : RawPom)
    (dep final : RawDependency) : Prop :=
  if prepared.importedBoms = [] ∧ prepared.activeProfileIds = [] then final = dep
  else Settles (lookupIn env spliced) dep final

/-- What the managed entries of a level are in the end. -/
def ManagedAtEnd (env : String → Option String) (root : RawPom) (prepared : ResolvedPom)
    (spliced level : RawPom) (final : List RawDependency) : Prop :=
  ∃ settled, Forall₂ (Settles (lookupIn env (mergeChain root prepared.effective.parentChain)))
      level.managed settled ∧
    Forall₂ (SettlesAgain env prepared spliced) (declaredEntries settled) final

def DeclaredAtEnd (env : String → Option String) (root : RawPom) (prepared : ResolvedPom)
    (spliced level : RawPom) (final : List RawDependency) : Prop :=
  ∃ settled, Forall₂ (Settles (lookupIn env (mergeChain root prepared.effective.parentChain)))
      level.dependencies settled ∧
    Forall₂ (SettlesAgain env prepared spliced) settled final

namespace Prepares

variable {prep : ResolvedPom} {expanded spliced : RawPom}
  (prepares : Prepares env pathExists reply root ctx st st' prep expanded spliced)

include prepares

theorem again_managed :
    Forall₂ (SettlesAgain env prep spliced) spliced.managed prep.pom.managed := by
  have again := prepares.again
  unfold SettlesAgain
  split_ifs at again ⊢ with nothing
  · rw [again]
    exact forall₂_same.mpr fun _ _ => rfl
  · rcases again with ⟨settled, interpolates, same⟩
    have managed : prep.pom.managed = settled.managed := by
      rw [same]
      rfl
    rw [managed]
    exact forall₂_managed interpolates

theorem again_dependencies : Forall₂ (SettlesAgain env prep spliced) spliced.dependencies
      prep.pom.dependencies := by
  have again := prepares.again
  unfold SettlesAgain
  split_ifs at again ⊢ with nothing
  · rw [again]
    exact forall₂_same.mpr fun _ _ => rfl
  · rcases again with ⟨settled, interpolates, same⟩
    rw [same]
    exact mapM'_eq_ok.mp interpolates.dependencies

theorem spliced_eq : ∃ statuses inactive parts,
      profileStatuses pathExists ctx prep.effective.pom.profiles = .ok statuses ∧
      spliced = { (activeProfiles prep.effective.pom.profiles statuses).foldl spliceProfile
        expanded with profiles := inactive } ∧
      expanded = { prep.effective.pom with
        dependencyManagement := expanded.dependencyManagement } ∧
      expanded.managed = declaredEntries prep.effective.pom.managed ++ List.flatten parts := by
  rcases prepares.collected with ⟨mid, imports, -, expands, -⟩
  rcases applyProfiles_eq_ok prepares.activated with ⟨statuses, inactive, found, splicedEq⟩
  rcases expandBomImports_run _ expands with ⟨-, parts, -, managed⟩
  have kept := expandBomImports_keeps expands
  have profs : expanded.profiles = prep.effective.pom.profiles := by rw [kept]
  rw [profs] at found splicedEq
  exact ⟨statuses, inactive, parts, found, splicedEq, kept, managed⟩

theorem managed_levels : ∃ finals extra, Forall₂ (ManagedAtEnd env root prep spliced)
        (ancestorFirst root prep.effective.parentChain) finals ∧
      prep.pom.managed = finals.flatten ++ extra := by
  rcases prepares.interpolated with ⟨settledPom, interpolates, effectiveEq⟩
  rcases prepares.spliced_eq with ⟨statuses, inactive, parts, -, splicedEq, -, expandedManaged⟩
  have first := forall₂_managed interpolates
  rw [managed_mergeChain] at first
  rcases forall₂_flatten first with ⟨settled, levelwise, flat⟩
  have effectiveManaged : prep.effective.pom.managed = settled.flatten := by
    rw [← flat, effectiveEq]
    rfl
  have splicedManaged : spliced.managed = (settled.map declaredEntries).flatten ++
      (parts.flatten ++ ((activeProfiles prep.effective.pom.profiles statuses).map
        RawProfile.managed).flatten) := by
    have unfolded : spliced.managed =
        ((activeProfiles prep.effective.pom.profiles statuses).foldl spliceProfile
          expanded).managed := by
      rw [splicedEq]
      rfl
    rw [unfolded, managed_foldl_spliceProfile, expandedManaged, effectiveManaged, declaredEntries,
      filter_flatten, append_assoc]
    rfl
  have second := prepares.again_managed
  rw [splicedManaged] at second
  exact forall₂_groups (forall₂_map_left_iff.mp levelwise) second

theorem dependencies_levels : ∃ finals extra, Forall₂ (DeclaredAtEnd env root prep spliced)
        (ancestorFirst root prep.effective.parentChain) finals ∧
      prep.pom.dependencies = finals.flatten ++ extra := by
  rcases prepares.interpolated with ⟨settledPom, interpolates, effectiveEq⟩
  rcases prepares.spliced_eq with ⟨statuses, inactive, parts, -, splicedEq, kept, -⟩
  have first := mapM'_eq_ok.mp interpolates.dependencies
  rw [dependencies_mergeChain] at first
  rcases forall₂_flatten first with ⟨settled, levelwise, flat⟩
  have splicedDeps : spliced.dependencies = (settled.map id).flatten ++
      ((activeProfiles prep.effective.pom.profiles statuses).map
        RawProfile.dependencies).flatten := by
    have unfolded : spliced.dependencies =
        ((activeProfiles prep.effective.pom.profiles statuses).foldl spliceProfile
          expanded).dependencies := by
      rw [splicedEq]
    rw [unfolded, dependencies_foldl_spliceProfile, kept, effectiveEq, map_id, ← flat]
  have second := prepares.again_dependencies
  rw [splicedDeps] at second
  exact forall₂_groups (forall₂_map_left_iff.mp levelwise) second

end Prepares

end Preparation

/-!
# Managed versions along the parent chain

A dependency without a version receives the version of the first managed entry for its key
that has one.  The managed entries of a chain stand in the order of the merge, so this is
the entry of the farthest POM that manages the key, not of the nearest one.
-/

variable (key : DepKey)

def managedVersion (entries : List RawDependency) : Option String :=
  (entries.find? fun dep =>
    !isBomImport dep && dep.version.isSome && decide (DepKey.of dep = key)).bind
      RawDependency.version

theorem managedVersion_append (first second : List RawDependency) :
    managedVersion key (first ++ second) =
      (managedVersion key first).or (managedVersion key second) := by
  unfold managedVersion
  rw [find?_append]
  rcases found : first.find? _ with _ | _
  · rfl
  · have hit := find?_some found
    simp only [Bool.and_eq_true] at hit
    rcases Option.isSome_iff_exists.mp hit.1.2 with ⟨ver, hasVersion⟩
    simp [hasVersion]

theorem managedVersion_flatten (lists : List (List RawDependency)) :
    managedVersion key lists.flatten = (lists.filterMap (managedVersion key)).head? := by
  induction lists with
  | nil => rfl
  | cons head tail ih =>
    rw [flatten_cons, managedVersion_append, ih, filterMap_cons]
    cases managedVersion key head <;> rfl

theorem isBomImport_inheritFrom {dep other : RawDependency}
    (sameKey : DepKey.of other = DepKey.of dep) (decl : isBomImport other = false) :
    isBomImport (dep.inheritFrom other) = isBomImport dep := by
  by_cases isPom : dep.type = some "pom"
  · have otherPom : other.type = some "pom" := by
      have types := congrArg DepKey.type sameKey
      simp only [DepKey.of, isPom, Option.getD_some] at types
      rcases hasType : other.type with _ | _
      · simp [hasType] at types
      · simpa [hasType] using types
    have notImport : other.scope ≠ some "import" := by
      simpa [isBomImport, otherPom] using decl
    rcases hasScope : dep.scope with _ | _
    · simp [isBomImport, RawDependency.inheritFrom, hasScope, notImport]
    · simp [isBomImport, RawDependency.inheritFrom, hasScope]
  · simp [isBomImport, RawDependency.inheritFrom, isPom]

variable (entries : List RawDependency)

theorem get?_buildIndexFrom : (buildIndexFrom entries).get? key = entries.find? fun dep =>
      !isBomImport dep && dep.version.isSome && decide (DepKey.of dep = key) := by
  rw [buildIndexFrom, get?_indexByKey, find?_filter]
  simp only [Bool.decide_and, Bool.decide_eq_true, decide_eq_true_eq]

def inheritedEntry (dep : RawDependency) : RawDependency :=
  if dep.version.isSome || isBomImport dep then dep
  else
    match (buildIndexFrom entries).get? (DepKey.of dep) with
    | some other => dep.inheritFrom other
    | none => dep

theorem managed_inheritManagement (pom : RawPom) :
    ({ pom with dependencyManagement := pom.dependencyManagement.map inheritManagement } :
      RawPom).managed = pom.managed.map (inheritedEntry pom.managed) := by
  unfold RawPom.managed
  cases pom.dependencyManagement <;> rfl

theorem inheritedEntry_same (dep : RawDependency) :
    DepKey.of (inheritedEntry entries dep) = DepKey.of dep ∧
      isBomImport (inheritedEntry entries dep) = isBomImport dep := by
  unfold inheritedEntry
  split_ifs
  · exact ⟨rfl, rfl⟩
  · rcases found : (buildIndexFrom entries).get? (DepKey.of dep) with _ | _
    · exact ⟨rfl, rfl⟩
    · rw [get?_buildIndexFrom] at found
      have hit := find?_some found
      simp only [Bool.and_eq_true, Bool.not_eq_true', decide_eq_true_eq] at hit
      exact ⟨rfl, isBomImport_inheritFrom hit.2 hit.1.1⟩

theorem version_inheritedEntry {entries : List RawDependency} {dep : RawDependency} {key : DepKey}
    (first : (entries.find? fun dep => !isBomImport dep && decide (DepKey.of dep = key)) =
      some dep) :
    (inheritedEntry entries dep).version = managedVersion key entries := by
  rcases find?_eq_some_iff_append.mp first with ⟨hit, pre, post, split, others⟩
  simp only [Bool.and_eq_true, Bool.not_eq_true', decide_eq_true_eq] at hit
  rcases hit with ⟨decl, rfl⟩
  rcases hasVersion : dep.version with _ | _
  · rw [inheritedEntry, if_neg (by simp [hasVersion, decl]), get?_buildIndexFrom, managedVersion]
    cases (entries.find? fun other => !isBomImport other && other.version.isSome &&
        decide (DepKey.of other = DepKey.of dep)) with
    | none => simpa using hasVersion
    | some other => simp [RawDependency.inheritFrom, hasVersion]
  · have found : (entries.find? fun other => !isBomImport other && other.version.isSome &&
        decide (DepKey.of other = DepKey.of dep)) = some dep := by
      rw [find?_eq_some_iff_append]
      refine ⟨by simp [decl, hasVersion], pre, post, split, ?_⟩
      intro other mem
      have missed : isBomImport other = true ∨ DepKey.of other ≠ DepKey.of dep := by
        simpa using others other mem
      rcases missed with isImport | differs
      · simp [isImport]
      · simp [differs]
    simp [inheritedEntry, managedVersion, found, hasVersion]

theorem version_buildDmIndex (pom : RawPom) (key : DepKey) : ((buildDmIndex { pom with
      dependencyManagement := pom.dependencyManagement.map inheritManagement }).get? key).bind
        RawDependency.version = managedVersion key pom.managed := by
  have keys : ∀ dep, DepKey.of (inheritedEntry pom.managed dep) = DepKey.of dep :=
    fun dep => (inheritedEntry_same pom.managed dep).1
  have imports : ∀ dep, isBomImport (inheritedEntry pom.managed dep) = isBomImport dep :=
    fun dep => (inheritedEntry_same pom.managed dep).2
  rw [buildDmIndex, managed_inheritManagement, get?_indexByKey, filter_map, find?_map, find?_filter]
  simp only [Function.comp_def, keys, imports, Bool.decide_and, Bool.decide_eq_true]
  cases first : (pom.managed.find? fun dep => !isBomImport dep && decide (DepKey.of dep = key)) with
  | some dep => exact version_inheritedEntry first
  | none =>
    have missing : (pom.managed.find? fun dep =>
        !isBomImport dep && dep.version.isSome && decide (DepKey.of dep = key)) = none := by
      rw [find?_eq_none] at first ⊢
      intro dep mem hit
      refine first dep mem ?_
      simp only [Bool.and_eq_true] at hit ⊢
      exact ⟨hit.1.1, hit.2⟩
    simp [managedVersion, missing]

theorem version_of_manageDependency {idx : IndexMap DepKey RawDependency}
    {dep final : RawDependency} (open' : dep.version = none)
    (managed : manageDependency idx dep = .ok final) :
    final.version = if dep.scope = some "system" then none
      else (idx.get? (DepKey.of dep)).bind RawDependency.version := by
  unfold manageDependency at managed
  split_ifs at managed ⊢ with isSystem
  · rw [← Except.ok.inj managed, open']
  · rcases found : idx.get? (DepKey.of dep) with _ | _
    · simp [found, open'] at managed
    · simp only [found] at managed
      split_ifs at managed
      rw [← Except.ok.inj managed]
      simp [RawDependency.inheritFrom, open']

theorem version_of_applyDependencyManagement {pom pom' : RawPom}
    (applied : applyDependencyManagement pom = .ok pom') {pos : ℕ} {dep : RawDependency}
    (decl : pom.dependencies[pos]? = some dep) (open' : dep.version = none) :
    ∃ final, pom'.dependencies[pos]? = some final ∧
      final.version = if dep.scope = some "system" then none
        else managedVersion (DepKey.of dep) pom.managed := by
  rcases bind_eq_ok.mp applied with ⟨deps, managedAll, same⟩
  cases same
  have pointwise := mapM'_eq_ok.mp managedAll
  rcases List.getElem?_eq_some_iff.mp decl with ⟨bound, atPosition⟩
  have bound' : pos < deps.length := pointwise.length_eq ▸ bound
  have managed := (forall₂_iff_get.mp pointwise).2 pos bound bound'
  refine ⟨deps[pos], getElem?_eq_getElem bound', ?_⟩
  have atPosition' : pom.dependencies.get ⟨pos, bound⟩ = dep := atPosition
  rw [atPosition'] at managed
  have ver := version_of_manageDependency open' managed
  rw [version_buildDmIndex] at ver
  exact ver

section Chain

variable {σ : Type} {env : String → Option String} {pathExists : String → String → Bool}
  {reply : RawParent → σ → Except String RawPom × σ} {st st' : σ}
  {root : RawPom} {ctx : ActivationContext} {res : ResolvedPom}

theorem prepares_of_resolvePom
    (ran : (resolvePom env pathExists root ctx).run reply st = (.ok res, st')) :
    ∃ prep expanded spliced, Prepares env pathExists reply root ctx st st' prep expanded spliced ∧
      applyDependencyManagement prep.pom = .ok res.pom ∧
      res = { prep with pom := res.pom } := by
  rcases Dialogue.run_bind_eq_ok.mp ran with ⟨prep, mid, prepares, ran⟩
  rcases Dialogue.run_bind_eq_ok.mp ran with ⟨pom, done, applying, ended⟩
  rcases Dialogue.run_ofExcept_eq_ok.mp applying with ⟨applied, rfl⟩
  cases ended
  rcases prepares_of_run prepares with ⟨expanded, spliced, prepares⟩
  exact ⟨prep, expanded, spliced, prepares, applied, rfl⟩

/-- What the dependencies of a level are in the end. -/
def ResolvedAtEnd (env : String → Option String) (root : RawPom) (prepared : ResolvedPom)
    (spliced level : RawPom) (final : List RawDependency) : Prop :=
  ∃ declared, DeclaredAtEnd env root prepared spliced level declared ∧
    Forall₂ (fun dep managed => manageDependency (buildDmIndex { prepared.pom with
      dependencyManagement := prepared.pom.dependencyManagement.map inheritManagement }) dep =
        .ok managed) declared final

theorem resolved_levels {prep : ResolvedPom} {expanded spliced : RawPom}
    (prepares : Prepares env pathExists reply root ctx st st' prep expanded spliced)
    (applied : applyDependencyManagement prep.pom = .ok res.pom) :
    ∃ finals extra, Forall₂ (ResolvedAtEnd env root prep spliced)
        (ancestorFirst root prep.effective.parentChain) finals ∧
      res.pom.dependencies = finals.flatten ++ extra := by
  rcases prepares.dependencies_levels with ⟨decl, rest, levelwise, flat⟩
  rcases bind_eq_ok.mp applied with ⟨deps, managedAll, same⟩
  have pointwise := mapM'_eq_ok.mp managedAll
  have dependenciesEq : res.pom.dependencies = deps := by
    rw [← Except.ok.inj same]
  have grouped : prep.pom.dependencies = (decl.map id).flatten ++ rest := by
    rw [map_id, flat]
  rw [dependenciesEq]
  rw [grouped] at pointwise
  exact forall₂_groups levelwise pointwise

theorem managedVersion_levels {finals : List (List RawDependency)} {extra : List RawDependency}
    {key : DepKey} (managed : finals.filterMap (managedVersion key) ≠ []) :
    managedVersion key (finals.reverse.flatten ++ extra) =
      (finals.filterMap (managedVersion key)).getLast? := by
  rw [managedVersion_append, managedVersion_flatten, filterMap_reverse, head?_reverse]
  rw [getLast?_eq_some_getLast managed, Option.some_or]

end Chain

/-- A dependency without a version receives the version managed nearest to the POM exactly
when the farthest POM that manages its key manages the same version.  Dependencies of scope
`system` receive nothing.  The list `finals` holds the managed entries of the chain, the
nearest POM first. -/
theorem nearest_management_iff {σ : Type} (env : String → Option String)
    (pathExists : String → String → Bool) (reply : RawParent → σ → Except String RawPom × σ)
    (root : RawPom) (ctx : ActivationContext) (st st' : σ) (res : ResolvedPom)
    (ran : (resolvePom env pathExists root ctx).run reply st = (.ok res, st')) :
    ∃ prepared expanded spliced finals,
      Prepares env pathExists reply root ctx st st' prepared expanded spliced ∧
      res.effective = prepared.effective ∧
      Forall₂ (ManagedAtEnd env root prepared spliced)
        (root :: res.effective.parentChain) finals ∧
      ∀ (position : ℕ) dep versions, prepared.pom.dependencies[position]? = some dep →
        dep.version = none →
        finals.filterMap (managedVersion (DepKey.of dep)) = versions → 2 ≤ versions.length →
        (res.pom.dependencies[position]?.bind RawDependency.version = versions.head? ↔
          dep.scope ≠ some "system" ∧ versions.head? = versions.getLast?) := by
  rcases prepares_of_resolvePom ran with
    ⟨prepared, expanded, spliced, prepares, applied, same⟩
  have sameEffective : res.effective = prepared.effective := by rw [same]
  rcases prepares.managed_levels with ⟨finals, extra, levelwise, managed⟩
  refine ⟨prepared, expanded, spliced, finals.reverse, prepares, sameEffective, ?_, ?_⟩
  · rw [ancestorFirst, ← sameEffective] at levelwise
    rw [← forall₂_reverse_iff, reverse_reverse]
    exact levelwise
  · intro position dep versions declared versionless same several
    rcases version_of_applyDependencyManagement applied declared versionless with
      ⟨final, atPosition, version⟩
    have some' : versions ≠ [] := by
      intro none'
      simp [none'] at several
    have received : managedVersion (DepKey.of dep) prepared.pom.managed = versions.getLast? := by
      have levels : managedVersion (DepKey.of dep) (finals.reverse.reverse.flatten ++ extra) =
          (finals.reverse.filterMap (managedVersion (DepKey.of dep))).getLast? :=
        managedVersion_levels (by rwa [same])
      rw [reverse_reverse, same] at levels
      rw [managed, levels]
    rw [atPosition, Option.bind_some, version, received]
    have nonempty : versions.head? ≠ none := by simpa using some'
    by_cases isSystem : dep.scope = some "system"
    · rw [if_pos isSystem]
      exact ⟨fun none' => absurd none'.symm nonempty, fun other => absurd isSystem other.1⟩
    · rw [if_neg isSystem]
      exact ⟨fun equal => ⟨isSystem, equal.symm⟩, fun other => other.2.symm⟩

def managingPom (version : String) : RawPom :=
  { parent := some { groupId := "org.example", artifactId := "parent", version := "1" }
    artifactId := "app"
    dependencies := [{ groupId := "org.example", artifactId := "core" }]
    dependencyManagement := some
      { dependencies :=
          [{ groupId := "org.example", artifactId := "core", version := some version }] } }

def managingParent : RawPom :=
  { groupId := some "org.example"
    artifactId := "parent"
    version := some "1"
    dependencyManagement := some
      { dependencies :=
          [{ groupId := "org.example", artifactId := "core", version := some "1.0" }] } }

/-- The POM manages version 2.0, and its dependency gets the version of its parent. -/
theorem nearest_management_loses :
    ((resolvePom (fun _ => none) (fun _ _ => false) (managingPom "2.0") {}).run
        (fun _ asked => (.ok managingParent, asked + 1)) 0).1.map (fun res =>
          (res.effective.parentChain.length, res.pom.dependencies.map RawDependency.version)) =
      .ok (1, [some "1.0"]) ∧
    managedVersion ⟨"org.example", "core", "jar", ""⟩ (managingPom "2.0").managed = some "2.0" ∧
    managedVersion ⟨"org.example", "core", "jar", ""⟩ managingParent.managed = some "1.0" := by
  decide

theorem nearest_management_iff_agreeing : ∃ res st',
      (resolvePom (fun _ => none) (fun _ _ => false) (managingPom "1.0") {}).run
        (fun _ asked => (.ok managingParent, asked + 1)) 0 = (.ok res, st') ∧
      res.pom.dependencies.map RawDependency.version = [some "1.0"] ∧
      ∃ prepared expanded spliced, ∃ finals : List (List RawDependency),
        Prepares (fun _ => none) (fun _ _ => false)
          (fun _ asked => (.ok managingParent, asked + 1)) (managingPom "1.0") {} 0 st'
          prepared expanded spliced ∧
        ∀ dep versions, prepared.pom.dependencies[0]? = some dep → dep.version = none →
          finals.filterMap (managedVersion (DepKey.of dep)) = versions → 2 ≤ versions.length →
          (some "1.0" = versions.head? ↔
            dep.scope ≠ some "system" ∧ versions.head? = versions.getLast?) := by
  have versions : ((resolvePom (fun _ => none) (fun _ _ => false) (managingPom "1.0") {}).run
      (fun _ asked => (.ok managingParent, asked + 1)) 0).1.map (fun res =>
        res.pom.dependencies.map RawDependency.version) = .ok [some "1.0"] := by
    decide
  rcases Dialogue.exists_run_of_map versions with ⟨res, st', ran, received⟩
  rcases nearest_management_iff _ _ _ _ _ _ _ _ ran with
    ⟨prepared, expanded, spliced, finals, prepares, -, -, nearest⟩
  have first : res.pom.dependencies[0]?.bind RawDependency.version = some "1.0" := by
    rcases List.map_eq_singleton_iff.mp received with ⟨dep, alone, version⟩
    rw [alone]
    exact version
  refine ⟨res, st', ran, received, prepared, expanded, spliced, finals, prepares, ?_⟩
  intro dep versions declared versionless same several
  rw [← first]
  exact nearest 0 dep versions declared versionless same several

/-- What is declared is kept. A missing version is that of the first managed entry with the key, and
if that entry has none, the first version managed for the key. -/
def Completes (managed : List RawDependency) (dep final : RawDependency) : Prop :=
  (∀ ver, dep.version = some ver → final.version = some ver) ∧
  (∀ scope, dep.scope = some scope → final.scope = some scope) ∧
  (dep.exclusions ≠ [] → final.exclusions = dep.exclusions) ∧
  (dep.version = none → dep.scope ≠ some "system" → ∃ entry,
    (managed.find? fun other => !isBomImport other && decide (DepKey.of other = DepKey.of dep)) =
      some entry ∧
    final.version = entry.version.or (managedVersion (DepKey.of dep) managed) ∧
      final.version.isSome)

theorem exists_first_of_managedVersion {key : DepKey} {entries : List RawDependency}
    (found : (managedVersion key entries).isSome) : ∃ entry,
    (entries.find? fun dep => !isBomImport dep && decide (DepKey.of dep = key)) = some entry ∧
      managedVersion key entries = entry.version.or (managedVersion key entries) := by
  have present :
      (entries.find? fun dep => !isBomImport dep && decide (DepKey.of dep = key)).isSome := by
    rw [find?_isSome]
    rcases Option.isSome_iff_exists.mp found with ⟨ver, found⟩
    rcases Option.bind_eq_some_iff.mp found with ⟨dep, found, -⟩
    have hit := find?_some found
    simp only [Bool.and_eq_true] at hit
    exact ⟨dep, mem_of_find?_eq_some found, by simp [hit.1.1, hit.2]⟩
  rcases Option.isSome_iff_exists.mp present with ⟨entry, first⟩
  refine ⟨entry, first, ?_⟩
  have ver := version_inheritedEntry first
  rcases hasVersion : entry.version with _ | _
  · rfl
  · simpa [inheritedEntry, hasVersion] using ver.symm

theorem completes_of_manageDependency {pom : RawPom} {dep final : RawDependency}
    (managed : manageDependency (buildDmIndex { pom with
      dependencyManagement := pom.dependencyManagement.map inheritManagement }) dep = .ok final) :
    Completes pom.managed dep final ∧
      (final.version.isSome ↔ (dep.scope = some "system" → dep.version.isSome)) := by
  have open' : dep.version = none → dep.scope ≠ some "system" →
      final.version = managedVersion (DepKey.of dep) pom.managed := by
    intro none' other
    rw [version_of_manageDependency none' managed, if_neg other, version_buildDmIndex]
  by_cases isSystem : dep.scope = some "system"
  · rw [manageDependency, if_pos isSystem] at managed
    cases managed
    exact ⟨⟨fun _ => id, fun _ => id, fun _ => rfl, fun _ other => absurd isSystem other⟩,
      by simp [isSystem]⟩
  · rw [manageDependency, if_neg isSystem] at managed
    have kept : final.version.isSome ∧ (∀ ver, dep.version = some ver → final.version = some ver) ∧
        (∀ scope, dep.scope = some scope → final.scope = some scope) ∧
        (dep.exclusions ≠ [] → final.exclusions = dep.exclusions) := by
      dsimp only at managed
      split at managed <;> split_ifs at managed with missing <;> cases managed <;>
        rw [Bool.not_eq_true, Option.isNone_eq_false_iff] at missing
      · exact ⟨missing, by simp_all [RawDependency.inheritFrom]⟩
      · exact ⟨missing, fun _ => id, fun _ => id, fun _ => rfl⟩
    refine ⟨⟨kept.2.1, kept.2.2.1, kept.2.2.2, fun none' other => ?_⟩, by simp [kept.1, isSystem]⟩
    have received := open' none' other
    rcases exists_first_of_managedVersion (received ▸ kept.1) with ⟨entry, first, ver⟩
    exact ⟨entry, first, received.trans ver, kept.1⟩

/-- Every resolved dependency has a version exactly when those of scope `system` declare one. -/
theorem versions_resolved_iff {σ : Type} (env : String → Option String)
    (pathExists : String → String → Bool) (reply : RawParent → σ → Except String RawPom × σ)
    (root : RawPom) (ctx : ActivationContext) (st st' : σ) (res : ResolvedPom)
    (ran : (resolvePom env pathExists root ctx).run reply st = (.ok res, st')) :
    ∃ prepared expanded spliced,
      Prepares env pathExists reply root ctx st st' prepared expanded spliced ∧
      Forall₂ (Completes prepared.pom.managed) prepared.pom.dependencies res.pom.dependencies ∧
      ((∀ final ∈ res.pom.dependencies, final.version.isSome) ↔
        ∀ dep ∈ prepared.pom.dependencies, dep.scope = some "system" → dep.version.isSome) := by
  rcases prepares_of_resolvePom ran with ⟨prepared, expanded, spliced, prepares, applied, -⟩
  rcases bind_eq_ok.mp applied with ⟨deps, managedAll, same⟩
  rw [← Except.ok.inj same]
  have pointwise := (mapM'_eq_ok.mp managedAll).imp fun _ _ => completes_of_manageDependency
  refine ⟨prepared, expanded, spliced, prepares, pointwise.imp fun _ _ => And.left, ?_⟩
  dsimp only at pointwise ⊢
  clear managedAll same
  generalize prepared.pom.dependencies = declared at pointwise
  induction pointwise with
  | nil => simp
  | cons completed _ ih => rw [forall_mem_cons, forall_mem_cons, completed.2, ih]

/-- A dependency whose version is managed, beside one of scope `system`. -/
def systemPom (version : Option String) : RawPom :=
  { groupId := some "org.example", artifactId := "app", version := some "1"
    dependencies :=
      [{ groupId := "org.example", artifactId := "core" },
        { groupId := "org.example", artifactId := "tools", version, scope := some "system" }]
    dependencyManagement := some
      ⟨[{ groupId := "org.example", artifactId := "core", version := some "2.0" }]⟩ }

def systemRun (version : Option String) : Except ResolveError ResolvedPom × Unit :=
  (resolvePom (fun _ => none) (fun _ _ => false) (systemPom version) {}).run
    (fun _ _ => (.error "", ())) ()

/-- A dependency with scope `system` stays without a version. -/
theorem system_version_missing : (systemRun none).1.map (fun res =>
    res.pom.dependencies.map RawDependency.version) = .ok [some "2.0", none] := by
  decide

theorem versions_resolved_iff_system :
    (∃ res prepared : ResolvedPom, systemRun (some "1") = (.ok res, ()) ∧
      Forall₂ (Completes prepared.pom.managed) prepared.pom.dependencies res.pom.dependencies ∧
      ∀ dep ∈ prepared.pom.dependencies, dep.scope = some "system" → dep.version.isSome) ∧
    ∃ res prepared : ResolvedPom, systemRun none = (.ok res, ()) ∧
      ∃ dep ∈ prepared.pom.dependencies, dep.scope = some "system" ∧ dep.version = none := by
  constructor
  · have versions : (systemRun (some "1")).1.map (fun res =>
        res.pom.dependencies.map RawDependency.version) = .ok [some "2.0", some "1"] := by
      decide
    rcases Dialogue.exists_run_of_map versions with ⟨res, _, ran, seen⟩
    rcases versions_resolved_iff _ _ _ _ _ _ _ _ ran with ⟨prepared, _, _, -, completes, present⟩
    refine ⟨res, prepared, ran, completes, present.mp fun final mem => ?_⟩
    have listed := mem_map_of_mem (f := RawDependency.version) mem
    rw [seen] at listed
    aesop
  · have versions : (systemRun none).1.map (fun res =>
        res.pom.dependencies.map RawDependency.version) = .ok [some "2.0", none] := by
      decide
    rcases Dialogue.exists_run_of_map versions with ⟨res, _, ran, seen⟩
    rcases versions_resolved_iff _ _ _ _ _ _ _ _ ran with ⟨prepared, _, _, -, -, present⟩
    refine ⟨res, prepared, ran, ?_⟩
    by_contra declared
    push Not at declared
    have missing : none ∈ res.pom.dependencies.map RawDependency.version := by simp [seen]
    rcases mem_map.mp missing with ⟨final, mem, none'⟩
    have versioned := present.mpr (fun dep mem system =>
      Option.isSome_iff_ne_none.mpr (declared dep mem system)) final mem
    simp [none'] at versioned

end Barista.Pom
