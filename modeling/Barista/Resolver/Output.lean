import Barista.Resolver.Prefetch
import Barista.Resolver.Selection

/-!
# Redeclared dependencies

The dependencies of a resolved POM are those of its ancestors, the farthest first, then its
own.  The walk takes the first declaration of a coordinate, so a declaration of an ancestor
comes before one of the POM itself.
-/

namespace Barista.Resolver

section Direct

open List Option
open WorkItem (direct)

variable {RawPom ResolvedPom Activation : Type} {lower : String → String}
  {pipe : PomPipeline RawPom ResolvedPom Activation} {src : MetadataSource RawPom}
  {opts : WalkOptions RawPom ResolvedPom Activation} {edge : Coords → RawDependency}
  {root : ResolvedPom} {graph : ResolvedGraph} {dep : RawDependency} {coords : Coords}

def RawDependency.declares (dep : RawDependency) (coords : Coords) : Bool :=
  Coords.new dep.groupId dep.artifactId = .ok coords

def declaredVersion (toLowercase : String → String) (source : MetadataSource RawPom)
    (opts : WalkOptions RawPom ResolvedPom Activation) (coords : Coords) (dep : RawDependency) :
    Option String :=
  ((resolveVersion toLowercase source opts coords dep).run opts.oreq).toOption.map fun result =>
    result.1.1

theorem admits_direct (stripOptional : Bool) (visited : Scope.parse dep.scope ≠ .imported) :
    ((direct dep).admits stripOptional == some coords) = dep.declares coords := by
  have scope : (direct dep).effectiveScope = some (Scope.parse dep.scope) := by
    simp [WorkItem.effectiveScope, direct, visited]
  have new : Coords.new (direct dep).dep.groupId (direct dep).dep.artifactId =
      Coords.new dep.groupId dep.artifactId := rfl
  rw [WorkItem.admits, RawDependency.declares, new, scope]
  rcases Coords.new dep.groupId dep.artifactId with _ | _
  · simp
  · simp only [direct, matchesAnyExclusion, any_nil, Bool.false_eq_true, if_false,
      isNone_some, Bool.not_true, Bool.and_false, Bool.false_and, Except.ok.injEq]
    rfl

namespace Mediated

variable (mediated : Mediated lower pipe src opts edge root graph)

include mediated

theorem wonBy_of_direct
    (first : (visitedDeps (pipe.dependencies root)).find? (·.declares coords) = some dep) :
    ∃ win, graph.winners[coords]? = some win ∧ win ∈ graph.resolved ∧
      win.coords = coords ∧ WonBy lower src opts edge (.direct dep) win := by
  have found : (candidates lower pipe src opts edge root graph.resolved).find?
      (fun item => item.admits opts.stripOptional == some coords) = some (direct dep) := by
    have direct : ((visitedDeps (pipe.dependencies root)).map direct).find?
        (fun item => item.admits opts.stripOptional == some coords) = some (direct dep) := by
      rw [find?_map, map_eq_some_iff]
      refine ⟨dep, ?_, rfl⟩
      rw [← first]
      apply find?_congr
      intro other mem
      exact admits_direct _ (mem_of_visited mem).2
    rw [candidates, find?_append, direct, some_or]
  have admits : (direct dep).admits opts.stripOptional = some coords := by
    simpa using find?_some found
  rcases mediated.complete (mem_of_find?_eq_some found) admits with ⟨win, lookup, -⟩
  rcases mediated.listed lookup with ⟨listed, rfl⟩
  rcases mediated.exists_wonBy listed with ⟨item, isFirst, won⟩
  have same : item = direct dep := by
    have winning := find?_of_mem_firsts isFirst won.admits
    rw [found] at winning
    exact (Option.some.inj winning).symm
  exact ⟨win, lookup, listed, rfl, same ▸ won⟩

theorem winner_of_direct
    (first : (visitedDeps (pipe.dependencies root)).find? (·.declares coords) = some dep) :
    ∃ win, graph.winners[coords]? = some win ∧
      declaredVersion lower src opts coords dep = some win.version := by
  rcases mediated.wonBy_of_direct first with ⟨win, lookup, -, rfl, won⟩
  refine ⟨win, lookup, ?_⟩
  rcases won.version with ⟨fetch, warnings, res⟩
  have resolvedDirect : ((resolveVersion lower src opts win.coords dep).run
      opts.oreq).map Prod.fst = .ok (win.version, fetch, warnings) := res
  rw [declaredVersion]
  generalize (resolveVersion lower src opts win.coords dep).run opts.oreq = ans at resolvedDirect ⊢
  rcases ans with _ | pair
  · cases resolvedDirect
  · have answered : pair.1 = (win.version, fetch, warnings) := Except.ok.inj resolvedDirect
    simp [Except.toOption, answered]

end Mediated

/-- A coordinate that the POM itself declares is resolved to the POM's own version exactly
when the first declaration of it, the farthest ancestor's in front, resolves to that version.
The lists `inherited` and `own` are what the ancestors and the POM itself contribute to the
resolved dependencies. -/
theorem redeclaration_wins_iff {σ : Type} (lower : String → String)
    (env : String → Option String) (pathExists : String → String → Bool)
    (display : Pom.ResolveError → String) (src : MetadataSource Pom.RawPom)
    (opts : WalkOptions Pom.RawPom Pom.ResolvedPom Pom.ActivationContext)
    (reply : Pom.RawParent → σ → Except String Pom.RawPom × σ) (root : Pom.RawPom)
    (context : Pom.ActivationContext) (state state' : σ) (resolved : Pom.ResolvedPom)
    (graph : ResolvedGraph)
    (ran : (Pom.resolvePom env pathExists root context).run reply state = (.ok resolved, state'))
    (returned : WalkReturns lower (pomPipeline env pathExists display) src opts resolved
      (.ok graph)) :
    ∃ prepared expanded spliced inherited own extra,
      Pom.Prepares env pathExists reply root context state state' prepared expanded spliced ∧
      resolved.effective = prepared.effective ∧
      Forall₂ (Pom.ResolvedAtEnd env root prepared spliced)
        resolved.effective.parentChain.reverse inherited ∧
      Pom.ResolvedAtEnd env root prepared spliced root own ∧
      resolved.pom.dependencies = inherited.flatten ++ own ++ extra ∧
      ∀ coords, ∀ redeclared ∈ visitedDeps (own.map RawDependency.ofPom),
        redeclared.declares coords →
        ∃ first, (visitedDeps ((inherited.flatten ++ own).map RawDependency.ofPom)).find?
            (·.declares coords) = some first ∧
          (graph.winners[coords]?.map ResolvedDep.version =
              declaredVersion lower src opts coords redeclared ↔
            declaredVersion lower src opts coords first =
              declaredVersion lower src opts coords redeclared) := by
  rcases Pom.prepares_of_resolvePom ran with
    ⟨prepared, expanded, spliced, prepares, applied, same⟩
  have sameEffective : resolved.effective = prepared.effective := by rw [same]
  rcases Pom.resolved_levels prepares applied with ⟨finals, extra, levelwise, flat⟩
  rw [Pom.ancestorFirst, reverse_cons] at levelwise
  rcases forall₂_append levelwise with ⟨inherited, last, inheritedOk, lastOk, rfl⟩
  rcases forall₂_cons_left_iff.mp lastOk with ⟨own, none', ownOk, noneOk, rfl⟩
  rw [forall₂_nil_left_iff] at noneOk
  subst noneOk
  have flat' : resolved.pom.dependencies = inherited.flatten ++ own ++ extra := by
    rw [flat]
    simp
  rw [sameEffective]
  refine ⟨prepared, expanded, spliced, inherited, own, extra, prepares, rfl, inheritedOk, ownOk,
    flat', ?_⟩
  intro coords redeclared visited declares
  have hit : ((visitedDeps ((inherited.flatten ++ own).map RawDependency.ofPom)).find?
      (·.declares coords)).isSome := by
    rw [find?_isSome]
    refine ⟨redeclared, ?_, declares⟩
    rw [map_append, visitedDeps, filter_append]
    exact mem_append_right _ visited
  rcases isSome_iff_exists.mp hit with ⟨first, found⟩
  refine ⟨first, found, ?_⟩
  rcases mediated_of_walkReturns returned with ⟨edge, mediated⟩
  have firstOfAll : (visitedDeps ((pomPipeline env pathExists display).dependencies resolved)).find?
      (·.declares coords) = some first := by
    have listed : (pomPipeline env pathExists display).dependencies resolved =
        (inherited.flatten ++ own).map RawDependency.ofPom ++ extra.map RawDependency.ofPom := by
      rw [← map_append, ← flat']
      rfl
    rw [listed, visitedDeps, filter_append, find?_append]
    rw [visitedDeps] at found
    rw [found, some_or]
  rcases mediated.winner_of_direct firstOfAll with ⟨winner, lookup, version⟩
  rw [lookup, map_some, version]

def declaringParent : Pom.RawPom :=
  { groupId := some "org.example"
    artifactId := "parent"
    version := some "1"
    dependencies := [{ groupId := "org.example", artifactId := "core", version := some "1.0" }] }

def redeclaringPom (version : String) : Pom.RawPom :=
  { parent := some { groupId := "org.example", artifactId := "parent", version := "1" }
    artifactId := "app"
    dependencies := [{ groupId := "org.example", artifactId := "core", version := some version }] }

def plainWalk : WalkOptions Pom.RawPom Pom.ResolvedPom Pom.ActivationContext := { activation := {} }

def redeclaredVersions (version : String) :
    Except Pom.ResolveError (Option (Option (List (String × String)))) :=
  ((Pom.resolvePom (fun _ => none) (fun _ _ => false) (redeclaringPom version) {}).run
    (fun _ asked => (.ok declaringParent, asked + 1)) 0).1.map fun resolved =>
      (walk Version.asciiLowercase plainPomPipeline leafSource plainWalk 2 resolved).map
        fun result => result.toOption.map fun graph =>
          graph.resolved.map fun dep => (dep.coords.artifact, dep.version)

/-- The POM declares version 2.0, and the graph has the version of its parent. -/
theorem redeclaration_loses : redeclaredVersions "2.0" = .ok (some (some [("core", "1.0")])) := by
  decide +kernel

theorem redeclaration_wins_iff_agreeing : ∃ resolved state' graph,
      (Pom.resolvePom (fun _ => none) (fun _ _ => false) (redeclaringPom "1.0") {}).run
        (fun _ asked => (.ok declaringParent, asked + 1)) 0 = (.ok resolved, state') ∧
      WalkReturns Version.asciiLowercase plainPomPipeline leafSource plainWalk resolved
        (.ok graph) ∧
      graph.resolved.map (fun dep => (dep.coords.artifact, dep.version)) = [("core", "1.0")] ∧
      ∃ inherited own extra, resolved.pom.dependencies = inherited ++ own ++ extra ∧
        ∀ coords, ∀ redeclared ∈ visitedDeps (own.map RawDependency.ofPom),
          redeclared.declares coords →
          ∃ first, (visitedDeps ((inherited ++ own).map RawDependency.ofPom)).find?
              (·.declares coords) = some first ∧
            (graph.winners[coords]?.map ResolvedDep.version =
                declaredVersion Version.asciiLowercase leafSource plainWalk coords redeclared ↔
              declaredVersion Version.asciiLowercase leafSource plainWalk coords first =
                declaredVersion Version.asciiLowercase leafSource plainWalk coords
                  redeclared) := by
  have versions : redeclaredVersions "1.0" = .ok (some (some [("core", "1.0")])) := by
    decide +kernel
  rcases Dialogue.exists_run_of_map versions with ⟨resolved, state', ran, walked⟩
  rcases map_eq_some_iff.mp walked with ⟨result, walked, listed⟩
  rcases result with _ | graph
  · cases listed
  · have returned : WalkReturns Version.asciiLowercase plainPomPipeline leafSource plainWalk
        resolved (.ok graph) := ⟨2, walked⟩
    rcases redeclaration_wins_iff _ _ _ _ _ _ _ _ _ _ _ _ _ ran returned with
      ⟨-, -, -, inherited, own, extra, -, -, -, -, flat, wins⟩
    exact ⟨resolved, state', graph, ran, returned, Option.some.inj listed, inherited.flatten,
      own, extra, flat, wins⟩

end Direct

/-!
# What the walk lists

The scopes to include are looked at in an empty branch, so nothing is left out of the list. There is
one entry for coordinates, with the type and the classifier of the declaration that won.
-/

open List

section Scopes

variable {RawPom ResolvedPom Activation : Type} {lower : String → String}
  {pipe : PomPipeline RawPom ResolvedPom Activation} {src : MetadataSource RawPom}
  {opts : WalkOptions RawPom ResolvedPom Activation} {root : ResolvedPom} {graph : ResolvedGraph}

theorem walk_includeScopes (includeScopes : List Scope) (steps : ℕ) :
    walk lower pipe src { opts with includeScopes } steps root =
      walk lower pipe src opts steps root := by
  have sameStep : processItem lower pipe src { opts with includeScopes } =
      processItem lower pipe src opts := rfl
  rw [walk, walk, runQueue_congr sameStep]

theorem inherit_ne_imported (parent decl : Scope) : Scope.inherit parent decl ≠ some .imported := by
  cases parent <;> cases decl <;> simp [Scope.inherit]

theorem scope_ne_imported (ret : WalkReturns lower pipe src opts root (.ok graph)) :
    ∀ dep ∈ graph.resolved, dep.scope ≠ .imported := by
  intro dep listed imported
  rcases mediated_of_walkReturns ret with ⟨edge, mediated⟩
  rcases mediated.exists_wonBy listed with ⟨item, -, won⟩
  have scope := won.scope
  rw [imported, WorkItem.effectiveScope] at scope
  split_ifs at scope with _ declared
  · exact declared (Option.some.inj scope)
  · exact inherit_ne_imported _ _ scope

def scopedDep (scope : String) : RawDependency :=
  { exampleDep "core" "1.0" with scope := some scope }

theorem exists_walk_of_scope (scope : Scope) (other : scope ≠ .imported) :
    ∃ text, ((walk Version.asciiLowercase plainPipeline (pinnedSource "1.0") { activation := () } 1
      [scopedDep text]).map fun out =>
        out.toOption.map fun graph => graph.resolved.map ResolvedDep.scope) =
      some (some [scope]) := by
  cases scope with
  | compile => exact ⟨"compile", by decide⟩
  | provided => exact ⟨"provided", by decide⟩
  | runtime => exact ⟨"runtime", by decide⟩
  | test => exact ⟨"test", by decide⟩
  | system => exact ⟨"system", by decide⟩
  | imported => exact absurd rfl other

/-- Every listed entry has an included scope, in every walk, exactly if every scope that an entry
can have is included. -/
theorem listed_scopes_included_iff (includeScopes : List Scope) :
    (∀ (RawPom ResolvedPom Activation : Type) (lower : String → String)
      (pipe : PomPipeline RawPom ResolvedPom Activation) (src : MetadataSource RawPom)
      (opts : WalkOptions RawPom ResolvedPom Activation) (root : ResolvedPom)
      (graph : ResolvedGraph), opts.includeScopes = includeScopes →
        WalkReturns lower pipe src opts root (.ok graph) →
          ∀ dep ∈ graph.resolved, dep.scope ∈ includeScopes) ↔
      ∀ scope, scope ≠ .imported → scope ∈ includeScopes := by
  constructor
  · intro included scope other
    rcases exists_walk_of_scope scope other with ⟨text, walked⟩
    rcases Option.map_eq_some_iff.mp walked with ⟨result, ran, answered⟩
    rcases result with _ | graph
    · cases answered
    · have scopes : graph.resolved.map ResolvedDep.scope = [scope] := Option.some.inj answered
      rw [← walk_includeScopes includeScopes] at ran
      have listed : scope ∈ graph.resolved.map ResolvedDep.scope := by simp [scopes]
      rcases mem_map.mp listed with ⟨dep, member, rfl⟩
      exact included _ _ _ _ _ _ { activation := (), includeScopes } _ graph rfl ⟨1, ran⟩ dep member
  · intro all RawPom ResolvedPom Activation lower pipe src opts root graph _ returned dep listed
    exact all dep.scope (scope_ne_imported returned dep listed)

/-- Only runtime dependencies are to be listed, and a test dependency is. -/
theorem listed_scope_not_included : ((walk Version.asciiLowercase plainPipeline (pinnedSource "1.0")
      { activation := (), includeScopes := [.runtime] } 1 [scopedDep "test"]).map fun result =>
        result.toOption.map fun graph => graph.resolved.map ResolvedDep.scope) =
      some (some [.test]) := by
  decide

end Scopes

section Identities

variable {RawPom ResolvedPom Activation : Type}

def RawDependency.artifact (dep : RawDependency) : String × Option String :=
  (dep.type.getD "jar", dep.classifier)

/-- Every direct dependency has an entry with its type and classifier. -/
def ListsArtifacts (deps : List RawDependency) (graph : ResolvedGraph) : Prop :=
  ∀ dep ∈ visitedDeps deps, ∀ coords, dep.declares coords = true → ∃ entry ∈ graph.resolved,
    entry.coords = coords ∧ (entry.type, entry.classifier) = dep.artifact

/-- Every direct dependency has an entry with its type and classifier exactly if direct dependencies
with the same coordinates have the same type and classifier. -/
theorem artifacts_listed_iff (lower : String → String)
    (pipe : PomPipeline RawPom ResolvedPom Activation) (src : MetadataSource RawPom)
    (opts : WalkOptions RawPom ResolvedPom Activation) (root : ResolvedPom) (graph : ResolvedGraph)
    (returned : WalkReturns lower pipe src opts root (.ok graph)) :
    ListsArtifacts (pipe.dependencies root) graph ↔
      ∀ first ∈ visitedDeps (pipe.dependencies root),
        ∀ second ∈ visitedDeps (pipe.dependencies root), ∀ coords,
          first.declares coords = true → second.declares coords = true →
            first.artifact = second.artifact := by
  rcases mediated_of_walkReturns returned with ⟨edge, mediated⟩
  constructor
  · intro listed first firstVisited second secondVisited coords declares declares'
    rcases listed first firstVisited coords declares with ⟨entry, member, rfl, same⟩
    rcases listed second secondVisited entry.coords declares' with ⟨other, member', named, same'⟩
    have lookup := mediated.lookup member'
    rw [named, mediated.lookup member] at lookup
    rw [← same, ← same', Option.some.inj lookup]
  · intro agree dep visited coords declares
    have hit : ((visitedDeps (pipe.dependencies root)).find? (·.declares coords)).isSome :=
      find?_isSome.mpr ⟨dep, visited, declares⟩
    rcases Option.isSome_iff_exists.mp hit with ⟨first, found⟩
    rcases mediated.wonBy_of_direct found with ⟨winner, -, member, rfl, won⟩
    refine ⟨winner, member, rfl, ?_⟩
    have recorded : (winner.type, winner.classifier) = first.artifact := by
      rw [won.record]
      rfl
    have declaresFirst : first.declares winner.coords = true := by
      simpa using find?_some found
    rw [recorded]
    exact agree first (mem_of_find?_eq_some found) dep visited _ declaresFirst declares

def twoArtifacts : List RawDependency :=
  [exampleDep "core" "1.0", { exampleDep "core" "1.0" with classifier := some "tests" }]

/-- The root declares a JAR and its tests, and only the JAR is listed. -/
theorem artifact_not_listed :
    ((walk Version.asciiLowercase plainPipeline (pinnedSource "1.0") { activation := () } 2
      twoArtifacts).map fun result => result.toOption.map fun graph =>
        graph.resolved.map fun dep => (dep.coords.artifact, dep.type, dep.classifier)) =
      some (some [("core", "jar", none)]) := by
  decide

theorem exists_walkReturns (deps : List RawDependency)
    (walked : ((walk Version.asciiLowercase plainPipeline (pinnedSource "1.0")
      { activation := () } 2 deps).map fun result => result.toOption.isSome) = some true) :
    ∃ graph, WalkReturns Version.asciiLowercase plainPipeline (pinnedSource "1.0")
      { activation := () } deps (.ok graph) := by
  rcases Option.map_eq_some_iff.mp walked with ⟨result, walked, answered⟩
  rcases result with _ | graph
  · cases answered
  · exact ⟨graph, 2, walked⟩

def agreeingArtifacts : List RawDependency := [exampleDep "core" "1.0", exampleDep "core" "2.0"]

/-- The artifacts are not listed where the two declarations differ, and listed where they agree. -/
theorem artifacts_listed_iff_examples :
    (∃ graph, WalkReturns Version.asciiLowercase plainPipeline (pinnedSource "1.0")
        { activation := () } twoArtifacts (.ok graph) ∧ ¬ListsArtifacts twoArtifacts graph) ∧
      ∃ graph, WalkReturns Version.asciiLowercase plainPipeline (pinnedSource "1.0")
        { activation := () } agreeingArtifacts (.ok graph) ∧
          ListsArtifacts agreeingArtifacts graph := by
  constructor
  · rcases exists_walkReturns twoArtifacts (by decide) with ⟨graph, returned⟩
    refine ⟨graph, returned, fun listed => ?_⟩
    have agree := (artifacts_listed_iff _ _ _ _ _ graph returned).mp listed
    exact absurd (agree (exampleDep "core" "1.0") (by decide)
      { exampleDep "core" "1.0" with classifier := some "tests" } (by decide)
      ⟨"org.example", "core"⟩ (by decide) (by decide)) (by decide)
  · rcases exists_walkReturns agreeingArtifacts (by decide) with ⟨graph, returned⟩
    refine ⟨graph, returned, (artifacts_listed_iff _ _ _ _ _ graph returned).mpr ?_⟩
    have same : ∀ dep ∈ visitedDeps agreeingArtifacts, dep.artifact = ("jar", none) := by decide
    intro first member second member' coords _ _
    rw [same first member, same second member']

end Identities

end Barista.Resolver
