import Barista.Resolver.Nearest
import Barista.Resolver.StrictSoundness

/-!
# The two resolvers agree

Where all declarations are soft, published and agree on the versions, the strict resolver selects
what the walk selects.
-/

namespace Barista.Resolver

open List Option
open Version (asciiLowercase)

variable {Range RawPom ResolvedPom Activation Tree : Type}

structure Resolution (ranges : VersionRanges Range) (provider : DependencyProvider Range)
    (package : StrictPackage) (version : Version) (selected : List (StrictPackage × Version)) : Prop
    extends Solution ranges provider package version selected where
  unconstrained : ∀ target chosen, (target, chosen) ∈ selected → target ≠ package →
    (∀ entry ∈ selected, ∀ constraints,
      provider.getDependencies entry.1 entry.2 = .available constraints →
        ∀ range, constraints target = some range → range = ranges.full) →
    provider.chooseVersion target ranges.full = some chosen
  needed : ∀ motive : StrictPackage → Prop, motive package →
    (∀ entry ∈ selected, motive entry.1 → ∀ constraints,
      provider.getDependencies entry.1 entry.2 = .available constraints →
        ∀ target range, constraints target = some range → motive target) →
    ∀ entry ∈ selected, motive entry.1

def Solver.Resolves (ranges : VersionRanges Range) (solve : Solver Range Tree) : Prop :=
  ∀ provider package version selected, solve provider package version = .ok selected →
    Resolution ranges provider package version selected

theorem Solver.Resolves.sound {ranges : VersionRanges Range} {solve : Solver Range Tree}
    (resolves : solve.Resolves ranges) : solve.Sound ranges := by
  intro provider package ver sel solved
  exact (resolves provider package ver sel solved).toSolution

variable {lower : String → String} {ranges : VersionRanges Range}
  {pipe : PomPipeline RawPom ResolvedPom Activation}
  {rawDependencies : RawPom → List RawDependency} {source : MetadataSource RawPom}
  {opts : WalkOptions RawPom ResolvedPom Activation} {deps : List RawDependency}
  {root : ResolvedPom} {graph : ResolvedGraph} {coords : Coords}

section Soft

variable {raw : RawDependency} {decl : List RawDependency} {range : Range}

namespace SoftDeclaration

theorem isImportScope_eq (soft : SoftDeclaration lower raw) : isImportScope raw = false := by
  rcases written : raw.scope with _ | _
  · simp [isImportScope, written]
  · simp only [isImportScope, written, map_some, getD_some]
    rcases soft.trim_scope written with blank | compile
    · rw [blank]
      decide
    · rw [compile]
      decide

theorem requirement_eq (soft : SoftDeclaration lower raw)
    (named : Coords.new raw.groupId raw.artifactId = .ok coords) :
    ∃ spec, requirement lower raw = some (coords, spec) := by
  rcases soft.version with ⟨text, ver, written, parsed⟩
  exact ⟨.soft ver, by simp [requirement, named, written, parsed]⟩

theorem specToRange_eq (soft : SoftDeclaration lower raw) {spec : VersionSpec}
    (requires : requirement lower raw = some (coords, spec)) :
    specToRange ranges spec = ranges.full := by
  rcases soft.version with ⟨text, ver, written, parsed⟩
  rcases named : Coords.new raw.groupId raw.artifactId with _ | _
  · simp [requirement, named] at requires
  · simp only [requirement, named, written, parsed, Option.some.injEq, Prod.mk.injEq] at requires
    rw [← requires.2]
    rfl

end SoftDeclaration

theorem coords_of_requirement {spec : VersionSpec}
    (requires : requirement lower raw = some (coords, spec)) :
    Coords.new raw.groupId raw.artifactId = .ok coords := by
  rcases named : Coords.new raw.groupId raw.artifactId with _ | _
  · simp [requirement, named] at requires
  · rcases written : raw.version with _ | _
    · simp [requirement, named, written] at requires
    · simp only [requirement, named, written] at requires
      split at requires
      · rw [Option.some.injEq, Prod.mk.injEq] at requires
        rw [requires.1]
      · cases requires

section Soft

variable (soft : ∀ raw ∈ decl, SoftDeclaration lower raw)

include soft

theorem rootDeclarations_of_soft : rootDeclarations decl = decl := by
  rw [rootDeclarations, filter_eq_self]
  intro raw mem
  simp [(soft raw mem).isImportScope_eq]

theorem propagated_of_soft : propagated decl = decl := by
  rw [propagated, filter_eq_self]
  intro raw mem
  simp [(soft raw mem).isImportScope_eq, (soft raw mem).optional, (soft raw mem).scope,
    propagatesTransitively]

theorem constraint_iff_of_soft :
    collectConstraints (decl.filterMap (edgeOf lower ranges)) (.real coords) = some range ↔
      range = ranges.full ∧ ∃ raw ∈ decl, ∃ spec, requirement lower raw = some (coords, spec) := by
  have full : ∀ last, lastSpec lower decl coords = some last →
      specToRange ranges last = ranges.full ∧
        ∃ raw ∈ decl, ∃ spec, requirement lower raw = some (coords, spec) := by
    intro last isLast
    rcases map_eq_some_iff.mp isLast with ⟨⟨tgt, spec⟩, found, rfl⟩
    have sameTarget : tgt = coords := by simpa using find?_some found
    rcases mem_filterMap.mp (mem_reverse.mp (mem_of_find?_eq_some found)) with
      ⟨raw, mem, requires⟩
    rw [sameTarget] at requires
    exact ⟨(soft raw mem).specToRange_eq requires, raw, mem, spec, requires⟩
  rw [collectConstraints_filterMap, map_eq_some_iff]
  constructor
  · rintro ⟨last, isLast, rfl⟩
    exact full last isLast
  · rintro ⟨rfl, raw, mem, spec, requires⟩
    rcases exists_lastSpec mem requires with ⟨last, isLast⟩
    exact ⟨last, isLast, (full last isLast).1⟩

end Soft

end Soft

section Strict

variable (lower ranges rawDependencies source deps)

def preferredVersion (nodes : List (Coords × Version)) (coords : Coords) : Option Version :=
  match (declarations lower rawDependencies source deps nodes).flatMap
      (preferencesOf lower source coords) with
  | first :: _ => some first
  | [] => (publishedVersions lower source coords).getLast?

def Prefers (coords : Coords) (text : String) : Prop :=
  ∀ nodes, (snapshotGraph lower ranges rawDependencies source deps).IsOrder nodes →
    ∃ version, preferredVersion lower rawDependencies source deps nodes coords = some version ∧
      reportedText lower source (coords, version) = text

/-- All declarations are soft. -/
structure SoftSource : Prop where
  root : ∀ raw ∈ deps, SoftDeclaration lower raw
  poms : ∀ coords version pom origin, source.fetchPom coords version = .ok (pom, origin) →
    ∀ raw ∈ rawDependencies pom, SoftDeclaration lower raw

structure SoftResolution (resolved : Std.ExtTreeMap Coords ResolvedStrictDep) : Prop where
  preferred : ∀ coords dep, resolved[coords]? = some dep →
    Prefers lower ranges rawDependencies source deps coords dep.version
  root : ∀ raw ∈ deps, ∀ coords spec, requirement lower raw = some (coords, spec) →
    ∃ dep, resolved[coords]? = some dep
  child : ∀ parent dep, resolved[parent]? = some dep → ∀ pom origin,
    source.fetchPom parent dep.version = .ok (pom, origin) → ∀ raw ∈ rawDependencies pom,
      ∀ coords spec, requirement lower raw = some (coords, spec) →
        ∃ dep, resolved[coords]? = some dep
  least : ∀ motive : Coords → Prop,
    (∀ raw ∈ deps, ∀ coords spec, requirement lower raw = some (coords, spec) → motive coords) →
    (∀ parent dep, resolved[parent]? = some dep → motive parent → ∀ pom origin,
      source.fetchPom parent dep.version = .ok (pom, origin) → ∀ raw ∈ rawDependencies pom,
        ∀ coords spec, requirement lower raw = some (coords, spec) → motive coords) →
    ∀ coords dep, resolved[coords]? = some dep → motive coords

variable {lower ranges rawDependencies source deps} {nodes : List (Coords × Version)}
  {snap : Snapshot Range} {sel : List (StrictPackage × Version)} {ver : Version}

theorem preferredVersion_of_chooseVersion (full : ∀ ver, ranges.contains ranges.full ver = true)
    (holds : Holds lower ranges rawDependencies source deps nodes snap)
    (chosen : snap.chooseVersion lower ranges (.real coords) ranges.full = some ver) :
    preferredVersion lower rawDependencies source deps nodes coords = some ver := by
  have everything : ranges.contains ranges.full = fun _ => true := funext full
  simp only [Snapshot.chooseVersion, everything, holds.tables.preferences] at chosen
  unfold preferredVersion
  generalize (declarations lower rawDependencies source deps nodes).flatMap
    (preferencesOf lower source coords) = preferences at chosen ⊢
  rcases preferences with _ | _
  · simp only [find?_nil] at chosen
    rcases listed : snap.versionsByCoords coords with _ | pub
    · simp [listed] at chosen
    · rw [(holds.tables.listed coords pub listed).1] at listed
      simp only [listed] at chosen
      rw [← head?_reverse, ← chosen]
      cases (publishedVersions lower source coords).reverse <;> simp
  · simpa using chosen

theorem exists_publishedText?_of_mem
    (order : (snapshotGraph lower ranges rawDependencies source deps).IsOrder nodes)
    {node : Coords × Version} (mem : node ∈ nodes) :
    ∃ text, publishedText? lower source (versionKey node) = some text := by
  rw [← order.complete] at mem
  rcases mem_targets_of_mem_graph (mem_of_mem_firsts mem) with ⟨raw, -, isTarget⟩
  rcases mem_targets.mp isTarget with ⟨spec, -, pub, -⟩
  exact exists_publishedText? pub

section Selection

variable (soft : SoftSource lower rawDependencies source deps)
  (order : (snapshotGraph lower ranges rawDependencies source deps).IsOrder nodes)
  (holds : Holds lower ranges rawDependencies source deps nodes snap)
  (resolution : Resolution ranges (snap.provider lower ranges) .root (rootVersion lower) sel)

include soft holds

variable {constraints : StrictPackage → Option Range}

theorem getDependencies_root
    (avail : snap.getDependencies lower .root ver = .available constraints) :
    constraints = collectConstraints (deps.filterMap (edgeOf lower ranges)) := by
  have rootDeps := holds.rootDeps
  rw [rootDeclarations_of_soft soft.root] at rootDeps
  simp only [Snapshot.getDependencies] at avail
  split at avail
  · cases avail
  · rw [Dependencies.available.injEq, rootDeps] at avail
    exact avail.symm

include order resolution

theorem getDependencies_selected (mem : (.real coords, ver) ∈ sel) :
    (snap.resolvedDep coords ver).version = reportedText lower source (coords, ver) ∧
      ∃ pom origin, source.fetchPom coords (snap.resolvedDep coords ver).version =
          .ok (pom, origin) ∧
        snap.getDependencies lower (.real coords) ver =
          .available (collectConstraints ((rawDependencies pom).filterMap
            (edgeOf lower ranges))) := by
  rcases selected_explored order holds resolution.toSolution mem with
    ⟨node, isNode, sameKey, reported, known⟩
  have sameText := reportedText_congr sameKey (exists_publishedText?_of_mem order isNode)
  rcases holds.fetched node isNode with ⟨⟨pom, origin⟩, fetched⟩
  have sameCoords : node.1 = coords := congrArg Prod.fst sameKey
  have declares : declaredAt lower rawDependencies source node = rawDependencies pom := by
    simp only [declaredAt, fetched]
    exact propagated_of_soft (soft.poms _ _ _ _ fetched)
  rw [declares] at known
  rw [sameCoords, ← reported] at fetched
  exact ⟨reported.trans sameText, pom, origin, fetched, known⟩

theorem unconstrained_of_soft {entry : StrictPackage × Version} (mem : entry ∈ sel)
    (avail : snap.getDependencies lower entry.1 entry.2 = .available constraints)
    {range : Range} (constrained : constraints (.real coords) = some range) :
    range = ranges.full := by
  rcases entry with ⟨_ | package, chosen⟩
  · rw [getDependencies_root soft holds avail] at constrained
    exact ((constraint_iff_of_soft soft.root).mp constrained).1
  · rcases getDependencies_selected soft order holds resolution mem with
      ⟨-, pom, origin, fetched, known⟩
    rw [known, Dependencies.available.injEq] at avail
    rw [← avail] at constrained
    exact ((constraint_iff_of_soft (soft.poms _ _ _ _ fetched)).mp constrained).1

theorem preferredVersion_of_selected (full : ∀ ver, ranges.contains ranges.full ver = true)
    (mem : (.real coords, ver) ∈ sel) :
    preferredVersion lower rawDependencies source deps nodes coords = some ver := by
  apply preferredVersion_of_chooseVersion full holds
  apply resolution.unconstrained _ _ mem (by simp)
  intro entry entryMember constraints avail range constrained
  exact unconstrained_of_soft soft order holds resolution entryMember avail constrained

theorem softResolution_of_resolution (full : ∀ ver, ranges.contains ranges.full ver = true) :
    SoftResolution lower ranges rawDependencies source deps (snap.collectSelected sel) := by
  have lookup : ∀ coords dep, (snap.collectSelected sel)[coords]? = some dep ↔
      ∃ ver, (.real coords, ver) ∈ sel ∧ dep = snap.resolvedDep coords ver :=
    fun _ _ => collectSelected_getElem? resolution.distinct
  have found : ∀ {tgt : Coords} {chosen : Version}, (.real tgt, chosen) ∈ sel →
      ∃ dep, (snap.collectSelected sel)[tgt]? = some dep :=
    fun mem => ⟨_, (lookup _ _).mpr ⟨_, mem, rfl⟩⟩
  refine ⟨?_, ?_, ?_, ?_⟩
  · intro coords dep isDep otherNodes otherOrder
    rcases (lookup coords dep).mp isDep with ⟨ver, mem, rfl⟩
    rw [otherOrder.unique order]
    exact ⟨ver, preferredVersion_of_selected soft order holds resolution full mem,
      (getDependencies_selected soft order holds resolution mem).1.symm⟩
  · intro raw mem coords spec requires
    rcases resolution.satisfied _ resolution.start with ⟨constraints, avail, satisfied⟩
    rw [getDependencies_root soft holds avail] at satisfied
    rcases satisfied (.real coords) ranges.full
      ((constraint_iff_of_soft soft.root).mpr ⟨rfl, raw, mem, spec, requires⟩) with
      ⟨chosen, isSelected, -⟩
    exact found isSelected
  · intro parent dep isDep pom origin fetched raw mem coords spec requires
    rcases (lookup parent dep).mp isDep with ⟨ver, isSelected, rfl⟩
    rcases getDependencies_selected soft order holds resolution isSelected with
      ⟨-, pom', origin', fetched', known⟩
    rw [fetched] at fetched'
    cases fetched'
    rcases resolution.satisfied _ isSelected with ⟨constraints, avail, satisfied⟩
    change snap.getDependencies lower (.real parent) ver = _ at avail
    rw [known, Dependencies.available.injEq] at avail
    rw [← avail] at satisfied
    rcases satisfied (.real coords) ranges.full
      ((constraint_iff_of_soft (soft.poms _ _ _ _ fetched)).mpr ⟨rfl, raw, mem, spec, requires⟩)
      with ⟨chosen, chosenSelected, -⟩
    exact found chosenSelected
  · intro motive root child coords dep isDep
    rcases (lookup coords dep).mp isDep with ⟨ver, isSelected, rfl⟩
    refine resolution.needed (fun package => ∀ tgt, package = .real tgt → motive tgt) ?_ ?_
      _ isSelected coords rfl
    · intro tgt isRoot
      cases isRoot
    · rintro ⟨_ | parent, chosen⟩ entryMember reached constraints avail _ range constrained tgt rfl
      · rw [getDependencies_root soft holds avail] at constrained
        rcases (constraint_iff_of_soft soft.root).mp constrained with
          ⟨-, raw, mem, spec, requires⟩
        exact root raw mem tgt spec requires
      · rcases getDependencies_selected soft order holds resolution entryMember with
          ⟨-, pom, origin, fetched, known⟩
        change snap.getDependencies lower (.real parent) chosen = _ at avail
        rw [known, Dependencies.available.injEq] at avail
        rw [← avail] at constrained
        rcases (constraint_iff_of_soft (soft.poms _ _ _ _ fetched)).mp constrained with
          ⟨-, raw, mem, spec, requires⟩
        exact child parent _ ((lookup _ _).mpr ⟨chosen, entryMember, rfl⟩) (reached parent rfl) pom
          origin fetched raw mem tgt spec requires

end Selection

theorem softResolution_of_strictReturns {solve : Solver Range Tree}
    {res : Std.ExtTreeMap Coords ResolvedStrictDep}
    (full : ∀ ver, ranges.contains ranges.full ver = true) (resolves : solve.Resolves ranges)
    (soft : SoftSource lower rawDependencies source deps)
    (ret : StrictReturns lower ranges rawDependencies source solve deps res) :
    SoftResolution lower ranges rawDependencies source deps res := by
  rcases exists_solution_of_strictReturns resolves.sound ret with
    ⟨nodes, snap, sel, order, holds, solved, -, rfl⟩
  exact softResolution_of_resolution soft order holds (resolves _ _ _ _ solved) full

end Strict

section Agreement

variable (lower ranges rawDependencies source deps)

def Agree (resolved : Std.ExtTreeMap Coords ResolvedStrictDep) (graph : ResolvedGraph) : Prop :=
  ∀ coords : Coords, resolved[coords]?.map ResolvedStrictDep.version =
    graph.winners[coords]?.map ResolvedDep.version

/-- A declaration of the root or of a selected version names the package. -/
inductive Named (selects : Coords → String → Prop) : Coords → Prop
  | root {raw : RawDependency} {coords : Coords} {spec : VersionSpec} : raw ∈ deps →
      requirement lower raw = some (coords, spec) → Named selects coords
  | child {parent coords : Coords} {version : String} {pom : RawPom} {origin : FetchOrigin}
      {raw : RawDependency} {spec : VersionSpec} : Named selects parent → selects parent version →
      source.fetchPom parent version = .ok (pom, origin) → raw ∈ rawDependencies pom →
      requirement lower raw = some (coords, spec) → Named selects coords

def PrefersAll (selects : Coords → String → Prop) : Prop :=
  ∀ coords version, selects coords version →
    Prefers lower ranges rawDependencies source deps coords version

variable {lower ranges rawDependencies source deps} {res : Std.ExtTreeMap Coords ResolvedStrictDep}

theorem Agree.selects (agree : Agree res graph) {coords : Coords} {dep : ResolvedStrictDep}
    (found : res[coords]? = some dep) : graph.Selects coords dep.version := by
  have same := agree coords
  rw [found, map_some, eq_comm, map_eq_some_iff] at same
  exact same

theorem Agree.exists_dep (agree : Agree res graph) {coords : Coords} {ver : String}
    (selects : graph.Selects coords ver) :
    ∃ dep, res[coords]? = some dep ∧ dep.version = ver := by
  rcases selects with ⟨win, found, rfl⟩
  have same := agree coords
  rw [found, map_some, map_eq_some_iff] at same
  exact same

variable (graph) in
theorem agree_iff
    (ordered : ∃ nodes, (snapshotGraph lower ranges rawDependencies source deps).IsOrder nodes)
    (resolution : SoftResolution lower ranges rawDependencies source deps res) :
    Agree res graph ↔ PrefersAll lower ranges rawDependencies source deps graph.Selects ∧
        ∀ coords, Named lower rawDependencies source deps graph.Selects coords ↔
          ∃ ver, graph.Selects coords ver := by
  constructor
  · intro agree
    refine ⟨?_, fun coords => ⟨?_, ?_⟩⟩
    · intro coords ver selects
      rcases agree.exists_dep selects with ⟨dep, isDep, rfl⟩
      exact resolution.preferred coords dep isDep
    · intro named
      have resolvedToo : ∃ dep, res[coords]? = some dep := by
        induction named with
        | root mem requires => exact resolution.root _ mem _ _ requires
        | child pre selects fetched mem requires ih =>
          rcases agree.exists_dep selects with ⟨dep, isDep, rfl⟩
          exact resolution.child _ dep isDep _ _ fetched _ mem _ _ requires
      rcases resolvedToo with ⟨dep, isDep⟩
      exact ⟨dep.version, agree.selects isDep⟩
    · rintro ⟨ver, selects⟩
      rcases agree.exists_dep selects with ⟨dep, isDep, -⟩
      refine resolution.least _ (fun raw mem coords spec requires => .root mem requires) ?_
        coords dep isDep
      intro parent dep isDep named pom origin fetched raw mem coords spec requires
      exact .child named (agree.selects isDep) fetched mem requires
  · rintro ⟨prefers, named⟩ coords
    rcases ordered with ⟨nodes, order⟩
    have sameVersion : ∀ {coords : Coords} {dep : ResolvedStrictDep} {ver : String},
        res[coords]? = some dep → graph.Selects coords ver → dep.version = ver := by
      intro coords dep ver isDep selects
      rcases resolution.preferred coords dep isDep nodes order with ⟨chosen, preferred, text⟩
      rcases prefers coords ver selects nodes order with ⟨other, otherPreferred, otherText⟩
      rw [preferred, Option.some.injEq] at otherPreferred
      rw [← text, ← otherText, otherPreferred]
    have namedOf : ∀ coords dep, res[coords]? = some dep →
        Named lower rawDependencies source deps graph.Selects coords := by
      refine resolution.least _ (fun raw mem coords spec requires => .root mem requires) ?_
      intro parent dep isDep isNamed pom origin fetched raw mem coords spec requires
      rcases (named parent).mp isNamed with ⟨ver, selects⟩
      rw [sameVersion isDep selects] at fetched
      exact .child isNamed selects fetched mem requires
    have depOf : ∀ coords, Named lower rawDependencies source deps graph.Selects coords →
        ∃ dep, res[coords]? = some dep := by
      intro coords isNamed
      induction isNamed with
      | root mem requires => exact resolution.root _ mem _ _ requires
      | child pre selects fetched mem requires ih =>
        rcases ih with ⟨dep, isDep⟩
        rw [← sameVersion isDep selects] at fetched
        exact resolution.child _ dep isDep _ _ fetched _ mem _ _ requires
    rcases isDep : res[coords]? with _ | dep
    · rcases found : graph.winners[coords]? with _ | win
      · rfl
      · rcases depOf coords ((named coords).mpr ⟨_, win, found, rfl⟩) with ⟨dep, isDep'⟩
        rw [isDep] at isDep'
        cases isDep'
    · rcases (named coords).mp (namedOf coords dep isDep) with ⟨ver, win, found, rfl⟩
      rw [found, map_some, map_some, sameVersion isDep ⟨win, found, rfl⟩]

end Agreement

def AsksForRelease (toLowercase : String → String) (raw : RawDependency) : Prop :=
  ∀ text version, raw.version = some text →
    VersionSpec.parse toLowercase text = .ok (.soft version) →
      (Version.parse toLowercase version).isSnapshot = false

section Plain

variable (lower pipe rawDependencies source opts root)

/-- The POMs declare what their effective POMs declare, and ask for releases. -/
structure PlainSource : Prop where
  session : opts.oreq = none
  effective : ∀ coords version pom origin, source.fetchPom coords version = .ok (pom, origin) →
    ∀ resolver resolved, pipe.resolvePom pom resolver opts.activation = .ok resolved →
      pipe.dependencies resolved = rawDependencies pom
  rootReleases : ∀ raw ∈ pipe.dependencies root, AsksForRelease lower raw
  releases : ∀ coords version pom origin, source.fetchPom coords version = .ok (pom, origin) →
    ∀ raw ∈ rawDependencies pom, AsksForRelease lower raw

variable {lower pipe rawDependencies source opts root} {edge : Coords → RawDependency}
  {win : ResolvedDep} {ver : String} {res : ResolvedPom}

theorem exists_resolver_of_resolveRounds {raw : RawPom} {act : Activation} {rounds : ℕ}
    {chain : Chain RawPom} {sess sess' : Option (OreqSession RawPom ResolvedPom)}
    (ret : (resolveRounds pipe source act coords ver raw rounds chain).run
      sess = .ok (res, sess')) :
    ∃ resolver, pipe.resolvePom raw resolver act = .ok res := by
  induction rounds generalizing chain sess with
  | zero => cases ret
  | succ rounds ih =>
    unfold resolveRounds at ret
    split at ret
    · rename_i other answered
      cases ret
      exact ⟨_, answered⟩
    · rcases run_bind_eq_ok.mp ret with ⟨longer, between, -, ret⟩
      exact ih ret
    · rcases run_bind_eq_ok.mp ret with ⟨longer, between, -, ret⟩
      exact ih ret
    · cases ret

theorem exists_raw_of_fetchResolvedChild {act : Activation}
    {post : Option (OreqSession RawPom ResolvedPom)}
    (ret : (fetchResolvedChild pipe source act coords ver).run none = .ok (res, post)) :
    ∃ pom origin resolver, source.fetchPom coords ver = .ok (pom, origin) ∧
      pipe.resolvePom pom resolver act = .ok res := by
  rw [run_fetchResolvedChild_none] at ret
  rcases run_bind_eq_ok.mp ret with ⟨pom, between, fetched, ret⟩
  rcases run_bind_eq_ok.mp ret with ⟨chain, last, -, ret⟩
  rcases exists_resolver_of_resolveRounds ret with ⟨resolver, answered⟩
  rw [run_fetchPomViaSession_none] at fetched
  rcases served : source.fetchPom coords ver with _ | ans
  · simp [served] at fetched
  · simp [served] at fetched
    rw [← fetched.1] at answered
    exact ⟨ans.1, ans.2, resolver, rfl, answered⟩

theorem exists_raw_of_effectivePom (sess : opts.oreq = none)
    (eff : effectivePom lower pipe source opts win = .ok res) :
    ∃ ver pom origin resolver,
      ((Version.parse lower win.version).isSnapshot = false → ver = win.version) ∧
      source.fetchPom win.coords ver = .ok (pom, origin) ∧
      pipe.resolvePom pom resolver opts.activation = .ok res := by
  rw [effectivePom, sess] at eff
  rcases map_eq_ok.mp eff with ⟨⟨_, post⟩, ran, rfl⟩
  rcases run_bind_eq_ok.mp ran with ⟨ver, between, chosen, ran⟩
  have kept := run_resolveSnapshotFetchVersion chosen none
  rw [chosen] at kept
  cases kept
  rcases exists_raw_of_fetchResolvedChild ran with ⟨pom, origin, resolver, fetched, answered⟩
  refine ⟨ver, pom, origin, resolver, ?_, fetched, answered⟩
  intro release
  have unchanged : (resolveSnapshotFetchVersion lower source win.version win.coords
      win.declaration : Fetch RawPom ResolvedPom String) = pure win.version := by
    simp [resolveSnapshotFetchVersion, release]
  rw [unchanged] at chosen
  cases chosen
  rfl

theorem version_of_soft {raw : RawDependency} {fetch : String} {warnings : List SpecWarning}
    (soft : SoftDeclaration lower raw) (sess : opts.oreq = none)
    (ret : ((resolveVersion lower source opts coords raw).run opts.oreq).map Prod.fst =
      .ok (ver, fetch, warnings)) :
    ∃ text, raw.version = some text ∧ VersionSpec.parse lower text = .ok (.soft ver) := by
  rcases soft.version with ⟨text, decl, written, parsed⟩
  have ne : Text.trim text ≠ "" := by
    intro blank
    simp [VersionSpec.parse, blank] at parsed
  rw [sess] at ret
  rcases map_eq_ok.mp ret with ⟨⟨ans, post⟩, ran, same⟩
  dsimp only at same
  subst same
  simp only [resolveVersion, written, filter_some, ne, ne_eq, not_false_eq_true,
    decide_true, ↓reduceIte, parsed] at ran
  rcases run_bind_eq_ok.mp ran with ⟨⟨chosen, notes⟩, between, res, ran⟩
  rcases run_bind_eq_ok.mp ran with ⟨fetched, last, -, ran⟩
  cases ran
  have unpinned : (resolveSpec lower source opts.repoId coords (.soft decl) :
      Fetch RawPom ResolvedPom _).run none = .ok ((decl, []), none) := rfl
  rw [unpinned] at res
  cases res
  exact ⟨text, written, parsed⟩

section Winners

variable (soft : SoftSource lower rawDependencies source (pipe.dependencies root))
  (plain : PlainSource lower pipe rawDependencies source opts root)

theorem exists_pom_of_effectivePom (plain : PlainSource lower pipe rawDependencies source opts root)
    (release : (Version.parse lower win.version).isSnapshot = false) {res : ResolvedPom}
    (eff : effectivePom lower pipe source opts win = .ok res) :
    ∃ pom origin, source.fetchPom win.coords win.version = .ok (pom, origin) ∧
      pipe.dependencies res = rawDependencies pom := by
  rcases exists_raw_of_effectivePom plain.session eff with
    ⟨ver, pom, origin, resolver, same, fetched, answered⟩
  rw [same release] at fetched
  exact ⟨pom, origin, fetched, plain.effective _ _ _ _ fetched _ _ answered⟩

include soft plain

theorem softEffective_of_plain : SoftEffective lower pipe source opts root := by
  refine ⟨soft.root, ?_⟩
  intro win res eff raw mem
  rcases exists_raw_of_effectivePom plain.session eff with
    ⟨ver, pom, origin, resolver, -, fetched, answered⟩
  rw [plain.effective _ _ _ _ fetched _ _ answered] at mem
  exact soft.poms _ _ _ _ fetched raw mem

theorem named_of_plain (mediated : Mediated lower pipe source opts edge root graph)
    (listed : win ∈ graph.resolved) : (Version.parse lower win.version).isSnapshot = false ∧
      Named lower rawDependencies source (pipe.dependencies root) graph.Selects win.coords := by
  refine mediated.induction_on (motive := fun win =>
    (Version.parse lower win.version).isSnapshot = false ∧
      Named lower rawDependencies source (pipe.dependencies root) graph.Selects
        win.coords) ?_ ?_ listed
  · intro dep win visited listed won
    have decl := (mem_of_visited visited).1
    have softDep := soft.root dep decl
    rcases softDep.requirement_eq (admits_eq_some.mp won.admits).1 with ⟨spec, requires⟩
    rcases won.version with ⟨fetch, warnings, ver⟩
    rcases version_of_soft softDep plain.session ver with ⟨text, written, parsed⟩
    exact ⟨plain.rootReleases dep decl text _ written parsed, .root decl requires⟩
  · rintro parent dep win parentListed decl listed won ⟨release, named⟩
    rcases of_mem_declaredBy decl with ⟨res, eff, visited⟩
    rcases exists_pom_of_effectivePom plain release eff with ⟨pom, origin, fetched, sameDeps⟩
    have mem := (mem_of_visited visited).1
    rw [sameDeps] at mem
    have softDep := soft.poms _ _ _ _ fetched dep mem
    rcases softDep.requirement_eq (admits_eq_some.mp won.admits).1 with ⟨spec, requires⟩
    rcases won.version with ⟨fetch, warnings, ver⟩
    rcases version_of_soft softDep plain.session ver with ⟨text, written, parsed⟩
    exact ⟨plain.releases _ _ _ _ fetched dep mem text _ written parsed,
      .child named ⟨parent, mediated.lookup parentListed, rfl⟩ fetched mem requires⟩

theorem named_iff_of_plain (mediated : Mediated lower pipe source opts edge root graph)
    (coords : Coords) :
    Named lower rawDependencies source (pipe.dependencies root) graph.Selects coords ↔
      ∃ ver, graph.Selects coords ver := by
  constructor
  · intro named
    induction named with
    | @root raw coords spec mem requires =>
      have softDep := soft.root raw mem
      have admits : (WorkItem.direct raw).admits opts.stripOptional = some coords := by
        rw [SoftDeclaration.admits_eq softDep rfl softDep.effectiveScope_direct]
        exact congrArg Except.toOption (coords_of_requirement requires)
      rcases mediated.complete_root mem admits with ⟨win, found, -⟩
      exact ⟨_, win, found, rfl⟩
    | @child parent coords ver pom origin raw spec pre selects fetched mem requires ih =>
      rcases selects with ⟨win, found, rfl⟩
      rcases mediated.listed found with ⟨listed, rfl⟩
      have softWinner := softWinner_of_mediated (softEffective_of_plain soft plain) mediated listed
      have expands : win.scope ≠ .system := by
        rw [softWinner.scope]
        decide
      rcases mediated.expanded win listed expands with ⟨res, eff⟩
      rcases exists_pom_of_effectivePom plain (named_of_plain soft plain mediated listed).1
        eff with ⟨pom', origin', fetched', sameDeps⟩
      rw [fetched] at fetched'
      cases fetched'
      have softDep := soft.poms _ _ _ _ fetched raw mem
      have admits : (candidate edge win raw).admits opts.stripOptional = some coords := by
        rw [SoftDeclaration.admits_eq softDep (softWinner.exclusions_eq raw)
          (softDep.effectiveScope_candidate softWinner.scope)]
        exact congrArg Except.toOption (coords_of_requirement requires)
      rw [← sameDeps] at mem
      rcases mediated.complete_child listed eff mem admits with ⟨tgt, isTarget, -⟩
      exact ⟨_, tgt, isTarget, rfl⟩
  · rintro ⟨ver, win, found, -⟩
    rcases mediated.listed found with ⟨listed, rfl⟩
    exact (named_of_plain soft plain mediated listed).2

end Winners

end Plain

/-- On soft requirements, the strict resolver and the walk agree exactly if the preferred version of
every package is the one that the nearest declaration asks for, and the POMs of these versions name
the packages that have one.  The latter holds if POMs are their own effective forms. -/
theorem resolvers_agree_iff (lower : String → String) (ranges : VersionRanges Range)
    (full : ∀ ver, ranges.contains ranges.full ver = true)
    (pipe : PomPipeline RawPom ResolvedPom Activation)
    (rawDependencies : RawPom → List RawDependency) (source : MetadataSource RawPom)
    (opts : WalkOptions RawPom ResolvedPom Activation) (solve : Solver Range Tree)
    (resolves : solve.Resolves ranges) (root : ResolvedPom)
    (soft : SoftSource lower rawDependencies source (pipe.dependencies root))
    (softEffective : SoftEffective lower pipe source opts root) (graph : ResolvedGraph)
    (walked : WalkReturns lower pipe source opts root (.ok graph))
    (res : Std.ExtTreeMap Coords ResolvedStrictDep)
    (returned : StrictReturns lower ranges rawDependencies source solve
      (pipe.dependencies root) res) :
    (Agree res graph ↔ PrefersAll lower ranges rawDependencies source (pipe.dependencies root)
          (Nearest lower pipe source opts root) ∧
        ∀ coords, Named lower rawDependencies source (pipe.dependencies root)
            (Nearest lower pipe source opts root) coords ↔
          ∃ ver, Nearest lower pipe source opts root coords ver) ∧
    (PlainSource lower pipe rawDependencies source opts root → (Agree res graph ↔
        PrefersAll lower ranges rawDependencies source (pipe.dependencies root)
          (Nearest lower pipe source opts root))) := by
  rcases exists_solution_of_strictReturns resolves.sound returned with
    ⟨nodes, -, -, order, -, -, -, -⟩
  rcases mediated_of_walkReturns walked with ⟨edge, mediated⟩
  have nearest : Nearest lower pipe source opts root = graph.Selects := by
    funext coords ver
    exact propext (nearest_iff_of_mediated softEffective mediated coords ver)
  have resolution := softResolution_of_strictReturns full resolves soft returned
  have agreement := agree_iff graph ⟨nodes, order⟩ resolution
  rw [nearest]
  refine ⟨agreement, fun plain => ?_⟩
  rw [agreement]
  exact and_iff_left (named_iff_of_plain soft plain mediated)

open Classical in
noncomputable def resolvingSolver (ranges : VersionRanges Range)
    (selected : List (StrictPackage × Version)) : Solver Range Unit :=
  fun provider package version =>
    if Resolution ranges provider package version selected then .ok selected
    else .error (.noSolution ())

theorem resolvingSolver_resolves (ranges : VersionRanges Range)
    (sel : List (StrictPackage × Version)) : (resolvingSolver ranges sel).Resolves ranges := by
  intro provider package ver ans answered
  rw [resolvingSolver] at answered
  split_ifs at answered with isResolution
  cases answered
  exact isResolution

theorem resolution_of_chain {lower : String → String} {ranges : VersionRanges Range}
    {snap : Snapshot Range} {first second : Coords} {firstVersion secondVersion : Version}
    {firstRange secondRange : Range} (differ : first ≠ second)
    (inFull : ranges.contains ranges.full (rootVersion lower) = true)
    (rootDeps : snap.rootDeps = [(.real first, firstRange)])
    (firstDeps : snap.dependencies (versionKey (first, firstVersion)) =
      some [(.real second, secondRange)])
    (secondDeps : snap.dependencies (versionKey (second, secondVersion)) = some [])
    (firstChosen : snap.chooseVersion lower ranges (.real first) ranges.full = some firstVersion)
    (secondChosen : snap.chooseVersion lower ranges (.real second) ranges.full = some secondVersion)
    (firstInRange : ranges.contains firstRange firstVersion = true)
    (secondInRange : ranges.contains secondRange secondVersion = true) :
    Resolution ranges (snap.provider lower ranges) .root (rootVersion lower)
      [(.root, rootVersion lower), (.real first, firstVersion), (.real second, secondVersion)] := by
  have fromRoot : snap.getDependencies lower .root (rootVersion lower) =
      .available (Function.update (fun _ => none) (.real first) (some firstRange)) := by
    simp [Snapshot.getDependencies, BEq.beq, bne, rootDeps, collectConstraints]
  have fromFirst : snap.getDependencies lower (.real first) firstVersion =
      .available (Function.update (fun _ => none) (.real second) (some secondRange)) := by
    simp [Snapshot.getDependencies, firstDeps, collectConstraints]
  have fromSecond : snap.getDependencies lower (.real second) secondVersion =
      .available fun _ => none := by
    simp [Snapshot.getDependencies, secondDeps, collectConstraints]
  have only : ∀ {package tgt : StrictPackage} {required range : Range},
      Function.update (fun _ => none) package (some required) tgt = some range →
        tgt = package ∧ range = required := by
    intro package tgt required range constrained
    rw [Function.update_apply] at constrained
    split_ifs at constrained with same
    exact ⟨same, (Option.some.inj constrained).symm⟩
  refine ⟨⟨?_, ?_, ?_, ?_⟩, ?_, ?_⟩
  · simp [differ]
  · simp
  · simp only [mem_cons, not_mem_nil, or_false, forall_eq_or_imp, forall_eq]
    exact ⟨⟨ranges.full, by simp [Snapshot.provider, Snapshot.chooseVersion, inFull]⟩,
      ⟨ranges.full, firstChosen⟩, ⟨ranges.full, secondChosen⟩⟩
  · simp only [mem_cons, not_mem_nil, or_false, forall_eq_or_imp, forall_eq]
    refine ⟨⟨_, fromRoot, ?_⟩, ⟨_, fromFirst, ?_⟩, ⟨_, fromSecond, ?_⟩⟩
    · intro tgt range constrained
      rcases only constrained with ⟨rfl, rfl⟩
      exact ⟨firstVersion, by simp, firstInRange⟩
    · intro tgt range constrained
      rcases only constrained with ⟨rfl, rfl⟩
      exact ⟨secondVersion, by simp, secondInRange⟩
    · intro tgt range constrained
      cases constrained
  · intro tgt chosen mem notRoot _
    simp only [mem_cons, Prod.mk.injEq, not_mem_nil, or_false] at mem
    rcases mem with ⟨isRoot, -⟩ | ⟨rfl, rfl⟩ | ⟨rfl, rfl⟩
    · exact absurd isRoot notRoot
    · exact firstChosen
    · exact secondChosen
  · intro motive isRoot step
    simp only [mem_cons, not_mem_nil, or_false, forall_eq_or_imp, forall_eq] at step ⊢
    have isFirst := step.1 isRoot _ fromRoot (.real first) firstRange (Function.update_self ..)
    have isSecond := step.2.1 isFirst _ fromFirst (.real second) secondRange
      (Function.update_self ..)
    exact ⟨isRoot, isFirst, isSecond⟩

def pairedSource (listed : List String) : MetadataSource (List RawDependency) where
  fetchPom := fun coords version =>
    if coords.artifact = "a" then
      if version = "1" then .ok ([exampleDep "b" "1"], .fixture)
      else .ok ([exampleDep "b" "2"], .fixture)
    else .ok ([], .fixture)
  fetchMetadata := fun coords =>
    .ok ({ coords, versions := if coords.artifact = "a" then listed else ["1", "2"] }, .fixture)
  fetchSnapshotInfo := fun coords _ => .error (.metadataNotFound coords.display)

def pairedRoot : List RawDependency := [exampleDep "a" "2"]

def aCoords : Coords := ⟨"org.example", "a"⟩

def bCoords : Coords := ⟨"org.example", "b"⟩

def offeredPair (listed : List String) :
    Option (List (StrictPackage × Bool) × List (StrictPackage × Bool) × ℕ × String × String) := do
  let result ← buildSnapshot asciiLowercase predicateRanges id (pairedSource listed) 8
    pairedRoot
  let snap ← result.toOption
  let first ← snap.chooseVersion asciiLowercase predicateRanges (.real aCoords)
    predicateRanges.full
  let second ← snap.chooseVersion asciiLowercase predicateRanges (.real bCoords)
    predicateRanges.full
  let firstEdges ← snap.dependencies (versionKey (aCoords, first))
  let secondEdges ← snap.dependencies (versionKey (bCoords, second))
  return (snap.rootDeps.map fun edge => (edge.1, edge.2 first),
    firstEdges.map fun edge => (edge.1, edge.2 second), secondEdges.length,
    (snap.resolvedDep aCoords first).version, (snap.resolvedDep bCoords second).version)

variable {listed : List String} {ver : String}

theorem strictReturns_pair
    (offered : offeredPair listed = some ([(.real aCoords, true)], [(.real bCoords, true)], 0, "2",
      ver)) :
    ∃ (solve : Solver (Version → Bool) Unit) (res : Std.ExtTreeMap Coords ResolvedStrictDep),
      solve.Resolves predicateRanges ∧
      StrictReturns asciiLowercase predicateRanges id (pairedSource listed) solve pairedRoot res ∧
      res[aCoords]?.map ResolvedStrictDep.version = some "2" ∧
      res[bCoords]?.map ResolvedStrictDep.version = some ver := by
  simp only [offeredPair, bind_eq_bind, bind_eq_some_iff, Option.pure_def,
    Option.some.injEq, Prod.mk.injEq, length_eq_zero_iff] at offered
  rcases offered with ⟨out, built, snap, isSnap, first, firstChosen, second, secondChosen,
    firstEdges, firstDeps, secondEdges, secondDeps, rootEdges, firstTargets, rfl, firstText,
    secondText⟩
  rcases out with _ | _
  · cases isSnap
  · cases isSnap
    rcases map_eq_singleton_iff.mp rootEdges with ⟨⟨_, firstRange⟩, rootDeps, rootEdge⟩
    rcases map_eq_singleton_iff.mp firstTargets with ⟨⟨_, secondRange⟩, rfl, firstEdge⟩
    rcases Prod.mk.inj rootEdge with ⟨rfl, firstInRange⟩
    rcases Prod.mk.inj firstEdge with ⟨rfl, secondInRange⟩
    have resolution := resolution_of_chain (by decide) rfl rootDeps firstDeps secondDeps firstChosen
      secondChosen firstInRange secondInRange
    refine ⟨_, _, resolvingSolver_resolves _ _,
      strictReturns_of_solved built (if_pos resolution), ?_, ?_⟩
    · rw [(collectSelected_getElem? resolution.distinct).mpr
        ⟨first, mem_cons_of_mem _ mem_cons_self, rfl⟩, map_some, firstText]
    · rw [(collectSelected_getElem? resolution.distinct).mpr
        ⟨second, mem_cons_of_mem _ (mem_cons_of_mem _ mem_cons_self), rfl⟩,
        map_some, secondText]

theorem softDeclaration_exampleDep {artifact : String} (numbered : ver = "1" ∨ ver = "2") :
    SoftDeclaration asciiLowercase (exampleDep artifact ver) ∧
      AsksForRelease asciiLowercase (exampleDep artifact ver) := by
  have parsed : VersionSpec.parse asciiLowercase ver = .ok (.soft ver) := by
    rcases numbered with rfl | rfl <;> rfl
  refine ⟨⟨⟨ver, ver, rfl, parsed⟩, rfl, rfl, rfl⟩, ?_⟩
  intro text other written otherParsed
  cases written
  rw [parsed] at otherParsed
  cases otherParsed
  rcases numbered with rfl | rfl <;> decide +kernel

theorem mem_pairedSource {coords : Coords} {pom : List RawDependency} {origin : FetchOrigin}
    (fetched : (pairedSource listed).fetchPom coords ver = .ok (pom, origin))
    {raw : RawDependency} (mem : raw ∈ pom) :
    raw = exampleDep "b" "1" ∨ raw = exampleDep "b" "2" := by
  simp only [pairedSource] at fetched
  split_ifs at fetched <;> cases fetched
  · exact Or.inl (mem_singleton.mp mem)
  · exact Or.inr (mem_singleton.mp mem)
  · cases mem

theorem softSource_paired (listed : List String) :
    SoftSource asciiLowercase id (pairedSource listed) pairedRoot := by
  constructor
  · intro raw mem
    rw [mem_singleton.mp mem]
    exact (softDeclaration_exampleDep (Or.inr rfl)).1
  · intro coords ver pom origin fetched raw mem
    rcases mem_pairedSource fetched mem with rfl | rfl
    · exact (softDeclaration_exampleDep (Or.inl rfl)).1
    · exact (softDeclaration_exampleDep (Or.inr rfl)).1

def pairedOptions : WalkOptions (List RawDependency) (List RawDependency) Unit :=
  ⟨true, [], (), true, none, "default"⟩

theorem plainSource_paired (listed : List String) :
    PlainSource asciiLowercase plainPipeline id (pairedSource listed) pairedOptions
      pairedRoot := by
  refine ⟨rfl, ?_, ?_, ?_⟩
  · intro coords ver pom origin fetched resolver res answered
    cases answered
    rfl
  · intro raw mem
    rw [mem_singleton.mp mem]
    exact (softDeclaration_exampleDep (Or.inr rfl)).2
  · intro coords ver pom origin fetched raw mem
    rcases mem_pairedSource fetched mem with rfl | rfl
    · exact (softDeclaration_exampleDep (Or.inl rfl)).2
    · exact (softDeclaration_exampleDep (Or.inr rfl)).2

def walkedPair (listed : List String) : Option (Option (List (Coords × String))) :=
  (walk asciiLowercase plainPipeline (pairedSource listed) pairedOptions 4 pairedRoot).map
    fun result => result.toOption.map fun graph =>
      graph.resolved.map fun dep => (dep.coords, dep.version)

theorem walkReturns_paired
    (walked : walkedPair listed = some (some [(aCoords, "2"), (bCoords, "2")])) :
    ∃ graph, WalkReturns asciiLowercase plainPipeline (pairedSource listed) pairedOptions
        pairedRoot (.ok graph) ∧
      ∀ coords ver, graph.winners[coords]?.map ResolvedDep.version = some ver ↔
        (coords, ver) ∈ [(aCoords, "2"), (bCoords, "2")] := by
  rcases map_eq_some_iff.mp walked with ⟨out, walked, answered⟩
  rcases out with _ | graph
  · cases answered
  · have ret : WalkReturns asciiLowercase plainPipeline (pairedSource listed)
      pairedOptions pairedRoot (.ok graph) := ⟨4, walked⟩
    rcases mediated_of_walkReturns ret with ⟨edge, mediated⟩
    refine ⟨graph, ret, fun coords ver => ?_⟩
    rw [← Option.some.inj answered, List.mem_map, map_eq_some_iff]
    constructor
    · rintro ⟨win, found, rfl⟩
      rcases mediated.listed found with ⟨listed, rfl⟩
      exact ⟨win, listed, rfl⟩
    · rintro ⟨win, listed, same⟩
      cases same
      exact ⟨win, mediated.lookup listed, rfl⟩

/-- Where only version 2 of `a` is published, the resolvers agree. -/
theorem resolvers_agree_single :
    ∃ (solve : Solver (Version → Bool) Unit) (res : Std.ExtTreeMap Coords ResolvedStrictDep)
      (graph : ResolvedGraph),
      StrictReturns asciiLowercase predicateRanges id (pairedSource ["2"]) solve pairedRoot
        res ∧
      WalkReturns asciiLowercase plainPipeline (pairedSource ["2"]) pairedOptions pairedRoot
        (.ok graph) ∧
      Agree res graph := by
  rcases strictReturns_pair (by decide +kernel : offeredPair ["2"] =
    some ([(.real aCoords, true)], [(.real bCoords, true)], 0, "2", "2")) with
    ⟨solve, res, resolves, returned, first, second⟩
  rcases walkReturns_paired (by decide +kernel : walkedPair ["2"] = _) with ⟨graph, walked, winners⟩
  have full : ∀ ver, predicateRanges.contains predicateRanges.full ver = true := fun _ => rfl
  have soft := softSource_paired ["2"]
  have plain := plainSource_paired ["2"]
  have softEffective := softEffective_of_plain soft plain
  rcases mediated_of_walkReturns walked with ⟨edge, mediated⟩
  refine ⟨solve, res, graph, returned, walked, ?_⟩
  refine ((resolvers_agree_iff asciiLowercase predicateRanges full plainPipeline id
    (pairedSource ["2"]) pairedOptions solve resolves pairedRoot soft softEffective graph walked
    res returned).2 plain).mpr ?_
  have resolution := softResolution_of_strictReturns full resolves soft returned
  intro coords ver nearest
  rcases (nearest_iff_of_mediated softEffective mediated coords ver).mp nearest with
    ⟨win, found, rfl⟩
  have listed := (winners coords win.version).mp (by rw [found, map_some])
  simp only [mem_cons, Prod.mk.injEq, not_mem_nil, or_false] at listed
  have selected : res[coords]?.map ResolvedStrictDep.version = some win.version := by
    rcases listed with ⟨rfl, ver⟩ | ⟨rfl, ver⟩
    · rw [first, ver]
    · rw [second, ver]
  rcases map_eq_some_iff.mp selected with ⟨dep, isDep, text⟩
  exact text ▸ resolution.preferred coords dep isDep

/-- Where version 1 of `a` is published too, its declaration comes first, although neither resolver
selects it. -/
theorem resolvers_disagree :
    SoftSource asciiLowercase id (pairedSource ["1", "2"]) pairedRoot ∧
    PlainSource asciiLowercase plainPipeline id (pairedSource ["1", "2"]) pairedOptions
      pairedRoot ∧
    ∃ (solve : Solver (Version → Bool) Unit) (res : Std.ExtTreeMap Coords ResolvedStrictDep)
      (graph : ResolvedGraph),
      solve.Resolves predicateRanges ∧
      StrictReturns asciiLowercase predicateRanges id (pairedSource ["1", "2"]) solve
        pairedRoot res ∧
      WalkReturns asciiLowercase plainPipeline (pairedSource ["1", "2"]) pairedOptions
        pairedRoot (.ok graph) ∧
      res[aCoords]?.map ResolvedStrictDep.version = some "2" ∧
      graph.winners[aCoords]?.map ResolvedDep.version = some "2" ∧
      res[bCoords]?.map ResolvedStrictDep.version = some "1" ∧
      graph.winners[bCoords]?.map ResolvedDep.version = some "2" := by
  rcases strictReturns_pair (by decide +kernel : offeredPair ["1", "2"] =
    some ([(.real aCoords, true)], [(.real bCoords, true)], 0, "2", "1")) with
    ⟨solve, res, resolves, returned, first, second⟩
  rcases walkReturns_paired (by decide +kernel : walkedPair ["1", "2"] = _) with
    ⟨graph, walked, winners⟩
  refine ⟨softSource_paired _, plainSource_paired _, solve, res, graph, resolves, returned, walked,
    first, ?_, second, ?_⟩
  · exact (winners aCoords "2").mpr (by simp)
  · exact (winners bCoords "2").mpr (by simp)

end Barista.Resolver
