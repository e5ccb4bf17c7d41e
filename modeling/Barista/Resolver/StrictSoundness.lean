import Barista.Resolver.StrictSnapshot

/-!
# Hard ranges in the strict resolver

What a solver is expected to do is stated for the map of constraints that it receives for each
selected package.  That map has one range for each target, the one of the last declaration.  So
an earlier hard range for the same target reaches the solver only if the last one implies it.
-/

namespace Barista.Resolver

open List Option Snapshot
open Version (asciiLowercase)

variable {Range RawPom Tree : Type}

structure Solution (ranges : VersionRanges Range) (provider : DependencyProvider Range)
    (package : StrictPackage) (version : Version) (selected : List (StrictPackage × Version)) :
    Prop where
  distinct : (selected.map Prod.fst).Nodup
  start : (package, version) ∈ selected
  chosen : ∀ entry ∈ selected, ∃ range, provider.chooseVersion entry.1 range = some entry.2
  satisfied : ∀ entry ∈ selected, ∃ constraints,
    provider.getDependencies entry.1 entry.2 = .available constraints ∧
      ∀ target range, constraints target = some range →
        ∃ chosen, (target, chosen) ∈ selected ∧ ranges.contains range chosen = true

/-- What the solver returns satisfies the constraints of all that it selects. -/
def Solver.Sound (ranges : VersionRanges Range) (solve : Solver Range Tree) : Prop :=
  ∀ provider package version selected, solve provider package version = .ok selected →
    Solution ranges provider package version selected

section Collect

variable {snap : Snapshot Range} {sel : List (StrictPackage × Version)} {coords : Coords}

theorem collectSelected_getElem? (distinct : (sel.map Prod.fst).Nodup) {dep : ResolvedStrictDep} :
    (snap.collectSelected sel)[coords]? = some dep ↔
      ∃ ver, (.real coords, ver) ∈ sel ∧ dep = snap.resolvedDep coords ver := by
  induction sel using List.reverseRecOn with
  | nil => simp [collectSelected]
  | append_singleton sel entry ih =>
    rcases entry with ⟨package, ver⟩
    rw [map_append, nodup_append] at distinct
    have prior := ih distinct.1
    cases package with
    | root =>
      have same : snap.collectSelected (sel ++ [(.root, ver)]) = snap.collectSelected sel := by
        simp [collectSelected]
      rw [same, prior]
      simp
    | real tgt =>
      have inserted : snap.collectSelected (sel ++ [(.real tgt, ver)]) =
          (snap.collectSelected sel).insert tgt (snap.resolvedDep tgt ver) := by
        simp [collectSelected]
      rw [inserted, Std.ExtTreeMap.getElem?_insert]
      by_cases same : tgt = coords
      · subst same
        have new : ∀ version', (.real tgt, version') ∉ sel := by
          intro version' mem
          exact distinct.2.2 _ (List.mem_map_of_mem mem) _ (by simp) rfl
        simp [new, eq_comm]
      · have differs : compare tgt coords ≠ .eq := by
          intro equal
          exact same (Std.LawfulEqOrd.eq_of_compare equal)
        rw [if_neg differs, prior]
        simp [Ne.symm same]

theorem collectConstraints_append (edges : List (SnapshotEdge Range)) (edge : SnapshotEdge Range) :
    collectConstraints (edges ++ [edge]) =
      Function.update (collectConstraints edges) edge.1 (some edge.2) := by
  simp [collectConstraints]

end Collect

variable (lower : String → String) (ranges : VersionRanges Range)
  (rawDependencies : RawPom → List RawDependency) (source : MetadataSource RawPom)

def lastSpec (deps : List RawDependency) (coords : Coords) : Option VersionSpec :=
  ((deps.filterMap (requirement lower)).reverse.find? fun requirement =>
    requirement.1 = coords).map Prod.snd

/-- Where the range of the last declaration admits the version that is selected for its target,
so does every hard range that is declared for this target. -/
def LastRangeDecides (resolved : Std.ExtTreeMap Coords ResolvedStrictDep)
    (deps claimed : List RawDependency) : Prop :=
  ∀ raw ∈ claimed, ∀ coords intervals, requirement lower raw = some (coords, .hard intervals) →
    ∀ last, lastSpec lower deps coords = some last →
      ∀ target, resolved[coords]? = some target →
        ∀ text, (∃ published ∈ publishedTexts source coords,
            Version.parse lower published == Version.parse lower text) →
          reportedText lower source (coords, Version.parse lower text) = target.version →
          ranges.contains (specToRange ranges last) (Version.parse lower text) = true →
          (VersionSpec.hard intervals).satisfies (Version.parse lower target.version) = true

/-- The POM is the one of a selected package version. -/
def SelectsPom (resolved : Std.ExtTreeMap Coords ResolvedStrictDep) (pom : RawPom) : Prop :=
  ∃ coords target origin, resolved[coords]? = some target ∧
    source.fetchPom coords target.version = .ok (pom, origin)

/-- The version that is selected for a target satisfies the hard ranges declared for it. -/
def RespectsRanges (resolved : Std.ExtTreeMap Coords ResolvedStrictDep)
    (deps : List RawDependency) : Prop :=
  ∀ raw ∈ deps, ∀ coords intervals, requirement lower raw = some (coords, .hard intervals) →
    ∃ target, resolved[coords]? = some target ∧
      (VersionSpec.hard intervals).satisfies (Version.parse lower target.version) = true

variable {lower ranges rawDependencies source} {claimed deps : List RawDependency}
  {nodes : List (Coords × Version)} {snap : Snapshot Range} {coords : Coords} {ver : Version}

theorem collectConstraints_filterMap (deps : List RawDependency) (coords : Coords) :
    collectConstraints (deps.filterMap (edgeOf lower ranges)) (.real coords) =
      (lastSpec lower deps coords).map (specToRange ranges) := by
  induction deps using List.reverseRecOn with
  | nil => rfl
  | append_singleton deps raw ih =>
    rw [filterMap_append]
    rcases requires : requirement lower raw with _ | requirement
    · simpa [edgeOf, lastSpec, requires] using ih
    · rcases requirement with ⟨tgt, spec⟩
      have edge : [raw].filterMap (edgeOf lower ranges) =
          [(.real tgt, specToRange ranges spec)] := by
        simp [edgeOf, requires]
      rw [edge, collectConstraints_append]
      by_cases same : coords = tgt
      · subst same
        simp [lastSpec, requires]
      · have differs : StrictPackage.real coords ≠ .real tgt := by
          simpa using same
        rw [Function.update_of_ne differs, ih]
        simp [lastSpec, requires, Ne.symm same]

theorem exists_lastSpec {deps : List RawDependency} {raw : RawDependency} {coords : Coords}
    {spec : VersionSpec} (mem : raw ∈ deps)
    (requires : requirement lower raw = some (coords, spec)) :
    ∃ last, lastSpec lower deps coords = some last := by
  have found : ((deps.filterMap (requirement lower)).reverse.find? fun requirement =>
      requirement.1 = coords).isSome := by
    rw [find?_isSome]
    exact ⟨(coords, spec), mem_reverse.mpr (mem_filterMap.mpr ⟨raw, mem, requires⟩), by simp⟩
  rcases isSome_iff_exists.mp found with ⟨last, found⟩
  exact ⟨last.2, by rw [lastSpec, found]; rfl⟩

theorem decides_of_respectsRanges {resolved : Std.ExtTreeMap Coords ResolvedStrictDep}
    (respects : RespectsRanges lower resolved claimed) :
    LastRangeDecides lower ranges source resolved deps claimed := by
  intro raw mem coords intervals requires last _ tgt found text _ _ _
  rcases respects raw mem coords intervals requires with ⟨other, found', satisfied⟩
  rw [found] at found'
  cases found'
  exact satisfied

section Selected

variable {solve : Solver Range Tree} {sel : List (StrictPackage × Version)}
  {res : Std.ExtTreeMap Coords ResolvedStrictDep}

section Solved

variable (order : (snapshotGraph lower ranges rawDependencies source deps).IsOrder nodes)
  (holds : Holds lower ranges rawDependencies source deps nodes snap)

include order holds

theorem versionStrings_of_mem {node : Coords × Version} (mem : node ∈ nodes) :
    snap.versionStrings (versionKey node) = some (reportedText lower source node) := by
  rw [← order.complete] at mem
  rcases mem_targets_of_mem_graph (mem_of_mem_firsts mem) with ⟨raw, decl, isTarget⟩
  exact holds.tables.versionStrings_eq decl isTarget

omit order holds in
theorem exists_text_of_chooseVersion
    (holds : Holds lower ranges rawDependencies source deps nodes snap) {range : Range}
    (chosen : snap.chooseVersion lower ranges (.real coords) range = some ver) :
    ∃ text, ver = Version.parse lower text ∧
      ∃ pub ∈ publishedTexts source coords, Version.parse lower pub == ver := by
  have ofPublished : ∀ {ver : Version}, ver ∈ publishedVersions lower source coords →
      ∃ text ∈ publishedTexts source coords, Version.parse lower text = ver := by
    intro ver pub
    rw [publishedVersions, sortVersions, mem_insertionSort, List.mem_map] at pub
    exact pub
  unfold chooseVersion at chosen
  dsimp only at chosen
  split at chosen
  · rename_i preferred found
    cases chosen
    have mem := mem_of_find?_eq_some found
    rw [holds.tables.preferences, mem_flatMap] at mem
    rcases mem with ⟨raw, -, preferred⟩
    unfold preferencesOf at preferred
    split at preferred
    · cases preferred
    · rename_i tgt spec requires
      split_ifs at preferred with same
      · unfold softPreferencesFor at preferred
        split at preferred
        · rename_i text
          dsimp only at preferred
          split_ifs at preferred with isPublished
          · rw [mem_singleton] at preferred
            rw [List.any_eq_true] at isPublished
            rcases isPublished with ⟨other, pub, equal⟩
            rcases ofPublished pub with ⟨publishedText, listed, rfl⟩
            exact ⟨text, preferred, publishedText, listed, preferred ▸ equal⟩
          · cases preferred
        · cases preferred
      · cases preferred
  · split at chosen
    · cases chosen
    · rename_i pub listed
      rw [(holds.tables.listed _ _ listed).1] at chosen
      have mem := mem_reverse.mp (mem_of_find?_eq_some chosen)
      rcases ofPublished mem with ⟨text, pub, rfl⟩
      exact ⟨text, rfl, text, pub, by simp [BEq.beq]⟩

theorem selected_explored
    (solution : Solution ranges (snap.provider lower ranges) .root (rootVersion lower)
      sel) (mem : (.real coords, ver) ∈ sel) :
    ∃ node ∈ nodes, versionKey node = versionKey (coords, ver) ∧
      (snap.resolvedDep coords ver).version = reportedText lower source node ∧
      snap.getDependencies lower (.real coords) ver = .available (collectConstraints
        ((declaredAt lower rawDependencies source node).filterMap (edgeOf lower ranges))) := by
  rcases solution.satisfied _ mem with ⟨constraints, avail, -⟩
  dsimp only [provider] at avail
  unfold getDependencies at avail ⊢
  dsimp only at avail ⊢
  rw [holds.dependencies] at avail ⊢
  rcases found : nodes.find? fun node => versionKey node == versionKey (coords, ver) with _ | node
  · rw [found] at avail
    cases avail
  · have isNode := mem_of_find?_eq_some found
    have sameKey : versionKey node = versionKey (coords, ver) := by
      simpa using find?_some found
    refine ⟨node, isNode, sameKey, ?_, rfl⟩
    rw [resolvedDep, ← sameKey, versionStrings_of_mem order holds isNode]
    rfl

omit order holds in
theorem reportedText_congr {node other : Coords × Version}
    (sameKey : versionKey node = versionKey other)
    (pub : ∃ text, publishedText? lower source (versionKey node) = some text) :
    reportedText lower source node = reportedText lower source other := by
  rcases pub with ⟨text, found⟩
  rw [reportedText, reportedText, ← sameKey, found]
  rfl

theorem respectsRanges_of_decides
    (solution : Solution ranges (snap.provider lower ranges) .root (rootVersion lower)
      sel) {decl : List RawDependency} (within : claimed ⊆ decl)
    (decides : LastRangeDecides lower ranges source (snap.collectSelected sel) decl claimed)
    (satisfied : ∀ tgt range,
      collectConstraints (decl.filterMap (edgeOf lower ranges)) tgt = some range →
        ∃ chosen, (tgt, chosen) ∈ sel ∧ ranges.contains range chosen = true) :
    RespectsRanges lower (snap.collectSelected sel) claimed := by
  intro raw mem coords intervals requires
  rcases exists_lastSpec (within mem) requires with ⟨last, isLast⟩
  have constrained : collectConstraints (decl.filterMap (edgeOf lower ranges))
      (.real coords) = some (specToRange ranges last) := by
    rw [collectConstraints_filterMap, isLast]
    rfl
  rcases satisfied _ _ constrained with ⟨chosen, isSelected, inRange⟩
  rcases solution.chosen _ isSelected with ⟨range, chose⟩
  rcases exists_text_of_chooseVersion holds chose with ⟨text, rfl, pub, listed, equal⟩
  rcases selected_explored order holds solution isSelected with
    ⟨node, isNode, sameKey, reported, -⟩
  have found : (snap.collectSelected sel)[coords]? =
      some (snap.resolvedDep coords (Version.parse lower text)) :=
    (collectSelected_getElem? solution.distinct).mpr ⟨_, isSelected, rfl⟩
  have known : ∃ text, publishedText? lower source (versionKey node) = some text := by
    rw [← isSome_iff_exists, sameKey, publishedText?, find?_isSome]
    exact ⟨pub, listed, equal⟩
  have same : reportedText lower source (coords, Version.parse lower text) =
      (snap.resolvedDep coords (Version.parse lower text)).version := by
    rw [reported, reportedText_congr sameKey known]
  exact ⟨_, found, decides raw mem coords intervals requires last isLast _ found text
    ⟨pub, listed, equal⟩ same inRange⟩

end Solved

theorem exists_solution_of_strictReturns (sound : solve.Sound ranges)
    (ret : StrictReturns lower ranges rawDependencies source solve deps res) :
    ∃ nodes snap sel, (snapshotGraph lower ranges rawDependencies source deps).IsOrder nodes ∧
      Holds lower ranges rawDependencies source deps nodes snap ∧
      solve (snap.provider lower ranges) .root (rootVersion lower) = .ok sel ∧
      Solution ranges (snap.provider lower ranges) .root (rootVersion lower) sel ∧
      res = snap.collectSelected sel := by
  rcases ret with ⟨steps, ran⟩
  rcases map_eq_some_iff.mp ran with ⟨out, built, solved⟩
  rcases out with _ | snap
  · cases solved
  · change runPubgrub lower ranges solve snap = _ at solved
    rcases buildSnapshot_ok built with ⟨nodes, order, holds⟩
    unfold runPubgrub at solved
    split at solved
    · rename_i sel answered
      cases solved
      exact ⟨nodes, snap, sel, order, holds, answered, sound _ _ _ _ answered, rfl⟩
    all_goals cases solved

end Selected

open Classical in
noncomputable def guardedSolver (ranges : VersionRanges Range)
    (selected : List (StrictPackage × Version)) : Solver Range Unit :=
  fun provider package version =>
    if Solution ranges provider package version selected then .ok selected
    else .error (.noSolution ())

theorem guardedSolver_sound (sel : List (StrictPackage × Version)) :
    (guardedSolver ranges sel).Sound ranges := by
  intro provider package ver ans answered
  rw [guardedSolver] at answered
  split_ifs at answered with isSolution
  cases answered
  exact isSolution

section Guarded

variable {steps : ℕ}
  (built : buildSnapshot lower ranges rawDependencies source steps deps = some (.ok snap))

include built

theorem strictReturns_of_solved {solve : Solver Range Tree} {sel : List (StrictPackage × Version)}
    (solved : solve (snap.provider lower ranges) .root (rootVersion lower) = .ok sel) :
    StrictReturns lower ranges rawDependencies source solve deps (snap.collectSelected sel) := by
  refine ⟨steps, ?_⟩
  rw [resolveStrict, built]
  change some (runPubgrub lower ranges solve snap) = _
  rw [runPubgrub, solved]

theorem strictReturns_guardedSolver {sel : List (StrictPackage × Version)}
    (solution : Solution ranges (snap.provider lower ranges) .root (rootVersion lower) sel) :
    StrictReturns lower ranges rawDependencies source (guardedSolver ranges sel) deps
      (snap.collectSelected sel) :=
  strictReturns_of_solved built (if_pos solution)

end Guarded

theorem mem_of_collectConstraints {edges : List (SnapshotEdge Range)} {tgt : StrictPackage}
    {range : Range} (constrained : collectConstraints edges tgt = some range) :
    (tgt, range) ∈ edges := by
  induction edges using List.reverseRecOn with
  | nil => cases constrained
  | append_singleton edges edge ih =>
    rw [collectConstraints_append] at constrained
    by_cases same : tgt = edge.1
    · subst same
      rw [Function.update_self, Option.some.injEq] at constrained
      exact mem_append_right _ (mem_singleton.mpr (Prod.ext rfl constrained.symm))
    · rw [Function.update_of_ne same] at constrained
      exact mem_append_left _ (ih constrained)

theorem propagated_subset_rootDeclarations (deps : List RawDependency) :
    propagated deps ⊆ rootDeclarations deps := by
  intro raw mem
  rw [propagated, mem_filter] at mem
  rw [rootDeclarations, mem_filter]
  simp_all

def predicateRanges : VersionRanges (Version → Bool) where
  empty := fun _ => false
  full := fun _ => true
  singleton bound := fun version => version.cmp bound == .eq
  higherThan bound := fun version => version.cmp bound != .lt
  strictlyHigherThan bound := fun version => version.cmp bound == .gt
  lowerThan bound := fun version => version.cmp bound != .gt
  strictlyLowerThan bound := fun version => version.cmp bound == .lt
  union left right := fun version => left version || right version
  intersection left right := fun version => left version && right version
  contains range version := range version

def coreCoords : Coords := ⟨"org.example", "core"⟩

def leafSourceOf (versions : List String) : MetadataSource (List RawDependency) where
  fetchPom := fun _ _ => .ok ([], .fixture)
  fetchMetadata := fun coords => .ok ({ coords, versions }, .fixture)
  fetchSnapshotInfo := fun coords _ => .error (.metadataNotFound coords.display)

def coreDep (version : String) : RawDependency :=
  { groupId := "org.example", artifactId := "core", version := some version }

section Offered

variable (source : MetadataSource (List RawDependency)) (steps : ℕ) (deps : List RawDependency)
  (names : List Coords)

/-- The versions which the snapshot offers for the names. -/
def offeredBy (snap : Snapshot (Version → Bool)) : List (Coords × Version) :=
  names.filterMap fun coords =>
    (snap.chooseVersion asciiLowercase predicateRanges (.real coords) predicateRanges.full).map
      fun version => (coords, version)

def selection (offered : List (Coords × Version)) : List (StrictPackage × Version) :=
  (.root, rootVersion asciiLowercase) :: offered.map fun entry => (.real entry.1, entry.2)

def meets (selected : List (StrictPackage × Version))
    (edges : List (SnapshotEdge (Version → Bool))) : Bool :=
  edges.all fun edge => (collectConstraints edges edge.1).all fun range =>
    selected.any fun entry => entry.1 = edge.1 && range entry.2

/-- The texts of the offered versions, if they are a solution. -/
def solvedTexts : Option (List (Coords × String)) := do
  let result ← buildSnapshot asciiLowercase predicateRanges id source steps deps
  let snap ← result.toOption
  let offered := offeredBy names snap
  if meets (selection offered) snap.rootDeps && offered.all fun entry =>
      (snap.dependencies (versionKey entry)).any (meets (selection offered)) then
    return offered.map fun entry => (entry.1, (snap.resolvedDep entry.1 entry.2).version)
  else none

variable {source steps deps names} {sel : List (StrictPackage × Version)}
  {snap : Snapshot (Version → Bool)}

theorem exists_of_meets {edges : List (SnapshotEdge (Version → Bool))} (met : meets sel edges)
    {tgt : StrictPackage} {range : Version → Bool}
    (constrained : collectConstraints edges tgt = some range) :
    ∃ chosen, (tgt, chosen) ∈ sel ∧ predicateRanges.contains range chosen = true := by
  have offered := List.all_eq_true.mp met _ (mem_of_collectConstraints constrained)
  rw [constrained] at offered
  rcases List.any_eq_true.mp offered with ⟨⟨package, chosen⟩, mem, fits⟩
  simp only [Bool.and_eq_true, decide_eq_true_eq] at fits
  rcases fits with ⟨rfl, inRange⟩
  exact ⟨chosen, mem, inRange⟩

theorem offeredBy_sublist : (offeredBy names snap).map Prod.fst <+ names := by
  induction names with
  | nil => exact .refl _
  | cons coords names ih =>
    rw [offeredBy, filterMap_cons]
    split
    · exact ih.cons _
    · rename_i entry chose
      rcases map_eq_some_iff.mp chose with ⟨ver, -, rfl⟩
      exact ih.cons_cons _

theorem solution_of_offered (distinct : names.Nodup)
    (root : meets (selection (offeredBy names snap)) snap.rootDeps)
    (each : ∀ entry ∈ offeredBy names snap, ∃ edges,
      snap.dependencies (versionKey entry) = some edges ∧
        meets (selection (offeredBy names snap)) edges) :
    Solution predicateRanges (snap.provider asciiLowercase predicateRanges) .root
      (rootVersion asciiLowercase) (selection (offeredBy names snap)) where
  distinct := by
    have listed := distinct.sublist (@offeredBy_sublist names snap)
    have same : (selection (offeredBy names snap)).map Prod.fst =
        .root :: ((offeredBy names snap).map Prod.fst).map .real := by
      simp [selection]
    rw [same, nodup_cons]
    exact ⟨by simp, listed.map fun _ _ equal => StrictPackage.real.inj equal⟩
  start := mem_cons_self
  chosen := by
    intro entry mem
    rcases List.mem_cons.mp mem with rfl | mem
    · exact ⟨predicateRanges.full, rfl⟩
    · rcases List.mem_map.mp mem with ⟨offered, isOffered, rfl⟩
      rcases mem_filterMap.mp isOffered with ⟨coords, -, chose⟩
      rcases map_eq_some_iff.mp chose with ⟨ver, chosen, rfl⟩
      exact ⟨predicateRanges.full, chosen⟩
  satisfied := by
    intro entry mem
    rcases List.mem_cons.mp mem with rfl | mem
    · exact ⟨collectConstraints snap.rootDeps,
        by simp [provider, getDependencies, BEq.beq, bne], fun _ _ => exists_of_meets root⟩
    · rcases List.mem_map.mp mem with ⟨offered, isOffered, rfl⟩
      rcases each offered isOffered with ⟨edges, found, met⟩
      exact ⟨collectConstraints edges, by simp [provider, getDependencies, found],
        fun _ _ => exists_of_meets met⟩

theorem strictReturns_of_texts {texts : List (Coords × String)} (distinct : names.Nodup)
    (solved : solvedTexts source steps deps names = some texts) :
    ∃ (solve : Solver (Version → Bool) Unit) (res : Std.ExtTreeMap Coords ResolvedStrictDep),
      solve.Sound predicateRanges ∧
      StrictReturns asciiLowercase predicateRanges id source solve deps res ∧
      ∀ coords text, (res[coords]?).map ResolvedStrictDep.version = some text ↔
        (coords, text) ∈ texts := by
  simp only [solvedTexts, bind_eq_bind, bind_eq_some_iff] at solved
  rcases solved with ⟨result, built, snap, isSnap, solved⟩
  rcases result with _ | snap
  · cases isSnap
  cases isSnap
  split_ifs at solved with met
  cases solved
  rw [Bool.and_eq_true, List.all_eq_true] at met
  have solution := solution_of_offered distinct met.1 fun entry mem => by
    rcases (Option.any_eq_true _ _).mp (met.2 entry mem) with ⟨edges, found, met⟩
    exact ⟨edges, found, met⟩
  refine ⟨_, _, guardedSolver_sound _, strictReturns_guardedSolver built solution, ?_⟩
  intro coords text
  simp only [map_eq_some_iff, List.mem_map, collectSelected_getElem? solution.distinct]
  constructor
  · rintro ⟨dep, ⟨ver, mem, rfl⟩, rfl⟩
    have offered : (coords, ver) ∈ offeredBy names snap := by simpa [selection] using mem
    exact ⟨_, offered, rfl⟩
  · rintro ⟨⟨name, ver⟩, offered, same⟩
    cases same
    exact ⟨_, ⟨ver, by simpa [selection] using offered, rfl⟩, rfl⟩

end Offered

section Closure

variable {edges : List (SnapshotEdge Range)}

/-- Edges come from declarations all of whose targets are queued. -/
theorem exists_declared_of_edges (holds : Holds lower ranges rawDependencies source deps nodes snap)
    (decl : edges = snap.rootDeps ∨ ∃ key, snap.dependencies key = some edges) :
    ∃ raws : List RawDependency, edges = raws.filterMap (edgeOf lower ranges) ∧
      raws.flatMap (targets lower ranges source) ⊆
        (snapshotGraph lower ranges rawDependencies source deps).first ++
          nodes.flatMap (snapshotGraph lower ranges rawDependencies source deps).next := by
  rcases decl with rfl | ⟨key, found⟩
  · exact ⟨rootDeclarations deps, holds.rootDeps, subset_append_left _ _⟩
  · rw [holds.dependencies, map_eq_some_iff] at found
    rcases found with ⟨node, isFirst, rfl⟩
    refine ⟨_, rfl, List.Subset.trans ?_ (subset_append_right _ _)⟩
    intro tgt isTarget
    exact mem_flatMap.mpr ⟨node, mem_of_find?_eq_some isFirst, isTarget⟩

theorem exists_dependencies_of_target
    (order : (snapshotGraph lower ranges rawDependencies source deps).IsOrder nodes)
    (holds : Holds lower ranges rawDependencies source deps nodes snap) {node : Coords × Version}
    (queued : node ∈ (snapshotGraph lower ranges rawDependencies source deps).first ++
      nodes.flatMap (snapshotGraph lower ranges rawDependencies source deps).next) :
    ∃ edges, snap.dependencies (versionKey node) = some edges := by
  have key : (snapshotGraph lower ranges rawDependencies source deps).key node =
    some (versionKey node) := rfl
  rcases exists_mem_firsts queued key with ⟨explored, isExplored, sameKey⟩
  change explored ∈ Graph.grow _ nodes at isExplored
  rw [order.complete] at isExplored
  have found : (nodes.find? fun other => versionKey other == versionKey node).isSome := by
    rw [find?_isSome]
    exact ⟨explored, isExplored, beq_iff_eq.mpr (Option.some.inj sameKey)⟩
  rcases isSome_iff_exists.mp found with ⟨first, isFirst⟩
  exact ⟨_, by rw [holds.dependencies, isFirst]; rfl⟩

end Closure

/-- Each published version that an edge of the snapshot admits is explored and known itself. -/
theorem snapshot_closed (lower : String → String) (ranges : VersionRanges Range)
    (rawDependencies : RawPom → List RawDependency) (source : MetadataSource RawPom) (steps : ℕ)
    (deps : List RawDependency) (snap : Snapshot Range)
    (ran : buildSnapshot lower ranges rawDependencies source steps deps = some (.ok snap))
    (edges : List (SnapshotEdge Range))
    (declared : edges = snap.rootDeps ∨ ∃ key, snap.dependencies key = some edges)
    (coords : Coords) (range : Range) (edge : (.real coords, range) ∈ edges) (text : String)
    (published : text ∈ publishedTexts source coords)
    (inRange : ranges.contains range (Version.parse lower text) = true) (ver : Version)
    (same : (Version.parse lower text == ver) = true) :
    ∃ onward, snap.dependencies (versionKey (coords, ver)) = some onward ∧
      snap.getDependencies lower (.real coords) ver = .available (collectConstraints onward) := by
  have sameKey : versionKey (coords, Version.parse lower text) = versionKey (coords, ver) := by
    simpa [versionKey, BEq.beq] using same
  rcases buildSnapshot_ok ran with ⟨nodes, order, holds⟩
  rcases exists_declared_of_edges holds declared with ⟨raws, rfl, queued⟩
  rcases mem_filterMap.mp edge with ⟨raw, isRaw, isEdge⟩
  rcases map_eq_some_iff.mp isEdge with ⟨⟨target, spec⟩, requires, isReal⟩
  cases isReal
  have isTarget : (coords, Version.parse lower text) ∈ targets lower ranges source raw := by
    refine mem_targets.mpr ⟨spec, requires, ?_, inRange⟩
    rw [publishedVersions, sortVersions, mem_insertionSort]
    exact List.mem_map_of_mem published
  rcases exists_dependencies_of_target order holds
    (queued (mem_flatMap.mpr ⟨raw, isRaw, isTarget⟩)) with ⟨onward, found⟩
  rw [sameKey] at found
  exact ⟨onward, found, by simp [getDependencies, found]⟩

def appCoords : Coords := ⟨"org.example", "app"⟩

/-- The POM of `app` declares `core`, once for each text. -/
def appSource (declared : List String) : MetadataSource (List RawDependency) where
  fetchPom := fun coords _ =>
    .ok (if coords = appCoords then declared.map coreDep else [], .fixture)
  fetchMetadata := fun coords =>
    .ok ({ coords, versions := if coords = appCoords then ["1.0"] else ["1.0", "2.0"] }, .fixture)
  fetchSnapshotInfo := fun coords _ => .error (.metadataNotFound coords.display)

def appDeps : List RawDependency :=
  [{ groupId := "org.example", artifactId := "app", version := some "[1.0,2.0)" }]

theorem snapshot_closed_core :
    ∃ snap edges onward, buildSnapshot asciiLowercase predicateRanges id (appSource ["[1,2)"]) 4
        appDeps = some (.ok snap) ∧
      snap.dependencies (versionKey (appCoords, Version.parse asciiLowercase "1")) = some edges ∧
      snap.dependencies (versionKey (coreCoords, Version.parse asciiLowercase "1")) =
        some onward := by
  have built : ((buildSnapshot asciiLowercase predicateRanges id (appSource ["[1,2)"]) 4
      appDeps).bind Except.toOption).map (fun snap =>
        (snap.dependencies (versionKey (appCoords, Version.parse asciiLowercase "1"))).map
          fun edges => edges.map fun edge =>
            (edge.1, edge.2 (Version.parse asciiLowercase "1.0"))) =
      some (some [(.real coreCoords, true)]) := by decide +kernel
  rcases map_eq_some_iff.mp built with ⟨snap, isSnap, found⟩
  rcases bind_eq_some_iff.mp isSnap with ⟨result, ran, isOk⟩
  cases result with
  | error error => cases isOk
  | ok snap =>
    cases isOk
    rcases map_eq_some_iff.mp found with ⟨edges, found, targets⟩
    rcases map_eq_singleton_iff.mp targets with ⟨⟨package, range⟩, rfl, isEdge⟩
    rw [Prod.mk.injEq] at isEdge
    rcases isEdge with ⟨rfl, inRange⟩
    rcases snapshot_closed _ _ _ _ _ _ _ ran _ (.inr ⟨_, found⟩) coreCoords range (by simp) "1.0"
      (by decide +kernel) inRange (Version.parse asciiLowercase "1") (by decide +kernel) with
      ⟨onward, onwardFound, -⟩
    exact ⟨snap, _, onward, ran, found, onwardFound⟩

def conflictingDeps : List RawDependency := [coreDep "[1.0,2.0)", coreDep "[2.0,3.0)"]

theorem decides_of_all {res : Std.ExtTreeMap Coords ResolvedStrictDep}
    {source : MetadataSource (List RawDependency)} {texts : List (Coords × String)}
    (listed : ∀ coords text, (res[coords]?).map ResolvedStrictDep.version = some text ↔
      (coords, text) ∈ texts)
    (all : ∀ raw ∈ claimed, ∀ entry ∈ texts, (requirement asciiLowercase raw).all fun required =>
      required.1 ≠ entry.1 || required.2.satisfies (Version.parse asciiLowercase entry.2)) :
    LastRangeDecides asciiLowercase predicateRanges source res deps claimed := by
  intro raw mem coords intervals requires last _ tgt found text _ _ _
  have entry := (listed coords tgt.version).mp (by rw [found]; rfl)
  simpa [requires] using all raw mem _ entry

end Barista.Resolver
