import Barista.Resolver.Source
import Barista.BreadthFirst
import Barista.Pointwise

/-!
# The strict resolver

The snapshot of all versions that declarations admit, the tables for the solver, and the solution
read back.
-/

namespace Barista.Resolver

section Strict

structure VersionRanges (Range : Type) where
  empty : Range
  full : Range
  singleton : Version → Range
  higherThan : Version → Range
  strictlyHigherThan : Version → Range
  lowerThan : Version → Range
  strictlyLowerThan : Version → Range
  union : Range → Range → Range
  intersection : Range → Range → Range
  contains : Range → Version → Bool

inductive StrictPackage where
  | root
  | real (coords : Coords)
  deriving DecidableEq

inductive AdapterFailure where
  | invalidCoords (group artifact : String) (detail : Coords.ParseError)
  | retrievingDependencies (package : StrictPackage) (version : String)
  | choosingVersion (package : StrictPackage)
  | shouldCancel
  deriving DecidableEq

inductive StrictError where
  | metadata (error : MetadataError)
  | invalidSpec (coords spec : String) (detail : SpecParseError)
  | missingVersion (coords : String)
  | adapter (detail : AdapterFailure)
  deriving DecidableEq

abbrev SnapshotEdge (Range : Type) : Type := StrictPackage × Range

def versionKey (node : Coords × Version) : Coords × String := (node.1, node.2.canonical)

structure Snapshot (Range : Type) where
  versionsByCoords : Coords → Option (List Version) := fun _ => none
  dependencies : Coords × String → Option (List (SnapshotEdge Range)) := fun _ => none
  softPreferences : Coords → List Version := fun _ => []
  versionStrings : Coords × String → Option String := fun _ => none
  rootDeps : List (SnapshotEdge Range) := []
  scopes : Coords → Option String := fun _ => none

def orInsert {κ ν : Type} [DecidableEq κ] (table : κ → Option ν) (key : κ) (value : ν) :
    κ → Option ν :=
  if (table key).isSome then table else Function.update table key (some value)

def scopeOrDefault (raw : RawDependency) : String :=
  ((raw.scope.map Text.trim).filter (· ≠ "")).getD "compile"

def isOptional (raw : RawDependency) : Bool :=
  (raw.optional.map fun text => Text.eqIgnoreAsciiCase (Text.trim text) "true").getD false

def isImportScope (raw : RawDependency) : Bool :=
  (raw.scope.map fun text => Text.eqIgnoreAsciiCase (Text.trim text) "import").getD false

def propagatesTransitively (scope : String) : Bool := scope == "compile" || scope == "runtime"

variable {Range RawPom : Type} (lower : String → String) (ranges : VersionRanges Range)
  (rawDependencies : RawPom → List RawDependency) (source : MetadataSource RawPom)

def Interval.exact? (interval : Interval) : Option Version :=
  match interval.lower, interval.upper with
  | .included low, .included high => if low == high then some low else none
  | _, _ => none

def intervalToRange (interval : Interval) : Range :=
  match interval.exact? with
  | some version => ranges.singleton version
  | none =>
    let low := match interval.lower with
      | .unbounded => ranges.full
      | .included version => ranges.higherThan version
      | .excluded version => ranges.strictlyHigherThan version
    let high := match interval.upper with
      | .unbounded => ranges.full
      | .included version => ranges.lowerThan version
      | .excluded version => ranges.strictlyLowerThan version
    ranges.intersection low high

def specToRange : VersionSpec → Range
  | .hard intervals =>
    intervals.foldl (fun union interval =>
      ranges.union union (intervalToRange ranges interval)) ranges.empty
  | _ => ranges.full

def softPreferencesFor (spec : VersionSpec) (published : List Version) : List Version :=
  match spec with
  | .soft text =>
    let declared := Version.parse lower text
    if published.any (· == declared) then [declared] else []
  | _ => []

def sortVersions (versions : List Version) : List Version :=
  versions.insertionSort fun left right => left.cmp right ≠ .gt

variable (snap : Snapshot Range)

def listVersions (coords : Coords) : Except StrictError (List Version × Snapshot Range) :=
  match snap.versionsByCoords coords with
  | some cached => .ok (cached, snap)
  | none =>
    match source.fetchMetadata coords with
    | .error error => .error (.metadata error)
    | .ok (metadata, _) =>
      let versions := sortVersions (metadata.versions.map (Version.parse lower))
      .ok (versions, { snap with
        -- the first text of a version stays
        versionStrings := metadata.versions.foldl (fun strings text =>
          orInsert strings (versionKey (coords, Version.parse lower text)) text)
          snap.versionStrings
        versionsByCoords := Function.update snap.versionsByCoords coords (some versions) })

def compileDep (raw : RawDependency) :
    Except StrictError ((Coords × Range × List Version) × Snapshot Range) :=
  match Coords.new raw.groupId raw.artifactId with
  | .error error => .error (.adapter (.invalidCoords raw.groupId raw.artifactId error))
  | .ok coords =>
    match raw.version with
    | none => .error (.missingVersion coords.display)
    | some text =>
      match VersionSpec.parse lower text with
      | .error error => .error (.invalidSpec coords.display text error)
      | .ok spec => do
        let (published, snap) ← listVersions lower source snap coords
        let range := specToRange ranges spec
        let preferences := snap.softPreferences coords ++ softPreferencesFor lower spec published
        return ((coords, range, published.filter (ranges.contains range)), { snap with
          softPreferences := Function.update snap.softPreferences coords preferences })

def compileDepForRoot (raw : RawDependency) :
    Except StrictError ((StrictPackage × Range × List Version) × Snapshot Range) := do
  let ((coords, range, declared), snap) ← compileDep lower ranges source snap raw
  return ((.real coords, range, declared), snap)

def compileDepTransitive (raw : RawDependency) :
    Except StrictError (Option (Coords × Range × List Version) × Snapshot Range) := do
  let (compiled, snap) ← compileDep lower ranges source snap raw
  return (some compiled, snap)

def fetchPomVersioned (node : Coords × Version) : Except StrictError (RawPom × Snapshot Range) :=
  let rawVersion := (snap.versionStrings (versionKey node)).getD node.2.original
  match source.fetchPom node.1 rawVersion with
  | .error error => .error (.metadata error)
  | .ok (pom, _) =>
    .ok (pom, { snap with
      versionStrings := orInsert snap.versionStrings (versionKey node) rawVersion })

structure SnapshotBuild (Range : Type) where
  snap : Snapshot Range := {}
  visited : List (Coords × String) := []
  queue : List (Coords × Version) := []

variable (build : SnapshotBuild Range)

def SnapshotBuild.enqueue (coords : Coords) (scope : String)
    (range : Range) (declared : List Version) : SnapshotBuild Range :=
  { build with
    snap := { build.snap with scopes := orInsert build.snap.scopes coords scope }
    queue := build.queue ++
      (declared.filter (ranges.contains range)).map fun version => (coords, version) }

def addRootDep (raw : RawDependency) : Except StrictError (SnapshotBuild Range) :=
  if isImportScope raw then .ok build
  else do
    let ((package, range, declared), snap) ← compileDepForRoot lower ranges source build.snap raw
    let build :=
      { build with snap := { snap with rootDeps := snap.rootDeps ++ [(package, range)] } }
    match package with
    | .root => return build
    | .real coords => return build.enqueue ranges coords (scopeOrDefault raw) range declared

def addTransitiveDep (state : SnapshotBuild Range × List (SnapshotEdge Range))
    (raw : RawDependency) :
    Except StrictError (SnapshotBuild Range × List (SnapshotEdge Range)) :=
  let (build, edges) := state
  if isImportScope raw then .ok state
  else if isOptional raw then .ok state
  else if !propagatesTransitively (scopeOrDefault raw) then .ok state
  else do
    let (compiled, snap) ← compileDepTransitive lower ranges source build.snap raw
    match compiled with
    | none => return ({ build with snap }, edges)
    | some (coords, range, declared) =>
      return (({ build with snap }).enqueue ranges coords (scopeOrDefault raw) range declared,
        edges ++ [(.real coords, range)])

def visitNode (node : Coords × Version) : Except StrictError (SnapshotBuild Range) :=
  if versionKey node ∈ build.visited then .ok build
  else do
    let (pom, snap) ← fetchPomVersioned source build.snap node
    let (build, edges) ← (rawDependencies pom).foldlM (addTransitiveDep lower ranges source)
      ({ build with snap, visited := build.visited ++ [versionKey node] }, [])
    return { build with
      snap := { build.snap with
        dependencies := Function.update build.snap.dependencies (versionKey node) (some edges) } }

def buildQueue : ℕ → SnapshotBuild Range → Option (Except StrictError (Snapshot Range))
  | steps, build =>
    match build.queue with
    | [] => some (.ok build.snap)
    | node :: rest =>
      match steps with
      | 0 => none
      | steps + 1 =>
        match visitNode lower ranges rawDependencies source { build with queue := rest } node with
        | .error error => some (.error error)
        | .ok build' => buildQueue steps build'

def buildSnapshot (steps : ℕ) (rootDependencies : List RawDependency) :
    Option (Except StrictError (Snapshot Range)) :=
  match rootDependencies.foldlM (addRootDep lower ranges source) {} with
  | .error error => some (.error error)
  | .ok build => buildQueue lower ranges rawDependencies source steps build

inductive Dependencies (Range : Type) where
  | unavailable (reason : String)
  | available (constraints : StrictPackage → Option Range)

structure DependencyProvider (Range : Type) where
  chooseVersion : StrictPackage → Range → Option Version
  getDependencies : StrictPackage → Version → Dependencies Range

inductive PubGrubError (Tree : Type) where
  | noSolution (tree : Tree)
  | errorRetrievingDependencies (package : StrictPackage) (version : Version)
  | errorChoosingVersion (package : StrictPackage)
  | errorInShouldCancel

abbrev Solver (Range Tree : Type) : Type := DependencyProvider Range → StrictPackage → Version →
    Except (PubGrubError Tree) (List (StrictPackage × Version))

structure ResolvedStrictDep where
  coords : Coords
  version : String
  scope : String
  deriving DecidableEq

inductive StrictOutcome (Tree : Type) where
  | resolved (deps : Std.ExtTreeMap Coords ResolvedStrictDep)
  | conflict (tree : Tree)

variable {Tree : Type} (solve : Solver Range Tree)

def collectConstraints (edges : List (SnapshotEdge Range)) : StrictPackage → Option Range :=
  edges.foldl (fun constraints edge => Function.update constraints edge.1 (some edge.2))
    fun _ => none

def rootVersion : Version := Version.parse lower "0"

namespace Snapshot

variable (snap : Snapshot Range)

def chooseVersion (package : StrictPackage) (range : Range) : Option Version :=
  match package with
  | .root =>
    if ranges.contains range (rootVersion lower) then some (rootVersion lower)
    else none
  | .real coords =>
    match (snap.softPreferences coords).find? (ranges.contains range) with
    | some version => some version
    | none =>
      match snap.versionsByCoords coords with
      | none => none
      | some published => published.reverse.find? (ranges.contains range)

def getDependencies (package : StrictPackage) (version : Version) : Dependencies Range :=
  match package with
  | .root =>
    if version != rootVersion lower then
      .unavailable "internal: non-singleton root version"
    else .available (collectConstraints snap.rootDeps)
  | .real coords =>
    match snap.dependencies (versionKey (coords, version)) with
    | some edges => .available (collectConstraints edges)
    | none => .unavailable ("no POM in snapshot for " ++ coords.display ++ ":" ++ version.original)

def provider : DependencyProvider Range where
  chooseVersion := snap.chooseVersion lower ranges
  getDependencies := snap.getDependencies lower

def resolvedDep (coords : Coords) (version : Version) : ResolvedStrictDep where
  coords := coords
  version := (snap.versionStrings (versionKey (coords, version))).getD version.original
  scope := (snap.scopes coords).getD "compile"

def collectSelected (selected : List (StrictPackage × Version)) :
    Std.ExtTreeMap Coords ResolvedStrictDep :=
  selected.foldl (fun resolved entry =>
    match entry.1 with
    | .root => resolved
    | .real coords => resolved.insert coords (snap.resolvedDep coords entry.2)) ∅

end Snapshot

def runPubgrub (snap : Snapshot Range) : Except StrictError (StrictOutcome Tree) :=
  match solve (snap.provider lower ranges) .root (rootVersion lower) with
  | .ok selected => .ok (.resolved (snap.collectSelected selected))
  | .error (.noSolution tree) => .ok (.conflict tree)
  | .error (.errorRetrievingDependencies package version) =>
    .error (.adapter (.retrievingDependencies package version.original))
  | .error (.errorChoosingVersion package) => .error (.adapter (.choosingVersion package))
  | .error .errorInShouldCancel => .error (.adapter .shouldCancel)

def resolveStrict (steps : ℕ) (rootDependencies : List RawDependency) :
    Option (Except StrictError (StrictOutcome Tree)) :=
  (buildSnapshot lower ranges rawDependencies source steps rootDependencies).map
    fun snapshot => snapshot.bind (runPubgrub lower ranges solve)

def StrictReturns (rootDependencies : List RawDependency)
    (resolved : Std.ExtTreeMap Coords ResolvedStrictDep) : Prop :=
  ∃ steps, resolveStrict lower ranges rawDependencies source solve steps rootDependencies =
    some (.ok (.resolved resolved))

end Strict

/-!
# What the snapshot holds

The snapshot is described without its queue.  Its nodes are the published versions that the
declarations admit, explored breadth first from the root; its tables are what the source says
about them.
-/

open List Function

variable {Range RawPom : Type}

def rootDeclarations (deps : List RawDependency) : List RawDependency :=
  deps.filter fun raw => !isImportScope raw

def propagated (deps : List RawDependency) : List RawDependency := deps.filter fun raw =>
    !isImportScope raw && !isOptional raw && propagatesTransitively (scopeOrDefault raw)

variable (lower : String → String) (ranges : VersionRanges Range)
  (rawDependencies : RawPom → List RawDependency) (source : MetadataSource RawPom) (coords : Coords)

def publishedTexts : List String :=
  match source.fetchMetadata coords with
  | .ok (metadata, _) => metadata.versions
  | .error _ => []

def publishedVersions : List Version :=
  sortVersions ((publishedTexts source coords).map (Version.parse lower))

def publishedText? (key : Coords × String) : Option String :=
  (publishedTexts source key.1).find? fun text =>
    (Version.parse lower text).canonical == key.2

def reportedText (node : Coords × Version) : String :=
  (publishedText? lower source (versionKey node)).getD node.2.original

variable (raw : RawDependency)

def requirement : Option (Coords × VersionSpec) :=
  match Coords.new raw.groupId raw.artifactId, raw.version with
  | .ok coords, some text =>
    match VersionSpec.parse lower text with
    | .ok spec => some (coords, spec)
    | .error _ => none
  | _, _ => none

def targets : List (Coords × Version) :=
  match requirement lower raw with
  | none => []
  | some (coords, spec) =>
    ((publishedVersions lower source coords).filter
      (ranges.contains (specToRange ranges spec))).map fun version => (coords, version)

def edgeOf : Option (SnapshotEdge Range) :=
  (requirement lower raw).map fun (coords, spec) =>
    (.real coords, specToRange ranges spec)

def preferencesOf : List Version :=
  match requirement lower raw with
  | none => []
  | some (target, spec) =>
    if target = coords then
      softPreferencesFor lower spec (publishedVersions lower source coords)
    else []

def declaredAt (node : Coords × Version) : List RawDependency :=
  match source.fetchPom node.1 (reportedText lower source node) with
  | .ok (pom, _) => propagated (rawDependencies pom)
  | .error _ => []

def snapshotGraph (deps : List RawDependency) : Graph (Coords × Version) (Coords × String) where
  first := (rootDeclarations deps).flatMap (targets lower ranges source)
  next node := (declaredAt lower rawDependencies source node).flatMap (targets lower ranges source)
  key node := some (versionKey node)

def declarations (deps : List RawDependency) (nodes : List (Coords × Version)) :
    List RawDependency :=
  rootDeclarations deps ++ nodes.flatMap (declaredAt lower rawDependencies source)

structure Tables (declared : List RawDependency) (snap : Snapshot Range) : Prop where
  listed : ∀ coords versions, snap.versionsByCoords coords = some versions →
    versions = publishedVersions lower source coords ∧
      ∃ answer, source.fetchMetadata coords = .ok answer
  strings : ∀ key, snap.versionStrings key =
    if (snap.versionsByCoords key.1).isSome then publishedText? lower source key else none
  preferences : ∀ coords,
    snap.softPreferences coords = declared.flatMap (preferencesOf lower source coords)
  compiled : ∀ raw ∈ declared, ∃ coords spec, requirement lower raw = some (coords, spec) ∧
    (snap.versionsByCoords coords).isSome

variable {lower ranges rawDependencies source} {decl deps : List RawDependency}
  {snap snap' : Snapshot Range} {raw : RawDependency} {coords : Coords}
  {build build' : SnapshotBuild Range}

theorem tables_empty : Tables lower source [] ({} : Snapshot Range) where
  listed _ _ found := by cases found
  strings _ := rfl
  preferences _ := rfl
  compiled _ mem := by cases mem

theorem orInsert_apply {κ ν : Type} [DecidableEq κ] (table : κ → Option ν) (key other : κ)
    (val : ν) :
    orInsert table key val other = (table other).or (if other = key then some val else none) := by
  rcases known : table key with _ | _
  all_goals
    by_cases same : other = key
    · subst same
      simp [orInsert, known]
    · simp [orInsert, known, same]

theorem foldl_orInsert_texts (texts : List String) (strings : Coords × String → Option String)
    (key : Coords × String) :
    texts.foldl (fun strings text =>
        orInsert strings (versionKey (coords, Version.parse lower text)) text) strings key =
      (strings key).or (if key.1 = coords then
        texts.find? fun text => (Version.parse lower text).canonical == key.2 else none) := by
  rcases key with ⟨tgt, canonical⟩
  induction texts generalizing strings with
  | nil => simp
  | cons text texts ih =>
    rw [foldl_cons, ih, orInsert_apply, Option.or_assoc]
    congr 1
    by_cases sameCoords : tgt = coords
    · by_cases sameText : (Version.parse lower text).canonical = canonical
      · simp [versionKey, sameCoords, sameText]
      · simp [versionKey, sameCoords, sameText, Ne.symm sameText]
    · simp [versionKey, sameCoords]

structure SameEdges (before after : Snapshot Range) : Prop where
  dependencies : after.dependencies = before.dependencies
  rootDeps : after.rootDeps = before.rootDeps

variable {vers : List Version}

theorem listVersions_ok (tables : Tables lower source decl snap)
    (ran : listVersions lower source snap coords = .ok (vers, snap')) :
    vers = publishedVersions lower source coords ∧
      (snap'.versionsByCoords coords).isSome ∧ SameEdges snap snap' ∧
      Tables lower source decl snap' := by
  unfold listVersions at ran
  rcases known : snap.versionsByCoords coords with _ | _ <;> simp only [known] at ran
  · rcases answered : source.fetchMetadata coords with _ | ans
    · simp only [answered] at ran
      cases ran
    · rcases ans with ⟨metadata, origin⟩
      simp only [answered] at ran
      cases ran
      have texts : publishedTexts source coords = metadata.versions := by
        simp [publishedTexts, answered]
      have vers : publishedVersions lower source coords =
          sortVersions (metadata.versions.map (Version.parse lower)) := by
        rw [publishedVersions, texts]
      refine ⟨vers.symm, by simp, ⟨rfl, rfl⟩, ?_, ?_, tables.preferences, ?_⟩
      · intro other listed found
        dsimp only at found
        by_cases same : other = coords
        · subst same
          rw [update_self, Option.some.injEq] at found
          exact ⟨found.symm.trans vers.symm, _, answered⟩
        · rw [update_of_ne same] at found
          exact tables.listed other listed found
      · intro key
        dsimp only
        rw [foldl_orInsert_texts, tables.strings]
        by_cases same : key.1 = coords
        · simp [same, known, publishedText?, texts]
        · simp [same]
      · intro raw mem
        rcases tables.compiled raw mem with ⟨tgt, spec, requires, listed⟩
        refine ⟨tgt, spec, requires, ?_⟩
        by_cases same : tgt = coords
        · simp [same]
        · simpa [update_of_ne same] using listed
  · cases ran
    exact ⟨(tables.listed coords _ known).1, by simp [known], ⟨rfl, rfl⟩, tables⟩

theorem compileDep_ok {range : Range} (tables : Tables lower source decl snap)
    (ran : compileDep lower ranges source snap raw = .ok ((coords, range, vers), snap')) :
    ∃ spec, requirement lower raw = some (coords, spec) ∧ range = specToRange ranges spec ∧
      vers = (publishedVersions lower source coords).filter (ranges.contains range) ∧
      SameEdges snap snap' ∧ Tables lower source (decl ++ [raw]) snap' := by
  unfold compileDep at ran
  rcases named : Coords.new raw.groupId raw.artifactId with _ | _ <;> simp only [named] at ran
  · cases ran
  · rcases versioned : raw.version with _ | text <;> simp only [versioned] at ran
    · cases ran
    · rcases parsed : VersionSpec.parse lower text with _ | spec <;> simp only [parsed] at ran
      · cases ran
      · rcases bind_eq_ok.mp ran with ⟨⟨pub, mid⟩, listed, ret⟩
        cases ret
        rcases listVersions_ok tables listed with ⟨rfl, isListed, same, tables'⟩
        have requires : requirement lower raw = some (coords, spec) := by
          simp [requirement, named, versioned, parsed]
        refine ⟨spec, requires, rfl, rfl, ⟨same.dependencies, same.rootDeps⟩,
          tables'.listed, tables'.strings, ?_, ?_⟩
        · intro other
          dsimp only
          rw [flatMap_append, flatMap_singleton, ← tables'.preferences other]
          by_cases isTarget : other = coords
          · subst isTarget
            simp [preferencesOf, requires]
          · simp [preferencesOf, requires, update_of_ne isTarget, Ne.symm isTarget]
        · intro other mem
          rcases mem_append.mp mem with old | new
          · exact tables'.compiled other old
          · rw [mem_singleton.mp new]
            exact ⟨coords, spec, requires, isListed⟩

variable (lower ranges source) in
structure Adds (declared added : List RawDependency) (before after : SnapshotBuild Range) :
    Prop where
  tables : Tables lower source (declared ++ added) after.snap
  visited : after.visited = before.visited
  queue : after.queue = before.queue ++ added.flatMap (targets lower ranges source)
  dependencies : after.snap.dependencies = before.snap.dependencies

section Adds

variable {added more : List RawDependency} {pre mid post : SnapshotBuild Range}

theorem Adds.nothing (tables : Tables lower source decl pre.snap) :
    Adds lower ranges source decl [] pre pre where
  tables := by simpa using tables
  visited := rfl
  queue := by simp
  dependencies := rfl

theorem Adds.trans (first : Adds lower ranges source decl added pre mid)
    (second : Adds lower ranges source (decl ++ added) more mid post) :
    Adds lower ranges source decl (added ++ more) pre post where
  tables := by
    rw [← append_assoc]
    exact second.tables
  visited := second.visited.trans first.visited
  queue := by rw [second.queue, first.queue, flatMap_append, append_assoc]
  dependencies := second.dependencies.trans first.dependencies

theorem Tables.congr (tables : Tables lower source decl snap)
    (versionsByCoords : snap'.versionsByCoords = snap.versionsByCoords)
    (versionStrings : snap'.versionStrings = snap.versionStrings)
    (softPreferences : snap'.softPreferences = snap.softPreferences) :
    Tables lower source decl snap' := by
  constructor
  · rw [versionsByCoords]
    exact tables.listed
  · rw [versionsByCoords, versionStrings]
    exact tables.strings
  · rw [softPreferences]
    exact tables.preferences
  · rw [versionsByCoords]
    exact tables.compiled

theorem adds_enqueue {range : Range} (post : Snapshot Range)
    (scope : String) (tables : Tables lower source decl build.snap)
    (ran : compileDep lower ranges source build.snap raw = .ok ((coords, range, vers), snap'))
    (sameTables : post = { snap' with rootDeps := post.rootDeps }) :
    edgeOf lower ranges raw = some (.real coords, range) ∧ Adds lower ranges source decl [raw] build
        ({ build with snap := post }.enqueue ranges coords scope range vers) := by
  rcases compileDep_ok tables ran with ⟨spec, requires, rfl, rfl, same, tables'⟩
  rw [sameTables]
  refine ⟨by simp [edgeOf, requires], tables'.congr rfl rfl rfl, rfl, ?_, same.dependencies⟩
  simp [SnapshotBuild.enqueue, targets, requires]

theorem addRootDep_ok (tables : Tables lower source decl build.snap)
    (ran : addRootDep lower ranges source build raw = .ok build') :
    Adds lower ranges source decl (rootDeclarations [raw]) build build' ∧
      build'.snap.rootDeps = build.snap.rootDeps ++
        (rootDeclarations [raw]).filterMap (edgeOf lower ranges) := by
  unfold addRootDep at ran
  by_cases isImport : isImportScope raw = true
  · rw [if_pos isImport] at ran
    cases ran
    have none : rootDeclarations [raw] = [] := by simp [rootDeclarations, isImport]
    rw [none]
    exact ⟨.nothing tables, by simp⟩
  · rw [if_neg isImport] at ran
    have one : rootDeclarations [raw] = [raw] := by simp [rootDeclarations, isImport]
    rcases bind_eq_ok.mp ran with ⟨⟨⟨package, range, vers⟩, mid⟩, compiled, ret⟩
    rcases bind_eq_ok.mp compiled with ⟨⟨⟨tgt, range', versions'⟩, middle'⟩, compiled, packed⟩
    cases packed
    cases ret
    rw [one]
    rcases adds_enqueue { mid with rootDeps := mid.rootDeps ++ [(.real tgt, range)] }
      (scopeOrDefault raw) tables compiled rfl with ⟨edge, adds⟩
    refine ⟨adds, ?_⟩
    rcases compileDep_ok tables compiled with ⟨-, -, -, -, same, -⟩
    simp [SnapshotBuild.enqueue, edge, same.rootDeps]

variable {edges edges' : List (SnapshotEdge Range)}

theorem addTransitiveDep_ok (tables : Tables lower source decl build.snap)
    (ran : addTransitiveDep lower ranges source (build, edges) raw = .ok (build', edges')) :
    Adds lower ranges source decl (propagated [raw]) build build' ∧
      build'.snap.rootDeps = build.snap.rootDeps ∧
      edges' = edges ++ (propagated [raw]).filterMap (edgeOf lower ranges) := by
  unfold addTransitiveDep at ran
  by_cases takesPart : (!isImportScope raw && !isOptional raw &&
      propagatesTransitively (scopeOrDefault raw)) = true
  · have one : propagated [raw] = [raw] := by simp [propagated, takesPart]
    simp only [Bool.and_eq_true, Bool.not_eq_true'] at takesPart
    simp only [takesPart, Bool.false_eq_true, if_false, Bool.not_true] at ran
    rcases bind_eq_ok.mp ran with ⟨⟨compiled, mid⟩, packed, ret⟩
    rcases bind_eq_ok.mp packed with ⟨⟨⟨tgt, range, vers⟩, middle'⟩, compiledOk, packed⟩
    cases packed
    cases ret
    rw [one]
    rcases adds_enqueue mid (scopeOrDefault raw) tables compiledOk rfl with ⟨edge, adds⟩
    rcases compileDep_ok tables compiledOk with ⟨-, -, -, -, same, -⟩
    exact ⟨adds, same.rootDeps, by simp [edge]⟩
  · have none : propagated [raw] = [] := by simp [propagated, takesPart]
    have skipped : build' = build ∧ edges' = edges := by
      dsimp only at ran
      split at ran
      · cases ran
        exact ⟨rfl, rfl⟩
      · split at ran
        · cases ran
          exact ⟨rfl, rfl⟩
        · split at ran
          · cases ran
            exact ⟨rfl, rfl⟩
          · simp_all
    rcases skipped with ⟨rfl, rfl⟩
    rw [none]
    exact ⟨.nothing tables, rfl, by simp⟩

theorem foldlM_addRootDep_ok (tables : Tables lower source decl build.snap)
    (ran : deps.foldlM (addRootDep lower ranges source) build = .ok build') :
    Adds lower ranges source decl (rootDeclarations deps) build build' ∧
      build'.snap.rootDeps = build.snap.rootDeps ++
        (rootDeclarations deps).filterMap (edgeOf lower ranges) := by
  induction deps generalizing decl build with
  | nil =>
    cases ran
    exact ⟨.nothing tables, by simp [rootDeclarations]⟩
  | cons raw deps ih =>
    rw [foldlM_cons] at ran
    rcases bind_eq_ok.mp ran with ⟨mid, first, rest⟩
    rcases addRootDep_ok tables first with ⟨adds, edges⟩
    rcases ih adds.tables rest with ⟨addsRest, edgesRest⟩
    have split : rootDeclarations (raw :: deps) = rootDeclarations [raw] ++ rootDeclarations deps :=
      filter_append [raw] deps
    rw [split, filterMap_append, ← append_assoc, ← edges]
    exact ⟨adds.trans addsRest, edgesRest⟩

theorem foldlM_addTransitiveDep_ok
    (ran : deps.foldlM (addTransitiveDep lower ranges source) (build, edges) = .ok (build', edges'))
    (tables : Tables lower source decl build.snap) :
    Adds lower ranges source decl (propagated deps) build build' ∧
      build'.snap.rootDeps = build.snap.rootDeps ∧
      edges' = edges ++ (propagated deps).filterMap (edgeOf lower ranges) := by
  induction deps generalizing decl build edges with
  | nil =>
    cases ran
    exact ⟨.nothing tables, rfl, by simp [propagated]⟩
  | cons raw deps ih =>
    rw [foldlM_cons] at ran
    rcases bind_eq_ok.mp ran with ⟨⟨mid, middleEdges⟩, first, rest⟩
    rcases addTransitiveDep_ok tables first with ⟨adds, sameRoot, someEdges⟩
    rcases ih rest adds.tables with ⟨addsRest, sameRootRest, edgesRest⟩
    have split : propagated (raw :: deps) = propagated [raw] ++ propagated deps :=
      filter_append [raw] deps
    rw [split, filterMap_append, ← append_assoc, ← someEdges]
    exact ⟨adds.trans addsRest, sameRootRest.trans sameRoot, edgesRest⟩

end Adds

section Exploration

variable {node : Coords × Version} {done nodes rest : List (Coords × Version)}

variable (lower ranges rawDependencies source) in
structure Holds (deps : List RawDependency) (nodes : List (Coords × Version))
    (snap : Snapshot Range) : Prop where
  tables : Tables lower source (declarations lower rawDependencies source deps nodes) snap
  rootDeps : snap.rootDeps = (rootDeclarations deps).filterMap (edgeOf lower ranges)
  dependencies : ∀ key, snap.dependencies key =
    (nodes.find? fun node => versionKey node == key).map fun node =>
      (declaredAt lower rawDependencies source node).filterMap (edgeOf lower ranges)
  fetched : ∀ node ∈ nodes, ∃ answer,
    source.fetchPom node.1 (reportedText lower source node) = .ok answer

variable (lower ranges rawDependencies source) in
structure Built (deps : List RawDependency) (done nodes : List (Coords × Version))
    (build : SnapshotBuild Range) : Prop where
  progress : (snapshotGraph lower ranges rawDependencies source deps).Progress
    done build.queue nodes
  visited : build.visited = nodes.map versionKey
  holds : Holds lower ranges rawDependencies source deps nodes build.snap

theorem mem_targets : node ∈ targets lower ranges source raw ↔
    ∃ spec, requirement lower raw = some (node.1, spec) ∧
      node.2 ∈ publishedVersions lower source node.1 ∧
      ranges.contains (specToRange ranges spec) node.2 = true := by
  unfold targets
  rcases requires : requirement lower raw with _ | requirement
  · simp
  · rcases requirement with ⟨tgt, spec⟩
    rcases node with ⟨nodeCoords, ver⟩
    simp only [mem_map, mem_filter, Prod.mk.injEq, Option.some.injEq]
    constructor
    · rintro ⟨version', ⟨pub, inRange⟩, rfl, rfl⟩
      exact ⟨spec, ⟨rfl, rfl⟩, pub, inRange⟩
    · rintro ⟨spec', ⟨rfl, rfl⟩, pub, inRange⟩
      exact ⟨ver, ⟨pub, inRange⟩, rfl, rfl⟩

theorem mem_targets_of_mem_graph
    (mem : node ∈ (snapshotGraph lower ranges rawDependencies source deps).first ++
      nodes.flatMap (snapshotGraph lower ranges rawDependencies source deps).next) :
    ∃ raw ∈ declarations lower rawDependencies source deps nodes,
      node ∈ targets lower ranges source raw := by
  rcases mem_append.mp mem with first | next
  · rcases mem_flatMap.mp first with ⟨raw, decl, isTarget⟩
    exact ⟨raw, mem_append_left _ decl, isTarget⟩
  · rcases mem_flatMap.mp next with ⟨parent, parentMem, isNext⟩
    rcases mem_flatMap.mp isNext with ⟨raw, decl, isTarget⟩
    exact ⟨raw, mem_append_right _ (mem_flatMap.mpr ⟨parent, parentMem, decl⟩), isTarget⟩

theorem exists_publishedText? {ver : Version} (pub : ver ∈ publishedVersions lower source coords) :
    ∃ text, publishedText? lower source (versionKey (coords, ver)) = some text := by
  rw [publishedVersions, sortVersions, mem_insertionSort, mem_map] at pub
  rcases pub with ⟨text, listed, rfl⟩
  rw [← Option.isSome_iff_exists, publishedText?, find?_isSome]
  exact ⟨text, listed, by simp [versionKey]⟩

theorem Tables.versionStrings_eq (tables : Tables lower source decl snap)
    (mem : raw ∈ decl) (isTarget : node ∈ targets lower ranges source raw) :
    snap.versionStrings (versionKey node) = some (reportedText lower source node) := by
  rcases mem_targets.mp isTarget with ⟨spec, requires, pub, -⟩
  rcases tables.compiled raw mem with ⟨tgt, spec', requires', listed⟩
  rw [requires, Option.some.injEq, Prod.mk.injEq] at requires'
  rcases exists_publishedText? pub with ⟨text, found⟩
  have isListed : (snap.versionsByCoords (versionKey node).1).isSome := by
    rw [versionKey, requires'.1]
    exact listed
  rw [tables.strings, if_pos isListed, reportedText]
  change publishedText? lower source (versionKey node) = some text at found
  rw [found]
  rfl

theorem fetchPomVersioned_ok {pom : RawPom}
    (strings : snap.versionStrings (versionKey node) = some (reportedText lower source node))
    (ran : fetchPomVersioned source snap node = .ok (pom, snap')) :
    (∃ origin, source.fetchPom node.1 (reportedText lower source node) = .ok (pom, origin)) ∧
      snap' = snap := by
  unfold fetchPomVersioned at ran
  simp only [strings, Option.getD_some] at ran
  rcases answered : source.fetchPom node.1 (reportedText lower source node) with _ | ans
  · simp only [answered] at ran
    cases ran
  · simp only [answered] at ran
    cases ran
    refine ⟨⟨ans.2, rfl⟩, ?_⟩
    simp [orInsert, strings]

theorem visitNode_ok (built : Built lower ranges rawDependencies source deps done nodes
      { build with queue := node :: rest })
    (ran : visitNode lower ranges rawDependencies source { build with queue := rest } node =
      .ok build') :
    ∃ nodes', Built lower ranges rawDependencies source deps (done ++ [node]) nodes' build' := by
  unfold visitNode at ran
  have visited : build.visited = nodes.map versionKey := built.visited
  have key : (snapshotGraph lower ranges rawDependencies source deps).key node =
    some (versionKey node) := rfl
  by_cases known : versionKey node ∈ build.visited
  · rw [if_pos known] at ran
    cases ran
    rw [visited, mem_map] at known
    rcases known with ⟨other, otherMem, sameKey⟩
    exact ⟨nodes, built.progress.known key ⟨other, otherMem, congrArg some sameKey⟩, visited,
      built.holds⟩
  · rw [if_neg known] at ran
    rcases bind_eq_ok.mp ran with ⟨⟨pom, snap⟩, fetched, ran⟩
    rcases bind_eq_ok.mp ran with ⟨⟨mid, edges⟩, added, ret⟩
    cases ret
    have inQueue : node ∈ done ++ node :: rest := by simp
    rw [built.progress.split] at inQueue
    rcases mem_targets_of_mem_graph inQueue with ⟨raw, decl, isTarget⟩
    rcases fetchPomVersioned_ok (built.holds.tables.versionStrings_eq decl isTarget) fetched with
      ⟨⟨origin, answered⟩, rfl⟩
    have declares : declaredAt lower rawDependencies source node =
        propagated (rawDependencies pom) := by
      simp [declaredAt, answered]
    rcases foldlM_addTransitiveDep_ok added built.holds.tables with ⟨adds, sameRoot, edgesEq⟩
    rw [← declares] at adds edgesEq
    have new : ∀ other ∈ nodes, (snapshotGraph lower ranges rawDependencies source deps).key
        other ≠ some (versionKey node) := by
      intro other otherMem sameKey
      apply known
      rw [visited, mem_map]
      exact ⟨other, otherMem, Option.some.inj sameKey⟩
    have declarationsEq : declarations lower rawDependencies source deps (nodes ++ [node]) =
        declarations lower rawDependencies source deps nodes ++
          declaredAt lower rawDependencies source node := by
      simp [declarations]
    refine ⟨nodes ++ [node], ?_, ?_, ?_, ?_, ?_, ?_⟩
    · rw [adds.queue]
      exact built.progress.new key new
    · rw [adds.visited, map_append, ← visited]
      rfl
    · rw [declarationsEq]
      exact adds.tables.congr rfl rfl rfl
    · exact sameRoot.trans built.holds.rootDeps
    · intro wanted
      dsimp only
      rw [adds.dependencies, find?_append]
      by_cases same : wanted = versionKey node
      · subst same
        have absent : nodes.find? (fun other => versionKey other == versionKey node) = none := by
          rw [find?_eq_none]
          intro other otherMem sameKey
          exact new other otherMem (congrArg some (by simpa using sameKey))
        simp [absent, edgesEq]
      · have held := built.holds.dependencies wanted
        dsimp only at held
        rw [update_of_ne same, held]
        simp [Ne.symm same]
    · intro other otherMem
      rcases mem_append.mp otherMem with old | isNode
      · exact built.holds.fetched other old
      · rw [mem_singleton.mp isNode]
        exact ⟨_, answered⟩

theorem Built.finish (built : Built lower ranges rawDependencies source deps done nodes build)
    (empty : build.queue = []) :
    (snapshotGraph lower ranges rawDependencies source deps).IsOrder nodes := by
  have progress := built.progress
  rw [empty] at progress
  exact progress.isOrder

theorem buildQueue_ok {steps : ℕ} {snap : Snapshot Range}
    (built : Built lower ranges rawDependencies source deps done nodes build)
    (ran : buildQueue lower ranges rawDependencies source steps build = some (.ok snap)) :
    ∃ nodes', (snapshotGraph lower ranges rawDependencies source deps).IsOrder nodes' ∧
      Holds lower ranges rawDependencies source deps nodes' snap := by
  induction steps generalizing build done nodes with
  | zero =>
    unfold buildQueue at ran
    rcases pending : build.queue with _ | _ <;> simp only [pending] at ran
    · cases ran
      exact ⟨nodes, built.finish pending, built.holds⟩
    · cases ran
  | succ steps ih =>
    unfold buildQueue at ran
    rcases pending : build.queue with _ | ⟨node, rest⟩ <;> simp only [pending] at ran
    · cases ran
      exact ⟨nodes, built.finish pending, built.holds⟩
    · split at ran
      · cases ran
      · rename_i build' visited
        have pendingBuilt : Built lower ranges rawDependencies source deps done nodes
            { build with queue := node :: rest } := by
          rw [← pending]
          exact built
        rcases visitNode_ok pendingBuilt visited with ⟨nodes', built'⟩
        exact ih built' ran

theorem buildSnapshot_ok {steps : ℕ} {snap : Snapshot Range}
    (ran : buildSnapshot lower ranges rawDependencies source steps deps = some (.ok snap)) :
    ∃ nodes, (snapshotGraph lower ranges rawDependencies source deps).IsOrder nodes ∧
      Holds lower ranges rawDependencies source deps nodes snap := by
  unfold buildSnapshot at ran
  split at ran
  · cases ran
  · rename_i build added
    rcases foldlM_addRootDep_ok tables_empty added with ⟨adds, rootDeps⟩
    have built : Built lower ranges rawDependencies source deps [] [] build := by
      refine ⟨?_, adds.visited, ?_, rootDeps, ?_, ?_⟩
      · rw [adds.queue]
        exact .start
      · simpa [declarations] using adds.tables
      · intro key
        rw [adds.dependencies]
        rfl
      · intro node mem
        cases mem
    exact buildQueue_ok built ran

end Exploration

end Barista.Resolver
