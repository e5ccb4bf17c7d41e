import Barista.Pom.Resolve
import Barista.Resolver.Source

/-!
# The skipper

The skipper decides, in front of a visit, whether the visit may be left out: a known leaf
has nothing to expand, and a coordinate that already won at a smaller depth cannot win
again if the new path excludes at least as much as the winning one did.
-/

namespace Barista.Resolver

section Walk

structure ResolvedDep where
  coords : Coords
  version : String
  scope : Scope
  classifier : Option String
  type : String
  optional : Bool
  depth : ℕ
  winningPath : List Coords
  deriving DecidableEq

abbrev Winners := Std.ExtTreeMap Coords ResolvedDep

structure ExclusionPattern where
  group : String
  artifact : String
  deriving DecidableEq

namespace ExclusionPattern

def new (group artifact : String) : ExclusionPattern where
  group := if group = "" then "*" else group
  artifact := if artifact = "" then "*" else artifact

def matchesCoords (pattern : ExclusionPattern) (coords : Coords) : Bool :=
  (pattern.group == "*" || pattern.group == coords.group) &&
    (pattern.artifact == "*" || pattern.artifact == coords.artifact)

def subsumes (pattern other : ExclusionPattern) : Bool :=
  (pattern.group == "*" || pattern.group == other.group) &&
    (pattern.artifact == "*" || pattern.artifact == other.artifact)

end ExclusionPattern

structure ExclusionSet where
  items : List ExclusionPattern := []
  deriving DecidableEq

namespace ExclusionSet

def insert (set : ExclusionSet) (pattern : ExclusionPattern) : ExclusionSet :=
  { items := set.items.insert pattern }

def fromRaw (raw : List RawExclusion) : ExclusionSet := raw.foldl (fun set exclusion =>
    set.insert (ExclusionPattern.new exclusion.groupId exclusion.artifactId)) {}

def matchesAny (set : ExclusionSet) (coords : Coords) : Bool :=
  set.items.any fun pattern => pattern.matchesCoords coords

def isSupersetOf (set other : ExclusionSet) : Bool :=
  other.items.all fun pattern => set.items.any fun own => own.subsumes pattern

end ExclusionSet

inductive SkipReason where
  | alreadyResolvedShallowerWithCompatibleExclusions (winningDepth newDepth : ℕ)
  | knownLeaf
  deriving DecidableEq

inductive SkipDecision where
  | walk
  | skip (reason : SkipReason)
  deriving DecidableEq

structure SkipperStats where
  skipsAlreadyResolved : ℕ := 0
  skipsKnownLeaf : ℕ := 0
  walks : ℕ := 0
  deriving DecidableEq

structure SkipperState where
  winnersExclusions : Coords → Option ExclusionSet := fun _ => none
  knownLeaves : List Coords := []
  stats : SkipperStats := {}
  enabled : Bool := false

namespace SkipperState

def new : SkipperState :=
  { enabled := true }

def disabled : SkipperState :=
  { enabled := false }

variable (state : SkipperState)

def countWalk : SkipperState :=
  { state with stats := { state.stats with walks := state.stats.walks + 1 } }

def countKnownLeaf : SkipperState :=
  { state with
    stats := { state.stats with skipsKnownLeaf := state.stats.skipsKnownLeaf + 1 } }

def countAlreadyResolved : SkipperState :=
  { state with
    stats := { state.stats with skipsAlreadyResolved := state.stats.skipsAlreadyResolved + 1 } }

def decide (coords : Coords) (depth : ℕ)
    (pathExclusions : ExclusionSet) (winners : Winners) : SkipDecision × SkipperState :=
  if !state.enabled then (.walk, state.countWalk)
  else if coords ∈ state.knownLeaves then (.skip .knownLeaf, state.countKnownLeaf)
  else
    match winners[coords]? with
    | none => (.walk, state.countWalk)
    | some winner =>
      if winner.depth < depth ∧
          pathExclusions.isSupersetOf ((state.winnersExclusions coords).getD {}) then
        (.skip (.alreadyResolvedShallowerWithCompatibleExclusions winner.depth depth),
          state.countAlreadyResolved)
      else (.walk, state.countWalk)

def recordVisit (coords : Coords) (pathExclusions : ExclusionSet) (wasLeaf : Bool) : SkipperState :=
  if !state.enabled then state
  else
    { state with
      winnersExclusions := Function.update state.winnersExclusions coords (some pathExclusions)
      knownLeaves := if wasLeaf then state.knownLeaves.insert coords else state.knownLeaves }

variable {st : SkipperState} {coords : Coords} {depth : ℕ}
  {pathExclusions : ExclusionSet} {winners : Winners}

theorem of_decide_skip {reason : SkipReason}
    (skips : (st.decide coords depth pathExclusions winners).1 = .skip reason) :
    coords ∈ st.knownLeaves ∨ ∃ win, winners[coords]? = some win ∧ win.depth < depth := by
  unfold decide at skips
  split_ifs at skips with _ leaf
  · exact Or.inl leaf
  · right
    rcases found : winners[coords]? with _ | win
    · simp [found] at skips
    · rw [found] at skips
      dsimp only at skips
      split_ifs at skips with shallower
      exact ⟨win, rfl, shallower.1⟩

theorem decide_of_disabled (off : st.enabled = false) :
    st.decide coords depth pathExclusions winners = (.walk, st.countWalk) := by
  simp [decide, off]

@[simp]
theorem knownLeaves_decide :
    (st.decide coords depth pathExclusions winners).2.knownLeaves = st.knownLeaves := by
  unfold decide
  split_ifs
  · rfl
  · rfl
  · rcases winners[coords]? with _ | _
    · rfl
    · dsimp only; split_ifs <;> rfl

@[simp]
theorem enabled_recordVisit (wasLeaf : Bool) :
    (st.recordVisit coords pathExclusions wasLeaf).enabled = st.enabled := by
  unfold recordVisit
  split_ifs <;> rfl

theorem mem_knownLeaves_recordVisit {wasLeaf : Bool} {leaf : Coords}
    (mem : leaf ∈ (st.recordVisit coords pathExclusions wasLeaf).knownLeaves) :
    leaf = coords ∨ leaf ∈ st.knownLeaves := by
  unfold recordVisit at mem
  split_ifs at mem with off wasLeaf
  · exact Or.inr mem
  · exact List.mem_insert_iff.mp mem
  · exact Or.inr mem

end SkipperState

/-!
# Requests of the walker

Version requirements, snapshot versions and effective POMs are resolved with the help of
the metadata source.  All requests go through the session, if there is one, and the
session is the only state that they change.
-/

section Sessions

variable {RawPom ResolvedPom Activation : Type}

abbrev Fetch (RawPom ResolvedPom α : Type) : Type :=
  StateT (Option (OreqSession RawPom ResolvedPom)) (Except WalkError) α

def liftSource {α : Type} (wrap : MetadataError → WalkError) :
    Except MetadataError α → Fetch RawPom ResolvedPom α
  | .ok answer => pure answer
  | .error error => throw (wrap error)

def fetchMetadataViaSession (source : MetadataSource RawPom) (repoId : String)
    (coords : Coords) : Fetch RawPom ResolvedPom GaMetadata := do
  match ← get with
  | none =>
    let answer ← liftSource .metadata (source.fetchMetadata coords)
    return answer.1
  | some session =>
    let key : MetadataKey := { repo := repoId, coords }
    match session.lookupMetadata key with
    | (some metadata, session) =>
      set (some session)
      return metadata
    | (none, session) =>
      let (metadata, origin) ← liftSource .metadata (source.fetchMetadata coords)
      set (some (session.depositMetadata key metadata origin))
      return metadata

def frozenPin (coords : Coords) : Fetch RawPom ResolvedPom (Option String) := do
  return (← get).bind fun session => session.frozenPin coords

def recordFrozenSkip : Fetch RawPom ResolvedPom Unit :=
  modify fun session => session.map OreqSession.recordFrozenSkip

def maxBy {α : Type} (cmp : α → α → Ordering) : List α → Option α
  | [] => none
  | first :: rest =>
    some (rest.foldl (fun best other => if cmp best other = .gt then best else other) first)

variable (lower : String → String)

def intervalContains (intervals : List Interval) (version : String) : Bool :=
  intervals.any fun interval => interval.contains (Version.parse lower version)

def resolveSpec (source : MetadataSource RawPom) (repoId : String) (coords : Coords) :
    VersionSpec → Fetch RawPom ResolvedPom (String × List SpecWarning)
  | .soft version => do
    match ← frozenPin coords with
    | some pin =>
      recordFrozenSkip
      return (pin, [])
    | none => return (version, [])
  | .hard intervals => do
    match (← frozenPin coords).filter (intervalContains lower intervals) with
    | some pin =>
      recordFrozenSkip
      return (pin, [])
    | none =>
      let metadata ← fetchMetadataViaSession source repoId coords
      let inRange := metadata.versions.filter (intervalContains lower intervals)
      match maxBy (fun left right =>
          (Version.parse lower left).cmp (Version.parse lower right)) inRange with
      | some picked => return (picked, [])
      | none => throw (.noMetaVersionCandidate coords.display (.hard intervals))
  | .latest => do
    match ← frozenPin coords with
    | some pin =>
      recordFrozenSkip
      return (pin, [.latestUsed coords.display pin])
    | none =>
      let metadata ← fetchMetadataViaSession source repoId coords
      match metadata.versions.getLast? with
      | some picked => return (picked, [.latestUsed coords.display picked])
      | none => throw (.noMetaVersionCandidate coords.display .latest)
  | .release => do
    match ← frozenPin coords with
    | some pin =>
      recordFrozenSkip
      return (pin, [.releaseUsed coords.display pin])
    | none =>
      let metadata ← fetchMetadataViaSession source repoId coords
      match metadata.versions.reverse.find? fun version =>
          !Text.endsWith version "-SNAPSHOT" with
      | some picked => return (picked, [.releaseUsed coords.display picked])
      | none => throw (.noMetaVersionCandidate coords.display .release)

def resolveSnapshotFetchVersion (source : MetadataSource RawPom) (version : String)
    (coords : Coords) (dep : RawDependency) : Fetch RawPom ResolvedPom String :=
  if !(Version.parse lower version).isSnapshot then return version
  else
    match source.fetchSnapshotInfo coords version with
    | .ok (info, _) =>
      let extension := dep.type.getD "jar"
      match info.pickVersion extension dep.classifier with
      | some timestamped => return timestamped
      | none => throw (.snapshotResolution coords.display version
          (.noEntry extension dep.classifier))
    -- a source without snapshot information is asked for the snapshot itself
    | .error (.metadataNotFound _) => return version
    | .error error => throw (.snapshotResolution coords.display version (.source error))

def fetchPomViaSession (source : MetadataSource RawPom) (wrap : MetadataError → WalkError)
    (coords : Coords) (version : String) : Fetch RawPom ResolvedPom RawPom := do
  match ← get with
  | none =>
    let answer ← liftSource wrap (source.fetchPom coords version)
    return answer.1
  | some session =>
    match session.lookupParentPom { coords, version } with
    | (some pom, session) =>
      set (some session)
      return pom
    | (none, session) =>
      let (pom, _) ← liftSource wrap (source.fetchPom coords version)
      set (some (session.depositParentPom { coords, version } pom))
      return pom

abbrev Chain (RawPom : Type) : Type := RawParent → Option RawPom

def mapParentResolver (chain : Chain RawPom) (parent : RawParent) : Except String RawPom :=
  match chain parent with
  | some pom => .ok pom
  | none => .error ("parent " ++ parent.groupId ++ ":" ++ parent.artifactId ++ ":" ++
      parent.version ++ " not in prefetched chain")

def maxParentPrefetchRounds : ℕ := 64

section Pipeline

variable (pipe : PomPipeline RawPom ResolvedPom Activation)
  (source : MetadataSource RawPom) (activation : Activation)

def fetchParent (group artifact version : String) : Fetch RawPom ResolvedPom RawPom :=
  match Coords.new group artifact with
  | .error error =>
    throw (.parentChainResolution (group ++ ":" ++ artifact) version (.coords error))
  | .ok coords =>
    fetchPomViaSession source
      (fun error => .parentChainResolution coords.display version (.source error))
      coords version

def prefetchFrom : ℕ → Chain RawPom → Option RawParent → Fetch RawPom ResolvedPom (Chain RawPom)
  | 0, chain, _ => return chain
  | _ + 1, chain, none => return chain
  | remaining + 1, chain, some parent =>
    if (chain parent).isSome then return chain
    else do
      let pom ← fetchParent source parent.groupId parent.artifactId parent.version
      prefetchFrom remaining (Function.update chain parent (some pom)) (pipe.parent pom)

def prefetchParentChain (pom : RawPom) : Fetch RawPom ResolvedPom (Chain RawPom) :=
  prefetchFrom pipe source Pom.maxChainDepth (fun _ => none) (pipe.parent pom)

def parseGav (text : String) : Option RawParent :=
  let chars := text.toList
  let group := chars.takeWhile (· != ':')
  match chars.dropWhile (· != ':') with
  | [] => none
  | _ :: rest =>
    let artifact := rest.takeWhile (· != ':')
    match rest.dropWhile (· != ':') with
    | [] => none
    | _ :: version =>
      if group = [] ∨ artifact = [] ∨ version = [] then none
      else some ⟨String.ofList group, String.ofList artifact, String.ofList version⟩

def fetchMissing (coords : Coords) (version : String) (chain : Chain RawPom)
    (missing : String) : Fetch RawPom ResolvedPom (Chain RawPom) :=
  match parseGav missing with
  | none => throw (.effectivePomResolution coords.display version (.unparseableMissing missing))
  | some gav => do
    let pom ← fetchParent source gav.groupId gav.artifactId gav.version
    let extra ← prefetchParentChain pipe source pom
    let chain := Function.update chain gav (some pom)
    return fun parent => (extra parent).or (chain parent)

def resolveRounds (coords : Coords) (version : String) (raw : RawPom) :
    ℕ → Chain RawPom → Fetch RawPom ResolvedPom ResolvedPom
  | 0, _ => throw (.effectivePomResolution coords.display version
      (.notConverged maxParentPrefetchRounds))
  | rounds + 1, chain =>
    match pipe.resolvePom raw (mapParentResolver chain) activation with
    | .ok resolved => return resolved
    | .error (.parentResolution missing) => do
      let chain ← fetchMissing pipe source coords version chain missing
      resolveRounds coords version raw rounds chain
    | .error (.bomImportResolution missing) => do
      let chain ← fetchMissing pipe source coords version chain missing
      resolveRounds coords version raw rounds chain
    | .error error =>
      throw (.effectivePomResolution coords.display version (.pipeline error))

def resolveChildPom (coords : Coords) (version : String) (raw : RawPom) :
    Fetch RawPom ResolvedPom ResolvedPom := do
  let chain ← prefetchParentChain pipe source raw
  resolveRounds pipe source activation coords version raw maxParentPrefetchRounds chain

def fetchResolvedChild (coords : Coords) (version : String) :
    Fetch RawPom ResolvedPom ResolvedPom := do
  match ← get with
  | none =>
    let answer ← liftSource .metadata (source.fetchPom coords version)
    resolveChildPom pipe source activation coords version answer.1
  | some session =>
    match session.lookupEffectivePom { coords, version } with
    | (some resolved, session) =>
      -- the hit also counts as a hit of the raw POM
      set (some (session.lookupParentPom { coords, version }).2)
      return resolved
    | (none, _) =>
      let raw ← fetchPomViaSession source .metadata coords version
      let resolved ← resolveChildPom pipe source activation coords version raw
      modify fun session => session.map fun session =>
        session.depositEffectivePom { coords, version } resolved
      return resolved

end Pipeline

end Sessions

/-!
# The dependency walker

A breadth-first walk over the dependency graph in which the nearest declaration of a
coordinate wins, and among declarations at one depth the first.  One step takes one item
from the queue.  The walk need not end, so it is run for a number of steps.
-/

variable {RawPom ResolvedPom Activation : Type}

structure WalkOptions (RawPom ResolvedPom Activation : Type) where
  stripOptional : Bool := true
  includeScopes : List Scope := []
  activation : Activation
  enableSkipper : Bool := true
  oreq : Option (OreqSession RawPom ResolvedPom) := none
  repoId : String := "default"

structure WorkItem where
  dep : RawDependency
  depth : ℕ
  parentPath : List Coords
  parentScope : Scope
  exclusions : List RawExclusion
  isDirect : Bool
  deriving DecidableEq

structure WalkState (RawPom ResolvedPom : Type) where
  queue : List WorkItem := []
  winners : Winners := ∅
  /-- Coordinates of the winners in the order of their discovery. -/
  order : List Coords := []
  losers : Std.ExtTreeMap Coords (List (String × ℕ)) := ∅
  warnings : List SpecWarning := []
  skipper : SkipperState := {}
  session : Option (OreqSession RawPom ResolvedPom) := none

structure AuditEntry where
  coords : Coords
  winningVersion : String
  winningDepth : ℕ
  alsoSeenAt : List (String × ℕ)
  deriving DecidableEq

structure ResolvedGraph where
  resolved : List ResolvedDep
  winners : Winners
  warnings : List SpecWarning
  audit : List AuditEntry
  skipperStats : SkipperStats
  oreqStats : OreqStats

def matchesAnyExclusion (coords : Coords) (exclusions : List RawExclusion) : Bool :=
  exclusions.any fun exclusion =>
    (exclusion.groupId == "*" || exclusion.groupId == coords.group) &&
      (exclusion.artifactId == "*" || exclusion.artifactId == coords.artifact)

def childDepth (depth : ℕ) : ℕ := min (depth + 1) (2 ^ 32 - 1)

namespace WorkItem

def direct (dep : RawDependency) : WorkItem where
  dep := dep
  depth := 1
  parentPath := []
  parentScope := .compile
  exclusions := []
  isDirect := true

def effectiveScope (item : WorkItem) : Option Scope :=
  let declared := Scope.parse item.dep.scope
  if item.isDirect then if declared = .imported then none else some declared
  else Scope.inherit item.parentScope declared

def child (item : WorkItem) (coords : Coords) (scope : Scope) (dep : RawDependency) : WorkItem where
  dep := dep
  depth := childDepth item.depth
  parentPath := item.parentPath ++ [coords]
  parentScope := scope
  exclusions := item.exclusions ++ item.dep.exclusions
  isDirect := false

def record (item : WorkItem) (coords : Coords) (scope : Scope) (version : String) :
    ResolvedDep where
  coords := coords
  version := version
  scope := scope
  classifier := item.dep.classifier
  type := item.dep.type.getD "jar"
  optional := parseBool item.dep.optional
  depth := item.depth
  winningPath := item.parentPath ++ [coords]

end WorkItem

def visitedDeps (deps : List RawDependency) : List RawDependency :=
  deps.filter fun dep => Scope.parse dep.scope ≠ .imported

namespace WalkState

variable (state : WalkState RawPom ResolvedPom)

def new (enableSkipper : Bool) (session : Option (OreqSession RawPom ResolvedPom)) :
    WalkState RawPom ResolvedPom :=
  { skipper := if enableSkipper then SkipperState.new else SkipperState.disabled, session }

def enqueueDirectDeps (deps : List RawDependency) : WalkState RawPom ResolvedPom :=
  { state with queue := state.queue ++ (visitedDeps deps).map WorkItem.direct }

def addLoser (coords : Coords) (version : String) (depth : ℕ) : WalkState RawPom ResolvedPom :=
  { state with
    losers := state.losers.alter coords fun seen => some (seen.getD [] ++ [(version, depth)]) }

def addSkipped (coords : Coords) (item : WorkItem) : WalkState RawPom ResolvedPom :=
  if coords ∈ state.winners then
    let declared := (item.dep.version.map Text.trim).filter (· ≠ "")
    state.addLoser coords (declared.getD "<unresolved>") item.depth
  else state

def addWinner (dep : ResolvedDep) : WalkState RawPom ResolvedPom :=
  { state with
    order := if dep.coords ∈ state.winners then state.order else state.order ++ [dep.coords]
    winners := state.winners.insert dep.coords dep }

def recordVisit (coords : Coords) (exclusions : List RawExclusion) (wasLeaf : Bool) :
    WalkState RawPom ResolvedPom :=
  { state with
    skipper := state.skipper.recordVisit coords (ExclusionSet.fromRaw exclusions) wasLeaf }

def finish : ResolvedGraph where
  resolved := state.order.filterMap fun coords => state.winners[coords]?
  winners := state.winners
  warnings := state.warnings
  audit := (state.winners.toList.map fun (_, winner) =>
    { coords := winner.coords
      winningVersion := winner.version
      winningDepth := winner.depth
      alsoSeenAt := state.losers[winner.coords]?.getD [] : AuditEntry }).mergeSort
        fun left right => (compare left.coords right.coords).isLE
  skipperStats := state.skipper.stats
  oreqStats := (state.session.map OreqSession.stats).getD {}

end WalkState

section Walk

variable (lower : String → String)
  (pipe : PomPipeline RawPom ResolvedPom Activation) (source : MetadataSource RawPom)
  (opts : WalkOptions RawPom ResolvedPom Activation)

def resolveVersion (coords : Coords) (dep : RawDependency) :
    Fetch RawPom ResolvedPom (String × String × List SpecWarning) :=
  match dep.version.filter (Text.trim · ≠ "") with
  | none => throw (.missingVersion coords.display)
  | some raw =>
    match VersionSpec.parse lower raw with
    | .error error => throw (.invalidSpec coords.display raw error)
    | .ok spec => do
      let (version, warnings) ← resolveSpec lower source opts.repoId coords spec
      let fetchVersion ← resolveSnapshotFetchVersion lower source version coords dep
      return (version, fetchVersion, warnings)

variable (state : WalkState RawPom ResolvedPom) (item : WorkItem)

def expand (coords : Coords) (scope : Scope) (version fetchVersion : String) :
    Except WalkError (WalkState RawPom ResolvedPom) :=
  let state := state.addWinner (item.record coords scope version)
  if scope = .system then .ok (state.recordVisit coords item.exclusions true)
  else do
    let (resolved, session) ←
      (fetchResolvedChild pipe source opts.activation coords fetchVersion).run state.session
    let children := (visitedDeps (pipe.dependencies resolved)).map (item.child coords scope)
    let state := { state with session, queue := state.queue ++ children }
    return state.recordVisit coords item.exclusions children.isEmpty

def nearestWins (coords : Coords) (scope : Scope) (version fetchVersion : String) :
    Except WalkError (WalkState RawPom ResolvedPom) :=
  match state.winners[coords]? with
  | none => expand pipe source opts state item coords scope version fetchVersion
  | some existing =>
    if existing.depth ≤ item.depth then .ok (state.addLoser coords version item.depth)
    else
      -- a displaced winner becomes a loser
      expand pipe source opts (state.addLoser coords existing.version existing.depth)
        item coords scope version fetchVersion

def visit (coords : Coords) : Except WalkError (WalkState RawPom ResolvedPom) :=
  match item.effectiveScope with
  | none => .ok state
  | some scope =>
    if parseBool item.dep.optional && !item.isDirect && opts.stripOptional then .ok state
    else do
      let ((version, fetchVersion, warnings), session) ←
        (resolveVersion lower source opts coords item.dep).run state.session
      nearestWins pipe source opts { state with session, warnings := state.warnings ++ warnings }
        item coords scope version fetchVersion

def processItem : Except WalkError (WalkState RawPom ResolvedPom) :=
  match Coords.new item.dep.groupId item.dep.artifactId with
  | .error error => .error (.invalidCoords item.dep.groupId item.dep.artifactId error)
  | .ok coords =>
    if matchesAnyExclusion coords item.exclusions then .ok state
    else
      let (decision, skipper) := state.skipper.decide coords item.depth
        (ExclusionSet.fromRaw item.exclusions) state.winners
      let state := { state with skipper }
      match decision with
      | .skip _ => .ok (state.addSkipped coords item)
      | .walk => visit lower pipe source opts state item coords

def runQueue : ℕ → WalkState RawPom ResolvedPom →
    Option (Except WalkError (WalkState RawPom ResolvedPom))
  | steps, state =>
    match state.queue with
    | [] => some (.ok state)
    | item :: rest =>
      match steps with
      | 0 => none
      | steps + 1 =>
        match processItem lower pipe source opts { state with queue := rest } item with
        | .error error => some (.error error)
        | .ok state' => runQueue steps state'

def walk (steps : ℕ) (root : ResolvedPom) : Option (Except WalkError ResolvedGraph) :=
  (runQueue lower pipe source opts steps
    ((WalkState.new opts.enableSkipper opts.oreq).enqueueDirectDeps
      (pipe.dependencies root))).map (Except.map WalkState.finish)

/-- The walk ends after finitely many steps, with this result. -/
def WalkReturns (root : ResolvedPom) (result : Except WalkError ResolvedGraph) : Prop :=
  ∃ steps, walk lower pipe source opts steps root = some result

section Equations

variable {lower pipe source opts} {state : WalkState RawPom ResolvedPom}

theorem runQueue_of_nil (steps : ℕ) (done : state.queue = []) :
    runQueue lower pipe source opts steps state = some (.ok state) := by
  unfold runQueue
  rw [done]

theorem runQueue_zero_of_cons {item : WorkItem} {rest : List WorkItem}
    (pending : state.queue = item :: rest) :
    runQueue lower pipe source opts 0 state = none := by
  unfold runQueue
  rw [pending]

theorem runQueue_succ_of_cons (steps : ℕ) {item : WorkItem} {rest : List WorkItem}
    (pending : state.queue = item :: rest) :
    runQueue lower pipe source opts (steps + 1) state =
      match processItem lower pipe source opts { state with queue := rest } item with
      | .error err => some (.error err)
      | .ok st' => runQueue lower pipe source opts steps st' := by
  rw [runQueue, pending]

theorem runQueue_mono {steps more : ℕ} (le : steps ≤ more)
    {out : Except WalkError (WalkState RawPom ResolvedPom)}
    (ended : runQueue lower pipe source opts steps state = some out) :
    runQueue lower pipe source opts more state = some out := by
  induction steps generalizing state more with
  | zero =>
    rcases pending : state.queue with _ | _
    · rw [runQueue_of_nil _ pending] at ended ⊢
      exact ended
    · rw [runQueue_zero_of_cons pending] at ended
      contradiction
  | succ steps ih =>
    rcases pending : state.queue with _ | _
    · rw [runQueue_of_nil _ pending] at ended ⊢
      exact ended
    · cases more with
      | zero => omega
      | succ more =>
        rw [runQueue_succ_of_cons _ pending] at ended ⊢
        split at ended
        · exact ended
        · exact ih (by omega) ended

theorem runQueue_congr {other : WalkOptions RawPom ResolvedPom Activation}
    (sameStep : processItem lower pipe source opts =
      processItem lower pipe source other) (steps : ℕ) (state : WalkState RawPom ResolvedPom) :
    runQueue lower pipe source opts steps state = runQueue lower pipe source other steps state := by
  induction steps generalizing state with
  | zero =>
    unfold runQueue
    rfl
  | succ steps ih =>
    unfold runQueue
    simp only [sameStep, ih]

theorem walkReturns_unique {root : ResolvedPom} {first second : Except WalkError ResolvedGraph}
    (firstReturned : WalkReturns lower pipe source opts root first)
    (secondReturned : WalkReturns lower pipe source opts root second) :
    first = second := by
  rcases firstReturned with ⟨steps, walked⟩
  rcases secondReturned with ⟨steps', walked'⟩
  rcases Option.map_eq_some_iff.mp walked with ⟨out, ran, rfl⟩
  rcases Option.map_eq_some_iff.mp walked' with ⟨result', ran', rfl⟩
  have longer := runQueue_mono (le_max_left steps steps') ran
  have longer' := runQueue_mono (le_max_right steps steps') ran'
  rw [longer, Option.some.injEq] at longer'
  rw [longer']

end Equations

end Walk

def exampleDep (artifact version : String) : RawDependency :=
  { groupId := "org.example", artifactId := artifact, version := some version }

def plainPipeline : PomPipeline (List RawDependency) (List RawDependency) Unit where
  parent := fun _ => none
  dependencies := id
  resolvePom := fun raw _ _ => .ok raw

def diamondSource : MetadataSource (List RawDependency) where
  fetchPom := fun coords version =>
    if coords.artifact = "a" then .ok ([exampleDep "c" "1.0"], .fixture)
    else if coords.artifact = "b" then .ok ([exampleDep "c" "2.0"], .fixture)
    else if coords.artifact = "c" then .ok ([], .fixture)
    else .error (.notFound coords.display version)
  fetchMetadata := fun coords => .error (.metadataNotFound coords.display)
  fetchSnapshotInfo := fun coords _ => .error (.metadataNotFound coords.display)

def diamondRoot : List RawDependency := [exampleDep "a" "1.0", exampleDep "b" "1.0"]

theorem walkReturns_diamond :
    ∃ graph, graph.resolved.map (fun dep => (dep.coords.artifact, dep.version)) =
        [("a", "1.0"), ("b", "1.0"), ("c", "1.0")] ∧
      WalkReturns Version.asciiLowercase plainPipeline diamondSource
        { activation := (), enableSkipper := false } diamondRoot (.ok graph) := by
  have res : ((walk Version.asciiLowercase plainPipeline diamondSource
      { activation := (), enableSkipper := false } 4 diamondRoot).map
        fun out => out.toOption.map fun graph =>
          graph.resolved.map fun dep => (dep.coords.artifact, dep.version)) =
      some (some [("a", "1.0"), ("b", "1.0"), ("c", "1.0")]) := by decide +kernel
  rcases Option.map_eq_some_iff.mp res with ⟨out, walked, answered⟩
  rcases out with _ | graph
  · cases answered
  · exact ⟨graph, Option.some.inj answered, 4, walked⟩

end Walk

/-!
# The two readings of exclusions

The walker compares the texts of an exclusion as they are; the skipper reads an empty one as a
wildcard. They agree on all coordinates if and only if a complete exclusion covers each one with an
empty text.
-/

open List

namespace RawExclusion

def IsComplete (exclusion : RawExclusion) : Prop :=
  exclusion.groupId ≠ "" ∧ exclusion.artifactId ≠ ""

def pattern (exclusion : RawExclusion) : ExclusionPattern :=
  .new exclusion.groupId exclusion.artifactId

theorem pattern_eq_of_isComplete {excl : RawExclusion} (complete : excl.IsComplete) :
    excl.pattern = ⟨excl.groupId, excl.artifactId⟩ := by
  simp [pattern, ExclusionPattern.new, complete.1, complete.2]

end RawExclusion

/-- Each exclusion with an empty text is covered by one without. -/
def EmptyTextsCovered (raw : List RawExclusion) : Prop :=
  ∀ exclusion ∈ raw, ¬ exclusion.IsComplete →
    ∃ cover ∈ raw, cover.IsComplete ∧ cover.pattern.subsumes exclusion.pattern

variable {raw : List RawExclusion} {coords : Coords}

theorem mem_fromRaw (raw : List RawExclusion) (pattern : ExclusionPattern) :
    pattern ∈ (ExclusionSet.fromRaw raw).items ↔ ∃ excl ∈ raw, excl.pattern = pattern := by
  induction raw using List.reverseRecOn with
  | nil => simp [ExclusionSet.fromRaw]
  | append_singleton raw last ih =>
    have step : ExclusionSet.fromRaw (raw ++ [last]) =
        (ExclusionSet.fromRaw raw).insert last.pattern := by
      simp [ExclusionSet.fromRaw, RawExclusion.pattern]
    rw [step, ExclusionSet.insert, mem_insert_iff, ih]
    constructor
    · rintro (rfl | ⟨excl, mem, rfl⟩)
      · exact ⟨last, by simp, rfl⟩
      · exact ⟨excl, mem_append_left _ mem, rfl⟩
    · rintro ⟨excl, mem, rfl⟩
      rcases mem_append.mp mem with prior | isLast
      · exact .inr ⟨excl, prior, rfl⟩
      · rw [mem_singleton.mp isLast]
        exact .inl rfl

theorem fromRaw_matchesAny_iff : (ExclusionSet.fromRaw raw).matchesAny coords ↔
      ∃ excl ∈ raw, excl.pattern.matchesCoords coords := by
  simp only [ExclusionSet.matchesAny, any_eq_true, mem_fromRaw]
  constructor
  · rintro ⟨_, ⟨excl, mem, rfl⟩, hit⟩
    exact ⟨excl, mem, hit⟩
  · rintro ⟨excl, mem, hit⟩
    exact ⟨_, ⟨excl, mem, rfl⟩, hit⟩

theorem matchesAnyExclusion_iff : matchesAnyExclusion coords raw ↔ ∃ excl ∈ raw,
      (⟨excl.groupId, excl.artifactId⟩ : ExclusionPattern).matchesCoords coords := by
  simp [matchesAnyExclusion, ExclusionPattern.matchesCoords]

theorem ExclusionPattern.matchesCoords_of_subsumes {pattern other : ExclusionPattern}
    (subsumes : pattern.subsumes other) (hit : other.matchesCoords coords) :
    pattern.matchesCoords coords := by
  simp only [ExclusionPattern.subsumes, ExclusionPattern.matchesCoords, Bool.and_eq_true,
    Bool.or_eq_true, beq_iff_eq] at subsumes hit ⊢
  grind

/-- Every exclusion the walker applies is one for the skipper too. -/
theorem matchesAny_of_matchesAnyExclusion (excluded : matchesAnyExclusion coords raw) :
    (ExclusionSet.fromRaw raw).matchesAny coords := by
  obtain ⟨excl, mem, hit⟩ := matchesAnyExclusion_iff.mp excluded
  refine fromRaw_matchesAny_iff.mpr ⟨excl, mem, ?_⟩
  refine ExclusionPattern.matchesCoords_of_subsumes ?_ hit
  simp only [ExclusionPattern.subsumes, RawExclusion.pattern, ExclusionPattern.new,
    Bool.and_eq_true,
    Bool.or_eq_true, beq_iff_eq]
  grind

theorem matchesAnyExclusion_of_emptyTextsCovered (covered : EmptyTextsCovered raw)
    (excluded : (ExclusionSet.fromRaw raw).matchesAny coords) : matchesAnyExclusion coords raw := by
  obtain ⟨excl, mem, hit⟩ := fromRaw_matchesAny_iff.mp excluded
  obtain ⟨cover, isMember, complete, subsumes⟩ : ∃ cover ∈ raw, cover.IsComplete ∧
      cover.pattern.subsumes excl.pattern := by
    by_cases complete : excl.IsComplete
    · exact ⟨excl, mem, complete, by simp [ExclusionPattern.subsumes]⟩
    · exact covered excl mem complete
  have covers := ExclusionPattern.matchesCoords_of_subsumes subsumes hit
  rw [RawExclusion.pattern_eq_of_isComplete complete] at covers
  exact matchesAnyExclusion_iff.mpr ⟨cover, isMember, covers⟩

/-- A text that the pattern text matches; a wildcard matches one that no exclusion mentions. -/
def probe (fresh text : String) : String :=
  if text = "*" then fresh else text

namespace ExclusionPattern

variable {own other : ExclusionPattern} {fresh : String}

theorem matchesCoords_probe (other : ExclusionPattern) (fresh : String) :
    other.matchesCoords ⟨probe fresh other.group, probe fresh other.artifact⟩ := by
  simp only [matchesCoords, probe, Bool.and_eq_true, Bool.or_eq_true, beq_iff_eq]
  grind

theorem subsumes_of_probe (unused : own.group ≠ fresh ∧ own.artifact ≠ fresh)
    (hit : own.matchesCoords ⟨probe fresh other.group, probe fresh other.artifact⟩) :
    own.subsumes other := by
  simp only [matchesCoords, subsumes, probe, Bool.and_eq_true, Bool.or_eq_true, beq_iff_eq] at hit ⊢
  grind

theorem exists_fresh (patterns : List ExclusionPattern) :
    ∃ fresh, ∀ own ∈ patterns, own.group ≠ fresh ∧ own.artifact ≠ fresh := by
  have : Infinite String := .of_injective String.ofList fun _ _ => String.ofList_inj.mp
  rcases Infinite.exists_notMem_finset
    (patterns.flatMap fun own => [own.group, own.artifact]).toFinset with ⟨fresh, unused⟩
  simp only [mem_toFinset, mem_flatMap, not_exists, not_and] at unused
  exact ⟨fresh, fun own mem => by simpa [eq_comm] using unused own mem⟩

end ExclusionPattern

theorem emptyTextsCovered_of_agree
    (agree : ∀ coords,
      matchesAnyExclusion coords raw = (ExclusionSet.fromRaw raw).matchesAny coords) :
    EmptyTextsCovered raw := by
  intro excl mem _
  rcases ExclusionPattern.exists_fresh (raw.map fun excl => ⟨excl.groupId, excl.artifactId⟩) with
    ⟨fresh, unused⟩
  have excluded := fromRaw_matchesAny_iff.mpr ⟨excl, mem, excl.pattern.matchesCoords_probe fresh⟩
  rw [← agree] at excluded
  rcases matchesAnyExclusion_iff.mp excluded with ⟨cover, isMember, hit⟩
  have covers := ExclusionPattern.subsumes_of_probe (unused _ (mem_map_of_mem isMember)) hit
  have complete : cover.IsComplete := by
    simp only [ExclusionPattern.subsumes, RawExclusion.pattern, ExclusionPattern.new,
      Bool.and_eq_true, Bool.or_eq_true, beq_iff_eq] at covers
    unfold RawExclusion.IsComplete
    grind
  refine ⟨cover, isMember, complete, ?_⟩
  rw [RawExclusion.pattern_eq_of_isComplete complete]
  exact covers

/-- The two matchers agree exactly if every empty text is covered. -/
theorem exclusion_matchers_agree_iff (raw : List RawExclusion) :
    (∀ coords, matchesAnyExclusion coords raw = (ExclusionSet.fromRaw raw).matchesAny coords) ↔
      EmptyTextsCovered raw := by
  refine ⟨emptyTextsCovered_of_agree, fun covered coords => Bool.eq_iff_iff.mpr ?_⟩
  exact ⟨matchesAny_of_matchesAnyExclusion, matchesAnyExclusion_of_emptyTextsCovered covered⟩

/-- The superset test of the skipper is exact: no finite set of other patterns covers a wildcard. -/
theorem isSupersetOf_iff (set other : ExclusionSet) :
    set.isSupersetOf other ↔ ∀ coords, other.matchesAny coords → set.matchesAny coords := by
  simp only [ExclusionSet.isSupersetOf, ExclusionSet.matchesAny, all_eq_true, any_eq_true]
  constructor
  · rintro covered coords ⟨pattern, mem, hit⟩
    rcases covered pattern mem with ⟨own, isMember, subsumes⟩
    exact ⟨own, isMember, ExclusionPattern.matchesCoords_of_subsumes subsumes hit⟩
  · intro matched pattern mem
    rcases ExclusionPattern.exists_fresh set.items with ⟨fresh, unused⟩
    rcases matched _ ⟨pattern, mem, pattern.matchesCoords_probe fresh⟩ with ⟨own, isMember, hit⟩
    exact ⟨own, isMember, ExclusionPattern.subsumes_of_probe (unused own isMember) hit⟩

/-- The skipper excludes artifact `a` of every group, the walker none. -/
theorem exclusion_matchers_differ_on_empty : ¬ matchesAnyExclusion ⟨"g", "a"⟩ [⟨"", "a"⟩] ∧
      (ExclusionSet.fromRaw [⟨"", "a"⟩]).matchesAny ⟨"g", "a"⟩ := by
  decide

end Barista.Resolver
