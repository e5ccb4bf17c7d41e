import Barista.FirstByKey
import Barista.Resolver.SessionTransparency

/-!
# The frontier of the walk

What one step does to the queue and to the winners, and the invariant that makes the walk
breadth-first: the queue is ordered by depth, it spans at most two neighbouring depths, and
no winner lies deeper than an item that is still to come.
-/

namespace Barista.Resolver

section Frontier

open List

variable {RawPom ResolvedPom Activation : Type}

structure SameGraph (before after : WalkState RawPom ResolvedPom) : Prop where
  queue : after.queue = before.queue
  winners : after.winners = before.winners
  order : after.order = before.order

structure Wins (item : WorkItem) (coords : Coords) (before after : WalkState RawPom ResolvedPom) :
    Prop where
  nearer : ∀ existing, before.winners[coords]? = some existing → item.depth < existing.depth
  expanded : ∃ scope version, ∃ deps : List RawDependency, item.effectiveScope = some scope ∧
    after.winners = before.winners.insert coords (item.record coords scope version) ∧
    after.order = (if coords ∈ before.winners then before.order else before.order ++ [coords]) ∧
    after.queue = before.queue ++ deps.map (item.child coords scope)

section Steps

variable {lower : String → String}
  {pipe : PomPipeline RawPom ResolvedPom Activation} {src : MetadataSource RawPom}
  {opts : WalkOptions RawPom ResolvedPom Activation} {item : WorkItem} {coords : Coords}
  {st st' : WalkState RawPom ResolvedPom}

theorem sameGraph_addSkipped : SameGraph st (st.addSkipped coords item) := by
  rw [WalkState.addSkipped]
  split
  · exact ⟨rfl, rfl, rfl⟩
  · exact ⟨rfl, rfl, rfl⟩

theorem expand_ok {scope : Scope} {ver fetch : String}
    (ret : expand pipe src opts st item coords scope ver fetch = .ok st') :
    ∃ deps : List RawDependency,
      st'.winners = st.winners.insert coords (item.record coords scope ver) ∧
      st'.order = (if coords ∈ st.winners then st.order else st.order ++ [coords]) ∧
      st'.queue = st.queue ++ deps.map (item.child coords scope) := by
  unfold expand at ret
  split at ret
  · cases ret
    exact ⟨[], rfl, rfl, (append_nil _).symm⟩
  · dsimp only at ret
    generalize (fetchResolvedChild pipe src opts.activation coords fetch).run
      (st.addWinner (item.record coords scope ver)).session = fetched at ret
    rcases fetched with _ | _
    · cases ret
    · cases ret
      exact ⟨_, rfl, rfl, rfl⟩

theorem nearestWins_ok {scope : Scope} {ver fetch : String}
    (hasScope : item.effectiveScope = some scope)
    (ret : nearestWins pipe src opts st item coords scope ver fetch = .ok st') :
    SameGraph st st' ∨ Wins item coords st st' := by
  unfold nearestWins at ret
  rcases found : st.winners[coords]? with _ | _ <;> rw [found] at ret
  · rcases expand_ok ret with ⟨deps, winners, order, queue⟩
    right
    refine ⟨?_, scope, ver, deps, hasScope, winners, order, queue⟩
    intro existing found'
    rw [found] at found'
    contradiction
  · dsimp only at ret
    split at ret
    · cases ret
      exact Or.inl ⟨rfl, rfl, rfl⟩
    case isFalse deeper =>
      rcases expand_ok ret with ⟨deps, winners, order, queue⟩
      right
      refine ⟨?_, scope, ver, deps, hasScope, winners, order, queue⟩
      intro existing' found'
      rw [found, Option.some.injEq] at found'
      rw [← found']
      omega

theorem nearestWins_of_le {win : ResolvedDep} (found : st.winners[coords]? = some win)
    (nearer : win.depth ≤ item.depth) (scope : Scope) (ver fetch : String) :
    nearestWins pipe src opts st item coords scope ver fetch =
      .ok (st.addLoser coords ver item.depth) := by
  unfold nearestWins
  rw [found]
  exact if_pos nearer

theorem visit_ok (ret : visit lower pipe src opts st item coords = .ok st') :
    SameGraph st st' ∨ Wins item coords st st' := by
  unfold visit at ret
  rcases hasScope : item.effectiveScope with _ | _ <;> rw [hasScope] at ret
  · cases ret
    exact Or.inl ⟨rfl, rfl, rfl⟩
  · dsimp only at ret
    split at ret
    · cases ret
      exact Or.inl ⟨rfl, rfl, rfl⟩
    · generalize (resolveVersion lower src opts coords item.dep).run st.session = res at ret
      rcases res with _ | _
      · cases ret
      · rcases nearestWins_ok hasScope ret with same | ⟨nearer, expanded⟩
        · exact Or.inl ⟨same.queue, same.winners, same.order⟩
        · exact Or.inr ⟨nearer, expanded⟩

theorem processItem_ok (ret : processItem lower pipe src opts st item = .ok st') :
    SameGraph st st' ∨ ∃ coords, Coords.new item.dep.groupId item.dep.artifactId = .ok coords ∧
        matchesAnyExclusion coords item.exclusions = false ∧ Wins item coords st st' := by
  unfold processItem at ret
  rcases identity : Coords.new item.dep.groupId item.dep.artifactId with _ | coords
  · rw [identity] at ret
    cases ret
  · rw [identity] at ret
    dsimp only at ret
    split at ret
    · cases ret
      exact Or.inl ⟨rfl, rfl, rfl⟩
    case isFalse included =>
      split at ret
      · cases ret
        rcases sameGraph_addSkipped with ⟨queue, winners, order⟩
        exact Or.inl ⟨queue, winners, order⟩
      · rcases visit_ok ret with same | ⟨nearer, expanded⟩
        · exact Or.inl ⟨same.queue, same.winners, same.order⟩
        · exact Or.inr ⟨coords, rfl, by simpa using included, nearer, expanded⟩

end Steps

structure Layered (winners : Winners) (queue : List WorkItem) : Prop where
  bounded : ∀ item ∈ queue, item.depth < 2 ^ 32
  sorted : queue.Pairwise fun first second => first.depth ≤ second.depth
  near : ∀ first ∈ queue, ∀ second ∈ queue, second.depth ≤ childDepth first.depth
  below : ∀ (coords : Coords) (winner : ResolvedDep), winners[coords]? = some winner →
    ∀ item ∈ queue, winner.depth ≤ item.depth

theorem childDepth_mono {first second : ℕ} (le : first ≤ second) :
    childDepth first ≤ childDepth second := by
  unfold childDepth
  omega

theorem le_childDepth {depth : ℕ} (bounded : depth < 2 ^ 32) : depth ≤ childDepth depth := by
  unfold childDepth
  omega

theorem childDepth_lt (depth : ℕ) : childDepth depth < 2 ^ 32 := by
  unfold childDepth
  omega

theorem Layered.tail {winners : Winners} {item : WorkItem} {rest : List WorkItem}
    (layered : Layered winners (item :: rest)) : Layered winners rest where
  bounded := fun other mem => layered.bounded other (mem_cons_of_mem _ mem)
  sorted := (pairwise_cons.mp layered.sorted).2
  near := fun first firstMem second secondMem =>
    layered.near first (mem_cons_of_mem _ firstMem) second (mem_cons_of_mem _ secondMem)
  below := fun coords win found other mem =>
    layered.below coords win found other (mem_cons_of_mem _ mem)

theorem Layered.expand {winners : Winners} {item : WorkItem} {rest children : List WorkItem}
    (layered : Layered winners (item :: rest)) (coords : Coords) {dep : ResolvedDep}
    (depDepth : dep.depth = item.depth)
    (childrenDepth : ∀ child ∈ children, child.depth = childDepth item.depth) :
    Layered (winners.insert coords dep) (rest ++ children) := by
  have ahead : ∀ other ∈ rest, item.depth ≤ other.depth := (pairwise_cons.mp layered.sorted).1
  have behind : ∀ other ∈ rest, other.depth ≤ childDepth item.depth :=
    fun other mem => layered.near item mem_cons_self other (mem_cons_of_mem _ mem)
  have itemBounded := layered.bounded item mem_cons_self
  have saturates : childDepth item.depth ≤ childDepth (childDepth item.depth) :=
    le_childDepth (childDepth_lt item.depth)
  refine ⟨?_, ?_, ?_, ?_⟩
  · intro other mem
    rcases mem_append.mp mem with old | new
    · exact layered.tail.bounded other old
    · rw [childrenDepth other new]
      exact childDepth_lt item.depth
  · rw [pairwise_append]
    refine ⟨layered.tail.sorted, ?_, ?_⟩
    · rw [pairwise_iff_forall_sublist]
      intro first second sublist
      have members := sublist.subset
      rw [childrenDepth first (members (by simp)), childrenDepth second (members (by simp))]
    · intro first firstMem second secondMem
      rw [childrenDepth second secondMem]
      exact behind first firstMem
  · intro first firstMem second secondMem
    rcases mem_append.mp firstMem with firstOld | firstNew
    · rcases mem_append.mp secondMem with secondOld | secondNew
      · exact layered.tail.near first firstOld second secondOld
      · rw [childrenDepth second secondNew]
        exact childDepth_mono (ahead first firstOld)
    · rw [childrenDepth first firstNew]
      rcases mem_append.mp secondMem with secondOld | secondNew
      · exact (behind second secondOld).trans saturates
      · rw [childrenDepth second secondNew]
        exact saturates
  · intro coords' win found other mem
    have reached : win.depth ≤ item.depth := by
      rw [Std.ExtTreeMap.getElem?_insert] at found
      split at found
      · cases found
        exact depDepth.le
      · exact layered.below coords' win found item mem_cons_self
    rcases mem_append.mp mem with old | new
    · exact reached.trans (ahead other old)
    · rw [childrenDepth other new]
      exact reached.trans (le_childDepth itemBounded)

theorem Layered.step {lower : String → String}
    {pipe : PomPipeline RawPom ResolvedPom Activation} {src : MetadataSource RawPom}
    {opts : WalkOptions RawPom ResolvedPom Activation} {item : WorkItem}
    {st st' : WalkState RawPom ResolvedPom} (layered : Layered st.winners (item :: st.queue))
    (ret : processItem lower pipe src opts st item = .ok st') :
    Layered st'.winners st'.queue := by
  rcases processItem_ok ret with same | ⟨coords, -, -, -, expanded⟩
  · rw [same.winners, same.queue]
    exact layered.tail
  · rcases expanded with ⟨scope, ver, deps, -, winners, -, queue⟩
    rw [winners, queue]
    apply layered.expand coords
    · rfl
    · intro child mem
      rcases mem_map.mp mem with ⟨dep, -, rfl⟩
      rfl

theorem layered_direct (deps : List RawDependency) : Layered ∅ (deps.map WorkItem.direct) where
  bounded := by
    intro item mem
    rcases mem_map.mp mem with ⟨dep, -, rfl⟩
    change 1 < 2 ^ 32
    norm_num
  sorted := by
    rw [pairwise_map]
    exact pairwise_of_forall fun _ _ => le_refl _
  near := by
    intro first firstMem second secondMem
    rcases mem_map.mp firstMem with ⟨dep, -, rfl⟩
    rcases mem_map.mp secondMem with ⟨dep', -, rfl⟩
    change 1 ≤ childDepth 1
    exact le_childDepth (by norm_num)
  below := by
    intro coords win found
    simp at found

end Frontier

section Declarations

variable {RawPom ResolvedPom Activation : Type}

def WorkItem.admits (stripOptional : Bool) (item : WorkItem) : Option Coords :=
  match Coords.new item.dep.groupId item.dep.artifactId with
  | .error _ => none
  | .ok coords =>
    if matchesAnyExclusion coords item.exclusions then none
    else if item.effectiveScope.isNone then none
    else if parseBool item.dep.optional && !item.isDirect && stripOptional then none
    else some coords

def ResolvedDep.declaration (winner : ResolvedDep) : RawDependency where
  groupId := winner.coords.group
  artifactId := winner.coords.artifact
  classifier := winner.classifier
  type := some winner.type

section Mediation

variable (lower : String → String)
  (pipe : PomPipeline RawPom ResolvedPom Activation) (source : MetadataSource RawPom)
  (opts : WalkOptions RawPom ResolvedPom Activation)

def effectivePom (winner : ResolvedDep) : Except WalkError ResolvedPom := ((do
    let fetchVersion ← resolveSnapshotFetchVersion lower source winner.version
      winner.coords winner.declaration
    fetchResolvedChild pipe source opts.activation winner.coords fetchVersion :
      Fetch RawPom ResolvedPom ResolvedPom).run opts.oreq).map Prod.fst

def declaredBy (winner : ResolvedDep) : List RawDependency :=
  if winner.scope = .system then []
  else
    match effectivePom lower pipe source opts winner with
    | .ok resolved => visitedDeps (pipe.dependencies resolved)
    | .error _ => []

variable (edge : Coords → RawDependency)

def candidate (winner : ResolvedDep) (dep : RawDependency) : WorkItem where
  dep := dep
  depth := childDepth winner.depth
  parentPath := winner.winningPath
  parentScope := winner.scope
  exclusions := winner.winningPath.flatMap fun coords => (edge coords).exclusions
  isDirect := false

def candidates (root : ResolvedPom) (resolved : List ResolvedDep) : List WorkItem :=
  (visitedDeps (pipe.dependencies root)).map WorkItem.direct ++ resolved.flatMap fun winner =>
      (declaredBy lower pipe source opts winner).map (candidate edge winner)

/-- The winner is the record of this declaration. -/
structure WonBy (item : WorkItem) (winner : ResolvedDep) : Prop where
  edge : edge winner.coords = item.dep
  admits : item.admits opts.stripOptional = some winner.coords
  scope : item.effectiveScope = some winner.scope
  version : ∃ fetchVersion warnings,
    ((resolveVersion lower source opts winner.coords item.dep).run opts.oreq).map Prod.fst =
      .ok (winner.version, fetchVersion, warnings)
  record : winner = item.record winner.coords winner.scope winner.version

/-- Of the declarations for a package, level by level, the first one admitted wins. -/
structure Mediated (root : ResolvedPom) (graph : ResolvedGraph) : Prop where
  won : List.Forall₂ (WonBy lower source opts edge) (firsts (WorkItem.admits opts.stripOptional)
      (candidates lower pipe source opts edge root graph.resolved)) graph.resolved
  winners : ∀ coords,
    graph.winners[coords]? = graph.resolved.find? fun winner => winner.coords == coords
  sorted : (candidates lower pipe source opts edge root graph.resolved).Pairwise
    fun first second => first.depth ≤ second.depth
  expanded : ∀ winner ∈ graph.resolved, winner.scope ≠ .system →
    ∃ resolved, effectivePom lower pipe source opts winner = .ok resolved

end Mediation

end Declarations

open List WorkItem

variable {RawPom ResolvedPom Activation : Type} {lower : String → String}
  {pipe : PomPipeline RawPom ResolvedPom Activation} {source : MetadataSource RawPom}
  {opts : WalkOptions RawPom ResolvedPom Activation} {item : WorkItem} {coords : Coords}
  {st st' : WalkState RawPom ResolvedPom}

theorem admits_eq_some {stripOptional : Bool} : item.admits stripOptional = some coords ↔
      Coords.new item.dep.groupId item.dep.artifactId = .ok coords ∧
        matchesAnyExclusion coords item.exclusions = false ∧
        (∃ scope, item.effectiveScope = some scope) ∧
        (parseBool item.dep.optional && !item.isDirect && stripOptional) = false := by
  rw [admits]
  rcases identity : Coords.new item.dep.groupId item.dep.artifactId with _ | _
  · simp
  · simp only [Except.ok.injEq]
    constructor
    · intro admitted
      split_ifs at admitted with excluded hasScope stripped
      cases admitted
      refine ⟨rfl, by simpa using excluded, ?_, by simpa using stripped⟩
      simpa [← Option.isSome_iff_exists, Option.isSome_iff_ne_none] using hasScope
    · rintro ⟨rfl, excluded, ⟨scope, hasScope⟩, stripped⟩
      rw [if_neg (by simp [excluded]), if_neg (by simp [hasScope]), if_neg (by simp [stripped])]

section FetchVersion

variable {ver fetch : String} {dep : RawDependency}
  {session sess' : Option (OreqSession RawPom ResolvedPom)}

theorem run_resolveSnapshotFetchVersion
    (ret : (resolveSnapshotFetchVersion lower source ver coords dep).run session =
      .ok (fetch, sess')) (other : Option (OreqSession RawPom ResolvedPom)) :
    (resolveSnapshotFetchVersion lower source ver coords dep).run other = .ok (fetch, other) := by
  unfold resolveSnapshotFetchVersion at ret ⊢
  split
  case isTrue release =>
    rw [if_pos release] at ret
    cases ret
    rfl
  case isFalse snapshot =>
    rw [if_neg snapshot] at ret
    generalize source.fetchSnapshotInfo coords ver = ans at ret ⊢
    split at ret
    · dsimp only at ret ⊢
      split at ret
      · cases ret
        rfl
      · cases ret
    · cases ret
      rfl
    · cases ret

theorem run_resolveVersion_ok {warnings : List SpecWarning}
    (ret : (resolveVersion lower source opts coords dep).run session =
      .ok ((ver, fetch, warnings), sess')) (other : Option (OreqSession RawPom ResolvedPom)) :
    (resolveSnapshotFetchVersion lower source ver coords dep).run other = .ok (fetch, other) := by
  unfold resolveVersion at ret
  split at ret
  · cases ret
  · split at ret
    · cases ret
    · rcases run_bind_eq_ok.mp ret with ⟨res, between, -, ret⟩
      rcases run_bind_eq_ok.mp ret with ⟨found, post, fetched, ret⟩
      cases ret
      exact run_resolveSnapshotFetchVersion fetched other

theorem effectivePom_record {scope : Scope}
    (fetches : ∀ other, (resolveSnapshotFetchVersion lower source ver coords
      item.dep : Fetch RawPom ResolvedPom _).run other = .ok (fetch, other)) :
    effectivePom lower pipe source opts (item.record coords scope ver) =
      effectiveAnswer source pipe opts.activation opts.oreq ⟨coords, fetch⟩ := by
  have same : resolveSnapshotFetchVersion lower source
      (item.record coords scope ver).version (item.record coords scope ver).coords
      (item.record coords scope ver).declaration =
        (resolveSnapshotFetchVersion lower source ver coords item.dep :
          Fetch RawPom ResolvedPom _) := rfl
  rw [effectivePom, same, StateT.run_bind, fetches]
  exact (answered_fetchResolvedChild coords fetch).map_fst

end FetchVersion

section Steps

variable (pipe source opts) in
structure Idle (before after : WalkState RawPom ResolvedPom) : Prop
    extends SameGraph before after where
  session : Agrees source pipe opts.activation before.session after.session
  leaves : ∀ leaf ∈ after.skipper.knownLeaves, leaf ∈ before.skipper.knownLeaves

variable (lower pipe source opts) in
structure Promotes (item : WorkItem) (winner : ResolvedDep)
    (before after : WalkState RawPom ResolvedPom) : Prop where
  winners : after.winners = before.winners.insert winner.coords winner
  order : after.order =
    if winner.coords ∈ before.winners then before.order else before.order ++ [winner.coords]
  queue : after.queue = before.queue ++ (declaredBy lower pipe source opts winner).map
      (item.child winner.coords winner.scope)
  expanded : winner.scope ≠ .system →
    ∃ resolved, effectivePom lower pipe source opts winner = .ok resolved
  session : Agrees source pipe opts.activation before.session after.session
  leaves : ∀ leaf ∈ after.skipper.knownLeaves,
    leaf = winner.coords ∨ leaf ∈ before.skipper.knownLeaves

variable {scope : Scope} {ver fetch : String} {pathExclusions : ExclusionSet} {depth : ℕ}
  {winners : Winners}

theorem promotes_expand (agrees : Agrees source pipe opts.activation opts.oreq st.session)
    (fetches : ∀ other, (resolveSnapshotFetchVersion lower source ver coords item.dep : Fetch RawPom
      ResolvedPom _).run other = .ok (fetch, other))
    (ret : expand pipe source opts st item coords scope ver fetch = .ok st') :
    Promotes lower pipe source opts item (item.record coords scope ver) st st' := by
  unfold expand at ret
  split at ret
  case isTrue system =>
    cases ret
    refine ⟨rfl, rfl, ?_, ?_, equivalence_agrees.refl _, ?_⟩
    · simp [declaredBy, record, system, WalkState.recordVisit, WalkState.addWinner]
    · intro other
      exact absurd system other
    · intro leaf mem
      exact SkipperState.mem_knownLeaves_recordVisit mem
  case isFalse other =>
    have ans : effectivePom lower pipe source opts (item.record coords scope ver) =
          effectiveAnswer source pipe opts.activation st.session ⟨coords, fetch⟩ := by
      rw [effectivePom_record fetches, agrees.effective]
    have answered : Answered (Agrees source pipe opts.activation) st.session
        (effectiveAnswer source pipe opts.activation st.session ⟨coords, fetch⟩)
        ((fetchResolvedChild pipe source opts.activation coords fetch).run
          st.session) := answered_fetchResolvedChild coords fetch
    change ((fetchResolvedChild pipe source opts.activation coords fetch).run
      st.session >>= _) = _ at ret
    rw [← ans] at answered
    generalize reads : effectivePom lower pipe source opts
      (item.record coords scope ver) = eff at answered
    generalize (fetchResolvedChild pipe source opts.activation coords fetch).run
      st.session = fetched at ret answered
    cases answered with
    | error err => cases ret
    | ok res related =>
      cases ret
      refine ⟨rfl, rfl, ?_, ?_, related, ?_⟩
      · have decl : declaredBy lower pipe source opts (item.record coords scope ver) =
              visitedDeps (pipe.dependencies res) := by
          rw [declaredBy, if_neg (by exact other), reads]
        rw [decl]
        rfl
      · intro _
        exact ⟨res, reads⟩
      · intro leaf mem
        exact SkipperState.mem_knownLeaves_recordVisit mem

theorem nearestWins_effect
    (ret : nearestWins pipe source opts st item coords scope ver fetch = .ok st')
    (agrees : Agrees source pipe opts.activation opts.oreq st.session)
    (below : ∀ (coords : Coords) (win : ResolvedDep), st.winners[coords]? = some win → win.depth ≤
      item.depth)
    (fetches : ∀ other, (resolveSnapshotFetchVersion lower source ver coords item.dep : Fetch RawPom
      ResolvedPom _).run other = .ok (fetch, other)) :
    coords ∈ st.winners ∧ Idle pipe source opts st st' ∨
      coords ∉ st.winners ∧ Promotes lower pipe source opts item
        (item.record coords scope ver) st st' := by
  rcases found : st.winners[coords]? with _ | win
  · right
    rw [nearestWins, found] at ret
    refine ⟨?_, promotes_expand agrees fetches ret⟩
    simp [Std.ExtTreeMap.mem_iff_isSome_getElem?, found]
  · left
    rw [nearestWins_of_le found (below coords win found)] at ret
    cases ret
    refine ⟨?_, ⟨rfl, rfl, rfl⟩, equivalence_agrees.refl _, fun leaf mem => mem⟩
    simp [Std.ExtTreeMap.mem_iff_isSome_getElem?, found]

variable (lower pipe source opts) in
def Attends (item : WorkItem) (coords : Coords) (st st' : WalkState RawPom ResolvedPom) : Prop :=
  coords ∈ st.winners ∧ Idle pipe source opts st st' ∨
    coords ∉ st.winners ∧ ∃ scope ver fetch warnings, item.effectiveScope = some scope ∧
      ((resolveVersion lower source opts coords item.dep).run opts.oreq).map Prod.fst =
        .ok (ver, fetch, warnings) ∧
      Promotes lower pipe source opts item (item.record coords scope ver) st st'

theorem visit_effect (ret : visit lower pipe source opts st item coords = .ok st')
    (excluded : matchesAnyExclusion coords item.exclusions = false)
    (identity : Coords.new item.dep.groupId item.dep.artifactId = .ok coords)
    (agrees : Agrees source pipe opts.activation opts.oreq st.session)
    (below : ∀ (coords : Coords) (win : ResolvedDep),
      st.winners[coords]? = some win → win.depth ≤ item.depth) :
    item.admits opts.stripOptional = none ∧ Idle pipe source opts st st' ∨
      item.admits opts.stripOptional = some coords ∧
        Attends lower pipe source opts item coords st st' := by
  have idle : Idle pipe source opts st st :=
    ⟨⟨rfl, rfl, rfl⟩, equivalence_agrees.refl _, fun leaf mem => mem⟩
  unfold visit at ret
  rcases hasScope : item.effectiveScope with _ | scope <;> rw [hasScope] at ret
  · cases ret
    exact Or.inl ⟨by simp [admits, identity, hasScope], idle⟩
  · dsimp only at ret
    split at ret
    case isTrue stripped =>
      cases ret
      exact Or.inl ⟨by simp [admits, identity, stripped], idle⟩
    case isFalse kept =>
      right
      refine ⟨admits_eq_some.mpr ⟨identity, excluded, ⟨scope, hasScope⟩, by simpa using kept⟩, ?_⟩
      have steady : Steady (Agrees source pipe opts.activation)
          (resolveVersion lower source opts coords item.dep) :=
        steady_agrees_resolveVersion lower opts coords item.dep
      have same := steady.lockstep opts.oreq st.session agrees
      rcases res : (resolveVersion lower source opts coords item.dep).run st.session with _ | pair
      · rw [res] at ret
        cases ret
      · rcases pair with ⟨⟨ver, fetch, warnings⟩, session⟩
        rw [res] at ret same
        have progress : Agrees source pipe opts.activation st.session session :=
          steady.keeps st.session st.session _ session (equivalence_agrees.refl _) res
        change nearestWins pipe source opts { st with session, warnings := st.warnings ++ warnings }
          item coords scope ver fetch = .ok st' at ret
        have agrees' := equivalence_agrees.trans agrees progress
        rcases nearestWins_effect ret agrees' below (run_resolveVersion_ok res) with
          ⟨known, idle⟩ | ⟨fresh, promotes⟩
        · refine Or.inl ⟨known, ⟨idle.queue, idle.winners, idle.order⟩, ?_, idle.leaves⟩
          exact equivalence_agrees.trans progress idle.session
        · right
          refine ⟨fresh, scope, ver, fetch, warnings, hasScope, ?_,
            promotes.winners, promotes.order, promotes.queue, promotes.expanded, ?_,
            promotes.leaves⟩
          · generalize (resolveVersion lower source opts coords item.dep).run
              opts.oreq = ran at same ⊢
            cases same
            rfl
          · exact equivalence_agrees.trans progress promotes.session

theorem idle_addSkipped : Idle pipe source opts st (st.addSkipped coords item) := by
  refine ⟨sameGraph_addSkipped, ?_, ?_⟩
  · rw [WalkState.addSkipped]
    split <;> exact equivalence_agrees.refl _
  · intro leaf mem
    rw [WalkState.addSkipped] at mem
    split at mem <;> exact mem

theorem Idle.of_decide
    (idle : Idle pipe source opts { st with skipper := (st.skipper.decide coords depth
      pathExclusions winners).2 } st') :
    Idle pipe source opts st st' := by
  refine ⟨⟨idle.queue, idle.winners, idle.order⟩, idle.session, ?_⟩
  intro leaf mem
  simpa using idle.leaves leaf mem

theorem Promotes.of_decide {win : ResolvedDep}
    (promotes : Promotes lower pipe source opts item win { st with skipper := (st.skipper.decide
      coords depth pathExclusions winners).2 } st') :
    Promotes lower pipe source opts item win st st' := by
  refine ⟨promotes.winners, promotes.order, promotes.queue, promotes.expanded, promotes.session, ?_⟩
  intro leaf mem
  simpa using promotes.leaves leaf mem

theorem processItem_effect (ret : processItem lower pipe source opts st item = .ok st')
    (agrees : Agrees source pipe opts.activation opts.oreq st.session)
    (below : ∀ (coords : Coords) (win : ResolvedDep),
      st.winners[coords]? = some win → win.depth ≤ item.depth)
    (leaves : ∀ leaf ∈ st.skipper.knownLeaves, leaf ∈ st.winners) :
    item.admits opts.stripOptional = none ∧ Idle pipe source opts st st' ∨
      ∃ coords, item.admits opts.stripOptional = some coords ∧
        Attends lower pipe source opts item coords st st' := by
  unfold processItem at ret
  rcases identity : Coords.new item.dep.groupId item.dep.artifactId with _ | coords
  · rw [identity] at ret
    cases ret
  · rw [identity] at ret
    dsimp only at ret
    split at ret
    case isTrue excluded =>
      cases ret
      refine Or.inl ⟨by simp [admits, identity, excluded], ⟨rfl, rfl, rfl⟩,
        equivalence_agrees.refl _, fun leaf mem => mem⟩
    case isFalse included =>
      split at ret
      case h_1 reason decided =>
        cases ret
        have known : coords ∈ st.winners := by
          rcases SkipperState.of_decide_skip decided with leaf | ⟨win, found, -⟩
          · exact leaves coords leaf
          · simp [Std.ExtTreeMap.mem_iff_isSome_getElem?, found]
        rcases admitted : item.admits opts.stripOptional with _ | _
        · exact Or.inl ⟨rfl, Idle.of_decide idle_addSkipped⟩
        · have same := (admits_eq_some.mp admitted).1
          rw [identity, Except.ok.injEq] at same
          subst same
          exact Or.inr ⟨coords, rfl, Or.inl ⟨known, Idle.of_decide idle_addSkipped⟩⟩
      case h_2 decided =>
        have excluded : matchesAnyExclusion coords item.exclusions = false := by
          simpa using included
        rcases visit_effect ret excluded identity agrees below with
          ⟨out, idle⟩ | ⟨admitted, ⟨known, idle⟩ | ⟨fresh, scope, ver, fetch, warnings,
            hasScope, res, promotes⟩⟩
        · exact Or.inl ⟨out, idle.of_decide⟩
        · exact Or.inr ⟨coords, admitted, Or.inl ⟨known, idle.of_decide⟩⟩
        · exact Or.inr ⟨coords, admitted, Or.inr ⟨fresh, scope, ver, fetch, warnings,
            hasScope, res, promotes.of_decide⟩⟩

end Steps

structure Win where
  item : WorkItem
  winner : ResolvedDep

section Invariant

variable (lower pipe source opts)

def Win.children (win : Win) : List WorkItem := (declaredBy lower pipe source opts win.winner).map
    (win.item.child win.winner.coords win.winner.scope)

structure Win.Valid (win : Win) : Prop where
  admits : win.item.admits opts.stripOptional = some win.winner.coords
  scope : win.item.effectiveScope = some win.winner.scope
  version : ∃ fetchVersion warnings,
    ((resolveVersion lower source opts win.winner.coords win.item.dep).run
      opts.oreq).map Prod.fst = .ok (win.winner.version, fetchVersion, warnings)
  record : win.winner = win.item.record win.winner.coords win.winner.scope win.winner.version
  expanded : win.winner.scope ≠ .system →
    ∃ resolved, effectivePom lower pipe source opts win.winner = .ok resolved

structure Explained (root : ResolvedPom) (done : List WorkItem) (wins : List Win)
    (state : WalkState RawPom ResolvedPom) : Prop where
  history : done ++ state.queue = (visitedDeps (pipe.dependencies root)).map direct ++
      wins.flatMap (Win.children lower pipe source opts)
  picks : wins.map Win.item = firsts (admits opts.stripOptional) done
  valid : ∀ win ∈ wins, win.Valid lower pipe source opts
  distinct : (wins.map fun win => win.winner.coords).Nodup
  winners : ∀ coords, state.winners[coords]? =
    (wins.map Win.winner).find? fun winner => winner.coords == coords
  order : state.order = wins.map fun win => win.winner.coords
  layered : Layered state.winners state.queue
  sorted : (done ++ state.queue).Pairwise fun first second => first.depth ≤ second.depth
  leaves : ∀ leaf ∈ state.skipper.knownLeaves, leaf ∈ state.winners
  session : Agrees source pipe opts.activation opts.oreq state.session

end Invariant

namespace Explained

variable {root : ResolvedPom} {done : List WorkItem} {wins : List Win}

theorem mem_winners (explained : Explained lower pipe source opts root done wins st) :
    coords ∈ st.winners ↔ ∃ win ∈ wins, win.winner.coords = coords := by
  rw [Std.ExtTreeMap.mem_iff_isSome_getElem?, explained.winners, find?_isSome]
  simp

variable {rest : List WorkItem}

section Preserved

variable (explained : Explained lower pipe source opts root done wins st)
  (pending : st.queue = item :: rest)

include explained pending

theorem idle (idle : Idle pipe source opts { st with queue := rest } st')
    (passed : keepFirst (admits opts.stripOptional) (firsts (admits
      opts.stripOptional) done) item = firsts (admits opts.stripOptional) done) :
    Explained lower pipe source opts root (done ++ [item]) wins st' := by
  have queue : st'.queue = rest := idle.queue
  have winners : st'.winners = st.winners := idle.winners
  have whole : done ++ [item] ++ st'.queue = done ++ st.queue := by
    rw [queue, pending, append_assoc, singleton_append]
  have layered := explained.layered
  rw [pending] at layered
  refine ⟨?_, ?_, explained.valid, explained.distinct, ?_, ?_, ?_, ?_, ?_, ?_⟩
  · rw [whole, explained.history]
  · rw [firsts_concat, passed, explained.picks]
  · rw [winners]
    exact explained.winners
  · exact idle.order.trans explained.order
  · rw [winners, queue]
    exact layered.tail
  · rw [whole]
    exact explained.sorted
  · intro leaf mem
    rw [winners]
    exact explained.leaves leaf (idle.leaves leaf mem)
  · exact equivalence_agrees.trans explained.session idle.session

theorem depth_le : ∀ other ∈ done ++ st.queue, other.depth ≤ childDepth item.depth := by
  have layered := explained.layered
  have sorted := explained.sorted
  rw [pending] at layered sorted
  intro other mem
  rw [pending] at mem
  rcases mem_append.mp mem with processed | queued
  · have pre := (pairwise_append.mp sorted).2.2 other processed item mem_cons_self
    exact pre.trans (le_childDepth (layered.bounded item mem_cons_self))
  · exact layered.near item mem_cons_self other queued

theorem promote {winner : ResolvedDep}
    (ret : processItem lower pipe source opts { st with queue := rest } item = .ok
      st') (fresh : winner.coords ∉ st.winners)
    (valid : Win.Valid lower pipe source opts ⟨item, winner⟩)
    (promotes : Promotes lower pipe source opts item winner { st with queue := rest } st') :
    Explained lower pipe source opts root (done ++ [item]) (wins ++ [⟨item, winner⟩]) st' := by
  have winners : st'.winners = st.winners.insert winner.coords winner := promotes.winners
  have queue : st'.queue =
      rest ++ Win.children lower pipe source opts ⟨item, winner⟩ := promotes.queue
  have whole : done ++ [item] ++ st'.queue = done ++ st.queue ++
      Win.children lower pipe source opts ⟨item, winner⟩ := by
    simp [queue, pending]
  have new : ∀ win ∈ wins, win.winner.coords ≠ winner.coords := by
    intro win mem same
    exact fresh (explained.mem_winners.mpr ⟨win, mem, same⟩)
  have depth : ∀ child ∈ Win.children lower pipe source opts ⟨item, winner⟩,
      child.depth = childDepth item.depth := by
    intro child mem
    rcases mem_map.mp mem with ⟨dep, -, rfl⟩
    rfl
  refine ⟨?_, ?_, ?_, ?_, ?_, ?_, ?_, ?_, ?_, ?_⟩
  · rw [whole, explained.history]
    simp
  · rw [firsts_concat, map_append, explained.picks]
    refine (keepFirst_of_new valid.admits ?_).symm
    intro other mem
    rw [← explained.picks] at mem
    rcases mem_map.mp mem with ⟨win, winMem, rfl⟩
    rw [(explained.valid win winMem).admits, ne_eq, Option.some.injEq]
    exact new win winMem
  · intro win mem
    rcases mem_append.mp mem with old | last
    · exact explained.valid win old
    · rw [mem_singleton.mp last]
      exact valid
  · rw [map_append, nodup_append]
    refine ⟨explained.distinct, by simp, ?_⟩
    intro found mem other last
    rcases mem_map.mp mem with ⟨win, winMem, rfl⟩
    rw [map_singleton, mem_singleton] at last
    rw [last]
    exact new win winMem
  · intro coords
    rw [winners, Std.ExtTreeMap.getElem?_insert, map_append, find?_append, ← explained.winners]
    by_cases same : winner.coords = coords
    · subst same
      have absent : st.winners[winner.coords]? = none := by
        rwa [← Option.not_isSome_iff_eq_none, ← Std.ExtTreeMap.mem_iff_isSome_getElem?]
      simp [absent]
    · have differs : compare winner.coords coords ≠ .eq := by
        simpa [Std.LawfulEqCmp.compare_eq_iff_eq] using same
      simp [differs, same]
  · rw [promotes.order, if_neg fresh, map_append]
    exact congrArg (· ++ [winner.coords]) explained.order
  · have layered := explained.layered
    rw [pending] at layered
    exact layered.step ret
  · rw [whole, pairwise_append]
    refine ⟨explained.sorted, ?_, ?_⟩
    · rw [pairwise_iff_forall_sublist]
      intro first second sublist
      rw [depth first (sublist.subset (by simp)), depth second (sublist.subset (by simp))]
    · intro other mem child added
      rw [depth child added]
      exact explained.depth_le pending other mem
  · intro leaf mem
    rw [winners, Std.ExtTreeMap.mem_insert]
    rcases promotes.leaves leaf mem with rfl | old
    · exact Or.inl Std.ReflCmp.compare_self
    · exact Or.inr (explained.leaves leaf old)
  · exact equivalence_agrees.trans explained.session promotes.session

theorem step (ret : processItem lower pipe source opts { st with queue := rest } item = .ok st') :
    ∃ wins', Explained lower pipe source opts root (done ++ [item]) wins' st' ∧
      (wins' = wins ∧ st'.queue = rest ∨ ∃ win, wins' = wins ++ [win]) := by
  have below : ∀ (coords : Coords) (winner : ResolvedDep),
      st.winners[coords]? = some winner → winner.depth ≤ item.depth := by
    intro coords winner found
    exact explained.layered.below coords winner found item (by simp [pending])
  rcases processItem_effect ret explained.session below explained.leaves with
    ⟨out, idle⟩ | ⟨coords, admitted, effect⟩
  · exact ⟨wins, explained.idle pending idle (keepFirst_of_none _ out), Or.inl ⟨rfl, idle.queue⟩⟩
  rcases effect with ⟨known, idle⟩ | ⟨fresh, scope, ver, fetch, warnings, hasScope, res, promotes⟩
  · rcases explained.mem_winners.mp known with ⟨win, mem, rfl⟩
    refine ⟨wins, explained.idle pending idle (keepFirst_of_known admitted ?_),
      Or.inl ⟨rfl, idle.queue⟩⟩
    refine ⟨win.item, ?_, (explained.valid win mem).admits⟩
    rw [← explained.picks]
    exact mem_map_of_mem mem
  · refine ⟨_, explained.promote pending ret fresh ?_ promotes, Or.inr ⟨_, rfl⟩⟩
    exact ⟨admitted, hasScope, ⟨fetch, warnings, res⟩, rfl, promotes.expanded⟩

end Preserved

theorem start (root : ResolvedPom) : Explained lower pipe source opts root [] []
      ((WalkState.new opts.enableSkipper opts.oreq).enqueueDirectDeps
        (pipe.dependencies root)) := by
  have queue : ((WalkState.new opts.enableSkipper opts.oreq).enqueueDirectDeps
      (pipe.dependencies root)).queue = (visitedDeps (pipe.dependencies root)).map direct := rfl
  refine ⟨?_, rfl, ?_, nodup_nil, ?_, rfl, ?_, ?_, ?_, equivalence_agrees.refl _⟩
  · simp [queue]
  · intro win mem
    cases mem
  · intro coords
    exact Std.ExtTreeMap.getElem?_empty
  · rw [queue]
    exact layered_direct _
  · rw [queue]
    exact (layered_direct (visitedDeps (pipe.dependencies root))).sorted
  · intro leaf mem
    rw [WalkState.enqueueDirectDeps, WalkState.new] at mem
    split at mem <;> cases mem

theorem run {steps : ℕ} (explained : Explained lower pipe source opts root done wins st)
    (ran : runQueue lower pipe source opts steps st = some (.ok st')) :
    ∃ done' wins', Explained lower pipe source opts root done' wins' st' ∧ st'.queue = [] := by
  induction steps generalizing st done wins with
  | zero =>
    rcases pending : st.queue with _ | _
    · rw [runQueue_of_nil _ pending] at ran
      cases ran
      exact ⟨done, wins, explained, pending⟩
    · rw [runQueue_zero_of_cons pending] at ran
      cases ran
  | succ steps ih =>
    rcases pending : st.queue with _ | _
    · rw [runQueue_of_nil _ pending] at ran
      cases ran
      exact ⟨done, wins, explained, pending⟩
    · rw [runQueue_succ_of_cons _ pending] at ran
      split at ran
      · cases ran
      case h_2 post ret =>
        rcases explained.step pending ret with ⟨wins', explained', -⟩
        exact ih explained' ran

def edge (wins : List Win) (coords : Coords) : RawDependency :=
  ((wins.find? fun win => win.winner.coords == coords).map fun win => win.item.dep).getD
    { groupId := "", artifactId := "" }

variable {win : Win}

section Finished

variable (explained : Explained lower pipe source opts root done wins st)

include explained

theorem edge_of_mem (mem : win ∈ wins) : edge wins win.winner.coords = win.item.dep := by
  rw [edge, find?_of_nodup explained.distinct mem]
  rfl

theorem origin (mem : win ∈ wins) :
    (∃ dep ∈ visitedDeps (pipe.dependencies root), win.item = direct dep) ∨
      ∃ parent ∈ wins, ∃ dep ∈ declaredBy lower pipe source opts parent.winner,
        win.item = parent.item.child parent.winner.coords parent.winner.scope dep := by
  have picked : win.item ∈ firsts (admits opts.stripOptional) done := by
    rw [← explained.picks]
    exact mem_map_of_mem mem
  have processed : win.item ∈ done ++ st.queue := mem_append_left _ (mem_of_mem_firsts picked)
  rw [explained.history] at processed
  rcases mem_append.mp processed with direct | decl
  · rcases mem_map.mp direct with ⟨dep, visited, same⟩
    exact Or.inl ⟨dep, visited, same.symm⟩
  · rcases mem_flatMap.mp decl with ⟨parent, parentMem, child⟩
    rcases mem_map.mp child with ⟨dep, decl, same⟩
    exact Or.inr ⟨parent, parentMem, dep, decl, same.symm⟩

theorem exclusions_eq (mem : win ∈ wins) : win.item.exclusions =
      win.item.parentPath.flatMap fun coords => (edge wins coords).exclusions := by
  -- The path of a declaring winner is shorter.
  induction length : win.item.parentPath.length generalizing win with
  | zero =>
    rcases explained.origin mem with ⟨dep, -, same⟩ | ⟨parent, -, dep, -, same⟩
    · rw [same]
      rfl
    · rw [same] at length
      simp [child] at length
  | succ count ih =>
    rcases explained.origin mem with ⟨dep, -, same⟩ | ⟨parent, parentMem, dep, -, same⟩
    · rw [same] at length
      simp [direct] at length
    · rw [same] at length ⊢
      have shorter : parent.item.parentPath.length = count := by
        simpa [child] using length
      simp [child, ih parentMem shorter, explained.edge_of_mem parentMem]

theorem child_eq_candidate (mem : win ∈ wins) (dep : RawDependency) :
    win.item.child win.winner.coords win.winner.scope dep =
      candidate (edge wins) win.winner dep := by
  have record := (explained.valid win mem).record
  have path : win.winner.winningPath = win.item.parentPath ++ [win.winner.coords] := by
    rw [record]
    rfl
  have depth : win.winner.depth = win.item.depth := by
    rw [record]
    rfl
  simp [child, candidate, path, depth, explained.exclusions_eq mem, explained.edge_of_mem mem]

theorem resolved_finish : st.finish.resolved = wins.map Win.winner := by
  have distinct : ((wins.map Win.winner).map ResolvedDep.coords).Nodup := by
    rw [map_map]
    exact explained.distinct
  have lookup : ∀ win ∈ wins, st.winners[win.winner.coords]? = some win.winner := by
    intro win mem
    rw [explained.winners]
    exact find?_of_nodup distinct (mem_map_of_mem mem)
  have listed : st.finish.resolved = st.order.filterMap fun coords => st.winners[coords]? :=
    rfl
  rw [listed, explained.order, filterMap_map, ← filterMap_eq_map]
  exact filterMap_congr lookup

theorem mediated (ended : st.queue = []) :
    Mediated lower pipe source opts (edge wins) root st.finish := by
  have res := explained.resolved_finish
  have whole : candidates lower pipe source opts (edge wins) root st.finish.resolved = done := by
    have hist := explained.history
    rw [ended, append_nil] at hist
    rw [candidates, res, flatMap_map, hist]
    congr 1
    apply flatMap_congr
    intro win mem
    apply map_congr_left
    intro dep _
    exact (explained.child_eq_candidate mem dep).symm
  refine ⟨?_, ?_, ?_, ?_⟩
  · rw [whole, ← explained.picks, res, forall₂_map_left_iff, forall₂_map_right_iff, forall₂_same]
    intro win mem
    have valid := explained.valid win mem
    exact ⟨explained.edge_of_mem mem, valid.admits, valid.scope, valid.version, valid.record⟩
  · intro coords
    rw [res]
    exact explained.winners coords
  · rw [whole]
    have sorted := explained.sorted
    rwa [ended, append_nil] at sorted
  · intro winner mem
    rw [res] at mem
    rcases mem_map.mp mem with ⟨win, winMem, rfl⟩
    exact (explained.valid win winMem).expanded

end Finished

end Explained

theorem mediated_of_walkReturns {root : ResolvedPom} {graph : ResolvedGraph}
    (ret : WalkReturns lower pipe source opts root (.ok graph)) :
    ∃ edge, Mediated lower pipe source opts edge root graph := by
  rcases ret with ⟨steps, walked⟩
  rcases Option.map_eq_some_iff.mp walked with ⟨out, ran, finished⟩
  rcases out with _ | _
  · cases finished
  · cases finished
    rcases (Explained.start root).run ran with ⟨done, wins, explained, ended⟩
    exact ⟨_, explained.mediated ended⟩

end Barista.Resolver
