import Barista.Resolver.Explained

/-!
# Soundness of the walk

The winners form a tree under the root.  Every edge of it is a declaration of an effective
POM, and what the walk records of a winner (its depth, its scope and that it was neither
excluded nor stripped) can be read off the edges of its winning path.
-/

namespace Barista.Resolver

open List

section Chains

variable {RawPom ResolvedPom Activation : Type} (edge : Coords → RawDependency)

def pathScope : List Coords → Option Scope
  | [] => none
  | first :: rest =>
    rest.foldl (fun scope coords => scope.bind fun inherited =>
        Scope.inherit inherited (Scope.parse (edge coords).scope))
      (some (Scope.parse (edge first).scope))

theorem pathScope_concat {path : List Coords} (ne : path ≠ []) (coords : Coords) :
    pathScope edge (path ++ [coords]) = (pathScope edge path).bind fun inherited =>
        Scope.inherit inherited (Scope.parse (edge coords).scope) := by
  rcases path with _ | _
  · contradiction
  · simp [pathScope, foldl_append]

variable (lower : String → String)
  (pipe : PomPipeline RawPom ResolvedPom Activation) (source : MetadataSource RawPom)
  (opts : WalkOptions RawPom ResolvedPom Activation) (edge : Coords → RawDependency)
  (root : ResolvedPom) (graph : ResolvedGraph)

def DeclaredAfter (before : List Coords) (coords : Coords) : Prop :=
  match before.getLast? with
  | none => edge coords ∈ pipe.dependencies root
  | some parent => ∃ declaring resolved, graph.winners[parent]? = some declaring ∧
      effectivePom lower pipe source opts declaring = .ok resolved ∧
      edge coords ∈ pipe.dependencies resolved

/-- The path leads from the root through winners, each declared by the one before. -/
structure SoundPath (winner : ResolvedDep) : Prop where
  ends : winner.winningPath.getLast? = some winner.coords
  depth : winner.depth = min winner.winningPath.length (2 ^ 32 - 1)
  tree : ∀ before coords, before ++ [coords] <+: winner.winningPath →
    ∃ other, graph.winners[coords]? = some other ∧ other.winningPath = before ++ [coords]
  distinct : winner.winningPath.Nodup
  named : ∀ coords ∈ winner.winningPath,
    (edge coords).groupId = coords.group ∧ (edge coords).artifactId = coords.artifact
  declared : ∀ before coords, before ++ [coords] <+: winner.winningPath →
    DeclaredAfter lower pipe source opts edge root graph before coords
  scope : pathScope edge winner.winningPath = some winner.scope
  unexcluded : winner.winningPath.Pairwise fun earlier later =>
    matchesAnyExclusion later (edge earlier).exclusions = false
  kept : opts.stripOptional = true → ∀ coords ∈ winner.winningPath.tail,
    parseBool (edge coords).optional = false

variable {lower pipe source opts edge root graph} {item : WorkItem} {win parent : ResolvedDep}
  {dep : RawDependency}

namespace WonBy

section Links

variable (won : WonBy lower source opts edge item win)

include won

theorem winningPath_eq : win.winningPath = item.parentPath ++ [win.coords] :=
  congrArg ResolvedDep.winningPath won.record

theorem depth_eq : win.depth = item.depth :=
  congrArg ResolvedDep.depth won.record

theorem named : (edge win.coords).groupId = win.coords.group ∧
      (edge win.coords).artifactId = win.coords.artifact := by
  have valid := (admits_eq_some.mp won.admits).1
  rw [won.edge]
  unfold Coords.new at valid
  split_ifs at valid
  rw [← Except.ok.inj valid]
  exact ⟨rfl, rfl⟩

theorem unexcluded : matchesAnyExclusion win.coords item.exclusions = false :=
  (admits_eq_some.mp won.admits).2.1

theorem notStripped (transitive : item.isDirect = false) (strips : opts.stripOptional = true) :
    parseBool (edge win.coords).optional = false := by
  have kept := (admits_eq_some.mp won.admits).2.2.2
  rw [won.edge]
  simpa [transitive, strips] using kept

end Links

end WonBy

theorem mem_of_visited {deps : List RawDependency} (visited : dep ∈ visitedDeps deps) :
    dep ∈ deps ∧ Scope.parse dep.scope ≠ .imported := by
  simpa [visitedDeps] using visited

theorem of_mem_declaredBy (decl : dep ∈ declaredBy lower pipe source opts win) :
    ∃ res, effectivePom lower pipe source opts win = .ok res ∧
      dep ∈ visitedDeps (pipe.dependencies res) := by
  unfold declaredBy at decl
  split_ifs at decl
  · cases decl
  · rcases ans : effectivePom lower pipe source opts win with _ | res
    · simp [ans] at decl
    · exact ⟨res, rfl, by simpa [ans] using decl⟩

namespace Mediated

variable (mediated : Mediated lower pipe source opts edge root graph)

include mediated

theorem nodup_coords : (graph.resolved.map ResolvedDep.coords).Nodup := by
  have keys : (graph.resolved.map fun win => some win.coords) =
      (firsts (WorkItem.admits opts.stripOptional)
        (candidates lower pipe source opts edge root graph.resolved)).map
          (WorkItem.admits opts.stripOptional) := by
    rw [eq_comm, ← forall₂_eq_eq_eq, forall₂_map_left_iff, forall₂_map_right_iff]
    exact mediated.won.imp fun _ _ won => won.admits
  have distinct : (graph.resolved.map fun win => some win.coords).Nodup := by
    rw [keys]
    exact nodup_firsts _
  exact List.Nodup.of_map some (by rwa [map_map])

theorem lookup (listed : win ∈ graph.resolved) : graph.winners[win.coords]? = some win := by
  rw [mediated.winners]
  exact find?_of_nodup mediated.nodup_coords listed

theorem listed {coords : Coords} (found : graph.winners[coords]? = some win) :
    win ∈ graph.resolved ∧ win.coords = coords := by
  rw [mediated.winners] at found
  exact ⟨mem_of_find?_eq_some found, by simpa using find?_some found⟩

theorem exists_wonBy (listed : win ∈ graph.resolved) :
    ∃ item ∈ firsts (WorkItem.admits opts.stripOptional)
        (candidates lower pipe source opts edge root graph.resolved),
      WonBy lower source opts edge item win := by
  have won := mediated.won
  rw [forall₂_iff_get] at won
  rcases mem_iff_get.mp listed with ⟨idx, rfl⟩
  have bound := idx.isLt.trans_eq won.1.symm
  exact ⟨_, get_mem _ ⟨idx, bound⟩, won.2 _ bound idx.isLt⟩

theorem exists_winner {item : WorkItem}
    (isFirst : item ∈ firsts (WorkItem.admits opts.stripOptional)
      (candidates lower pipe source opts edge root graph.resolved)) :
    ∃ win ∈ graph.resolved, WonBy lower source opts edge item win := by
  have won := mediated.won
  rw [forall₂_iff_get] at won
  rcases mem_iff_get.mp isFirst with ⟨idx, rfl⟩
  have bound := idx.isLt.trans_eq won.1
  exact ⟨_, get_mem _ ⟨idx, bound⟩, won.2 _ idx.isLt bound⟩

theorem induction_on {motive : ResolvedDep → Prop}
    (direct : ∀ dep win, dep ∈ visitedDeps (pipe.dependencies root) → win ∈ graph.resolved →
      WonBy lower source opts edge (.direct dep) win → motive win)
    (child : ∀ parent dep win, parent ∈ graph.resolved →
      dep ∈ declaredBy lower pipe source opts parent →
      win ∈ graph.resolved →
      WonBy lower source opts edge (candidate edge parent dep) win →
      motive parent → motive win) (listed : win ∈ graph.resolved) : motive win := by
  -- The winning path of the declaring winner is shorter.
  induction measure : win.winningPath.length using Nat.strong_induction_on generalizing win with
  | _ len ih =>
    rcases mediated.exists_wonBy listed with ⟨item, isFirst, won⟩
    rcases mem_append.mp (mem_of_mem_firsts isFirst) with isDirect | isChild
    · rcases mem_map.mp isDirect with ⟨dep, visited, rfl⟩
      exact direct dep win visited listed won
    · rcases mem_flatMap.mp isChild with ⟨parent, parentListed, isChild⟩
      rcases mem_map.mp isChild with ⟨dep, decl, rfl⟩
      have shorter : parent.winningPath.length < len := by
        rw [← measure, won.winningPath_eq]
        simp [candidate]
      exact child parent dep win parentListed decl listed won (ih _ shorter parentListed rfl)

end Mediated

namespace SoundPath

theorem direct (mediated : Mediated lower pipe source opts edge root graph)
    (visited : dep ∈ visitedDeps (pipe.dependencies root)) (listed : win ∈ graph.resolved)
    (won : WonBy lower source opts edge (.direct dep) win) :
    SoundPath lower pipe source opts edge root graph win := by
  have path : win.winningPath = [win.coords] := won.winningPath_eq
  have only : ∀ pre coords, pre ++ [coords] <+: [win.coords] → pre = [] ∧ coords = win.coords := by
    intro pre coords within
    have short := within.length_le
    rcases pre with _ | _
    · simpa using within
    · simp at short
  have scope : some (Scope.parse dep.scope) = some win.scope := by
    rw [← won.scope]
    simp [WorkItem.effectiveScope, WorkItem.direct, (mem_of_visited visited).2]
  refine ⟨?_, ?_, ?_, ?_, ?_, ?_, ?_, ?_, ?_⟩ <;> rw [path]
  · rfl
  · rw [won.depth_eq]
    rfl
  · intro pre coords within
    rcases only pre coords within with ⟨rfl, rfl⟩
    exact ⟨win, mediated.lookup listed, path⟩
  · exact nodup_singleton _
  · intro coords mem
    rw [mem_singleton.mp mem]
    exact won.named
  · intro pre coords within
    rcases only pre coords within with ⟨rfl, rfl⟩
    have decl : edge win.coords ∈ pipe.dependencies root := by
      rw [won.edge]
      exact (mem_of_visited visited).1
    exact decl
  · rw [← scope, pathScope, won.edge]
    rfl
  · exact pairwise_singleton _ _
  · intro _ coords mem
    cases mem

theorem child (mediated : Mediated lower pipe source opts edge root graph)
    (parentListed : parent ∈ graph.resolved) (decl : dep ∈ declaredBy lower pipe source opts parent)
    (listed : win ∈ graph.resolved)
    (won : WonBy lower source opts edge (candidate edge parent dep) win)
    (sound : SoundPath lower pipe source opts edge root graph parent) :
    SoundPath lower pipe source opts edge root graph win := by
  have path : win.winningPath = parent.winningPath ++ [win.coords] := won.winningPath_eq
  have ne : parent.winningPath ≠ [] := by
    intro empty
    have ends := sound.ends
    simp [empty] at ends
  have last : ∀ pre coords, pre ++ [coords] = parent.winningPath ++ [win.coords] →
      pre = parent.winningPath ∧ coords = win.coords := by
    intro pre coords split
    simpa using append_inj' split rfl
  have scope : Scope.inherit parent.scope (Scope.parse dep.scope) = some win.scope := won.scope
  refine ⟨?_, ?_, ?_, ?_, ?_, ?_, ?_, ?_, ?_⟩ <;> rw [path]
  · simp
  · have depth : win.depth = childDepth parent.depth := won.depth_eq
    rw [depth, childDepth, sound.depth, length_append, length_singleton]
    omega
  · intro pre coords within
    rcases prefix_concat_iff.mp within with whole | within
    · rcases last pre coords whole with ⟨rfl, rfl⟩
      exact ⟨win, mediated.lookup listed, path⟩
    · exact sound.tree pre coords within
  · rw [nodup_append]
    refine ⟨sound.distinct, nodup_singleton _, ?_⟩
    intro prior earlierMem coords mem same
    rw [mem_singleton.mp mem] at same
    -- The same coordinates would have won by a shorter path.
    rcases mem_iff_append.mp earlierMem with ⟨pre, post, split⟩
    rcases sound.tree pre prior ⟨post, by simp [split]⟩ with ⟨other, found, otherPath⟩
    rw [same, mediated.lookup listed] at found
    rw [← Option.some.inj found, path] at otherPath
    have lengths := congrArg List.length otherPath
    rw [split] at lengths
    simp at lengths
  · intro coords mem
    rcases mem_append.mp mem with prior | isLast
    · exact sound.named coords prior
    · rw [mem_singleton.mp isLast]
      exact won.named
  · intro pre coords within
    rcases prefix_concat_iff.mp within with whole | within
    · rcases last pre coords whole with ⟨rfl, rfl⟩
      rcases of_mem_declaredBy decl with ⟨res, eff, visited⟩
      rw [DeclaredAfter, sound.ends]
      refine ⟨parent, res, mediated.lookup parentListed, eff, ?_⟩
      rw [won.edge]
      exact (mem_of_visited visited).1
    · exact sound.declared pre coords within
  · rw [pathScope_concat _ ne, sound.scope, won.edge]
    exact scope
  · rw [pairwise_append]
    refine ⟨sound.unexcluded, pairwise_singleton _ _, ?_⟩
    intro prior earlierMem coords mem
    rw [mem_singleton.mp mem]
    have unexcluded := won.unexcluded
    rw [matchesAnyExclusion, candidate, any_flatMap, any_eq_false] at unexcluded
    simpa [matchesAnyExclusion] using unexcluded prior earlierMem
  · intro strips coords mem
    rw [tail_append_of_ne_nil ne] at mem
    rcases mem_append.mp mem with prior | isLast
    · exact sound.kept strips coords prior
    · rw [mem_singleton.mp isLast]
      exact won.notStripped rfl strips

end SoundPath

namespace Mediated

variable (mediated : Mediated lower pipe source opts edge root graph)

include mediated

theorem soundPath (listed : win ∈ graph.resolved) :
    SoundPath lower pipe source opts edge root graph win :=
  mediated.induction_on (fun _ _ visited listed won => SoundPath.direct mediated visited listed won)
    (fun _ _ _ parentListed decl listed won sound =>
      SoundPath.child mediated parentListed decl listed won sound)
    listed

theorem sorted_resolved :
    graph.resolved.Pairwise fun first second => first.depth ≤ second.depth := by
  have depths : graph.resolved.map ResolvedDep.depth = (firsts (WorkItem.admits opts.stripOptional)
        (candidates lower pipe source opts edge root graph.resolved)).map WorkItem.depth := by
    rw [← forall₂_eq_eq_eq, forall₂_map_left_iff, forall₂_map_right_iff]
    exact mediated.won.flip.imp fun _ _ won => won.depth_eq
  rw [← pairwise_map, depths, pairwise_map]
  exact mediated.sorted.sublist (firsts_sublist _)

end Mediated

/-- Soundness of the walk.  Depths are counted in 32 bits. -/
theorem walk_sound (lower : String → String)
    (pipe : PomPipeline RawPom ResolvedPom Activation) (source : MetadataSource RawPom)
    (opts : WalkOptions RawPom ResolvedPom Activation) (root : ResolvedPom) (graph : ResolvedGraph)
    (returned : WalkReturns lower pipe source opts root (.ok graph)) :
    (∃ edge, ∀ coords win, graph.winners[coords]? = some win → win.coords = coords ∧
        SoundPath lower pipe source opts edge root graph win) ∧
      graph.resolved.Pairwise fun first second => first.depth ≤ second.depth := by
  rcases mediated_of_walkReturns returned with ⟨edge, mediated⟩
  refine ⟨⟨edge, ?_⟩, mediated.sorted_resolved⟩
  intro coords win found
  rcases mediated.listed found with ⟨listed, same⟩
  exact ⟨same, mediated.soundPath listed⟩

/-- In the diamond, `c` is reached through `a`. -/
theorem walk_sound_diamond : ∃ graph, WalkReturns Version.asciiLowercase plainPipeline diamondSource
        { activation := (), enableSkipper := false } diamondRoot (.ok graph) ∧
      (∃ edge, ∀ coords win, graph.winners[coords]? = some win → win.coords = coords ∧
          SoundPath Version.asciiLowercase plainPipeline diamondSource
            { activation := (), enableSkipper := false } edge diamondRoot graph win) ∧
      graph.resolved.Pairwise fun first second => first.depth ≤ second.depth := by
  rcases walkReturns_diamond with ⟨graph, -, returned⟩
  exact ⟨graph, returned, walk_sound _ _ _ _ _ _ returned⟩

/-- A graph lists every artifact at most once, with the winner that its table has for it. -/
theorem walk_lists_winners (returned : WalkReturns lower pipe source opts root (.ok graph)) :
    (graph.resolved.map ResolvedDep.coords).Nodup ∧
      ∀ win, win ∈ graph.resolved ↔ graph.winners[win.coords]? = some win := by
  rcases mediated_of_walkReturns returned with ⟨edge, mediated⟩
  refine ⟨mediated.nodup_coords, ?_⟩
  exact fun win => ⟨mediated.lookup, fun found => (mediated.listed found).1⟩

theorem walk_lists_winners_diamond : ∃ graph, WalkReturns Version.asciiLowercase plainPipeline
    diamondSource { activation := (), enableSkipper := false } diamondRoot (.ok graph) ∧
      (graph.resolved.map ResolvedDep.coords).Nodup := by
  rcases walkReturns_diamond with ⟨graph, -, returned⟩
  exact ⟨graph, returned, (walk_lists_winners returned).1⟩

def chainSource (last : ℕ) : MetadataSource (List RawDependency) where
  fetchPom := fun coords _ =>
    .ok (if coords.artifact.length < last then [exampleDep (coords.artifact ++ "a") "1.0"] else [],
      .fixture)
  fetchMetadata := fun coords => .error (.metadataNotFound coords.display)
  fetchSnapshotInfo := fun coords _ => .error (.metadataNotFound coords.display)

variable (length : ℕ)

def chainName : String := String.ofList (replicate length 'a')

def chainCoords : Coords := ⟨"org.example", chainName length⟩

def chainOptions : WalkOptions (List RawDependency) (List RawDependency) Unit :=
  { activation := (), enableSkipper := false }

structure ChainItem (item : WorkItem) : Prop where
  dep : item.dep = exampleDep (chainName length) "1.0"
  depth : item.depth = min length (2 ^ 32 - 1)
  path : item.parentPath.length + 1 = length
  parentScope : item.parentScope = .compile
  exclusions : item.exclusions = []

theorem length_chainName (len : ℕ) : (chainName len).length = len := by
  simp [chainName]

theorem chainName_concat (len : ℕ) : chainName len ++ "a" = chainName (len + 1) := by
  rw [chainName, chainName, replicate_succ', String.ofList_append]

theorem new_chainCoords {len : ℕ} (positive : 0 < len) :
    Coords.new "org.example" (chainName len) = .ok (chainCoords len) := by
  have ne : chainName len ≠ "" := by
    intro empty
    have lengths := length_chainName len
    rw [empty] at lengths
    exact positive.ne lengths
  simp [Coords.new, ne, chainCoords]

theorem effectiveScope_chain {len : ℕ} (isNext : ChainItem len item) :
    item.effectiveScope = some .compile := by
  have missing : Scope.parse none = .compile := by decide
  have decl : Scope.parse item.dep.scope = .compile := by
    rw [isNext.dep]
    exact missing
  simp [WorkItem.effectiveScope, decl, isNext.parentScope, Scope.inherit]

theorem run_resolveVersion_chain (last : ℕ) (coords : Coords) (artifact : String) :
    (resolveVersion Version.asciiLowercase (chainSource last) chainOptions coords
      (exampleDep artifact "1.0")).run none = .ok (("1.0", "1.0", []), none) := by
  have trimmed : Text.trim "1.0" = "1.0" := by decide
  have isSoft : ¬(Text.eqIgnoreAsciiCase "1.0" "LATEST" ∨ Text.eqIgnoreAsciiCase "1.0" "RELEASE" ∨
      "1.0".toList.head? = some '[' ∨ "1.0".toList.head? = some '(') := by decide
  have parsed : VersionSpec.parse Version.asciiLowercase "1.0" = .ok (.soft "1.0") := by
    push Not at isSoft
    simp only [VersionSpec.parse, trimmed, isSoft]
    rfl
  have release : (Version.parse Version.asciiLowercase "1.0").isSnapshot = false := by
    decide
  have given : (exampleDep artifact "1.0").version.filter (Text.trim · ≠ "") = some "1.0" := by
    simp [exampleDep, trimmed]
  rw [resolveVersion, given]
  simp only [parsed]
  simp [resolveSpec, frozenPin, resolveSnapshotFetchVersion, release]
  rfl

def chainDeps (length last : ℕ) : List RawDependency :=
  if length < last then [exampleDep (chainName (length + 1)) "1.0"] else []

theorem run_fetchResolvedChild_chain (len last : ℕ) :
    (fetchResolvedChild plainPipeline (chainSource last) chainOptions.activation
      (chainCoords len) "1.0").run none = .ok (chainDeps len last, none) := by
  have read : ((chainSource last).fetchPom (chainCoords len) "1.0") =
      .ok (chainDeps len last, .fixture) := by
    simp [chainSource, chainCoords, chainDeps, length_chainName, chainName_concat]
  rw [fetchResolvedChild]
  simp only [read]
  rfl

theorem visitedDeps_chain (len last : ℕ) :
    visitedDeps (chainDeps len last) = chainDeps len last := by
  have visited : Scope.parse none ≠ .imported := by decide
  unfold chainDeps
  split_ifs
  · simpa [visitedDeps, exampleDep] using visited
  · rfl

structure ChainState (item : WorkItem)
    (state : WalkState (List RawDependency) (List RawDependency)) : Prop where
  next : ChainItem length item
  pending : state.queue = [item]
  fresh : ∀ longer, length ≤ longer → state.winners[chainCoords longer]? = none
  session : state.session = none
  skipper : state.skipper.enabled = false

variable {len last : ℕ} {st : WalkState (List RawDependency) (List RawDependency)}

theorem expand_chain (len last : ℕ) (item : WorkItem)
    (st : WalkState (List RawDependency) (List RawDependency)) (empty : st.queue = [])
    (noSession : st.session = none) (off : st.skipper.enabled = false) :
    ∃ st', expand plainPipeline (chainSource last) chainOptions st item
        (chainCoords len) .compile "1.0" "1.0" = .ok st' ∧
      st'.winners = st.winners.insert (chainCoords len)
        (item.record (chainCoords len) .compile "1.0") ∧
      st'.queue = (chainDeps len last).map (item.child (chainCoords len) .compile) ∧
      st'.session = none ∧ st'.skipper.enabled = false := by
  have visited := visitedDeps_chain len last
  simp only [expand, reduceCtorEq, if_false, WalkState.addWinner, noSession,
    run_fetchResolvedChild_chain]
  refine ⟨_, rfl, rfl, ?_, rfl, ?_⟩
  · rw [WalkState.recordVisit, empty, nil_append]
    exact congrArg _ visited
  · rw [WalkState.recordVisit, SkipperState.enabled_recordVisit, off]

theorem processItem_chain (last : ℕ) (chain : ChainState len item st) :
    ∃ st', processItem Version.asciiLowercase plainPipeline (chainSource last) chainOptions
        { st with queue := [] } item = .ok st' ∧
      st'.winners = st.winners.insert (chainCoords len)
        (item.record (chainCoords len) .compile "1.0") ∧
      st'.queue = (chainDeps len last).map (item.child (chainCoords len) .compile) ∧
      st'.session = none ∧ st'.skipper.enabled = false := by
  have next := chain.next
  have positive : 0 < len := by
    have path := next.path
    omega
  have new : Coords.new item.dep.groupId item.dep.artifactId = .ok (chainCoords len) := by
    rw [next.dep]
    exact new_chainCoords positive
  have unexcluded : matchesAnyExclusion (chainCoords len) item.exclusions = false := by
    rw [next.exclusions]
    rfl
  have kept : parseBool item.dep.optional = false := by
    rw [next.dep]
    rfl
  have ver : (resolveVersion Version.asciiLowercase (chainSource last) chainOptions
      (chainCoords len) item.dep).run none = .ok (("1.0", "1.0", []), none) := by
    rw [next.dep]
    exact run_resolveVersion_chain last _ _
  rw [processItem, new]
  simp only [unexcluded, Bool.false_eq_true, if_false,
    SkipperState.decide_of_disabled chain.skipper,
    visit, effectiveScope_chain next, kept, Bool.false_and, chain.session, ver]
  simp only [nearestWins, chain.fresh len le_rfl]
  exact expand_chain len last item
    { st with
      queue := []
      skipper := st.skipper.countWalk
      session := none
      warnings := st.warnings ++ [] } rfl rfl chain.skipper

theorem runQueue_chain (chain : ChainState len item st) (remaining : ℕ)
    (ends : len + remaining = last) :
    ∃ final win, runQueue Version.asciiLowercase plainPipeline (chainSource last) chainOptions
        (remaining + 1) st = some (.ok final) ∧
      final.winners[chainCoords last]? = some win ∧
      win.winningPath.length = last ∧ win.depth = min last (2 ^ 32 - 1) := by
  induction remaining generalizing len item st with
  | zero =>
    rcases processItem_chain last chain with ⟨st', processed, winners, queue, -, -⟩
    have atEnd : len = last := by omega
    have ended : st'.queue = [] := by
      rw [queue, chainDeps, if_neg (by omega)]
      rfl
    refine ⟨st', item.record (chainCoords len) .compile "1.0", ?_, ?_, ?_, ?_⟩
    · rw [runQueue_succ_of_cons _ chain.pending, processed]
      exact runQueue_of_nil _ ended
    · rw [winners, atEnd]
      exact Std.ExtTreeMap.getElem?_insert_self
    · rw [← atEnd, ← chain.next.path]
      simp [WorkItem.record]
    · rw [← atEnd]
      exact chain.next.depth
  | succ remaining ih =>
    rcases processItem_chain last chain with
      ⟨st', processed, winners, queue, sess, skipper⟩
    have more : st'.queue = [item.child (chainCoords len) .compile
        (exampleDep (chainName (len + 1)) "1.0")] := by
      rw [queue, chainDeps, if_pos (by omega)]
      rfl
    have next : ChainItem (len + 1) (item.child (chainCoords len) .compile
        (exampleDep (chainName (len + 1)) "1.0")) := by
      refine ⟨rfl, ?_, ?_, rfl, ?_⟩
      · have depth := chain.next.depth
        simp only [WorkItem.child, childDepth]
        omega
      · simp [WorkItem.child, chain.next.path]
      · simp [WorkItem.child, chain.next.exclusions, chain.next.dep, exampleDep]
    have fresh : ∀ longer, len + 1 ≤ longer → st'.winners[chainCoords longer]? = none := by
      intro longer le
      have differs : chainCoords len ≠ chainCoords longer := by
        intro same
        have lengths := congrArg (fun coords => coords.artifact.length) same
        simp only [chainCoords, length_chainName] at lengths
        omega
      rw [winners, Std.ExtTreeMap.getElem?_insert, if_neg (by simpa using differs)]
      exact chain.fresh longer (by omega)
    rcases ih ⟨next, more, fresh, sess, skipper⟩ (by omega) with ⟨final, win, ran, rest⟩
    refine ⟨final, win, ?_, rest⟩
    rw [runQueue_succ_of_cons _ chain.pending, processed]
    exact ran

/-- After more than `2 ^ 32 - 1` edges, the recorded depth falls behind the path. -/
theorem walk_depth_saturates :
    ∃ graph win, WalkReturns Version.asciiLowercase plainPipeline (chainSource (2 ^ 32))
        chainOptions [exampleDep (chainName 1) "1.0"] (.ok graph) ∧
      graph.winners[chainCoords (2 ^ 32)]? = some win ∧
      win.winningPath.length ≠ win.depth := by
  have start : ChainState 1 (WorkItem.direct (exampleDep (chainName 1) "1.0"))
      ((WalkState.new chainOptions.enableSkipper chainOptions.oreq).enqueueDirectDeps
        (plainPipeline.dependencies [exampleDep (chainName 1) "1.0"])) := by
    refine ⟨⟨rfl, rfl, rfl, rfl, rfl⟩, ?_, ?_, rfl, rfl⟩
    · have visited := visitedDeps_chain 0 1
      exact congrArg (List.map WorkItem.direct) visited
    · intro longer _
      exact Std.ExtTreeMap.getElem?_empty
  have ends : 1 + (2 ^ 32 - 1) = 2 ^ 32 := by norm_num
  rcases runQueue_chain start (2 ^ 32 - 1) ends with
    ⟨final, win, ran, found, len, depth⟩
  refine ⟨final.finish, win, ⟨2 ^ 32 - 1 + 1, ?_⟩, found, ?_⟩
  · rw [walk, ran]
    rfl
  · rw [len, depth]
    norm_num

end Chains

/-!
# Completeness of the walk

Whatever takes part is found: a declaration of the root or of a winner has a winner for its
coordinates that is not deeper than the declaration.  The winner is the first candidate in
breadth-first declaration order, and no candidate is nearer to the root.
-/

variable {RawPom ResolvedPom Activation : Type} {lower : String → String}
  {pipe : PomPipeline RawPom ResolvedPom Activation} {src : MetadataSource RawPom}
  {opts : WalkOptions RawPom ResolvedPom Activation} {edge : Coords → RawDependency}
  {root : ResolvedPom} {graph : ResolvedGraph} {win : ResolvedDep} {dep : RawDependency}
  {coords : Coords}

theorem visited_of_admits {deps : List RawDependency} {item : WorkItem} (mem : item.dep ∈ deps)
    (admits : item.admits opts.stripOptional = some coords) : item.dep ∈ visitedDeps deps := by
  rcases (admits_eq_some.mp admits).2.2.1 with ⟨scope, hasScope⟩
  have notImported : Scope.parse item.dep.scope ≠ .imported := by
    intro imported
    simp [WorkItem.effectiveScope, imported, Scope.inherit] at hasScope
  simpa [visitedDeps] using ⟨mem, notImported⟩

theorem scope_ne_system_of_admits
    (admits : (candidate edge win dep).admits opts.stripOptional = some coords) :
    win.scope ≠ .system := by
  rcases (admits_eq_some.mp admits).2.2.1 with ⟨scope, hasScope⟩
  intro system
  have nothing : Scope.inherit .system (Scope.parse dep.scope) = none := by
    cases Scope.parse dep.scope <;> rfl
  simp [WorkItem.effectiveScope, candidate, system, nothing] at hasScope

namespace Mediated

variable (mediated : Mediated lower pipe src opts edge root graph)

include mediated

theorem first_candidate (listed : win ∈ graph.resolved) : ∃ pre first post,
      candidates lower pipe src opts edge root graph.resolved = pre ++ first :: post ∧
      (∀ item ∈ pre, item.admits opts.stripOptional ≠ some win.coords) ∧
      (∀ item ∈ first :: post, first.depth ≤ item.depth) ∧
      WonBy lower src opts edge first win := by
  rcases mediated.exists_wonBy listed with ⟨first, isFirst, won⟩
  have found := find?_of_mem_firsts isFirst won.admits
  rcases find?_eq_some_iff_append.mp found with ⟨-, pre, post, split, others⟩
  refine ⟨pre, first, post, split, ?_, ?_, won⟩
  · intro item mem
    simpa using others item mem
  · have sorted := mediated.sorted
    rw [split] at sorted
    have fromFirst := (pairwise_append.mp sorted).2.1
    intro item mem
    rcases mem_cons.mp mem with rfl | later
    · exact le_rfl
    · exact (pairwise_cons.mp fromFirst).1 item later

theorem complete {item : WorkItem}
    (isCandidate : item ∈ candidates lower pipe src opts edge root graph.resolved)
    (admits : item.admits opts.stripOptional = some coords) :
    ∃ win, graph.winners[coords]? = some win ∧ win.depth ≤ item.depth := by
  rcases exists_mem_firsts isCandidate admits with ⟨earliest, isFirst, sameKey⟩
  rcases mediated.exists_winner isFirst with ⟨win, listed, wonByEarliest⟩
  have same : coords = win.coords := Option.some.inj (sameKey.symm.trans wonByEarliest.admits)
  subst same
  refine ⟨win, mediated.lookup listed, ?_⟩
  rcases mediated.first_candidate listed with ⟨pre, first, post, split, others, nearest, won⟩
  rw [split] at isCandidate
  rw [won.depth_eq]
  rcases mem_append.mp isCandidate with prior | fromFirst
  · exact absurd admits (others item prior)
  · exact nearest item fromFirst

theorem complete_root (decl : dep ∈ pipe.dependencies root)
    (admits : (WorkItem.direct dep).admits opts.stripOptional = some coords) :
    ∃ win, graph.winners[coords]? = some win ∧ win.depth ≤ 1 := by
  have visited : dep ∈ visitedDeps (pipe.dependencies root) := visited_of_admits decl admits
  exact mediated.complete (mem_append_left _ (mem_map_of_mem visited)) admits

theorem complete_child {declaring : ResolvedDep} {res : ResolvedPom}
    (listed : declaring ∈ graph.resolved)
    (eff : effectivePom lower pipe src opts declaring = .ok res)
    (decl : dep ∈ pipe.dependencies res)
    (admits : (candidate edge declaring dep).admits opts.stripOptional = some coords) :
    ∃ win, graph.winners[coords]? = some win ∧ win.depth ≤ declaring.depth + 1 := by
  have visited : dep ∈ declaredBy lower pipe src opts declaring := by
    rw [declaredBy, if_neg (scope_ne_system_of_admits admits), eff]
    exact visited_of_admits decl admits
  have isCandidate : candidate edge declaring dep ∈
      candidates lower pipe src opts edge root graph.resolved := by
    apply mem_append_right
    rw [mem_flatMap]
    exact ⟨declaring, listed, mem_map_of_mem visited⟩
  rcases mediated.complete isCandidate admits with ⟨win, found, depth⟩
  refine ⟨win, found, depth.trans ?_⟩
  exact min_le_left _ _

end Mediated

/-- Completeness of the walk.  Here `edge` maps every winner to the declaration by which it
won, and with it the exclusions on a winning path are known. -/
theorem walk_complete (lower : String → String)
    (pipe : PomPipeline RawPom ResolvedPom Activation) (src : MetadataSource RawPom)
    (opts : WalkOptions RawPom ResolvedPom Activation) (root : ResolvedPom) (graph : ResolvedGraph)
    (returned : WalkReturns lower pipe src opts root (.ok graph)) :
    ∃ edge, (∀ dep ∈ pipe.dependencies root, ∀ coords,
        (WorkItem.direct dep).admits opts.stripOptional = some coords →
        ∃ win, graph.winners[coords]? = some win ∧ win.depth ≤ 1) ∧
      (∀ declaring ∈ graph.resolved, ∀ resolved,
        effectivePom lower pipe src opts declaring = .ok resolved →
        ∀ dep ∈ pipe.dependencies resolved, ∀ coords,
        (candidate edge declaring dep).admits opts.stripOptional = some coords →
        ∃ win, graph.winners[coords]? = some win ∧ win.depth ≤ declaring.depth + 1) ∧
      ∀ coords win, graph.winners[coords]? = some win → ∃ before first after,
          candidates lower pipe src opts edge root graph.resolved = before ++ first :: after ∧
          (∀ item ∈ before, item.admits opts.stripOptional ≠ some coords) ∧
          (∀ item ∈ first :: after, first.depth ≤ item.depth) ∧
          WonBy lower src opts edge first win := by
  rcases mediated_of_walkReturns returned with ⟨edge, mediated⟩
  refine ⟨edge, ?_, ?_, ?_⟩
  · intro dep declared coords admits
    exact mediated.complete_root declared admits
  · intro declaring listed resolved effective dep declared coords admits
    exact mediated.complete_child listed effective declared admits
  · intro coords win found
    rcases mediated.listed found with ⟨listed, rfl⟩
    exact mediated.first_candidate listed

/-- In the diamond, the direct dependency `b` wins at the top. -/
theorem walk_complete_diamond :
    ∃ graph, WalkReturns Version.asciiLowercase plainPipeline diamondSource
        { activation := (), enableSkipper := false } diamondRoot (.ok graph) ∧
      ∃ win, graph.winners[(⟨"org.example", "b"⟩ : Coords)]? = some win ∧ win.depth ≤ 1 := by
  rcases walkReturns_diamond with ⟨graph, -, returned⟩
  rcases walk_complete _ _ _ _ _ _ returned with ⟨edge, fromRoot, -, -⟩
  exact ⟨graph, returned, fromRoot (exampleDep "b" "1.0") (by decide) _ (by decide)⟩

end Barista.Resolver
