import Barista.Daemon.Actions

/-!
# The multi-module reactor

The modules of a project are grouped into levels: a module is in a level only after the modules
that it depends on are in earlier ones.  A cycle is an error that names the modules on it.
A reactor carries the fact that its levels list every module exactly once.
-/

namespace Barista.Daemon

open List

structure ModuleId where
  groupId : String
  artifactId : String
  deriving DecidableEq

def ModuleId.toGa (id : ModuleId) : String := id.groupId ++ ":" ++ id.artifactId

structure ModuleNode where
  id : ModuleId
  root : String
  actionGraph : ActionGraph
  dependsOn : List ℕ
  deriving DecidableEq

structure DiscoveredModule where
  id : ModuleId
  root : String
  dependencyGas : List ModuleId
  deriving DecidableEq

inductive ReactorError where
  | pom (path detail : String)
  | missingArtifactId (path : String)
  | cycle (path : String)
  deriving DecidableEq

section Kahn

variable (modules : List ModuleNode)

def dependsOn (index : ℕ) : List ℕ := ((modules[index]?).map ModuleNode.dependsOn).getD []

def reverseEdges (index : ℕ) : List ℕ :=
  (range modules.length).filter fun dependant => index ∈ dependsOn modules dependant

def nextLevel (inDegree : ℕ → ℕ) (emitted : List ℕ) : List ℕ :=
  (range modules.length).filter fun index => index ∉ emitted ∧ inDegree index = 0

def release (inDegree : ℕ → ℕ) (level : List ℕ) : ℕ → ℕ :=
  level.foldl (fun degrees index dependant =>
    if dependant ∈ reverseEdges modules index then degrees dependant - 1 else degrees dependant)
    inDegree

def remaining (taken : List ℕ) : List ℕ := (range modules.length).filter (· ∉ taken)

variable {modules}

theorem remaining_append_lt {taken more : List ℕ} {idx : ℕ}
    (inRange : idx < modules.length) (fresh : idx ∉ taken) (added : idx ∈ more) :
    (remaining modules (taken ++ more)).length < (remaining modules taken).length := by
  have strictly : remaining modules (taken ++ more) =
      (remaining modules taken).filter (· ∉ more) := by
    simp only [remaining, filter_filter]
    apply filter_congr
    intro idx _
    simp [Bool.and_comm]
  rw [strictly]
  apply length_filter_lt_length_iff_exists.mpr
  exact ⟨idx, by simpa [remaining] using ⟨inRange, fresh⟩, by simpa using added⟩

theorem mem_nextLevel {inDegree : ℕ → ℕ} {emitted : List ℕ} {idx : ℕ} :
    idx ∈ nextLevel modules inDegree emitted ↔
      idx < modules.length ∧ idx ∉ emitted ∧ inDegree idx = 0 := by
  simp [nextLevel]

variable (modules)

def kahnLoop (inDegree : ℕ → ℕ) (emitted : List ℕ) : List (List ℕ) × List ℕ :=
  let level := nextLevel modules inDegree emitted
  if level.isEmpty then ([], emitted)
  else
    let rest := kahnLoop (release modules inDegree level) (emitted ++ level)
    (level :: rest.1, rest.2)
termination_by (remaining modules emitted).length
decreasing_by
  rename_i nonempty
  rcases exists_mem_of_ne_nil level (by simpa using nonempty) with ⟨index, chosen⟩
  rcases mem_nextLevel.mp chosen with ⟨inRange, fresh, _⟩
  exact remaining_append_lt inRange fresh chosen

def moduleGa (index : ℕ) : String := ((modules[index]?).map (·.id.toGa)).getD ""

def renderPath (path : List ℕ) : String := " -> ".intercalate (path.map (moduleGa modules))

def follows (emitted path : List ℕ) (dependency : ℕ) : Bool :=
  (dependency < modules.length ∧ dependency ∉ emitted ∧ dependency ∉ path) ∨ dependency ∈ path

def followCycle (emitted path : List ℕ) (current : ℕ) : String :=
  match _ : (dependsOn modules current).find? (follows modules emitted path) with
  | none => renderPath modules path
  | some next =>
    if next ∈ path then renderPath modules (path.drop (path.idxOf next) ++ [next])
    else followCycle emitted (path ++ [next]) next
termination_by (remaining modules path).length
decreasing_by
  rename_i found fresh
  have goesOn := find?_some found
  simp only [follows, fresh, not_false_eq_true, and_true, or_false, decide_eq_true_eq] at goesOn
  exact remaining_append_lt goesOn.1 fresh (mem_singleton_self next)

def renderCycle (emitted : List ℕ) : String :=
  match (range modules.length).find? (· ∉ emitted) with
  | none => ""
  | some start => followCycle modules emitted [start] start

def kahnTopoLevels : Except ReactorError (List (List ℕ)) :=
  let (levels, emitted) := kahnLoop modules (fun index => (dependsOn modules index).length) []
  if emitted.length < modules.length then .error (.cycle (renderCycle modules emitted))
  else .ok levels

variable {modules}

theorem nodup_nextLevel {inDegree : ℕ → ℕ} {emitted : List ℕ} :
    (nextLevel modules inDegree emitted).Nodup :=
  nodup_range.filter _

theorem kahnLoop_emitted (inDegree : ℕ → ℕ) (emitted : List ℕ) (distinct : emitted.Nodup)
    (inRange : ∀ idx ∈ emitted, idx < modules.length) : (kahnLoop modules inDegree emitted).2 =
        emitted ++ (kahnLoop modules inDegree emitted).1.flatten ∧
      (kahnLoop modules inDegree emitted).2.Nodup ∧
      ∀ idx ∈ (kahnLoop modules inDegree emitted).2, idx < modules.length := by
  fun_induction kahnLoop modules inDegree emitted with
  | case1 inDegree emitted level done => exact ⟨by simp, distinct, inRange⟩
  | case2 inDegree emitted level more rest ih =>
    have apart : emitted.Disjoint level := by
      intro idx prior now
      exact (mem_nextLevel.mp now).2.1 prior
    rcases ih (distinct.append nodup_nextLevel apart) (by
      intro idx known
      rcases mem_append.mp known with prior | now
      · exact inRange idx prior
      · exact (mem_nextLevel.mp now).1) with ⟨listed, nodup, bounded⟩
    refine ⟨?_, nodup, bounded⟩
    simp only [flatten_cons, ← append_assoc]
    exact listed

theorem kahnTopoLevels_spec {levels : List (List ℕ)}
    (sorted : kahnTopoLevels modules = .ok levels) :
    levels.flatten.Nodup ∧ ∀ idx, idx ∈ levels.flatten ↔ idx < modules.length := by
  simp only [kahnTopoLevels] at sorted
  split at sorted
  · contradiction
  · rename_i complete
    rcases kahnLoop_emitted (fun idx => (dependsOn modules idx).length) []
      nodup_nil (by simp) with ⟨listed, nodup, bounded⟩
    simp only [nil_append] at listed
    rw [Except.ok.injEq] at sorted
    rw [listed, sorted] at nodup bounded complete
    refine ⟨nodup, fun idx => ⟨bounded idx, ?_⟩⟩
    -- Distinct indices below a bound, as many as the bound: none is missing.
    have everyIndex : levels.flatten.Perm (range modules.length) := by
      apply (subperm_of_subset nodup ?_).perm_of_length_le (by simpa using complete)
      intro idx emitted
      exact mem_range.mpr (bounded idx emitted)
    intro inRange
    exact everyIndex.mem_iff.mpr (mem_range.mpr inRange)

end Kahn

structure Reactor where
  modules : List ModuleNode
  topoLevels : List (List ℕ)
  distinct : topoLevels.flatten.Nodup
  complete : ∀ index, index ∈ topoLevels.flatten ↔ index < modules.length

namespace Reactor

variable (discovered : List DiscoveredModule)

def indexOf (id : ModuleId) : Option ℕ :=
  ((range discovered.length).filter fun index =>
    (discovered[index]?).map DiscoveredModule.id = some id).getLast?

def resolveEdges (position : ℕ) (dependencies : List ModuleId) : List ℕ :=
  ((dependencies.filterMap (indexOf discovered)).filter (· ≠ position)).insertionSort (· ≤ ·)
    |>.dedup

def moduleNodes (phase : MavenPhase) (includeClean : Bool) : List ModuleNode :=
  discovered.zipIdx.map fun (found, position) =>
    { id := found.id
      root := found.root
      actionGraph := lifecycleGraph phase found.root includeClean
      dependsOn := resolveEdges discovered position found.dependencyGas }

def fromDiscovered (phase : MavenPhase) (includeClean : Bool) : Except ReactorError Reactor :=
  let modules := moduleNodes discovered phase includeClean
  match sorted : kahnTopoLevels modules with
  | .error error => .error error
  | .ok levels => .ok
      { modules := modules
        topoLevels := levels
        distinct := (kahnTopoLevels_spec sorted).1
        complete := (kahnTopoLevels_spec sorted).2 }

theorem fromDiscovered_of_sorted {discovered : List DiscoveredModule} {phase : MavenPhase}
    {includeClean : Bool} {levels : List (List ℕ)}
    (sorted : kahnTopoLevels (moduleNodes discovered phase includeClean) = .ok levels) :
    fromDiscovered discovered phase includeClean = .ok
      ⟨moduleNodes discovered phase includeClean, levels, (kahnTopoLevels_spec sorted).1,
        (kahnTopoLevels_spec sorted).2⟩ := by
  simp only [fromDiscovered]
  split
  · rename_i failed
    cases sorted.symm.trans failed
  · rename_i succeeded
    cases sorted.symm.trans succeeded
    rfl

end Reactor

/-!
## The order of the levels

The levels of a reactor respect its dependencies: what a module depends on is in earlier levels.
A graph without cycles is sorted to its end.
-/

section Order

variable (modules : List ModuleNode)

def DependsOn (index dependency : ℕ) : Prop :=
  dependency ∈ dependsOn modules index

def Acyclic : Prop :=
  ∀ index, ¬Relation.TransGen (DependsOn modules) index index

structure Resolved : Prop where
  inRange : ∀ {index dependency}, DependsOn modules index dependency → dependency < modules.length
  distinct : ∀ index, (dependsOn modules index).Nodup

def Counts (inDegree : ℕ → ℕ) (emitted : List ℕ) : Prop :=
  ∀ index < modules.length, inDegree index = ((dependsOn modules index).filter (· ∉ emitted)).length

variable {modules} {idx : ℕ} {emitted : List ℕ} {inDegree : ℕ → ℕ}

theorem mem_reverseEdges {dependant : ℕ} : dependant ∈ reverseEdges modules idx ↔
      dependant < modules.length ∧ DependsOn modules dependant idx := by
  simp [reverseEdges, DependsOn]

theorem length_filter_notMem_concat {deps : List ℕ} (distinct : deps.Nodup)
    (fresh : idx ∉ emitted) : (deps.filter (· ∉ emitted ++ [idx])).length =
      if idx ∈ deps then (deps.filter (· ∉ emitted)).length - 1
      else (deps.filter (· ∉ emitted)).length := by
  have erased : deps.filter (· ∉ emitted ++ [idx]) = (deps.filter (· ∉ emitted)).erase idx := by
    rw [(distinct.filter _).erase_eq_filter, filter_filter]
    apply filter_congr
    intro dep _
    by_cases same : dep = idx <;> simp [same]
  rw [erased, length_erase]
  simp [fresh]

section Loop

variable (res : Resolved modules) (counts : Counts modules inDegree emitted)

include res counts

theorem Counts.release {level : List ℕ} (distinct : level.Nodup)
    (fresh : ∀ idx ∈ level, idx ∉ emitted) :
    Counts modules (Daemon.release modules inDegree level) (emitted ++ level) := by
  induction level generalizing inDegree emitted with
  | nil => simpa [Daemon.release] using counts
  | cons idx level ih =>
    rcases nodup_cons.mp distinct with ⟨once, distinct⟩
    have first : Counts modules
        (fun dependant => if dependant ∈ reverseEdges modules idx then inDegree dependant - 1
          else inDegree dependant) (emitted ++ [idx]) := by
      intro dependant inRange
      rw [length_filter_notMem_concat (res.distinct dependant) (fresh idx (by simp)),
        ← counts dependant inRange]
      exact if_congr (mem_reverseEdges.trans (and_iff_right inRange)) rfl rfl
    have rest := ih first distinct (by
      intro other later
      simp only [mem_append, mem_singleton, not_or]
      exact ⟨fresh other (by simp [later]), fun same => once (same ▸ later)⟩)
    rwa [append_assoc, singleton_append] at rest

theorem Counts.nextLevel :
    Counts modules (Daemon.release modules inDegree (Daemon.nextLevel modules inDegree emitted))
      (emitted ++ Daemon.nextLevel modules inDegree emitted) :=
  counts.release res nodup_nextLevel fun _ mem => (mem_nextLevel.mp mem).2.1

/-- Every module is in a later level than its dependencies. -/
def Ordered (modules : List ModuleNode) (levels : List (List ℕ)) : Prop :=
  ∀ before level after, levels = before ++ level :: after →
    ∀ index ∈ level, ∀ dependency, DependsOn modules index dependency → dependency ∈ before.flatten

omit res counts in
theorem Ordered.transitive {levels : List (List ℕ)} (ordered : Ordered modules levels)
    {pre post : List (List ℕ)} {level : List ℕ} (split : levels = pre ++ level :: post)
    {dep : ℕ} (mem : idx ∈ level) (depends : Relation.TransGen (DependsOn modules) idx dep) :
    dep ∈ pre.flatten := by
  induction depends with
  | single depends => exact ordered pre level post split idx mem _ depends
  | tail _ depends ih =>
    rcases mem_flatten.mp ih with ⟨prior, listed, mem⟩
    rcases append_of_mem listed with ⟨first, last, rfl⟩
    have found := ordered first prior (last ++ level :: post) (by simp [split]) _ mem _ depends
    simp [mem_flatten.mp found]

theorem kahnLoop_ordered :
    ∀ pre level post, (kahnLoop modules inDegree emitted).1 = pre ++ level :: post →
      ∀ idx ∈ level, ∀ dep, DependsOn modules idx dep → dep ∈ emitted ++ pre.flatten := by
  fun_induction kahnLoop modules inDegree emitted with
  | case1 inDegree emitted level done => simp
  | case2 inDegree emitted level more rest ih =>
    intro pre other post split idx mem dep depends
    rcases pre with _ | ⟨_, pre⟩
    · rw [nil_append, List.cons.injEq] at split
      rw [← split.1] at mem
      rcases mem_nextLevel.mp mem with ⟨inRange, _, released⟩
      have none := counts idx inRange
      rw [released, eq_comm, length_eq_zero_iff, filter_eq_nil_iff] at none
      simpa using none dep depends
    · rw [cons_append, List.cons.injEq] at split
      have found := ih (counts.nextLevel res) pre other post split.2 idx mem dep depends
      rw [← split.1, flatten_cons]
      simpa [or_assoc] using found

end Loop

theorem Acyclic.wellFounded (acyclic : Acyclic modules) :
    WellFounded fun dep idx : Fin modules.length =>
      Relation.TransGen (DependsOn modules) idx dep := by
  have trans : IsTrans (Fin modules.length) fun dep idx =>
      Relation.TransGen (DependsOn modules) idx dep := ⟨fun _ _ _ deep high => high.trans deep⟩
  have irrefl : Std.Irrefl fun dep idx : Fin modules.length =>
      Relation.TransGen (DependsOn modules) (idx : ℕ) dep := ⟨fun idx => acyclic idx⟩
  exact Finite.wellFounded_of_trans_of_irrefl _

theorem kahnLoop_complete (res : Resolved modules) (acyclic : Acyclic modules)
    (counts : Counts modules inDegree emitted) :
    ∀ idx < modules.length, idx ∈ (kahnLoop modules inDegree emitted).2 := by
  fun_induction kahnLoop modules inDegree emitted with
  | case1 inDegree emitted level done =>
    intro idx inRange
    by_contra left
    -- A module that is left and depends on no other one that is left would be in the level.
    rcases acyclic.wellFounded.has_min {idx | (idx : ℕ) ∉ emitted} ⟨⟨idx, inRange⟩, left⟩ with
      ⟨lowest, unemitted, minimal⟩
    have released : inDegree lowest = 0 := by
      rw [counts lowest lowest.isLt, length_eq_zero_iff, filter_eq_nil_iff]
      intro dep depends
      by_contra still
      exact minimal ⟨dep, res.inRange depends⟩ (by simpa using still) (.single depends)
    have chosen : (lowest : ℕ) ∈ level := mem_nextLevel.mpr ⟨lowest.isLt, unemitted, released⟩
    rw [List.isEmpty_iff.mp done] at chosen
    exact not_mem_nil chosen
  | case2 inDegree emitted level more rest ih =>
    exact ih (counts.nextLevel res)

theorem counts_start (modules : List ModuleNode) :
    Counts modules (fun idx => (dependsOn modules idx).length) [] := by
  intro idx _
  simp

theorem kahnTopoLevels_ordered (res : Resolved modules) {levels : List (List ℕ)}
    (sorted : kahnTopoLevels modules = .ok levels) : Ordered modules levels := by
  simp only [kahnTopoLevels] at sorted
  split_ifs at sorted
  rw [Except.ok.injEq] at sorted
  intro pre level post split
  rw [← sorted] at split
  simpa using kahnLoop_ordered res (counts_start modules) pre level post split

theorem acyclic_of_kahnTopoLevels (res : Resolved modules) {levels : List (List ℕ)}
    (sorted : kahnTopoLevels modules = .ok levels) : Acyclic modules := by
  intro idx cycle
  rcases kahnTopoLevels_spec sorted with ⟨distinct, complete⟩
  rcases Relation.TransGen.tail'_iff.mp cycle with ⟨_, _, last⟩
  rcases mem_flatten.mp ((complete idx).mpr (res.inRange last)) with ⟨level, listed, mem⟩
  rcases append_of_mem listed with ⟨pre, post, rfl⟩
  have prior := (kahnTopoLevels_ordered res sorted).transitive rfl mem cycle
  rw [flatten_append, flatten_cons] at distinct
  exact (nodup_append'.mp distinct).2.2 prior (mem_append_left _ mem)

theorem kahnTopoLevels_of_acyclic (res : Resolved modules) (acyclic : Acyclic modules) :
    ∃ levels, kahnTopoLevels modules = .ok levels := by
  have complete := kahnLoop_complete res acyclic (counts_start modules)
  have all : modules.length ≤
      (kahnLoop modules (fun idx => (dependsOn modules idx).length) []).2.length := by
    have inside := subperm_of_subset (nodup_range : (range modules.length).Nodup)
      fun idx mem => complete idx (mem_range.mp mem)
    simpa using inside.length_le
  exact ⟨_, if_neg (not_lt.mpr all)⟩

namespace Reactor

theorem indexOf_lt {discovered : List DiscoveredModule} {id : ModuleId} {idx : ℕ}
    (found : indexOf discovered id = some idx) : idx < discovered.length := by
  have mem := mem_of_getLast? found
  exact mem_range.mp (mem_of_mem_filter mem)

theorem resolved_moduleNodes (discovered : List DiscoveredModule) (phase : MavenPhase)
    (includeClean : Bool) : Resolved (moduleNodes discovered phase includeClean) := by
  have edges (idx : ℕ) : ∃ pos deps, dependsOn (moduleNodes discovered phase includeClean) idx =
        resolveEdges discovered pos deps := by
    simp only [dependsOn, moduleNodes, getElem?_map, getElem?_zipIdx]
    rcases discovered[idx]? with _ | _
    · exact ⟨0, [], rfl⟩
    · exact ⟨_, _, rfl⟩
  constructor
  · intro idx dep depends
    rcases edges idx with ⟨pos, deps, same⟩
    rw [DependsOn, same] at depends
    simp only [resolveEdges, mem_dedup, mem_insertionSort, mem_filter, mem_filterMap] at depends
    rcases depends with ⟨⟨id, _, found⟩, _⟩
    simpa [moduleNodes] using indexOf_lt found
  · intro idx
    rcases edges idx with ⟨pos, deps, same⟩
    rw [same]
    exact nodup_dedup _

variable {discovered : List DiscoveredModule} {phase : MavenPhase} {includeClean : Bool}

theorem ordered_of_fromDiscovered {reactor : Reactor}
    (built : fromDiscovered discovered phase includeClean = .ok reactor) :
    Ordered reactor.modules reactor.topoLevels := by
  simp only [fromDiscovered] at built
  split at built
  · cases built
  · rename_i sorted
    cases built
    exact kahnTopoLevels_ordered (resolved_moduleNodes discovered phase includeClean) sorted

theorem fromDiscovered_of_acyclic (acyclic : Acyclic (moduleNodes discovered phase includeClean)) :
    ∃ reactor, fromDiscovered discovered phase includeClean = .ok reactor ∧
      reactor.modules = moduleNodes discovered phase includeClean ∧
      Ordered reactor.modules reactor.topoLevels := by
  have res := resolved_moduleNodes discovered phase includeClean
  rcases kahnTopoLevels_of_acyclic res acyclic with ⟨levels, sorted⟩
  exact ⟨_, fromDiscovered_of_sorted sorted, rfl, kahnTopoLevels_ordered res sorted⟩

variable (discovered) in
/-- The module at `index` names the one at `dependency`, which may be itself. -/
def Declares (index dependency : ℕ) : Prop :=
  ∃ found, discovered[index]? = some found ∧
    ∃ id ∈ found.dependencyGas, indexOf discovered id = some dependency

theorem dependsOn_moduleNodes {idx dep : ℕ} :
    DependsOn (moduleNodes discovered phase includeClean) idx dep ↔
      Declares discovered idx dep ∧ dep ≠ idx := by
  simp only [DependsOn, dependsOn, moduleNodes, getElem?_map, getElem?_zipIdx, Declares]
  rcases discovered[idx]? with _ | found
  · simp
  · simp [resolveEdges]

theorem transGen_dependsOn {idx dep : ℕ} (ne : idx ≠ dep)
    (declares : Relation.TransGen (Declares discovered) idx dep) :
    Relation.TransGen (DependsOn (moduleNodes discovered phase includeClean)) idx dep := by
  induction declares using Relation.TransGen.head_induction_on with
  | single declares => exact .single (dependsOn_moduleNodes.mpr ⟨declares, ne.symm⟩)
  | @head idx mid declares _ ih =>
    -- an edge from a module to itself is skipped
    by_cases same : mid = idx
    · exact same ▸ ih (same ▸ ne)
    · have depends : DependsOn (moduleNodes discovered phase includeClean) idx mid :=
        dependsOn_moduleNodes.mpr ⟨declares, same⟩
      by_cases last : mid = dep
      · exact last ▸ .single depends
      · exact .head depends (ih last)

/-- A reactor is built exactly if no two different modules depend on each other, directly or through
others.  A module that names itself does no harm. -/
theorem exists_fromDiscovered_iff :
    (∃ reactor, fromDiscovered discovered phase includeClean = .ok reactor) ↔
      ∀ first second, Relation.TransGen (Declares discovered) first second →
        Relation.TransGen (Declares discovered) second first → first = second := by
  constructor
  · rintro ⟨reactor, built⟩ first second there back
    have acyclic : Acyclic (moduleNodes discovered phase includeClean) := by
      simp only [fromDiscovered] at built
      split at built
      · cases built
      · rename_i sorted
        exact acyclic_of_kahnTopoLevels (resolved_moduleNodes _ _ _) sorted
    by_contra ne
    exact acyclic first ((transGen_dependsOn ne there).trans (transGen_dependsOn (Ne.symm ne) back))
  · intro apart
    have acyclic : Acyclic (moduleNodes discovered phase includeClean) := by
      intro idx cycle
      rcases Relation.TransGen.head'_iff.mp cycle with ⟨next, edge, back⟩
      rcases dependsOn_moduleNodes.mp edge with ⟨declares, ne⟩
      have returns := Relation.reflTransGen_iff_eq_or_transGen.mp back
      rcases returns with same | returns
      · exact ne same.symm
      · refine ne (apart idx next (.single declares) ?_).symm
        exact Relation.TransGen.mono (fun _ _ edge => (dependsOn_moduleNodes.mp edge).1) _ _ returns
    exact (fromDiscovered_of_acyclic acyclic).imp fun _ built => built.1

end Reactor

end Order

end Barista.Daemon
