import Barista.Resolver.Completeness
import Barista.Resolver.StrictSnapshot

/-!
# Nearest wins

With soft declarations only, the version of a package is the one that the nearest declaration asks
for, and of several equally near ones the first.
-/

namespace Barista.Resolver

open List Option

variable {RawPom ResolvedPom Activation : Type}

structure SoftDeclaration (toLowercase : String → String) (raw : RawDependency) : Prop where
  version : ∃ text version, raw.version = some text ∧
    VersionSpec.parse toLowercase text = .ok (.soft version)
  exclusions : raw.exclusions = []
  optional : isOptional raw = false
  scope : scopeOrDefault raw = "compile"

namespace SoftDeclaration

variable {lower : String → String} {raw : RawDependency}

section Declared

variable (soft : SoftDeclaration lower raw)

include soft

theorem trim_scope {text : String}
    (written : raw.scope = some text) : Text.trim text = "" ∨ Text.trim text = "compile" := by
  have scope := soft.scope
  by_cases blank : Text.trim text = ""
  · exact Or.inl blank
  · simp only [scopeOrDefault, written, map_some, filter_some, blank, ne_eq,
      not_false_eq_true, decide_true, ↓reduceIte, getD_some] at scope
    exact Or.inr scope

theorem scope_eq : Scope.parse raw.scope = .compile := by
  rcases written : raw.scope with _ | _
  · rfl
  · simp only [Scope.parse, map_some, getD_some]
    exact if_pos (soft.trim_scope written).symm

theorem optional_eq : parseBool raw.optional = false := by
  have optional := soft.optional
  rcases written : raw.optional with _ | _
  · rfl
  · simp only [isOptional, written, map_some, getD_some] at optional
    simp only [parseBool, map_some, beq_eq_false_iff_ne, ne_eq, Option.some.injEq]
    intro isTrue
    rw [isTrue] at optional
    revert optional
    decide

omit soft in
theorem admits_eq {item : WorkItem} (soft : SoftDeclaration lower item.dep)
    (unexcluded : item.exclusions = []) (scope : item.effectiveScope = some .compile)
    (stripOptional : Bool) :
    item.admits stripOptional = (Coords.new item.dep.groupId item.dep.artifactId).toOption := by
  rcases named : Coords.new item.dep.groupId item.dep.artifactId with _ | _
  · rw [WorkItem.admits, named]
    rfl
  · apply admits_eq_some.mpr
    refine ⟨named, ?_, ⟨.compile, scope⟩, ?_⟩
    · rw [unexcluded]
      rfl
    · rw [soft.optional_eq]
      rfl

theorem effectiveScope_direct : (WorkItem.direct raw).effectiveScope = some .compile := by
  simp [WorkItem.effectiveScope, WorkItem.direct, soft.scope_eq]

theorem effectiveScope_candidate
    {edge : Coords → RawDependency} {win : ResolvedDep} (scope : win.scope = .compile) :
    (candidate edge win raw).effectiveScope = some .compile := by
  simp [WorkItem.effectiveScope, candidate, scope, soft.scope_eq, Scope.inherit]

end Declared

end SoftDeclaration

theorem visitedDeps_of_soft {lower : String → String} {deps : List RawDependency}
    (soft : ∀ raw ∈ deps, SoftDeclaration lower raw) : visitedDeps deps = deps := by
  rw [visitedDeps, filter_eq_self]
  intro raw mem
  simp [(soft raw mem).scope_eq]

variable (lower : String → String) (pipe : PomPipeline RawPom ResolvedPom Activation)
  (source : MetadataSource RawPom) (opts : WalkOptions RawPom ResolvedPom Activation)
  (root : ResolvedPom)

def asked (raw : RawDependency) : Option (Coords × String) :=
  match Coords.new raw.groupId raw.artifactId with
  | .error _ => none
  | .ok coords =>
    match (resolveVersion lower source opts coords raw).run opts.oreq with
    | .error _ => none
    | .ok ((version, _), _) => some (coords, version)

def nearestGraph : Graph RawDependency Coords where
  first := pipe.dependencies root
  next raw :=
    match asked lower source opts raw with
    | none => []
    | some (coords, version) =>
      declaredBy lower pipe source opts ((WorkItem.direct raw).record coords .compile version)
  key raw := (Coords.new raw.groupId raw.artifactId).toOption

/-- The first declaration in breadth-first order asks for this version. -/
def Nearest (coords : Coords) (version : String) : Prop :=
  ∃ order, (nearestGraph lower pipe source opts root).IsOrder order ∧
    ∃ raw ∈ order, asked lower source opts raw = some (coords, version)

structure SoftEffective : Prop where
  root : ∀ raw ∈ pipe.dependencies root, SoftDeclaration lower raw
  poms : ∀ winner resolved, effectivePom lower pipe source opts winner = .ok resolved →
    ∀ raw ∈ pipe.dependencies resolved, SoftDeclaration lower raw

structure SoftWinner (edge : Coords → RawDependency) (winner : ResolvedDep) : Prop where
  scope : winner.scope = .compile
  unexcluded : ∀ coords ∈ winner.winningPath, (edge coords).exclusions = []

def ResolvedGraph.Selects (graph : ResolvedGraph) (coords : Coords) (version : String) : Prop :=
  ∃ winner, graph.winners[coords]? = some winner ∧ winner.version = version

section Walk

variable {lower pipe source opts root} {edge : Coords → RawDependency} {graph : ResolvedGraph}
  {item : WorkItem} {win : ResolvedDep}

theorem asked_of_wonBy (won : WonBy lower source opts edge item win) :
    asked lower source opts item.dep = some (win.coords, win.version) := by
  rcases won.version with ⟨fetch, warnings, ver⟩
  rcases map_eq_ok.mp ver with ⟨⟨_, post⟩, ran, rfl⟩
  simp only [asked, (admits_eq_some.mp won.admits).1, ran]

theorem next_of_wonBy (won : WonBy lower source opts edge item win)
    (compile : win.scope = .compile) : (nearestGraph lower pipe source opts root).next item.dep =
      declaredBy lower pipe source opts win := by
  simp only [nearestGraph, asked_of_wonBy won]
  rw [won.record, compile]
  rfl

theorem SoftWinner.exclusions_eq (softWinner : SoftWinner edge win) (dep : RawDependency) :
    (candidate edge win dep).exclusions = [] :=
  flatMap_eq_nil_iff.mpr softWinner.unexcluded

variable (soft : SoftEffective lower pipe source opts root)
  (mediated : Mediated lower pipe source opts edge root graph)

include soft

theorem softDeclaration_of_declaredBy {dep : RawDependency}
    (decl : dep ∈ declaredBy lower pipe source opts win) :
    SoftDeclaration lower dep := by
  rcases of_mem_declaredBy decl with ⟨res, eff, visited⟩
  exact soft.poms win res eff dep (mem_of_visited visited).1

include mediated

theorem softWinner_of_mediated (listed : win ∈ graph.resolved) : SoftWinner edge win := by
  refine mediated.induction_on ?_ ?_ listed
  · intro dep win visited listed won
    have softDep := soft.root dep (mem_of_visited visited).1
    have scope := won.scope
    rw [softDep.effectiveScope_direct, Option.some.injEq] at scope
    refine ⟨scope.symm, ?_⟩
    intro coords mem
    have path : win.winningPath = [win.coords] := won.winningPath_eq
    rw [path, mem_singleton] at mem
    rw [mem, won.edge]
    exact softDep.exclusions
  · intro parent dep win parentListed decl listed won softParent
    have softDep := softDeclaration_of_declaredBy soft decl
    have scope := won.scope
    rw [softDep.effectiveScope_candidate softParent.scope, Option.some.injEq] at scope
    refine ⟨scope.symm, ?_⟩
    intro coords mem
    have path : win.winningPath = parent.winningPath ++ [win.coords] := won.winningPath_eq
    rw [path, mem_append, mem_singleton] at mem
    rcases mem with prior | rfl
    · exact softParent.unexcluded coords prior
    · rw [won.edge]
      exact softDep.exclusions

theorem exists_softItem (listed : win ∈ graph.resolved) :
    ∃ item, WonBy lower source opts edge item win ∧ edge win.coords = item.dep ∧
      win.scope = .compile := by
  rcases mediated.exists_wonBy listed with ⟨item, -, won⟩
  exact ⟨item, won, won.edge, (softWinner_of_mediated soft mediated listed).scope⟩

theorem next_edge (listed : win ∈ graph.resolved) :
    (nearestGraph lower pipe source opts root).next (edge win.coords) =
      declaredBy lower pipe source opts win := by
  rcases exists_softItem soft mediated listed with ⟨item, won, isEdge, compile⟩
  rw [isEdge]
  exact next_of_wonBy won compile

theorem admits_of_mem_candidates
    (isCandidate : item ∈ candidates lower pipe source opts edge root graph.resolved) :
    item.admits opts.stripOptional = (nearestGraph lower pipe source opts root).key item.dep := by
  rcases mem_append.mp isCandidate with isDirect | isChild
  · rcases List.mem_map.mp isDirect with ⟨dep, visited, rfl⟩
    have softDep := soft.root dep (mem_of_visited visited).1
    exact SoftDeclaration.admits_eq softDep rfl softDep.effectiveScope_direct _
  · rcases mem_flatMap.mp isChild with ⟨parent, parentListed, isChild⟩
    rcases List.mem_map.mp isChild with ⟨dep, decl, rfl⟩
    have softDep := softDeclaration_of_declaredBy soft decl
    have softParent := softWinner_of_mediated soft mediated parentListed
    exact SoftDeclaration.admits_eq softDep (softParent.exclusions_eq dep)
      (softDep.effectiveScope_candidate softParent.scope) _

theorem isOrder_of_mediated : (nearestGraph lower pipe source opts root).IsOrder
    (graph.resolved.map fun win => edge win.coords) := by
  have decl : (candidates lower pipe source opts edge root graph.resolved).map
      WorkItem.dep = pipe.dependencies root ++
        (graph.resolved.map fun win => edge win.coords).flatMap
          (nearestGraph lower pipe source opts root).next := by
    rw [candidates, map_append, List.map_map, visitedDeps_of_soft soft.root, map_flatMap,
      flatMap_map]
    congr 1
    · exact List.map_id _
    · apply flatMap_congr
      intro win listed
      rw [next_edge soft mediated listed, List.map_map]
      exact List.map_id _
  have won : (firsts (WorkItem.admits opts.stripOptional)
      (candidates lower pipe source opts edge root graph.resolved)).map WorkItem.dep =
        graph.resolved.map fun win => edge win.coords := by
    rw [← forall₂_eq_eq_eq, forall₂_map_left_iff, forall₂_map_right_iff]
    exact mediated.won.imp fun _ _ won => won.edge.symm
  apply Graph.isOrder_of_complete
  · change firsts _ (pipe.dependencies root ++ _) = _
    rw [← decl, firsts_map, ← won]
    rw [firsts_congr fun item isCandidate =>
      (admits_of_mem_candidates soft mediated isCandidate).symm]
  · intro motive first next node mem
    rcases List.mem_map.mp mem with ⟨win, listed, rfl⟩
    refine mediated.induction_on (motive := fun win => motive (edge win.coords)) ?_ ?_ listed
    · intro dep win visited listed won
      rw [won.edge]
      exact first dep (mem_of_visited visited).1
    · intro parent dep win parentListed decl listed won holds
      rw [won.edge]
      refine next _ (mem_map_of_mem parentListed) holds dep ?_
      rwa [next_edge soft mediated parentListed]

theorem nearest_iff_of_mediated (coords : Coords) (ver : String) :
    Nearest lower pipe source opts root coords ver ↔ graph.Selects coords ver := by
  have order := isOrder_of_mediated soft mediated
  constructor
  · rintro ⟨other, otherOrder, raw, mem, asks⟩
    rw [otherOrder.unique order] at mem
    rcases List.mem_map.mp mem with ⟨win, listed, rfl⟩
    rcases mediated.exists_wonBy listed with ⟨item, -, won⟩
    rw [won.edge, asked_of_wonBy won] at asks
    cases asks
    exact ⟨win, mediated.lookup listed, rfl⟩
  · rintro ⟨win, found, rfl⟩
    rcases mediated.listed found with ⟨listed, rfl⟩
    rcases mediated.exists_wonBy listed with ⟨item, -, won⟩
    refine ⟨_, order, _, mem_map_of_mem listed, ?_⟩
    rw [won.edge]
    exact asked_of_wonBy won

end Walk

end Barista.Resolver
