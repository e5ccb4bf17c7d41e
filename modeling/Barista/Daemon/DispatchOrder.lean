import Barista.Daemon.FailFast

/-!
# The result of a dispatch

A dispatch never gets stuck, and each of its steps brings its end nearer.  It returns what the
sequential dispatch returns, which is a success exactly when every planned action has run and has
passed.
-/

namespace Barista.Daemon.ReactorRun

open List Command

variable {cmd : Command} {reactor : Reactor} {world : Surroundings} {workers : ℕ}
  {run run' : ReactorRun}

namespace Invariant

variable {idx : ℕ}

theorem exists_step_of_running (inv : Invariant cmd reactor world workers run)
    (holds : (run.tasks idx).isRunning = true) :
    ∃ next, Step cmd reactor world run next := by
  have active : (run.tasks idx).IsActive := by
    cases task : run.tasks idx <;> simp_all [ModuleTask.isRunning, ModuleTask.IsActive]
  rcases inv.module_of_active active with ⟨node, found⟩
  cases task : run.tasks idx with
  | unborn | waiting | done outcome => simp [task, ModuleTask.isRunning] at holds
  | working pos out =>
    rcases Nat.eq_zero_or_pos out.failedActions with passed | failed
    · rcases planned : node.actionGraph.actions[pos]? with _ | act
      · exact ⟨_, .stop idx pos out node task found (.inr planned)⟩
      · exact ⟨_, .submit idx pos out node act task passed found planned⟩
    · exact ⟨_, .stop idx pos out node task found (.inl failed)⟩
  | awaiting pos out =>
    have accounts := inv.accounts idx node found
    rw [task] at accounts
    rcases accounts with ⟨-, -, ⟨act, planned⟩, -⟩
    exact ⟨_, .answer idx pos out node act task found planned⟩
  | leaving outcome => exact ⟨_, .leave idx outcome task⟩

theorem exists_step (inv : Invariant cmd reactor world workers run)
    (going : run.returned = none) : ∃ next, Step cmd reactor world run next := by
  rcases spawning : run.spawning with _ | ⟨idx, rest⟩
  · rcases joining : run.joining with _ | ⟨idx, rest⟩
    · rcases aborted : run.aborted with _ | _
      · rcases levels : run.levels with _ | ⟨level, rest⟩
        · exact ⟨_, .finish spawning joining going (.inr levels)⟩
        · exact ⟨_, .nextLevel level rest spawning joining going aborted levels⟩
      · exact ⟨_, .finish spawning joining going (.inl aborted)⟩
    · cases task : run.tasks idx with
      | unborn =>
        rcases inv.barrier with ⟨finished, joined, barrier⟩
        exact absurd task (barrier.spawned idx (joining ▸ mem_cons_self))
      | waiting =>
        rcases Nat.eq_zero_or_pos run.permits with none | free
        · -- All permits are taken, so one of their holders can go on.
          have permits := inv.permits
          have some : 0 < (running reactor run).length := by omega
          rcases exists_mem_of_length_pos some with ⟨other, mem⟩
          exact inv.exists_step_of_running (mem_filter.mp mem).2
        · exact ⟨_, .acquire idx task free⟩
      | working pos out | awaiting pos out | leaving outcome =>
        exact inv.exists_step_of_running (by rw [task]; rfl)
      | done outcome => exact ⟨_, .join idx rest outcome spawning joining task⟩
  · exact ⟨_, .spawn idx rest spawning⟩

end Invariant

def actionCount (reactor : Reactor) (index : ℕ) : ℕ :=
  ((reactor.modules[index]?).map fun node => node.actionGraph.actions.length).getD 0

variable {idx : ℕ} {task : ModuleTask} {tasks : ℕ → ModuleTask}

theorem actionCount_of_found {node : ModuleNode} (found : reactor.modules[idx]? = some node) :
    actionCount reactor idx = node.actionGraph.actions.length := by
  simp [actionCount, found]

def taskWork (count : ℕ) : ModuleTask → ℕ
  | .unborn => 2 * count + 4
  | .waiting => 2 * count + 3
  | .working position _ => 2 * (count - position) + 2
  | .awaiting position _ => 2 * (count - position) + 1
  | .leaving _ => 1
  | .done _ => 0

def work (reactor : Reactor) (run : ReactorRun) : ℕ :=
  ∑ index ∈ Finset.range reactor.modules.length,
      taskWork (actionCount reactor index) (run.tasks index) +
    (2 * run.levels.flatten.length + run.levels.length + 2 * run.spawning.length +
      run.joining.length + run.returned.isNone.toNat)

theorem sum_taskWork_lt (inRange : idx < reactor.modules.length)
    (less : taskWork (actionCount reactor idx) task < taskWork (actionCount reactor idx) (tasks
      idx)) :
    ∑ other ∈ Finset.range reactor.modules.length,
        taskWork (actionCount reactor other) (Function.update tasks idx task other) <
      ∑ other ∈ Finset.range reactor.modules.length,
        taskWork (actionCount reactor other) (tasks other) := by
  apply Finset.sum_lt_sum
  · intro other _
    by_cases same : other = idx
    · subst same
      simpa using less.le
    · rw [Function.update_of_ne same]
  · exact ⟨idx, Finset.mem_range.mpr inRange, by simpa using less⟩

theorem sum_taskWork_le
    (less : taskWork (actionCount reactor idx) task ≤ taskWork (actionCount reactor idx) (tasks
      idx)) :
    ∑ other ∈ Finset.range reactor.modules.length,
        taskWork (actionCount reactor other) (Function.update tasks idx task other) ≤
      ∑ other ∈ Finset.range reactor.modules.length,
        taskWork (actionCount reactor other) (tasks other) := by
  apply Finset.sum_le_sum
  intro other _
  by_cases same : other = idx
  · subst same
    simpa using less
  · rw [Function.update_of_ne same]

namespace Invariant

theorem work_lt (inv : Invariant cmd reactor world workers run)
    (step : Step cmd reactor world run run') : run'.work reactor < run.work reactor := by
  have inRange {idx : ℕ} {node : ModuleNode} (found : reactor.modules[idx]? = some node) :
      idx < reactor.modules.length := (List.getElem?_eq_some_iff.mp found).1
  cases step with
  | nextLevel level rest spawned joined going passed more =>
    simp only [work, more, spawned, flatten_cons, length_append, length_cons, length_nil]
    omega
  | spawn idx rest turn =>
    rcases inv.barrier with ⟨finished, joined, barrier⟩
    have fresh := barrier.unborn idx (barrier.fresh_of_spawning (turn ▸ mem_cons_self))
    have less := @sum_taskWork_le reactor idx .waiting run.tasks (by simp [fresh, taskWork])
    simp only [work, setTask, turn, length_append, length_cons, length_nil]
    omega
  | join idx rest outcome spawned turn done =>
    simp only [work, turn, length_cons]
    omega
  | finish spawned joined going ends =>
    simp [work, going]
  | acquire idx turn free | leave idx outcome turn =>
    have active : (run.tasks idx).IsActive := by simp [turn, ModuleTask.IsActive]
    rcases inv.module_of_active active with ⟨node, found⟩
    exact Nat.add_lt_add_right (sum_taskWork_lt (inRange found) (by simp [turn, taskWork])) _
  | submit idx pos out node act turn passed found planned | stop idx pos out node turn found ends =>
    exact Nat.add_lt_add_right (sum_taskWork_lt (inRange found) (by simp [turn, taskWork])) _
  | answer idx pos out node act turn found planned =>
    apply Nat.add_lt_add_right (sum_taskWork_lt (inRange found) _) _
    have place := (List.getElem?_eq_some_iff.mp planned).1
    rw [turn, actionCount_of_found found]
    rcases cmd.answerTo node (world.schedule idx pos) act with _ | _
    · simp only [ModuleTask.afterAnswer, taskWork]
      omega
    · simp only [ModuleTask.afterAnswer, taskWork]
      omega

end Invariant

theorem aggregate_passes {total : ModuleOutcome}
    {outcomes : List (Except VerifyError ModuleOutcome)} :
    (∃ out, Command.aggregate total outcomes = .ok out ∧ out.failedActions = 0) ↔
      total.failedActions = 0 ∧ ∀ outcome ∈ outcomes, Command.aborts outcome = false := by
  induction outcomes generalizing total with
  | nil => simp [Command.aggregate]
  | cons first rest ih =>
    rcases first with _ | _
    · simp [Command.aggregate, Command.aborts]
    · simp only [Command.aggregate, ih, forall_mem_cons, Command.aborts]
      simp [and_assoc]

theorem lookup_map_pair {keys : List ℕ} {val : ℕ → Except VerifyError ModuleOutcome} (idx : ℕ) :
    (keys.map fun key => (key, val key)).lookup idx =
      if idx ∈ keys then some (val idx) else none := by
  induction keys with
  | nil => rfl
  | cons key keys ih =>
    rw [map_cons, lookup_cons, ih]
    by_cases same : idx = key
    · simp [same]
    · have differs : (idx == key) = false := by simp [same]
      rw [differs]
      simp [same]

namespace Barrier

variable {finished : List (List ℕ)} {joined : List ℕ}

section Joined

variable (barrier : Barrier cmd reactor world finished joined run)

include barrier

theorem lookup_moduleResults (idx : ℕ) : run.moduleResults.lookup idx =
      if idx ∈ finished.flatten ++ joined then
        some (outcomeOf cmd reactor world idx)
      else none := by
  rw [barrier.results, lookup_map_pair]

theorem mem_lt {idx : ℕ}
    (mem : idx ∈ finished.flatten ++ joined) : idx < reactor.modules.length := by
  have listed : idx ∈ ([] :: reactor.topoLevels).flatten := by
    rw [barrier.levels]
    rcases mem_append.mp mem with prior | now
    · simp [mem_flatten.mp prior]
    · simp [now]
  exact (reactor.complete idx).mp listed

theorem collected_passes :
    (∃ out, Command.aggregate .empty (run.collected reactor) = .ok out ∧ out.failedActions = 0) ↔
      ∀ idx ∈ finished.flatten ++ joined, ModulePasses reactor.modules world.schedule idx := by
  rw [aggregate_passes]
  constructor
  · rintro ⟨-, passed⟩ idx mem
    apply aborts_outcomeOf.mp
    apply passed
    apply mem_filterMap.mpr
    refine ⟨idx, mem_range.mpr (barrier.mem_lt mem), ?_⟩
    rw [barrier.lookup_moduleResults, if_pos mem]
  · intro passes
    refine ⟨rfl, ?_⟩
    intro outcome mem
    rcases mem_filterMap.mp mem with ⟨idx, -, found⟩
    rw [barrier.lookup_moduleResults] at found
    split_ifs at found with joined
    cases found
    exact aborts_outcomeOf.mpr (passes idx joined)

theorem all_joined (spawned : run.spawning = []) (nothing : run.joining = [])
    (ends : run.aborted = true ∨ run.levels = []) (passes : ∀ idx ∈ finished.flatten ++ joined,
      ModulePasses reactor.modules world.schedule idx) {idx : ℕ}
    (inRange : idx < reactor.modules.length) : idx ∈ finished.flatten ++ joined := by
  have unaborted : run.aborted = false := by
    rw [barrier.aborted, any_eq_false]
    intro other mem
    simpa using aborts_outcomeOf.mpr (passes other (mem_append_right _ mem))
  have last : run.levels = [] := by
    rcases ends with aborted | last
    · simp [unaborted] at aborted
    · exact last
  have listed : idx ∈ ([] :: reactor.topoLevels).flatten := (reactor.complete idx).mpr inRange
  rw [barrier.levels, spawned, nothing, last] at listed
  simpa using listed

end Joined

end Barrier

theorem Invariant.returned_passes (inv : Invariant cmd reactor world workers run)
    {result : Except VerifyError ModuleOutcome} (ret : run.returned = some result) :
    (∃ out, result = .ok out ∧ out.failedActions = 0) ↔ world.runtime = none ∧
        ∀ idx pos act, plannedAt reactor.modules idx pos = some act → PassedIn run.log idx pos := by
  rcases inv.barrier with ⟨finished, joined, barrier⟩
  rcases inv.returned result ret with
    ⟨detail, err, failed, rfl⟩ | ⟨built, spawned, nothing, ends, rfl⟩
  · simp [failed]
  rw [barrier.collected_passes]
  constructor
  · intro passes
    refine ⟨built, ?_⟩
    intro idx pos act planned
    rcases Option.bind_eq_some_iff.mp planned with ⟨node, found, -⟩
    have mem := barrier.all_joined spawned nothing ends passes
      (List.getElem?_eq_some_iff.mp found).1
    exact inv.passedIn_of_done (barrier.done idx mem) (passes idx mem) planned
  · rintro ⟨-, passed⟩ idx mem pos act planned
    rcases passed idx pos act planned with ⟨ans, answered, passing⟩
    exact (inv.answers idx pos ans answered).2.2.mp passing

theorem dispatchLevels_of_finished {finished rest : List (List ℕ)}
    (passes : ∀ idx ∈ finished.flatten, ModulePasses reactor.modules world.schedule idx) :
    (cmd.dispatchLevels reactor.modules world.schedule (finished ++ rest)).2 =
      (finished.flatten.map fun idx => (idx, outcomeOf cmd reactor world idx)) ++
        (cmd.dispatchLevels reactor.modules world.schedule rest).2 := by
  induction finished with
  | nil => rfl
  | cons level finished ih =>
    have now : ∀ other ∈ level, ModulePasses reactor.modules world.schedule other :=
      fun other mem => passes other (by simp [mem])
    have later := ih fun other mem =>
      passes other (mem_append_right _ mem)
    rw [cons_append, Command.dispatchLevels]
    simp only [(Command.any_aborts cmd).mpr now, Bool.false_eq_true, ↓reduceIte, later,
      flatten_cons, map_append, append_assoc]
    rfl

theorem Invariant.returned_sequential (inv : Invariant cmd reactor world workers run)
    {out : Except VerifyError ModuleOutcome} (ret : run.returned = some out)
    (built : world.runtime = none) :
    out = (cmd.dispatchReactorModules reactor world).2 := by
  rcases inv.barrier with ⟨finished, joined, barrier⟩
  rcases inv.returned out ret with
    ⟨detail, err, failed, rfl⟩ | ⟨-, spawned, nothing, ends, rfl⟩
  · simp [built] at failed
  have outcomes : (cmd.dispatchLevels reactor.modules world.schedule
      reactor.topoLevels).2 = run.moduleResults := by
    have levels := barrier.levels
    rw [spawned, nothing, append_nil, append_nil] at levels
    have same : (cmd.dispatchLevels reactor.modules world.schedule ([] :: reactor.topoLevels)).2 =
        (cmd.dispatchLevels reactor.modules world.schedule reactor.topoLevels).2 := rfl
    rw [← same, levels, dispatchLevels_of_finished barrier.passed, barrier.results,
      map_append, append_cancel_left_eq, Command.dispatchLevels]
    split_ifs with aborts
    · rfl
    · have last : run.levels = [] := by
        refine ends.resolve_left fun aborted => aborts ?_
        rw [any_map, ← aborted, barrier.aborted]
        rfl
      rw [last]
      exact append_nil _
  simp only [Command.dispatchReactorModules, built, outcomes]
  rfl

/-- Whatever the order of its steps, a dispatch can go on until it returns, and it returns what
dispatching the modules one after the other does. -/
theorem dispatch_sequential (ordered : Ordered reactor.modules reactor.topoLevels)
    (built : world.runtime = none) (reaches : Reaches cmd reactor world workers run) :
    (∀ out, run.returned = some out → out = (cmd.dispatchReactorModules reactor world).2) ∧
      ∃ last, Relation.ReflTransGen (Step cmd reactor world) run last ∧
        last.returned = some (cmd.dispatchReactorModules reactor world).2 := by
  have inv := Invariant.of_reaches ordered reaches
  refine ⟨fun out ret => inv.returned_sequential ret built, ?_⟩
  clear reaches
  induction size : run.work reactor using Nat.strong_induction_on generalizing run with
  | _ _ ih =>
    rcases ret : run.returned with _ | out
    · rcases inv.exists_step ret with ⟨next, step⟩
      rcases ih _ (size ▸ inv.work_lt step) (inv.step ordered step) rfl with ⟨last, steps, done⟩
      exact ⟨last, .head step steps, done⟩
    · exact ⟨run, .refl, by rw [ret, inv.returned_sequential ret built]⟩

/-- Two modules of one level. -/
def parallelReactor : Reactor where
  modules := Reactor.moduleNodes [⟨⟨"org.example", "core"⟩, "/work/core", []⟩,
    ⟨⟨"org.example", "tools"⟩, "/work/tools", []⟩] .install false
  topoLevels := [[0, 1]]
  distinct := by decide
  complete := by
    intro idx
    simp [Reactor.moduleNodes]
    omega

/-- The second module has overtaken the first one, and the first one has submitted an action too. -/
theorem dispatch_sequential_overtaken : ∃ run last,
    Reaches installCommand parallelReactor crashDuringInstall 4 run ∧
      run.log = [.started 1, .submitted 1 0, .started 0, .submitted 0 0] ∧
      Relation.ReflTransGen (Step installCommand parallelReactor crashDuringInstall) run last ∧
        last.returned = some
          (installCommand.dispatchReactorModules parallelReactor crashDuringInstall).2 := by
  have sorted : kahnTopoLevels parallelReactor.modules = .ok [[0, 1]] := by decide +kernel
  have ordered := kahnTopoLevels_ordered (Reactor.resolved_moduleNodes _ _ _) sorted
  have reached : ∃ run, Reaches installCommand parallelReactor crashDuringInstall 4 run ∧
      run.log = [.started 1, .submitted 1 0, .started 0, .submitted 0 0] :=
    ⟨_, .head (.nextLevel [0, 1] [] rfl rfl rfl rfl rfl) <| .head (.spawn 0 [1] rfl) <|
      .head (.spawn 1 [] rfl) <| .head (.acquire 1 rfl (by decide)) <|
      .head (.submit 1 0 .empty _ _ rfl rfl rfl rfl) <| .head (.acquire 0 rfl (by decide)) <|
      .head (.submit 0 0 .empty _ _ rfl rfl rfl rfl) .refl, rfl⟩
  rcases reached with ⟨run, reaches, log⟩
  rcases (dispatch_sequential ordered rfl reaches).2 with ⟨last, steps, returned⟩
  exact ⟨run, last, reaches, log, steps, returned⟩

/-- Every dispatch of the modules of a graph without cycles, whatever the order of its steps: the
log is in order, no more modules run at once than there are workers, the dispatch ends, and it
succeeds exactly if every planned action has run and has passed. -/
theorem dispatch_in_order {discovered : List DiscoveredModule} {phase : MavenPhase}
    {includeClean : Bool} (acyclic : Acyclic (Reactor.moduleNodes discovered phase includeClean)) :
    ∃ reactor, Reactor.fromDiscovered discovered phase includeClean = .ok reactor ∧
      reactor.modules = Reactor.moduleNodes discovered phase includeClean ∧
      ∀ cmd world workers run, Reaches cmd reactor world workers run →
        (∀ before event after, run.log = before ++ event :: after → Legal reactor before event) ∧
        (running reactor run).length ≤ max workers 1 ∧
        (∀ result, run.returned = some result → ((∃ out, result = .ok out ∧ out.failedActions = 0) ↔
            world.runtime = none ∧
              ∀ idx position action, plannedAt reactor.modules idx position = some action →
                PassedIn run.log idx position)) ∧
        (run.returned = none → ∃ next, Step cmd reactor world run next) ∧
        ∀ next, Step cmd reactor world run next →
          next.work reactor < run.work reactor := by
  rcases Reactor.fromDiscovered_of_acyclic acyclic with ⟨reactor, built, nodes, ordered⟩
  refine ⟨reactor, built, nodes, ?_⟩
  intro cmd world workers run reaches
  have invariant := Invariant.of_reaches ordered reaches
  exact ⟨invariant.legal, invariant.length_running_le, fun _ => invariant.returned_passes,
    invariant.exists_step, fun _ => invariant.work_lt⟩

def layeredModules : List DiscoveredModule := [⟨⟨"org.example", "core"⟩, "/project/core", []⟩,
    ⟨⟨"org.example", "app"⟩, "/project/app", [⟨"org.example", "core"⟩]⟩]

theorem layeredModules_in_order :
    ∃ reactor, Reactor.fromDiscovered layeredModules .compile false = .ok reactor ∧
      ∀ cmd world run, Reaches cmd reactor world 1 run →
        ∀ before after, run.log = before ++ .submitted 1 0 :: after →
          PassedIn before 0 0 ∧ PassedIn before 0 1 := by
  have acyclic := acyclic_of_kahnTopoLevels (Reactor.resolved_moduleNodes layeredModules .compile
    false) (by decide +kernel : kahnTopoLevels _ = .ok [[0], [1]])
  rcases dispatch_in_order acyclic with ⟨reactor, built, nodes, dispatch⟩
  refine ⟨reactor, built, ?_⟩
  intro cmd world run reaches before after split
  have edge : 0 ∈ dependsOn (Reactor.moduleNodes layeredModules .compile false) 1 := by
    decide
  have behind := ((dispatch cmd world 1 run reaches).1 before _ after split).dependencies
    1 rfl 0 (.single (nodes ▸ edge))
  rw [nodes] at behind
  exact ⟨behind 0 ⟨"process-resources", true⟩ (by decide), behind 1 ⟨"compile", true⟩ (by decide)⟩

end Barista.Daemon.ReactorRun
