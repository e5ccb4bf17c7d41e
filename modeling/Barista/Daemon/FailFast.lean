import Barista.Daemon.AtMostOnce

/-!
# Tasks of a dispatch

The modules of a level run as tasks under a budget of permits, each its actions in order. A
level begins only after the earlier ones have passed.
-/

namespace Barista.Daemon

inductive TaskEvent where
  | started (index : ℕ)
  | submitted (index position : ℕ)
  | answered (index position : ℕ) (answer : Except RespawnError RespawnOutcome)

inductive ModuleTask where
  | unborn
  | waiting
  /-- The task holds a permit and is about to go on at a position. -/
  | working (position : ℕ) (out : ModuleOutcome)
  | awaiting (position : ℕ) (out : ModuleOutcome)
  | leaving (outcome : Except VerifyError ModuleOutcome)
  | done (outcome : Except VerifyError ModuleOutcome)

def ModuleTask.isRunning : ModuleTask → Bool
  | working _ _ => true
  | awaiting _ _ => true
  | leaving _ => true
  | _ => false

structure ReactorRun where
  /-- The levels that have not begun. -/
  levels : List (List ℕ)
  /-- The modules of the current level that have no task yet. -/
  spawning : List ℕ
  /-- The modules whose tasks are to be joined. -/
  joining : List ℕ
  tasks : ℕ → ModuleTask
  permits : ℕ
  aborted : Bool
  moduleResults : List (ℕ × Except VerifyError ModuleOutcome)
  returned : Option (Except VerifyError ModuleOutcome)
  log : List TaskEvent

namespace Command

variable (command : Command)

def moduleRequest (node : ModuleNode) (action : PlannedAction) : ActionRequest :=
  command.complete action
    { buildActionRequest node.actionGraph action command.projectRoot with projectRoot := node.root }

def answerTo (node : ModuleNode) (schedule : Schedule) (action : PlannedAction) :
    Except RespawnError RespawnOutcome :=
  (submitWithRespawn command.socket schedule (command.moduleRequest node action)).2

end Command

def ModuleTask.afterAnswer (node : ModuleNode) (action : PlannedAction) (position : ℕ)
    (out : ModuleOutcome) : Except RespawnError RespawnOutcome → ModuleTask
  | .error error => leaving (.error (classifyRespawnError action.phase error))
  | .ok outcome => working (position + 1) (out.record action node.root outcome)

namespace ReactorRun

def collected (reactor : Reactor) (run : ReactorRun) : List (Except VerifyError ModuleOutcome) :=
  (List.range reactor.modules.length).filterMap fun index => run.moduleResults.lookup index

def start (reactor : Reactor) (surroundings : Surroundings) (workers : ℕ) : ReactorRun where
  levels := reactor.topoLevels
  spawning := []
  joining := []
  tasks := fun _ => .unborn
  permits := max workers 1
  aborted := false
  moduleResults := []
  returned := surroundings.runtime.map fun detail =>
    .error (.workers ("tokio multi-thread runtime build: " ++ detail))
  log := []

def setTask (run : ReactorRun) (index : ℕ) (task : ModuleTask) : ReactorRun :=
  { run with tasks := Function.update run.tasks index task }

def record (run : ReactorRun) (event : TaskEvent) : ReactorRun :=
  { run with log := run.log ++ [event] }

variable (command : Command) (reactor : Reactor) (surroundings : Surroundings)

section Steps

variable (run : ReactorRun)

inductive Step : ReactorRun → Prop
  | nextLevel (level : List ℕ) (rest : List (List ℕ)) (spawned : run.spawning = [])
      (joined : run.joining = []) (going : run.returned = none) (passed : run.aborted = false)
      (more : run.levels = level :: rest) : Step { run with levels := rest, spawning := level }
  | spawn (index : ℕ) (rest : List ℕ) (turn : run.spawning = index :: rest) : Step
        { run.setTask index .waiting with
          spawning := rest
          joining := run.joining ++ [index] }
  | join (index : ℕ) (rest : List ℕ) (outcome : Except VerifyError ModuleOutcome)
      (spawned : run.spawning = []) (turn : run.joining = index :: rest)
      (done : run.tasks index = .done outcome) : Step
        { run with
          joining := rest
          aborted := run.aborted || Command.aborts outcome
          moduleResults := run.moduleResults ++ [(index, outcome)] }
  | finish (spawned : run.spawning = []) (joined : run.joining = []) (going : run.returned = none)
      (ends : run.aborted = true ∨ run.levels = []) :
      Step { run with returned := some (Command.aggregate .empty (run.collected reactor)) }
  | acquire (index : ℕ) (turn : run.tasks index = .waiting) (free : 0 < run.permits) : Step
        (({ run with permits := run.permits - 1 }.setTask index (.working 0 .empty)).record
          (.started index))
  | submit (index position : ℕ) (out : ModuleOutcome) (node : ModuleNode) (action : PlannedAction)
      (turn : run.tasks index = .working position out) (passed : out.failedActions = 0)
      (found : reactor.modules[index]? = some node)
      (planned : node.actionGraph.actions[position]? = some action) :
      Step ((run.setTask index (.awaiting position out)).record (.submitted index position))
  | answer (index position : ℕ) (out : ModuleOutcome) (node : ModuleNode) (action : PlannedAction)
      (turn : run.tasks index = .awaiting position out)
      (found : reactor.modules[index]? = some node)
      (planned : node.actionGraph.actions[position]? = some action) : Step
        ((run.setTask index (.afterAnswer node action position out
          (command.answerTo node (surroundings.schedule index position) action))).record
            (.answered index position
              (command.answerTo node (surroundings.schedule index position) action)))
  | stop (index position : ℕ) (out : ModuleOutcome) (node : ModuleNode)
      (turn : run.tasks index = .working position out)
      (found : reactor.modules[index]? = some node)
      (ends : 0 < out.failedActions ∨ node.actionGraph.actions[position]? = none) :
      Step (run.setTask index (.leaving (.ok out)))
  | leave (index : ℕ) (outcome : Except VerifyError ModuleOutcome)
      (turn : run.tasks index = .leaving outcome) :
      Step ({ run with permits := run.permits + 1 }.setTask index (.done outcome))

end Steps

def Reaches (workers : ℕ) (run : ReactorRun) : Prop :=
  Relation.ReflTransGen (Step command reactor surroundings) (start reactor surroundings workers) run

end ReactorRun

/-!
# The order of a dispatch

Whatever the order in which the tasks of a reactor take their steps, the modules of a level start
after all actions of the earlier levels have passed, no more modules run at once than there are
permits, and the actions of a module are submitted in their order until one fails.
-/

open List Function Command

def Passed (answer : Except RespawnError RespawnOutcome) : Prop :=
  ∃ outcome, answer = .ok outcome ∧ outcome.result.exitCode = 0

namespace TaskEvent

def position (index : ℕ) : TaskEvent → Option ℕ
  | submitted other position => if other = index then some position else none
  | _ => none

end TaskEvent

def submissionsOf (index : ℕ) (log : List TaskEvent) : List ℕ :=
  log.filterMap (TaskEvent.position index)

def Answered (log : List TaskEvent) (index position : ℕ) : Prop :=
  ∃ answer, .answered index position answer ∈ log

def PassedIn (log : List TaskEvent) (index position : ℕ) : Prop :=
  ∃ answer, .answered index position answer ∈ log ∧ Passed answer

variable {log : List TaskEvent} {ev : TaskEvent} {idx pos : ℕ} {node : ModuleNode}
  {task : ModuleTask} {out : ModuleOutcome} {act : PlannedAction}

theorem submissionsOf_concat : submissionsOf idx (log ++ [ev]) =
    submissionsOf idx log ++ (ev.position idx).toList := by
  rw [submissionsOf, filterMap_append]
  cases place : ev.position idx <;> simp [place, submissionsOf]

theorem Answered.concat (answered : Answered log idx pos) (ev : TaskEvent) :
    Answered (log ++ [ev]) idx pos := by
  rcases answered with ⟨ans, mem⟩
  exact ⟨ans, mem_append_left _ mem⟩

def ModuleTask.IsActive : ModuleTask → Prop
  | .unborn | .done _ => False
  | _ => True

namespace ReactorRun

variable (command : Command) (reactor : Reactor) (surroundings : Surroundings)

def outcomeOf (index : ℕ) : Except VerifyError ModuleOutcome :=
  (command.dispatchModuleAt reactor.modules surroundings.schedule index).2

def remainder (index : ℕ) (node : ModuleNode) (position : ℕ) (out : ModuleOutcome) :
    Except VerifyError ModuleOutcome :=
  (command.dispatchActions index (command.moduleRequest node) node.root
    (surroundings.schedule index) position (node.actionGraph.actions.drop position) out).2

def Accounts (index : ℕ) (node : ModuleNode) (log : List TaskEvent) : ModuleTask → Prop
  | .unborn => submissionsOf index log = []
  | .waiting => submissionsOf index log = []
  | .working position out =>
    submissionsOf index log = range position ∧
    (∀ earlier < position, Answered log index earlier) ∧
    (out.failedActions = 0 → ∀ earlier < position, (surroundings.schedule index earlier).Passes) ∧
    remainder command surroundings index node position out =
      outcomeOf command reactor surroundings index
  | .awaiting position out =>
    submissionsOf index log = range (position + 1) ∧
    (∀ earlier < position, Answered log index earlier) ∧
    (∃ action, node.actionGraph.actions[position]? = some action) ∧
    out.failedActions = 0 ∧
    (∀ earlier < position, (surroundings.schedule index earlier).Passes) ∧
    remainder command surroundings index node position out =
      outcomeOf command reactor surroundings index
  | .leaving outcome =>
    outcome = outcomeOf command reactor surroundings index ∧
    (ModulePasses reactor.modules surroundings.schedule index →
      ∀ position < node.actionGraph.actions.length, Answered log index position)
  | .done outcome =>
    outcome = outcomeOf command reactor surroundings index ∧
    (ModulePasses reactor.modules surroundings.schedule index →
      ∀ position < node.actionGraph.actions.length, Answered log index position)

variable {cmd : Command} {reactor} {world : Surroundings} {workers : ℕ} {run run' : ReactorRun}

theorem aborts_outcomeOf : aborts (outcomeOf cmd reactor world idx) = false ↔
      ModulePasses reactor.modules world.schedule idx :=
  aborts_dispatchModuleAt

theorem Accounts.concat (accounts : Accounts cmd reactor world idx node log task)
    (other : ev.position idx = none) :
    Accounts cmd reactor world idx node (log ++ [ev]) task := by
  have same : submissionsOf idx (log ++ [ev]) = submissionsOf idx log := by
    rw [submissionsOf_concat, other]
    exact append_nil _
  cases task with
  | unborn => exact same.trans accounts
  | waiting => exact same.trans accounts
  | working pos out | awaiting pos out =>
    rcases accounts with ⟨submitted, answered, rest⟩
    exact ⟨same.trans submitted, fun prior pre => (answered prior pre).concat _, rest⟩
  | leaving outcome | done outcome =>
    rcases accounts with ⟨agrees, answered⟩
    exact ⟨agrees, fun passes pos inRange => (answered passes pos inRange).concat _⟩

theorem outcomeOf_of_found (found : reactor.modules[idx]? = some node) :
    outcomeOf cmd reactor world idx = remainder cmd world idx node 0 .empty := by
  simp only [outcomeOf, dispatchModuleAt, found]
  rfl

theorem Accounts.acquire (accounts : Accounts cmd reactor world idx node log .waiting)
    (found : reactor.modules[idx]? = some node) :
    Accounts cmd reactor world idx node (log ++ [.started idx]) (.working 0 .empty) := by
  refine ⟨?_, by simp, by simp, (outcomeOf_of_found found).symm⟩
  rw [submissionsOf_concat]
  exact (append_nil _).trans accounts

theorem passed_answerTo : Passed (cmd.answerTo node (world.schedule idx pos) act) ↔
    (world.schedule idx pos).Passes :=
  submitWithRespawn_passes _ _ _

section Answers

variable (planned : node.actionGraph.actions[pos]? = some act)

include planned

theorem Accounts.submit (accounts : Accounts cmd reactor world idx node log (.working pos out))
    (passed : out.failedActions = 0) :
    Accounts cmd reactor world idx node (log ++ [.submitted idx pos]) (.awaiting pos out) := by
  rcases accounts with ⟨submitted, answered, passes, agrees⟩
  refine ⟨?_, fun prior pre => (answered prior pre).concat _, ⟨act, planned⟩, passed,
    passes passed, agrees⟩
  rw [submissionsOf_concat, submitted, range_succ]
  simp [TaskEvent.position]

theorem remainder_of_error {err : RespawnError} (passed : out.failedActions = 0)
    (answered : cmd.answerTo node (world.schedule idx pos) act = .error err) :
    remainder cmd world idx node pos out = .error (classifyRespawnError act.phase err) := by
  rcases List.getElem?_eq_some_iff.mp planned with ⟨inRange, rfl⟩
  rw [answerTo] at answered
  rw [remainder, drop_eq_getElem_cons inRange]
  simp [dispatchActions, passed, answered]

theorem remainder_of_ok {outcome : RespawnOutcome} (passed : out.failedActions = 0)
    (answered : cmd.answerTo node (world.schedule idx pos) act = .ok outcome) :
    remainder cmd world idx node pos out = remainder cmd world idx node (pos + 1)
        (out.record act node.root outcome) := by
  rcases List.getElem?_eq_some_iff.mp planned with ⟨inRange, rfl⟩
  rw [answerTo] at answered
  rw [remainder, remainder, drop_eq_getElem_cons inRange]
  simp [dispatchActions, passed, answered]

theorem Accounts.answer (found : reactor.modules[idx]? = some node)
    (accounts : Accounts cmd reactor world idx node log (.awaiting pos out)) :
    Accounts cmd reactor world idx node (log ++ [.answered idx pos
        (cmd.answerTo node (world.schedule idx pos) act)])
      (.afterAnswer node act pos out (cmd.answerTo node (world.schedule idx pos) act)) := by
  rcases accounts with ⟨submitted, answered, -, passed, passes, agrees⟩
  rcases ans : cmd.answerTo node (world.schedule idx pos) act with _ | outcome
  · refine ⟨(remainder_of_error planned passed ans).symm.trans agrees, ?_⟩
    intro modulePasses
    have passing : Passed (cmd.answerTo node (world.schedule idx pos) act) :=
      passed_answerTo.mpr (modulePasses pos act (by simp [plannedAt, found, planned]))
    rcases passing with ⟨outcome, ok, -⟩
    cases ans.symm.trans ok
  · refine ⟨?_, ?_, ?_, (remainder_of_ok planned passed ans).symm.trans agrees⟩
    · rw [submissionsOf_concat, submitted]
      exact append_nil _
    · intro prior pre
      rcases Nat.lt_succ_iff_lt_or_eq.mp pre with pre | rfl
      · exact (answered prior pre).concat _
      · exact ⟨_, mem_append_right _ (mem_singleton_self _)⟩
    · intro still prior pre
      rcases Nat.lt_succ_iff_lt_or_eq.mp pre with pre | rfl
      · exact passes prior pre
      · apply passed_answerTo.mp
        refine ⟨outcome, ans, ?_⟩
        by_contra failed
        simp [ModuleOutcome.record, failed] at still

end Answers

theorem Accounts.stop (accounts : Accounts cmd reactor world idx node log (.working pos out))
    (ends : 0 < out.failedActions ∨ node.actionGraph.actions[pos]? = none) :
    Accounts cmd reactor world idx node log (.leaving (.ok out)) := by
  rcases accounts with ⟨-, answered, -, agrees⟩
  rcases ends with failed | finished
  · have same : Except.ok out = outcomeOf cmd reactor world idx := by
      rw [← agrees, remainder, dispatchActions_of_failed failed]
    refine ⟨same, ?_⟩
    intro modulePasses
    have passed : aborts (outcomeOf cmd reactor world idx) = false :=
      aborts_outcomeOf.mpr modulePasses
    rw [← same, aborts, decide_eq_false_iff_not] at passed
    exact absurd failed passed
  · have short := List.getElem?_eq_none_iff.mp finished
    refine ⟨?_, fun _ place inRange => answered place (by omega)⟩
    rw [← agrees, remainder, drop_eq_nil_of_le short]
    rfl

variable (reactor) in
structure Barrier (finished : List (List ℕ)) (joined : List ℕ) (run : ReactorRun) : Prop where
  levels : [] :: reactor.topoLevels =
    finished ++ (joined ++ run.joining ++ run.spawning) :: run.levels
  passed : ∀ index ∈ finished.flatten, ModulePasses reactor.modules surroundings.schedule index
  results : run.moduleResults = (finished.flatten ++ joined).map fun index =>
    (index, outcomeOf command reactor surroundings index)
  aborted : run.aborted = joined.any fun index =>
    aborts (outcomeOf command reactor surroundings index)
  done : ∀ index ∈ finished.flatten ++ joined,
    run.tasks index = .done (outcomeOf command reactor surroundings index)
  spawned : ∀ index ∈ run.joining, run.tasks index ≠ .unborn
  unborn : ∀ index, index ∉ finished.flatten ++ joined ++ run.joining → run.tasks index = .unborn

namespace Barrier

variable {finished : List (List ℕ)} {joined : List ℕ}
  (barrier : Barrier cmd reactor world finished joined run)

include barrier

theorem distinct :
    (finished.flatten ++ joined ++ run.joining ++ run.spawning ++ run.levels.flatten).Nodup := by
  have distinct : ([] :: reactor.topoLevels).flatten.Nodup := reactor.distinct
  rw [barrier.levels] at distinct
  simpa using distinct

theorem joining_of_active (active : (run.tasks idx).IsActive) : idx ∈ run.joining := by
  by_contra other
  rw [barrier.unborn idx] at active
  · exact active
  · intro mem
    rcases mem_append.mp mem with prior | now
    · rw [barrier.done idx prior] at active
      exact active
    · exact other now

theorem split (mem : idx ∈ run.joining) : ∃ pre, finished = [] :: pre ∧
      reactor.topoLevels = pre ++ (joined ++ run.joining ++ run.spawning) :: run.levels := by
  have levels := barrier.levels
  rcases finished with _ | ⟨_, pre⟩
  · rw [nil_append, List.cons.injEq, eq_comm, append_eq_nil_iff, append_eq_nil_iff] at levels
    rw [levels.1.1.2] at mem
    exact absurd mem not_mem_nil
  · rw [cons_append, List.cons.injEq] at levels
    exact ⟨pre, by rw [← levels.1], levels.2⟩

theorem finished_of_before
    (mem : idx ∈ run.joining) {other : ℕ} (prior : reactor.Before other idx) :
    other ∈ finished.flatten := by
  rcases barrier.split mem with ⟨pre, rfl, levels⟩
  rcases prior with ⟨before', level, post, levels', inside, member'⟩
  have distinct := reactor.distinct
  rw [levels] at distinct
  have same : pre = before' :=
    Reactor.prefix_unique distinct (levels.symm.trans levels') (by simp [mem]) member'
  simpa [same] using inside

omit barrier in
theorem initial : Barrier cmd reactor world [] [] (start reactor world workers) where
  levels := rfl
  passed := by simp
  results := rfl
  aborted := rfl
  done := by simp
  spawned := by simp [start]
  unborn := fun _ _ => rfl

theorem setTask (active : (run.tasks idx).IsActive) (goes : task ≠ .unborn) :
    Barrier cmd reactor world finished joined (run.setTask idx task) := by
  have mem := barrier.joining_of_active active
  refine { barrier with done := ?_, spawned := ?_, unborn := ?_ }
  · intro other prior
    have ends := barrier.done other prior
    have ne : other ≠ idx := by
      rintro rfl
      rw [ends] at active
      exact active
    exact (update_of_ne ne _ _).trans ends
  · intro other waits
    by_cases same : other = idx
    · simpa [ReactorRun.setTask, same] using goes
    · simpa [ReactorRun.setTask, update_of_ne same] using barrier.spawned other waits
  · intro other absent
    have ne : other ≠ idx := by
      rintro rfl
      exact absent (mem_append_right _ mem)
    exact (update_of_ne ne _ _).trans (barrier.unborn other absent)

theorem nextLevel {level : List ℕ} {rest : List (List ℕ)} (spawned : run.spawning = [])
    (nothing : run.joining = []) (passed : run.aborted = false)
    (more : run.levels = level :: rest) :
    Barrier cmd reactor world (finished ++ [joined]) []
      { run with levels := rest, spawning := level } := by
  have all : (finished ++ [joined]).flatten = finished.flatten ++ joined := by simp
  refine ⟨?_, ?_, ?_, ?_, ?_, ?_, ?_⟩
  · simp [barrier.levels, spawned, nothing, more]
  · intro idx mem
    rw [all] at mem
    rcases mem_append.mp mem with prior | now
    · exact barrier.passed idx prior
    · apply aborts_outcomeOf.mp
      have none := barrier.aborted
      rw [passed, eq_comm, any_eq_false] at none
      simpa using none idx now
  · rw [all, append_nil]
    exact barrier.results
  · exact passed
  · rw [all, append_nil]
    exact barrier.done
  · exact barrier.spawned
  · rw [all, append_nil]
    exact barrier.unborn

theorem fresh_of_spawning
    (turn : idx ∈ run.spawning) : idx ∉ finished.flatten ++ joined ++ run.joining := by
  intro mem
  have distinct := barrier.distinct
  rw [append_assoc] at distinct
  exact (nodup_append'.mp distinct).2.2 mem (by simp [turn])

theorem spawn {rest : List ℕ} (turn : run.spawning = idx :: rest) :
    Barrier cmd reactor world finished joined
      { run.setTask idx .waiting with spawning := rest, joining := run.joining ++ [idx] } := by
  have fresh := barrier.fresh_of_spawning (turn ▸ mem_cons_self)
  refine { barrier with levels := ?_, done := ?_, spawned := ?_, unborn := ?_ }
  · rw [barrier.levels, turn]
    simp [ReactorRun.setTask]
  · intro other prior
    have ne : other ≠ idx := by
      rintro rfl
      exact fresh (mem_append_left _ prior)
    exact (update_of_ne ne _ _).trans (barrier.done other prior)
  · intro other waits
    by_cases same : other = idx
    · simp [ReactorRun.setTask, same]
    · have pre : other ∈ run.joining := by simpa [same] using waits
      simpa [ReactorRun.setTask, update_of_ne same] using barrier.spawned other pre
  · intro other absent
    rw [← append_assoc, mem_append, not_or] at absent
    have ne : other ≠ idx := by simpa using absent.2
    exact (update_of_ne ne _ _).trans (barrier.unborn other absent.1)

theorem join {rest : List ℕ} (turn : run.joining = idx :: rest)
    (done : run.tasks idx = .done (outcomeOf cmd reactor world idx)) :
    Barrier cmd reactor world finished (joined ++ [idx])
      { run with
        joining := rest
        aborted := run.aborted || aborts (outcomeOf cmd reactor world idx)
        moduleResults := run.moduleResults ++ [(idx, outcomeOf cmd reactor world idx)] } := by
  refine ⟨?_, barrier.passed, ?_, ?_, ?_, ?_, ?_⟩
  · simp [barrier.levels, turn]
  · simp [barrier.results]
  · simp [barrier.aborted]
  · intro other mem
    rw [← append_assoc] at mem
    rcases mem_append.mp mem with prior | now
    · exact barrier.done other prior
    · rw [mem_singleton.mp now]
      exact done
  · exact fun other waits => barrier.spawned other (by simp [turn, waits])
  · intro other absent
    apply barrier.unborn
    simpa [turn] using absent

theorem inRange (mem : idx ∈ run.joining) : ∃ node, reactor.modules[idx]? = some node := by
  rcases barrier.split mem with ⟨pre, -, levels⟩
  have listed : idx ∈ reactor.topoLevels.flatten := by simp [levels, mem]
  exact ⟨_, getElem?_eq_getElem ((reactor.complete idx).mp listed)⟩

end Barrier

def running (reactor : Reactor) (run : ReactorRun) : List ℕ :=
  (range reactor.modules.length).filter fun index => (run.tasks index).isRunning

theorem length_filter_update {tasks : ℕ → ModuleTask} {count idx : ℕ} (inRange : idx < count)
    (task : ModuleTask) :
    ((range count).filter fun other =>
        (update tasks idx task other).isRunning).length +
        (tasks idx).isRunning.toNat =
      ((range count).filter fun other => (tasks other).isRunning).length +
        task.isRunning.toNat := by
  rcases append_of_mem (mem_range.mpr inRange) with ⟨pre, post, split⟩
  have distinct : (pre ++ idx :: post).Nodup := split ▸ nodup_range
  have apart (part : List ℕ) (absent : idx ∉ part) :
      (part.filter fun other => (update tasks idx task other).isRunning) =
        part.filter fun other => (tasks other).isRunning := by
    apply filter_congr
    intro other mem
    rw [update_of_ne]
    rintro rfl
    exact absent mem
  have outside := nodup_middle.mp distinct
  rw [nodup_cons, mem_append, not_or] at outside
  simp only [split, filter_append, filter_cons, update_self,
    apart pre outside.1.1, apart post outside.1.2, length_append]
  cases (tasks idx).isRunning <;> cases task.isRunning <;> simp <;> omega

/-- What may be preceded by what in the log of a dispatch. -/
structure Legal (reactor : Reactor) (before : List TaskEvent) (event : TaskEvent) : Prop where
  /-- The first action of a module follows all actions of its dependencies. -/
  dependencies : ∀ index, event = .submitted index 0 → ∀ dependency,
    Relation.TransGen (DependsOn reactor.modules) index dependency →
    ∀ position action, plannedAt reactor.modules dependency position = some action →
      PassedIn before dependency position
  /-- The actions of a module are submitted in their order, and none after one that failed. -/
  order : ∀ index position, event = .submitted index position →
    submissionsOf index before = range position ∧
      (∀ earlier < position, PassedIn before index earlier) ∧
      ∀ earlier answer, .answered index earlier answer ∈ before → Passed answer
  /-- No module of a later level starts after a failure. -/
  levels : ∀ index, event = .started index → ∀ other position answer,
    .answered other position answer ∈ before → ¬Passed answer → ¬reactor.Before other index

theorem legal_concat {log : List TaskEvent} {ev : TaskEvent}
    (legal : ∀ pre other post, log = pre ++ other :: post → Legal reactor pre other)
    (last : Legal reactor log ev) :
    ∀ pre other post, log ++ [ev] = pre ++ other :: post → Legal reactor pre other := by
  intro pre other post split
  rcases eq_nil_or_concat post with rfl | ⟨rest, final, rfl⟩
  · rw [append_inj_left' split rfl, singleton_inj.mp (append_inj_right' split rfl)] at last
    exact last
  · rw [concat_eq_append, ← cons_append, ← append_assoc] at split
    exact legal pre other rest (append_inj_left' split rfl)

variable (reactor) in
structure Invariant (workers : ℕ) (run : ReactorRun) : Prop where
  barrier : ∃ finished joined, Barrier command reactor surroundings finished joined run
  accounts : ∀ index node, reactor.modules[index]? = some node →
    Accounts command reactor surroundings index node run.log (run.tasks index)
  permits : run.permits + (running reactor run).length = max workers 1
  answers : ∀ index position answer, .answered index position answer ∈ run.log →
    position ∈ submissionsOf index run.log ∧
      (∃ action, plannedAt reactor.modules index position = some action) ∧
      (Passed answer ↔ (surroundings.schedule index position).Passes)
  legal : ∀ before event after, run.log = before ++ event :: after → Legal reactor before event
  begun : run.returned = none → surroundings.runtime = none
  returned : ∀ result, run.returned = some result →
    (∃ detail error, surroundings.runtime = some detail ∧ result = .error error) ∨
    (surroundings.runtime = none ∧ run.spawning = [] ∧ run.joining = [] ∧
      (run.aborted = true ∨ run.levels = []) ∧
      result = aggregate .empty (run.collected reactor))

namespace Invariant

theorem initial : Invariant cmd reactor world workers (start reactor world workers) := by
  refine ⟨⟨[], [], .initial⟩, fun _ _ _ => rfl, ?_, by simp [start], by simp [start], ?_, ?_⟩
  · simp [running, start, ModuleTask.isRunning]
  · intro none
    simpa [start] using none
  · intro out ret
    simp only [start, Option.map_eq_some_iff] at ret
    rcases ret with ⟨detail, failed, rfl⟩
    exact .inl ⟨detail, _, failed, rfl⟩

section Preserved

variable (inv : Invariant cmd reactor world workers run)

include inv

section Moves

variable (found : reactor.modules[idx]? = some node) {permits : ℕ}
  (active : (run.tasks idx).IsActive) (goes : task ≠ .unborn)
  (budget : permits + task.isRunning.toNat = run.permits + (run.tasks idx).isRunning.toNat)

include found active goes budget

theorem move {log : List TaskEvent} (own : Accounts cmd reactor world idx node log task)
    (others : ∀ other node, other ≠ idx →
      Accounts cmd reactor world other node run.log (run.tasks other) →
      Accounts cmd reactor world other node log (run.tasks other))
    (answers : ∀ idx pos ans, .answered idx pos ans ∈ log → pos ∈ submissionsOf idx log ∧
        (∃ act, plannedAt reactor.modules idx pos = some act) ∧
        (Passed ans ↔ (world.schedule idx pos).Passes))
    (legal : ∀ pre ev post, log = pre ++ ev :: post → Legal reactor pre ev) :
    Invariant cmd reactor world workers
      { run with
        permits := permits, log := log, tasks := update run.tasks idx task } := by
  rcases inv.barrier with ⟨finished, joined, barrier⟩
  have moved := barrier.setTask active goes
  refine ⟨⟨finished, joined, { moved with }⟩, ?_, ?_, answers, legal, inv.begun, inv.returned⟩
  · intro other node' found'
    by_cases same : other = idx
    · subst same
      rw [found, Option.some.injEq] at found'
      rw [← found']
      simpa using own
    · simpa [update_of_ne same] using others other node' same (inv.accounts other node' found')
  · have inRange : idx < reactor.modules.length := (List.getElem?_eq_some_iff.mp found).1
    have counted := @length_filter_update run.tasks _ _ inRange task
    have pre := inv.permits
    simp only [running] at pre ⊢
    omega

theorem moveWith {ev : TaskEvent} (own : Accounts cmd reactor world idx node (run.log ++ [ev]) task)
    (other : ∀ other ≠ idx, ev.position other = none)
    (answered : ∀ idx pos ans, ev = .answered idx pos ans → pos ∈ submissionsOf idx run.log ∧
        (∃ act, plannedAt reactor.modules idx pos = some act) ∧
        (Passed ans ↔ (world.schedule idx pos).Passes)) (legal : Legal reactor run.log ev) :
    Invariant cmd reactor world workers
      { run with
        permits := permits
        log := run.log ++ [ev]
        tasks := update run.tasks idx task } := by
  apply inv.move found active goes budget own
  · exact fun elsewhere _ ne accounts => accounts.concat (other elsewhere ne)
  · intro place pos ans mem
    rw [submissionsOf_concat, mem_append]
    rcases mem_append.mp mem with prior | last
    · rcases inv.answers place pos ans prior with ⟨submitted, rest⟩
      exact ⟨.inl submitted, rest⟩
    · rcases answered place pos ans (mem_singleton.mp last).symm with ⟨submitted, rest⟩
      exact ⟨.inl submitted, rest⟩
  · exact legal_concat inv.legal legal

end Moves

theorem passedIn (answered : Answered run.log idx pos)
    (passes : (world.schedule idx pos).Passes) : PassedIn run.log idx pos := by
  rcases answered with ⟨ans, mem⟩
  exact ⟨ans, mem, (inv.answers idx pos ans mem).2.2.mpr passes⟩

variable {outcome : Except VerifyError ModuleOutcome}

theorem passedIn_of_done (done : run.tasks idx = .done outcome)
    (passes : ModulePasses reactor.modules world.schedule idx)
    (planned : plannedAt reactor.modules idx pos = some act) :
    PassedIn run.log idx pos := by
  rcases Option.bind_eq_some_iff.mp planned with ⟨node, found, place⟩
  have accounts := inv.accounts idx node found
  rw [done] at accounts
  have answered := accounts.2 passes pos (List.getElem?_eq_some_iff.mp place).1
  exact inv.passedIn answered (passes pos act planned)

theorem module_of_active (active : (run.tasks idx).IsActive) :
    ∃ node, reactor.modules[idx]? = some node := by
  rcases inv.barrier with ⟨finished, joined, barrier⟩
  exact barrier.inRange (barrier.joining_of_active active)

theorem acquire (turn : run.tasks idx = .waiting) (free : 0 < run.permits) :
    Invariant cmd reactor world workers
      (({ run with permits := run.permits - 1 }.setTask idx (.working 0 .empty)).record
        (.started idx)) := by
  have active : (run.tasks idx).IsActive := by simp [turn, ModuleTask.IsActive]
  rcases inv.module_of_active active with ⟨node, found⟩
  have accounts := inv.accounts idx node found
  rw [turn] at accounts
  apply inv.moveWith found active (by simp) _ (accounts.acquire found) (fun _ _ => rfl) (by simp)
  · refine ⟨by simp, by simp, ?_⟩
    rintro other ⟨⟩ elsewhere pos ans mem failed prior
    rcases inv.barrier with ⟨finished, joined, barrier⟩
    have passed := barrier.passed elsewhere
      (barrier.finished_of_before (barrier.joining_of_active active) prior)
    rcases inv.answers elsewhere pos ans mem with
      ⟨-, ⟨act, planned⟩, passes⟩
    exact failed (passes.mpr (passed pos act planned))
  · change run.permits - 1 + 1 = run.permits + _
    simp only [turn, ModuleTask.isRunning, Bool.toNat_false]
    omega

theorem submit (ordered : Ordered reactor.modules reactor.topoLevels)
    (turn : run.tasks idx = .working pos out) (passed : out.failedActions = 0)
    (found : reactor.modules[idx]? = some node)
    (planned : node.actionGraph.actions[pos]? = some act) :
    Invariant cmd reactor world workers
      ((run.setTask idx (.awaiting pos out)).record (.submitted idx pos)) := by
  have active : (run.tasks idx).IsActive := by simp [turn, ModuleTask.IsActive]
  have accounts := inv.accounts idx node found
  rw [turn] at accounts
  apply inv.moveWith found active (by simp) _ (accounts.submit planned passed) _ (by simp)
  · refine ⟨?_, ?_, by simp⟩
    · rintro other ⟨⟩ dep depends place other planned
      rcases inv.barrier with ⟨finished, joined, barrier⟩
      have mem := barrier.joining_of_active active
      rcases barrier.split mem with ⟨pre, rfl, levels⟩
      have prior : dep ∈ ([] :: pre).flatten := ordered.transitive levels (by simp [mem]) depends
      exact inv.passedIn_of_done (barrier.done dep (mem_append_left _ prior))
        (barrier.passed dep prior) planned
    · rintro other place ⟨⟩
      rcases accounts with ⟨submitted, answered, passes, -⟩
      refine ⟨submitted, ?_, ?_⟩
      · exact fun prior pre =>
          inv.passedIn (answered prior pre) (passes passed prior pre)
      · intro prior ans mem
        rcases inv.answers idx prior ans mem with ⟨pre, -, passing⟩
        rw [submitted, mem_range] at pre
        exact passing.mpr (passes passed prior pre)
  · simp [turn, ModuleTask.isRunning, ReactorRun.setTask]
  · intro other ne
    simp [TaskEvent.position, Ne.symm ne]

theorem answer (turn : run.tasks idx = .awaiting pos out)
    (found : reactor.modules[idx]? = some node)
    (planned : node.actionGraph.actions[pos]? = some act) :
    Invariant cmd reactor world workers ((run.setTask idx (.afterAnswer node act pos out
        (cmd.answerTo node (world.schedule idx pos) act))).record (.answered idx pos
            (cmd.answerTo node (world.schedule idx pos) act))) := by
  have active : (run.tasks idx).IsActive := by simp [turn, ModuleTask.IsActive]
  have accounts := inv.accounts idx node found
  rw [turn] at accounts
  apply inv.moveWith found active _ _ (accounts.answer planned found)
    (fun _ _ => rfl) _ ⟨by simp, by simp, by simp⟩
  · cases cmd.answerTo node (world.schedule idx pos) act <;>
      simp [ModuleTask.afterAnswer]
  · change run.permits + _ = run.permits + _
    rw [turn]
    cases cmd.answerTo node (world.schedule idx pos) act <;> rfl
  · rintro place other result ⟨⟩
    refine ⟨?_, ⟨act, by simp [plannedAt, found, planned]⟩, passed_answerTo⟩
    rw [accounts.1]
    simp

theorem stop (turn : run.tasks idx = .working pos out) (found : reactor.modules[idx]? = some node)
    (ends : 0 < out.failedActions ∨ node.actionGraph.actions[pos]? = none) :
    Invariant cmd reactor world workers (run.setTask idx (.leaving (.ok out))) := by
  have accounts := inv.accounts idx node found
  rw [turn] at accounts
  exact inv.move found (by simp [turn, ModuleTask.IsActive]) (by simp) (by rw [turn]; rfl)
    (accounts.stop ends) (fun _ _ _ same => same) inv.answers inv.legal

theorem leave (turn : run.tasks idx = .leaving outcome) : Invariant cmd reactor world workers
      ({ run with permits := run.permits + 1 }.setTask idx (.done outcome)) := by
  have active : (run.tasks idx).IsActive := by simp [turn, ModuleTask.IsActive]
  rcases inv.module_of_active active with ⟨node, found⟩
  have accounts := inv.accounts idx node found
  rw [turn] at accounts
  exact inv.move found active (by simp) (by rw [turn]; rfl) accounts
    (fun _ _ _ same => same) inv.answers inv.legal

theorem spawn {rest : List ℕ} (turn : run.spawning = idx :: rest) :
    Invariant cmd reactor world workers
      { run.setTask idx .waiting with spawning := rest, joining := run.joining ++ [idx] } := by
  rcases inv.barrier with ⟨finished, joined, barrier⟩
  have fresh := barrier.unborn idx (barrier.fresh_of_spawning (turn ▸ mem_cons_self))
  refine ⟨⟨finished, joined, barrier.spawn turn⟩, ?_, ?_, inv.answers, inv.legal, inv.begun, ?_⟩
  · intro other node found
    have accounts := inv.accounts other node found
    by_cases same : other = idx
    · subst same
      rw [fresh] at accounts
      simp only [ReactorRun.setTask, update_self]
      exact accounts
    · simpa [ReactorRun.setTask, update_of_ne same] using accounts
  · have same : running reactor (run.setTask idx .waiting) = running reactor run := by
      apply filter_congr
      intro other _
      by_cases same : other = idx
      · simp [ReactorRun.setTask, same, fresh, ModuleTask.isRunning]
      · simp [ReactorRun.setTask, update_of_ne same]
    exact same ▸ inv.permits
  · intro out ret
    rcases inv.returned out ret with failed | ⟨-, empty, -⟩
    · exact .inl failed
    · simp [turn] at empty

theorem join {rest : List ℕ}
    (turn : run.joining = idx :: rest) (done : run.tasks idx = .done outcome) :
    Invariant cmd reactor world workers
      { run with
        joining := rest
        aborted := run.aborted || aborts outcome
        moduleResults := run.moduleResults ++ [(idx, outcome)] } := by
  rcases inv.barrier with ⟨finished, joined, barrier⟩
  rcases barrier.inRange (turn ▸ mem_cons_self) with ⟨node, found⟩
  have accounts := inv.accounts idx node found
  rw [done] at accounts
  rcases accounts with ⟨rfl, -⟩
  refine { inv with barrier := ⟨finished, _, barrier.join turn done⟩, returned := ?_ }
  intro out ret
  rcases inv.returned out ret with failed | ⟨-, -, empty, -⟩
  · exact .inl failed
  · simp [turn] at empty

theorem nextLevel {level : List ℕ}
    {rest : List (List ℕ)} (spawned : run.spawning = []) (joined : run.joining = [])
    (going : run.returned = none) (passed : run.aborted = false)
    (more : run.levels = level :: rest) :
    Invariant cmd reactor world workers { run with levels := rest, spawning := level } := by
  rcases inv.barrier with ⟨finished, last, barrier⟩
  refine { inv with
    barrier := ⟨_, _, barrier.nextLevel spawned joined passed more⟩, returned := ?_ }
  intro out ret
  simp [going] at ret

theorem finish
    (spawned : run.spawning = []) (joined : run.joining = []) (going : run.returned = none)
    (ends : run.aborted = true ∨ run.levels = []) :
    Invariant cmd reactor world workers
      { run with returned := some (aggregate .empty (run.collected reactor)) } := by
  rcases inv.barrier with ⟨finished, last, barrier⟩
  refine { inv with
    barrier := ⟨finished, last, { barrier with }⟩, begun := by simp, returned := ?_ }
  rintro out ⟨⟩
  exact .inr ⟨inv.begun going, spawned, joined, ends, rfl⟩

end Preserved

theorem step (ordered : Ordered reactor.modules reactor.topoLevels)
    (inv : Invariant cmd reactor world workers run) (step : Step cmd reactor world run run') :
    Invariant cmd reactor world workers run' := by
  cases step with
  | nextLevel level rest spawned joined going passed more =>
    exact inv.nextLevel spawned joined going passed more
  | spawn idx rest turn => exact inv.spawn turn
  | join idx rest outcome spawned turn done => exact inv.join turn done
  | finish spawned joined going ends => exact inv.finish spawned joined going ends
  | acquire idx turn free => exact inv.acquire turn free
  | submit idx pos out node act turn passed found planned =>
    exact inv.submit ordered turn passed found planned
  | answer idx pos out node act turn found planned =>
    exact inv.answer turn found planned
  | stop idx pos out node turn found ends => exact inv.stop turn found ends
  | leave idx outcome turn => exact inv.leave turn

theorem of_reaches (ordered : Ordered reactor.modules reactor.topoLevels)
    (reaches : Reaches cmd reactor world workers run) :
    Invariant cmd reactor world workers run := by
  induction reaches with
  | refl => exact initial
  | tail _ step ih => exact ih.step ordered step

theorem length_running_le (inv : Invariant cmd reactor world workers run) :
    (running reactor run).length ≤ max workers 1 := by
  have permits := inv.permits
  omega

end Invariant

end ReactorRun

end Barista.Daemon
