import Barista.Daemon.Levels
import Barista.Ipc.Mux

/-!
# Retried actions

An attempt that ends in a crash of the daemon is made once more, whatever the action. The
submissions of a command are counted over all its modules.
-/

namespace Barista.Daemon

open Ipc (daemonCrashedCode)
open Ipc.Wire (ActionResult)

section Dispatch

section Respawn

structure ProgressEvent where
  text : String
  deriving DecidableEq

inductive PassingEvent where
  | progress (event : ProgressEvent)
  | stream
  deriving DecidableEq

inductive Ending where
  | result (result : ActionResult)
  | error (code message : String)
  | closed
  | failed (detail : String)
  | deadline
  deriving DecidableEq

inductive Conversation where
  | runtimeFailed (detail : String)
  | connectFailed (source : String)
  | submitFailed (detail : String)
  | submitted (passing : List PassingEvent) (ending : Ending)
  deriving DecidableEq

structure Schedule where
  first : Conversation
  /-- The error of spawning the new daemon or of waiting for it, if there is one. -/
  respawn : Option String
  second : Conversation
  deriving DecidableEq

inductive AttemptError where
  | crashed
  | connect (source : String)
  | ipc (detail : String)
  | daemonProtocolError (code message : String)
  | prematureClose
  deriving DecidableEq

structure AttemptOutcome where
  result : ActionResult
  progress : List ProgressEvent
  deriving DecidableEq

def collect (ending : Ending) : List PassingEvent → List ProgressEvent →
    Except AttemptError AttemptOutcome
  | .progress event :: rest, progress => collect ending rest (progress ++ [event])
  | .stream :: rest, progress => collect ending rest progress
  | [], progress =>
    match ending with
    | .result result => .ok ⟨result, progress⟩
    | .error code message =>
      if code = daemonCrashedCode then .error .crashed
      else .error (.daemonProtocolError code message)
    | .closed => .error .prematureClose
    | .failed detail => .error (.ipc ("next_event: " ++ detail))
    | .deadline => .error (.ipc "action exceeded 600s deadline")

def runOneAttempt (conversation : Conversation) (request : ActionRequest) :
    List ActionRequest × Except AttemptError AttemptOutcome :=
  match conversation with
  | .runtimeFailed detail => ([], .error (.ipc ("tokio runtime build: " ++ detail)))
  | .connectFailed source => ([], .error (.connect source))
  | .submitFailed detail => ([], .error (.ipc ("submit_action: " ++ detail)))
  | .submitted passing ending => ([request], collect ending passing [])

structure RespawnOutcome where
  result : ActionResult
  respawns : ℕ
  progress : List ProgressEvent
  deriving DecidableEq

inductive RespawnError where
  | launcher (error : String)
  | ipc (detail : String)
  | connect (socket source : String)
  | persistentCrash
  | daemonProtocolError (code message : String)
  | prematureClose
  deriving DecidableEq

def AttemptError.surface (socket : String) : AttemptError → RespawnError
  | .crashed => .persistentCrash
  | .connect source => .connect socket source
  | .ipc detail => .ipc detail
  | .daemonProtocolError code message => .daemonProtocolError code message
  | .prematureClose => .prematureClose

def submitWithRespawnInner (socket : String) (schedule : Schedule) (request : ActionRequest)
    (attempt : ℕ) : List ActionRequest × Except RespawnError RespawnOutcome :=
  let (sent, answer) :=
    runOneAttempt (if attempt = 0 then schedule.first else schedule.second) request
  match answer with
  | .ok outcome => (sent, .ok ⟨outcome.result, attempt, outcome.progress⟩)
  | .error .crashed =>
    if attempt = 0 then
      match schedule.respawn with
      | some error => (sent, .error (.launcher error))
      | none =>
        let (again, final) := submitWithRespawnInner socket schedule request (attempt + 1)
        (sent ++ again, final)
    else (sent, .error .persistentCrash)
  | .error error => (sent, .error (error.surface socket))
termination_by 1 - attempt

def submitWithRespawn (socket : String) (schedule : Schedule) (request : ActionRequest) :
    List ActionRequest × Except RespawnError RespawnOutcome :=
  submitWithRespawnInner socket schedule request 0

namespace Conversation

def IsSubmitted : Conversation → Prop
  | submitted _ _ => True
  | _ => False

def Crashes : Conversation → Prop
  | submitted _ (.error code _) => code = daemonCrashedCode
  | _ => False

def Passes : Conversation → Prop
  | submitted _ (.result result) => result.exitCode = 0
  | _ => False

end Conversation

variable {ending : Ending} {passing : List PassingEvent} {progress : List ProgressEvent}

theorem collect_crashed : collect ending passing progress = .error .crashed ↔
      ∃ msg, ending = .error daemonCrashedCode msg := by
  fun_induction collect ending passing progress <;> simp_all

theorem collect_passes :
    (∃ outcome, collect ending passing progress = .ok outcome ∧ outcome.result.exitCode = 0) ↔
      ∃ out, ending = .result out ∧ out.exitCode = 0 := by
  fun_induction collect ending passing progress <;> simp_all

section Attempt

variable {conversation : Conversation} {req : ActionRequest}

theorem runOneAttempt_crashed :
    (runOneAttempt conversation req).2 = .error .crashed ↔ conversation.Crashes := by
  cases conversation with
  | submitted passing ending =>
    simp only [runOneAttempt, collect_crashed]
    cases ending <;> simp [Conversation.Crashes]
  | _ => simp [runOneAttempt, Conversation.Crashes]

theorem runOneAttempt_passes : (∃ outcome, (runOneAttempt conversation req).2 = .ok outcome ∧
        outcome.result.exitCode = 0) ↔ conversation.Passes := by
  cases conversation with
  | submitted passing ending =>
    simp only [runOneAttempt, collect_passes]
    cases ending <;> simp [Conversation.Passes]
  | _ => simp [runOneAttempt, Conversation.Passes]

theorem length_runOneAttempt_le : (runOneAttempt conversation req).1.length ≤ 1 := by
  cases conversation <;> simp [runOneAttempt]

theorem length_runOneAttempt_pos :
    0 < (runOneAttempt conversation req).1.length ↔ conversation.IsSubmitted := by
  cases conversation <;> simp [runOneAttempt, Conversation.IsSubmitted]

theorem Conversation.Crashes.isSubmitted (crashes : conversation.Crashes) :
    conversation.IsSubmitted := by
  cases conversation <;> simp_all [Crashes, IsSubmitted]

theorem Conversation.Crashes.not_passes (crashes : conversation.Crashes) :
    ¬conversation.Passes := by
  cases conversation with
  | submitted _ ending => cases ending <;> simp_all [Crashes, Passes]
  | _ => simp [Passes]

end Attempt

namespace Schedule

/-- The action is submitted a second time. -/
structure Resubmits (schedule : Schedule) : Prop where
  crashes : schedule.first.Crashes
  respawned : schedule.respawn = none
  submitted : schedule.second.IsSubmitted

def Passes (schedule : Schedule) : Prop := schedule.first.Passes ∨
    (schedule.first.Crashes ∧ schedule.respawn = none ∧ schedule.second.Passes)

end Schedule

section Call

variable {socket : String} {sched : Schedule} {req : ActionRequest}

def conclude (socket : String) (attempt : ℕ) (answer : Except AttemptError AttemptOutcome) :
    Except RespawnError RespawnOutcome :=
  match answer with
  | .ok outcome => .ok ⟨outcome.result, attempt, outcome.progress⟩
  | .error error => .error (error.surface socket)

variable {ans : Except AttemptError AttemptOutcome}

theorem conclude_passes {attempt : ℕ} :
    (∃ outcome, conclude socket attempt ans = .ok outcome ∧ outcome.result.exitCode = 0) ↔
      ∃ outcome, ans = .ok outcome ∧ outcome.result.exitCode = 0 := by
  cases ans <;> simp [conclude]

theorem submitWithRespawn_of_alive (alive : ¬sched.first.Crashes) :
    submitWithRespawn socket sched req = ((runOneAttempt sched.first req).1,
        conclude socket 0 (runOneAttempt sched.first req).2) := by
  have notCrashed : (runOneAttempt sched.first req).2 ≠ .error .crashed :=
    mt runOneAttempt_crashed.mp alive
  rw [submitWithRespawn, submitWithRespawnInner]
  simp only [↓reduceIte]
  split
  · rename_i outcome answered
    simp [conclude, answered]
  · contradiction
  · rename_i err _ answered
    simp [conclude, answered]

theorem submitWithRespawn_of_launcher {err : String} (crashes : sched.first.Crashes)
    (failed : sched.respawn = some err) :
    submitWithRespawn socket sched req =
      ((runOneAttempt sched.first req).1, .error (.launcher err)) := by
  rw [submitWithRespawn, submitWithRespawnInner]
  simp [runOneAttempt_crashed.mpr crashes, failed]

theorem submitWithRespawn_of_respawned (crashes : sched.first.Crashes)
    (respawned : sched.respawn = none) :
    submitWithRespawn socket sched req =
      ((runOneAttempt sched.first req).1 ++ (runOneAttempt sched.second req).1,
        conclude socket 1 (runOneAttempt sched.second req).2) := by
  have lastAttempt : submitWithRespawnInner socket sched req 1 =
      ((runOneAttempt sched.second req).1,
        conclude socket 1 (runOneAttempt sched.second req).2) := by
    rw [submitWithRespawnInner]
    simp only [one_ne_zero, ↓reduceIte]
    split <;> rename_i answered <;> simp [conclude, answered, AttemptError.surface]
  rw [submitWithRespawn, submitWithRespawnInner]
  simp [runOneAttempt_crashed.mpr crashes, respawned, lastAttempt]

variable (socket sched req)

theorem submitWithRespawn_passes :
    (∃ outcome, (submitWithRespawn socket sched req).2 = .ok outcome ∧
      outcome.result.exitCode = 0) ↔ sched.Passes := by
  by_cases crashes : sched.first.Crashes
  · rcases respawned : sched.respawn with _ | _
    · simp only [submitWithRespawn_of_respawned crashes respawned, conclude_passes,
        runOneAttempt_passes, Schedule.Passes, crashes.not_passes, crashes, respawned,
        false_or, true_and]
    · simp [submitWithRespawn_of_launcher crashes respawned, Schedule.Passes, respawned,
        crashes.not_passes]
  · simp only [submitWithRespawn_of_alive crashes, conclude_passes, runOneAttempt_passes,
      Schedule.Passes, crashes, false_and, or_false]

theorem length_submitWithRespawn_le_one :
    (submitWithRespawn socket sched req).1.length ≤ 1 ↔ ¬sched.Resubmits := by
  by_cases crashes : sched.first.Crashes
  · rcases respawned : sched.respawn with _ | _
    · have once : (runOneAttempt sched.first req).1.length = 1 :=
        le_antisymm length_runOneAttempt_le (length_runOneAttempt_pos.mpr crashes.isSubmitted)
      have resubmits : sched.Resubmits ↔ 0 < (runOneAttempt sched.second req).1.length := by
        rw [length_runOneAttempt_pos]
        exact ⟨Schedule.Resubmits.submitted, fun submitted => ⟨crashes, respawned, submitted⟩⟩
      simp only [submitWithRespawn_of_respawned crashes respawned, List.length_append, once,
        resubmits]
      omega
    · rw [submitWithRespawn_of_launcher crashes respawned]
      refine iff_of_true length_runOneAttempt_le fun resubmits => ?_
      simp [resubmits.respawned] at respawned
  · rw [submitWithRespawn_of_alive crashes]
    exact iff_of_true length_runOneAttempt_le fun resubmits => crashes resubmits.crashes

theorem respawns_of_conclude {attempt : ℕ}
    {outcome : RespawnOutcome} (done : conclude socket attempt ans = .ok outcome) :
    outcome.respawns = attempt := by
  cases ans <;> cases done
  rfl

theorem submitWithRespawn_bounded : (submitWithRespawn socket sched req).1.length ≤ 2 ∧
    ∀ outcome, (submitWithRespawn socket sched req).2 = .ok outcome → outcome.respawns ≤ 1 := by
  have once : ∀ conversation, (runOneAttempt conversation req).1.length ≤ 1 :=
    fun _ => length_runOneAttempt_le
  by_cases crashes : sched.first.Crashes
  · rcases respawned : sched.respawn with _ | _
    · rw [submitWithRespawn_of_respawned crashes respawned, List.length_append]
      exact ⟨add_le_add (once _) (once _), fun _ done => (respawns_of_conclude socket done).le⟩
    · rw [submitWithRespawn_of_launcher crashes respawned]
      exact ⟨(once _).trans one_le_two, nofun⟩
  · rw [submitWithRespawn_of_alive crashes]
    exact ⟨(once _).trans one_le_two, fun _ done => by simp [respawns_of_conclude socket done]⟩

end Call

end Respawn

open List

inductive VerifyError where
  | workers (detail : String)
  | launcher (error : String)
  | persistentCrash (phase : String)
  | daemonConnect (phase socket detail : String)
  | ipc (phase detail : String)
  | daemonError (phase code message : String)
  | prematureClose (phase : String)
  deriving DecidableEq

def classifyRespawnError (phase : String) : RespawnError → VerifyError
  | .launcher error => .launcher error
  | .persistentCrash => .persistentCrash phase
  | .connect socket source => .daemonConnect phase socket source
  | .ipc detail => .ipc phase detail
  | .daemonProtocolError code message => .daemonError phase code message
  | .prematureClose => .prematureClose phase

def actionStatusStr (status : Int32) : String :=
  if status = 1 then "success"
  else if status = 2 then "failure"
  else if status = 3 then "timeout"
  else if status = 4 then "crashed"
  else if status = 5 then "cancelled"
  else "unknown"

structure MojoInvocation where
  phase : String
  mojo : String
  moduleRoot : String
  exitCode : Int32
  status : String
  failureMessage : String
  errorCode : String
  deriving DecidableEq

structure ModuleOutcome where
  invocations : List MojoInvocation
  executed : ℕ
  failedActions : ℕ
  respawns : ℕ
  deriving DecidableEq

namespace ModuleOutcome

def empty : ModuleOutcome := ⟨[], 0, 0, 0⟩

def addRespawns (total more : ℕ) : ℕ := min (total + more) (2 ^ 32 - 1)

def record (out : ModuleOutcome) (action : PlannedAction) (moduleRoot : String)
    (outcome : RespawnOutcome) : ModuleOutcome where
  invocations := out.invocations ++
    [{ phase := action.phase
       mojo := outcome.result.actionId
       moduleRoot := moduleRoot
       exitCode := outcome.result.exitCode
       status := actionStatusStr outcome.result.status
       failureMessage := outcome.result.failureMessage
       errorCode := (outcome.result.error.map Ipc.Wire.Error.code).getD "" }]
  executed := out.executed + 1
  failedActions := if outcome.result.exitCode ≠ 0 then out.failedActions + 1 else out.failedActions
  respawns := addRespawns out.respawns outcome.respawns

end ModuleOutcome

structure Submission where
  moduleIndex : ℕ
  position : ℕ
  action : PlannedAction
  request : ActionRequest
  deriving DecidableEq

structure Command where
  socket : String
  projectRoot : String
  deployCredentials : Option CredentialsEnvelope
  ciSeed : Option ReproducibilitySeed
  deriving DecidableEq

structure Surroundings where
  /-- The error of building the runtime for the modules, if there is one. -/
  runtime : Option String
  schedule : ℕ → ℕ → Schedule

namespace Command

variable (command : Command)

def complete (action : PlannedAction) (request : ActionRequest) : ActionRequest :=
  let request :=
    if action.phase = "deploy" then
      match command.deployCredentials with
      | some envelope => { request with credentials := some envelope }
      | none => request
    else request
  match command.ciSeed with
  | some seed => applyToRequest request seed
  | none => request

def dispatchActions (index : ℕ) (prepare : PlannedAction → ActionRequest) (root : String)
    (schedule : ℕ → Schedule) : ℕ → List PlannedAction → ModuleOutcome →
    List Submission × Except VerifyError ModuleOutcome
  | _, [], out => ([], .ok out)
  | position, action :: rest, out =>
    if 0 < out.failedActions then ([], .ok out)
    else
      let (sent, answer) :=
        submitWithRespawn command.socket (schedule position) (prepare action)
      let submissions := sent.map (Submission.mk index position action)
      match answer with
      | .error error => (submissions, .error (classifyRespawnError action.phase error))
      | .ok outcome =>
        let (later, final) := dispatchActions index prepare root schedule (position + 1) rest
          (out.record action root outcome)
        (submissions ++ later, final)

def dispatchSingleModule (graph : ActionGraph) (schedule : ℕ → Schedule) :
    List Submission × Except VerifyError ModuleOutcome :=
  command.dispatchActions 0
    (fun action => command.complete action (buildActionRequest graph action command.projectRoot))
    graph.moduleRoot schedule 0 graph.actions .empty

def dispatchOneModule (index : ℕ) (node : ModuleNode) (schedule : ℕ → Schedule) :
    List Submission × Except VerifyError ModuleOutcome :=
  command.dispatchActions index
    (fun action => command.complete action
      { buildActionRequest node.actionGraph action command.projectRoot with
        projectRoot := node.root })
    node.root schedule 0 node.actionGraph.actions .empty

def aborts : Except VerifyError ModuleOutcome → Bool
  | .ok out => 0 < out.failedActions
  | .error _ => true

def dispatchModuleAt (modules : List ModuleNode) (schedule : ℕ → ℕ → Schedule) (index : ℕ) :
    List Submission × Except VerifyError ModuleOutcome :=
  match modules[index]? with
  | some node => command.dispatchOneModule index node (schedule index)
  | none => ([], .ok .empty)

def dispatchLevels (modules : List ModuleNode) (schedule : ℕ → ℕ → Schedule) :
    List (List ℕ) → List Submission × List (ℕ × Except VerifyError ModuleOutcome)
  | [] => ([], [])
  | level :: rest =>
    let submissions := level.flatMap fun index =>
      (command.dispatchModuleAt modules schedule index).1
    let outcomes := level.map fun index =>
      (index, (command.dispatchModuleAt modules schedule index).2)
    if outcomes.any (aborts ·.2) then (submissions, outcomes)
    else
      let later := dispatchLevels modules schedule rest
      (submissions ++ later.1, outcomes ++ later.2)

def aggregate (total : ModuleOutcome) :
    List (Except VerifyError ModuleOutcome) → Except VerifyError ModuleOutcome
  | [] => .ok total
  | .error error :: _ => .error error
  | .ok out :: rest =>
    aggregate
      { invocations := total.invocations ++ out.invocations
        executed := total.executed + out.executed
        failedActions := total.failedActions + out.failedActions
        respawns := ModuleOutcome.addRespawns total.respawns out.respawns } rest

def dispatchReactorModules (reactor : Reactor) (surroundings : Surroundings) :
    List Submission × Except VerifyError ModuleOutcome :=
  match surroundings.runtime with
  | some detail => ([], .error (.workers ("tokio multi-thread runtime build: " ++ detail)))
  | none =>
    let (submissions, outcomes) :=
      command.dispatchLevels reactor.modules surroundings.schedule reactor.topoLevels
    (submissions, aggregate .empty ((range reactor.modules.length).filterMap fun index =>
      outcomes.lookup index))

def dispatch (reactor : Reactor) (surroundings : Surroundings) :
    List Submission × Except VerifyError ModuleOutcome :=
  match reactor.modules with
  | [single] => command.dispatchSingleModule single.actionGraph (surroundings.schedule 0)
  | _ => command.dispatchReactorModules reactor surroundings

def isAction (index position : ℕ) (submission : Submission) : Bool :=
  submission.moduleIndex = index ∧ submission.position = position

section Actions

variable {command : Command} {idx : ℕ} {prepare : PlannedAction → ActionRequest}
  {root : String} {sched : ℕ → Schedule} {pos : ℕ} {act : PlannedAction}
  {actions : List PlannedAction} {out : ModuleOutcome}

theorem dispatchActions_of_failed (failed : 0 < out.failedActions) :
    command.dispatchActions idx prepare root sched pos actions out = ([], .ok out) := by
  cases actions <;> simp [dispatchActions, failed]

theorem dispatchActions_of_passes (running : out.failedActions = 0) (passes : (sched pos).Passes) :
    ∃ out' : ModuleOutcome, out'.failedActions = 0 ∧
      command.dispatchActions idx prepare root sched pos (act :: actions) out =
        ((submitWithRespawn command.socket (sched pos) (prepare act)).1.map
            (Submission.mk idx pos act) ++
          (command.dispatchActions idx prepare root sched (pos + 1) actions out').1,
          (command.dispatchActions idx prepare root sched (pos + 1) actions out').2) := by
  rcases (submitWithRespawn_passes command.socket (sched pos) (prepare act)).mpr
    passes with ⟨outcome, answered, exitCode⟩
  refine ⟨out.record act root outcome, by simp [ModuleOutcome.record, running, exitCode], ?_⟩
  simp [dispatchActions, running, answered]

theorem dispatchActions_of_not_passes (running : out.failedActions = 0)
    (stuck : ¬(sched pos).Passes) :
    (command.dispatchActions idx prepare root sched pos (act :: actions) out).1 =
        (submitWithRespawn command.socket (sched pos) (prepare act)).1.map
          (Submission.mk idx pos act) ∧
      aborts (command.dispatchActions idx prepare root sched pos (act :: actions)
        out).2 = true := by
  rw [← submitWithRespawn_passes command.socket (sched pos) (prepare act)] at stuck
  simp only [dispatchActions, running, lt_self_iff_false, ↓reduceIte]
  rcases answered : (submitWithRespawn command.socket (sched pos) (prepare act)).2 with _ | outcome
  · exact ⟨rfl, rfl⟩
  · have exitCode : outcome.result.exitCode ≠ 0 := fun zero => stuck ⟨outcome, answered, zero⟩
    have failed : 0 < (out.record act root outcome).failedActions := by
      simp [ModuleOutcome.record, exitCode]
    simp [dispatchActions_of_failed failed, aborts, failed]

theorem mem_dispatchActions {job : Submission} (sent : job ∈
      (command.dispatchActions idx prepare root sched pos actions out).1) :
    job.moduleIndex = idx ∧ ∃ offset, job.position = pos + offset ∧
      actions[offset]? = some job.action ∧
      ∀ prior < offset, (sched (pos + prior)).Passes := by
  induction actions generalizing pos out with
  | nil => simp [dispatchActions] at sent
  | cons act actions ih =>
    by_cases failed : 0 < out.failedActions
    · simp [dispatchActions_of_failed failed] at sent
    have running : out.failedActions = 0 := by omega
    have ofFirst : job ∈
        (submitWithRespawn command.socket (sched pos) (prepare act)).1.map
          (Submission.mk idx pos act) →
        job.moduleIndex = idx ∧ ∃ offset, job.position = pos + offset ∧
          (act :: actions)[offset]? = some job.action ∧
          ∀ prior < offset, (sched (pos + prior)).Passes := by
      intro first
      rcases mem_map.mp first with ⟨req, _, rfl⟩
      exact ⟨rfl, 0, by simp⟩
    by_cases passes : (sched pos).Passes
    · rcases dispatchActions_of_passes running passes with ⟨out', _, run⟩
      rw [run] at sent
      rcases mem_append.mp sent with first | later
      · exact ofFirst first
      · rcases ih later with ⟨sameModule, offset, place, planned, pre⟩
        refine ⟨sameModule, offset + 1, by omega, by simpa using planned, ?_⟩
        intro prior lt
        cases prior with
        | zero => exact passes
        | succ prior =>
          have := pre prior (by omega)
          rwa [Nat.add_right_comm] at this
    · rw [(dispatchActions_of_not_passes running passes).1] at sent
      exact ofFirst sent

theorem countP_isAction_map (requests : List ActionRequest) (other : ℕ) :
    (requests.map (Submission.mk idx pos act)).countP (isAction idx other) =
      if pos = other then requests.length else 0 := by
  induction requests with
  | nil => simp
  | cons req requests ih =>
    simp only [map_cons, countP_cons, ih, isAction, true_and, decide_eq_true_eq,
      length_cons]
    split <;> simp

theorem countP_dispatchActions (running : out.failedActions = 0) {offset : ℕ}
    (planned : actions[offset]? = some act) (pre : ∀ prior < offset, (sched (pos + prior)).Passes) :
    (command.dispatchActions idx prepare root sched pos actions out).1.countP
        (isAction idx (pos + offset)) =
      (submitWithRespawn command.socket (sched (pos + offset))
        (prepare act)).1.length := by
  induction actions generalizing pos out offset with
  | nil => simp at planned
  | cons head actions ih =>
    cases offset with
    | zero =>
      rw [getElem?_cons_zero, Option.some.injEq] at planned
      subst head
      rw [Nat.add_zero]
      -- The positions of later submissions are greater than this one.
      have noLater : ∀ out' : ModuleOutcome,
          (command.dispatchActions idx prepare root sched (pos + 1) actions
            out').1.countP (isAction idx pos) = 0 := by
        intro out'
        apply countP_eq_zero.mpr
        intro job sent
        rcases mem_dispatchActions sent with ⟨_, offset, place, _⟩
        simp only [isAction, decide_eq_true_eq, not_and]
        omega
      by_cases passes : (sched pos).Passes
      · rcases dispatchActions_of_passes running passes with ⟨out', _, run⟩
        rw [run, countP_append, countP_isAction_map, if_pos rfl, noLater, Nat.add_zero]
      · rw [(dispatchActions_of_not_passes running passes).1, countP_isAction_map, if_pos rfl]
    | succ offset =>
      rcases dispatchActions_of_passes running (by simpa using pre 0 (by omega)) with
        ⟨out', running', run⟩
      have rest := ih running' (by simpa using planned) (fun prior lt => by
        have := pre (prior + 1) (by omega)
        rwa [← Nat.add_assoc, Nat.add_right_comm] at this)
      rw [Nat.add_right_comm, Nat.add_assoc] at rest
      rw [run, countP_append, countP_isAction_map, if_neg (by omega), zero_add, rest]

theorem aborts_dispatchActions (running : out.failedActions = 0) :
    aborts (command.dispatchActions idx prepare root sched pos actions out).2 = false ↔
      ∀ offset < actions.length, (sched (pos + offset)).Passes := by
  induction actions generalizing pos out with
  | nil => simp [dispatchActions, aborts, running]
  | cons act actions ih =>
    by_cases passes : (sched pos).Passes
    · rcases dispatchActions_of_passes running passes with ⟨out', running', run⟩
      rw [run, ih running', length_cons, Nat.forall_lt_succ_left']
      simp [passes, Nat.add_right_comm, Nat.add_assoc]
    · simp only [(dispatchActions_of_not_passes running passes).2, Bool.true_eq_false, false_iff,
        not_forall]
      exact ⟨0, by simp, by simpa using passes⟩

theorem mem_dispatchActions_start {job : Submission}
    (sent : job ∈ (command.dispatchActions idx prepare root sched 0 actions out).1) :
    job.moduleIndex = idx ∧ actions[job.position]? = some job.action ∧
      ∀ prior < job.position, (sched prior).Passes := by
  rcases mem_dispatchActions sent with ⟨sameModule, offset, place, planned, pre⟩
  rw [zero_add] at place
  subst offset
  exact ⟨sameModule, planned, by simpa using pre⟩

theorem countP_dispatchActions_start (planned : actions[pos]? = some act)
    (pre : ∀ prior < pos, (sched prior).Passes) :
    ∃ req, (command.dispatchActions idx prepare root sched 0 actions .empty).1.countP
        (isAction idx pos) =
      (submitWithRespawn command.socket (sched pos) req).1.length := by
  have counted :
      (command.dispatchActions idx prepare root sched 0 actions .empty).1.countP
          (isAction idx (0 + pos)) =
        (submitWithRespawn command.socket (sched (0 + pos)) (prepare act)).1.length :=
    countP_dispatchActions rfl planned (by simpa using pre)
  rw [zero_add] at counted
  exact ⟨prepare act, counted⟩

end Actions

end Command

end Dispatch

open List

def plannedAt (modules : List ModuleNode) (index position : ℕ) : Option PlannedAction :=
  (modules[index]?).bind fun node => node.actionGraph.actions[position]?

def ModulePasses (modules : List ModuleNode) (schedule : ℕ → ℕ → Schedule) (index : ℕ) : Prop :=
  ∀ position action, plannedAt modules index position = some action →
    (schedule index position).Passes

def Reactor.Before (reactor : Reactor) (first second : ℕ) : Prop :=
  ∃ before level after, reactor.topoLevels = before ++ level :: after ∧
    first ∈ before.flatten ∧ second ∈ level

structure Reached (reactor : Reactor) (surroundings : Surroundings) (index position : ℕ)
    (action : PlannedAction) : Prop where
  planned : plannedAt reactor.modules index position = some action
  started : reactor.modules.length = 1 ∨ surroundings.runtime = none
  earlierActions : ∀ earlier < position, (surroundings.schedule index earlier).Passes
  earlierLevels : ∀ other, reactor.Before other index →
    ModulePasses reactor.modules surroundings.schedule other

/-- No action that is not retryable is submitted twice. -/
def SubmittedOnce (log : List Submission) : Prop :=
  ∀ submission ∈ log, submission.action.retryable = false →
    (log.filter fun other => other.moduleIndex = submission.moduleIndex ∧
      other.position = submission.position).length ≤ 1

namespace Reactor

variable {reactor : Reactor}

theorem Before.ne {first second : ℕ} (pre : reactor.Before first second) : first ≠ second := by
  rcases pre with ⟨pre, level, post, levels, prior, mem⟩
  have distinct := reactor.distinct
  simp only [levels, flatten_append, flatten_cons, nodup_append'] at distinct
  rintro rfl
  exact distinct.2.2 prior (mem_append_left _ mem)

theorem Before.lt_length {first second : ℕ} (pre : reactor.Before first second) :
    first < reactor.modules.length := by
  rcases pre with ⟨pre, level, post, levels, prior, _⟩
  rw [← reactor.complete, levels, flatten_append]
  exact mem_append_left _ prior

theorem prefix_unique {pre before' post after' : List (List ℕ)} {level level' : List ℕ}
    {idx : ℕ} (distinct : (pre ++ level :: post).flatten.Nodup)
    (same : pre ++ level :: post = before' ++ level' :: after')
    (mem : idx ∈ level) (member' : idx ∈ level') : pre = before' := by
  induction pre generalizing before' with
  | nil =>
    rcases before' with _ | _
    · rfl
    · simp only [nil_append, cons_append, List.cons.injEq] at same
      rcases same with ⟨rfl, rfl⟩
      simp only [nil_append, flatten_cons, nodup_append'] at distinct
      exact absurd (distinct.2.2 mem (by simp [member'])) id
  | cons head pre ih =>
    simp only [cons_append, flatten_cons, nodup_append'] at distinct
    rcases before' with _ | _
    · simp only [cons_append, nil_append, List.cons.injEq] at same
      rcases same with ⟨rfl, rfl⟩
      exact absurd (distinct.2.2 member' (by simp [mem])) id
    · simp only [cons_append, List.cons.injEq] at same
      rw [same.1, ih distinct.2.1 same.2]

end Reactor

namespace Command

section Levels

variable {cmd : Command} {modules : List ModuleNode} {sched : ℕ → ℕ → Schedule}
  {idx pos : ℕ} {act : PlannedAction}

theorem mem_dispatchModuleAt {job : Submission}
    (sent : job ∈ (cmd.dispatchModuleAt modules sched idx).1) :
    job.moduleIndex = idx ∧ plannedAt modules idx job.position = some job.action ∧
      ∀ prior < job.position, (sched idx prior).Passes := by
  simp only [dispatchModuleAt] at sent
  split at sent
  · rename_i node found
    simpa [plannedAt, found] using mem_dispatchActions_start sent
  · simp at sent

theorem countP_dispatchModuleAt (planned : plannedAt modules idx pos = some act)
    (pre : ∀ prior < pos, (sched idx prior).Passes) :
    ∃ req, (cmd.dispatchModuleAt modules sched idx).1.countP (isAction idx pos) =
      (submitWithRespawn cmd.socket (sched idx pos) req).1.length := by
  rcases Option.bind_eq_some_iff.mp planned with ⟨node, found, planned⟩
  simp only [dispatchModuleAt, found]
  exact countP_dispatchActions_start planned pre

theorem aborts_dispatchModuleAt : aborts (cmd.dispatchModuleAt modules sched idx).2 = false ↔
      ModulePasses modules sched idx := by
  simp only [dispatchModuleAt, ModulePasses, plannedAt]
  rcases modules[idx]? with _ | _
  · simp [aborts, ModuleOutcome.empty]
  · simp only [dispatchOneModule, aborts_dispatchActions, ModuleOutcome.empty, zero_add,
      Option.bind_some, List.getElem?_eq_some_iff, forall_exists_index]
    exact ⟨fun passes pos _ inRange _ => passes pos inRange,
      fun passes pos inRange => passes pos _ inRange rfl⟩

variable {level : List ℕ}

theorem countP_level (distinct : level.Nodup) (mem : idx ∈ level) :
    (level.flatMap fun other => (cmd.dispatchModuleAt modules sched other).1).countP
        (isAction idx pos) =
      (cmd.dispatchModuleAt modules sched idx).1.countP (isAction idx pos) := by
  rw [countP_flatMap, sum_map_eq_nsmul_single idx, count_eq_one_of_mem distinct
    mem, one_nsmul, Function.comp_apply]
  intro other ne _
  apply countP_eq_zero.mpr
  intro job sent
  simp [isAction, (mem_dispatchModuleAt sent).1, ne]

theorem countP_other_level (absent : idx ∉ level) :
    (level.flatMap fun other => (cmd.dispatchModuleAt modules sched other).1).countP
      (isAction idx pos) = 0 := by
  apply countP_eq_zero.mpr
  intro job sent
  rcases mem_flatMap.mp sent with ⟨other, mem, sent⟩
  simp only [isAction, (mem_dispatchModuleAt sent).1, decide_eq_true_eq, not_and]
  rintro rfl
  contradiction

variable (cmd) in
theorem any_aborts {level : List ℕ} : (level.map fun other =>
        (other, (cmd.dispatchModuleAt modules sched other).2)).any (aborts ·.2) = false ↔
      ∀ other ∈ level, ModulePasses modules sched other := by
  simp only [any_map, any_eq_false, Function.comp_apply, Bool.not_eq_true, aborts_dispatchModuleAt]

theorem dispatchLevels_of_passes {rest : List (List ℕ)}
    (passes : ∀ other ∈ level, ModulePasses modules sched other) :
    (cmd.dispatchLevels modules sched (level :: rest)).1 =
      (level.flatMap fun other => (cmd.dispatchModuleAt modules sched other).1) ++
        (cmd.dispatchLevels modules sched rest).1 := by
  simp only [dispatchLevels, (any_aborts cmd).mpr passes, Bool.false_eq_true, ↓reduceIte]

theorem dispatchLevels_of_not_passes {rest : List (List ℕ)}
    (stuck : ¬∀ other ∈ level, ModulePasses modules sched other) :
    (cmd.dispatchLevels modules sched (level :: rest)).1 =
      level.flatMap fun other => (cmd.dispatchModuleAt modules sched other).1 := by
  have aborted := mt (any_aborts cmd).mp stuck
  rw [Bool.not_eq_false] at aborted
  simp only [dispatchLevels, aborted, ↓reduceIte]

theorem mem_dispatchLevels {levels : List (List ℕ)} {job : Submission}
    (sent : job ∈ (cmd.dispatchLevels modules sched levels).1) :
    ∃ pre level post, levels = pre ++ level :: post ∧ job.moduleIndex ∈ level ∧
      job ∈ (cmd.dispatchModuleAt modules sched job.moduleIndex).1 ∧
      ∀ other ∈ pre.flatten, ModulePasses modules sched other := by
  induction levels with
  | nil => simp [dispatchLevels] at sent
  | cons level rest ih =>
    have ofLevel : job ∈ (level.flatMap fun other =>
          (cmd.dispatchModuleAt modules sched other).1) →
        job.moduleIndex ∈ level ∧ job ∈ (cmd.dispatchModuleAt modules sched job.moduleIndex).1 := by
      intro sent
      rcases mem_flatMap.mp sent with ⟨other, mem, sent⟩
      have same := (mem_dispatchModuleAt sent).1
      subst other
      exact ⟨mem, sent⟩
    by_cases passes : ∀ other ∈ level, ModulePasses modules sched other
    · rw [dispatchLevels_of_passes passes] at sent
      rcases mem_append.mp sent with now | later
      · rcases ofLevel now with ⟨mem, sent⟩
        exact ⟨[], level, rest, rfl, mem, sent, by simp⟩
      · rcases ih later with ⟨pre, level', post, rfl, mem, sent, passed⟩
        refine ⟨level :: pre, level', post, rfl, mem, sent, ?_⟩
        intro other prior
        rcases mem_append.mp (flatten_cons ▸ prior) with now | between
        · exact passes other now
        · exact passed other between
    · rw [dispatchLevels_of_not_passes passes] at sent
      rcases ofLevel sent with ⟨mem, sent⟩
      exact ⟨[], level, rest, rfl, mem, sent, by simp⟩

theorem countP_dispatchLevels {pre post : List (List ℕ)}
    (distinct : (pre ++ level :: post).flatten.Nodup) (mem : idx ∈ level)
    (passed : ∀ other ∈ pre.flatten, ModulePasses modules sched other) :
    (cmd.dispatchLevels modules sched (pre ++ level :: post)).1.countP (isAction idx pos) =
      (cmd.dispatchModuleAt modules sched idx).1.countP (isAction idx pos) := by
  induction pre with
  | nil =>
    simp only [nil_append, flatten_cons, nodup_append'] at distinct
    rcases distinct with ⟨levelDistinct, _, apart⟩
    by_cases passes : ∀ other ∈ level, ModulePasses modules sched other
    · have nothingLater : (cmd.dispatchLevels modules sched post).1.countP
          (isAction idx pos) = 0 := by
        apply countP_eq_zero.mpr
        intro job sent
        rcases mem_dispatchLevels sent with ⟨pre, level', post, rfl, later, _⟩
        simp only [isAction, decide_eq_true_eq, not_and]
        rintro rfl
        exact absurd (apart mem (by simp [later])) id
      rw [nil_append, dispatchLevels_of_passes passes, countP_append,
        countP_level levelDistinct mem, nothingLater, Nat.add_zero]
    · rw [nil_append, dispatchLevels_of_not_passes passes, countP_level levelDistinct mem]
  | cons first pre ih =>
    simp only [cons_append, flatten_cons, nodup_append'] at distinct
    rcases distinct with ⟨_, restDistinct, apart⟩
    have absent : idx ∉ first := by
      intro prior
      exact apart prior (by simp [mem])
    simp only [flatten_cons, mem_append] at passed
    rw [cons_append, dispatchLevels_of_passes fun other prior => passed other (.inl prior),
      countP_append, countP_other_level absent, Nat.zero_add]
    exact ih restDistinct fun other prior => passed other (.inr prior)

end Levels

section Commands

variable {cmd : Command} {reactor : Reactor} {world : Surroundings}
  {idx pos : ℕ} {act : PlannedAction}

theorem dispatch_single {node : ModuleNode} (single : reactor.modules = [node]) :
    cmd.dispatch reactor world = cmd.dispatchSingleModule node.actionGraph (world.schedule 0) := by
  simp [dispatch, single]

theorem dispatch_levels (several : reactor.modules.length ≠ 1) (started : world.runtime = none) :
    (cmd.dispatch reactor world).1 =
      (cmd.dispatchLevels reactor.modules world.schedule reactor.topoLevels).1 := by
  simp only [dispatch]
  split
  · rename_i single
    simp [single] at several
  · simp [dispatchReactorModules, started]

theorem reached_of_mem_dispatch {job : Submission} (sent : job ∈ (cmd.dispatch reactor world).1) :
    Reached reactor world job.moduleIndex job.position job.action := by
  by_cases single : reactor.modules.length = 1
  · rcases length_eq_one_iff.mp single with ⟨node, alone⟩
    rw [dispatch_single alone] at sent
    rcases mem_dispatchActions_start sent with ⟨sameModule, planned, prior⟩
    rw [sameModule]
    refine ⟨by simpa [plannedAt, alone] using planned, .inl single, prior, ?_⟩
    intro other pre
    have := pre.ne
    have := pre.lt_length
    omega
  · rcases started : world.runtime with _ | _
    · rw [dispatch_levels single started] at sent
      rcases mem_dispatchLevels sent with ⟨pre, level, post, levels, mem, sent, passed⟩
      rcases mem_dispatchModuleAt sent with ⟨_, planned, prior⟩
      refine ⟨planned, .inr started, prior, ?_⟩
      rintro other ⟨before', level', after', levels', isBefore, member'⟩
      have distinct := reactor.distinct
      rw [levels] at distinct levels'
      rw [← Reactor.prefix_unique distinct levels' mem member'] at isBefore
      exact passed other isBefore
    · simp only [dispatch] at sent
      split at sent
      · rename_i alone
        simp [alone] at single
      · simp [dispatchReactorModules, started] at sent

variable (cmd) in
theorem countP_dispatch (reached : Reached reactor world idx pos act) :
    ∃ req, (cmd.dispatch reactor world).1.countP (isAction idx pos) =
      (submitWithRespawn cmd.socket (world.schedule idx pos) req).1.length := by
  rcases Option.bind_eq_some_iff.mp reached.planned with ⟨node, found, planned⟩
  have inRange := (List.getElem?_eq_some_iff.mp found).1
  by_cases single : reactor.modules.length = 1
  · rcases length_eq_one_iff.mp single with ⟨node', alone⟩
    have first : idx = 0 := by omega
    subst idx
    simp only [alone, getElem?_cons_zero, Option.some.injEq] at found
    subst node'
    rw [dispatch_single alone]
    exact countP_dispatchActions_start planned reached.earlierActions
  · rw [dispatch_levels single (reached.started.resolve_left single)]
    rcases mem_flatten.mp ((reactor.complete idx).mpr inRange) with ⟨level, listed, mem⟩
    rcases append_of_mem listed with ⟨pre, post, levels⟩
    have distinct := reactor.distinct
    rw [levels] at distinct ⊢
    rw [countP_dispatchLevels distinct mem fun other prior =>
      reached.earlierLevels other ⟨pre, level, post, levels, prior, mem⟩]
    exact countP_dispatchModuleAt reached.planned reached.earlierActions

theorem submittedOnce_iff {log : List Submission} :
    SubmittedOnce log ↔ ∀ job ∈ log, job.action.retryable = false →
      log.countP (isAction job.moduleIndex job.position) ≤ 1 := by
  simp only [SubmittedOnce, countP_eq_length_filter]
  rfl

theorem submittedOnce_perm {log log' : List Submission} (same : log.Perm log') :
    SubmittedOnce log ↔ SubmittedOnce log' := by
  simp only [submittedOnce_iff, same.mem_iff, same.countP_eq]

/-- In whatever order the submissions of a command are made, the actions that are marked as not
retryable are submitted at most once exactly when no such action, when its turn has come, is
accepted by a second daemon after the first one crashed under it. -/
theorem dispatch_submittedOnce_iff (cmd : Command) (reactor : Reactor) (world : Surroundings) :
    (∀ log, log.Perm (cmd.dispatch reactor world).1 → SubmittedOnce log) ↔
      ∀ idx pos act, Reached reactor world idx pos act →
        act.retryable = false → ¬(world.schedule idx pos).Resubmits := by
  constructor
  · intro once idx pos act reached notRetryable resubmits
    rcases countP_dispatch cmd reached with ⟨request, counted⟩
    have twice := mt (length_submitWithRespawn_le_one cmd.socket
      (world.schedule idx pos) request).mp (not_not.mpr resubmits)
    rw [← counted] at twice
    rcases countP_pos_iff.mp (Nat.zero_lt_of_lt (Nat.lt_of_not_le twice)) with
      ⟨submission, sent, isIt⟩
    simp only [isAction, decide_eq_true_eq] at isIt
    rcases isIt with ⟨rfl, rfl⟩
    have sameAction := (reached_of_mem_dispatch sent).planned.symm.trans reached.planned
    rw [Option.some.injEq] at sameAction
    subst act
    exact twice (submittedOnce_iff.mp (once _ (List.Perm.refl _)) submission sent notRetryable)
  · intro alone log order
    rw [submittedOnce_perm order, submittedOnce_iff]
    intro submission sent notRetryable
    have reached := reached_of_mem_dispatch sent
    rcases countP_dispatch cmd reached with ⟨request, counted⟩
    rw [counted]
    exact (length_submitWithRespawn_le_one _ _ _).mpr (alone _ _ _ reached notRetryable)

end Commands

def installedModules : List DiscoveredModule :=
  [{ id := ⟨"org.example", "app"⟩, root := "/work/app", dependencyGas := [] }]

def installReactor : Reactor where
  modules := Reactor.moduleNodes installedModules .install false
  topoLevels := [[0]]
  distinct := by decide
  complete := by simp [Reactor.moduleNodes, installedModules]

def installCommand : Command where
  socket := "/run/barback.sock"
  projectRoot := "/work/app"
  deployCredentials := none
  ciSeed := none

def successful : ActionResult where
  actionId := "action"
  status := 1
  exitCode := 0
  durationMicros := 0
  failureMessage := ""
  failureStack := ""
  error := none

def crashDuringInstall : Surroundings where
  runtime := none
  schedule _ position :=
    { first := .submitted [] (if position = 9 then .error daemonCrashedCode "" else
        .result successful)
      respawn := none
      second := .submitted [] (.result successful) }

/-- The install action is given to a second daemon after a crash. -/
theorem install_submitted_twice :
    Reactor.fromDiscovered installedModules .install false = .ok installReactor ∧
      ¬SubmittedOnce (installCommand.dispatch installReactor crashDuringInstall).1 := by
  refine ⟨?_, ?_⟩
  · exact Reactor.fromDiscovered_of_sorted (by decide +kernel : kahnTopoLevels _ = .ok [[0]])
  · rw [SubmittedOnce]
    decide +kernel

end Command

end Barista.Daemon
