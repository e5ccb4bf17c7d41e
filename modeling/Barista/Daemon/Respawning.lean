import Barista.Daemon.AtMostOnce

/-!
# The driver of a submission and the processes it waits for

`submit_with_respawn` is taken step by step beside the daemon processes, which exit at any time or
never.  After a crash the driver waits for the process it has spawned itself, and how the
connection has ended says nothing about that process.
-/

namespace Barista.Daemon

/-- Where `submit_with_respawn_inner` stands. -/
inductive Stage where
  | attempt (number : ℕ) (child : Option ℕ)
  | wait (child : ℕ)
  | spawn
  | ready (child polls : ℕ)
  | returned (answer : Except RespawnError RespawnOutcome)

structure CallState where
  stage : Stage
  running : Finset ℕ
  sent : List ActionRequest
  spawned : ℕ

/-- What the driver meets: both conversations, the process that is spawned for the second one and
the answers of its socket, counted by the polls that are left until the deadline. -/
structure Daemons where
  first : Conversation
  second : Conversation
  spawn : Except String ℕ
  polls : ℕ
  live : ℕ → Bool
  crashedAtStartup : String
  spawnTimeout : String

inductive CallEvent where
  | drive
  | exit (process : ℕ)

section Driver

variable (socket : String) (daemons : Daemons) (request : ActionRequest)

def afterAttempt (number : ℕ) (child : Option ℕ) : Except AttemptError AttemptOutcome → Stage
  | .ok outcome => .returned (.ok ⟨outcome.result, number, outcome.progress⟩)
  | .error .crashed =>
    if number = 0 then
      match child with
      | some process => .wait process
      | none => .spawn
    else .returned (.error .persistentCrash)
  | .error error => .returned (.error (error.surface socket))

/-- One round of `wait_for_ready`. -/
def waitForReady (running : Finset ℕ) (child polls : ℕ) : Stage :=
  if daemons.live polls then .attempt 1 (some child)
  else if child ∉ running then .returned (.error (.launcher daemons.crashedAtStartup))
  else
    match polls with
    | 0 => .returned (.error (.launcher daemons.spawnTimeout))
    | polls + 1 => .ready child polls

def CallState.drive (state : CallState) : CallState :=
  match state.stage with
  | .attempt number child =>
    let (sent, answer) :=
      runOneAttempt (if number = 0 then daemons.first else daemons.second) request
    { state with sent := state.sent ++ sent, stage := afterAttempt socket number child answer }
  | .wait process => if process ∈ state.running then state else { state with stage := .spawn }
  | .spawn =>
    match daemons.spawn with
    | .error error => { state with stage := .returned (.error (.launcher error)) }
    | .ok process =>
      { state with
        stage := .ready process daemons.polls
        running := insert process state.running
        spawned := state.spawned + 1 }
  | .ready child polls => { state with stage := waitForReady daemons state.running child polls }
  | .returned _ => state

def CallState.step (state : CallState) : CallEvent → CallState
  | .drive => state.drive socket daemons request
  | .exit process => { state with running := state.running.erase process }

/-- The driver is given a turn again and again; the processes exit when they like. -/
structure FairRun where
  event : ℕ → CallEvent
  fair : ∀ time, ∃ later, time ≤ later ∧ event later = .drive

def CallState.after (state : CallState) (event : ℕ → CallEvent) : ℕ → CallState
  | 0 => state
  | time + 1 => (state.after event time).step socket daemons request (event time)

end Driver

def CallState.start (child : Option ℕ) (running : Finset ℕ) : CallState :=
  ⟨.attempt 0 child, running, [], 0⟩

section Progress

theorem exists_eq_zero {rank : ℕ → ℕ} (falls : ∀ time, rank (time + 1) ≤ rank time)
    (drops : ∀ time, ∃ later, time ≤ later ∧ (rank later ≠ 0 → rank (later + 1) < rank later)) :
    ∃ time, rank time = 0 := by
  have below : ∀ bound time, rank time ≤ bound → ∃ later, rank later = 0 := by
    intro bound
    induction bound with
    | zero => exact fun time le => ⟨time, Nat.le_zero.mp le⟩
    | succ bound ih =>
      intro time le
      rcases drops time with ⟨later, after, drop⟩
      have still : rank later ≤ rank time := antitone_nat_of_succ_le falls after
      by_cases zero : rank later = 0
      · exact ⟨later, zero⟩
      · exact ih (later + 1) (by have := drop zero; omega)
  exact below _ 0 le_rfl

variable (daemons : Daemons)

/-- How many turns of the driver are left at most, once no process is waited for. -/
def Stage.rank : Stage → ℕ
  | .attempt number _ => if number = 0 then daemons.polls + 5 else 1
  | .wait _ => daemons.polls + 4
  | .spawn => daemons.polls + 3
  | .ready _ polls => polls + 2
  | .returned _ => 0

def CallState.Blocked (state : CallState) : Prop :=
  ∃ process, state.stage = .wait process ∧ process ∈ state.running

variable {socket : String} {daemons} {request : ActionRequest} {state : CallState}

theorem rank_afterAttempt_lt (number : ℕ) (child : Option ℕ)
    (answer : Except AttemptError AttemptOutcome) :
    (afterAttempt socket number child answer).rank daemons <
      (Stage.attempt number child).rank daemons := by
  unfold afterAttempt
  split
  · simp only [Stage.rank]
    split_ifs <;> omega
  · split_ifs with zero
    · cases child <;> simp [Stage.rank, zero]
    · simp [Stage.rank, zero]
  · simp only [Stage.rank]
    split_ifs <;> omega

theorem rank_waitForReady_lt (running : Finset ℕ) (child polls : ℕ) :
    (waitForReady daemons running child polls).rank daemons <
      (Stage.ready child polls).rank daemons := by
  unfold waitForReady
  split_ifs
  · simp [Stage.rank]
  · cases polls <;> simp [Stage.rank]
  · simp [Stage.rank]

theorem rank_drive_lt (going : state.stage.rank daemons ≠ 0) (free : ¬state.Blocked) :
    (state.drive socket daemons request).stage.rank daemons < state.stage.rank daemons := by
  unfold CallState.drive
  split <;> rename_i stage
  · rw [stage]
    exact rank_afterAttempt_lt _ _ _
  · rw [if_neg fun runs => free ⟨_, stage, runs⟩]
    simp [stage, Stage.rank]
  · cases daemons.spawn <;> simp [stage, Stage.rank]
  · rw [stage]
    exact rank_waitForReady_lt _ _ _
  · simp [stage, Stage.rank] at going

theorem rank_drive_le :
    (state.drive socket daemons request).stage.rank daemons ≤ state.stage.rank daemons := by
  by_cases free : state.Blocked
  · rcases free with ⟨process, waits, runs⟩
    simp [CallState.drive, waits, runs]
  · by_cases going : state.stage.rank daemons = 0
    · cases stage : state.stage <;> simp_all [CallState.drive, Stage.rank]
      split_ifs at going
    · exact (rank_drive_lt going free).le

theorem returned_of_rank (ended : state.stage.rank daemons = 0) :
    ∃ answer, state.stage = .returned answer := by
  cases stage : state.stage with
  | returned answer => exact ⟨answer, rfl⟩
  | attempt number child =>
    simp only [stage, Stage.rank] at ended
    split_ifs at ended
  | _ => simp [stage, Stage.rank] at ended

variable {start : CallState} (run : FairRun)

/-- A driver that is not blocked for good returns. -/
theorem exists_returned (released : ∃ since, ∀ time, since ≤ time →
      ¬(start.after socket daemons request run.event time).Blocked) :
    ∃ time answer, (start.after socket daemons request run.event time).stage =
      .returned answer := by
  rcases released with ⟨since, free⟩
  have ends := @exists_eq_zero
    (fun time => (start.after socket daemons request run.event time).stage.rank daemons) ?_ ?_
  · rcases ends with ⟨time, ended⟩
    exact ⟨time, returned_of_rank ended⟩
  · intro time
    cases event : run.event time with
    | drive => simpa [CallState.after, CallState.step, event] using rank_drive_le
    | exit process => simp [CallState.after, CallState.step, event]
  · intro time
    rcases run.fair (max time since) with ⟨later, after, driven⟩
    refine ⟨later, (le_max_left _ _).trans after, fun going => ?_⟩
    simp only [CallState.after, driven, CallState.step]
    exact rank_drive_lt going (free later ((le_max_right _ _).trans after))

end Progress

section Account

variable (socket : String) (daemons : Daemons) (request : ActionRequest) (child : Option ℕ)

/-- The steps give what `submitWithRespawn` gives, with at most one process spawned. -/
def CallState.Accounts (state : CallState) : Prop :=
  match state.stage with
  | .attempt number held => (number = 0 ∧ held = child ∧ state.sent = [] ∧ state.spawned = 0) ∨
      (number = 1 ∧ daemons.first.Crashes ∧ state.spawned = 1 ∧
        state.sent = (runOneAttempt daemons.first request).1)
  | .wait process => child = some process ∧ daemons.first.Crashes ∧ state.spawned = 0 ∧
      state.sent = (runOneAttempt daemons.first request).1
  | .spawn => daemons.first.Crashes ∧ state.spawned = 0 ∧
      state.sent = (runOneAttempt daemons.first request).1
  | .ready _ _ => daemons.first.Crashes ∧ state.spawned = 1 ∧
      state.sent = (runOneAttempt daemons.first request).1
  | .returned answer => state.spawned ≤ 1 ∧ ∃ respawn, (state.sent, answer) =
      submitWithRespawn socket ⟨daemons.first, respawn, daemons.second⟩ request

variable {socket daemons request child} {state : CallState}

theorem accounts_attempt_zero (running : Finset ℕ) :
    (CallState.mk (afterAttempt socket 0 child (runOneAttempt daemons.first request).2) running
      (runOneAttempt daemons.first request).1 0).Accounts socket daemons request child := by
  by_cases crashes : daemons.first.Crashes
  · have crashed : (runOneAttempt daemons.first request).2 = .error .crashed :=
      runOneAttempt_crashed.mpr crashes
    cases child <;> simp [afterAttempt, crashed, CallState.Accounts, crashes]
  · have alive : submitWithRespawn socket ⟨daemons.first, none, daemons.second⟩ request =
        ((runOneAttempt daemons.first request).1,
          conclude socket 0 (runOneAttempt daemons.first request).2) :=
      submitWithRespawn_of_alive crashes
    unfold afterAttempt
    split <;> rename_i answered
    · exact ⟨Nat.zero_le 1, none, by simp [alive, conclude, answered]⟩
    · exact absurd (runOneAttempt_crashed.mp answered) crashes
    · exact ⟨Nat.zero_le 1, none, by simp [alive, conclude, answered]⟩

theorem accounts_attempt_one (crashes : daemons.first.Crashes) (held : Option ℕ)
    (running : Finset ℕ) :
    (CallState.mk (afterAttempt socket 1 held (runOneAttempt daemons.second request).2) running
      ((runOneAttempt daemons.first request).1 ++ (runOneAttempt daemons.second request).1)
      1).Accounts socket daemons request child := by
  have again : submitWithRespawn socket ⟨daemons.first, none, daemons.second⟩ request =
      ((runOneAttempt daemons.first request).1 ++ (runOneAttempt daemons.second request).1,
        conclude socket 1 (runOneAttempt daemons.second request).2) :=
    submitWithRespawn_of_respawned crashes rfl
  unfold afterAttempt
  split <;> rename_i answered <;>
    exact ⟨le_rfl, none, by simp [again, conclude, answered, AttemptError.surface]⟩

theorem accounts_launcher (crashes : daemons.first.Crashes) (running : Finset ℕ) {spawned : ℕ}
    (once : spawned ≤ 1) (error : String) :
    (CallState.mk (.returned (.error (.launcher error))) running
      (runOneAttempt daemons.first request).1 spawned).Accounts socket daemons request child := by
  have failed : submitWithRespawn socket ⟨daemons.first, some error, daemons.second⟩ request =
      ((runOneAttempt daemons.first request).1, .error (.launcher error)) :=
    submitWithRespawn_of_launcher crashes rfl
  exact ⟨once, some error, failed.symm⟩

theorem accounts_drive (accounts : state.Accounts socket daemons request child) :
    (state.drive socket daemons request).Accounts socket daemons request child := by
  rcases state with ⟨stage, running, sent, spawned⟩
  cases stage with
  | attempt number held =>
    rcases accounts with ⟨rfl, rfl, rfl, rfl⟩ | ⟨rfl, crashes, rfl, rfl⟩
    · exact accounts_attempt_zero running
    · exact accounts_attempt_one crashes held running
  | wait process =>
    rcases accounts with ⟨held, crashes, rfl, rfl⟩
    by_cases runs : process ∈ running
    · simp [CallState.drive, runs, CallState.Accounts, held, crashes]
    · simp [CallState.drive, runs, CallState.Accounts, crashes]
  | spawn =>
    rcases accounts with ⟨crashes, rfl, rfl⟩
    cases spawn : daemons.spawn with
    | error error =>
      simpa [CallState.drive, spawn] using accounts_launcher crashes running zero_le_one error
    | ok process => simp [CallState.drive, spawn, CallState.Accounts, crashes]
  | ready process polls =>
    rcases accounts with ⟨crashes, rfl, rfl⟩
    simp only [CallState.drive, waitForReady]
    split_ifs
    · exact .inr ⟨rfl, crashes, rfl, rfl⟩
    · cases polls with
      | zero => exact accounts_launcher crashes running le_rfl _
      | succ polls => exact ⟨crashes, rfl, rfl⟩
    · exact accounts_launcher crashes running le_rfl _
  | returned answer => exact accounts

theorem CallState.Accounts.waiting {process : ℕ}
    (accounts : state.Accounts socket daemons request child) (waits : state.stage = .wait process) :
    child = some process ∧ daemons.first.Crashes ∧ state.spawned = 0 := by
  simp only [CallState.Accounts, waits] at accounts
  exact ⟨accounts.1, accounts.2.1, accounts.2.2.1⟩

theorem CallState.Accounts.returned {answer : Except RespawnError RespawnOutcome}
    (accounts : state.Accounts socket daemons request child)
    (ended : state.stage = .returned answer) :
    state.spawned ≤ 1 ∧ ∃ respawn, (state.sent, answer) =
      submitWithRespawn socket ⟨daemons.first, respawn, daemons.second⟩ request := by
  simpa only [CallState.Accounts, ended] using accounts

theorem accounts_after (running : Finset ℕ) (event : ℕ → CallEvent) (time : ℕ) :
    ((CallState.start child running).after socket daemons request event time).Accounts socket
      daemons request child := by
  induction time with
  | zero => exact .inl ⟨rfl, rfl, rfl, rfl⟩
  | succ time ih =>
    cases happened : event time with
    | drive => simpa [CallState.after, CallState.step, happened] using accounts_drive ih
    | exit process => simpa [CallState.after, CallState.step, happened, CallState.Accounts] using ih

end Account

section Child

variable {socket : String} {daemons : Daemons} {request : ActionRequest} {running : Finset ℕ}
  {event : ℕ → CallEvent}

/-- A child that runs on keeps the driver where it is. -/
theorem waits_of_running {process : ℕ} (crashes : daemons.first.Crashes)
    (runs : process ∈ running) (stays : ∀ time, event time ≠ .exit process) (time : ℕ) :
    process ∈ ((CallState.start (some process) running).after socket daemons request event
        time).running ∧
      (((CallState.start (some process) running).after socket daemons request event time).stage =
          .attempt 0 (some process) ∨
        ((CallState.start (some process) running).after socket daemons request event time).stage =
          .wait process) := by
  have crashed : (runOneAttempt daemons.first request).2 = .error .crashed :=
    runOneAttempt_crashed.mpr crashes
  induction time with
  | zero => exact ⟨runs, .inl rfl⟩
  | succ time ih =>
    rcases ih with ⟨still, stands⟩
    cases happened : event time with
    | drive =>
      rcases stands with stage | stage <;>
        simp [CallState.after, CallState.step, happened, CallState.drive, stage, crashed,
          afterAttempt, still]
    | exit other =>
      have differs : process ≠ other := by
        rintro rfl
        exact stays time happened
      simpa [CallState.after, CallState.step, happened, differs, still] using stands

theorem not_returned_of_running {process : ℕ} (crashes : daemons.first.Crashes)
    (runs : process ∈ running) (stays : ∀ time, event time ≠ .exit process) (time : ℕ)
    (answer : Except RespawnError RespawnOutcome) :
    ((CallState.start (some process) running).after socket daemons request event time).stage ≠
      .returned answer := by
  intro returned
  have stands := (@waits_of_running socket daemons request running event process crashes runs
    stays time).2
  rw [returned] at stands
  simp at stands

/-- The child has exited; a process of the same number can only be the one spawned after it. -/
def CallState.Freed (process : ℕ) (state : CallState) : Prop :=
  process ∉ state.running ∨ 0 < state.spawned

variable {process : ℕ} {state : CallState}

theorem freed_step (freed : state.Freed process) (happens : CallEvent) :
    (state.step socket daemons request happens).Freed process := by
  cases happens with
  | exit other =>
    exact freed.imp_left fun gone runs => gone (Finset.mem_of_mem_erase runs)
  | drive =>
    simp only [CallState.step, CallState.drive]
    split
    · exact freed
    · split_ifs <;> exact freed
    · split
      · exact freed
      · exact .inr (Nat.succ_pos _)
    · exact freed
    · exact freed

theorem freed_after {start : CallState} {since time : ℕ} (later : since ≤ time)
    (freed : (start.after socket daemons request event since).Freed process) :
    (start.after socket daemons request event time).Freed process := by
  induction time, later using Nat.le_induction with
  | base => exact freed
  | succ time _ ih => exact freed_step ih _

theorem exists_freed (exits : process ∈ running → ∃ time, event time = .exit process)
    (child : Option ℕ) : ∃ since, ((CallState.start child running).after socket daemons request
      event since).Freed process := by
  by_cases runs : process ∈ running
  · rcases exits runs with ⟨time, exited⟩
    refine ⟨time + 1, .inl ?_⟩
    simp [CallState.after, CallState.step, exited]
  · exact ⟨0, .inl runs⟩

theorem exists_released {child : Option ℕ} (exits : daemons.first.Crashes → ∀ process ∈ child,
      process ∈ running → ∃ time, event time = .exit process) :
    ∃ since, ∀ time, since ≤ time →
      ¬((CallState.start child running).after socket daemons request event time).Blocked := by
  have account := @accounts_after socket daemons request child running event
  by_cases waits : daemons.first.Crashes ∧ child.isSome
  · rcases Option.isSome_iff_exists.mp waits.2 with ⟨process, held⟩
    rcases @exists_freed socket daemons request running event process
      (exits waits.1 process held) child with ⟨since, freed⟩
    refine ⟨since, fun time later => ?_⟩
    rintro ⟨other, stage, runs⟩
    rcases (account time).waiting stage with ⟨same, -, none⟩
    rcases freed_after later freed with gone | spawned
    · rw [held, Option.some.injEq] at same
      exact gone (same ▸ runs)
    · exact spawned.ne' none
  · refine ⟨0, fun time _ => ?_⟩
    rintro ⟨other, stage, -⟩
    rcases (account time).waiting stage with ⟨held, crashes, -⟩
    exact waits ⟨crashes, by simp [held]⟩

end Child

/-- Whatever the daemons do, the call returns after at most one respawn and two submissions,
unless it waits for a child which never exits. -/
theorem submit_returns_iff (socket : String) (daemons : Daemons) (request : ActionRequest)
    (child : Option ℕ) (running : Finset ℕ) (run : FairRun) :
    (∃ time answer,
      let last := (CallState.start child running).after socket daemons request run.event time
      last.stage = .returned answer ∧ last.spawned ≤ 1 ∧ last.sent.length ≤ 2 ∧
        (∀ outcome, answer = .ok outcome → outcome.respawns ≤ 1) ∧
        ∃ respawn, (last.sent, answer) =
          submitWithRespawn socket ⟨daemons.first, respawn, daemons.second⟩ request) ↔
      (daemons.first.Crashes → ∀ process ∈ child, process ∈ running →
        ∃ time, run.event time = .exit process) := by
  constructor
  · rintro ⟨time, answer, returned, -⟩ crashes process held runs
    by_contra stays
    rw [Option.mem_def] at held
    subst held
    exact not_returned_of_running crashes runs (not_exists.mp stays) time answer returned
  · intro exits
    rcases @exists_returned daemons socket request _ run (exists_released exits) with
      ⟨time, answer, returned⟩
    rcases (accounts_after running run.event time).returned returned with ⟨once, respawn, same⟩
    have bounded := submitWithRespawn_bounded socket ⟨daemons.first, respawn, daemons.second⟩
      request
    rw [← same] at bounded
    exact ⟨time, answer, returned, once, bounded.1, bounded.2, respawn, same⟩

/-- `handleConnection` closes the connection of a daemon which runs on. -/
def hangingUp : Daemons where
  first := .submitted [] (.error Ipc.daemonCrashedCode "")
  second := .submitted [] .closed
  spawn := .ok 2
  polls := 200
  live := fun _ => true
  crashedAtStartup := ""
  spawnTimeout := ""

/-- The driver always has the next turn, and the call never returns. -/
theorem submit_blocks : ¬∃ time answer, ((CallState.start (some 1) {1}).after "barback.sock"
    hangingUp ⟨"verify", "/app", "/app/pom.xml", "/app", [], [], 1, 2, "4", none⟩
    (fun _ => .drive) time).stage = .returned answer := by
  rintro ⟨time, answer, returned⟩
  have crashes : hangingUp.first.Crashes := rfl
  exact not_returned_of_running crashes (Finset.mem_singleton_self 1) (by simp) time answer
    returned

end Barista.Daemon
