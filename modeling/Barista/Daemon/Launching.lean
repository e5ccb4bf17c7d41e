import Barista.Automaton

/-!
# Launching the daemon

Calls discover a daemon or respawn one over a socket, a lock file and a PID file, with kills and
crashes at any step.
-/

namespace Barista.Daemon.Launch

inductive Kind where
  | discover
  | respawn
deriving DecidableEq

inductive Pid (ι : Type) where
  | crashed (number : ℕ)
  | child (call : ι)
deriving DecidableEq

inductive Phase (ι : Type) where
  | idle
  | probing
  | reading
  | killing (pid : Option (Pid ι))
  | unlinking
  | spawning
  | recording
  | waiting
  | checking
  | returned
  | failed
deriving DecidableEq

inductive Process where
  | unborn
  | starting
  | binding
  | narrowing
  | running
  | dead
deriving DecidableEq

namespace Process

def isAlive : Process → Bool
  | unborn => false
  | dead => false
  | _ => true

def isListening : Process → Bool
  | narrowing => true
  | running => true
  | _ => false

end Process

inductive Harm (ι : Type) where
  | kills (call victim : ι)
  | unlinks (call victim : ι)
deriving DecidableEq

def Harm.call {ι : Type} : Harm ι → ι
  | kills call _ => call
  | unlinks call _ => call

def Harm.victim {ι : Type} : Harm ι → ι
  | kills _ victim => victim
  | unlinks _ victim => victim

structure Directory (ι : Type) where
  /-- The process that has bound the socket at the path. -/
  socket : Option (Pid ι)
  pidFile : Option (Pid ι)
  calls : ι → Phase ι
  daemons : ι → Process
  harms : List (Harm ι)

inductive Act (ι : Type) where
  | call (call : ι)
  | daemon (call : ι)
deriving DecidableEq

namespace Directory

variable {ι : Type} [DecidableEq ι] (kinds : ι → Kind) (directory : Directory ι) (call : ι)

def enter (phase : Phase ι) : Directory ι :=
  { directory with calls := Function.update directory.calls call phase }

def become (process : Process) : Directory ι :=
  { directory with daemons := Function.update directory.daemons call process }

def isLive : Bool :=
  match directory.socket with
  | some (.child call) => (directory.daemons call).isListening
  | _ => false

def kill : Option (Pid ι) → Directory ι
  | some (.child victim) =>
    if (directory.daemons victim).isAlive then
      { directory.become victim .dead with harms := .kills call victim :: directory.harms }
    else directory
  | _ => directory

def unlink : Directory ι :=
  match directory.socket with
  | some (.child victim) =>
    if (directory.daemons victim).isAlive then
      { directory with socket := none, harms := .unlinks call victim :: directory.harms }
    else { directory with socket := none }
  | _ => { directory with socket := none }

def proceed : Directory ι :=
  match directory.calls call with
  | .idle =>
    directory.enter call (if kinds call = .discover then .probing else .unlinking)
  | .probing => directory.enter call (if directory.isLive then .returned else .reading)
  | .reading => directory.enter call (.killing directory.pidFile)
  | .killing pid => (directory.kill call pid).enter call .unlinking
  | .unlinking => (directory.unlink call).enter call .spawning
  | .spawning =>
    (directory.become call .starting).enter call
      (if kinds call = .discover then .recording else .waiting)
  | .recording => { directory with pidFile := some (.child call) }.enter call .waiting
  | .waiting => directory.enter call (if directory.isLive then .returned else .checking)
  | .checking =>
    directory.enter call (if directory.daemons call = .dead then .failed else .waiting)
  | .returned => directory
  | .failed => directory

def boot : Directory ι :=
  match directory.daemons call with
  | .starting => (directory.unlink call).become call .binding
  | .binding =>
    if directory.socket.isSome then directory.become call .dead
    else { directory with socket := some (.child call) }.become call .narrowing
  | .narrowing => directory.become call (if directory.socket.isSome then .running else .dead)
  | _ => directory

def step : Act ι → Option (Directory ι)
  | .call call => some (directory.proceed kinds call)
  | .daemon call => some (directory.boot call)

def start (socket pidFile : Option ℕ) : Directory ι where
  socket := socket.map .crashed
  pidFile := pidFile.map .crashed
  calls _ := .idle
  daemons _ := .unborn
  harms := []

end Directory

open Function

variable {ι : Type}

namespace Phase

def isClearing : Phase ι → Bool
  | reading => true
  | killing _ => true
  | unlinking => true
  | spawning => true
  | _ => false

def isAwaiting : Phase ι → Bool
  | recording => true
  | waiting => true
  | checking => true
  | _ => false

def isLaunching (phase : Phase ι) : Bool := phase.isClearing || phase.isAwaiting

end Phase

namespace Directory

variable [DecidableEq ι] (kinds : ι → Kind) (directory : Directory ι)

def Alone (call : ι) : Prop :=
  ∀ other, other ≠ call → (directory.calls other).isLaunching = false

def Considerate : Act ι → Prop
  | .call call =>
    (directory.calls call = .probing → directory.isLive = false → directory.Alone call) ∧
      (directory.calls call = .idle → kinds call = .respawn →
        directory.Alone call ∧ ∀ other, (directory.daemons other).isAlive = false)
  | .daemon _ => True

instance decidableConsiderate [Fintype ι] (kinds : ι → Kind) (directory : Directory ι) :
    (act : Act ι) → Decidable (directory.Considerate kinds act)
  | .call call => inferInstanceAs (Decidable
      ((directory.calls call = .probing → directory.isLive = false →
          ∀ other, other ≠ call → (directory.calls other).isLaunching = false) ∧
        (directory.calls call = .idle → kinds call = .respawn →
          (∀ other, other ≠ call → (directory.calls other).isLaunching = false) ∧
            ∀ other, (directory.daemons other).isAlive = false)))
  | .daemon _ => inferInstanceAs (Decidable True)

structure Quiet : Prop where
  calls : ∀ call, (directory.calls call).isLaunching = false
  owner : ∀ daemon, (directory.daemons daemon).isAlive = true →
    (directory.daemons daemon).isListening = true ∧ directory.socket = some (.child daemon)

structure Clearing (call : ι) : Prop where
  clearing : (directory.calls call).isClearing = true
  alone : directory.Alone call
  nobody : ∀ daemon, (directory.daemons daemon).isAlive = false
  unlinked : directory.calls call = .spawning → directory.socket = none

structure Awaiting (call : ι) : Prop where
  awaiting : (directory.calls call).isAwaiting = true
  alone : directory.Alone call
  alive : (directory.daemons call).isAlive = true
  only : ∀ daemon, (directory.daemons daemon).isAlive = true → daemon = call
  socket : directory.socket =
    if (directory.daemons call).isListening then some (.child call) else none

inductive Situation : Prop
  | quiet (quiet : directory.Quiet)
  | clearing (call : ι) (clearing : directory.Clearing call)
  | awaiting (call : ι) (awaiting : directory.Awaiting call)

structure Orderly : Prop where
  situation : directory.Situation
  harmless : directory.harms = []
  succeeds : ∀ call, directory.calls call ≠ .failed

variable {kinds} {dir directory' : Directory ι} {call other : ι} {phase : Phase ι}

@[simp]
theorem calls_enter_self : (dir.enter call phase).calls call = phase := update_self _ _ _

theorem calls_enter_of_ne (ne : other ≠ call) :
    (dir.enter call phase).calls other = dir.calls other :=
  update_of_ne ne _ _

theorem Alone.enter (alone : dir.Alone call) : (dir.enter call phase).Alone call := by
  intro other ne
  rw [calls_enter_of_ne ne]
  exact alone other ne

theorem Alone.enter_other (alone : dir.Alone call) (rests : phase.isLaunching = false) :
    (dir.enter other phase).Alone call := by
  intro third ne
  by_cases same : third = other
  · subst same
    rw [calls_enter_self, rests]
  · rw [calls_enter_of_ne same]
    exact alone third ne

theorem Quiet.enter (quiet : dir.Quiet) (rests : phase.isLaunching = false) :
    (dir.enter call phase).Quiet := by
  refine ⟨?_, quiet.owner⟩
  intro other
  by_cases same : other = call
  · subst same
    rw [calls_enter_self, rests]
  · rw [calls_enter_of_ne same]
    exact quiet.calls other

theorem Clearing.enter_other (clearing : dir.Clearing call) (ne : other ≠ call)
    (rests : phase.isLaunching = false) : (dir.enter other phase).Clearing call where
  clearing := by
    rw [calls_enter_of_ne ne.symm]
    exact clearing.clearing
  alone := clearing.alone.enter_other rests
  nobody := clearing.nobody
  unlinked := by
    rw [calls_enter_of_ne ne.symm]
    exact clearing.unlinked

theorem Awaiting.enter_other (awaiting : dir.Awaiting call) (ne : other ≠ call)
    (rests : phase.isLaunching = false) : (dir.enter other phase).Awaiting call where
  awaiting := by
    rw [calls_enter_of_ne ne.symm]
    exact awaiting.awaiting
  alone := awaiting.alone.enter_other rests
  alive := awaiting.alive
  only := awaiting.only
  socket := awaiting.socket

theorem Situation.enter (situation : dir.Situation)
    (rested : (dir.calls call).isLaunching = false) (rests : phase.isLaunching = false) :
    (dir.enter call phase).Situation := by
  cases situation with
  | quiet quiet => exact .quiet (quiet.enter rests)
  | clearing launcher clearing =>
    refine .clearing launcher (clearing.enter_other ?_ rests)
    rintro rfl
    simp [Phase.isLaunching, clearing.clearing] at rested
  | awaiting launcher awaiting =>
    refine .awaiting launcher (awaiting.enter_other ?_ rests)
    rintro rfl
    simp [Phase.isLaunching, awaiting.awaiting] at rested

omit [DecidableEq ι] in
theorem Quiet.nobody_of_not_live (quiet : dir.Quiet) (silent : dir.isLive = false)
    (daemon : ι) : (dir.daemons daemon).isAlive = false := by
  by_contra alive
  rcases quiet.owner daemon (by simpa using alive) with ⟨listening, owns⟩
  simp [isLive, owns, listening] at silent

omit [DecidableEq ι] in
theorem Awaiting.isLive_eq (awaiting : dir.Awaiting call) :
    dir.isLive = (dir.daemons call).isListening := by
  rw [isLive, awaiting.socket]
  by_cases listening : (dir.daemons call).isListening = true
  · simp [listening]
  · simp [listening]

theorem Situation.of_launching (situation : dir.Situation)
    (launches : (dir.calls call).isLaunching = true) : dir.Clearing call ∨ dir.Awaiting call := by
  cases situation with
  | quiet quiet => simp [quiet.calls call] at launches
  | clearing launcher clearing =>
    by_cases same : call = launcher
    · subst same
      exact .inl clearing
    · simp [clearing.alone call same] at launches
  | awaiting launcher awaiting =>
    by_cases same : call = launcher
    · subst same
      exact .inr awaiting
    · simp [awaiting.alone call same] at launches

theorem Situation.clearing_of (situation : dir.Situation)
    (here : dir.calls call = phase) (clears : phase.isClearing = true) : dir.Clearing call := by
  subst here
  refine (situation.of_launching (by simp [Phase.isLaunching, clears])).resolve_right ?_
  intro awaiting
  have awaits := awaiting.awaiting
  cases here : dir.calls call <;> simp_all [Phase.isClearing, Phase.isAwaiting]

theorem Situation.awaiting_of (situation : dir.Situation)
    (here : dir.calls call = phase) (awaits : phase.isAwaiting = true) : dir.Awaiting call := by
  subst here
  refine (situation.of_launching (by simp [Phase.isLaunching, awaits])).resolve_left ?_
  intro clearing
  have clears := clearing.clearing
  cases here : dir.calls call <;> simp_all [Phase.isClearing, Phase.isAwaiting]

theorem Situation.nobody_of_alone (situation : dir.Situation)
    (rested : (dir.calls call).isLaunching = false) (alone : dir.Alone call)
    (silent : dir.isLive = false) (daemon : ι) : (dir.daemons daemon).isAlive = false := by
  cases situation with
  | quiet quiet => exact quiet.nobody_of_not_live silent daemon
  | clearing launcher clearing => exact clearing.nobody daemon
  | awaiting launcher awaiting =>
    have launches : (dir.calls launcher).isLaunching = true := by
      simp [Phase.isLaunching, awaiting.awaiting]
    by_cases same : launcher = call
    · subst same
      simp [rested] at launches
    · simp [alone launcher same] at launches

theorem kill_of_nobody (nobody : ∀ daemon, (dir.daemons daemon).isAlive = false)
    (pid : Option (Pid ι)) : dir.kill call pid = dir := by
  rcases pid with _ | _ | victim <;> simp [kill, nobody]

omit [DecidableEq ι] in
theorem unlink_of_nobody (nobody : ∀ daemon, (dir.daemons daemon).isAlive = false) :
    dir.unlink call = { dir with socket := none } := by
  rw [unlink]
  split
  · simp [nobody]
  · rfl

theorem Orderly.enter (ord : dir.Orderly)
    (situation : (directory'.enter call phase).Situation) (goes : phase ≠ .failed)
    (calls : directory'.calls = dir.calls) (harms : directory'.harms = dir.harms) :
    (directory'.enter call phase).Orderly := by
  refine ⟨situation, harms.trans ord.harmless, ?_⟩
  intro other
  by_cases same : other = call
  · subst same
    rwa [calls_enter_self]
  · rw [calls_enter_of_ne same, calls]
    exact ord.succeeds other

theorem Clearing.begin (alone : dir.Alone call)
    (nobody : ∀ daemon, (dir.daemons daemon).isAlive = false)
    (clears : phase.isClearing = true) (early : phase ≠ .spawning) :
    (dir.enter call phase).Clearing call where
  clearing := by rwa [calls_enter_self]
  alone := alone.enter
  nobody := nobody
  unlinked spawns := absurd (calls_enter_self.symm.trans spawns) early

theorem Clearing.unlink (clearing : dir.Clearing call) :
    (enter { dir with socket := none } call .spawning).Clearing call where
  clearing := by
    rw [calls_enter_self]
    rfl
  alone := Alone.enter clearing.alone
  nobody := clearing.nobody
  unlinked _ := rfl

theorem Clearing.spawn (clearing : dir.Clearing call)
    (here : dir.calls call = .spawning) (awaits : phase.isAwaiting = true) :
    ((dir.become call .starting).enter call phase).Awaiting call where
  awaiting := by rwa [calls_enter_self]
  alone := Alone.enter clearing.alone
  alive := by simp [Directory.enter, become, Process.isAlive]
  only daemon alive := by
    by_contra ne
    simp [Directory.enter, become, ne, clearing.nobody daemon] at alive
  socket := by simp [Directory.enter, become, Process.isListening, clearing.unlinked here]

theorem Awaiting.enter (awaiting : dir.Awaiting call)
    (awaits : phase.isAwaiting = true) (pidFile : Option (Pid ι)) :
    (Directory.enter { dir with pidFile := pidFile } call phase).Awaiting call where
  awaiting := by rwa [calls_enter_self]
  alone := Alone.enter awaiting.alone
  alive := awaiting.alive
  only := awaiting.only
  socket := awaiting.socket

theorem Awaiting.finish (awaiting : dir.Awaiting call) (live : dir.isLive = true) :
    (dir.enter call .returned).Quiet := by
  have listening : (dir.daemons call).isListening = true := awaiting.isLive_eq ▸ live
  refine ⟨?_, ?_⟩
  · intro other
    by_cases same : other = call
    · subst same
      rw [calls_enter_self]
      rfl
    · rw [calls_enter_of_ne same]
      exact awaiting.alone other same
  · intro daemon alive
    have same := awaiting.only daemon alive
    subst same
    have owns : dir.socket = some (.child daemon) := by
      simpa [listening] using awaiting.socket
    exact ⟨listening, owns⟩

theorem Orderly.proceed (ord : dir.Orderly) (considerate : dir.Considerate kinds (.call call)) :
    (dir.proceed kinds call).Orderly := by
  have situation := ord.situation
  unfold Directory.proceed
  cases here : dir.calls call with
  | idle =>
    have rested : (dir.calls call).isLaunching = false := by rw [here]; rfl
    dsimp only
    split_ifs with discovers
    · exact ord.enter (situation.enter rested rfl) (by simp) rfl rfl
    · have respawns : kinds call = .respawn := by
        cases kind : kinds call <;> simp_all
      rcases considerate.2 here respawns with ⟨alone, nobody⟩
      exact ord.enter (.clearing call (.begin alone nobody rfl (by simp))) (by simp) rfl rfl
  | probing =>
    have rested : (dir.calls call).isLaunching = false := by rw [here]; rfl
    dsimp only
    split_ifs with live
    · exact ord.enter (situation.enter rested rfl) (by simp) rfl rfl
    · have silent : dir.isLive = false := by simpa using live
      have alone := considerate.1 here silent
      have nobody := situation.nobody_of_alone rested alone silent
      exact ord.enter (.clearing call (.begin alone nobody rfl (by simp))) (by simp) rfl rfl
  | reading =>
    have clearing := situation.clearing_of here rfl
    exact ord.enter (.clearing call (.begin clearing.alone clearing.nobody rfl (by simp)))
      (by simp) rfl rfl
  | killing pid =>
    have clearing := situation.clearing_of here rfl
    simp only [kill_of_nobody clearing.nobody]
    exact ord.enter (.clearing call (.begin clearing.alone clearing.nobody rfl (by simp)))
      (by simp) rfl rfl
  | unlinking =>
    have clearing := situation.clearing_of here rfl
    simp only [unlink_of_nobody clearing.nobody]
    exact ord.enter (.clearing call clearing.unlink) (by simp) rfl rfl
  | spawning =>
    have clearing := situation.clearing_of here rfl
    dsimp only
    split_ifs
    · exact ord.enter (.awaiting call (clearing.spawn here rfl)) (by simp) rfl rfl
    · exact ord.enter (.awaiting call (clearing.spawn here rfl)) (by simp) rfl rfl
  | recording =>
    have awaiting := situation.awaiting_of here rfl
    exact ord.enter (.awaiting call (awaiting.enter rfl _)) (by simp) rfl rfl
  | waiting =>
    have awaiting := situation.awaiting_of here rfl
    dsimp only
    split_ifs with live
    · exact ord.enter (.quiet (awaiting.finish live)) (by simp) rfl rfl
    · exact ord.enter (.awaiting call (awaiting.enter rfl _)) (by simp) rfl rfl
  | checking =>
    have awaiting := situation.awaiting_of here rfl
    have living : dir.daemons call ≠ .dead := by
      intro dead
      simpa [dead, Process.isAlive] using awaiting.alive
    simp only [living, if_false]
    exact ord.enter (.awaiting call (awaiting.enter rfl _)) (by simp) rfl rfl
  | returned => exact ord
  | failed => exact absurd here (ord.succeeds call)

theorem Awaiting.become {proc : Process} {socket : Option (Pid ι)}
    (awaiting : dir.Awaiting call) (alive : proc.isAlive = true)
    (owns : socket = if proc.isListening then some (.child call) else none) :
    (Directory.become { dir with socket := socket } call proc).Awaiting call where
  awaiting := awaiting.awaiting
  alone := awaiting.alone
  alive := by simpa [Directory.become] using alive
  only daemon lives := by
    by_contra ne
    simp only [Directory.become, update_of_ne ne] at lives
    exact ne (awaiting.only daemon lives)
  socket := by simpa [Directory.become] using owns

omit [DecidableEq ι] in
theorem Orderly.of_situation (ord : dir.Orderly) (situation : directory'.Situation)
    (harms : directory'.harms = dir.harms) (calls : directory'.calls = dir.calls) :
    directory'.Orderly :=
  ⟨situation, harms.trans ord.harmless, fun call => by
    rw [calls]
    exact ord.succeeds call⟩

omit [DecidableEq ι] in
theorem Situation.of_alive (situation : dir.Situation) (alive : (dir.daemons call).isAlive = true) :
    dir.Quiet ∨ dir.Awaiting call := by
  cases situation with
  | quiet quiet => exact .inl quiet
  | clearing launcher clearing => simp [clearing.nobody call] at alive
  | awaiting launcher awaiting =>
    have same := awaiting.only call alive
    subst same
    exact .inr awaiting

omit [DecidableEq ι] in
theorem Situation.of_booting {proc : Process} (situation : dir.Situation)
    (here : dir.daemons call = proc) (alive : proc.isAlive = true)
    (silent : proc.isListening = false) : dir.Awaiting call ∧ dir.socket = none := by
  subst here
  rcases situation.of_alive alive with quiet | awaiting
  · simp [(quiet.owner call alive).1] at silent
  · exact ⟨awaiting, by simpa [silent] using awaiting.socket⟩

theorem Quiet.run (quiet : dir.Quiet) (here : dir.daemons call = .narrowing) :
    (dir.become call .running).Quiet := by
  refine ⟨quiet.calls, ?_⟩
  intro daemon alive
  by_cases same : daemon = call
  · subst same
    have owner := quiet.owner daemon (by rw [here]; rfl)
    exact ⟨by simp [become, Process.isListening], owner.2⟩
  · simp only [become, update_of_ne same] at alive ⊢
    exact quiet.owner daemon alive

theorem Orderly.boot (ord : dir.Orderly) : (dir.boot call).Orderly := by
  have situation := ord.situation
  cases here : dir.daemons call with
  | starting =>
    have booting := situation.of_booting here rfl rfl
    simp only [Directory.boot, here, unlink, booting.2]
    exact ord.of_situation (.awaiting call (booting.1.become rfl rfl)) rfl rfl
  | binding =>
    have booting := situation.of_booting here rfl rfl
    simp only [Directory.boot, here, booting.2, Option.isSome_none, Bool.false_eq_true, if_false]
    exact ord.of_situation (.awaiting call (booting.1.become rfl rfl)) rfl rfl
  | narrowing =>
    have alive : (dir.daemons call).isAlive = true := by rw [here]; rfl
    rcases situation.of_alive alive with quiet | awaiting
    · have owner := quiet.owner call alive
      simp only [Directory.boot, here, owner.2, Option.isSome_some, if_true]
      exact ord.of_situation (.quiet (quiet.run here)) rfl rfl
    · have owns : dir.socket = some (.child call) := by
        simpa [here, Process.isListening] using awaiting.socket
      simp only [Directory.boot, here, owns, Option.isSome_some, if_true]
      exact ord.of_situation (.awaiting call (awaiting.become rfl owns)) rfl rfl
  | unborn | running | dead => simpa only [Directory.boot, here] using ord

theorem Orderly.step (ord : dir.Orderly) {act : Act ι} (considerate : dir.Considerate kinds act)
    (taken : dir.step kinds act = some directory') : directory'.Orderly := by
  cases act with
  | call call =>
    cases taken
    exact ord.proceed considerate
  | daemon call =>
    cases taken
    exact ord.boot

omit [DecidableEq ι] in
theorem orderly_start (socket pidFile : Option ℕ) :
    (start socket pidFile : Directory ι).Orderly where
  situation := .quiet ⟨fun _ => rfl, fun _ alive => by simp [start, Process.isAlive] at alive⟩
  harmless := rfl
  succeeds := by simp [start]

open Automaton

structure Leads (kinds : ι → Kind) (call : ι) (before after : Directory ι) : Prop where
  reaches : Reaches (step kinds) (Considerate kinds) before after
  others : ∀ other, other ≠ call → after.calls other = before.calls other

def Finishes (kinds : ι → Kind) (call : ι) (directory : Directory ι) : Prop :=
  ∃ after, Leads kinds call directory after ∧ after.Orderly ∧ after.calls call = .returned

omit [DecidableEq ι] in
theorem calls_unlink : (dir.unlink call).calls = dir.calls := by
  rw [unlink]
  split
  · split_ifs <;> rfl
  · rfl

theorem calls_kill (pid : Option (Pid ι)) : (dir.kill call pid).calls = dir.calls := by
  rcases pid with _ | _ | victim <;> simp only [kill]
  split_ifs <;> rfl

theorem calls_proceed_of_ne (ne : other ≠ call) :
    (dir.proceed kinds call).calls other = dir.calls other := by
  cases here : dir.calls call <;>
    simp [proceed, here, calls_enter_of_ne ne, calls_unlink, calls_kill, become]

theorem calls_boot : (dir.boot call).calls = dir.calls := by
  cases here : dir.daemons call <;> simp only [boot, here, become, calls_unlink]
  split_ifs <;> rfl

theorem Finishes.of_proceed (ord : dir.Orderly) (considerate : dir.Considerate kinds (.call call))
    (finishes : (dir.proceed kinds call).Orderly →
      Finishes kinds call (dir.proceed kinds call)) : Finishes kinds call dir := by
  rcases finishes (ord.proceed considerate) with ⟨post, leads, rest⟩
  refine ⟨post, ⟨?_, ?_⟩, rest⟩
  · exact (Reaches.refl.step (.call call) considerate rfl).trans leads.reaches
  · intro other ne
    rw [leads.others other ne, calls_proceed_of_ne ne]

theorem Finishes.of_boot (ord : dir.Orderly)
    (finishes : (dir.boot call).Orderly → Finishes kinds call (dir.boot call)) :
    Finishes kinds call dir := by
  rcases finishes ord.boot with ⟨post, leads, rest⟩
  refine ⟨post, ⟨?_, ?_⟩, rest⟩
  · exact (Reaches.refl.step (.daemon call) trivial rfl).trans leads.reaches
  · intro other ne
    rw [leads.others other ne, calls_boot]

theorem Finishes.of_launching (ord : dir.Orderly) (here : dir.calls call = phase)
    (launches : phase.isLaunching = true) (finishes : (dir.proceed kinds call).Orderly →
      Finishes kinds call (dir.proceed kinds call)) : Finishes kinds call dir := by
  subst here
  refine .of_proceed ord ⟨?_, ?_⟩ finishes <;> intro here <;>
    simp [here, Phase.isLaunching, Phase.isClearing, Phase.isAwaiting] at launches

section Finishes

variable (ord : dir.Orderly)

include ord

theorem finishes_returned (here : dir.calls call = .returned) : Finishes kinds call dir :=
  ⟨dir, ⟨.refl, fun _ _ => rfl⟩, ord, here⟩

section Waiting

variable (here : dir.calls call = .waiting)

include here

theorem finishes_live (live : dir.isLive = true) : Finishes kinds call dir := by
  apply Finishes.of_launching ord here rfl
  intro next
  exact finishes_returned next (by simp [proceed, here, live])

theorem finishes_listening (listening : (dir.daemons call).isListening = true) :
    Finishes kinds call dir := by
  have awaiting := ord.situation.awaiting_of here rfl
  exact finishes_live ord here (awaiting.isLive_eq.trans listening)

theorem finishes_binding (binding : dir.daemons call = .binding) : Finishes kinds call dir := by
  have booting := ord.situation.of_booting binding rfl rfl
  apply Finishes.of_boot ord
  intro next
  apply finishes_listening next (by rw [calls_boot]; exact here)
  simp [boot, binding, booting.2, become, Process.isListening]

theorem finishes_waiting : Finishes kinds call dir := by
  have awaiting := ord.situation.awaiting_of here rfl
  have alive := awaiting.alive
  cases proc : dir.daemons call with
  | unborn => simp [proc, Process.isAlive] at alive
  | starting =>
    apply Finishes.of_boot ord
    intro next
    exact finishes_binding next (by rw [calls_boot]; exact here) (by simp [boot, proc, become])
  | binding => exact finishes_binding ord here proc
  | narrowing | running => exact finishes_listening ord here (by rw [proc]; rfl)
  | dead => simp [proc, Process.isAlive] at alive

end Waiting

theorem finishes_recording (here : dir.calls call = .recording) : Finishes kinds call dir := by
  apply Finishes.of_launching ord here rfl
  intro next
  exact finishes_waiting next (by simp [proceed, here])

theorem finishes_checking (here : dir.calls call = .checking) : Finishes kinds call dir := by
  have awaiting := ord.situation.awaiting_of here rfl
  have living : dir.daemons call ≠ .dead := by
    intro dead
    simpa [dead, Process.isAlive] using awaiting.alive
  apply Finishes.of_launching ord here rfl
  intro next
  exact finishes_waiting next (by simp [proceed, here, living])

theorem finishes_spawning (here : dir.calls call = .spawning) : Finishes kinds call dir := by
  apply Finishes.of_launching ord here rfl
  intro next
  by_cases discovers : kinds call = .discover
  · exact finishes_recording next (by simp [proceed, here, discovers])
  · exact finishes_waiting next (by simp [proceed, here, discovers])

theorem finishes_unlinking (here : dir.calls call = .unlinking) : Finishes kinds call dir := by
  apply Finishes.of_launching ord here rfl
  intro next
  exact finishes_spawning next (by simp [proceed, here])

theorem finishes_killing {pid : Option (Pid ι)}
    (here : dir.calls call = .killing pid) : Finishes kinds call dir := by
  apply Finishes.of_launching ord here rfl
  intro next
  exact finishes_unlinking next (by simp [proceed, here])

theorem finishes_reading (here : dir.calls call = .reading) : Finishes kinds call dir := by
  apply Finishes.of_launching ord here rfl
  intro next
  have killing : (dir.proceed kinds call).calls call = .killing dir.pidFile := by
    simp [proceed, here]
  exact finishes_killing next killing

theorem finishes_launching
    (launches : (dir.calls call).isLaunching = true) : Finishes kinds call dir := by
  cases here : dir.calls call with
  | reading => exact finishes_reading ord here
  | killing pid => exact finishes_killing ord here
  | unlinking => exact finishes_unlinking ord here
  | spawning => exact finishes_spawning ord here
  | recording => exact finishes_recording ord here
  | waiting => exact finishes_waiting ord here
  | checking => exact finishes_checking ord here
  | _ => simp [here, Phase.isLaunching, Phase.isClearing, Phase.isAwaiting] at launches

theorem finishes_probing (here : dir.calls call = .probing)
    (alone : dir.Alone call) : Finishes kinds call dir := by
  apply Finishes.of_proceed ord ⟨fun _ _ => alone, by simp [here]⟩
  intro next
  by_cases live : dir.isLive = true
  · exact finishes_returned next (by simp [proceed, here, live])
  · exact finishes_reading next (by simp [proceed, here, live])

theorem finishes_alone (begun : dir.calls call ≠ .idle)
    (alone : dir.Alone call) : Finishes kinds call dir := by
  by_cases launches : (dir.calls call).isLaunching = true
  · exact finishes_launching ord launches
  · cases here : dir.calls call with
    | idle => exact absurd here begun
    | probing => exact finishes_probing ord here alone
    | returned => exact finishes_returned ord here
    | failed => exact absurd here (ord.succeeds call)
    | _ => simp [here, Phase.isLaunching, Phase.isClearing, Phase.isAwaiting] at launches

end Finishes

omit [DecidableEq ι] in
theorem Situation.exists_launcher (situation : dir.Situation) (call : ι) :
    dir.Alone call ∨ ∃ launcher, launcher ≠ call ∧ dir.Alone launcher ∧
      (dir.calls launcher).isLaunching = true := by
  cases situation with
  | quiet quiet => exact .inl fun other _ => quiet.calls other
  | clearing launcher clearing =>
    by_cases same : launcher = call
    · exact .inl (same ▸ clearing.alone)
    · exact .inr ⟨launcher, same, clearing.alone, by simp [Phase.isLaunching, clearing.clearing]⟩
  | awaiting launcher awaiting =>
    by_cases same : launcher = call
    · exact .inl (same ▸ awaiting.alone)
    · exact .inr ⟨launcher, same, awaiting.alone, by simp [Phase.isLaunching, awaiting.awaiting]⟩

theorem Orderly.returns (ord : dir.Orderly) (begun : dir.calls call ≠ .idle) :
    ∃ post, Reaches (Directory.step kinds) (Considerate kinds) dir post ∧
      post.calls call = .returned := by
  rcases ord.situation.exists_launcher call with alone | ⟨launcher, ne, alone, launches⟩
  · rcases finishes_alone ord begun alone with ⟨post, leads, -, ret⟩
    exact ⟨post, leads.reaches, ret⟩
  · have finishes : Finishes kinds launcher dir := finishes_launching ord launches
    rcases finishes with ⟨mid, first, next, done⟩
    have same := first.others call ne.symm
    have quiet : mid.Alone call := by
      intro other apart
      by_cases launcher' : other = launcher
      · subst launcher'
        rw [done]
        rfl
      · rw [first.others other launcher']
        exact alone other launcher'
    rcases finishes_alone next (by rwa [same]) quiet with ⟨post, second, -, ret⟩
    exact ⟨post, first.reaches.trans second.reaches, ret⟩

/-- The calls do no harm to each other, and each of them can still return. -/
structure Safe (kinds : ι → Kind) (allowed : Directory ι → Act ι → Prop)
    (directory : Directory ι) : Prop where
  /-- No call kills a daemon that another call has spawned, or unlinks its socket. -/
  harmless : ∀ harm ∈ directory.harms, harm.call = harm.victim
  single : ∀ daemon other, (directory.daemons daemon).isListening = true →
    (directory.daemons other).isListening = true → daemon = other
  owner : ∀ daemon, (directory.daemons daemon).isListening = true →
    directory.socket = some (.child daemon)
  succeeds : ∀ call, directory.calls call ≠ .failed
  returns : ∀ call, directory.calls call ≠ .idle →
    ∃ after, Reaches (step kinds) allowed directory after ∧ after.calls call = .returned

omit [DecidableEq ι] in
theorem Situation.owner {daemon : ι} (situation : dir.Situation)
    (listening : (dir.daemons daemon).isListening = true) :
    dir.socket = some (.child daemon) := by
  have alive : (dir.daemons daemon).isAlive = true := by
    cases proc : dir.daemons daemon <;>
      simp_all [Process.isListening, Process.isAlive]
  rcases situation.of_alive alive with quiet | awaiting
  · exact (quiet.owner daemon alive).2
  · simpa [listening] using awaiting.socket

/-- Launching is safe if one call launches at a time. -/
theorem launching_safe {socket pidFile : Option ℕ}
    (reaches : Reaches (step kinds) (Considerate kinds) (start socket pidFile) dir) :
    dir.Safe kinds (Considerate kinds) := by
  have orderly : dir.Orderly := reaches.keeps (orderly_start socket pidFile)
    fun _ _ _ orderly considerate taken => orderly.step considerate taken
  refine ⟨by simp [orderly.harmless], ?_, fun _ => orderly.situation.owner, orderly.succeeds,
    fun _ => orderly.returns⟩
  intro daemon other first second
  have same := (orderly.situation.owner first).symm.trans (orderly.situation.owner second)
  simpa using same

/-- A crash respawn launches a daemon, which a call that has begun in the meantime discovers. -/
theorem launching_safe_in_turn :
    ∃ dir : Directory Bool, Reaches (step fun call => if call then .discover else .respawn)
        (Considerate fun call => if call then .discover else .respawn) (start (some 1) (some 1))
        dir ∧
      (∀ call, dir.calls call = .returned) ∧
      dir.Safe (fun call => if call then .discover else .respawn)
        (Considerate fun call => if call then .discover else .respawn) := by
  have runs : ∃ dir ∈ run (step fun call : Bool => if call then .discover else .respawn)
      (Considerate fun call => if call then .discover else .respawn) (start (some 1) (some 1))
      [.call false, .call true, .call false, .call false, .daemon false, .daemon false, .call true,
        .call false],
      ∀ call, dir.calls call = .returned := by
    decide
  rcases runs with ⟨dir, ends, returned⟩
  have reaches := Reaches.refl.run ends
  exact ⟨dir, reaches, returned, launching_safe reaches⟩

/-- Of two calls that have found no live daemon, the later one kills the daemon of the earlier one,
which fails. -/
theorem later_call_kills_daemon :
    ∃ dir : Directory Bool,
      Reaches (step fun _ => .discover) (fun _ _ => True) (start none none) dir ∧
      dir.harms = [.kills true false] ∧ dir.calls false = .failed ∧
      ¬dir.Safe (fun _ => .discover) (fun _ _ => True) := by
  have runs : ∃ dir ∈ run (step fun _ : Bool => .discover) (fun _ _ => True) (start none none)
      ([.call false, .call true, .call false, .call true] ++ List.replicate 5 (.call false) ++
        List.replicate 3 (.daemon false) ++ List.replicate 2 (.call true) ++
        List.replicate 2 (.call false)),
      dir.harms = [.kills true false] ∧ dir.calls false = .failed := by
    decide
  rcases runs with ⟨dir, ends, harms, failed⟩
  refine ⟨dir, Reaches.refl.run ends, harms, failed, ?_⟩
  intro safe
  exact safe.succeeds false failed

end Directory

end Barista.Daemon.Launch

/-!
# The PID file and the daemon that listens

A call that discovers records the daemon it spawns in the PID file.  A crash respawn unlinks the
socket and spawns a daemon without recording it.
-/

namespace Barista.Daemon.Launch.Directory

variable {ι : Type} [DecidableEq ι] (kinds : ι → Kind) (directory : Directory ι)

def occur : Act ι ⊕ ι → Option (Directory ι)
  | .inl act => directory.step kinds act
  | .inr daemon =>
    if (directory.daemons daemon).isAlive then some (directory.become daemon .dead) else none

/-- One call launches at a time, and succeeds: a daemon that crashes does so after the call that
has launched it. -/
def InTurn : Act ι ⊕ ι → Prop
  | .inl act => directory.Considerate kinds act
  | .inr _ => ∀ call, (directory.calls call).isLaunching = false

instance [Fintype ι] (kinds : ι → Kind) (directory : Directory ι) :
    (event : Act ι ⊕ ι) → Decidable (directory.InTurn kinds event)
  | .inl act => decidableConsiderate kinds directory act
  | .inr _ => inferInstanceAs (Decidable (∀ call, (directory.calls call).isLaunching = false))

structure Records : Prop where
  recording : ∀ call, directory.calls call = .recording → kinds call = .discover
  recorded : ∀ call, directory.pidFile = some (.child call) → kinds call = .discover
  alive : ∀ daemon, kinds daemon = .discover → (directory.daemons daemon).isAlive = true →
    directory.calls daemon ≠ .recording → directory.pidFile = some (.child daemon)

variable {kinds : ι → Kind} {dir dir' : Directory ι} {call : ι}

theorem recording_of_enter {phase : Phase ι}
    (before : ∀ other, dir.calls other = .recording → kinds other = .discover)
    (fits : phase = .recording → kinds call = .discover) (other : ι)
    (here : (dir.enter call phase).calls other = .recording) : kinds other = .discover := by
  by_cases same : other = call
  · subst same
    exact fits (by simpa using here)
  · rw [calls_enter_of_ne same] at here
    exact before other here

theorem Records.enter {phase : Phase ι} (records : dir.Records kinds)
    (here : dir.calls call ≠ .recording) (there : phase ≠ .recording) :
    (dir.enter call phase).Records kinds := by
  refine ⟨recording_of_enter records.recording fun same => absurd same there, records.recorded, ?_⟩
  intro daemon kind alive apart
  refine records.alive daemon kind alive ?_
  by_cases same : daemon = call
  · exact same ▸ here
  · rwa [calls_enter_of_ne same] at apart

theorem Records.become {socket : Option (Pid ι)} {process : Process} (records : dir.Records kinds)
    (lived : (dir.daemons call).isAlive = true) :
    ({ dir with socket := socket }.become call process).Records kinds := by
  refine ⟨records.recording, records.recorded, ?_⟩
  intro daemon kind alive
  refine records.alive daemon kind ?_
  by_cases same : daemon = call
  · exact same ▸ lived
  · simpa [Directory.become, Function.update_of_ne same] using alive

theorem Records.proceed (records : dir.Records kinds) (ord : dir.Orderly) :
    (dir.proceed kinds call).Records kinds := by
  have situation := ord.situation
  cases here : dir.calls call <;> simp only [Directory.proceed, here]
  case killing pid =>
    rw [kill_of_nobody (situation.clearing_of here rfl).nobody]
    exact records.enter (by simp [here]) (by simp)
  case unlinking =>
    rw [unlink_of_nobody (situation.clearing_of here rfl).nobody]
    exact Records.enter ⟨records.recording, records.recorded, records.alive⟩ (by simp [here])
      (by simp)
  case spawning =>
    have nobody := (situation.clearing_of here rfl).nobody
    refine ⟨recording_of_enter records.recording ?_, records.recorded, ?_⟩
    · intro recording
      by_contra kind
      simp [kind] at recording
    · intro daemon kind alive apart
      by_cases same : daemon = call
      · subst same
        simp [kind] at apart
      · simp [Directory.enter, Directory.become, Function.update_of_ne same, nobody] at alive
  case recording =>
    have only := (situation.awaiting_of here rfl).only
    refine ⟨recording_of_enter records.recording (by simp), ?_, ?_⟩
    · intro other names
      cases names
      exact records.recording call here
    · intro daemon _ alive _
      rw [only daemon alive]
      rfl
  case returned | failed => exact records
  case reading => exact records.enter (by simp [here]) (by simp)
  all_goals
    refine records.enter (by simp [here]) ?_
    split_ifs <;> simp

theorem Records.boot (records : dir.Records kinds) (ord : dir.Orderly) :
    (dir.boot call).Records kinds := by
  cases here : dir.daemons call <;> simp only [Directory.boot, here]
  case starting =>
    rw [unlink, (ord.situation.of_booting here rfl rfl).2]
    exact records.become (by rw [here]; rfl)
  case binding => split_ifs <;> exact records.become (by rw [here]; rfl)
  case narrowing => exact records.become (by rw [here]; rfl)
  all_goals exact records

theorem Orderly.crash (ord : dir.Orderly)
    (rests : ∀ call, (dir.calls call).isLaunching = false) : (dir.become call .dead).Orderly := by
  refine ord.of_situation (.quiet ⟨rests, ?_⟩) rfl rfl
  intro daemon alive
  by_cases same : daemon = call
  · subst same
    simp [become, Process.isAlive] at alive
  · simp only [become, Function.update_of_ne same] at alive ⊢
    rcases ord.situation.of_alive alive with quiet | awaiting
    · exact quiet.owner daemon alive
    · simpa [Phase.isLaunching, awaiting.awaiting] using rests daemon

theorem Records.occur {event : Act ι ⊕ ι} (both : dir.Orderly ∧ dir.Records kinds)
    (turn : dir.InTurn kinds event) (taken : dir.occur kinds event = some dir') :
    dir'.Orderly ∧ dir'.Records kinds := by
  rcases both with ⟨ord, records⟩
  rcases event with act | daemon
  · refine ⟨ord.step turn taken, ?_⟩
    cases act with
    | call call =>
      cases taken
      exact records.proceed ord
    | daemon call =>
      cases taken
      exact records.boot ord
  · rcases Option.ite_none_right_eq_some.mp taken with ⟨lived, same⟩
    cases same
    exact ⟨ord.crash turn, records.become lived⟩

open Automaton

/-- The PID file names the daemon that listens if, and only if, a discovering call has spawned
it. -/
theorem pidFile_eq_listening_iff {socket pidFile : Option ℕ} {daemon : ι}
    (reaches : Reaches (occur kinds) (InTurn kinds) (start socket pidFile) dir)
    (finished : ∀ call, dir.calls call = .idle ∨ dir.calls call = .returned)
    (listening : (dir.daemons daemon).isListening = true) :
    dir.pidFile = some (.child daemon) ↔ kinds daemon = .discover := by
  have both : dir.Orderly ∧ dir.Records kinds := by
    refine reaches.keeps ⟨orderly_start socket pidFile, ?_, ?_, ?_⟩
      fun _ _ _ both turn taken => Records.occur both turn taken
    · simp [start]
    · cases pidFile <;> simp [start]
    · simp [start, Process.isAlive]
  refine ⟨both.2.recorded daemon, fun kind => both.2.alive daemon kind ?_ ?_⟩
  · cases here : dir.daemons daemon <;> simp_all [Process.isListening, Process.isAlive]
  · rcases finished daemon with idle | returned
    · simp [idle]
    · simp [returned]

/-- A daemon that is launched within `calls` steps of its call, and serves before the last of
them. -/
def launch {ι : Type} (calls : ℕ) (call : ι) : List (Act ι ⊕ ι) :=
  List.replicate calls (.inl (.call call)) ++ List.replicate 3 (.inl (.daemon call)) ++
    [.inl (.call call)]

def second (kind : Kind) (call : Bool) : Kind := if call then kind else .discover

/-- The daemon of a discovering call crashes, and another call launches a daemon: the PID file names
it if the call discovers, and does not if the call respawns. -/
theorem pidFile_eq_listening_crashed :
    (∃ dir ∈ run (occur (second .discover)) (InTurn (second .discover)) (start none none)
        (launch 7 false ++ .inr false :: launch 7 true),
      (dir.daemons true).isListening = true ∧ dir.pidFile = some (.child true)) ∧
    ∃ dir ∈ run (occur (second .respawn)) (InTurn (second .respawn)) (start none none)
        (launch 7 false ++ .inr false :: launch 3 true),
      (dir.daemons true).isListening = true ∧ dir.pidFile ≠ some (.child true) := by
  constructor
  · have runs : ∃ dir ∈ run (occur (second .discover)) (InTurn (second .discover)) (start none none)
        (launch 7 false ++ .inr false :: launch 7 true),
        (∀ call, dir.calls call = .returned) ∧ (dir.daemons true).isListening = true := by
      decide
    rcases runs with ⟨dir, ends, returned, listening⟩
    exact ⟨dir, ends, listening, (pidFile_eq_listening_iff (Reaches.refl.run ends)
      (fun call => .inr (returned call)) listening).mpr rfl⟩
  · have runs : ∃ dir ∈ run (occur (second .respawn)) (InTurn (second .respawn)) (start none none)
        (launch 7 false ++ .inr false :: launch 3 true),
        (∀ call, dir.calls call = .returned) ∧ (dir.daemons true).isListening = true := by
      decide
    rcases runs with ⟨dir, ends, returned, listening⟩
    refine ⟨dir, ends, listening, fun recorded => ?_⟩
    have discovered := (pidFile_eq_listening_iff (Reaches.refl.run ends)
      (fun call => .inr (returned call)) listening).mp recorded
    cases discovered

/-- The daemon of the call `false` crashes, and the crash respawn `true` launches another one. -/
theorem respawned_not_recorded :
    ∃ dir ∈ run (occur (second .respawn)) (InTurn (second .respawn)) (start none none)
        (launch 7 false ++ .inr false :: launch 3 true),
      (∀ call, dir.calls call = .returned) ∧ (dir.daemons true).isListening = true ∧
        dir.pidFile = some (.child false) := by
  decide

end Barista.Daemon.Launch.Directory
