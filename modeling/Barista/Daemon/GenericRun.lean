import Barista.Daemon.Levels

/-!
# The generic run of a reactor

The tasks of a level are spawned together and joined one by one before the next level begins; a
worker budget delays tasks within their level only.  A task that panics leaves neither an outcome
nor an error.
-/

namespace Barista.Daemon

open List

inductive Dispatched (α ε : Type) where
  | ok (outcome : α)
  | error (error : ε)
  | panicked

namespace Reactor

variable {α ε : Type} [Inhabited α] (dispatch : ℕ → Dispatched α ε)

def await (joined : List (Option α) × Option ε) (index : ℕ) : List (Option α) × Option ε :=
  match dispatch index with
  | .ok outcome => (joined.1.set index (some outcome), joined.2)
  | .error error => (joined.1, joined.2.or (some error))
  | .panicked => joined

/-- The levels that are begun, and what is returned. -/
def runLevels (outcomes : List (Option α)) : List (List ℕ) → List (List ℕ) × Except ε (List α)
  | [] => ([], .ok (outcomes.map (·.getD default)))
  | level :: rest =>
    match level.foldl (await dispatch) (outcomes, none) with
    | (_, some error) => ([level], .error error)
    | (outcomes, none) => (runLevels outcomes rest).map (level :: ·) id

def run (reactor : Reactor) : List (List ℕ) × Except ε (List α) :=
  runLevels dispatch (replicate reactor.modules.length none) reactor.topoLevels

def Passes (index : ℕ) : Prop := ∀ error, dispatch index ≠ .error error

/-- Success is reported, and a level begun, only after dispatches that returned an outcome. -/
structure Reports (reactor : Reactor) : Prop where
  returned : ∀ outs, (reactor.run dispatch).2 = .ok outs → ∀ index < reactor.modules.length,
    ∃ out, dispatch index = .ok out
  begun : ∀ before level, before ++ [level] <+: (reactor.run dispatch).1 → ∀ index ∈ level,
    ∀ dependency, DependsOn reactor.modules index dependency →
      dependency ∈ before.flatten ∧ ∃ out, dispatch dependency = .ok out

variable {dispatch} {levels before : List (List ℕ)} {level : List ℕ}

omit [Inhabited α] in
theorem await_eq_none_iff {joined : List (Option α) × Option ε} :
    (level.foldl (await dispatch) joined).2 = none ↔
      joined.2 = none ∧ ∀ index ∈ level, Passes dispatch index := by
  induction level generalizing joined with
  | nil => simp
  | cons index level ih =>
    rw [foldl_cons, ih, forall_mem_cons, ← and_assoc, Passes, await]
    split <;> simp [*]

omit [Inhabited α] in
theorem exists_ok_of_passes {index : ℕ} (passes : Passes dispatch index)
    (calm : dispatch index ≠ .panicked) : ∃ out, dispatch index = .ok out := by
  cases result : dispatch index with
  | ok out => exact ⟨out, rfl⟩
  | error error => exact absurd result (passes error)
  | panicked => exact absurd result calm

variable (dispatch) in
theorem runLevels_cons (outcomes : List (Option α)) (level : List ℕ) (rest : List (List ℕ)) :
    ((∀ index ∈ level, Passes dispatch index) ∧ ∃ outcomes', runLevels dispatch outcomes
        (level :: rest) = (runLevels dispatch outcomes' rest).map (level :: ·) id) ∨
    (¬∀ index ∈ level, Passes dispatch index) ∧ ∃ error,
      runLevels dispatch outcomes (level :: rest) = ([level], .error error) := by
  have clean : (level.foldl (await dispatch) (outcomes, none)).2 = none ↔
      ∀ index ∈ level, Passes dispatch index := by
    simp [await_eq_none_iff]
  rw [runLevels, ← clean]
  rcases level.foldl (await dispatch) (outcomes, none) with ⟨outcomes', _ | error⟩
  · exact .inl ⟨rfl, outcomes', rfl⟩
  · exact .inr ⟨nofun, error, rfl⟩

theorem begun_runLevels_iff (outcomes : List (Option α)) :
    before ++ [level] <+: (runLevels dispatch outcomes levels).1 ↔
      before ++ [level] <+: levels ∧ ∀ index ∈ before.flatten, Passes dispatch index := by
  induction levels generalizing before outcomes with
  | nil => simp [runLevels]
  | cons first rest ih =>
    rcases before with _ | ⟨head, before⟩
    · rcases runLevels_cons dispatch outcomes first rest with ⟨-, _, run⟩ | ⟨-, _, run⟩ <;>
        simp [run]
    · rw [cons_append, cons_prefix_cons, flatten_cons, forall_mem_append]
      rcases runLevels_cons dispatch outcomes first rest with ⟨passed, _, run⟩ | ⟨failed, _, run⟩
      · rw [run, Prod.map_fst, cons_prefix_cons, ih]
        constructor
        · rintro ⟨rfl, begun, all⟩
          exact ⟨⟨rfl, begun⟩, passed, all⟩
        · rintro ⟨⟨rfl, begun⟩, -, all⟩
          exact ⟨rfl, begun, all⟩
      · rw [run, cons_prefix_cons]
        constructor
        · simp
        · rintro ⟨⟨rfl, -⟩, passed, -⟩
          exact absurd passed failed

theorem returned_runLevels_iff (outcomes : List (Option α)) :
    (∃ outs, (runLevels dispatch outcomes levels).2 = .ok outs) ↔
      ∀ index ∈ levels.flatten, Passes dispatch index := by
  induction levels generalizing outcomes with
  | nil => simp [runLevels]
  | cons first rest ih =>
    rw [flatten_cons, forall_mem_append]
    rcases runLevels_cons dispatch outcomes first rest with ⟨passed, _, run⟩ | ⟨failed, _, run⟩
    · rw [run, Prod.map_snd, id_eq, ih, and_iff_right passed]
    · simp [run, failed]

/-- A run reports every failure if, and only if, some module fails wherever one panics, and fails
before the dependants of the one that panics. -/
theorem reports_iff {reactor : Reactor} {discovered : List DiscoveredModule} {phase : MavenPhase}
    {includeClean : Bool} (built : fromDiscovered discovered phase includeClean = .ok reactor) :
    Reports dispatch reactor ↔
      ∀ index < reactor.modules.length, dispatch index = .panicked →
        (∃ other < reactor.modules.length, ¬Passes dispatch other) ∧
        ∀ before level, before ++ [level] <+: reactor.topoLevels → ∀ dependant ∈ level,
          DependsOn reactor.modules dependant index →
            ∃ other ∈ before.flatten, ¬Passes dispatch other := by
  have returned_iff : (∃ outs, (reactor.run dispatch).2 = .ok outs) ↔
      ∀ index < reactor.modules.length, Passes dispatch index := by
    simp only [run, returned_runLevels_iff, reactor.complete]
  constructor
  · intro reports index inRange panicked
    refine ⟨?_, ?_⟩
    · by_contra nothing
      push Not at nothing
      rcases returned_iff.mpr nothing with ⟨outs, returned⟩
      rcases reports.returned outs returned index inRange with ⟨out, ended⟩
      simp [panicked] at ended
    · intro before level spawned dependant mem depends
      by_contra nothing
      push Not at nothing
      have begun := (begun_runLevels_iff (replicate reactor.modules.length none)).mpr
        ⟨spawned, nothing⟩
      rcases (reports.begun before level begun dependant mem index depends).2 with ⟨out, ended⟩
      simp [panicked] at ended
  · intro behind
    refine ⟨?_, ?_⟩
    · intro outs returned index inRange
      have passed := returned_iff.mp ⟨outs, returned⟩
      refine exists_ok_of_passes (passed index inRange) fun panicked => ?_
      rcases (behind index inRange panicked).1 with ⟨other, otherInRange, failed⟩
      exact failed (passed other otherInRange)
    · intro before level begun index mem dependency depends
      rcases (begun_runLevels_iff _).mp begun with ⟨spawned, passed⟩
      rcases id spawned with ⟨after, levels⟩
      have earlier := ordered_of_fromDiscovered built before level after (by simp [← levels])
        index mem dependency depends
      refine ⟨earlier, exists_ok_of_passes (passed dependency earlier) fun panicked => ?_⟩
      have inRange := (reactor.complete dependency).mp (by simp [← levels, earlier])
      rcases (behind dependency inRange panicked).2 before level spawned index mem depends with
        ⟨other, among, failed⟩
      exact failed (passed other among)

def dependentPair : List DiscoveredModule :=
  [⟨⟨"org.example", "core"⟩, "core", []⟩,
    ⟨⟨"org.example", "app"⟩, "app", [⟨"org.example", "core"⟩]⟩]

theorem dependentPair_built : ∃ reactor, fromDiscovered dependentPair .install false = .ok reactor ∧
    reactor.topoLevels = [[0], [1]] ∧ reactor.modules.length = 2 :=
  ⟨_, fromDiscovered_of_sorted (by decide +kernel : kahnTopoLevels _ = .ok [[0], [1]]), rfl, rfl⟩

/-- The dispatch of `core` fails, and that of `app`, which would panic, is not begun. -/
theorem reports_failing_pair :
    ∃ reactor, fromDiscovered dependentPair .install false = .ok reactor ∧
      Reports (fun index => if index = 0 then .error () else .panicked : ℕ → Dispatched ℕ Unit)
        reactor := by
  rcases dependentPair_built with ⟨reactor, built, levels, count⟩
  refine ⟨reactor, built, (reports_iff built).mpr ?_⟩
  intro index inRange panicked
  refine ⟨⟨0, by omega, by simp [Passes]⟩, ?_⟩
  intro before level spawned dependant mem depends
  rcases id spawned with ⟨after, split⟩
  have earlier := ordered_of_fromDiscovered built before level after (by simp [← split])
    dependant mem index depends
  rw [levels] at spawned
  rcases before with _ | ⟨first, before⟩
  · simp at earlier
  · rw [cons_append, cons_prefix_cons] at spawned
    exact ⟨0, by simp [spawned.1], by simp [Passes]⟩

/-- The dispatch of `core` panics, and the run goes on to `app` and succeeds. -/
theorem panic_unreported : ∃ reactor, fromDiscovered dependentPair .install false = .ok reactor ∧
    reactor.run (fun index => if index = 0 then .panicked else .ok index : ℕ → Dispatched ℕ Unit) =
      ([[0], [1]], .ok [0, 1]) ∧
    ¬Reports (fun index => if index = 0 then .panicked else .ok index : ℕ → Dispatched ℕ Unit)
      reactor := by
  rcases dependentPair_built with ⟨reactor, built, levels, count⟩
  have ran : reactor.run (fun index => if index = 0 then .panicked else .ok index :
      ℕ → Dispatched ℕ Unit) = ([[0], [1]], .ok [0, 1]) := by
    rw [run, levels, count]
    rfl
  refine ⟨reactor, built, ran, fun reports => ?_⟩
  rcases reports.returned [0, 1] (by rw [ran]) 0 (by omega) with ⟨out, ended⟩
  cases ended

end Reactor

end Barista.Daemon
