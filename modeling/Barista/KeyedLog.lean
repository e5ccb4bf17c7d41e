import Mathlib.Tactic

/-!
# Logs with keys

Entries of a log act on the values of single keys. Replaying a log twice is the same as replaying
it once.
-/

namespace Barista

structure KeyedLog (κ ν ε : Type) where
  key : ε → κ
  effect : ε → Option ν → Option ν
  absorb : ∀ (update : ε) (updates : List ε) (value : Option ν),
    effect update (updates.foldl (fun old entry => effect entry old) (effect update value)) =
      effect update (updates.foldl (fun old entry => effect entry old) value)
  mono : ∀ (update : ε) (smaller larger : Option ν),
    (∀ value, smaller = some value → larger = some value) →
      ∀ value, effect update smaller = some value → effect update larger = some value

namespace KeyedLog

variable {κ ν ε : Type} (log : KeyedLog κ ν ε) (updates : List ε)

def run (value : Option ν) : Option ν :=
  updates.foldl (fun old entry => log.effect entry old) value

theorem run_run (val : Option ν) : log.run updates (log.run updates val) = log.run updates val := by
  induction updates using List.reverseRecOn generalizing val with
  | nil => rfl
  | append_singleton updates last ih =>
    have absorbed := log.absorb last updates (log.run updates val)
    simp only [run, List.foldl_append, List.foldl_cons, List.foldl_nil] at absorbed ⊢
    rw [absorbed]
    exact congrArg (log.effect last) (ih val)

variable [Ord κ] [Std.TransOrd κ]

def apply (map : Std.ExtTreeMap κ ν) (update : ε) : Std.ExtTreeMap κ ν :=
  map.alter (log.key update) (log.effect update)

def replay (map : Std.ExtTreeMap κ ν) (updates : List ε) : Std.ExtTreeMap κ ν :=
  updates.foldl log.apply map

@[simp]
theorem replay_nil (map : Std.ExtTreeMap κ ν) : log.replay map [] = map := rfl

@[simp]
theorem replay_cons (map : Std.ExtTreeMap κ ν) (update : ε) (updates : List ε) :
    log.replay map (update :: updates) = log.replay (log.apply map update) updates := rfl

theorem replay_append (map : Std.ExtTreeMap κ ν) (first second : List ε) :
    log.replay map (first ++ second) = log.replay (log.replay map first) second := by
  simp [replay]

theorem replay_concat (map : Std.ExtTreeMap κ ν) (updates : List ε) (update : ε) :
    log.replay map (updates ++ [update]) = log.apply (log.replay map updates) update := by
  simp [replay]

variable [DecidableEq κ] [Std.LawfulEqOrd κ]

section Replay

variable (map : Std.ExtTreeMap κ ν)

include map

theorem getElem?_apply (update : ε) (key : κ) : (log.apply map update)[key]? =
      if log.key update = key then log.effect update map[key]? else map[key]? := by
  rw [apply, Std.ExtTreeMap.getElem?_alter]
  by_cases same : log.key update = key
  · subst same
    simp
  · have differs : compare (log.key update) key ≠ .eq := by
      rw [ne_eq, Std.LawfulEqOrd.compare_eq_iff_eq]
      exact same
    simp [same, differs]

theorem getElem?_replay (key : κ) : (log.replay map updates)[key]? =
      log.run (updates.filter fun update => log.key update = key) map[key]? := by
  induction updates generalizing map with
  | nil => rfl
  | cons update updates ih =>
    rw [replay_cons, ih, getElem?_apply]
    by_cases same : log.key update = key
    · simp [same, run]
    · simp [same]

theorem replay_replay : log.replay (log.replay map updates) updates = log.replay map updates := by
  apply Std.ExtTreeMap.ext_getElem?
  intro key
  rw [getElem?_replay, getElem?_replay, run_run]

theorem apply_comm {first second : ε} (differ : log.key first ≠ log.key second) :
    log.apply (log.apply map first) second = log.apply (log.apply map second) first := by
  apply Std.ExtTreeMap.ext_getElem?
  intro key
  simp only [getElem?_apply]
  by_cases isFirst : log.key first = key
  · have notSecond : log.key second ≠ key := fun isSecond => differ (isFirst.trans isSecond.symm)
    simp [isFirst, notSecond]
  · simp [isFirst]

theorem apply_replay_comm {updates : List ε} {update : ε}
    (differ : ∀ prior ∈ updates, log.key prior ≠ log.key update) :
    log.apply (log.replay map updates) update = log.replay (log.apply map update) updates := by
  induction updates generalizing map with
  | nil => rfl
  | cons prior updates ih =>
    rw [replay_cons, replay_cons, ih _ (fun other mem => differ other (List.mem_cons_of_mem _ mem)),
      log.apply_comm map (differ prior List.mem_cons_self)]

end Replay

variable {log}

end KeyedLog

end Barista
