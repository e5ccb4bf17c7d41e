import Barista.Dialogue

/-!
# Retrying a dialogue

A dialogue is run over a table and started again with one more answer for each miss.
-/

namespace Barista.Dialogue

variable {Q K P τ ε ν α β : Type}

section Table

variable (key : Q → K) (absent : K → τ)

def tableReply (table : K → Option P) (question : Q) : Except τ P :=
  match table (key question) with
  | some found => .ok found
  | none => .error (absent (key question))

def firstMiss (table : K → Option P) : Dialogue Q (Except τ P) ε α → Option K
  | ok _ => none
  | error _ => none
  | ask question next =>
    match table (key question) with
    | some found => firstMiss table (next (.ok found))
    | none => some (key question)

def missed (answers : K → Option P) (grow : (K → Option P) → K → P → K → Option P) :
    (K → Option P) → Dialogue Q (Except τ P) ε α → List K
  | _, ok _ => []
  | _, error _ => []
  | table, ask question next =>
    match table (key question) with
    | some found => missed answers grow table (next (.ok found))
    | none =>
      match answers (key question) with
      | some found =>
        key question :: missed answers grow (grow table (key question) found) (next (.ok found))
      | none => [key question]

def retry (missing : ε → Option ν) (fetch : (K → Option P) → ν → Option (K → Option P))
    (dialogue : Dialogue Q (Except τ P) ε α) : ℕ → (K → Option P) → Option α
  | 0, _ => none
  | rounds + 1, table =>
    match dialogue.eval (tableReply key absent table) with
    | .ok value => some value
    | .error failure => (missing failure).bind fun name =>
      (fetch table name).bind (retry missing fetch dialogue rounds)

end Table

def Reports (key : Q → K) (absent : K → τ) (answers : K → Option P) (unusable : P → Prop)
    (missing : ε → Option ν) (name : K → ν) : Dialogue Q (Except τ P) ε α → Prop
  | ok _ => True
  | error failure => missing failure = none
  | ask question next =>
    (∀ reason, ∃ failure, next (.error reason) = error failure ∧
      missing failure = some (name (key question))) ∧
    ∀ found, Reports key absent answers unusable missing name (next (.ok found)) ∧
      (unusable found → ∀ value,
        (next (.ok found)).eval (tableReply key absent answers) ≠ .ok value)

variable {key : Q → K} {absent : K → τ} {answers : K → Option P} {unusable : P → Prop}
  {missing : ε → Option ν} {name : K → ν}

namespace Reports

variable {dialogue : Dialogue Q (Except τ P) ε α}

theorem bind {f : α → Dialogue Q (Except τ P) ε β}
    (first : Reports key absent answers unusable missing name dialogue)
    (rest : ∀ val, Reports key absent answers unusable missing name (f val)) :
    Reports key absent answers unusable missing name (dialogue >>= f) := by
  induction dialogue with
  | ok val => exact rest val
  | error failure => exact first
  | ask query next ih =>
    refine ⟨?_, ?_⟩
    · intro reason
      rcases first.1 reason with ⟨failure, ends, named⟩
      exact ⟨failure, congrArg (Dialogue.bind · f) ends, named⟩
    · intro found
      refine ⟨ih _ (first.2 found).1, ?_⟩
      intro bad val succeeded
      have split : (next (.ok found) >>= f).eval (tableReply key absent answers) = .ok val :=
        succeeded
      rw [eval_bind] at split
      rcases inner : (next (.ok found)).eval (tableReply key absent answers) with _ | mid
      · rw [inner] at split
        cases split
      · exact (first.2 found).2 bad mid inner

theorem mapError {δ : Type} {wrap : ε → δ} {missing' : δ → Option ν}
    (same : ∀ failure, missing' (wrap failure) = missing failure)
    (reports : Reports key absent answers unusable missing name dialogue) :
    Reports key absent answers unusable missing' name (dialogue.mapError wrap) := by
  induction dialogue with
  | ok val => trivial
  | error failure => exact (same failure).trans reports
  | ask query next ih =>
    refine ⟨?_, ?_⟩
    · intro reason
      rcases reports.1 reason with ⟨failure, ends, named⟩
      exact ⟨wrap failure, congrArg (Dialogue.mapError wrap) ends, (same failure).trans named⟩
    · intro found
      refine ⟨ih _ (reports.2 found).1, ?_⟩
      intro bad val succeeded
      exact (reports.2 found).2 bad val (eval_mapError_eq_ok.mp succeeded)

theorem ofExcept {out : Except ε α}
    (unnamed : ∀ failure, out = .error failure → missing failure = none) :
    Reports key absent answers unusable missing name
      (Dialogue.ofExcept out : Dialogue Q (Except τ P) ε α) := by
  rcases out with failure | _
  · exact unnamed failure rfl
  · trivial

end Reports

def Consistent (answers table : K → Option P) : Prop :=
  ∀ key found, table key = some found → answers key = some found

structure Grows (answers : K → Option P) (unusable : P → Prop)
    (grow : (K → Option P) → K → P → K → Option P) : Prop where
  consistent : ∀ {table key found}, Consistent answers table → answers key = some found →
    ¬ unusable found → Consistent answers (grow table key found)
  covers : ∀ {table key found}, Consistent answers table → answers key = some found →
    ¬ unusable found → grow table key found key = some found
  keeps : ∀ {table key found other kept}, Consistent answers table → answers key = some found →
    ¬ unusable found → table other = some kept → grow table key found other = some kept

section Rounds

variable {grow : (K → Option P) → K → P → K → Option P}
  {fetch : (K → Option P) → ν → Option (K → Option P)} {table : K → Option P}
  {dialogue : Dialogue Q (Except τ P) ε α} {missedKey : K}

theorem eval_of_firstMiss_none (consistent : Consistent answers table)
    (hit : firstMiss key table dialogue = none) :
    dialogue.eval (tableReply key absent table) =
      dialogue.eval (tableReply key absent answers) := by
  induction dialogue with
  | ok val => rfl
  | error failure => rfl
  | ask query next ih =>
    rcases found : table (key query) with _ | _
    · simp [firstMiss, found] at hit
    · simp only [firstMiss, found] at hit
      rw [eval, eval, tableReply, tableReply, found, consistent _ _ found]
      exact ih _ hit

theorem missed_of_firstMiss_none (hit : firstMiss key table dialogue = none) :
    missed key answers grow table dialogue = [] := by
  induction dialogue with
  | ok val => rfl
  | error failure => rfl
  | ask query next ih =>
    rcases found : table (key query) with _ | _
    · simp [firstMiss, found] at hit
    · simp only [firstMiss, found] at hit
      rw [missed, found]
      exact ih _ hit

theorem missing_of_firstMiss_none (hit : firstMiss key table dialogue = none)
    (reports : Reports key absent answers unusable missing name dialogue) {failure : ε}
    (failed : dialogue.eval (tableReply key absent table) = .error failure) :
    missing failure = none := by
  induction dialogue with
  | ok val => cases failed
  | error failure' =>
    cases failed
    exact reports
  | ask query next ih =>
    rcases found : table (key query) with _ | ans
    · simp [firstMiss, found] at hit
    · simp only [firstMiss, found] at hit
      rw [eval, tableReply, found] at failed
      exact ih _ hit (reports.2 ans).1 failed

theorem missing_of_firstMiss (miss : firstMiss key table dialogue = some missedKey)
    (reports : Reports key absent answers unusable missing name dialogue) :
    ∃ failure, dialogue.eval (tableReply key absent table) = .error failure ∧
      missing failure = some (name missedKey) := by
  induction dialogue with
  | ok val => cases miss
  | error failure => cases miss
  | ask query next ih =>
    rw [eval, tableReply]
    rcases found : table (key query) with _ | ans
    · simp only [firstMiss, found, Option.some.injEq] at miss
      rcases reports.1 (absent (key query)) with ⟨failure, ends, named⟩
      exact ⟨failure, by simp [ends], miss ▸ named⟩
    · simp only [firstMiss, found] at miss
      exact ih _ miss (reports.2 ans).1

theorem eval_ne_ok_of_firstMiss (consistent : Consistent answers table)
    (miss : firstMiss key table dialogue = some missedKey)
    (reports : Reports key absent answers unusable missing name dialogue)
    (useless : ∀ found, answers missedKey = some found → unusable found) (val : α) :
    dialogue.eval (tableReply key absent answers) ≠ .ok val := by
  induction dialogue with
  | ok val => cases miss
  | error failure => cases miss
  | ask query next ih =>
    rw [eval, tableReply]
    rcases found : table (key query) with _ | ans
    · simp only [firstMiss, found, Option.some.injEq] at miss
      subst miss
      rcases ans : answers (key query) with _ | answer'
      · rcases reports.1 (absent (key query)) with ⟨failure, ends, -⟩
        simp [ends]
      · exact (reports.2 answer').2 (useless answer' ans) val
    · simp only [firstMiss, found] at miss
      rw [consistent _ _ found]
      exact ih _ miss (reports.2 ans).1

theorem missed_of_firstMiss (grows : Grows answers unusable grow)
    (consistent : Consistent answers table)
    (miss : firstMiss key table dialogue = some missedKey) {ans : P}
    (answered : answers missedKey = some ans) (usable : ¬ unusable ans) :
    missed key answers grow table dialogue =
      missedKey :: missed key answers grow (grow table missedKey ans) dialogue := by
  induction dialogue with
  | ok val => cases miss
  | error failure => cases miss
  | ask query next ih =>
    rcases found : table (key query) with _ | _
    · simp only [firstMiss, found, Option.some.injEq] at miss
      subst miss
      simp only [missed, found, answered, grows.covers consistent answered usable]
    · simp only [firstMiss, found] at miss
      simp only [missed, found, grows.keeps consistent answered usable found]
      exact ih _ miss

theorem mem_missed_of_firstMiss (miss : firstMiss key table dialogue = some missedKey) :
    missedKey ∈ missed key answers grow table dialogue := by
  induction dialogue with
  | ok val => cases miss
  | error failure => cases miss
  | ask query next ih =>
    rcases found : table (key query) with _ | _
    · simp only [firstMiss, found, Option.some.injEq] at miss
      subst miss
      rw [missed, found]
      rcases answers (key query) with _ | _
      · exact .head _
      · exact .head _
    · simp only [firstMiss, found] at miss
      rw [missed, found]
      exact ih _ miss

theorem retry_eq_some {fetchable : K → Prop} (grows : Grows answers unusable grow)
    (reports : Reports key absent answers unusable missing name dialogue)
    (fetches : ∀ table missedKey, Consistent answers table → fetchable missedKey →
      ∀ next, fetch table (name missedKey) = some next ↔
        ∃ ans, answers missedKey = some ans ∧ ¬ unusable ans ∧
          next = grow table missedKey ans) {rounds : ℕ} (consistent : Consistent answers table)
    (fetchableMisses : ∀ missedKey ∈ missed key answers grow table dialogue, fetchable missedKey)
    (val : α) :
    retry key absent missing fetch dialogue rounds table = some val ↔
      dialogue.eval (tableReply key absent answers) = .ok val ∧
        (missed key answers grow table dialogue).length < rounds := by
  induction rounds generalizing table with
  | zero => simp [retry]
  | succ rounds ih =>
    rw [retry]
    rcases miss : firstMiss key table dialogue with _ | missedKey
    · rw [missed_of_firstMiss_none miss, ← eval_of_firstMiss_none consistent miss]
      rcases ended : dialogue.eval (tableReply key absent table) with _ | _
      · simp [missing_of_firstMiss_none miss reports ended]
      · simp
    · rcases missing_of_firstMiss miss reports with ⟨failure, ended, named⟩
      have wanted : fetchable missedKey := fetchableMisses missedKey (mem_missed_of_firstMiss miss)
      simp only [ended, named, Option.bind_some]
      by_cases useless : ∀ found, answers missedKey = some found → unusable found
      · have stuck := eval_ne_ok_of_firstMiss consistent miss reports useless val
        have nothing : fetch table (name missedKey) = none := by
          rw [Option.eq_none_iff_forall_ne_some]
          intro next found
          rcases (fetches table missedKey consistent wanted next).mp found with
            ⟨ans, answered, usable, -⟩
          exact usable (useless ans answered)
        simp [nothing, stuck]
      · push Not at useless
        rcases useless with ⟨ans, answered, usable⟩
        have found : fetch table (name missedKey) = some (grow table missedKey ans) :=
          (fetches table missedKey consistent wanted _).mpr ⟨ans, answered, usable, rfl⟩
        have rest := missed_of_firstMiss grows consistent miss answered usable
        have consistent' := grows.consistent consistent answered usable
        rw [found, Option.bind_some, rest, List.length_cons, Nat.add_lt_add_iff_right]
        refine ih consistent' ?_
        intro other mem
        refine fetchableMisses other ?_
        rw [rest]
        exact .tail _ mem

end Rounds

end Barista.Dialogue
