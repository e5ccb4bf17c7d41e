import Barista.Bytes

/-!
# Readers of bytes

A reader hands out its contents in pieces of its own choice. A buffered reader is a state machine
whose answers depend only on its phase, that is, on the place of its buffer in the file.
-/

namespace Barista

open List

structure ByteReader (σ : Type) where
  /-- The reader of a file whose unread part is the given byte string. -/
  start : Bytes → σ
  /-- The bytes that the reader has not delivered yet. -/
  contents : σ → Bytes
  /-- One call, asking for at most the given number of bytes. -/
  read : ℕ → σ → Bytes × σ
  contents_start : ∀ bytes, contents (start bytes) = bytes
  read_append : ∀ wanted state,
    (read wanted state).1 ++ contents (read wanted state).2 = contents state
  length_read_le : ∀ wanted state, (read wanted state).1.length ≤ wanted
  read_ne_nil : ∀ wanted state, 0 < wanted → contents state ≠ [] → (read wanted state).1 ≠ []

namespace ByteReader

variable {σ : Type} (reader : ByteReader σ)

def readLoop : ℕ → ℕ → σ → Option (Bytes × σ)
  | _, 0, state => some ([], state)
  | 0, _ + 1, _ => none
  | fuel + 1, wanted + 1, state =>
    let (got, next) := reader.read (wanted + 1) state
    if got = [] then none
    else (readLoop fuel (wanted + 1 - got.length) next).map fun (rest, last) => (got ++ rest, last)

def readExact (wanted : ℕ) (state : σ) : Option (Bytes × σ) := reader.readLoop wanted wanted state

variable {reader}

variable {wanted : ℕ} {st next : σ} {got : Bytes}

theorem contents_of_read (ans : reader.read wanted st = (got, next)) :
    reader.contents st = got ++ reader.contents next := by
  have joined := reader.read_append wanted st
  rw [ans] at joined
  exact joined.symm

theorem length_of_read (ans : reader.read wanted st = (got, next)) : got.length ≤ wanted := by
  have bound := reader.length_read_le wanted st
  rwa [ans] at bound

theorem ne_nil_of_read (ans : reader.read wanted st = (got, next)) (wantedPos : 0 < wanted)
    (ne : reader.contents st ≠ []) : got ≠ [] := by
  have productive := reader.read_ne_nil wanted st wantedPos ne
  rwa [ans] at productive

theorem readLoop_of_le {fuel : ℕ} (enough : wanted ≤ fuel)
    (avail : wanted ≤ (reader.contents st).length) :
    ∃ last, reader.readLoop fuel wanted st = some ((reader.contents st).take wanted, last) ∧
      reader.contents last = (reader.contents st).drop wanted := by
  induction fuel generalizing wanted st with
  | zero =>
    obtain rfl : wanted = 0 := by omega
    exact ⟨st, by simp [readLoop]⟩
  | succ fuel ih =>
    rcases wanted with _ | wanted
    · exact ⟨st, by simp [readLoop]⟩
    · have ne : reader.contents st ≠ [] := by
        intro empty
        simp [empty] at avail
      rcases ans : reader.read (wanted + 1) st with ⟨got, next⟩
      have gotNonempty := ne_nil_of_read ans (by omega) ne
      have gotPos := length_pos_iff.mpr gotNonempty
      have gotLe := length_of_read ans
      have split := contents_of_read ans
      rw [split, length_append] at avail
      have restAvailable : wanted + 1 - got.length ≤ (reader.contents next).length := by omega
      rcases ih (by omega) restAvailable with ⟨last, loop, lastContents⟩
      refine ⟨last, ?_, ?_⟩
      · rw [split, List.take_append, take_of_length_le gotLe]
        simp [readLoop, ans, gotNonempty, loop]
      · rw [split, drop_append, drop_of_length_le gotLe, lastContents, nil_append]

theorem readLoop_of_lt {fuel : ℕ} (short : (reader.contents st).length < wanted) :
    reader.readLoop fuel wanted st = none := by
  induction fuel generalizing wanted st with
  | zero =>
    obtain ⟨wanted, rfl⟩ : ∃ smaller, wanted = smaller + 1 := ⟨wanted - 1, by omega⟩
    rfl
  | succ fuel ih =>
    obtain ⟨wanted, rfl⟩ : ∃ smaller, wanted = smaller + 1 := ⟨wanted - 1, by omega⟩
    rcases ans : reader.read (wanted + 1) st with ⟨got, next⟩
    rw [contents_of_read ans, length_append] at short
    have restShort : (reader.contents next).length < wanted + 1 - got.length := by omega
    simp only [readLoop, ans, ih restShort, Option.map_none, ite_self]

theorem readExact_of_le (avail : wanted ≤ (reader.contents st).length) :
    ∃ last, reader.readExact wanted st = some ((reader.contents st).take wanted, last) ∧
      reader.contents last = (reader.contents st).drop wanted :=
  readLoop_of_le le_rfl avail

theorem readExact_of_lt (short : (reader.contents st).length < wanted) :
    reader.readExact wanted st = none :=
  readLoop_of_lt short

theorem readExact_eq_none (failure : reader.readExact wanted st = none) :
    (reader.contents st).length < wanted := by
  by_contra enough
  rcases readExact_of_le (Nat.le_of_not_lt enough) with ⟨last, success, -⟩
  rw [success] at failure
  contradiction

theorem readExact_eq_some {last : σ} (success : reader.readExact wanted st = some (got, last)) :
    wanted ≤ (reader.contents st).length ∧ got = (reader.contents st).take wanted ∧
      reader.contents last = (reader.contents st).drop wanted := by
  by_cases avail : wanted ≤ (reader.contents st).length
  · rcases readExact_of_le avail with ⟨want, exact, lastContents⟩
    rw [exact, Option.some.injEq, Prod.mk.injEq] at success
    rcases success with ⟨rfl, rfl⟩
    exact ⟨avail, rfl, lastContents⟩
  · rw [readExact_of_lt (by omega)] at success
    contradiction

theorem readExact_invariant {inv : σ → Prop}
    (preserved : ∀ wanted st, inv st → inv (reader.read wanted st).2) {last : σ} (holds : inv st)
    (success : reader.readExact wanted st = some (got, last)) : inv last := by
  suffices loop : ∀ fuel wanted st got, inv st →
      reader.readLoop fuel wanted st = some (got, last) → inv last from
    loop wanted wanted st got holds success
  intro fuel
  induction fuel with
  | zero =>
    intro wanted st got holds success
    rcases wanted with _ | wanted
    · simp only [readLoop, Option.some.injEq, Prod.mk.injEq] at success
      exact success.2 ▸ holds
    · contradiction
  | succ fuel ih =>
    intro wanted st got holds success
    rcases wanted with _ | wanted
    · simp only [readLoop, Option.some.injEq, Prod.mk.injEq] at success
      exact success.2 ▸ holds
    · simp only [readLoop] at success
      split at success
      · contradiction
      · rcases Option.map_eq_some_iff.mp success with ⟨⟨rest, final⟩, loop, equal⟩
        rcases Prod.mk.inj equal with ⟨-, rfl⟩
        exact ih _ _ _ (preserved _ _ holds) loop

end ByteReader

structure BufReader where
  buffered : Bytes
  source : Bytes
  deriving DecidableEq

namespace BufReader

def read (capacity : ℕ) (direct : Bool) (wanted : ℕ) (reader : BufReader) : Bytes × BufReader :=
  if reader.buffered = [] then
    if direct = true ∧ capacity ≤ wanted then
      (reader.source.take wanted, ⟨[], reader.source.drop wanted⟩)
    else
      let filled := reader.source.take capacity
      (filled.take wanted, ⟨filled.drop wanted, reader.source.drop capacity⟩)
  else
    (reader.buffered.take wanted, ⟨reader.buffered.drop wanted, reader.source⟩)

end BufReader

variable (capacity : ℕ)

def bufReader (direct : Bool) (capacityPos : 0 < capacity) : ByteReader BufReader where
  start bytes := ⟨[], bytes⟩
  contents reader := reader.buffered ++ reader.source
  read := BufReader.read capacity direct
  contents_start _ := rfl
  read_append wanted reader := by
    simp only [BufReader.read]
    split
    · split
      · simp [*]
      · simp [*, ← append_assoc]
    · simp [← append_assoc]
  length_read_le wanted reader := by
    simp only [BufReader.read]
    split
    · split <;> simp
    · simp
  read_ne_nil wanted reader wantedPos nonempty := by
    simp only [BufReader.read]
    split
    · split <;> simp_all <;> omega
    · simp_all
      omega

namespace BufReader

variable {cap : ℕ} {direct : Bool}

def room (capacity phase : ℕ) : ℕ :=
  if phase = 0 then 0 else capacity - phase

def atPhase (capacity phase : ℕ) (contents : Bytes) : BufReader :=
  ⟨contents.take (room capacity phase), contents.drop (room capacity phase)⟩

def refillPhase (direct : Bool) (wanted : ℕ) : ℕ :=
  if wanted < capacity then wanted else if direct then 0 else wanted % capacity

def exactPhase (direct : Bool) (phase wanted : ℕ) : ℕ :=
  if phase = 0 then refillPhase capacity direct wanted
  else if phase + wanted < capacity then phase + wanted
  else refillPhase capacity direct (phase + wanted - capacity)

def answered (direct : Bool) (phase wanted : ℕ) : ℕ :=
  if phase = 0 then (if direct = true ∧ capacity ≤ wanted then wanted else min wanted capacity)
  else min wanted (capacity - phase)

def nextPhase (capacity phase wanted : ℕ) : ℕ :=
  if phase = 0 then (if wanted < capacity then wanted else 0)
  else if phase + wanted < capacity then phase + wanted else 0

variable (capacityPos : 0 < cap)

@[simp]
theorem contents_atPhase (phase : ℕ) (contents : Bytes) :
    (bufReader cap direct capacityPos).contents (atPhase cap phase contents) = contents := by
  simp [bufReader, atPhase]

theorem start_eq_atPhase (contents : Bytes) :
    (bufReader cap direct capacityPos).start contents = atPhase cap 0 contents := by
  simp [bufReader, atPhase, room]

theorem nextPhase_lt (capacityPos : 0 < cap) (phase wanted : ℕ) :
    nextPhase cap phase wanted < cap := by
  unfold nextPhase
  split <;> split <;> omega

theorem refillPhase_lt (capacityPos : 0 < cap) (wanted : ℕ) :
    refillPhase cap direct wanted < cap := by
  unfold refillPhase
  split
  · assumption
  · split
    · exact capacityPos
    · exact Nat.mod_lt _ capacityPos

theorem exactPhase_lt (capacityPos : 0 < cap) (phase wanted : ℕ) :
    exactPhase cap direct phase wanted < cap := by
  unfold exactPhase
  split
  · exact refillPhase_lt capacityPos wanted
  · split
    · assumption
    · exact refillPhase_lt capacityPos _

variable {phase wanted : ℕ}

theorem read_atPhase (direct : Bool) {contents : Bytes} (phaseLt : phase < cap)
    (wantedPos : 0 < wanted) (ne : contents ≠ []) :
    read cap direct wanted (atPhase cap phase contents) =
      (contents.take (answered cap direct phase wanted), atPhase cap (nextPhase cap phase wanted)
          (contents.drop (answered cap direct phase wanted))) := by
  by_cases phaseZero : phase = 0
  · subst phase
    by_cases small : wanted < cap
    · have notDirect : ¬(direct = true ∧ cap ≤ wanted) := by omega
      have wantedNe : wanted ≠ 0 := by omega
      have joined : wanted + (cap - wanted) = cap := by omega
      simp [read, atPhase, room, answered, nextPhase, notDirect, small, wantedNe,
        take_take, drop_take, small.le, joined]
    · by_cases bypass : direct = true
      · simp [read, atPhase, room, answered, nextPhase, bypass, small, Nat.le_of_not_lt small]
      · have capacityLe : cap ≤ wanted := Nat.le_of_not_lt small
        simp [read, atPhase, room, answered, nextPhase, bypass, small, take_take, capacityLe]
  · have bufferedNonempty : contents.take (cap - phase) ≠ [] := by
      simp only [ne_eq, take_eq_nil_iff, not_or]
      exact ⟨by omega, ne⟩
    by_cases small : phase + wanted < cap
    · have wantedLe : wanted ≤ cap - phase := by omega
      have left : cap - phase - wanted = cap - (phase + wanted) := by omega
      have joined : wanted + (cap - (phase + wanted)) = cap - phase := by omega
      simp [read, atPhase, room, answered, nextPhase, phaseZero, bufferedNonempty, small,
        take_take, drop_take, wantedLe, left, joined]
    · have roomLe : cap - phase ≤ wanted := by omega
      simp [read, atPhase, room, answered, nextPhase, phaseZero, bufferedNonempty, small,
        take_take, drop_take, roomLe]

theorem exactPhase_zero (phaseLt : phase < cap) : exactPhase cap direct phase 0 = phase := by
  unfold exactPhase refillPhase
  split
  · subst phase
    rw [if_pos phaseLt]
  · rw [if_pos (by omega), Nat.add_zero]

theorem exactPhase_step (phaseLt : phase < cap) : exactPhase cap direct (nextPhase cap phase wanted)
        (wanted - answered cap direct phase wanted) =
      exactPhase cap direct phase wanted := by
  by_cases phaseZero : phase = 0
  · subst phase
    by_cases small : wanted < cap
    · have notDirect : ¬(direct = true ∧ cap ≤ wanted) := by omega
      simp only [answered, nextPhase, if_true, if_pos small, if_neg notDirect,
        Nat.min_eq_left small.le, Nat.sub_self, exactPhase_zero small]
      simp [exactPhase, refillPhase, small]
    · by_cases bypass : direct = true
      · simp [answered, nextPhase, exactPhase, refillPhase, bypass, small, Nat.le_of_not_lt small]
      · have capacityLe : cap ≤ wanted := Nat.le_of_not_lt small
        have wrap : wanted % cap = (wanted - cap) % cap := Nat.mod_eq_sub_mod capacityLe
        simp only [answered, nextPhase, exactPhase, refillPhase, bypass, small, if_true,
          if_false, Nat.min_eq_right capacityLe, wrap, Bool.false_eq_true, false_and]
        split
        · rw [Nat.mod_eq_of_lt ‹_›]
        · rfl
  · by_cases small : phase + wanted < cap
    · have wantedLe : wanted ≤ cap - phase := by omega
      simp only [answered, nextPhase, if_neg phaseZero, if_pos small,
        Nat.min_eq_left wantedLe, Nat.sub_self, exactPhase_zero small]
      simp [exactPhase, phaseZero, small]
    · have roomLe : cap - phase ≤ wanted := by omega
      have left : wanted - (cap - phase) = phase + wanted - cap := by omega
      simp [answered, nextPhase, exactPhase, phaseZero, small, Nat.min_eq_right roomLe, left]

theorem answered_pos (direct : Bool) (phaseLt : phase < cap) (wantedPos : 0 < wanted) :
    0 < answered cap direct phase wanted := by
  unfold answered
  split
  · split <;> omega
  · omega

theorem answered_le (cap : ℕ) (direct : Bool) (phase wanted : ℕ) :
    answered cap direct phase wanted ≤ wanted := by
  unfold answered
  split
  · split <;> omega
  · omega

theorem nextPhase_eq_exactPhase (phaseLt : phase < cap)
    (whole : answered cap direct phase wanted = wanted) :
    nextPhase cap phase wanted = exactPhase cap direct phase wanted := by
  rw [← exactPhase_step phaseLt, whole, Nat.sub_self,
    exactPhase_zero (nextPhase_lt (by omega) phase wanted)]

theorem readExact_atPhase {contents : Bytes}
    (phaseLt : phase < cap) (avail : wanted ≤ contents.length) :
    (bufReader cap direct capacityPos).readExact wanted (atPhase cap phase contents) =
      some (contents.take wanted,
        atPhase cap (exactPhase cap direct phase wanted) (contents.drop wanted)) := by
  suffices loop : ∀ fuel, wanted ≤ fuel → (bufReader cap direct capacityPos).readLoop fuel wanted
          (atPhase cap phase contents) =
        some (contents.take wanted,
          atPhase cap (exactPhase cap direct phase wanted) (contents.drop wanted)) from
    loop wanted le_rfl
  intro fuel enough
  induction fuel generalizing wanted phase contents with
  | zero =>
    obtain rfl : wanted = 0 := by omega
    simp [ByteReader.readLoop, exactPhase_zero phaseLt]
  | succ fuel ih =>
    rcases wanted with _ | wanted
    · simp [ByteReader.readLoop, exactPhase_zero phaseLt]
    · have ne : contents ≠ [] := by
        intro empty
        simp [empty] at avail
      have wantedPos : 0 < wanted + 1 := by omega
      have call := read_atPhase direct phaseLt wantedPos ne
      have stepPos := answered_pos direct phaseLt wantedPos
      have stepLe := answered_le cap direct phase (wanted + 1)
      have gotLength : (contents.take (answered cap direct phase (wanted + 1))).length =
          answered cap direct phase (wanted + 1) := by
        rw [length_take]
        omega
      have gotNonempty : contents.take (answered cap direct phase (wanted + 1)) ≠ [] := by
        rw [← length_pos_iff, gotLength]
        exact stepPos
      have restAvailable : wanted + 1 - answered cap direct phase (wanted + 1) ≤
          (contents.drop (answered cap direct phase (wanted + 1))).length := by
        rw [length_drop]
        omega
      have rest := ih (nextPhase_lt capacityPos phase (wanted + 1)) restAvailable (by omega)
      rw [exactPhase_step phaseLt, drop_drop, Nat.add_sub_cancel' stepLe] at rest
      have joined : contents.take (answered cap direct phase (wanted + 1)) ++
          (contents.drop (answered cap direct phase (wanted + 1))).take
            (wanted + 1 - answered cap direct phase (wanted + 1)) =
          contents.take (wanted + 1) := by
        rw [← take_add, Nat.add_sub_cancel' stepLe]
      simp only [ByteReader.readLoop, bufReader] at rest ⊢
      simp only [call, gotLength, if_neg gotNonempty, rest, Option.map_some, joined]

end BufReader

end Barista
