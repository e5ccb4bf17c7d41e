import Barista.Cache.KillSafety

/-!
# Threads on one index

The locks of the index are taken per step and not per operation, so that the steps of several
threads interleave. A compaction may drop the entry of a mutation that is not yet in the map.
-/

namespace Barista.Cache

open FsM Journal JournalIter Index

inductive ThreadStep where
  | append (entry : JournalEntry)
  | update
  | compact
  deriving DecidableEq

structure SharedIndex (τ : Type) where
  disk : Disk
  index : Index
  pending : List (τ × JournalEntry)

namespace SharedIndex

variable {τ : Type} [DecidableEq τ] (codec : Codec) (direct : Bool)

def step (shared : SharedIndex τ) (thread : τ) : ThreadStep → Option (SharedIndex τ)
  | .append entry =>
    if shared.pending.any (·.1 = thread) then none
    else
      match (Journal.append codec entry).run shared.disk () with
      | (.ok _, final) =>
        some { shared with disk := final.disk, pending := shared.pending ++ [(thread, entry)] }
      | (.error _, final) => some { shared with disk := final.disk }
  | .update =>
    (shared.pending.find? (·.1 = thread)).map fun call =>
      { shared with
        index := { shared.index with state := shared.index.state.replayEntry call.2 }
        pending := shared.pending.eraseP (·.1 = thread) }
  | .compact =>
    if shared.pending.any (·.1 = thread) then none
    else
      let final := ((Index.compact codec).run shared.disk shared.index).2
      some { shared with disk := final.disk, index := final.memory }

def run (shared : SharedIndex τ) : List (τ × ThreadStep) → Option (SharedIndex τ)
  | [] => some shared
  | (thread, next) :: later =>
    (shared.step codec thread next).bind fun after => after.run later

/-- Appends are aligned, updates of a key keep their order, and compaction waits for them. -/
def Orderly (shared : SharedIndex τ) (thread : τ) : ThreadStep → Prop
  | .append entry => ReadableAppend codec direct shared.disk entry
  | .update => ∀ before entry after, shared.pending = before ++ (thread, entry) :: after →
      ∀ earlier ∈ before, journalLog.key earlier.2 ≠ journalLog.key entry
  | .compact => shared.pending = []

def OrderlyRun (shared : SharedIndex τ) : List (τ × ThreadStep) → Prop
  | [] => True
  | (thread, next) :: later => shared.Orderly codec direct thread next ∧
      ∀ after, shared.step codec thread next = some after → after.OrderlyRun later

def Consistent (shared : SharedIndex τ) : Prop :=
  ∃ payloads, InStep codec direct shared.disk payloads
    (journalLog.replay shared.index.state.entries (shared.pending.map Prod.snd))

section Steps

variable {codec direct} {shared post : SharedIndex τ} {thread : τ}

theorem Consistent.append (faithful : codec.Faithful) {entry : JournalEntry}
    (consistent : shared.Consistent codec direct)
    (readable : ReadableAppend codec direct shared.disk entry)
    (taken : shared.step codec thread (.append entry) = some post) :
    post.Consistent codec direct := by
  rcases consistent with ⟨bodies, inStep⟩
  simp only [step] at taken
  split at taken
  · contradiction
  rcases fits_or_not codec entry with ⟨body, enc, fits⟩ | writable
  · rw [FsM.run, append_of_encode enc fits] at taken
    cases taken
    refine ⟨bodies ++ [body], ?_⟩
    rw [List.map_append, List.map_singleton, KeyedLog.replay_concat]
    exact inStep.append faithful enc fits readable
  · rcases append_of_not_encode writable (⟨shared.disk, [], ()⟩ : FsState Unit) with
      ⟨err, rejected⟩
    rw [FsM.run, rejected] at taken
    cases taken
    exact ⟨bodies, inStep⟩

theorem Consistent.update (consistent : shared.Consistent codec direct)
    (ord : shared.Orderly codec direct thread .update)
    (taken : shared.step codec thread .update = some post) :
    post.Consistent codec direct := by
  rcases consistent with ⟨bodies, inStep⟩
  rcases Option.map_eq_some_iff.mp taken with ⟨⟨owner, entry⟩, found, rfl⟩
  rcases List.find?_eq_some_iff_append.mp found with ⟨owns, pre, later, split, others⟩
  have same : owner = thread := by simpa using owns
  subst same
  have differ := ord pre entry later split
  refine ⟨bodies, ?_⟩
  have erased : shared.pending.eraseP (fun call => decide (call.1 = owner)) = pre ++ later := by
    rw [split, List.eraseP_append_right _ (by simpa using others)]
    simp
  have replayed : journalLog.replay (journalLog.apply shared.index.state.entries entry)
      ((pre ++ later).map Prod.snd) =
      journalLog.replay shared.index.state.entries (shared.pending.map Prod.snd) := by
    rw [split, List.map_append, List.map_append, List.map_cons, KeyedLog.replay_append,
      KeyedLog.replay_append, KeyedLog.replay_cons, KeyedLog.apply_replay_comm]
    simpa using fun prior owner mem => differ (owner, prior) mem
  simp only [erased, IndexState.replayEntry, JournalEntry.applyTo_eq]
  rw [replayed]
  exact inStep

section Runs

variable (faithful : codec.Faithful) (consistent : shared.Consistent codec direct)

include faithful consistent

theorem Consistent.compact
    (nothing : shared.pending = []) (taken : shared.step codec thread .compact = some post) :
    post.Consistent codec direct := by
  rcases consistent with ⟨bodies, inStep⟩
  rcases IndexCall.compaction_compact codec ⟨shared.disk, [], shared.index⟩ with
    ⟨compaction, compacts, map, -, files⟩
  simp only [step] at taken
  split at taken
  · contradiction
  rw [nothing] at inStep
  rcases inStep.compaction faithful compacts with ⟨left, compacted⟩
  cases taken
  refine ⟨left, ?_⟩
  simp only [nothing, FsM.run, map, files]
  exact compacted

theorem Consistent.step {next : ThreadStep} (ord : shared.Orderly codec direct thread next)
    (taken : shared.step codec thread next = some post) : post.Consistent codec direct := by
  cases next with
  | append entry => exact consistent.append faithful ord taken
  | update => exact consistent.update ord taken
  | compact => exact consistent.compact faithful ord taken

theorem Consistent.run {list : List (τ × ThreadStep)} (ord : shared.OrderlyRun codec direct list)
    (reached : shared.run codec list = some post) : post.Consistent codec direct := by
  induction list generalizing shared with
  | nil =>
    cases reached
    exact consistent
  | cons head later ih =>
    rcases Option.bind_eq_some_iff.mp reached with ⟨mid, taken, rest⟩
    exact ih (consistent.step faithful ord.1 taken) (ord.2 mid taken) rest

end Runs

end Steps

section Uninterrupted

variable {codec} {disk : Disk} {idx : Index} {thread : τ} {entry : JournalEntry}

theorem step_append_of_encode {body : Bytes} (enc : codec.encodeEntry entry = .ok body)
    (fits : FitsFrame body) :
    step codec ⟨disk, idx, []⟩ thread (.append entry) =
      some ⟨performAll disk (appendCalls (frame codec.crc32 body)), idx, [(thread, entry)]⟩ := by
  simp only [step, FsM.run, append_of_encode enc fits]
  rfl

theorem step_update_single : step codec ⟨disk, idx, [(thread, entry)]⟩ thread .update =
      some ⟨disk, { idx with state := idx.state.replayEntry entry }, []⟩ := by
  simp [step]

theorem step_compact (st : FsState Index) {pending : List (τ × JournalEntry)}
    (idle : pending.any (·.1 = thread) = false) :
    step codec ⟨st.disk, st.memory, pending⟩ thread .compact =
      some ⟨(Index.compact codec st).2.disk, (Index.compact codec st).2.memory, pending⟩ := by
  rcases enc : codec.encodeSnapshot st.memory.state.entries.toList with detail | body
  · have here : Index.compact codec ⟨st.disk, [], st.memory⟩ = _ := compact_of_not_encode enc
    rw [compact_of_not_encode enc]
    simp only [step, idle, FsM.run, here]
    rfl
  · have here : Index.compact codec ⟨st.disk, [], st.memory⟩ = _ := compact_of_encode enc
    rw [compact_of_encode enc]
    simp only [step, idle, FsM.run, here]
    rfl

/-- A mutation that no other thread interrupts is a run of its steps. -/
theorem run_mutate (thread : τ) (entry : JournalEntry) (st : FsState Index) :
    ∃ list : List ThreadStep,
      run codec ⟨st.disk, st.memory, []⟩ (list.map fun next => (thread, next)) =
        some ⟨(mutate codec entry st).2.disk, (mutate codec entry st).2.memory, []⟩ := by
  rcases fits_or_not codec entry with ⟨body, enc, fits⟩ | writable
  · rw [mutate_of_encode enc fits, maybeCompact, bind_apply, getMemory_apply]
    dsimp only
    split
    · refine ⟨[.append entry, .update, .compact], ?_⟩
      simp only [List.map_cons, List.map_nil, run, step_append_of_encode enc fits,
        Option.bind_some, step_update_single, Option.bind_fun_some]
      exact step_compact { st.after (appendCalls (frame codec.crc32 body)) with
        memory := { st.memory with state := st.memory.state.replayEntry entry } } rfl
    · refine ⟨[.append entry, .update], ?_⟩
      simp only [List.map_cons, List.map_nil, run, step_append_of_encode enc fits,
        Option.bind_some, step_update_single]
      rfl
  · rcases mutate_of_not_encode writable st with ⟨err, unchanged⟩
    exact ⟨[], by rw [unchanged]; rfl⟩

end Uninterrupted

section Reopening

variable {codec direct}

/-- After an orderly run in which all calls have returned, reopening the directory loads the
map that the threads share. -/
theorem reopens_after_orderly_run (faithful : codec.Faithful) {μ : Type} {recover : Bool}
    {before opened : FsState μ} {index : Index} {report : OpenReport}
    (success : openInner codec (journalReader direct) recover before =
      (.ok (index, report), opened))
    {list : List (τ × ThreadStep)} {shared : SharedIndex τ}
    (orderly : OrderlyRun codec direct ⟨opened.disk, index, []⟩ list)
    (reached : run codec ⟨opened.disk, index, []⟩ list = some shared)
    (returned : shared.pending = []) :
    Reopens codec (journalReader direct) shared.disk shared.index.state.entries := by
  rcases openInner_sound success with ⟨header, base, payloads, entries, rest, found⟩
  have start : Consistent codec direct (⟨opened.disk, index, []⟩ : SharedIndex τ) :=
    ⟨payloads, found.inStep⟩
  rcases start.run faithful orderly reached with ⟨left, inStep⟩
  rw [returned] at inStep
  exact inStep.opened.reopens

def freshIndex : Index := ⟨IndexState.empty, defaultCompactThreshold⟩

theorem openInner_fresh :
    openInner bincode (journalReader true) false (⟨Disk.fresh, [], ()⟩ : FsState Unit) =
      (.ok (freshIndex, OpenReport.clean), ⟨bareDisk, openCalls Disk.fresh, ()⟩) :=
  openInner_of_represents IndexCall.represents_fresh
    (readsWhole_of_short bincode true (by decide)).prefixesWhole false ()

/-- One thread puts an entry, another one compacts afterwards. -/
theorem reopens_after_put_and_compact : ∃ shared : SharedIndex Bool,
      run bincode ⟨bareDisk, freshIndex, []⟩
          [(false, .append (.put springCoreSources IndexCall.springCoreEntry)), (false, .update),
            (true, .compact)] = some shared ∧
        Reopens bincode (journalReader true) shared.disk shared.index.state.entries := by
  rcases IndexCall.encode_springCorePut with ⟨payload, encoded, fits⟩
  have reached : ∃ shared : SharedIndex Bool, shared.pending = [] ∧
      run bincode ⟨bareDisk, freshIndex, []⟩
        [(false, .append (.put springCoreSources IndexCall.springCoreEntry)), (false, .update),
          (true, .compact)] = some shared := by
    simp only [run, step_append_of_encode encoded fits, Option.bind_some, step_update_single,
      Option.bind_fun_some]
    exact ⟨_, rfl, step_compact ⟨_, [], _⟩ rfl⟩
  have orderly : (⟨bareDisk, freshIndex, []⟩ : SharedIndex Bool).OrderlyRun bincode true
      [(false, .append (.put springCoreSources IndexCall.springCoreEntry)), (false, .update),
        (true, .compact)] := by
    simp only [OrderlyRun, step_append_of_encode encoded fits, Option.some.injEq,
      forall_eq', step_update_single]
    refine ⟨readableAppend_bareDisk _, ?_, rfl, fun _ _ => trivial⟩
    intro before entry later pending earlier member
    rcases before with _ | ⟨head, before⟩
    · simp at member
    · simp at pending
  rcases reached with ⟨shared, returned, reached⟩
  exact ⟨shared, reached,
    reopens_after_orderly_run bincode_faithful openInner_fresh orderly reached returned⟩

/-- The compaction comes between the two steps of the put: the entry is in memory only. -/
theorem compaction_loses_pending_put : ∃ shared : SharedIndex Bool,
      run bincode ⟨bareDisk, freshIndex, []⟩
          [(false, .append (.put springCoreSources IndexCall.springCoreEntry)), (true, .compact),
            (false, .update)] = some shared ∧
        shared.pending = [] ∧
        shared.index.get springCoreSources = some IndexCall.springCoreEntry ∧
        Reopens bincode (journalReader true) shared.disk ∅ := by
  rcases IndexCall.encode_springCorePut with ⟨payload, encoded, fits⟩
  have body : bincode.encodeSnapshot freshIndex.state.entries.toList = .ok [0] := by
    decide
  have compacting : step bincode ⟨performAll bareDisk (appendCalls (frame bincode.crc32 payload)),
      freshIndex, [(false, .put springCoreSources IndexCall.springCoreEntry)]⟩ true .compact = _ :=
    step_compact ⟨_, [], freshIndex⟩ rfl
  rw [compact_of_encode body] at compacting
  rw [run, step_append_of_encode encoded fits, Option.bind_some, run, compacting,
    Option.bind_some, run, step_update_single, Option.bind_some]
  refine ⟨_, rfl, rfl, ?_, ?_⟩
  · exact Std.ExtTreeMap.getElem?_insert_self
  · simp only [FsState.disk_after, performAll_compactCalls]
    exact (inStep_compacted bincode_faithful body).opened.reopens

end Reopening

end SharedIndex

end Barista.Cache
