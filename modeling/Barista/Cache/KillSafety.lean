import Barista.Cache.Recovery

/-!
# The index after a kill

A disk stores a map if replaying its journal over its snapshot gives the map. Each call of the
index is a list of writes, and what is stored is followed through every prefix of it.
-/

namespace Barista.Cache

open FsM Journal JournalIter

section Stored

open List

namespace Index

variable {σ : Type} (codec : Codec) (reader : ByteReader σ)

/-- Replaying the journal over the snapshot gives the map. -/
def Stores (disk : Disk) (payloads : List Bytes) (map : IndexMap) : Prop :=
  ∃ header base entries, Represents codec disk header base payloads entries ∧
    map = journalLog.replay base entries

/-- The index opens with this map, with and without recovery, and reports nothing. -/
def Reopens (disk : Disk) (map : IndexMap) : Prop :=
  ∀ recover : Bool, ∃ index final,
    (openInner codec reader recover).run disk () = (.ok (index, OpenReport.clean), final) ∧
      index.state.entries = map

variable {codec reader} {disk : Disk} {bodies : List Bytes} {map : IndexMap} {body : Bytes}

theorem Stores.reopens
    (stores : Stores codec { disk with journal := some (openedJournal disk) } bodies map)
    (whole : PrefixesWhole codec reader (recordsOf reader (openedJournal disk))) :
    Reopens codec reader disk map := by
  rcases stores with ⟨hdr, base, entries, represents, rfl⟩
  intro recover
  exact ⟨_, _, openInner_of_represents represents whole recover (), rfl⟩

theorem Stores.opened (stores : Stores codec disk bodies map) :
    Stores codec { disk with journal := some (openedJournal disk) } bodies map := by
  rcases stores with ⟨hdr, base, entries, represents, mapEq⟩
  exact ⟨hdr, base, entries, represents.opened, mapEq⟩

theorem Stores.congr {other : Disk} (stores : Stores codec disk bodies map)
    (snapshot : other.snapshot = disk.snapshot) (journal : other.journal = disk.journal) :
    Stores codec other bodies map := by
  rcases stores with ⟨hdr, base, entries, represents, mapEq⟩
  refine ⟨hdr, base, entries, ⟨?_, ?_, represents.validHeader,
    represents.headerLength, represents.fits, represents.decoded⟩, mapEq⟩
  · rw [← represents.loads, loadedState, loadedState, snapshot]
  · rw [journal, represents.journal]

theorem stores_of_openInner {μ : Type} {recover : Bool} {st final : FsState μ} {idx : Index}
    {report : OpenReport}
    (success : openInner codec reader recover st = (.ok (idx, report), final)) :
    ∃ bodies, Stores codec final.disk bodies idx.state.entries := by
  rcases openInner_sound success with ⟨hdr, base, bodies, entries, rest, opened⟩
  exact ⟨bodies, hdr, base, entries, opened.represents, opened.map⟩

theorem Stores.append (stores : Stores codec disk bodies map) {body : Bytes}
    {entry : JournalEntry} (fits : FitsFrame body) (decoded : codec.decodeEntry body = .ok entry) :
    Stores codec (performAll disk (appendCalls (frame codec.crc32 body)))
      (bodies ++ [body]) (journalLog.apply map entry) := by
  rcases stores with ⟨hdr, base, entries, represents, rfl⟩
  refine ⟨hdr, base, entries ++ [entry], ?_, ?_⟩
  · rw [performAll_appendCalls]
    refine ⟨represents.loads, ?_, represents.validHeader, represents.headerLength, ?_, ?_⟩
    · simp [Disk.journalBytes, represents.journal, frames_append, append_assoc]
    · simpa [or_imp, forall_and] using ⟨represents.fits, fits⟩
    · simp [represents.decoded, decoded]
  · rw [KeyedLog.replay_concat]

theorem foldl_insert_toList (map : IndexMap) :
    map.toList.foldl (fun entries entry => entries.insert entry.1 entry.2) ∅ = map := by
  have inserted : ∀ (list : List (IndexKey × IndexEntry)) (start : IndexMap),
      list.foldl (fun entries entry => entries.insert entry.1 entry.2) start =
        start.insertMany list := by
    intro list
    induction list with
    | nil => intro start; rw [Std.ExtTreeMap.insertMany_nil]; rfl
    | cons entry list ih => intro start; rw [Std.ExtTreeMap.insertMany_cons, ← ih]; rfl
  rw [inserted, ← Std.ExtTreeMap.ofList_eq_insertMany_empty]
  apply Std.ExtTreeMap.ext_getElem?
  intro key
  rcases found : map[key]? with _ | val
  · apply Std.ExtTreeMap.getElem?_ofList_of_contains_eq_false
    rw [← Bool.not_eq_true, contains_iff_mem, mem_map]
    rintro ⟨⟨other, val⟩, mem, rfl⟩
    rw [Std.ExtTreeMap.mem_toList_iff_getElem?_eq_some.mp mem] at found
    contradiction
  · exact Std.ExtTreeMap.getElem?_ofList_of_mem Std.ReflCmp.compare_self
      Std.ExtTreeMap.distinct_keys_toList
      (Std.ExtTreeMap.mem_toList_iff_getElem?_eq_some.mpr found)

section Snapshots

variable (decoded : codec.decodeSnapshot body = .ok map.toList)

include decoded

theorem loadSnapshot_snapshot :
    loadSnapshot codec (headerBytes snapshotVersion ++ body) = .ok ⟨map, 0⟩ := by
  have hdr : HasHeader snapshotVersion (headerBytes snapshotVersion ++ body) :=
    hasHeader_headerBytes_append (by decide) body
  simp only [loadSnapshot, hdr.validate, drop_left' (length_headerBytes _), decoded,
    foldl_insert_toList]

theorem Stores.snapshot (stores : Stores codec disk bodies map) :
    Stores codec (performAll disk (snapshotCalls body)) bodies map := by
  rcases stores with ⟨hdr, base, entries, represents, rfl⟩
  refine ⟨hdr, journalLog.replay base entries, entries, ?_, ?_⟩
  · rw [performAll_snapshotCalls]
    exact ⟨loadSnapshot_snapshot decoded, represents.journal, represents.validHeader,
      represents.headerLength, represents.fits, represents.decoded⟩
  · rw [journalLog.replay_replay]

theorem stores_snapshot (snapshot : disk.snapshot = some (headerBytes snapshotVersion ++ body))
    (journal : disk.journal = some (headerBytes journalVersion)) : Stores codec disk [] map := by
  refine ⟨headerBytes journalVersion, map, [], ⟨?_, by simp [journal], ?_,
    length_headerBytes _, by simp, rfl⟩, rfl⟩
  · rw [loadedState, snapshot]
    exact loadSnapshot_snapshot decoded
  · simpa using hasHeader_headerBytes_append (by decide) []

theorem Stores.compact : Stores codec (performAll disk (compactCalls body)) [] map := by
  rw [performAll_compactCalls]
  exact stores_snapshot decoded rfl rfl

end Snapshots

theorem performAll_take_prepareCalls (disk : Disk) (body : Bytes) (count : ℕ) :
    (performAll disk ((prepareCalls body).take count)).snapshot = disk.snapshot ∧
      (performAll disk ((prepareCalls body).take count)).journal = disk.journal := by
  have harmless : ∀ call ∈ (prepareCalls body).take count, ∀ disk : Disk,
      (call.perform disk).snapshot = disk.snapshot ∧
        (call.perform disk).journal = disk.journal := by
    intro call mem disk
    have prepares := mem_of_mem_take mem
    simp only [prepareCalls, mem_append, mem_cons, mem_map, not_mem_nil, or_false] at prepares
    rcases prepares with ((rfl | rfl) | ⟨bytes, -, rfl⟩) | rfl <;> exact ⟨rfl, rfl⟩
  generalize (prepareCalls body).take count = calls at harmless
  induction calls generalizing disk with
  | nil => exact ⟨rfl, rfl⟩
  | cons call calls ih =>
    simp only [forall_mem_cons] at harmless
    rcases ih (call.perform disk) harmless.2 with ⟨snapshot, journal⟩
    exact ⟨snapshot.trans (harmless.1 disk).1, journal.trans (harmless.1 disk).2⟩

theorem renameTmp_notMem_prepareCalls (body : Bytes) : .renameTmp ∉ prepareCalls body := by
  simp [prepareCalls]

theorem take_compactCalls (body : Bytes) (count : ℕ) :
    (compactCalls body).take count = (prepareCalls body).take count ∨
      ∃ done, (compactCalls body).take count = snapshotCalls body ++ truncateCalls.take done := by
  by_cases prep : count ≤ (prepareCalls body).length
  · left
    rw [compactCalls, snapshotCalls, append_assoc, take_append_of_le_length prep]
  · right
    refine ⟨count - (snapshotCalls body).length, ?_⟩
    rw [compactCalls, List.take_append, take_of_length_le]
    simp only [snapshotCalls, length_append, length_singleton]
    omega

end Index

inductive IndexCall where
  | put (key : IndexKey) (entry : IndexEntry)
  | remove (key : IndexKey)
  | touch (key : IndexKey) (atimeUnix : UInt64)
  | compact
  | setCompactThreshold (threshold : ℕ)
  deriving DecidableEq

namespace IndexCall

open Index

variable (codec : Codec) (journaled : Option JournalEntry) (map : IndexMap)

def program : IndexCall → FsM Index IndexError Unit
  | .put key entry => Index.put codec key entry
  | .remove key => do
    let _ ← Index.remove codec key
  | .touch key atimeUnix => do
    let _ ← Index.touch codec key atimeUnix
  | .compact => Index.compact codec
  | .setCompactThreshold threshold => do
    let index ← getMemory
    setMemory (index.setCompactThreshold threshold)

def journals : IndexCall → Option JournalEntry
  | .put key entry => some (.put key entry)
  | .remove key => some (.remove key)
  | .touch key atimeUnix => some (.touch key atimeUnix)
  | .compact | .setCompactThreshold _ => none

inductive Mutation : List FsCall → List Bytes → IndexMap → Prop where
  | none : Mutation [] [] map
  | append (entry : JournalEntry) (payload : Bytes) (journals : journaled = some entry)
      (encoded : codec.encodeEntry entry = .ok payload) (fits : FitsFrame payload) :
      Mutation (appendCalls (frame codec.crc32 payload)) [payload] (journalLog.apply map entry)

inductive Compaction : List FsCall → Prop where
  | none : Compaction []
  | abandoned : Compaction [.createIndexDir]
  | full (body : Bytes) (encoded : codec.encodeSnapshot map.toList = .ok body) :
      Compaction (compactCalls body)

structure Effect (state final : FsState Index) (mutation compaction : List FsCall)
    (records : List Bytes) : Prop where
  mutates : Mutation codec journaled state.memory.state.entries mutation records
    final.memory.state.entries
  compacts : Compaction codec final.memory.state.entries compaction
  after : final.calls = state.calls ++ (mutation ++ compaction) ∧
    final.disk = performAll state.disk (mutation ++ compaction)

theorem compaction_compact (st : FsState Index) :
    ∃ compaction, Compaction codec st.memory.state.entries compaction ∧
      (Index.compact codec st).2.memory.state.entries = st.memory.state.entries ∧
      (Index.compact codec st).2.calls = st.calls ++ compaction ∧
      (Index.compact codec st).2.disk = performAll st.disk compaction := by
  rcases enc : codec.encodeSnapshot st.memory.state.entries.toList with detail | body
  · rw [compact_of_not_encode enc]
    exact ⟨_, .abandoned, rfl, rfl, rfl⟩
  · rw [compact_of_encode enc]
    exact ⟨_, .full body enc, rfl, rfl, rfl⟩

theorem compaction_maybeCompact (st : FsState Index) :
    ∃ compaction, Compaction codec st.memory.state.entries compaction ∧
      (maybeCompact codec st).2.memory.state.entries = st.memory.state.entries ∧
      (maybeCompact codec st).2.calls = st.calls ++ compaction ∧
      (maybeCompact codec st).2.disk = performAll st.disk compaction := by
  simp only [maybeCompact, bind_apply, getMemory_apply]
  split
  · exact compaction_compact codec st
  · exact ⟨[], .none, rfl, by simp, rfl⟩

variable {codec} in
theorem effect_mutate (entry : JournalEntry) (st : FsState Index) : ∃ mutation compaction recs,
      Effect codec (some entry) st (mutate codec entry st).2 mutation compaction recs := by
  rcases fits_or_not codec entry with ⟨body, enc, fits⟩ | writable
  · rw [mutate_of_encode enc fits]
    rcases compaction_maybeCompact codec
      { st.after (appendCalls (frame codec.crc32 body)) with
      memory := { st.memory with state := st.memory.state.replayEntry entry } } with
      ⟨compaction, compacts, map, calls, disk⟩
    have applied : (st.memory.state.replayEntry entry).entries =
        journalLog.apply st.memory.state.entries entry := JournalEntry.applyTo_eq _ _
    refine ⟨appendCalls (frame codec.crc32 body), compaction, [body], ?_, ?_, ?_, ?_⟩
    · rw [map, applied]
      exact .append entry body rfl enc fits
    · rw [map]
      exact compacts
    · rw [calls, FsState.calls_after, append_assoc]
    · rw [disk, FsState.disk_after, performAll_append]
  · rcases mutate_of_not_encode writable st with ⟨err, unchanged⟩
    rw [unchanged]
    exact ⟨[], [], [], .none, .none, by simp, rfl⟩

theorem effect_program (call : IndexCall) (st : FsState Index) : ∃ mutation compaction recs,
      Effect codec call.journals st (call.program codec st).2 mutation compaction recs := by
  cases call with
  | put key entry => exact effect_mutate (.put key entry) st
  | remove key =>
    have discard : (program codec (.remove key) st).2 = (mutate codec (.remove key) st).2 := by
      simp only [program, bind_apply, remove_apply]
      rcases mutate codec (.remove key) st with ⟨_ | _, _⟩ <;> rfl
    rw [discard]
    exact effect_mutate (.remove key) st
  | touch key atimeUnix =>
    have discard : (program codec (.touch key atimeUnix) st).2 =
        (mutate codec (.touch key atimeUnix) st).2 := by
      simp only [program, bind_apply, touch_apply]
      rcases mutate codec (.touch key atimeUnix) st with ⟨_ | _, _⟩ <;> rfl
    rw [discard]
    exact effect_mutate (.touch key atimeUnix) st
  | compact =>
    rcases compaction_compact codec st with ⟨compaction, compacts, map, calls, disk⟩
    refine ⟨[], compaction, [], ?_, ?_, calls, disk⟩
    · rw [program, map]
      exact .none
    · rw [program, map]
      exact compacts
  | setCompactThreshold threshold =>
    exact ⟨[], [], [], .none, .none, by simp [program, bind_apply], rfl⟩

def session (codec : Codec) (state : FsState Index) (calls : List IndexCall) : FsState Index :=
  calls.foldl (fun state call => (call.program codec state).2) state

variable {codec map} {logged : Option JournalEntry} {disk : Disk} {bodies recs : List Bytes}
  {mutation compaction : List FsCall}

section Sessions

variable (faithful : codec.Faithful)

include faithful

theorem Mutation.stores {next : IndexMap} (mutates : Mutation codec logged map mutation recs next)
    (stores : Stores codec disk bodies map) :
    Stores codec (performAll disk mutation) (bodies ++ recs) next := by
  cases mutates with
  | none =>
    rw [append_nil]
    exact stores
  | append entry body journals enc fits =>
    exact stores.append fits (faithful.decodeEntry_of_encode entry body enc)

theorem Compaction.stores (compacts : Compaction codec map compaction)
    (stores : Stores codec disk bodies map) :
    ∃ left, Stores codec (performAll disk compaction) left map := by
  cases compacts with
  | none => exact ⟨bodies, stores⟩
  | abandoned => exact ⟨bodies, stores.congr rfl rfl⟩
  | full body enc => exact ⟨[], Stores.compact (faithful.decodeSnapshot_of_encode _ _ enc)⟩

theorem Effect.stores {st final : FsState Index}
    (effect : Effect codec logged st final mutation compaction recs)
    (stores : Stores codec st.disk bodies st.memory.state.entries) :
    ∃ left, Stores codec final.disk left final.memory.state.entries := by
  rw [effect.after.2, performAll_append]
  exact effect.compacts.stores faithful (effect.mutates.stores faithful stores)

theorem stores_session (st : FsState Index) (calls : List IndexCall)
    (stores : Stores codec st.disk bodies st.memory.state.entries) :
    ∃ left, Stores codec (session codec st calls).disk left
      (session codec st calls).memory.state.entries := by
  induction calls generalizing st bodies with
  | nil => exact ⟨bodies, stores⟩
  | cons call calls ih =>
    rcases effect_program codec call st with ⟨mutation, compaction, recs, effect⟩
    rcases effect.stores faithful stores with ⟨left, stored⟩
    exact ih _ stored

end Sessions

/-- The kill falls between the new snapshot and the next append. -/
def KilledMidCompaction (calls : List FsCall) (count : ℕ) : Prop :=
  ∃ before after, calls.take count = before ++ .renameTmp :: after ∧
    ∀ bytes, .appendJournal bytes ∉ after

theorem KilledMidCompaction.cases {next : IndexMap} {count : ℕ}
    (mutates : Mutation codec logged map mutation recs next)
    (compacts : Compaction codec next compaction)
    (killed : KilledMidCompaction (mutation ++ compaction) count) :
    ∃ body done, codec.encodeSnapshot next.toList = .ok body ∧ (mutation ++ compaction).take count =
        mutation ++ (snapshotCalls body ++ truncateCalls.take done) ∧
      ∀ bytes, .appendJournal bytes ∉ truncateCalls.take done := by
  rcases killed with ⟨pre, post, taken, noAppend⟩
  have renamed : .renameTmp ∈ (mutation ++ compaction).take count := by
    rw [taken]
    simp
  have notMutation : .renameTmp ∉ mutation := by
    cases mutates <;> simp [appendCalls]
  rw [List.take_append] at renamed taken ⊢
  have inCompaction : .renameTmp ∈ compaction.take (count - mutation.length) :=
    (mem_append.mp renamed).resolve_left fun mem =>
      notMutation (mem_of_mem_take mem)
  have mutationDone : mutation.take count = mutation := by
    apply take_of_length_le
    by_contra early
    rw [Nat.sub_eq_zero_of_le (by omega), take_zero] at inCompaction
    contradiction
  rw [mutationDone] at taken ⊢
  cases compacts with
  | none => simp at inCompaction
  | abandoned => simpa using mem_of_mem_take inCompaction
  | full body enc =>
    rcases take_compactCalls body (count - mutation.length) with early | ⟨done, late⟩
    · rw [early] at inCompaction
      exact absurd (mem_of_mem_take inCompaction) (renameTmp_notMem_prepareCalls body)
    · refine ⟨body, done, enc, by rw [late], ?_⟩
      -- The rename happens only once, so the two ways to split the calls at it agree.
      rw [late, snapshotCalls, append_assoc, singleton_append, ← append_assoc,
        append_cons_inj_of_notMem] at taken
      · rw [taken.2.2]
        exact noAppend
      · simpa using ⟨notMutation, renameTmp_notMem_prepareCalls body⟩
      · intro mem
        simpa [truncateCalls, writeHeader] using mem_of_mem_take mem

theorem stores_midCompaction (faithful : codec.Faithful) {body : Bytes} {done : ℕ}
    (stores : Stores codec disk bodies map) (enc : codec.encodeSnapshot map.toList = .ok body)
    (noAppend : ∀ bytes, .appendJournal bytes ∉ truncateCalls.take done) :
    let killed := performAll disk (snapshotCalls body ++ truncateCalls.take done)
    ∃ left, Stores codec { killed with journal := some (openedJournal killed) } left map := by
  rw [performAll_append]
  have decoded := faithful.decodeSnapshot_of_encode _ _ enc
  have renamed := stores.snapshot decoded
  match done, noAppend with
  | 0, _ => exact ⟨bodies, renamed.opened⟩
  | 1, _ => exact ⟨bodies, renamed.opened⟩
  | 2, _ | 3, _ =>
    refine ⟨[], ?_⟩
    apply stores_snapshot decoded <;>
      simp [performAll_snapshotCalls, truncateCalls, FsCall.perform, openedJournal,
        Disk.journalBytes]
  | done + 4, noAppend => exact absurd (by simp [truncateCalls, writeHeader]) (noAppend fileMagic)

/--
Whatever is called on an index, reopening its directory gives the map back; and so does
reopening it after a kill between the two halves of a compaction.
-/
theorem reopens_after_session (faithful : codec.Faithful) {σ : Type} {reader : ByteReader σ}
    {recover : Bool} {disk : Disk} {index : Index} {report : OpenReport} {start : FsState Unit}
    (opened : (openInner codec reader recover).run disk () = (.ok (index, report), start))
    (calls : List IndexCall) :
    let state := session codec ⟨start.disk, [], index⟩ calls
    (PrefixesWhole codec reader (recordsOf reader (openedJournal state.disk)) →
      Reopens codec reader state.disk state.memory.state.entries) ∧
    ∀ (call : IndexCall) (count : ℕ),
      let final := ((call.program codec).run state.disk state.memory).2
      let killed := (call.program codec).killedAfter state.disk state.memory count
      KilledMidCompaction final.calls count →
      PrefixesWhole codec reader (recordsOf reader (openedJournal killed)) →
      Reopens codec reader killed final.memory.state.entries := by
  intro state
  rcases stores_of_openInner opened with ⟨atStart, stored⟩
  rcases stores_session faithful ⟨start.disk, [], index⟩ calls stored with ⟨bodies, stores⟩
  refine ⟨fun whole => stores.opened.reopens whole, ?_⟩
  intro call count final killed midCompaction whole
  rcases effect_program codec call ⟨state.disk, [], state.memory⟩ with
    ⟨mutation, compaction, recs, effect⟩
  have issued : final.calls = mutation ++ compaction := by
    rw [← nil_append (mutation ++ compaction)]
    exact effect.after.1
  rw [issued] at midCompaction
  rcases midCompaction.cases effect.mutates effect.compacts with
    ⟨body, done, encoded, taken, noAppend⟩
  have mutated := effect.mutates.stores faithful stores
  have killedEq : killed = performAll (performAll state.disk mutation)
      (snapshotCalls body ++ truncateCalls.take done) := by
    rw [← performAll_append, ← taken, ← issued]
    rfl
  rw [killedEq] at whole ⊢
  rcases stores_midCompaction faithful mutated encoded noAppend with ⟨left, stored⟩
  exact stored.reopens whole

def springCoreEntry : IndexEntry := ⟨⟨Vector.replicate 32 0xAB⟩, 2048, none,
    ⟨"https://repo.example/maven2", none, none, none, .upstream⟩, 1700000000, 1700000000⟩

theorem encode_springCorePut :
    ∃ body, bincode.encodeEntry (.put springCoreSources springCoreEntry) =
      .ok body ∧ FitsFrame body := by
  refine ⟨(bincode.encodeEntry (.put springCoreSources springCoreEntry)).toOption.getD [], ?_, ?_⟩
  · decide
  · decide +kernel

theorem represents_fresh :
    Represents codec { Disk.fresh with journal := some (openedJournal Disk.fresh) }
      (headerBytes journalVersion) ∅ [] [] :=
  ⟨rfl, rfl, by simpa using hasHeader_headerBytes_append (by decide) [], length_headerBytes _,
    by simp, rfl⟩

theorem reopens_after_put : ∃ index start,
      (openInner bincode (journalReader true) false).run Disk.fresh () =
          (.ok (index, OpenReport.clean), start) ∧
      let state := session bincode ⟨start.disk, [], index⟩
        [.put springCoreSources springCoreEntry, .compact, .touch springCoreSources 1800000000]
      Reopens bincode (journalReader true) state.disk state.memory.state.entries ∧
      Reopens bincode (journalReader true)
        ((program bincode .compact).killedAfter state.disk state.memory 7)
        ((program bincode .compact).run state.disk state.memory).2.memory.state.entries := by
  have opened := openInner_of_represents represents_fresh
    (readsWhole_of_short bincode true (by decide)).prefixesWhole false ()
  refine ⟨_, _, opened, ?_⟩
  have durable := reopens_after_session bincode_faithful opened
    [.put springCoreSources springCoreEntry, .compact, .touch springCoreSources 1800000000]
  refine ⟨durable.1 (readsWhole_of_short bincode true (by decide +kernel)).prefixesWhole,
    durable.2 .compact 7 ?_ (readsWhole_of_short bincode true (by decide +kernel)).prefixesWhole⟩
  refine ⟨_, [.acquireLock, .setLenJournal 0],
    (take_append_drop 4 _).symm.trans (congrArg _ ?_), by simp⟩
  decide +kernel

end IndexCall

end Stored

namespace Index

variable {codec : Codec} {direct : Bool}

def Recovers (codec : Codec) (direct : Bool) (disk : Disk) (map : IndexMap) : Prop :=
  ∃ index report final,
    (openWithRecovery codec (journalReader direct)).run disk () = (.ok (index, report), final) ∧
      index.state.entries = map

structure InStep (codec : Codec) (direct : Bool) (disk : Disk) (payloads : List Bytes)
    (map : IndexMap) : Prop where
  stores : Stores codec disk payloads map
  aligned : Aligned direct 0 (payloads.map List.length)

variable {disk : Disk} {bodies : List Bytes} {map : IndexMap}

section Reopening

variable (inStep :
    InStep codec direct { disk with journal := some (openedJournal disk) } bodies map)

include inStep

theorem InStep.opens (recover : Bool) :
    ∃ idx, (openInner codec (journalReader direct) recover).run disk () =
        (.ok (idx, OpenReport.clean), (⟨disk, [], ()⟩ : FsState Unit).after (openCalls disk)) ∧
      idx.state.entries = map := by
  rcases inStep with ⟨⟨hdr, base, entries, represents, same⟩, aligned⟩
  have recs : (openedJournal disk).drop headerLen = frames codec.crc32 bodies := by
    rw [Option.some.inj represents.journal, ← represents.headerLength, List.drop_left]
  have whole : PrefixesWhole codec (journalReader direct)
      (recordsOf (journalReader direct) (openedJournal disk)) := by
    rw [recordsOf_journalReader, recs]
    exact prefixesWhole_of_aligned (by decide) represents.fits aligned
  exact ⟨_, openInner_of_represents represents whole recover (), same.symm⟩

theorem InStep.reopens : Reopens codec (journalReader direct) disk map := by
  intro recover
  rcases inStep.opens recover with ⟨idx, opened, same⟩
  exact ⟨idx, _, opened, same⟩

theorem InStep.recovers : Recovers codec direct disk map := by
  rcases inStep.opens true with ⟨idx, opened, same⟩
  exact ⟨idx, _, _, opened, same⟩

end Reopening

theorem InStep.opened (inStep : InStep codec direct disk bodies map) :
    InStep codec direct { disk with journal := some (openedJournal disk) } bodies map :=
  ⟨inStep.stores.opened, inStep.aligned⟩

theorem not_recovers_of_partialHeader (ne : disk.journalBytes ≠ [])
    (short : disk.journalBytes.length < headerLen) :
    ¬Recovers codec direct disk map := by
  rintro ⟨idx, report, final, opened, -⟩
  have valid := (openInner_preconditions opened).2
  rw [openedJournal, if_neg ne] at valid
  exact absurd valid.length (Nat.not_le.mpr short)

theorem Opened.inStep {recover : Bool} {final : Disk} {idx : Index} {report : OpenReport}
    {hdr : Bytes} {base : IndexMap} {entries : List JournalEntry} {rest : Bytes}
    (opened : Opened codec (journalReader direct) recover disk final idx report hdr base
      bodies entries rest) : InStep codec direct final bodies idx.state.entries := by
  refine ⟨⟨hdr, base, entries, opened.represents, opened.map⟩, ?_⟩
  have recs : (openedJournal disk).drop headerLen = frames codec.crc32 bodies ++ rest := by
    rw [opened.split, List.append_assoc, ← opened.represents.headerLength, List.drop_left]
  have wholes := opened.wholes
  rw [recordsOf_journalReader, recs] at wholes
  exact aligned_of_wholes (by decide) opened.represents.fits wholes

theorem inStep_empty (snapshot : disk.snapshot = none)
    (bareHeader : openedJournal disk = headerBytes journalVersion) :
    InStep codec direct { disk with journal := some (openedJournal disk) } [] ∅ := by
  refine ⟨⟨headerBytes journalVersion, ∅, [], ?_, rfl⟩, trivial⟩
  refine ⟨?_, ?_, ?_, length_headerBytes _, by simp, rfl⟩
  · simp [loadedState, snapshot, IndexState.empty]
  · rw [bareHeader]
    simp
  · simpa using hasHeader_headerBytes_append (by decide) []

def ReadableAppend (codec : Codec) (direct : Bool) (disk : Disk) (entry : JournalEntry) : Prop :=
  ∀ header payloads payload, disk.journal = some (header ++ frames codec.crc32 payloads) →
    header.length = headerLen → (∀ earlier ∈ payloads, FitsFrame earlier) →
    codec.encodeEntry entry = .ok payload → FitsFrame payload →
    Aligned direct 0 ((payloads ++ [payload]).map List.length)

theorem InStep.append (faithful : codec.Faithful) {entry : JournalEntry} {body : Bytes}
    (inStep : InStep codec direct disk bodies map)
    (enc : codec.encodeEntry entry = .ok body) (fits : FitsFrame body)
    (readable : ReadableAppend codec direct disk entry) :
    InStep codec direct (performAll disk (appendCalls (frame codec.crc32 body)))
      (bodies ++ [body]) (journalLog.apply map entry) := by
  refine ⟨inStep.stores.append fits (faithful.decodeEntry_of_encode entry body enc), ?_⟩
  rcases inStep.stores with ⟨hdr, base, entries, represents, -⟩
  exact readable hdr bodies body represents.journal represents.headerLength represents.fits enc fits

theorem InStep.compaction (faithful : codec.Faithful) {compaction : List FsCall}
    (inStep : InStep codec direct disk bodies map)
    (compacts : IndexCall.Compaction codec map compaction) :
    ∃ left, InStep codec direct (performAll disk compaction) left map := by
  cases compacts with
  | none => exact ⟨bodies, inStep⟩
  | abandoned => exact ⟨bodies, inStep.stores.congr rfl rfl, inStep.aligned⟩
  | full body enc =>
    exact ⟨[], Stores.compact (faithful.decodeSnapshot_of_encode _ _ enc), trivial⟩

theorem inStep_compacted (faithful : codec.Faithful) {body : Bytes}
    (enc : codec.encodeSnapshot map.toList = .ok body) :
    InStep codec direct ⟨true, some (headerBytes snapshotVersion ++ body), none,
      some (headerBytes journalVersion)⟩ [] map :=
  ⟨stores_snapshot (faithful.decodeSnapshot_of_encode _ _ enc) rfl rfl, trivial⟩

def bareDisk : Disk := ⟨true, none, none, some (headerBytes journalVersion)⟩

theorem inStep_bareDisk : InStep codec direct bareDisk [] ∅ := by
  have opened :
      InStep codec direct { bareDisk with journal := some (openedJournal bareDisk) } [] ∅ :=
    inStep_empty rfl rfl
  exact opened

theorem readableAppend_bareDisk (entry : JournalEntry) :
    ReadableAppend codec direct bareDisk entry := by
  intro hdr bodies body journal headerLength fits enc payloadFits
  have lengths := congrArg List.length (Option.some.inj journal)
  rw [length_headerBytes, List.length_append, headerLength] at lengths
  rcases bodies with _ | ⟨prior, bodies⟩
  · simp [Aligned, bufCapacity]
  · rw [frames_cons, List.length_append, length_frame] at lengths
    omega

end Index

open List
open FsCall (perform)
open Index IndexCall

def InsideHeader (done : List FsCall) : Prop := done.getLast? = some (.appendJournal fileMagic) ∨
    done.getLast? = some (.appendJournal (leBytes 4 journalVersion))

theorem not_insideHeader {done : List FsCall}
    (longWrites : ∀ bytes, .appendJournal bytes ∈ done → 4 < bytes.length) :
    ¬InsideHeader done := by
  rintro (last | last)
  · exact absurd (longWrites _ (mem_of_getLast? last)) (by decide)
  · exact absurd (longWrites _ (mem_of_getLast? last)) (by decide)

namespace IndexCall

variable {codec : Codec} {direct : Bool}

inductive KillPoint (codec : Codec) (direct : Bool) (before after : IndexMap)
    (done : List FsCall) (killed : Disk) : Prop where
  | partialHeader (inside : InsideHeader done) (nonempty : killed.journalBytes ≠ [])
      (short : killed.journalBytes.length < headerLen)
  | recoverable (outside : ¬InsideHeader done) (payloads : List Bytes) (map : IndexMap)
      (either : map = before ∨ map = after)
      (inStep : InStep codec direct { killed with journal := some (openedJournal killed) }
        payloads map)

variable {pre : IndexMap} {logged : Option JournalEntry} {map : IndexMap}
  {mutation : List FsCall} {recs : List Bytes} {disk : Disk} {bodies : List Bytes}

theorem KillPoint.recovers_iff {post : IndexMap} {done : List FsCall} {killed : Disk}
    (point : KillPoint codec direct pre post done killed) :
    (∃ map, Recovers codec direct killed map ∧ (map = pre ∨ map = post)) ↔ ¬InsideHeader done := by
  cases point with
  | partialHeader inside ne short =>
    constructor
    · rintro ⟨map, recovers, -⟩
      exact absurd recovers (not_recovers_of_partialHeader ne short)
    · intro outside
      exact absurd inside outside
  | recoverable outside bodies map either inStep =>
    constructor
    · exact fun _ => outside
    · exact fun _ => ⟨map, inStep.recovers, either⟩

theorem mutation_longWrites {next : IndexMap}
    (mutates : Mutation codec logged map mutation recs next) :
    ∀ bytes, .appendJournal bytes ∈ mutation → 4 < bytes.length := by
  intro bytes mem
  cases mutates with
  | none => simp at mem
  | append entry body journals enc fits =>
    have same : bytes = frame codec.crc32 body := by simpa [appendCalls] using mem
    rw [same, length_frame]
    omega

theorem mutation_inStep (faithful : codec.Faithful) {next : IndexMap}
    (mutates : Mutation codec logged map mutation recs next)
    (inStep : InStep codec direct disk bodies map)
    (readable : ∀ entry, logged = some entry → ReadableAppend codec direct disk entry) :
    InStep codec direct (performAll disk mutation) (bodies ++ recs) next := by
  cases mutates with
  | none =>
    rw [append_nil]
    exact inStep
  | append entry body journals enc fits =>
    exact inStep.append faithful enc fits (readable entry journals)

theorem killPoint_mutation {post : IndexMap}
    (mutates : Mutation codec logged pre mutation recs post)
    (inStep : InStep codec direct disk bodies pre)
    (appended : InStep codec direct (performAll disk mutation) (bodies ++ recs) post) (count : ℕ) :
    KillPoint codec direct pre post (mutation.take count)
      (performAll disk (mutation.take count)) := by
  have outside : ¬InsideHeader (mutation.take count) := not_insideHeader fun bytes mem =>
    mutation_longWrites mutates bytes (mem_of_mem_take mem)
  cases mutates with
  | none =>
    rw [take_nil]
    exact .recoverable (not_insideHeader (by simp)) bodies pre (Or.inl rfl) inStep.opened
  | append entry body journals enc fits =>
    -- The record is there once the third call has been made.
    match count with
    | 0 | 1 | 2 => exact .recoverable outside bodies pre (Or.inl rfl) inStep.opened
    | count + 3 =>
      have sameFiles : performAll disk ((appendCalls (frame codec.crc32 body)).take
          (count + 3)) = performAll disk (appendCalls (frame codec.crc32 body)) := by
        rcases count with _ | count <;> simp [appendCalls, perform]
      rw [sameFiles]
      exact .recoverable outside _ _ (Or.inr rfl) appended.opened

theorem killPoint_truncate (faithful : codec.Faithful) {prior : List FsCall} {body : Bytes}
    (renamed : prior.getLast? = some .renameTmp) (enc : codec.encodeSnapshot map.toList = .ok body)
    (snapshot : disk.snapshot = some (headerBytes snapshotVersion ++ body))
    (inStep : InStep codec direct disk bodies map) (done : ℕ) :
    KillPoint codec direct pre map (prior ++ truncateCalls.take done)
      (performAll disk (truncateCalls.take done)) := by
  have emptied : ∀ killed : Disk, killed.snapshot = disk.snapshot →
      openedJournal killed = headerBytes journalVersion →
      InStep codec direct { killed with journal := some (openedJournal killed) } [] map := by
    intro killed sameSnapshot bareHeader
    refine ⟨stores_snapshot (faithful.decodeSnapshot_of_encode _ _ enc) ?_ ?_, trivial⟩
    · exact sameSnapshot.trans snapshot
    · exact congrArg some bareHeader
  match done with
  | 0 =>
    refine .recoverable ?_ bodies map (Or.inr rfl) inStep.opened
    simp [InsideHeader, renamed]
  | 1 =>
    refine .recoverable ?_ bodies map (Or.inr rfl) inStep.opened
    simp [InsideHeader, truncateCalls]
  | 2 | 3 =>
    refine .recoverable ?_ [] map (Or.inr rfl) (emptied _ rfl ?_)
    · simp [InsideHeader, truncateCalls]
    · simp [truncateCalls, perform, openedJournal, Disk.journalBytes]
  | 4 | 5 =>
    apply KillPoint.partialHeader
    · simp [InsideHeader, truncateCalls, writeHeader]
    · simp [truncateCalls, writeHeader, perform, Disk.journalBytes, fileMagic]
    · simp [truncateCalls, writeHeader, perform, Disk.journalBytes, fileMagic, headerLen]
  | 6 =>
    refine .recoverable ?_ [] map (Or.inr rfl) (emptied _ rfl ?_)
    · simp [InsideHeader, truncateCalls, writeHeader, fileMagic, leBytes]
    · simp [truncateCalls, writeHeader, perform, openedJournal, Disk.journalBytes, headerBytes]
  | done + 7 =>
    have all : truncateCalls.take (done + 7) = truncateCalls :=
      take_of_length_le (by simp [truncateCalls, writeHeader])
    rw [all]
    refine .recoverable ?_ [] map (Or.inr rfl) (emptied _ ?_ ?_)
    · simp [InsideHeader, truncateCalls, writeHeader]
    · rw [performAll_truncateCalls]
    · rw [performAll_truncateCalls]
      rfl

theorem killPoint_compaction (faithful : codec.Faithful) {prior compaction : List FsCall}
    (longWrites : ∀ bytes, .appendJournal bytes ∈ prior → 4 < bytes.length)
    (compacts : Compaction codec map compaction) (inStep : InStep codec direct disk bodies map)
    (count : ℕ) :
    KillPoint codec direct pre map (prior ++ compaction.take count)
      (performAll disk (compaction.take count)) := by
  have unchanged : ∀ calls, (∀ bytes, .appendJournal bytes ∉ calls) →
      (performAll disk calls).snapshot = disk.snapshot →
      (performAll disk calls).journal = disk.journal →
      KillPoint codec direct pre map (prior ++ calls) (performAll disk calls) := by
    intro calls noAppend snapshot journal
    refine .recoverable (not_insideHeader ?_) bodies map (Or.inr rfl)
      (InStep.opened ⟨inStep.stores.congr snapshot journal, inStep.aligned⟩)
    intro bytes mem
    exact longWrites bytes ((mem_append.mp mem).resolve_right (noAppend bytes))
  cases compacts with
  | none =>
    rw [take_nil]
    exact unchanged [] (by simp) rfl rfl
  | abandoned =>
    apply unchanged
    · intro bytes mem
      simpa using mem_of_mem_take mem
    · rcases count with _ | count <;> simp [perform]
    · rcases count with _ | count <;> simp [perform]
  | full body enc =>
    rcases take_compactCalls body count with early | ⟨done, late⟩
    · rw [early]
      apply unchanged
      · intro bytes mem
        simpa [prepareCalls] using mem_of_mem_take mem
      · exact (performAll_take_prepareCalls disk body count).1
      · exact (performAll_take_prepareCalls disk body count).2
    · rw [late, performAll_append, ← append_assoc]
      apply killPoint_truncate faithful (by simp [snapshotCalls]) enc
      · rw [performAll_snapshotCalls]
      · exact ⟨inStep.stores.snapshot (faithful.decodeSnapshot_of_encode _ _ enc), inStep.aligned⟩

theorem killPoint_program (faithful : codec.Faithful) {idx : Index}
    (inStep : InStep codec direct disk bodies idx.state.entries) (call : IndexCall)
    (readable : ∀ entry, call.journals = some entry → ReadableAppend codec direct disk entry)
    (count : ℕ) :
    let final := ((call.program codec).run disk idx).2
    KillPoint codec direct idx.state.entries final.memory.state.entries
      (final.calls.take count) ((call.program codec).killedAfter disk idx count) := by
  intro final
  rcases effect_program codec call ⟨disk, [], idx⟩ with
    ⟨mutation, compaction, recs, effect⟩
  have issued : final.calls = mutation ++ compaction := by
    rw [← nil_append (mutation ++ compaction)]
    exact effect.after.1
  have killed : (call.program codec).killedAfter disk idx count =
      performAll disk ((mutation ++ compaction).take count) := by
    rw [← issued]
    rfl
  have appended := mutation_inStep faithful effect.mutates inStep readable
  rw [killed, issued]
  by_cases mutating : count ≤ mutation.length
  · rw [take_append_of_le_length mutating]
    exact killPoint_mutation effect.mutates inStep appended count
  · rw [List.take_append, take_of_length_le (by omega), performAll_append]
    exact killPoint_compaction faithful (mutation_longWrites effect.mutates) effect.compacts
      appended _

end IndexCall

namespace Index

variable {codec : Codec} {direct : Bool}

def Unopened (disk : Disk) : Prop := disk.snapshot = none ∧ disk.journalBytes = []

theorem Unopened.calls_openInner {disk : Disk} (unopened : Unopened disk) (recover : Bool) :
    ((openInner codec (journalReader direct) recover).run disk ()).2.calls =
      [.createIndexDir, .statSnapshot] ++ createCalls ++ [.readJournal] := by
  have created : openedJournal disk = headerBytes journalVersion := by
    rw [openedJournal, if_pos unopened.2]
  rcases (inStep_empty unopened.1 created).opens recover with ⟨idx, opened, -⟩
  rw [opened]
  simp [openCalls, loadCalls, openFileCalls, unopened.1, unopened.2]

theorem killPoint_firstOpen {disk : Disk} (unopened : Unopened disk) (recover : Bool) (count : ℕ) :
    let firstOpen : FsM Unit IndexError (Index × OpenReport) :=
      openInner codec (journalReader direct) recover
    KillPoint codec direct ∅ ∅ ((firstOpen.run disk ()).2.calls.take count)
      (firstOpen.killedAfter disk () count) := by
  intro firstOpen
  rw [killedAfter, unopened.calls_openInner recover]
  rcases unopened with ⟨snapshot, empty⟩
  rw [Disk.journalBytes] at empty
  -- The three writes of the header are the sixth, seventh and eighth call.
  rcases Nat.lt_or_ge count 6 with early | late
  · interval_cases count
    all_goals
      refine .recoverable ?_ [] ∅ (Or.inl rfl) (inStep_empty snapshot ?_)
      · simp [InsideHeader, createCalls]
      · simp [openedJournal, createCalls, perform, Disk.journalBytes, empty]
  rcases Nat.lt_or_ge count 8 with inside | post
  · interval_cases count
    all_goals
      apply KillPoint.partialHeader
      · simp [InsideHeader, createCalls, writeHeader]
      · simp [createCalls, writeHeader, perform, Disk.journalBytes, fileMagic]
      · simp [createCalls, writeHeader, perform, Disk.journalBytes, fileMagic, headerLen, empty]
  rcases Nat.lt_or_ge count 11 with short | whole
  · interval_cases count
    all_goals
      refine .recoverable ?_ [] ∅ (Or.inl rfl) (inStep_empty snapshot ?_)
      · simp [InsideHeader, createCalls, writeHeader, fileMagic, leBytes]
      · simp [openedJournal, createCalls, writeHeader, perform, Disk.journalBytes,
          headerBytes, empty]
  · rw [take_of_length_le (by simpa [createCalls, writeHeader] using whole)]
    refine .recoverable ?_ [] ∅ (Or.inl rfl) (inStep_empty snapshot ?_)
    · simp [InsideHeader, createCalls, writeHeader]
    · simp [openedJournal, createCalls, writeHeader, perform, Disk.journalBytes, headerBytes, empty]

variable (direct) in
/-- Recovery succeeds, with the map before or after the interrupted operation, exactly when
the kill did not come between two writes of a journal header. -/
theorem killed_recovers_iff (faithful : codec.Faithful) :
    (∀ (disk : Disk) (recover : Bool) (count : ℕ), Unopened disk →
      let firstOpen : FsM Unit IndexError (Index × OpenReport) :=
        openInner codec (journalReader direct) recover
      (Recovers codec direct (firstOpen.killedAfter disk () count) ∅ ↔
        ¬InsideHeader ((firstOpen.run disk ()).2.calls.take count))) ∧
    (∀ (disk : Disk) (index : Index) (bodies : List Bytes) (call : IndexCall) (count : ℕ),
      InStep codec direct disk bodies index.state.entries →
      (∀ entry, call.journals = some entry → ReadableAppend codec direct disk entry) →
      let final := ((call.program codec).run disk index).2
      ((∃ map, Recovers codec direct ((call.program codec).killedAfter disk index count) map ∧
          (map = index.state.entries ∨ map = final.memory.state.entries)) ↔
        ¬InsideHeader (final.calls.take count))) := by
  constructor
  · intro disk recover count unopened firstOpen
    rw [← (killPoint_firstOpen unopened recover count).recovers_iff]
    simp
    rfl
  · intro disk index bodies call count inStep readable final
    exact (killPoint_program faithful inStep call readable count).recovers_iff

theorem unopened_fresh : Unopened Disk.fresh := ⟨rfl, rfl⟩

/-- Killed right before the first byte of the header, and while its first entry is put, an
index recovers. -/
theorem killed_recovers_before_header :
    let firstOpen : FsM Unit IndexError (Index × OpenReport) :=
      openInner bincode (journalReader true) false
    let index : Index := ⟨IndexState.empty, defaultCompactThreshold⟩
    let put := (IndexCall.put springCoreSources springCoreEntry).program bincode
    Recovers bincode true (firstOpen.killedAfter Disk.fresh () 5) ∅ ∧
      ∃ map, Recovers bincode true (put.killedAfter bareDisk index 3) map ∧
        (map = ∅ ∨ map = (put.run bareDisk index).2.memory.state.entries) := by
  have recovers := killed_recovers_iff true bincode_faithful
  constructor
  · refine (recovers.1 Disk.fresh false 5 unopened_fresh).mpr ?_
    rw [unopened_fresh.calls_openInner]
    simp [InsideHeader, createCalls]
  · refine (recovers.2 _ ⟨IndexState.empty, defaultCompactThreshold⟩ []
      (.put springCoreSources springCoreEntry) 3 ?_ ?_).mpr ?_
    · exact inStep_bareDisk
    · exact fun entry _ => readableAppend_bareDisk entry
    · unfold InsideHeader
      decide +kernel

/-- Killed after four bytes of the header, a new index can never be opened again. -/
theorem killed_in_header_not_recoverable :
    let firstOpen : FsM Unit IndexError (Index × OpenReport) :=
      openInner bincode (journalReader true) false
    ((openWithRecovery bincode (journalReader true)).run (firstOpen.killedAfter Disk.fresh () 6)
        ()).1 = .error (.journal (.io .journal .unexpectedEof)) := by
  intro firstOpen
  have killed : firstOpen.killedAfter Disk.fresh () 6 =
      { Disk.fresh with indexDir := true, journal := some fileMagic } := by
    rw [killedAfter, unopened_fresh.calls_openInner]
    rfl
  rw [killed]
  rfl

end Index

end Barista.Cache
