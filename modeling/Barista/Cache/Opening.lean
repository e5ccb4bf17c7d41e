import Barista.BufWriter
import Barista.Cache.Journal

/-!
# The programs of the index

Opening loads the snapshot and replays the journal over it. A mutation appends to the journal and
now and then compacts it.
-/

namespace Barista.Cache

open FsM Journal JournalIter

inductive IndexError where
  | journal (error : JournalError)
  | io (path : IndexPath) (kind : IoErrorKind)
  | snapshotMalformed (path : IndexPath) (detail : String)
  deriving DecidableEq

structure IndexState where
  entries : IndexMap
  journalEntriesSinceCompact : ℕ

structure Index where
  state : IndexState
  compactThreshold : ℕ

structure OpenReport where
  journalTruncated : Bool
  journalTruncatedAt : Option ℕ
  deriving DecidableEq

namespace IndexState

def empty : IndexState := ⟨∅, 0⟩

def replayEntry (state : IndexState) (entry : JournalEntry) : IndexState :=
  ⟨entry.applyTo state.entries, state.journalEntriesSinceCompact + 1⟩

end IndexState

namespace OpenReport

def clean : OpenReport := ⟨false, none⟩

end OpenReport

namespace Index

def defaultCompactThreshold : ℕ := 10000

def bufCapacity : ℕ := 8192

def loadSnapshot (codec : Codec) (file : Bytes) : Except IndexError IndexState :=
  match validateHeader file .snapshot snapshotVersion with
  | .error error => .error (.journal error)
  | .ok () =>
    match codec.decodeSnapshot (file.drop headerLen) with
    | .error detail => .error (.snapshotMalformed .snapshot detail)
    | .ok entries => .ok ⟨entries.foldl (fun map entry => map.insert entry.1 entry.2) ∅, 0⟩

section Programs

variable {μ σ : Type} (codec : Codec)

def writeSnapshot (state : IndexState) : FsM μ IndexError Unit := do
  call .createIndexDir
  let snapshot := state.entries.toList
  let body ← ofExcept ((codec.encodeSnapshot snapshot).mapError (.snapshotMalformed .snapshot))
  call .createTmp
  callAll ((bufferedWrites bufCapacity (writeHeader snapshotVersion ++ [body])).map .writeTmp)
  call .syncTmp
  call .renameTmp

variable (reader : ByteReader σ)

def replayJournal (recover : Bool) (loaded : IndexState)
    (iter : JournalIter σ) : FsM μ IndexError (Index × OpenReport) := do
  let (state, badTail, last) := foldRecords codec reader IndexState.replayEntry loaded iter
  match badTail with
  | none => return (⟨state, defaultCompactThreshold⟩, OpenReport.clean)
  | some error =>
    if recover && error.isRecoverable then
      let cutAt := last.lastGoodOffset
      mapError .journal (truncateTo cutAt)
      return (⟨state, defaultCompactThreshold⟩, ⟨true, some cutAt⟩)
    else fail (.journal error)

def openInner (recover : Bool) : FsM μ IndexError (Index × OpenReport) := do
  call .createIndexDir
  call .statSnapshot
  let disk ← getDisk
  let loaded ← match disk.snapshot with
    | some file => do
      call .readSnapshot
      ofExcept (loadSnapshot codec file)
    | none => pure IndexState.empty
  mapError .journal openFile
  let iter ← mapError .journal (iterEntriesWithPositions reader)
  replayJournal codec reader recover loaded iter

def openWithRecovery : FsM μ IndexError (Index × OpenReport) :=
  openInner codec reader true

def compact : FsM Index IndexError Unit := do
  let index ← getMemory
  writeSnapshot codec index.state
  mapError .journal truncate
  setMemory { index with state := { index.state with journalEntriesSinceCompact := 0 } }

def maybeCompact : FsM Index IndexError Unit := do
  let index ← getMemory
  if index.compactThreshold ≤ index.state.journalEntriesSinceCompact then
    compact codec

def put (key : IndexKey) (entry : IndexEntry) : FsM Index IndexError Unit := do
  let _ ← mapError .journal (append codec (.put key entry))
  let index ← getMemory
  setMemory { index with
    state := ⟨index.state.entries.insert key entry, index.state.journalEntriesSinceCompact + 1⟩ }
  maybeCompact codec

def remove (key : IndexKey) : FsM Index IndexError Bool := do
  let _ ← mapError .journal (append codec (.remove key))
  let index ← getMemory
  let removed := index.state.entries.contains key
  setMemory { index with
    state := ⟨index.state.entries.erase key, index.state.journalEntriesSinceCompact + 1⟩ }
  maybeCompact codec
  return removed

def touch (key : IndexKey) (atimeUnix : UInt64) : FsM Index IndexError Bool := do
  let _ ← mapError .journal (append codec (.touch key atimeUnix))
  let index ← getMemory
  let touched := index.state.entries.contains key
  setMemory { index with
    state := ⟨index.state.entries.modify key fun entry => { entry with atimeUnix := atimeUnix },
      index.state.journalEntriesSinceCompact + 1⟩ }
  maybeCompact codec
  return touched

end Programs

def get (index : Index) (key : IndexKey) : Option IndexEntry := index.state.entries[key]?

def setCompactThreshold (index : Index) (threshold : ℕ) : Index :=
  { index with compactThreshold := threshold }

section Equations

variable {μ : Type} {codec : Codec}

def prepareCalls (body : Bytes) : List FsCall := [.createIndexDir, .createTmp] ++
    (bufferedWrites bufCapacity (writeHeader snapshotVersion ++ [body])).map .writeTmp ++ [.syncTmp]

def snapshotCalls (body : Bytes) : List FsCall := prepareCalls body ++ [.renameTmp]

def compactCalls (body : Bytes) : List FsCall := snapshotCalls body ++ truncateCalls

variable {body : Bytes} {fsState : FsState Index} {entry : JournalEntry}

theorem writeSnapshot_of_encode {st : IndexState}
    (enc : codec.encodeSnapshot st.entries.toList = .ok body) (fsState : FsState μ) :
    writeSnapshot codec st fsState = (.ok (), fsState.after (snapshotCalls body)) := by
  simp [writeSnapshot, bind_apply, enc, Except.mapError, snapshotCalls, prepareCalls]

theorem compact_of_encode
    (enc : codec.encodeSnapshot fsState.memory.state.entries.toList = .ok body) :
    compact codec fsState = (.ok (), { fsState.after (compactCalls body) with
        memory := ⟨⟨fsState.memory.state.entries, 0⟩, fsState.memory.compactThreshold⟩ }) := by
  simp only [compact, bind_apply, getMemory_apply, writeSnapshot_of_encode enc,
    mapError_apply, truncate_apply, setMemory_apply, FsState.after_after, compactCalls]

theorem compact_of_not_encode {detail : String}
    (failed : codec.encodeSnapshot fsState.memory.state.entries.toList = .error detail) :
    compact codec fsState =
      (.error (.snapshotMalformed .snapshot detail), fsState.after [.createIndexDir]) := by
  simp [compact, writeSnapshot, bind_apply, failed, Except.mapError]

def mutate (codec : Codec) (entry : JournalEntry) : FsM Index IndexError Unit := do
  let _ ← mapError .journal (append codec entry)
  let index ← getMemory
  setMemory { index with state := index.state.replayEntry entry }
  maybeCompact codec

theorem mutate_of_encode (enc : codec.encodeEntry entry = .ok body) (fits : FitsFrame body)
    (fsState : FsState Index) :
    mutate codec entry fsState =
      maybeCompact codec { fsState.after (appendCalls (frame codec.crc32 body)) with
        memory := { fsState.memory with state := fsState.memory.state.replayEntry entry } } := by
  simp only [mutate, bind_apply, mapError_apply, append_of_encode enc fits,
    getMemory_apply, setMemory_apply, FsState.memory_after]

theorem mutate_of_not_encode
    (unwritable : ∀ body, codec.encodeEntry entry = .ok body → ¬FitsFrame body)
    (fsState : FsState Index) :
    ∃ err, mutate codec entry fsState = (.error (.journal err), fsState) := by
  rcases append_of_not_encode unwritable fsState with ⟨err, failed⟩
  exact ⟨err, by simp [mutate, bind_apply, mapError_apply, failed]⟩

theorem mutate_reporting {α : Type} (entry : JournalEntry) (ans : Index → α)
    (fsState : FsState Index) :
    (do
      let _ ← mapError .journal (append codec entry)
      let idx ← getMemory
      setMemory { idx with state := idx.state.replayEntry entry }
      maybeCompact codec
      return ans idx : FsM Index IndexError α) fsState =
      ((mutate codec entry fsState).1.map fun _ => ans fsState.memory,
        (mutate codec entry fsState).2) := by
  rcases fits_or_not codec entry with ⟨body, enc, fits⟩ | writable
  · rw [mutate_of_encode enc fits]
    simp only [bind_apply, mapError_apply, append_of_encode enc fits, getMemory_apply,
      setMemory_apply, FsState.memory_after]
    rcases maybeCompact codec _ with ⟨_ | _, _⟩ <;> rfl
  · rcases append_of_not_encode writable fsState with ⟨err, failed⟩
    simp [mutate, bind_apply, mapError_apply, failed, Except.map]

theorem remove_apply (key : IndexKey) (fsState : FsState Index) : remove codec key fsState =
      ((mutate codec (.remove key) fsState).1.map
          fun _ => fsState.memory.state.entries.contains key,
        (mutate codec (.remove key) fsState).2) :=
  mutate_reporting (.remove key) (fun idx => idx.state.entries.contains key) fsState

theorem touch_apply (key : IndexKey) (atimeUnix : UInt64) (fsState : FsState Index) :
    touch codec key atimeUnix fsState = ((mutate codec (.touch key atimeUnix) fsState).1.map
          fun _ => fsState.memory.state.entries.contains key,
        (mutate codec (.touch key atimeUnix) fsState).2) :=
  mutate_reporting (.touch key atimeUnix) (fun idx => idx.state.entries.contains key) fsState

theorem foldl_writeTmp (writes : List Bytes) (disk : Disk) (written : Bytes)
    (started : disk.snapshotTmp = some written) :
    performAll disk (writes.map .writeTmp) =
      { disk with snapshotTmp := some (written ++ writes.flatten) } := by
  induction writes generalizing disk written with
  | nil =>
    cases disk
    simp_all
  | cons write writes ih =>
    rw [List.map_cons, performAll_cons, ih _ (written ++ write) (by simp [FsCall.perform, started])]
    simp [FsCall.perform]

theorem performAll_prepareCalls (disk : Disk) (body : Bytes) : performAll disk (prepareCalls body) =
      { disk with
        indexDir := true
        snapshotTmp := some (headerBytes snapshotVersion ++ body) } := by
  simp only [prepareCalls, performAll_append, performAll_cons, performAll_nil]
  rw [foldl_writeTmp _ _ [] rfl, flatten_bufferedWrites]
  simp [FsCall.perform, headerBytes]

theorem performAll_snapshotCalls (disk : Disk) (body : Bytes) :
    performAll disk (snapshotCalls body) =
      { disk with
        indexDir := true
        snapshot := some (headerBytes snapshotVersion ++ body)
        snapshotTmp := none } := by
  rw [snapshotCalls, performAll_append, performAll_prepareCalls]
  rfl

theorem performAll_compactCalls (disk : Disk) (body : Bytes) : performAll disk (compactCalls body) =
      ⟨true, some (headerBytes snapshotVersion ++ body), none,
        some (headerBytes journalVersion)⟩ := by
  rw [compactCalls, performAll_append, performAll_snapshotCalls, performAll_truncateCalls]

end Equations

end Index

open List

namespace Index

variable {μ σ : Type} {codec : Codec} {reader : ByteReader σ}

def loadedState (codec : Codec) (disk : Disk) : Except IndexError IndexState :=
  match disk.snapshot with
  | some file => loadSnapshot codec file
  | none => .ok IndexState.empty

variable (disk : Disk)

def openedJournal : Bytes :=
  if disk.journalBytes = [] then headerBytes journalVersion else disk.journalBytes

def recordsOf (reader : ByteReader σ) (file : Bytes) : JournalIter σ :=
  ⟨reader.start (file.drop headerLen), headerLen, false⟩

theorem foldl_replayEntry (entries : List JournalEntry) (st : IndexState) :
    entries.foldl IndexState.replayEntry st = ⟨journalLog.replay st.entries entries,
        st.journalEntriesSinceCompact + entries.length⟩ := by
  induction entries generalizing st with
  | nil => rfl
  | cons entry entries ih =>
    rw [foldl_cons, ih]
    simp only [IndexState.replayEntry, JournalEntry.applyTo_eq, KeyedLog.replay_cons,
      length_cons, IndexState.mk.injEq, true_and]
    omega

def openFileCalls : List FsCall :=
  if disk.journalBytes = [] then createCalls else reopenCalls

theorem performAll_openFileCalls :
    performAll disk (openFileCalls disk) = { disk with journal := some (openedJournal disk) } := by
  unfold openFileCalls openedJournal
  split
  · next empty => exact performAll_createCalls empty
  · exact performAll_reopenCalls disk

theorem openFile_of_header {st : FsState μ}
    (hdr : HasHeader journalVersion (openedJournal st.disk)) :
    openFile st = (.ok (), st.after (openFileCalls st.disk)) := by
  unfold openedJournal at hdr
  unfold openFileCalls
  split
  · next empty => exact openFile_of_empty empty
  · rename_i ne
    rw [if_neg ne] at hdr
    rw [openFile_of_nonempty ne, hdr.validate]

theorem openFile_of_not_header {st : FsState μ}
    (invalid : ¬HasHeader journalVersion (openedJournal st.disk)) :
    ∃ err, openFile st =
      (.error err, st.after [.openJournal, .acquireLock, .statJournal, .readJournal]) := by
  unfold openedJournal at invalid
  split at invalid
  · exact absurd (append_nil (headerBytes _) ▸ hasHeader_headerBytes_append (by decide) []) invalid
  · rename_i ne
    rw [openFile_of_nonempty ne]
    rcases outcome : validateHeader st.disk.journalBytes .journal journalVersion with
      err | ⟨⟩
    · exact ⟨err, rfl⟩
    · exact absurd (validateHeader_eq_ok_iff.mp outcome) invalid

def loadCalls : List FsCall :=
  [.createIndexDir, .statSnapshot] ++ if disk.snapshot.isSome then [.readSnapshot] else []

theorem performAll_loadCalls :
    performAll disk (loadCalls disk) = { disk with indexDir := true } := by
  unfold loadCalls
  split <;> rfl

theorem openInner_load (recover : Bool) (st : FsState μ) : openInner codec reader recover st =
      match loadedState codec st.disk with
      | .error err => (.error err, st.after (loadCalls st.disk))
      | .ok loaded =>
        (do
          mapError .journal openFile
          let iter ← mapError .journal (iterEntriesWithPositions reader)
          replayJournal codec reader recover loaded iter : FsM μ IndexError _)
          (st.after (loadCalls st.disk)) := by
  rcases present : st.disk.snapshot with _ | file
  · simp [openInner, loadedState, loadCalls, bind_apply, FsCall.perform, present]
  · rcases outcome : loadSnapshot codec file with err | loaded <;>
      simp [openInner, loadedState, loadCalls, bind_apply, FsCall.perform, present, outcome]

theorem openInner_preconditions {recover : Bool} {st final : FsState μ}
    {opened : Index × OpenReport}
    (success : openInner codec reader recover st = (.ok opened, final)) :
    (∃ loaded, loadedState codec st.disk = .ok loaded) ∧
      HasHeader journalVersion (openedJournal st.disk) := by
  rw [openInner_load] at success
  rcases load : loadedState codec st.disk with err | loaded
  · simp [load] at success
  · refine ⟨⟨loaded, rfl⟩, ?_⟩
    by_contra invalid
    have sameJournal : openedJournal (st.after (loadCalls st.disk)).disk =
        openedJournal st.disk := by
      rw [FsState.disk_after, performAll_loadCalls]
      rfl
    rw [← sameJournal] at invalid
    rcases openFile_of_not_header invalid with ⟨err, outcome⟩
    simp [load, bind_apply, mapError_apply, outcome] at success

def openCalls : List FsCall :=
  loadCalls disk ++ openFileCalls disk ++ [.readJournal]

theorem performAll_openCalls : performAll disk (openCalls disk) =
      { disk with indexDir := true, journal := some (openedJournal disk) } := by
  have opened := performAll_openFileCalls { disk with indexDir := true }
  simp only [openCalls, performAll_append, performAll_loadCalls]
  exact congrArg (fun opened => performAll opened [.readJournal]) opened

variable (reader) in
theorem openInner_apply (recover : Bool) (st : FsState μ) {loaded : IndexState}
    (load : loadedState codec st.disk = .ok loaded)
    (hdr : HasHeader journalVersion (openedJournal st.disk)) :
    openInner codec reader recover st =
      replayJournal codec reader recover loaded (recordsOf reader (openedJournal st.disk))
        (st.after (openCalls st.disk)) := by
  have outcome : openFile (st.after (loadCalls st.disk)) =
      (.ok (), st.after (loadCalls st.disk ++ openFileCalls st.disk)) := by
    have loadedHeader : HasHeader journalVersion
        (openedJournal (st.after (loadCalls st.disk)).disk) := by
      rw [FsState.disk_after, performAll_loadCalls]
      exact hdr
    rw [openFile_of_header loadedHeader, FsState.after_after, FsState.disk_after,
      performAll_loadCalls]
    rfl
  have journal : (st.after (loadCalls st.disk ++ openFileCalls st.disk)).disk.journalBytes =
      openedJournal st.disk := by
    have opened := performAll_openFileCalls { st.disk with indexDir := true }
    rw [FsState.disk_after, performAll_append, performAll_loadCalls]
    exact congrArg Disk.journalBytes opened
  rw [← journal] at hdr
  rw [openInner_load, load]
  simp only [bind_apply, mapError_apply, outcome, FsState.after_after,
    iterEntriesWithPositions_of_header hdr, journal]
  rfl

variable (codec reader) in
theorem replayJournal_apply (recover : Bool) (loaded : IndexState) {iter : JournalIter σ}
    (active : iter.done = false) (st : FsState μ) :
    ∃ bodies entries rest stop last, Scan codec reader iter bodies entries rest stop last ∧
        replayJournal codec reader recover loaded iter st =
          let idx : Index := ⟨⟨journalLog.replay loaded.entries entries,
            loaded.journalEntriesSinceCompact + entries.length⟩, defaultCompactThreshold⟩
          match stop with
          | none => (.ok (idx, OpenReport.clean), st)
          | some err =>
            if recover && err.isRecoverable then
              (.ok (idx, ⟨true, some last.position⟩), st.after (truncateToCalls last.position))
            else (.error (.journal err), st) := by
  rcases scan_foldRecords codec reader IndexState.replayEntry loaded active with
    ⟨bodies, entries, rest, stop, last, folded, scan⟩
  refine ⟨bodies, entries, rest, stop, last, scan, ?_⟩
  rw [foldl_replayEntry] at folded
  rcases stop with _ | err
  · simp only [replayJournal, folded, pure_apply]
  · by_cases cut : (recover && err.isRecoverable) = true
    · simp only [replayJournal, folded, cut, if_true, lastGoodOffset, bind_apply, mapError_apply,
        truncateTo_apply, pure_apply]
    · simp only [replayJournal, folded, cut, Bool.false_eq_true, if_false, fail_apply]

theorem loadedState_count {disk : Disk} {loaded : IndexState}
    (load : loadedState codec disk = .ok loaded) : loaded = ⟨loaded.entries, 0⟩ := by
  unfold loadedState loadSnapshot at load
  split at load
  · split at load
    · contradiction
    · split at load
      · contradiction
      · exact (Except.ok.inj load) ▸ rfl
  · exact (Except.ok.inj load) ▸ rfl

structure Represents (codec : Codec) (disk : Disk) (header : Bytes) (base : IndexMap)
    (payloads : List Bytes) (entries : List JournalEntry) : Prop where
  loads : loadedState codec disk = .ok ⟨base, 0⟩
  journal : disk.journal = some (header ++ frames codec.crc32 payloads)
  validHeader : HasHeader journalVersion header
  headerLength : header.length = headerLen
  fits : ∀ payload ∈ payloads, FitsFrame payload
  decoded : payloads.map codec.decodeEntry = entries.map .ok

structure Opened (codec : Codec) (reader : ByteReader σ) (recover : Bool) (disk final : Disk)
    (index : Index) (report : OpenReport) (header : Bytes) (base : IndexMap)
    (payloads : List Bytes) (entries : List JournalEntry) (rest : Bytes) : Prop where
  represents : Represents codec final header base payloads entries
  loads : loadedState codec disk = .ok ⟨base, 0⟩
  split : openedJournal disk = header ++ frames codec.crc32 payloads ++ rest
  map : index.state.entries = journalLog.replay base entries
  files : final = { disk with
    indexDir := true
    journal := some (header ++ frames codec.crc32 payloads) }
  wholes : FirstPrefixesWhole codec reader (recordsOf reader (openedJournal disk)) payloads.length
  longest : PrefixesWhole codec reader (recordsOf reader (openedJournal disk)) →
    LongestPrefix codec.crc32 (Decodable codec) ((openedJournal disk).drop headerLen) payloads rest
  reported : rest = [] ∧ report = OpenReport.clean ∨ rest ≠ [] ∧ recover = true ∧
      report = ⟨true, some (headerLen + (frames codec.crc32 payloads).length)⟩

theorem opened_of_scan {recover : Bool} {disk final : Disk} {base : IndexMap} {bodies : List Bytes}
    {entries : List JournalEntry} {rest : Bytes} {stop : Option JournalError}
    {last : JournalIter σ} {idx : Index} {report : OpenReport}
    (load : loadedState codec disk = .ok ⟨base, 0⟩)
    (valid : HasHeader journalVersion (openedJournal disk))
    (scan : Scan codec reader (recordsOf reader (openedJournal disk)) bodies entries rest stop
      last) (recoverable : ∀ err ∈ stop, err.isRecoverable = true)
    (map : idx.state.entries = journalLog.replay base entries)
    (files : final = { disk with
      indexDir := true
      journal := some ((openedJournal disk).take headerLen ++ frames codec.crc32 bodies) })
    (reported : rest = [] ∧ report = OpenReport.clean ∨ rest ≠ [] ∧ recover = true ∧
        report = ⟨true, some (headerLen + (frames codec.crc32 bodies).length)⟩) :
    Opened codec reader recover disk final idx report ((openedJournal disk).take headerLen)
      base bodies entries rest := by
  subst files
  have contents : reader.contents (recordsOf reader (openedJournal disk)).reader =
      (openedJournal disk).drop headerLen := reader.contents_start _
  have split := scan.split
  rw [contents] at split
  constructor
  · exact ⟨load, rfl, valid.take le_rfl, length_take_of_le valid.length, scan.fits, scan.decoded⟩
  · exact load
  · rw [append_assoc, ← split, take_append_drop]
  · exact map
  · rfl
  · exact scan.wholes
  · intro whole
    rw [← contents]
    exact scan.longestPrefix whole recoverable
  · exact reported

theorem openInner_sound {recover : Bool} {st final : FsState μ} {idx : Index} {report : OpenReport}
    (success : openInner codec reader recover st = (.ok (idx, report), final)) :
    ∃ hdr base bodies entries rest,
      Opened codec reader recover st.disk final.disk idx report hdr base bodies entries
        rest := by
  rcases openInner_preconditions success with ⟨⟨loaded, load⟩, valid⟩
  rw [loadedState_count load] at load
  rcases replayJournal_apply codec reader recover ⟨loaded.entries, 0⟩
    (rfl : (recordsOf reader (openedJournal st.disk)).done = false)
    (st.after (openCalls st.disk)) with ⟨bodies, entries, rest, stop, last, scan, replayed⟩
  rw [openInner_apply reader recover st load valid, replayed] at success
  have split : openedJournal st.disk =
      (openedJournal st.disk).take headerLen ++ (frames codec.crc32 bodies ++ rest) := by
    rw [← scan.split, show reader.contents (recordsOf reader (openedJournal st.disk)).reader =
      (openedJournal st.disk).drop headerLen from reader.contents_start _,
      take_append_drop]
  refine ⟨(openedJournal st.disk).take headerLen, loaded.entries, bodies, entries, rest, ?_⟩
  rcases stop with _ | err
  · obtain ⟨⟨rfl, rfl⟩, rfl⟩ : (_ ∧ _) ∧ _ := by simpa using success
    have noRest := scan.ended rfl
    refine opened_of_scan load valid scan (by simp) rfl ?_ (Or.inl ⟨noRest, rfl⟩)
    rw [noRest, append_nil] at split
    rw [FsState.disk_after, performAll_openCalls, ← split]
  · by_cases cut : recover = true ∧ err.isRecoverable = true
    · obtain ⟨⟨rfl, rfl⟩, rfl⟩ : (_ ∧ _) ∧ _ := by simpa [cut] using success
      have ne := (scan.stuck err rfl cut.2).1
      have pos := scan.position (by simpa using cut.2)
      refine opened_of_scan load valid scan (by simpa using cut.2) rfl ?_
        (Or.inr ⟨ne, cut.1, by rw [pos]; rfl⟩)
      have kept : (openedJournal st.disk).take last.position =
          (openedJournal st.disk).take headerLen ++ frames codec.crc32 bodies := by
        have keptLength : last.position = ((openedJournal st.disk).take headerLen ++
            frames codec.crc32 bodies).length := by
          rw [pos, length_append, length_take_of_le valid.length]
          rfl
        conv_lhs => rw [split, ← append_assoc, keptLength, take_left]
      have pastHeader : headerLen ≤ last.position := by
        rw [pos]
        exact Nat.le_add_right _ _
      have inside : last.position ≤ (openedJournal st.disk).length := by
        have lengths := congrArg List.length split
        simp only [length_append, length_take_of_le valid.length] at lengths
        rw [pos, lengths]
        exact Nat.add_le_add_left (Nat.le_add_right _ _) _
      have cutFiles : performAll { st.disk with
          indexDir := true, journal := some (openedJournal st.disk) }
            (truncateToCalls last.position) = _ := performAll_truncateToCalls pastHeader inside
      rw [FsState.disk_after, performAll_append, performAll_openCalls, cutFiles]
      exact congrArg (fun journal => { st.disk with indexDir := true, journal := some journal })
        kept
    · simp [cut] at success

theorem openedJournal_of_header {disk : Disk} {journal : Bytes}
    (file : disk.journal = some journal) (hdr : HasHeader journalVersion journal) :
    openedJournal disk = journal := by
  have bytes : disk.journalBytes = journal := by simp [Disk.journalBytes, file]
  have long := hdr.length
  rw [openedJournal, bytes, if_neg]
  rintro rfl
  contradiction

theorem openInner_of_represents {disk : Disk} {hdr : Bytes} {base : IndexMap}
    {bodies : List Bytes} {entries : List JournalEntry}
    (represents : Represents codec { disk with journal := some (openedJournal disk) } hdr base
      bodies entries)
    (whole : PrefixesWhole codec reader (recordsOf reader (openedJournal disk)))
    (recover : Bool) (memory : μ) :
    (openInner codec reader recover).run disk memory =
      (.ok (⟨⟨journalLog.replay base entries, entries.length⟩, defaultCompactThreshold⟩,
        OpenReport.clean), (⟨disk, [], memory⟩ : FsState μ).after (openCalls disk)) := by
  have opened : openedJournal disk = hdr ++ frames codec.crc32 bodies :=
    Option.some.inj represents.journal
  have valid : HasHeader journalVersion (openedJournal disk) := by
    rw [opened]
    exact represents.validHeader.append _
  have outcome :=
    openInner_apply reader recover (⟨disk, [], memory⟩ : FsState μ) represents.loads valid
  rcases replayJournal_apply codec reader recover ⟨base, 0⟩
    (rfl : (recordsOf reader (openedJournal disk)).done = false)
    ((⟨disk, [], memory⟩ : FsState μ).after (openCalls disk)) with
    ⟨found, replayed, rest, stop, last, scan, out⟩
  have contents : reader.contents (recordsOf reader (openedJournal disk)).reader =
      frames codec.crc32 bodies := by
    rw [recordsOf, reader.contents_start, opened, ← represents.headerLength, drop_left]
  rcases scan.of_frames whole contents represents.fits represents.decoded with ⟨rfl, rfl, -⟩
  rw [run, outcome, out]
  simp

section Opened

variable {disk : Disk} {hdr : Bytes} {base : IndexMap} {bodies : List Bytes}
  {entries : List JournalEntry} (represents : Represents codec disk hdr base bodies entries)

include represents

theorem Represents.openedJournal_eq : openedJournal disk = hdr ++ frames codec.crc32 bodies :=
  openedJournal_of_header represents.journal (represents.validHeader.append _)

theorem Represents.opened :
    Represents codec { disk with journal := some (openedJournal disk) } hdr base bodies
      entries := by
  rw [represents.openedJournal_eq, ← represents.journal]
  exact represents

end Opened

end Index

end Barista.Cache
