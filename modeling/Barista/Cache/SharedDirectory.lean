import Barista.Cache.KillSafety

/-!
# Handles of several processes

An operation of a handle as a list of atomic steps on a directory that others write to as well.
-/

namespace Barista.Cache

section Handles

open FsM Journal JournalIter Index

inductive Handle where
  | closed
  | loaded (recover : Bool) (state : IndexState)
  | scanning (recover : Bool) (state : IndexState)
  | cutting (index : Index) (cutAt : ℕ)
  | ready (index : Index)
  | prepared (index : Index)
  | renamed (index : Index)

inductive HandleStep where
  | loadSnapshot (recover : Bool)
  | openJournal
  | scanJournal
  | cutTail
  | journal (entry : JournalEntry)
  | prepareSnapshot
  | renameSnapshot
  | emptyJournal
  | giveUp
  | close
  deriving DecidableEq

namespace Handle

variable {α ε σ : Type}

def outcome (result : Except ε α × FsState Unit) (returned : α → Handle) (failed : Handle) :
    Disk × Handle :=
  match result with
  | (.ok value, final) => (final.disk, returned value)
  | (.error _, final) => (final.disk, failed)

def scanned (recover : Bool) : IndexState × Option JournalError × JournalIter σ → Handle
  | (state, none, _) => .ready ⟨state, defaultCompactThreshold⟩
  | (state, some error, last) =>
    if recover && error.isRecoverable then
      .cutting ⟨state, defaultCompactThreshold⟩ last.lastGoodOffset
    else .closed

def abandon : Handle → Handle
  | .closed | .loaded _ _ | .scanning _ _ | .cutting _ _ => .closed
  | .ready index | .prepared index | .renamed index => .ready index

def step (codec : Codec) (reader : ByteReader σ) (disk : Disk) :
    Handle → HandleStep → Option (Disk × Handle)
  | .closed, .loadSnapshot recover =>
    match loadedState codec disk with
    | .ok state => some ({ disk with indexDir := true }, .loaded recover state)
    | .error _ => some ({ disk with indexDir := true }, .closed)
  | .loaded recover state, .openJournal =>
    some (outcome (openFile.run disk ()) (fun _ => .scanning recover state) .closed)
  | .scanning recover state, .scanJournal =>
    some (outcome ((iterEntriesWithPositions reader).run disk ())
      (fun iter => scanned recover (foldRecords codec reader IndexState.replayEntry state iter))
      .closed)
  | .cutting index cutAt, .cutTail =>
    some (outcome ((truncateTo cutAt).run disk ()) (fun _ => .ready index) .closed)
  | .ready index, .journal entry =>
    some (outcome ((append codec entry).run disk ())
      (fun _ => .ready { index with state := index.state.replayEntry entry }) (.ready index))
  | .ready index, .prepareSnapshot =>
    match codec.encodeSnapshot index.state.entries.toList with
    | .ok body => some (performAll disk (prepareCalls body), .prepared index)
    | .error _ => some ({ disk with indexDir := true }, .ready index)
  | .prepared index, .renameSnapshot =>
    -- Another process may have renamed the temporary file in the meantime.
    if disk.snapshotTmp.isSome then some (FsCall.perform disk .renameTmp, .renamed index)
    else some (disk, .ready index)
  | .renamed index, .emptyJournal =>
    some (outcome (truncate.run disk ())
      (fun _ => .ready { index with state := ⟨index.state.entries, 0⟩ }) (.ready index))
  | handle, .giveUp => some (disk, handle.abandon)
  | .ready _, .close => some (disk, .closed)
  | _, _ => none

def steps (codec : Codec) (reader : ByteReader σ) (start : Disk × Handle)
    (list : List HandleStep) : Disk × Handle :=
  list.foldl (fun state next => (state.2.step codec reader state.1 next).getD state) start

variable {codec : Codec} {reader : ByteReader σ} {disk : Disk} {recover : Bool} {st : IndexState}

section Uninterrupted

theorem step_openJournal_of_header (hdr : HasHeader journalVersion (openedJournal disk)) :
    step codec reader disk (.loaded recover st) .openJournal =
      some ({ disk with journal := some (openedJournal disk) }, .scanning recover st) := by
  have opened : openFile (⟨disk, [], ()⟩ : FsState Unit) = _ := openFile_of_header hdr
  change some (outcome (openFile.run disk ()) _ _) = _
  rw [run, opened, outcome, FsState.disk_after, performAll_openFileCalls]

theorem step_openJournal_of_not_header (invalid : ¬HasHeader journalVersion (openedJournal disk)) :
    step codec reader disk (.loaded recover st) .openJournal =
      some ({ disk with journal := some disk.journalBytes }, .closed) := by
  have rejected : ∃ err, openFile (⟨disk, [], ()⟩ : FsState Unit) = _ :=
    openFile_of_not_header invalid
  rcases rejected with ⟨err, rejected⟩
  change some (outcome (openFile.run disk ()) _ _) = _
  rw [run, rejected]
  rfl

theorem step_scanJournal_of_header (hdr : HasHeader journalVersion disk.journalBytes) :
    step codec reader disk (.scanning recover st) .scanJournal =
      some (disk, scanned recover (foldRecords codec reader IndexState.replayEntry st
        (recordsOf reader disk.journalBytes))) := by
  have reading : iterEntriesWithPositions reader (⟨disk, [], ()⟩ : FsState Unit) = _ :=
    iterEntriesWithPositions_of_header hdr
  change some (outcome ((iterEntriesWithPositions reader).run disk ()) _ _) = _
  rw [run, reading]
  rfl

theorem step_journal_of_encode {idx : Index} {entry : JournalEntry} {body : Bytes}
    (enc : codec.encodeEntry entry = .ok body) (fits : FitsFrame body) :
    step codec reader disk (.ready idx) (.journal entry) =
      some (performAll disk (appendCalls (frame codec.crc32 body)),
        .ready { idx with state := idx.state.replayEntry entry }) := by
  change some (outcome ((append codec entry).run disk ()) _ _) = _
  rw [run, append_of_encode enc fits]
  rfl

theorem steps_compact (st : FsState Index) : steps codec reader (st.disk, .ready st.memory)
        [.prepareSnapshot, .renameSnapshot, .emptyJournal] =
      ((compact codec st).2.disk, .ready (compact codec st).2.memory) := by
  rcases enc : codec.encodeSnapshot st.memory.state.entries.toList with detail | body
  · rw [compact_of_not_encode enc]
    simp [steps, step, enc, FsCall.perform]
  · rw [compact_of_encode enc]
    simp [steps, step, enc, performAll_prepareCalls, FsCall.perform, run, truncate_apply,
      outcome, performAll_truncateCalls, performAll_compactCalls]

end Uninterrupted

end Handle

end Handles

end Barista.Cache
