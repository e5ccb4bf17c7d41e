import Barista.Cache.KillSafety

/-!
# Garbage collection

A pass evicts rows, the oldest first, until the recorded sizes fall below the low watermark. Rows
can share a blob, and the blob goes with the first of them.
-/

namespace Barista.Cache

open List
open FsM Index

structure GcStats where
  considered : ℕ
  evicted : ℕ
  skippedHardlinked : ℕ
  bytesFreed : UInt64
  reachedTarget : Bool
  deriving DecidableEq

inductive GcError where
  | io (hash : ContentHash) (kind : IoErrorKind)
  | index (error : IndexError)
  deriving DecidableEq

structure BlobFaults where
  metadata : ContentHash → Option IoErrorKind
  removeFile : ContentHash → Option IoErrorKind

structure CacheRoot where
  index : FsState Index
  blobs : ContentHash → Option ℕ

abbrev Row := IndexKey × IndexEntry

namespace Gc

inductive Verdict where
  | hardlinked
  | missing
  | evictable
  deriving DecidableEq

def saturatingSub (total size : UInt64) : UInt64 :=
  if total ≤ size then 0 else total - size

section Loop

variable (codec : Codec) (faults : BlobFaults) (lowBytes : UInt64) (keepHardlinked : Bool)

variable (blobs : ContentHash → Option ℕ)

def inspect (hash : ContentHash) : Except IoErrorKind Verdict :=
  if keepHardlinked then
    match faults.metadata hash with
    | some kind => .error kind
    | none =>
      match blobs hash with
      | some nlink => .ok (if 2 ≤ nlink then .hardlinked else .evictable)
      | none => .ok .missing
  else .ok .evictable

def removeRow (key : IndexKey) (cache : CacheRoot) : Except GcError Unit × CacheRoot :=
  match Index.remove codec key cache.index with
  | (.ok _, index) => (.ok (), { cache with index := index })
  | (.error error, index) => (.error (.index error), { cache with index := index })

def evict (row : Row) (cache : CacheRoot) : Except GcError Unit × CacheRoot :=
  match faults.removeFile row.2.hash with
  | some kind => (.error (.io row.2.hash kind), cache)
  | none =>
    removeRow codec row.1 { cache with blobs := Function.update cache.blobs row.2.hash none }

def gcLoop : List Row → UInt64 → GcStats → CacheRoot → Except GcError GcStats × CacheRoot
  | [], total, stats, cache =>
    (.ok (if total < lowBytes then { stats with reachedTarget := true } else stats), cache)
  | row :: rows, total, stats, cache =>
    let stats := { stats with considered := stats.considered + 1 }
    if total < lowBytes then (.ok { stats with reachedTarget := true }, cache)
    else
      match inspect faults keepHardlinked cache.blobs row.2.hash with
      | .error kind => (.error (.io row.2.hash kind), cache)
      | .ok .hardlinked =>
        gcLoop rows total { stats with skippedHardlinked := stats.skippedHardlinked + 1 } cache
      | .ok .missing =>
        match removeRow codec row.1 cache with
        | (.error error, cache) => (.error error, cache)
        | (.ok (), cache) =>
          gcLoop rows (saturatingSub total row.2.sizeBytes) stats cache
      | .ok .evictable =>
        match evict codec faults row cache with
        | (.error error, cache) => (.error error, cache)
        | (.ok (), cache) =>
          gcLoop rows (saturatingSub total row.2.sizeBytes)
            { stats with
              evicted := stats.evicted + 1
              bytesFreed := stats.bytesFreed + row.2.sizeBytes } cache

def sortedRows (map : IndexMap) : List Row :=
  map.toList.insertionSort fun first second => first.2.atimeUnix ≤ second.2.atimeUnix

def totalBytes (map : IndexMap) : UInt64 :=
  map.toList.foldl (fun total row => total + row.2.sizeBytes) 0

/-- `run_gc` at the two thresholds in bytes that it computes from its configuration. -/
def gcPass (highBytes lowBytes : UInt64) (keepHardlinked : Bool) (cache : CacheRoot) :
    Except GcError GcStats × CacheRoot :=
  let map := cache.index.memory.state.entries
  if totalBytes map < highBytes then (.ok ⟨0, 0, 0, 0, true⟩, cache)
  else
    gcLoop codec faults lowBytes keepHardlinked (sortedRows map) (totalBytes map)
      ⟨0, 0, 0, 0, false⟩ cache

def pinned (hash : ContentHash) : Bool :=
  keepHardlinked && (blobs hash).any fun nlink => decide (2 ≤ nlink)

def runningTotal (isPinned : ContentHash → Bool) (total : UInt64) (rows : List Row) : UInt64 :=
  rows.foldl
    (fun total row => if isPinned row.2.hash then total else saturatingSub total row.2.sizeBytes)
    total

def reachedCount (isPinned : ContentHash → Bool) : UInt64 → List Row → ℕ
  | _, [] => 0
  | total, row :: rows =>
    if total < lowBytes then 0
    else reachedCount isPinned (runningTotal isPinned total [row]) rows + 1

def eraseRows (map : IndexMap) (rows : List Row) : IndexMap :=
  rows.foldl (fun map row => map.erase row.1) map

def eraseBlobs (rows : List Row) : ContentHash → Option ℕ :=
  rows.foldl (fun blobs row => Function.update blobs row.2.hash none) blobs

def removedRows (isPinned : ContentHash → Bool) (total : UInt64) (rows : List Row) : List Row :=
  (rows.take (reachedCount lowBytes isPinned total rows)).filter fun row => !isPinned row.2.hash

variable {codec faults lowBytes keepHardlinked} {cache final : CacheRoot} {total : UInt64}
  {rows : List Row}

theorem removeRow_ok {key : IndexKey} (removed : removeRow codec key cache = (.ok (), final)) :
    final.blobs = cache.blobs ∧
      final.index.memory.state.entries = cache.index.memory.state.entries.erase key := by
  rw [removeRow, remove_apply] at removed
  rcases Journal.fits_or_not codec (.remove key) with ⟨body, enc, fits⟩ | writable
  · rcases IndexCall.compaction_maybeCompact codec
      { cache.index.after (Journal.appendCalls (frame codec.crc32 body)) with
        memory := { cache.index.memory with
          state := cache.index.memory.state.replayEntry (.remove key) } } with
      ⟨compaction, -, map, -, -⟩
    rw [mutate_of_encode enc fits] at removed
    split at removed
    · rename_i ret
      cases removed
      rw [Prod.mk.injEq] at ret
      rw [← ret.2]
      exact ⟨rfl, map⟩
    · cases removed
  · rcases mutate_of_not_encode writable cache.index with ⟨err, failed⟩
    rw [failed] at removed
    cases removed

variable {row : Row} {blobs : ContentHash → Option ℕ} {hash : ContentHash}
  {isPinned : ContentHash → Bool}

theorem evict_ok (evicted : evict codec faults row cache = (.ok (), final)) :
    final.blobs = Function.update cache.blobs row.2.hash none ∧
      final.index.memory.state.entries = cache.index.memory.state.entries.erase row.1 := by
  unfold evict at evicted
  split at evicted
  · cases evicted
  · exact removeRow_ok evicted

theorem pinned_update (unpinned : pinned keepHardlinked blobs hash = false) :
    pinned keepHardlinked (Function.update blobs hash none) = pinned keepHardlinked blobs := by
  funext other
  by_cases same : other = hash
  · subst same
    rw [unpinned]
    simp [pinned]
  · simp [pinned, Function.update_of_ne same]

theorem inspect_ok {verdict : Verdict}
    (inspected : inspect faults keepHardlinked blobs hash = .ok verdict) :
    (verdict = .hardlinked ↔ pinned keepHardlinked blobs hash = true) ∧
      (verdict = .missing → blobs hash = none) := by
  unfold inspect at inspected
  unfold pinned
  split at inspected
  · rename_i keep
    split at inspected
    · contradiction
    · split at inspected
      · rename_i nlink found
        cases inspected
        by_cases linked : 2 ≤ nlink <;> simp [keep, found, linked]
      · rename_i missing
        cases inspected
        simp [missing]
  · rename_i keep
    cases inspected
    simp [keep]

theorem removedRows_of_low (low : total < lowBytes) :
    removedRows lowBytes isPinned total rows = [] := by
  rcases rows with _ | _
  · rfl
  · simp [removedRows, reachedCount, low]

theorem removedRows_cons (high : ¬total < lowBytes) :
    removedRows lowBytes isPinned total (row :: rows) =
      if isPinned row.2.hash then removedRows lowBytes isPinned total rows
      else row :: removedRows lowBytes isPinned (saturatingSub total row.2.sizeBytes) rows := by
  by_cases kept : isPinned row.2.hash = true <;>
    simp [removedRows, reachedCount, runningTotal, high, kept]

theorem gcLoop_ok {stats out : GcStats}
    (success : gcLoop codec faults lowBytes keepHardlinked rows total stats cache = (.ok out,
      final)) :
    let removed := removedRows lowBytes (pinned keepHardlinked cache.blobs) total rows
    final.index.memory.state.entries = eraseRows cache.index.memory.state.entries removed ∧
      final.blobs = eraseBlobs cache.blobs removed := by
  induction rows generalizing total stats cache with
  | nil =>
    cases success
    exact ⟨rfl, rfl⟩
  | cons row rows ih =>
    simp only [gcLoop] at success
    split at success
    · rename_i low
      cases success
      rw [removedRows_of_low low]
      exact ⟨rfl, rfl⟩
    · rename_i high
      rw [removedRows_cons high]
      split at success
      · cases success
      · rename_i inspected
        rw [if_pos ((inspect_ok inspected).1.mp rfl)]
        exact ih success
      · rename_i inspected
        have unpinned := mt (inspect_ok inspected).1.mpr (by simp)
        rw [if_neg unpinned]
        split at success
        · cases success
        · rename_i post removed
          rcases removeRow_ok removed with ⟨sameBlobs, erased⟩
          have alreadyGone : Function.update cache.blobs row.2.hash none = cache.blobs := by
            rw [← (inspect_ok inspected).2 rfl, Function.update_eq_self]
          have later := ih success
          rw [sameBlobs, erased] at later
          simp only [eraseRows, eraseBlobs, foldl_cons, alreadyGone]
          exact later
      · rename_i inspected
        have unpinned := mt (inspect_ok inspected).1.mpr (by simp)
        rw [if_neg unpinned]
        split at success
        · cases success
        · rename_i post evicted
          rcases evict_ok evicted with ⟨blobs, erased⟩
          have later := ih success
          rw [blobs, erased, pinned_update (Bool.eq_false_of_not_eq_true unpinned)] at later
          exact later

end Loop

section Reached

variable {lowBytes : UInt64} {isPinned : ContentHash → Bool}

theorem saturatingSub_le (total size : UInt64) : saturatingSub total size ≤ total := by
  unfold saturatingSub
  split
  · exact UInt64.zero_le
  · rename_i larger
    rw [UInt64.le_iff_toNat_le, UInt64.toNat_sub_of_le _ _ (by
      rw [UInt64.le_iff_toNat_le] at larger ⊢
      omega)]
    exact Nat.sub_le _ _

theorem runningTotal_le (total : UInt64) (rows : List Row) :
    runningTotal isPinned total rows ≤ total := by
  induction rows generalizing total with
  | nil => exact UInt64.le_refl total
  | cons row rows ih =>
    apply UInt64.le_trans (ih _)
    dsimp only
    split
    · exact UInt64.le_refl total
    · exact saturatingSub_le total row.2.sizeBytes

variable {rows : List Row} {map : IndexMap}

theorem lt_reachedCount_iff {total : UInt64} {pos : ℕ} (inside : pos < rows.length) :
    pos < reachedCount lowBytes isPinned total rows ↔
      lowBytes ≤ runningTotal isPinned total (rows.take pos) := by
  induction rows generalizing total pos with
  | nil => simp at inside
  | cons row rows ih =>
    rw [reachedCount]
    split
    · rename_i low
      simp only [Nat.not_lt_zero, false_iff, UInt64.not_le]
      exact UInt64.lt_of_le_of_lt (runningTotal_le total _) low
    · rename_i high
      cases pos with
      | zero => simpa [runningTotal] using high
      | succ pos =>
        rw [Nat.add_lt_add_iff_right, ih (Nat.lt_of_succ_lt_succ inside)]
        rfl

theorem runningTotal_take_le {total : UInt64} {prior later : ℕ} (pre : prior ≤ later) :
    runningTotal isPinned total (rows.take later) ≤
      runningTotal isPinned total (rows.take prior) := by
  rw [← take_append_drop prior (rows.take later), take_take, Nat.min_eq_left pre,
    runningTotal, foldl_append]
  exact runningTotal_le _ _

theorem getElem?_eraseRows {key : IndexKey} {entry : IndexEntry} :
    (eraseRows map rows)[key]? = some entry ↔
      map[key]? = some entry ∧ ∀ row ∈ rows, row.1 ≠ key := by
  induction rows generalizing map with
  | nil => simp [eraseRows]
  | cons row rows ih =>
    rw [eraseRows, foldl_cons, ← eraseRows, ih, Std.ExtTreeMap.getElem?_erase]
    by_cases same : row.1 = key <;> simp [same]

theorem isSome_eraseBlobs {blobs : ContentHash → Option ℕ} {hash : ContentHash} :
    (eraseBlobs blobs rows hash).isSome ↔
      (blobs hash).isSome ∧ ∀ row ∈ rows, row.2.hash ≠ hash := by
  induction rows generalizing blobs with
  | nil => simp [eraseBlobs]
  | cons row rows ih =>
    rw [eraseBlobs, foldl_cons, ← eraseBlobs, ih]
    by_cases same : row.2.hash = hash
    · simp [same]
    · simp [same, Function.update_of_ne (Ne.symm same)]

theorem mem_sortedRows {row : Row} : row ∈ sortedRows map ↔ map[row.1]? = some row.2 := by
  rw [sortedRows, mem_insertionSort, Std.ExtTreeMap.mem_toList_iff_getElem?_eq_some]

theorem row_eq_of_key {first second : Row} (atFirst : first ∈ sortedRows map)
    (atSecond : second ∈ sortedRows map) (same : first.1 = second.1) : first = second := by
  rw [mem_sortedRows] at atFirst atSecond
  rw [same, atSecond] at atFirst
  exact Prod.ext same (Option.some.inj atFirst).symm

theorem nodup_sortedRows (map : IndexMap) : (sortedRows map).Nodup := by
  rw [sortedRows, (perm_insertionSort _ _).nodup_iff]
  refine Std.ExtTreeMap.distinct_keys_toList.imp ?_
  rintro first second differ rfl
  exact differ Std.ReflCmp.compare_self

end Reached

def BlobsPresent (cache : CacheRoot) : Prop := ∀ (key : IndexKey) (entry : IndexEntry),
    cache.index.memory.state.entries[key]? = some entry → (cache.blobs entry.hash).isSome

/-- If a row is reached, so are the later rows that share its blob. -/
def SharedTogether (lowBytes : UInt64) (isPinned : ContentHash → Bool) (total : UInt64)
    (rows : List Row) : Prop :=
  ∀ i j first second, i < j → rows[i]? = some first → rows[j]? = some second →
    first.2.hash = second.2.hash → isPinned first.2.hash = false →
    lowBytes ≤ runningTotal isPinned total (rows.take i) →
    lowBytes ≤ runningTotal isPinned total (rows.take j)

theorem mem_removedRows {lowBytes : UInt64} {isPinned : ContentHash → Bool} {total : UInt64}
    {rows : List Row} {row : Row} :
    row ∈ removedRows lowBytes isPinned total rows ↔
      isPinned row.2.hash = false ∧ ∃ pos, rows[pos]? = some row ∧
        lowBytes ≤ runningTotal isPinned total (rows.take pos) := by
  rw [removedRows, mem_filter, Bool.not_eq_true', and_comm, mem_iff_getElem?]
  refine and_congr_right fun _ => exists_congr fun pos => ?_
  rw [getElem?_take]
  constructor
  · intro found
    split at found
    · rename_i reached
      rcases List.getElem?_eq_some_iff.mp found with ⟨inside, -⟩
      exact ⟨found, (lt_reachedCount_iff inside).mp reached⟩
    · contradiction
  · rintro ⟨found, high⟩
    rcases List.getElem?_eq_some_iff.mp found with ⟨inside, -⟩
    rw [if_pos ((lt_reachedCount_iff inside).mpr high), found]

/-- A pass leaves every remaining row its blob iff rows that share a blob are reached together,
or it has nothing to do. -/
theorem gcPass_intact_iff {codec : Codec} {faults : BlobFaults} {highBytes lowBytes : UInt64}
    {keepHardlinked : Bool} {cache final : CacheRoot} {stats : GcStats}
    (present : BlobsPresent cache)
    (success : gcPass codec faults highBytes lowBytes keepHardlinked cache = (.ok stats, final)) :
    BlobsPresent final ↔ totalBytes cache.index.memory.state.entries < highBytes ∨
        SharedTogether lowBytes (pinned keepHardlinked cache.blobs)
          (totalBytes cache.index.memory.state.entries)
          (sortedRows cache.index.memory.state.entries) := by
  rw [gcPass] at success
  split at success
  · rename_i enough
    cases success
    exact iff_of_true present (Or.inl enough)
  · rename_i full
    rcases gcLoop_ok success with ⟨map, blobs⟩
    rw [or_iff_right full]
    constructor
    · -- A second row that is not reached stays, and its blob is gone with the first one.
      intro intact i j first second before atFirst atSecond same unpinned reached
      by_contra unreached
      have stays : final.index.memory.state.entries[second.1]? = some second.2 := by
        rw [map, getElem?_eraseRows]
        refine ⟨mem_sortedRows.mp (mem_of_getElem? atSecond), ?_⟩
        intro row removed sameKey
        rcases mem_removedRows.mp removed with ⟨-, position, found, high⟩
        have sameRow : row = second := by
          apply row_eq_of_key (mem_of_getElem? found) (mem_of_getElem? atSecond) sameKey
        subst sameRow
        have samePosition : position = j := by
          rcases List.getElem?_eq_some_iff.mp found with ⟨inside, -⟩
          exact (getElem?_inj inside (nodup_sortedRows _)).mp (found.trans atSecond.symm)
        exact unreached (samePosition ▸ high)
      have gone := intact second.1 second.2 stays
      rw [blobs, isSome_eraseBlobs] at gone
      exact gone.2 first (mem_removedRows.mpr ⟨unpinned, i, atFirst, reached⟩) same
    · -- A row whose blob was removed with another one is reached like that one.
      intro together key entry remaining
      rw [map, getElem?_eraseRows] at remaining
      rw [blobs, isSome_eraseBlobs]
      refine ⟨present key entry remaining.1, ?_⟩
      intro row removed same
      rcases mem_removedRows.mp removed with ⟨unpinned, i, atRow, reached⟩
      have member : (key, entry) ∈ sortedRows cache.index.memory.state.entries :=
        mem_sortedRows.mpr remaining.1
      rcases mem_iff_getElem?.mp member with ⟨j, atEntry⟩
      have entryReached : lowBytes ≤ runningTotal (pinned keepHardlinked cache.blobs)
          (totalBytes cache.index.memory.state.entries)
          ((sortedRows cache.index.memory.state.entries).take j) := by
        by_cases before : i < j
        · exact together i j row (key, entry) before atRow atEntry same unpinned reached
        · exact UInt64.le_trans reached (runningTotal_take_le (Nat.le_of_not_lt before))
      exact remaining.2 (key, entry)
        (mem_removedRows.mpr ⟨same ▸ unpinned, j, atEntry, entryReached⟩) rfl

section SharedBlob

open IndexCall Journal

def springCoreJar : IndexKey := { springCoreSources with classifier := none }

def sharedCache : CacheRoot where
  index := ⟨bareDisk, [], ⟨⟨(∅ : IndexMap).insert springCoreJar springCoreEntry |>.insert
    springCoreSources { springCoreEntry with atimeUnix := 1800000000 }, 0⟩,
    defaultCompactThreshold⟩⟩
  blobs hash := if hash = springCoreEntry.hash then some 1 else none

def noFaults : BlobFaults := ⟨fun _ => none, fun _ => none⟩

theorem blobsPresent_sharedCache : BlobsPresent sharedCache := by
  intro key entry found
  have sameHash : entry.hash = springCoreEntry.hash := by
    rw [sharedCache, Std.ExtTreeMap.getElem?_insert, Std.ExtTreeMap.getElem?_insert] at found
    split at found
    · cases found
      rfl
    · split at found
      · cases found
        rfl
      · simp at found
  simp [sharedCache, sameHash]

/-- With a watermark of zero both rows are reached, and both go. -/
theorem gcPass_both_rows :
    let pass := gcPass bincode noFaults 4096 0 true sharedCache
    pass.1 = .ok ⟨2, 1, 0, 2048, false⟩ ∧ BlobsPresent pass.2 := by
  have returned : (gcPass bincode noFaults 4096 0 true sharedCache).1 =
      .ok ⟨2, 1, 0, 2048, false⟩ := by
    decide
  refine ⟨returned, (gcPass_intact_iff blobsPresent_sharedCache (Prod.ext returned rfl)).mpr ?_⟩
  right
  intro i j first second before atFirst atSecond same unpinned reached
  exact UInt64.zero_le

/-- The older row goes with the blob; the other one stays. -/
theorem gcPass_dangling : BlobsPresent sharedCache ∧
      let pass := gcPass bincode noFaults 4096 4096 true sharedCache
      pass.1 = .ok ⟨2, 1, 0, 2048, true⟩ ∧
        (pass.2.index.memory.get springCoreSources).map IndexEntry.hash =
          some springCoreEntry.hash ∧
        pass.2.blobs springCoreEntry.hash = none := by
  refine ⟨blobsPresent_sharedCache, ?_, ?_, ?_⟩
  · decide
  · decide
  · decide

end SharedBlob

end Gc

end Barista.Cache
