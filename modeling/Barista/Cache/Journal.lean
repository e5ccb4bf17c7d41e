import Barista.Coords
import Barista.KeyedLog
import Barista.ByteReader
import Barista.Framing

/-!
# Cache index entries

The keys and values of the cache index, the journal entries that describe its
mutations, and the in-memory map that they act on.  `journalLog` presents the
journal entries as a keyed log, so that the replay lemmas of `Barista.KeyedLog`
apply to the index.
-/

namespace Barista.Cache

structure ContentHash where
  bytes : Vector UInt8 32
  deriving DecidableEq

structure IndexKey where
  coords : Coords
  version : String
  type : String
  classifier : Option String
  deriving DecidableEq

namespace IndexKey

instance : Ord IndexKey where
  compare := compareLex (compareOn coords) (compareLex (compareOn version)
    (compareLex (compareOn type) (compareOn classifier)))

instance : Std.TransOrd IndexKey :=
  inferInstanceAs (Std.TransCmp (compareLex (compareOn coords) (compareLex (compareOn version)
    (compareLex (compareOn type) (compareOn classifier)))))

instance : Std.LawfulEqOrd IndexKey where
  eq_of_compare {left right} equal := by
    rcases compareLex_eq_eq.mp equal with ⟨sameCoords, equal⟩
    rcases compareLex_eq_eq.mp equal with ⟨sameVersion, equal⟩
    rcases compareLex_eq_eq.mp equal with ⟨sameType, sameClassifier⟩
    have coordsEq : left.coords = right.coords := Std.LawfulEqOrd.eq_of_compare sameCoords
    have versionEq : left.version = right.version := Std.LawfulEqOrd.eq_of_compare sameVersion
    have typeEq : left.type = right.type := Std.LawfulEqOrd.eq_of_compare sameType
    have classifierEq : left.classifier = right.classifier :=
      Std.LawfulEqOrd.eq_of_compare sameClassifier
    cases left
    cases right
    simp_all

end IndexKey

inductive OriginTier where
  | upstream
  | roastery
  deriving DecidableEq

structure Origin where
  repositoryUrl : String
  etag : Option String
  lastModified : Option String
  upstreamLastUpdated : Option String
  tier : OriginTier
  deriving DecidableEq

structure IndexEntry where
  hash : ContentHash
  sizeBytes : UInt64
  sha1Hex : Option String
  origin : Origin
  atimeUnix : UInt64
  createdUnix : UInt64
  deriving DecidableEq

inductive JournalEntry where
  | put (key : IndexKey) (entry : IndexEntry)
  | remove (key : IndexKey)
  | touch (key : IndexKey) (atimeUnix : UInt64)
  deriving DecidableEq

abbrev IndexMap := Std.ExtTreeMap IndexKey IndexEntry

namespace JournalEntry

def key : JournalEntry → IndexKey
  | .put key _ | .remove key | .touch key _ => key

def effect : JournalEntry → Option IndexEntry → Option IndexEntry
  | .put _ entry, _ => some entry
  | .remove _, _ => none
  | .touch _ atimeUnix, value => value.map fun entry => { entry with atimeUnix := atimeUnix }

def applyTo (entries : IndexMap) : JournalEntry → IndexMap
  | .put key entry => entries.insert key entry
  | .remove key => entries.erase key
  | .touch key atimeUnix => entries.modify key fun entry => { entry with atimeUnix := atimeUnix }

theorem touch_absorbs (key : IndexKey) (atimeUnix : UInt64) (entries : List JournalEntry)
    (val : Option IndexEntry) : (touch key atimeUnix).effect
        (entries.foldl (fun old entry => entry.effect old) ((touch key atimeUnix).effect val)) =
      (touch key atimeUnix).effect (entries.foldl (fun old entry => entry.effect old) val) := by
  suffices general : ∀ left right : Option IndexEntry,
      (touch key atimeUnix).effect left = (touch key atimeUnix).effect right →
      (touch key atimeUnix).effect (entries.foldl (fun old entry => entry.effect old) left) =
        (touch key atimeUnix).effect (entries.foldl (fun old entry => entry.effect old) right) by
    apply general
    cases val <;> rfl
  -- The two values agree except for their access times, and every mutation keeps it so.
  induction entries with
  | nil => exact fun _ _ agree => agree
  | cons entry entries ih =>
    intro left right agree
    apply ih
    cases entry with
    | put => rfl
    | remove => rfl
    | touch =>
      cases left <;> cases right <;> simp_all [effect]

end JournalEntry

def journalLog : KeyedLog IndexKey IndexEntry JournalEntry where
  key := JournalEntry.key
  effect := JournalEntry.effect
  absorb update updates value := by
    cases update with
    | put => rfl
    | remove => rfl
    | touch key atimeUnix => exact JournalEntry.touch_absorbs key atimeUnix updates value
  mono update smaller larger included value := by
    cases update with
    | put => exact id
    | remove => exact id
    | touch key atimeUnix =>
      simp only [JournalEntry.effect, Option.map_eq_some_iff]
      rintro ⟨entry, found, rfl⟩
      exact ⟨entry, included entry found, rfl⟩

namespace JournalEntry

theorem applyTo_eq (entries : IndexMap) (entry : JournalEntry) :
    entry.applyTo entries = journalLog.apply entries entry := by
  apply Std.ExtTreeMap.ext_getElem?
  intro key
  rw [KeyedLog.getElem?_apply]
  cases entry with
  | put tgt _ | remove tgt | touch tgt _ =>
    by_cases same : tgt = key <;>
      simp [applyTo, journalLog, JournalEntry.key, effect, Std.ExtTreeMap.getElem?_insert,
        Std.ExtTreeMap.getElem?_erase, Std.ExtTreeMap.getElem?_modify, same]

end JournalEntry

section Scanning

section Calls

structure Disk where
  indexDir : Bool
  snapshot : Option Bytes
  snapshotTmp : Option Bytes
  journal : Option Bytes
  deriving DecidableEq

namespace Disk

def fresh : Disk := ⟨false, none, none, none⟩

def journalBytes (disk : Disk) : Bytes := disk.journal.getD []

end Disk

inductive FsCall where
  | createIndexDir
  | openJournal
  | acquireLock
  | statJournal
  | readJournal
  | seekJournal
  | appendJournal (bytes : Bytes)
  | setLenJournal (length : ℕ)
  | syncJournal
  | statSnapshot
  | readSnapshot
  | createTmp
  | writeTmp (bytes : Bytes)
  | syncTmp
  | renameTmp
  deriving DecidableEq

namespace FsCall

def perform (disk : Disk) : FsCall → Disk
  | .createIndexDir => { disk with indexDir := true }
  | .openJournal => { disk with journal := some disk.journalBytes }
  | .appendJournal bytes => { disk with journal := some (disk.journalBytes ++ bytes) }
  | .setLenJournal length =>
    { disk with
      journal := some (disk.journalBytes.take length ++
        List.replicate (length - disk.journalBytes.length) 0) }
  | .createTmp => { disk with snapshotTmp := some [] }
  | .writeTmp bytes => { disk with snapshotTmp := some (disk.snapshotTmp.getD [] ++ bytes) }
  | .renameTmp => { disk with snapshot := disk.snapshotTmp, snapshotTmp := none }
  | .acquireLock | .statJournal | .readJournal | .seekJournal | .syncJournal
  | .statSnapshot | .readSnapshot | .syncTmp => disk

end FsCall

variable (disk : Disk)

def performAll (calls : List FsCall) : Disk := calls.foldl FsCall.perform disk

@[simp]
theorem performAll_nil : performAll disk [] = disk := rfl

@[simp]
theorem performAll_cons (call : FsCall) (calls : List FsCall) :
    performAll disk (call :: calls) = performAll (call.perform disk) calls := rfl

theorem performAll_append (first second : List FsCall) :
    performAll disk (first ++ second) = performAll (performAll disk first) second := by
  simp [performAll]

structure FsState (μ : Type) where
  disk : Disk
  calls : List FsCall
  memory : μ

namespace FsState

variable {μ : Type}

def after (state : FsState μ) (calls : List FsCall) : FsState μ :=
  ⟨performAll state.disk calls, state.calls ++ calls, state.memory⟩

variable (st : FsState μ) (calls : List FsCall)

@[simp]
theorem disk_after : (st.after calls).disk = performAll st.disk calls := rfl

@[simp]
theorem calls_after : (st.after calls).calls = st.calls ++ calls := rfl

@[simp]
theorem memory_after : (st.after calls).memory = st.memory := rfl

@[simp]
theorem after_nil : st.after [] = st := by
  simp [after]

@[simp]
theorem after_after (first second : List FsCall) :
    (st.after first).after second = st.after (first ++ second) := by
  simp [after, performAll_append]

end FsState

def FsM (μ ε α : Type) : Type := FsState μ → Except ε α × FsState μ

namespace FsM

variable {μ ε ε' α β : Type}

instance : Monad (FsM μ ε) where
  pure value state := (.ok value, state)
  bind program next state :=
    match program state with
    | (.ok value, middle) => next value middle
    | (.error error, middle) => (.error error, middle)

def call (fsCall : FsCall) : FsM μ ε Unit := fun state => (.ok (), state.after [fsCall])

def callAll : List FsCall → FsM μ ε Unit
  | [] => pure ()
  | fsCall :: rest => do
    call fsCall
    callAll rest

def getDisk : FsM μ ε Disk := fun state => (.ok state.disk, state)

def getMemory : FsM μ ε μ := fun state => (.ok state.memory, state)

def setMemory (memory : μ) : FsM μ ε Unit := fun state => (.ok (), { state with memory := memory })

def fail (error : ε) : FsM μ ε α := fun state => (.error error, state)

def ofExcept : Except ε α → FsM μ ε α
  | .ok value => pure value
  | .error error => fail error

def mapError (convert : ε → ε') (program : FsM μ ε α) : FsM μ ε' α := fun state =>
    match program state with
    | (.ok value, last) => (.ok value, last)
    | (.error error, last) => (.error (convert error), last)

def run (program : FsM μ ε α) (disk : Disk) (memory : μ) : Except ε α × FsState μ :=
  program ⟨disk, [], memory⟩

def killedAfter (program : FsM μ ε α) (disk : Disk) (memory : μ) (count : ℕ) : Disk :=
  performAll disk ((program.run disk memory).2.calls.take count)

@[simp]
theorem pure_apply (val : α) (st : FsState μ) : (pure val : FsM μ ε α) st = (.ok val, st) := rfl

theorem bind_apply (prog : FsM μ ε α) (next : α → FsM μ ε β) (st : FsState μ) : (prog >>= next) st =
      match prog st with
      | (.ok val, mid) => next val mid
      | (.error err, mid) => (.error err, mid) := rfl

@[simp]
theorem call_apply (fsCall : FsCall) (st : FsState μ) :
    (call fsCall : FsM μ ε Unit) st = (.ok (), st.after [fsCall]) := rfl

@[simp]
theorem getDisk_apply (st : FsState μ) : (getDisk : FsM μ ε Disk) st = (.ok st.disk, st) := rfl

@[simp]
theorem getMemory_apply (st : FsState μ) : (getMemory : FsM μ ε μ) st = (.ok st.memory, st) := rfl

@[simp]
theorem setMemory_apply (memory : μ) (st : FsState μ) : (setMemory memory : FsM μ ε Unit) st =
      (.ok (), ⟨st.disk, st.calls, memory⟩) := rfl

@[simp]
theorem fail_apply (err : ε) (st : FsState μ) : (fail err : FsM μ ε α) st = (.error err, st) := rfl

@[simp]
theorem ofExcept_apply (outcome : Except ε α) (st : FsState μ) :
    (ofExcept outcome : FsM μ ε α) st = (outcome, st) := by
  cases outcome <;> rfl

theorem mapError_apply (convert : ε → ε') (prog : FsM μ ε α) (st : FsState μ) :
    mapError convert prog st =
      match prog st with
      | (.ok val, last) => (.ok val, last)
      | (.error err, last) => (.error (convert err), last) := rfl

@[simp]
theorem callAll_apply (calls : List FsCall) (st : FsState μ) :
    (callAll calls : FsM μ ε Unit) st = (.ok (), st.after calls) := by
  induction calls generalizing st with
  | nil => simp [callAll]
  | cons fsCall rest ih =>
    simp [callAll, bind_apply, ih]

end FsM

end Calls

open List

structure Codec where
  encodeEntry : JournalEntry → Except String Bytes
  decodeEntry : Bytes → Except String JournalEntry
  encodeSnapshot : List (IndexKey × IndexEntry) → Except String Bytes
  decodeSnapshot : Bytes → Except String (List (IndexKey × IndexEntry))
  crc32 : Bytes → UInt32

structure Codec.Faithful (codec : Codec) : Prop where
  decodeEntry_of_encode : ∀ entry payload, codec.encodeEntry entry = .ok payload →
    codec.decodeEntry payload = .ok entry
  decodeSnapshot_of_encode : ∀ entries body, codec.encodeSnapshot entries = .ok body →
    codec.decodeSnapshot body = .ok entries

variable {codec : Codec} {entries : List JournalEntry} {bodies : List Bytes}

theorem Codec.Faithful.decode_map (faithful : codec.Faithful)
    (enc : entries.map codec.encodeEntry = bodies.map .ok) :
    bodies.map codec.decodeEntry = entries.map .ok := by
  induction entries generalizing bodies with
  | nil =>
    obtain rfl : bodies = [] := by simpa using enc.symm
    rfl
  | cons entry entries ih =>
    rcases bodies with _ | ⟨body, bodies⟩
    · simp at enc
    · simp only [map_cons, List.cons.injEq] at enc ⊢
      exact ⟨faithful.decodeEntry_of_encode entry body enc.1, ih enc.2⟩

def Decodable (codec : Codec) (payload : Bytes) : Prop :=
  ∃ entry, codec.decodeEntry payload = .ok entry

theorem Decodable.of_map (decoded : bodies.map codec.decodeEntry = entries.map .ok) :
    ∀ body ∈ bodies, Decodable codec body := by
  intro body mem
  have image : codec.decodeEntry body ∈ bodies.map codec.decodeEntry := mem_map_of_mem mem
  rw [decoded, mem_map] at image
  rcases image with ⟨entry, -, outcome⟩
  exact ⟨entry, outcome.symm⟩

inductive IndexPath where
  | indexDir
  | journal
  | lock
  | snapshot
  | snapshotTmp
  deriving DecidableEq

inductive IoErrorKind where
  | unexpectedEof
  | notFound
  | other
  deriving DecidableEq

inductive JournalError where
  | io (path : IndexPath) (kind : IoErrorKind)
  | badMagic (path : IndexPath) (expected got : Bytes)
  | unsupportedVersion (path : IndexPath) (version expected : ℕ)
  | truncated (path : IndexPath)
  | badChecksum (offset : ℕ)
  | bincode (offset : ℕ) (detail : String)
  | lockTimeout (path : IndexPath) (seconds : ℕ)
  deriving DecidableEq

def JournalError.isRecoverable : JournalError → Bool
  | .truncated _ | .badChecksum _ => true
  | .io _ _ | .badMagic _ _ _ | .unsupportedVersion _ _ _ | .bincode _ _ | .lockTimeout _ _ =>
    false

namespace Journal

def fileMagic : Bytes := [0x42, 0x43, 0x41, 0x53]

def journalVersion : ℕ := 1

def snapshotVersion : ℕ := 1

def headerLen : ℕ := 10

def writeHeader (version : ℕ) : List Bytes := [fileMagic, leBytes 4 version, [0, 0]]

def headerBytes (version : ℕ) : Bytes := (writeHeader version).flatten

def validateHeader (file : Bytes) (path : IndexPath) (expectedVersion : ℕ) :
    Except JournalError Unit :=
  if file.length < headerLen then .error (.io path .unexpectedEof)
  else
    let magic := file.take 4
    if magic ≠ fileMagic then .error (.badMagic path fileMagic magic)
    else
      let version := leWord ((file.drop 4).take 4)
      if version ≠ expectedVersion then
        .error (.unsupportedVersion path version expectedVersion)
      else .ok ()

def encodePayload (codec : Codec) (entry : JournalEntry) (offset : ℕ) : Except JournalError Bytes :=
  (codec.encodeEntry entry).mapError (.bincode offset)

def decodePayload (codec : Codec) (bytes : Bytes) (offset : ℕ) : Except JournalError JournalEntry :=
  (codec.decodeEntry bytes).mapError (.bincode offset)

variable {entry : JournalEntry} {body : Bytes}

theorem encodePayload_of_ok (enc : codec.encodeEntry entry = .ok body) (offset : ℕ) :
    encodePayload codec entry offset = .ok body := by
  rw [encodePayload, enc]
  rfl

theorem decodePayload_of_ok (decoded : codec.decodeEntry body = .ok entry) (offset : ℕ) :
    decodePayload codec body offset = .ok entry := by
  rw [decodePayload, decoded]
  rfl

theorem decodePayload_of_error {detail : String} (failed : codec.decodeEntry body = .error detail)
    (offset : ℕ) :
    decodePayload codec body offset = .error (.bincode offset detail) := by
  rw [decodePayload, failed]
  rfl

end Journal

open Journal

structure JournalIter (σ : Type) where
  reader : σ
  position : ℕ
  done : Bool

namespace JournalIter

variable {σ : Type} (codec : Codec) (reader : ByteReader σ)

def lastGoodOffset (iter : JournalIter σ) : ℕ := iter.position

def next (iter : JournalIter σ) : Option (Except JournalError JournalEntry) × JournalIter σ :=
  if iter.done then (none, iter)
  else
    -- The length prefix is read by one call, whose answer may be short.
    let (lenBuf, afterLen) := reader.read 4 iter.reader
    if lenBuf = [] then (none, ⟨afterLen, iter.position, true⟩)
    else if lenBuf.length < 4 then
      (some (.error (.truncated .journal)), ⟨afterLen, iter.position, true⟩)
    else
      let payloadLen := leWord lenBuf
      let recordStart := iter.position
      match reader.readExact payloadLen afterLen with
      | none => (some (.error (.truncated .journal)), ⟨afterLen, iter.position, true⟩)
      | some (payload, afterPayload) =>
        match reader.readExact 4 afterPayload with
        | none => (some (.error (.truncated .journal)), ⟨afterPayload, iter.position, true⟩)
        | some (crcBuf, afterCrc) =>
          if leWord crcBuf ≠ (codec.crc32 payload).toNat then
            (some (.error (.badChecksum recordStart)), ⟨afterCrc, iter.position, true⟩)
          else
            (some (decodePayload codec payload (recordStart + 4)),
              ⟨afterCrc, iter.position + (4 + payloadLen + 4), false⟩)

def size (iter : JournalIter σ) : ℕ :=
  if iter.done then 0 else (reader.contents iter.reader).length + 1

def WholeAt (state : σ) : Prop := (reader.read 4 state).1 = (reader.contents state).take 4

inductive Step (iter : JournalIter σ) :
    Option (Except JournalError JournalEntry) × JournalIter σ → Prop where
  | finished (last : σ) (empty : reader.contents iter.reader = []) :
      Step iter (none, ⟨last, iter.position, true⟩)
  | stuck (last : σ) (error : JournalError) (recoverable : error.isRecoverable = true)
      (nonempty : reader.contents iter.reader ≠ [])
      (cause : unframe codec.crc32 (reader.contents iter.reader) = none ∨
        ¬WholeAt reader iter.reader ∧ error = .truncated .journal) :
      Step iter (some (.error error), ⟨last, iter.position, true⟩)
  | record (last : σ) (payload : Bytes) (whole : WholeAt reader iter.reader)
      (parsed : unframe codec.crc32 (reader.contents iter.reader) =
        some (payload, reader.contents last)) :
      Step iter (some (decodePayload codec payload (iter.position + 4)),
        ⟨last, iter.position + (payload.length + 8), false⟩)

variable {codec reader}

theorem step_next {iter : JournalIter σ} (active : iter.done = false) :
    Step codec reader iter (iter.next codec reader) := by
  rcases ans : reader.read 4 iter.reader with ⟨lenBuf, afterLen⟩
  have split := ByteReader.contents_of_read ans
  have lenLe := ByteReader.length_of_read ans
  simp only [next, active, ans, Bool.false_eq_true, if_false]
  split
  · rename_i noBytes
    apply Step.finished
    by_contra ne
    exact ByteReader.ne_nil_of_read ans (by omega) ne noBytes
  · next someBytes =>
    have ne : reader.contents iter.reader ≠ [] := by
      simp [split, someBytes]
    split
    · rename_i short
      apply Step.stuck _ _ rfl ne
      by_cases whole : WholeAt reader iter.reader
      · -- A whole answer of less than four bytes is all that is left of the file.
        left
        rw [WholeAt, ans] at whole
        have wholeLength := congrArg List.length whole
        simp only [length_take] at wholeLength
        rw [unframe, if_pos (by omega)]
      · exact Or.inr ⟨whole, rfl⟩
    · next long =>
      have lenLength : lenBuf.length = 4 := by omega
      have whole : WholeAt reader iter.reader := by
        rw [WholeAt, ans, split, ← lenLength, take_left]
      have unframed : unframe codec.crc32 (lenBuf ++ reader.contents afterLen) = _ :=
        unframe_append lenLength
      rw [← split] at unframed
      rcases payloadRead : reader.readExact (leWord lenBuf) afterLen with
        _ | ⟨body, afterPayload⟩
      · have short := ByteReader.readExact_eq_none payloadRead
        rw [if_pos (by omega)] at unframed
        exact Step.stuck _ _ rfl ne (Or.inl unframed)
      rcases ByteReader.readExact_eq_some payloadRead with ⟨avail, rfl, payloadRest⟩
      rcases crcRead : reader.readExact 4 afterPayload with _ | ⟨crcBuf, afterCrc⟩
      · simp only [crcRead]
        have short := ByteReader.readExact_eq_none crcRead
        rw [payloadRest, length_drop] at short
        rw [if_pos (by omega)] at unframed
        exact Step.stuck _ _ rfl ne (Or.inl unframed)
      rcases ByteReader.readExact_eq_some crcRead with ⟨crcAvailable, rfl, crcRest⟩
      rw [payloadRest, length_drop] at crcAvailable
      rw [payloadRest] at crcRest
      rw [if_neg (by omega), ← crcRest] at unframed
      simp only [crcRead, payloadRest]
      split
      · rename_i mismatch
        rw [if_neg mismatch] at unframed
        exact Step.stuck _ _ rfl ne (Or.inl unframed)
      · rename_i matching
        rw [if_pos (not_not.mp matching)] at unframed
        have payloadLength :
            ((reader.contents afterLen).take (leWord lenBuf)).length = leWord lenBuf := by
          rw [length_take]
          omega
        have advance : 4 + leWord lenBuf + 4 =
            ((reader.contents afterLen).take (leWord lenBuf)).length + 8 := by omega
        rw [advance]
        exact Step.record afterCrc _ whole unframed

theorem size_next_lt {iter rest : JournalIter σ} {item : Except JournalError JournalEntry}
    (yielded : iter.next codec reader = (some item, rest)) :
    rest.size reader < iter.size reader := by
  by_cases active : iter.done = false
  · have step : Step codec reader iter _ := step_next active
    rw [yielded] at step
    cases step with
    | stuck => simp [size, active]
    | record last body whole parsed =>
      rcases unframe_eq_some_iff.mp parsed with ⟨-, split⟩
      have lengths := congrArg List.length split
      rw [length_append, length_frame] at lengths
      simp only [size, active, Bool.false_eq_true, if_false]
      omega
  · rw [Bool.not_eq_false] at active
    simp [next, active] at yielded

variable (codec reader)

def items (iter : JournalIter σ) : List (Except JournalError JournalEntry) :=
  match _ : iter.next codec reader with
  | (none, _) => []
  | (some item, rest) => item :: items rest
termination_by iter.size reader
decreasing_by exact size_next_lt ‹_›

def foldRecords {α : Type} (body : α → JournalEntry → α) (acc : α) (iter : JournalIter σ) :
    α × Option JournalError × JournalIter σ :=
  match _ : iter.next codec reader with
  | (none, last) => (acc, none, last)
  | (some (.error error), last) => (acc, some error, last)
  | (some (.ok entry), rest) => foldRecords body (body acc entry) rest
termination_by iter.size reader
decreasing_by exact size_next_lt ‹_›

def PrefixesWhole (iter : JournalIter σ) : Prop :=
  ∀ count, let reached := (fun state => (next codec reader state).2)^[count] iter
    reached.done = false → WholeAt reader reached.reader

def FirstPrefixesWhole (iter : JournalIter σ) (count : ℕ) : Prop :=
  ∀ done < count, WholeAt reader ((fun state => (next codec reader state).2)^[done] iter).reader

structure Scan (iter : JournalIter σ) (payloads : List Bytes) (entries : List JournalEntry)
    (rest : Bytes) (stop : Option JournalError) (last : JournalIter σ) : Prop where
  split : reader.contents iter.reader = frames codec.crc32 payloads ++ rest
  fits : ∀ payload ∈ payloads, FitsFrame payload
  decoded : payloads.map codec.decodeEntry = entries.map .ok
  wholes : FirstPrefixesWhole codec reader iter payloads.length
  ended : stop = none → rest = []
  position : (∀ error ∈ stop, error.isRecoverable = true) →
    last.position = iter.position + (frames codec.crc32 payloads).length
  stuck : ∀ error ∈ stop, error.isRecoverable = true →
    rest ≠ [] ∧ (PrefixesWhole codec reader iter → unframe codec.crc32 rest = none)
  undecodable : ∀ error ∈ stop, error.isRecoverable = false →
    ∃ payload after detail, unframe codec.crc32 rest = some (payload, after) ∧
      codec.decodeEntry payload = .error detail

variable {codec reader} {iter last : JournalIter σ} {stop : Option JournalError}

theorem PrefixesWhole.head (whole : PrefixesWhole codec reader iter) (active : iter.done = false) :
    WholeAt reader iter.reader :=
  whole 0 active

theorem PrefixesWhole.tail (whole : PrefixesWhole codec reader iter) :
    PrefixesWhole codec reader (iter.next codec reader).2 :=
  fun count => whole (count + 1)

theorem prefixesWhole_of_done (done : iter.done = true) : PrefixesWhole codec reader iter := by
  have stays : (next codec reader iter).2 = iter := by
    simp [next, done]
  intro count
  rw [Function.iterate_fixed stays]
  intro reached active
  exact absurd (done.symm.trans active) (by decide)

theorem PrefixesWhole.step (wholeAt : WholeAt reader iter.reader)
    (whole : PrefixesWhole codec reader (iter.next codec reader).2) :
    PrefixesWhole codec reader iter := by
  intro count
  rcases count with _ | count
  · exact fun _ => wholeAt
  · exact whole count

theorem prefixesWhole_of_empty (empty : reader.contents iter.reader = []) :
    PrefixesWhole codec reader iter := by
  by_cases active : iter.done = false
  · apply PrefixesWhole.step
    · have nothing := reader.read_append 4 iter.reader
      rw [empty, append_eq_nil_iff] at nothing
      rw [WholeAt, nothing.1, empty, take_nil]
    · have step : Step codec reader iter _ := step_next active
      rcases yielded : iter.next codec reader with ⟨item, post⟩
      rw [yielded] at step
      cases step with
      | finished last empty => exact prefixesWhole_of_done rfl
      | stuck last err recoverable ne cause => exact absurd empty ne
      | record last body whole parsed =>
        rw [empty] at parsed
        simp [unframe] at parsed
  · exact prefixesWhole_of_done (Bool.eq_true_of_not_eq_false active)

theorem next_invariant {inv : σ → Prop}
    (preserved : ∀ wanted st, inv st → inv (reader.read wanted st).2) (holds : inv iter.reader) :
    inv (iter.next codec reader).2.reader := by
  have afterLen := preserved 4 iter.reader holds
  unfold next
  split
  · exact holds
  · dsimp only
    split
    · exact afterLen
    · split
      · exact afterLen
      · split
        · exact afterLen
        · rename_i body afterPayload payloadRead
          have afterPayload := ByteReader.readExact_invariant preserved afterLen payloadRead
          split
          · exact afterPayload
          · rename_i crcBuf afterCrc crcRead
            have afterCrc := ByteReader.readExact_invariant preserved afterPayload crcRead
            split <;> exact afterCrc

theorem prefixesWhole_of_invariant {inv : σ → Prop}
    (preserved : ∀ wanted st, inv st → inv (reader.read wanted st).2)
    (wholeAt : ∀ st, inv st → WholeAt reader st) (holds : inv iter.reader) :
    PrefixesWhole codec reader iter := by
  intro count
  induction count generalizing iter with
  | zero => exact fun _ => wholeAt _ holds
  | succ count ih => exact ih (next_invariant preserved holds)

theorem items_eq (iter : JournalIter σ) : items codec reader iter =
      match iter.next codec reader with
      | (none, _) => []
      | (some item, rest) => item :: items codec reader rest := by
  rw [items]
  split <;> simp_all

theorem foldRecords_eq {α : Type} (body : α → JournalEntry → α) (acc : α) (iter : JournalIter σ) :
    foldRecords codec reader body acc iter =
      match iter.next codec reader with
      | (none, last) => (acc, none, last)
      | (some (.error err), last) => (acc, some err, last)
      | (some (.ok entry), rest) => foldRecords codec reader body (body acc entry) rest := by
  rw [foldRecords]
  split <;> simp_all

theorem Scan.cons {rest : JournalIter σ} {body tail : Bytes} {entry : JournalEntry}
    (whole : WholeAt reader iter.reader)
    (parsed : unframe codec.crc32 (reader.contents iter.reader) = some (body, reader.contents
      rest.reader)) (decoded : codec.decodeEntry body = .ok entry)
    (advanced : rest = (iter.next codec reader).2)
    (moved : rest.position = iter.position + (body.length + 8))
    (scan : Scan codec reader rest bodies entries tail stop last) :
    Scan codec reader iter (body :: bodies) (entry :: entries) tail stop last where
  split := by
    rw [(unframe_eq_some_iff.mp parsed).2, scan.split, frames_cons, append_assoc]
  fits := by
    simp only [forall_mem_cons]
    exact ⟨(unframe_eq_some_iff.mp parsed).1, scan.fits⟩
  decoded := by
    rw [map_cons, map_cons, decoded, scan.decoded]
  wholes done pre := by
    rcases done with _ | done
    · exact whole
    · rw [Function.iterate_succ_apply, ← advanced]
      exact scan.wholes done (Nat.lt_of_succ_lt_succ pre)
  ended := scan.ended
  position recoverable := by
    rw [scan.position recoverable, moved, frames_cons, length_append, length_frame]
    omega
  stuck err stopped recoverable := by
    rcases scan.stuck err stopped recoverable with ⟨ne, cause⟩
    exact ⟨ne, fun whole => cause (advanced ▸ whole.tail)⟩
  undecodable := scan.undecodable

variable (codec reader) in
theorem scan_foldRecords {α : Type} (body : α → JournalEntry → α) (acc : α)
    {iter : JournalIter σ} (active : iter.done = false) :
    ∃ bodies entries rest stop last,
      foldRecords codec reader body acc iter = (entries.foldl body acc, stop, last) ∧
        Scan codec reader iter bodies entries rest stop last := by
  induction remaining : iter.size reader using Nat.strong_induction_on generalizing iter acc with
  | h remaining ih =>
    subst remaining
    have step : Step codec reader iter _ := step_next active
    rw [foldRecords_eq]
    rcases yielded : iter.next codec reader with ⟨item, post⟩
    rw [yielded] at step
    cases step with
    | finished last empty =>
      refine ⟨[], [], [], none, _, rfl, ?_⟩
      constructor <;> simp [empty, FirstPrefixesWhole]
    | stuck last err recoverable ne cause =>
      refine ⟨[], [], reader.contents iter.reader, some err, _, rfl, ?_⟩
      constructor <;> simp [recoverable, ne, FirstPrefixesWhole]
      intro whole
      exact cause.resolve_right fun notWhole => notWhole.1 (whole.head active)
    | record last payload whole parsed =>
      rcases outcome : codec.decodeEntry payload with detail | entry
      · rw [decodePayload_of_error outcome]
        refine ⟨[], [], reader.contents iter.reader, _, _, rfl, ?_⟩
        constructor <;>
          simp [JournalError.isRecoverable, parsed, outcome, FirstPrefixesWhole]
      · have smaller := size_next_lt yielded
        rcases ih _ smaller (body acc entry) rfl rfl with
          ⟨bodies, entries, rest, stop, final, folded, scan⟩
        refine ⟨payload :: bodies, entry :: entries, rest, stop, final, ?_,
          Scan.cons whole parsed outcome (by rw [yielded]) rfl scan⟩
        rw [decodePayload_of_ok outcome]
        exact folded

section Frames

variable {rest : Bytes} (scan : Scan codec reader iter bodies entries rest stop last)
  (whole : PrefixesWhole codec reader iter)

include scan whole

theorem Scan.longestPrefix (recoverable : ∀ err ∈ stop, err.isRecoverable = true) :
    LongestPrefix codec.crc32 (Decodable codec) (reader.contents iter.reader) bodies rest := by
  rw [scan.split]
  apply longestPrefix_of_stuck scan.fits (Decodable.of_map scan.decoded)
  intro body post parsed
  rcases stop with _ | err
  · rw [scan.ended rfl] at parsed
    simp [unframe] at parsed
  · rw [(scan.stuck err rfl (recoverable err rfl)).2 whole] at parsed
    contradiction

theorem Scan.of_frames {recs : List Bytes} {all : List JournalEntry}
    (contents : reader.contents iter.reader = frames codec.crc32 recs)
    (fits : ∀ record ∈ recs, FitsFrame record)
    (decodable : recs.map codec.decodeEntry = all.map .ok) :
    entries = all ∧ stop = none ∧
      last.position = iter.position + (frames codec.crc32 recs).length := by
  rcases eq_append_of_frames_eq fits scan.fits (contents.symm.trans scan.split) with
    ⟨more, rfl, rfl⟩
  rcases more with _ | ⟨next, more⟩
  · have entriesEq : entries = all := by
      rw [append_nil, scan.decoded] at decodable
      exact map_injective_iff.mpr (fun _ _ => Except.ok.inj) decodable
    have stopped : stop = none := by
      rw [Option.eq_none_iff_forall_ne_some]
      rintro err rfl
      by_cases recoverable : err.isRecoverable = true
      · exact (scan.stuck err rfl recoverable).1 rfl
      · rw [Bool.not_eq_true] at recoverable
        rcases scan.undecodable err rfl recoverable with ⟨body, post, detail, parsed, -⟩
        simp [unframe] at parsed
    refine ⟨entriesEq, stopped, ?_⟩
    rw [append_nil]
    exact scan.position (by simp [stopped])
  · -- The scan cannot have stopped in front of a decodable record.
    exfalso
    have nextFits := fits next (by simp)
    have parsed : unframe codec.crc32 (frames codec.crc32 (next :: more)) = some (next, _) :=
      unframe_frame_append nextFits _
    rcases stop with _ | err
    · have empty := congrArg List.length (scan.ended rfl)
      simp at empty
    · by_cases recoverable : err.isRecoverable = true
      · rw [(scan.stuck err rfl recoverable).2 whole] at parsed
        contradiction
      · rw [Bool.not_eq_true] at recoverable
        rcases scan.undecodable err rfl recoverable with ⟨body, post, detail, other, failed⟩
        rw [parsed, Option.some.injEq, Prod.mk.injEq] at other
        rcases other with ⟨rfl, -⟩
        rcases Decodable.of_map decodable next (by simp) with ⟨entry, outcome⟩
        rw [failed] at outcome
        contradiction

end Frames

end JournalIter

end Scanning

open List
open FsM JournalIter

namespace Journal

variable {μ σ : Type}

def openFile : FsM μ JournalError Unit := do
  call .openJournal
  call .acquireLock
  call .statJournal
  let disk ← getDisk
  if disk.journalBytes = [] then
    callAll ((writeHeader journalVersion).map .appendJournal)
    call .syncJournal
  else
    call .readJournal
    ofExcept (validateHeader disk.journalBytes .journal journalVersion)
  call .seekJournal

def append (codec : Codec) (entry : JournalEntry) : FsM μ JournalError ℕ := do
  let payload ← ofExcept (encodePayload codec entry 0)
  if FitsFrame payload then
    call .acquireLock
    call .seekJournal
    let disk ← getDisk
    let offset := disk.journalBytes.length
    call (.appendJournal (frame codec.crc32 payload))
    call .syncJournal
    return offset
  else fail (.bincode 0 "payload exceeds u32::MAX bytes")

def iterEntriesWithPositions (reader : ByteReader σ) : FsM μ JournalError (JournalIter σ) := do
  call .readJournal
  let disk ← getDisk
  ofExcept (validateHeader disk.journalBytes .journal journalVersion)
  return ⟨reader.start (disk.journalBytes.drop headerLen), headerLen, false⟩

def truncateTo (offset : ℕ) : FsM μ JournalError Unit := do
  let target := max offset headerLen
  call .acquireLock
  call (.setLenJournal target)
  call .seekJournal
  call .syncJournal

def truncate : FsM μ JournalError Unit := do
  call .acquireLock
  call (.setLenJournal 0)
  call .seekJournal
  callAll ((writeHeader journalVersion).map .appendJournal)
  call .syncJournal

structure HasHeader (version : ℕ) (file : Bytes) : Prop where
  length : headerLen ≤ file.length
  magic : file.take 4 = fileMagic
  version : leWord ((file.drop 4).take 4) = version

variable {file : Bytes} {ver : ℕ} {st : FsState μ}

theorem validateHeader_eq_ok_iff {path : IndexPath} :
    validateHeader file path ver = .ok () ↔ HasHeader ver file := by
  unfold validateHeader
  constructor
  · intro valid
    split at valid
    · contradiction
    · rename_i long
      dsimp only at valid
      split at valid
      · contradiction
      · rename_i magic
        split at valid
        · contradiction
        · rename_i ver
          exact ⟨Nat.le_of_not_lt long, not_not.mp magic, not_not.mp ver⟩
  · rintro ⟨len, magic, rfl⟩
    rw [if_neg (Nat.not_lt.mpr len)]
    simp [magic]

theorem HasHeader.validate (hdr : HasHeader ver file) (path : IndexPath) :
    validateHeader file path ver = .ok () :=
  validateHeader_eq_ok_iff.mpr hdr

@[simp]
theorem length_headerBytes (ver : ℕ) : (headerBytes ver).length = headerLen := by
  simp [headerBytes, writeHeader, headerLen, fileMagic]

theorem hasHeader_headerBytes_append (fits : ver < 256 ^ 4) (rest : Bytes) :
    HasHeader ver (headerBytes ver ++ rest) := by
  have layout : headerBytes ver ++ rest = fileMagic ++ (leBytes 4 ver ++ ([0, 0] ++ rest)) := by
    simp [headerBytes, writeHeader]
  constructor
  · rw [length_append, length_headerBytes]
    exact Nat.le_add_right _ _
  · rw [layout]
    rfl
  · rw [layout, drop_left' (by rfl), take_left' (length_leBytes _ _), leWord_leBytes fits]

theorem HasHeader.append (hdr : HasHeader ver file) (more : Bytes) :
    HasHeader ver (file ++ more) := by
  have long := hdr.length
  simp only [headerLen] at long
  constructor
  · rw [length_append]
    exact le_trans hdr.length (Nat.le_add_right _ _)
  · rw [take_append_of_le_length (by omega), hdr.magic]
  · rw [drop_append_of_le_length (by omega),
      take_append_of_le_length (by rw [length_drop]; omega), hdr.version]

theorem HasHeader.take {cut : ℕ} (hdr : HasHeader ver file) (cutLe : headerLen ≤ cut) :
    HasHeader ver (file.take cut) := by
  have long := hdr.length
  simp only [headerLen] at long cutLe
  constructor
  · rw [length_take]
    simp only [headerLen]
    omega
  · rw [take_take, Nat.min_eq_left (by omega), hdr.magic]
  · rw [drop_take, take_take, Nat.min_eq_left (by omega), hdr.version]

def createCalls : List FsCall := [.openJournal, .acquireLock, .statJournal] ++
    (writeHeader journalVersion).map .appendJournal ++ [.syncJournal, .seekJournal]

def reopenCalls : List FsCall :=
  [.openJournal, .acquireLock, .statJournal, .readJournal, .seekJournal]

def appendCalls (record : Bytes) : List FsCall :=
  [.acquireLock, .seekJournal, .appendJournal record, .syncJournal]

def truncateToCalls (offset : ℕ) : List FsCall :=
  [.acquireLock, .setLenJournal (max offset headerLen), .seekJournal, .syncJournal]

def truncateCalls : List FsCall := [.acquireLock, .setLenJournal 0, .seekJournal] ++
    (writeHeader journalVersion).map .appendJournal ++ [.syncJournal]

theorem openFile_of_empty (empty : st.disk.journalBytes = []) :
    openFile st = (.ok (), st.after createCalls) := by
  simp only [Disk.journalBytes] at empty
  simp [openFile, bind_apply, createCalls, FsCall.perform, Disk.journalBytes, empty]

theorem openFile_of_nonempty (ne : st.disk.journalBytes ≠ []) : openFile st =
      match validateHeader st.disk.journalBytes .journal journalVersion with
      | .ok () => (.ok (), st.after reopenCalls)
      | .error err =>
        (.error err, st.after [.openJournal, .acquireLock, .statJournal, .readJournal]) := by
  simp only [Disk.journalBytes] at ne
  rcases outcome : validateHeader st.disk.journalBytes .journal journalVersion with
    err | ⟨⟩ <;>
  · simp only [Disk.journalBytes] at outcome
    simp [openFile, bind_apply, reopenCalls, FsCall.perform, Disk.journalBytes, ne, outcome]

variable {codec : Codec} {entry : JournalEntry} {reader : ByteReader σ} {disk : Disk}

theorem append_of_encode {body : Bytes} (enc : codec.encodeEntry entry = .ok body)
    (fits : FitsFrame body) (st : FsState μ) :
    append codec entry st = (.ok st.disk.journalBytes.length,
        st.after (appendCalls (frame codec.crc32 body))) := by
  simp [append, bind_apply, encodePayload_of_ok enc, fits, appendCalls, FsCall.perform]

theorem fits_or_not (codec : Codec) (entry : JournalEntry) :
    (∃ body, codec.encodeEntry entry = .ok body ∧ FitsFrame body) ∨
      ∀ body, codec.encodeEntry entry = .ok body → ¬FitsFrame body := by
  rw [or_iff_not_imp_left]
  push Not
  exact id

theorem append_of_not_encode
    (unwritable : ∀ body, codec.encodeEntry entry = .ok body → ¬FitsFrame body) (st : FsState μ) :
    ∃ err, append codec entry st = (.error err, st) := by
  rcases enc : codec.encodeEntry entry with detail | body
  · refine ⟨.bincode 0 detail, ?_⟩
    simp [append, bind_apply, encodePayload, enc, Except.mapError]
  · refine ⟨.bincode 0 "payload exceeds u32::MAX bytes", ?_⟩
    simp [append, bind_apply, encodePayload_of_ok enc, unwritable body enc]

theorem iterEntriesWithPositions_of_header (hdr : HasHeader journalVersion st.disk.journalBytes) :
    iterEntriesWithPositions reader st =
      (.ok ⟨reader.start (st.disk.journalBytes.drop headerLen), headerLen, false⟩,
        st.after [.readJournal]) := by
  simp [iterEntriesWithPositions, bind_apply, FsCall.perform, hdr.validate]

theorem truncateTo_apply (offset : ℕ) (st : FsState μ) :
    truncateTo offset st = (.ok (), st.after (truncateToCalls offset)) := by
  simp [truncateTo, bind_apply, truncateToCalls]

theorem truncate_apply (st : FsState μ) : truncate st = (.ok (), st.after truncateCalls) := by
  simp [truncate, bind_apply, truncateCalls]

theorem performAll_truncateCalls (disk : Disk) : performAll disk truncateCalls =
      { disk with journal := some (headerBytes journalVersion) } := by
  simp [truncateCalls, FsCall.perform, Disk.journalBytes, headerBytes, writeHeader]

theorem performAll_appendCalls (disk : Disk) (record : Bytes) :
    performAll disk (appendCalls record) =
      { disk with journal := some (disk.journalBytes ++ record) } := by
  simp [appendCalls, FsCall.perform, Disk.journalBytes]

theorem performAll_truncateToCalls {offset : ℕ} (pastHeader : headerLen ≤ offset)
    (inside : offset ≤ disk.journalBytes.length) :
    performAll disk (truncateToCalls offset) =
      { disk with journal := some (disk.journalBytes.take offset) } := by
  simp [truncateToCalls, FsCall.perform, Nat.max_eq_left pastHeader, Nat.sub_eq_zero_of_le inside]

theorem performAll_createCalls (empty : disk.journalBytes = []) : performAll disk createCalls =
      { disk with journal := some (headerBytes journalVersion) } := by
  simp only [Disk.journalBytes] at empty
  simp [createCalls, FsCall.perform, Disk.journalBytes, headerBytes, writeHeader, empty]

theorem performAll_reopenCalls (disk : Disk) :
    performAll disk reopenCalls = { disk with journal := some disk.journalBytes } := rfl

end Journal

end Barista.Cache
