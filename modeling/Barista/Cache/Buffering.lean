import Barista.PrefixCodec
import Barista.Cache.Opening

/-!
# The journal under a buffered reader

The iterator takes one short answer for the end of the file. It reads every entry exactly if no
length prefix lies across the edge of a buffer.
-/

namespace Barista.Cache

namespace Bincode

open PrefixCodec

def crcStep (crc : UInt32) : UInt32 :=
  if crc &&& 1 = 1 then (crc >>> 1) ^^^ 0xEDB88320 else crc >>> 1

def crc32 (bytes : Bytes) : UInt32 :=
  (bytes.foldl (fun crc byte => crcStep^[8] (crc ^^^ byte.toUInt32)) 0xFFFFFFFF) ^^^ 0xFFFFFFFF

def word64 : PrefixCodec UInt64 := varint.via UInt64.toNat fun value =>
    if value < 2 ^ 64 then .ok (UInt64.ofNat value) else .error "integer out of range"

def coords : PrefixCodec Coords := string.via Coords.display fun text =>
    (Coords.fromStr text).mapError fun _ => "invalid coordinate"

def indexKey : PrefixCodec IndexKey := (coords.pair (string.pair (string.pair string.option))).via
    (fun key => (key.coords, key.version, key.type, key.classifier))
    fun (coords, version, type, classifier) => .ok ⟨coords, version, type, classifier⟩

def tier : PrefixCodec OriginTier := varint.via (fun | .upstream => 0 | .roastery => 1)
    fun | 0 => .ok .upstream | 1 => .ok .roastery | _ => .error "invalid variant"

def origin : PrefixCodec Origin :=
  (string.pair (string.option.pair (string.option.pair (string.option.pair tier)))).via
    (fun origin => (origin.repositoryUrl, origin.etag, origin.lastModified,
      origin.upstreamLastUpdated, origin.tier))
    fun (url, etag, lastModified, upstreamLastUpdated, tier) =>
      .ok ⟨url, etag, lastModified, upstreamLastUpdated, tier⟩

def contentHash : PrefixCodec ContentHash :=
  (bytesOf 32).via ContentHash.bytes fun bytes => .ok ⟨bytes⟩

def indexEntry : PrefixCodec IndexEntry :=
  (contentHash.pair (word64.pair (string.option.pair (origin.pair (word64.pair word64))))).via
    (fun entry => (entry.hash, entry.sizeBytes, entry.sha1Hex, entry.origin, entry.atimeUnix,
      entry.createdUnix))
    fun (hash, sizeBytes, sha1Hex, origin, atimeUnix, createdUnix) =>
      .ok ⟨hash, sizeBytes, sha1Hex, origin, atimeUnix, createdUnix⟩

def journalEntry : PrefixCodec JournalEntry where
  encode
    | .put key entry => joined (varint.encode 0) ((indexKey.pair indexEntry).encode (key, entry))
    | .remove key => joined (varint.encode 1) (indexKey.encode key)
    | .touch key atimeUnix =>
      joined (varint.encode 2) ((indexKey.pair word64).encode (key, atimeUnix))
  decode bytes := (varint.decode bytes).bind fun (variant, rest) =>
      match variant with
      | 0 => ((indexKey.pair indexEntry).decode rest).map
          fun ((key, entry), after) => (.put key entry, after)
      | 1 => (indexKey.decode rest).map fun (key, after) => (.remove key, after)
      | 2 => ((indexKey.pair word64).decode rest).map
          fun ((key, atimeUnix), after) => (.touch key atimeUnix, after)
      | _ => .error "invalid variant"
  decode_encode entry bytes rest encoded := by
    cases entry <;>
    · rcases joined_eq_ok.mp encoded with ⟨left, right, variantEncoded, bodyEncoded, rfl⟩
      simp [List.append_assoc, varint.decode_encode _ _ _ variantEncoded,
        PrefixCodec.decode_encode _ _ _ _ bodyEncoded, Except.bind, Except.map]

end Bincode

def bincode : Codec where
  encodeEntry := Bincode.journalEntry.encode
  decodeEntry payload := (Bincode.journalEntry.decode payload).map Prod.fst
  encodeSnapshot := (Bincode.indexKey.pair Bincode.indexEntry).list.encode
  decodeSnapshot body := ((Bincode.indexKey.pair Bincode.indexEntry).list.decode body).map Prod.fst
  crc32 := Bincode.crc32

theorem bincode_faithful : bincode.Faithful where
  decodeEntry_of_encode entry payload enc := by
    have decoded := Bincode.journalEntry.decode_encode entry payload [] enc
    rw [List.append_nil] at decoded
    simp [bincode, decoded, Except.map]
  decodeSnapshot_of_encode entries body enc := by
    have decoded := (Bincode.indexKey.pair Bincode.indexEntry).list.decode_encode entries body []
      enc
    rw [List.append_nil] at decoded
    simp [bincode, decoded, Except.map]

open List
open FsM Journal JournalIter BufReader Index

def journalReader (direct : Bool) : ByteReader BufReader := bufReader bufCapacity direct (by decide)

namespace Journal

def recordPhase (direct : Bool) (phase length : ℕ) : ℕ := exactPhase bufCapacity direct
    (exactPhase bufCapacity direct (exactPhase bufCapacity direct phase 4) length) 4

/-- No length prefix lies across the edge of a buffer. -/
def Aligned (direct : Bool) : ℕ → List ℕ → Prop
  | _, [] => True
  | phase, length :: lengths =>
    phase + 4 ≤ bufCapacity ∧ Aligned direct (recordPhase direct phase length) lengths

instance decidableAligned (direct : Bool) :
    ∀ phase lengths, Decidable (Aligned direct phase lengths)
  | _, [] => inferInstanceAs (Decidable True)
  | phase, length :: lengths =>
    have := decidableAligned direct (recordPhase direct phase length) lengths
    inferInstanceAs (Decidable (_ ∧ _))

theorem recordPhase_lt (direct : Bool) (phase len : ℕ) :
    recordPhase direct phase len < bufCapacity :=
  exactPhase_lt (by decide) _ _

end Journal

namespace JournalIter

variable {codec : Codec} {direct : Bool}

def atPhase (phase position : ℕ) (contents : Bytes) : JournalIter BufReader :=
  ⟨BufReader.atPhase bufCapacity phase contents, position, false⟩

theorem answered_four (direct : Bool) (phase : ℕ) :
    answered bufCapacity direct phase 4 = min 4 (bufCapacity - phase) := by
  unfold answered
  split
  · rename_i start
    subst start
    rw [if_neg (by simp [bufCapacity])]
    rfl
  · rfl

variable {phase pos : ℕ} {bodies : List Bytes}

theorem wholeAt_atPhase {contents : Bytes} (phaseLt : phase < bufCapacity)
    (enough : 4 ≤ contents.length) :
    WholeAt (journalReader direct) (BufReader.atPhase bufCapacity phase contents) ↔
      phase + 4 ≤ bufCapacity := by
  have ne : contents ≠ [] := by
    rintro rfl
    simp at enough
  have ans : (journalReader direct).read 4 (BufReader.atPhase bufCapacity phase contents) =
      _ := read_atPhase direct phaseLt (by decide) ne
  have contentsEq : (journalReader direct).contents
      (BufReader.atPhase bufCapacity phase contents) = contents := contents_atPhase (by decide) _ _
  rw [WholeAt, ans, contentsEq, answered_four]
  constructor
  · intro whole
    have lengths := congrArg List.length whole
    simp only [length_take] at lengths
    omega
  · intro fits
    rw [Nat.min_eq_left (by omega)]

theorem next_atPhase {body rest : Bytes} (phaseLt : phase < bufCapacity)
    (aligned : phase + 4 ≤ bufCapacity) (fits : FitsFrame body) :
    (atPhase phase pos (frame codec.crc32 body ++ rest)).next codec (journalReader direct) =
      (some (decodePayload codec body (pos + 4)), atPhase (recordPhase direct phase body.length)
          (pos + (body.length + 8)) rest) := by
  have layout : frame codec.crc32 body ++ rest = leBytes 4 body.length ++
      (body ++ (leBytes 4 (codec.crc32 body).toNat ++ rest)) := by
    simp [frame]
  have ne : leBytes 4 body.length ++
      (body ++ (leBytes 4 (codec.crc32 body).toNat ++ rest)) ≠ [] := by
    simp [leBytes]
  have whole : answered bufCapacity direct phase 4 = 4 := by
    rw [answered_four, Nat.min_eq_left (by omega)]
  -- The three reads of the record, with the phase of the buffer after each of them.
  have prefixRead : (journalReader direct).read 4 (BufReader.atPhase bufCapacity phase _) = _ :=
    read_atPhase direct phaseLt (by decide) ne
  rw [whole, nextPhase_eq_exactPhase phaseLt whole, take_left' (length_leBytes _ _),
    drop_left' (length_leBytes _ _)] at prefixRead
  have payloadRead : (journalReader direct).readExact body.length
      (BufReader.atPhase bufCapacity (exactPhase bufCapacity direct phase 4)
        (body ++ (leBytes 4 (codec.crc32 body).toNat ++ rest))) = _ :=
    readExact_atPhase (by decide) (exactPhase_lt (by decide) _ _) (by simp)
  rw [take_left, drop_left] at payloadRead
  have crcRead : (journalReader direct).readExact 4 (BufReader.atPhase bufCapacity
        (exactPhase bufCapacity direct (exactPhase bufCapacity direct phase 4) body.length)
        (leBytes 4 (codec.crc32 body).toNat ++ rest)) = _ :=
    readExact_atPhase (by decide) (exactPhase_lt (by decide) _ _) (by simp)
  rw [take_left' (length_leBytes _ _), drop_left' (length_leBytes _ _)] at crcRead
  have size : leWord (leBytes 4 body.length) = body.length :=
    leWord_leBytes (lt_of_lt_of_eq fits (by norm_num))
  have crc : leWord (leBytes 4 (codec.crc32 body).toNat) = (codec.crc32 body).toNat :=
    leWord_leBytes (lt_of_lt_of_eq (codec.crc32 body).toNat_lt (by norm_num))
  have prefixNonempty : leBytes 4 body.length ≠ [] := by
    simp [leBytes]
  simp only [next, atPhase, layout, prefixRead, prefixNonempty, length_leBytes, size,
    payloadRead, crcRead, crc, Bool.false_eq_true, if_false, lt_irrefl, ne_eq, not_true_eq_false,
    recordPhase, Prod.mk.injEq, JournalIter.mk.injEq, true_and, and_true]
  omega

variable (codec direct) in
theorem next_atPhase_of_straddle {phase : ℕ} (phaseLt : phase < bufCapacity)
    (straddle : ¬phase + 4 ≤ bufCapacity) (pos : ℕ) {body : Bytes}
    (fits : FitsFrame body) (rest : Bytes) :
    ∃ last, (atPhase phase pos (frame codec.crc32 body ++ rest)).next codec (journalReader direct) =
      (some (.error (.truncated .journal)), ⟨last, pos, true⟩) := by
  have step : Step codec (journalReader direct)
      (atPhase phase pos (frame codec.crc32 body ++ rest)) _ := step_next rfl
  have contents : (journalReader direct).contents
      (atPhase phase pos (frame codec.crc32 body ++ rest)).reader =
        frame codec.crc32 body ++ rest := contents_atPhase (by decide) _ _
  have notWhole : ¬WholeAt (journalReader direct)
      (atPhase phase pos (frame codec.crc32 body ++ rest)).reader :=
    fun whole => straddle ((wholeAt_atPhase phaseLt (by simp; omega)).mp whole)
  rcases outcome : (atPhase phase pos (frame codec.crc32 body ++ rest)).next codec
    (journalReader direct) with ⟨item, post⟩
  rw [outcome] at step
  cases step with
  | finished last empty =>
    have lengths := congrArg List.length (contents.symm.trans empty)
    simp at lengths
  | stuck last err recoverable ne cause =>
    rw [contents, unframe_frame_append fits] at cause
    rcases cause.resolve_left (by simp) with ⟨-, rfl⟩
    exact ⟨last, rfl⟩
  | record last found whole parsed => exact absurd whole notWhole

variable (codec direct) in
theorem next_atPhase_nil (phase pos : ℕ) :
    ∃ last, (atPhase phase pos []).next codec (journalReader direct) =
      (none, ⟨last, pos, true⟩) := by
  have step : Step codec (journalReader direct) (atPhase phase pos []) _ := step_next rfl
  have contents : (journalReader direct).contents (atPhase phase pos []).reader = [] :=
    contents_atPhase (by decide) _ _
  rcases outcome : (atPhase phase pos []).next codec (journalReader direct) with ⟨item, post⟩
  rw [outcome] at step
  cases step with
  | finished last empty => exact ⟨last, rfl⟩
  | stuck last err recoverable ne cause => exact absurd contents ne
  | record last found whole parsed =>
    rw [contents] at parsed
    simp [unframe] at parsed

section Alignment

variable (phaseLt : phase < bufCapacity) (fits : ∀ body ∈ bodies, FitsFrame body)

include phaseLt fits

theorem prefixesWhole_of_aligned (aligned : Aligned direct phase (bodies.map List.length)) :
    PrefixesWhole codec (journalReader direct) (atPhase phase pos (frames codec.crc32 bodies)) := by
  induction bodies generalizing phase pos with
  | nil =>
    exact prefixesWhole_of_empty (contents_atPhase (by decide) _ _)
  | cons body bodies ih =>
    simp only [map_cons, Aligned, forall_mem_cons] at aligned fits
    rw [frames_cons]
    apply PrefixesWhole.step
    · exact (wholeAt_atPhase phaseLt (by simp; omega)).mpr aligned.1
    · rw [next_atPhase phaseLt aligned.1 fits.1]
      exact ih (recordPhase_lt direct phase body.length) fits.2 aligned.2

theorem aligned_of_wholes {rest : Bytes}
    (wholes : FirstPrefixesWhole codec (journalReader direct) (atPhase phase pos (frames
      codec.crc32 bodies ++ rest)) bodies.length) :
    Aligned direct phase (bodies.map List.length) := by
  induction bodies generalizing phase pos with
  | nil => trivial
  | cons body bodies ih =>
    rw [forall_mem_cons] at fits
    rw [frames_cons, append_assoc] at wholes
    have aligned : phase + 4 ≤ bufCapacity :=
      (wholeAt_atPhase phaseLt (by simp; omega)).mp (wholes 0 (Nat.succ_pos _))
    have remaining : FirstPrefixesWhole codec (journalReader direct)
        (atPhase (recordPhase direct phase body.length) (pos + (body.length + 8))
          (frames codec.crc32 bodies ++ rest)) bodies.length := by
      intro done pre
      have later := wholes (done + 1) (Nat.succ_lt_succ pre)
      rwa [Function.iterate_succ_apply, next_atPhase phaseLt aligned fits.1] at later
    exact ⟨aligned, ih (recordPhase_lt direct phase body.length) fits.2 remaining⟩

theorem items_eq_iff_aligned {entries : List JournalEntry}
    (decoded : bodies.map codec.decodeEntry = entries.map .ok) :
    items codec (journalReader direct)
        (atPhase phase pos (frames codec.crc32 bodies)) = entries.map .ok ↔
      Aligned direct phase (bodies.map List.length) := by
  induction bodies generalizing phase pos entries with
  | nil =>
    obtain rfl : entries = [] := by simpa using decoded.symm
    rcases next_atPhase_nil codec direct phase pos with ⟨last, finished⟩
    rw [frames_nil, items_eq, finished]
    simp [Aligned]
  | cons body bodies ih =>
    rcases map_eq_cons_iff.mp decoded.symm with ⟨entry, entries, rfl, decodes, others⟩
    rw [forall_mem_cons] at fits
    rw [frames_cons, items_eq, map_cons, map_cons, Aligned]
    by_cases aligned : phase + 4 ≤ bufCapacity
    · rw [next_atPhase phaseLt aligned fits.1, decodePayload_of_ok decodes.symm]
      simp only [List.cons.injEq, true_and, aligned]
      exact ih (recordPhase_lt direct phase body.length) fits.2 others.symm
    · rcases next_atPhase_of_straddle codec direct phaseLt aligned pos
        fits.1 (frames codec.crc32 bodies) with ⟨last, stuck⟩
      rw [stuck]
      simp [aligned]

end Alignment

end JournalIter

namespace Journal

variable {μ σ : Type} {codec : Codec}

theorem recordsOf_journalReader (direct : Bool) (file : Bytes) :
    recordsOf (journalReader direct) file =
      JournalIter.atPhase 0 headerLen (file.drop headerLen) := by
  have start : (journalReader direct).start (file.drop headerLen) =
      BufReader.atPhase bufCapacity 0 (file.drop headerLen) := start_eq_atPhase (by decide) _
  rw [recordsOf, start]
  rfl

theorem recordsOf_headerBytes_append (direct : Bool) (recs : Bytes) :
    recordsOf (journalReader direct) (headerBytes journalVersion ++ recs) =
      JournalIter.atPhase 0 headerLen recs := by
  rw [recordsOf_journalReader, drop_left' (length_headerBytes _)]

def appendAll (codec : Codec) : List JournalEntry → FsM μ JournalError Unit
  | [] => pure ()
  | entry :: entries => do
    let _ ← append codec entry
    appendAll codec entries

def roundTrip (codec : Codec) (reader : ByteReader σ) (entries : List JournalEntry) :
    FsM μ JournalError (List (Except JournalError JournalEntry)) := do
  openFile
  appendAll codec entries
  let iter ← iterEntriesWithPositions reader
  return iter.items codec reader

theorem appendAll_apply {entries : List JournalEntry} {bodies : List Bytes}
    (enc : entries.map codec.encodeEntry = bodies.map .ok)
    (fits : ∀ body ∈ bodies, FitsFrame body) (st : FsState μ) :
    ∃ calls, (performAll st.disk calls).journalBytes =
        st.disk.journalBytes ++ frames codec.crc32 bodies ∧
      appendAll codec entries st = (.ok (), st.after calls) := by
  induction bodies generalizing entries st with
  | nil =>
    obtain rfl : entries = [] := by simpa using enc
    exact ⟨[], by simp, by simp [appendAll]⟩
  | cons body bodies ih =>
    rcases map_eq_cons_iff.mp enc with ⟨entry, entries, rfl, encodes, others⟩
    rw [forall_mem_cons] at fits
    rcases ih others fits.2 (st.after (appendCalls (frame codec.crc32 body))) with
      ⟨calls, contents, appended⟩
    refine ⟨appendCalls (frame codec.crc32 body) ++ calls, ?_, ?_⟩
    · rw [performAll_append, ← FsState.disk_after, contents, FsState.disk_after,
        performAll_appendCalls]
      simp [Disk.journalBytes]
    · simp only [appendAll, bind_apply, append_of_encode encodes fits.1, appended,
        FsState.after_after]

theorem roundTrip_apply {entries : List JournalEntry} {bodies : List Bytes} {disk : Disk}
    (reader : ByteReader σ) (fresh : disk.journalBytes = [])
    (enc : entries.map codec.encodeEntry = bodies.map .ok)
    (fits : ∀ body ∈ bodies, FitsFrame body) (memory : μ) :
    ((roundTrip codec reader entries).run disk memory).1 = .ok (items codec reader
        (recordsOf reader (headerBytes journalVersion ++ frames codec.crc32 bodies))) := by
  have created : openFile (⟨disk, [], memory⟩ : FsState μ) = _ := openFile_of_empty fresh
  rcases appendAll_apply enc fits ((⟨disk, [], memory⟩ : FsState μ).after createCalls) with
    ⟨calls, contents, appended⟩
  have file : ((⟨disk, [], memory⟩ : FsState μ).after (createCalls ++ calls)).disk.journalBytes =
        headerBytes journalVersion ++ frames codec.crc32 bodies := by
    rw [FsState.disk_after, performAll_append, ← FsState.disk_after, contents,
      FsState.disk_after, performAll_createCalls fresh]
    rfl
  have hdr : HasHeader journalVersion ((⟨disk, [], memory⟩ : FsState μ).after
      (createCalls ++ calls)).disk.journalBytes := by
    rw [file]
    exact hasHeader_headerBytes_append (by decide) _
  simp only [run, roundTrip, bind_apply, created, appended, FsState.after_after,
    iterEntriesWithPositions_of_header hdr, file, pure_apply]
  rfl

/-- A journal reads back exactly iff no length prefix straddles a refill of the buffer. -/
theorem roundTrip_eq_iff_aligned (faithful : codec.Faithful) (direct : Bool)
    {entries : List JournalEntry} {bodies : List Bytes} {disk : Disk}
    (fresh : disk.journalBytes = []) (encoded : entries.map codec.encodeEntry = bodies.map .ok)
    (fits : ∀ payload ∈ bodies, FitsFrame payload) (memory : μ) :
    ((roundTrip codec (journalReader direct) entries).run disk memory).1 = .ok (entries.map .ok) ↔
      Aligned direct 0 (bodies.map List.length) := by
  rw [roundTrip_apply (journalReader direct) fresh encoded fits memory, Except.ok.injEq,
    recordsOf_headerBytes_append]
  exact items_eq_iff_aligned (by decide) fits (faithful.decode_map encoded)

def springCoreSources : IndexKey :=
  ⟨⟨"org.springframework", "spring-core"⟩, "6.1.2", "jar", some "sources"⟩

def springCoreTouch : JournalEntry := .touch springCoreSources 1700000000

def springCorePayload : Bytes :=
  [2, 31, 111, 114, 103, 46, 115, 112, 114, 105, 110, 103, 102, 114, 97, 109, 101, 119, 111,
    114, 107, 58, 115, 112, 114, 105, 110, 103, 45, 99, 111, 114, 101, 5, 54, 46, 49, 46, 50,
    3, 106, 97, 114, 1, 7, 115, 111, 117, 114, 99, 101, 115, 252, 0, 241, 83, 101]

theorem encode_springCoreTouches (count : ℕ) :
    (replicate count springCoreTouch).map bincode.encodeEntry =
      (replicate count springCorePayload).map .ok := by
  have enc : bincode.encodeEntry springCoreTouch = .ok springCorePayload := by
    decide
  rw [map_replicate, map_replicate, enc]

theorem fits_springCorePayloads (count : ℕ) :
    ∀ body ∈ replicate count springCorePayload, FitsFrame body := by
  intro body mem
  rw [eq_of_mem_replicate mem]
  decide

theorem roundTrip_springCoreTouches :
    ((roundTrip bincode (journalReader true) (replicate 126 springCoreTouch)).run
      Disk.fresh ()).1 = .ok ((replicate 126 springCoreTouch).map .ok) := by
  refine (roundTrip_eq_iff_aligned bincode_faithful true rfl (encode_springCoreTouches 126)
    (fits_springCorePayloads 126) ()).mpr ?_
  rw [map_replicate]
  decide +kernel

/-- One more touch is lost, because its length prefix straddles the first refill. -/
theorem roundTrip_springCoreTouch_lost : bincode.Faithful ∧
      ((roundTrip bincode (journalReader false) (replicate 127 springCoreTouch)).run
        Disk.fresh ()).1 ≠ .ok ((replicate 127 springCoreTouch).map .ok) ∧
      ((roundTrip bincode (journalReader true) (replicate 127 springCoreTouch)).run
        Disk.fresh ()).1 ≠ .ok ((replicate 127 springCoreTouch).map .ok) := by
  have lost : ∀ direct, ¬Aligned direct 0 ((replicate 127 springCorePayload).map List.length) →
      ((roundTrip bincode (journalReader direct) (replicate 127 springCoreTouch)).run
        Disk.fresh ()).1 ≠ .ok ((replicate 127 springCoreTouch).map .ok) := by
    intro direct straddles
    rw [roundTrip_apply (journalReader direct) rfl (encode_springCoreTouches 127)
      (fits_springCorePayloads 127) (), ne_eq, Except.ok.injEq, recordsOf_headerBytes_append,
      items_eq_iff_aligned (by decide) (fits_springCorePayloads 127)
        (bincode_faithful.decode_map (encode_springCoreTouches 127))]
    exact straddles
  refine ⟨bincode_faithful, lost false ?_, lost true ?_⟩ <;>
  · rw [map_replicate]
    decide +kernel

end Journal

end Barista.Cache
