import Barista.Cache.Buffering

/-!
# Opening with recovery

What is recovered from a torn journal is the longest prefix of whole entries, if the reader never
splits a length prefix.
-/

namespace Barista.Cache

open List
open FsM Journal JournalIter Index

/-- However the journal is cut, the reader does not split a length prefix. -/
def ReadsWhole {σ : Type} (codec : Codec) (reader : ByteReader σ) (journal : Bytes) : Prop :=
  ∀ cut, PrefixesWhole codec reader (recordsOf reader (journal.take cut))

variable {journal : Bytes}

theorem ReadsWhole.prefixesWhole {σ : Type} {codec : Codec} {reader : ByteReader σ}
    (whole : ReadsWhole codec reader journal) :
    PrefixesWhole codec reader (recordsOf reader journal) := by
  have uncut := whole journal.length
  rwa [take_length] at uncut

def Resident (state : BufReader) : Prop :=
  state.source = [] ∨ state.buffered = [] ∧ state.source.length ≤ bufCapacity

theorem Resident.read {direct : Bool} (wanted : ℕ) {st : BufReader}
    (resident : Resident st) : Resident ((journalReader direct).read wanted st).2 := by
  show Resident (BufReader.read bufCapacity direct wanted st).2
  unfold BufReader.read Resident
  rcases resident with noSource | ⟨noBuffer, short⟩
  · simp only [noSource, take_nil, drop_nil]
    split
    · split <;> exact Or.inl rfl
    · exact Or.inl rfl
  · rw [if_pos noBuffer]
    split
    · exact Or.inr ⟨rfl, by rw [length_drop]; omega⟩
    · exact Or.inl (drop_of_length_le short)

theorem Resident.wholeAt {direct : Bool} {st : BufReader} (resident : Resident st) :
    WholeAt (journalReader direct) st := by
  show (BufReader.read bufCapacity direct 4 st).1 = (st.buffered ++ st.source).take 4
  unfold BufReader.read
  rcases resident with noSource | ⟨noBuffer, short⟩
  · by_cases noBuffer : st.buffered = []
    · simp [noSource, noBuffer]
    · simp [noSource, noBuffer]
  · have notDirect : ¬(direct = true ∧ bufCapacity ≤ 4) := by simp [bufCapacity]
    simp [noBuffer, notDirect, take_of_length_le short]

theorem readsWhole_of_short (codec : Codec) (direct : Bool)
    (short : journal.length ≤ headerLen + bufCapacity) :
    ReadsWhole codec (journalReader direct) journal := by
  intro cut
  apply prefixesWhole_of_invariant (fun wanted _ => Resident.read wanted)
    (fun _ => Resident.wholeAt)
  refine Or.inr ⟨rfl, ?_⟩
  show ((journal.take cut).drop headerLen).length ≤ bufCapacity
  rw [length_drop, length_take]
  omega

namespace Index

variable {μ σ : Type} {codec : Codec} {reader : ByteReader σ}

theorem openInner_recovers (st : FsState μ) {loaded : IndexState}
    (load : loadedState codec st.disk = .ok loaded)
    (hdr : HasHeader journalVersion (openedJournal st.disk))
    (decodable : ∀ bodies body post, (∀ prior ∈ bodies, FitsFrame prior) → FitsFrame body →
      (openedJournal st.disk).drop headerLen =
        frames codec.crc32 (bodies ++ [body]) ++ post → Decodable codec body) :
    ∃ idx report final, openInner codec reader true st = (.ok (idx, report), final) := by
  rcases replayJournal_apply codec reader true loaded
    (rfl : (recordsOf reader (openedJournal st.disk)).done = false)
    (st.after (openCalls st.disk)) with ⟨bodies, entries, rest, stop, last, scan, replayed⟩
  rw [openInner_apply reader true st load hdr, replayed]
  rcases stop with _ | err
  · exact ⟨_, _, _, rfl⟩
  · by_cases recoverable : err.isRecoverable = true
    · simp only [recoverable, Bool.true_and, if_true]
      exact ⟨_, _, _, rfl⟩
    · rw [Bool.not_eq_true] at recoverable
      rcases scan.undecodable err rfl recoverable with ⟨body, post, detail, parsed, failed⟩
      rcases unframe_eq_some_iff.mp parsed with ⟨fits, restEq⟩
      have split := scan.split
      rw [recordsOf, reader.contents_start, restEq] at split
      obtain ⟨entry, decoded⟩ := decodable bodies body post scan.fits fits (by
        rw [split, frames_append, append_assoc]
        simp)
      rw [failed] at decoded
      contradiction

/-- The first `count` entries are all that end before the cut. -/
structure KeptBefore (codec : Codec) (payloads : List Bytes) (cut count : ℕ) : Prop where
  inside : headerLen + (frames codec.crc32 (payloads.take count)).length ≤ cut
  next : ∀ payload, payloads[count]? = some payload →
    cut < headerLen + (frames codec.crc32 (payloads.take count ++ [payload])).length

/-- The longest readable prefix of the journal is replayed, and the rest is cut off. -/
structure Recovered (codec : Codec) (reader : ByteReader σ) (disk : Disk) (journal : Bytes)
    (index : Index) (final : FsState μ) (payloads : List Bytes) (entries : List JournalEntry)
    (rest : Bytes) : Prop where
  longest : LongestPrefix codec.crc32 (Decodable codec) (journal.drop headerLen) payloads rest
  decoded : payloads.map codec.decodeEntry = entries.map .ok
  map : ∃ base, loadedState codec disk = .ok base ∧
    index.state.entries = journalLog.replay base.entries entries
  cut : final.disk.journal = some (journal.take (headerLen + (frames codec.crc32 payloads).length))
  reopens : ∃ again last, (openInner codec reader false).run final.disk final.memory =
      (.ok (again, OpenReport.clean), last) ∧
    again.state.entries = index.state.entries

theorem recovered_of_success {disk : Disk} {memory : μ} {idx : Index}
    {report : OpenReport} {final : FsState μ}
    (file : disk.journal = some journal) (hdr : HasHeader journalVersion journal)
    (whole : ReadsWhole codec reader journal)
    (success : (openWithRecovery codec reader).run disk memory = (.ok (idx, report), final)) :
    ∃ bodies entries rest, Recovered codec reader disk journal idx final bodies entries rest := by
  rcases openInner_sound success with ⟨head, base, bodies, entries, rest, opened⟩
  have journalEq := openedJournal_of_header file hdr
  have longest := opened.longest
  have split := opened.split
  rw [journalEq] at longest split
  have kept : head ++ frames codec.crc32 bodies =
      journal.take (headerLen + (frames codec.crc32 bodies).length) := by
    rw [split, ← opened.represents.headerLength, ← length_append, take_left]
  have cut : final.disk.journal =
      some (journal.take (headerLen + (frames codec.crc32 bodies).length)) := by
    rw [opened.represents.journal, kept]
  refine ⟨bodies, entries, rest, longest whole.prefixesWhole, opened.represents.decoded,
    ⟨⟨base, 0⟩, opened.loads, opened.map⟩, cut, ?_⟩
  have wholeCut : PrefixesWhole codec reader (recordsOf reader (openedJournal final.disk)) := by
    rw [opened.represents.openedJournal_eq, kept]
    exact whole _
  exact ⟨_, _, openInner_of_represents opened.represents.opened wholeCut false final.memory,
    opened.map.symm⟩

theorem recovered_of_cut {disk : Disk} {hdr : Bytes} {bodies : List Bytes}
    {entries : List JournalEntry} {base : IndexState} {cut : ℕ} (memory : μ)
    (complete : journal = hdr ++ frames codec.crc32 bodies)
    (validHeader : HasHeader journalVersion hdr) (headerLength : hdr.length = headerLen)
    (fits : ∀ body ∈ bodies, FitsFrame body)
    (decoded : bodies.map codec.decodeEntry = entries.map .ok)
    (whole : ReadsWhole codec reader journal) (pastHeader : headerLen ≤ cut)
    (file : disk.journal = some (journal.take cut)) (load : loadedState codec disk = .ok base) :
    ∃ count idx report final, KeptBefore codec bodies cut count ∧
      (openWithRecovery codec reader).run disk memory = (.ok (idx, report), final) ∧
      idx.state.entries = journalLog.replay base.entries (entries.take count) ∧
      final.disk.journal = some (hdr ++ frames codec.crc32 (bodies.take count)) := by
  have cutJournal : journal.take cut =
      hdr ++ (frames codec.crc32 bodies).take (cut - headerLen) := by
    rw [complete, List.take_append, headerLength, take_of_length_le (by omega)]
  have cutHeader : HasHeader journalVersion (journal.take cut) := by
    rw [cutJournal]
    exact validHeader.append _
  have cutRecords : (journal.take cut).drop headerLen =
      (frames codec.crc32 bodies).take (cut - headerLen) := by
    rw [cutJournal, ← headerLength, drop_left]
  have opened := openedJournal_of_header file cutHeader
  have decodable := Decodable.of_map decoded
  obtain ⟨idx, report, final, success⟩ : ∃ idx report final,
      (openWithRecovery codec reader).run disk memory = (.ok (idx, report), final) := by
    apply openInner_recovers ⟨disk, [], memory⟩ load (by rwa [opened])
    intro found body post foundFits payloadFits split
    -- A complete record of the cut file is one of the records of the whole file.
    rw [opened, cutRecords] at split
    have whole : frames codec.crc32 bodies = frames codec.crc32 (found ++ [body]) ++
        (post ++ (frames codec.crc32 bodies).drop (cut - headerLen)) := by
      rw [← append_assoc, ← split, take_append_drop]
    rcases eq_append_of_frames_eq fits
      (by simpa [or_imp, forall_and] using ⟨foundFits, payloadFits⟩) whole with ⟨more, rfl, -⟩
    exact decodable body (by simp)
  rcases exists_count_before_cut codec.crc32 bodies (cut - headerLen) with ⟨count, pre, post⟩
  obtain ⟨found, replayed, rest, recovered⟩ := recovered_of_success file cutHeader (by
    intro shorter
    rw [take_take]
    exact whole _) success
  have kept := longestPrefix_take fits decodable pre post
  rw [← cutRecords] at kept
  rcases recovered.longest.unique kept with ⟨rfl, -⟩
  refine ⟨count, idx, report, final, ⟨by omega, ?_⟩, success, ?_, ?_⟩
  · intro body here
    have bound := post body here
    simp only [frames_append, frames_cons, frames_nil, append_nil, length_append]
    omega
  · rcases recovered.map with ⟨loaded, loadedEq, map⟩
    obtain rfl := Except.ok.inj (load.symm.trans loadedEq)
    have entriesEq : replayed = entries.take count := by
      have image := recovered.decoded
      rw [map_take, decoded, ← map_take] at image
      exact (map_injective_iff.mpr (fun _ _ => Except.ok.inj) image).symm
    rw [map, entriesEq]
  · rw [recovered.cut, cutJournal, ← cutRecords, kept.split, ← append_assoc,
      ← headerLength, ← length_append, take_left]

/-- Recovery keeps the longest good prefix, and all records in front of a cut. -/
theorem openWithRecovery_correct {journal : Bytes} (header : HasHeader journalVersion journal)
    (whole : ReadsWhole codec reader journal) :
    (∀ (disk : Disk) (memory : μ) index report final, disk.journal = some journal →
      (openWithRecovery codec reader).run disk memory = (.ok (index, report), final) →
      ∃ payloads entries rest,
        Recovered codec reader disk journal index final payloads entries rest) ∧
    (∀ head payloads (entries : List JournalEntry), journal = head ++ frames codec.crc32 payloads →
      head.length = headerLen → (∀ payload ∈ payloads, FitsFrame payload) →
      payloads.map codec.decodeEntry = entries.map .ok →
      ∀ (disk : Disk) (memory : μ) base cut, headerLen ≤ cut →
        disk.journal = some (journal.take cut) → loadedState codec disk = .ok base →
        ∃ count index report final, KeptBefore codec payloads cut count ∧
          (openWithRecovery codec reader).run disk memory = (.ok (index, report), final) ∧
          index.state.entries = journalLog.replay base.entries (entries.take count) ∧
          final.disk.journal = some (head ++ frames codec.crc32 (payloads.take count))) := by
  refine ⟨?_, ?_⟩
  · intro disk memory index report final file success
    exact recovered_of_success file header whole success
  · intro head payloads entries complete headLength fits decoded disk memory base cut pastHeader
      file load
    have validHead : HasHeader journalVersion head := by
      have taken := header.take (le_refl headerLen)
      rwa [complete, ← headLength, take_left] at taken
    exact recovered_of_cut memory complete validHead headLength fits decoded whole pastHeader
      file load

/-- A journal of two records that was cut inside the second one keeps the first. -/
theorem openWithRecovery_two_touches : ∃ count index report final,
      KeptBefore bincode [springCorePayload, springCorePayload] 80 count ∧
      (openWithRecovery bincode (journalReader true)).run
          ⟨true, none, none, some ((headerBytes journalVersion ++
            frames bincode.crc32 [springCorePayload, springCorePayload]).take 80)⟩ () =
        (.ok (index, report), final) ∧
      index.state.entries = journalLog.replay ∅ ([springCoreTouch, springCoreTouch].take count) ∧
      final.disk.journal = some (headerBytes journalVersion ++
        frames bincode.crc32 ([springCorePayload, springCorePayload].take count)) := by
  refine (openWithRecovery_correct (hasHeader_headerBytes_append (by decide) _)
    (readsWhole_of_short bincode true ?_)).2 (headerBytes journalVersion)
    [springCorePayload, springCorePayload] [springCoreTouch, springCoreTouch] rfl
    (length_headerBytes _) (fits_springCorePayloads 2)
    (bincode_faithful.decode_map (encode_springCoreTouches 2)) _ () IndexState.empty 80
    (by decide) rfl rfl
  simp [headerLen, bufCapacity, springCorePayload]

end Index

end Barista.Cache
