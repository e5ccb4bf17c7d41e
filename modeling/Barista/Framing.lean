import Barista.Bytes

/-!
# Frames with a checksum

A file of frames is cut at the first frame that is short or does not match its checksum. What is
before it is the longest prefix of whole frames.
-/

namespace Barista

open List

variable (checksum : Bytes → UInt32) (payload : Bytes)

def frame : Bytes :=
  leBytes 4 payload.length ++ payload ++ leBytes 4 (checksum payload).toNat

def frames (payloads : List Bytes) : Bytes := payloads.flatMap (frame checksum)

def unframe (bytes : Bytes) : Option (Bytes × Bytes) :=
  let size := leWord (bytes.take 4)
  let payload := (bytes.drop 4).take size
  let rest := (bytes.drop 4).drop size
  if bytes.length < size + 8 then none
  else if leWord (rest.take 4) = (checksum payload).toNat then some (payload, rest.drop 4)
  else none

def FitsFrame : Prop := payload.length < 2 ^ 32

instance (payload : Bytes) : Decidable (FitsFrame payload) :=
  inferInstanceAs (Decidable (payload.length < 2 ^ 32))

structure LongestPrefix (accept : Bytes → Prop) (bytes : Bytes) (payloads : List Bytes)
    (rest : Bytes) : Prop where
  split : bytes = frames checksum payloads ++ rest
  fits : ∀ payload ∈ payloads, FitsFrame payload
  accepted : ∀ payload ∈ payloads, accept payload
  longest : ∀ others, (∀ payload ∈ others, FitsFrame payload ∧ accept payload) →
    frames checksum others <+: bytes →
      (frames checksum others).length ≤ (frames checksum payloads).length

variable {checksum}

@[simp]
theorem length_frame : (frame checksum payload).length = payload.length + 8 := by
  simp only [frame, length_append, length_leBytes]
  omega

@[simp]
theorem frames_nil : frames checksum [] = [] := rfl

@[simp]
theorem frames_cons (bodies : List Bytes) :
    frames checksum (payload :: bodies) = frame checksum payload ++ frames checksum bodies :=
  rfl

theorem frames_append (first second : List Bytes) :
    frames checksum (first ++ second) = frames checksum first ++ frames checksum second := by
  simp [frames]

variable {payload rest : Bytes} {accept : Bytes → Prop}

theorem leWord_take_frame (fits : FitsFrame payload) (rest : Bytes) :
    leWord ((frame checksum payload ++ rest).take 4) = payload.length := by
  have prefixBytes : (frame checksum payload ++ rest).take 4 = leBytes 4 payload.length := by
    simp [frame, append_assoc]
  rw [prefixBytes, leWord_leBytes]
  exact lt_of_lt_of_eq fits (by norm_num)

theorem unframe_append {sizeBytes tail : Bytes} (sizeLength : sizeBytes.length = 4) :
    unframe checksum (sizeBytes ++ tail) =
      if tail.length < leWord sizeBytes + 4 then none
      else if leWord ((tail.drop (leWord sizeBytes)).take 4) =
          (checksum (tail.take (leWord sizeBytes))).toNat then
        some (tail.take (leWord sizeBytes), (tail.drop (leWord sizeBytes)).drop 4)
      else none := by
  have total : (sizeBytes ++ tail).length < leWord sizeBytes + 8 ↔
      tail.length < leWord sizeBytes + 4 := by
    rw [length_append, sizeLength]
    omega
  simp only [unframe, ← sizeLength, take_left, drop_left] at total ⊢
  simp only [total]

theorem unframe_eq_some_iff {bytes : Bytes} : unframe checksum bytes = some (payload, rest) ↔
      FitsFrame payload ∧ bytes = frame checksum payload ++ rest := by
  constructor
  · intro parsed
    unfold unframe at parsed
    dsimp only at parsed
    split at parsed
    · contradiction
    · rename_i long
      split at parsed
      · rename_i checked
        rcases Prod.mk.inj (Option.some.inj parsed) with ⟨rfl, rfl⟩
        have sizeLt := leWord_lt (bytes.take 4)
        have prefixLength : (bytes.take 4).length = 4 := by
          rw [length_take]
          omega
        have payloadLength : ((bytes.drop 4).take (leWord (bytes.take 4))).length =
            leWord (bytes.take 4) := by
          rw [length_take, length_drop]
          omega
        have crcLength : (((bytes.drop 4).drop (leWord (bytes.take 4))).take 4).length = 4 := by
          simp only [length_take, length_drop]
          omega
        refine ⟨?_, ?_⟩
        · rw [FitsFrame, payloadLength]
          rw [prefixLength] at sizeLt
          exact lt_of_lt_of_eq sizeLt (by norm_num)
        · have sizeBytes := leBytes_leWord (bytes.take 4)
          have crcBytes := leBytes_leWord (((bytes.drop 4).drop (leWord (bytes.take 4))).take 4)
          rw [prefixLength] at sizeBytes
          rw [crcLength, checked] at crcBytes
          rw [frame, payloadLength, sizeBytes, crcBytes]
          simp only [append_assoc, take_append_drop]
      · contradiction
  · rintro ⟨fits, rfl⟩
    have size : leWord ((frame checksum payload ++ rest).take 4) = payload.length :=
      leWord_take_frame fits rest
    have crcFits : (checksum payload).toNat < 256 ^ 4 :=
      lt_of_lt_of_eq (checksum payload).toNat_lt (by norm_num)
    have body : (frame checksum payload ++ rest).drop 4 =
        payload ++ (leBytes 4 (checksum payload).toNat ++ rest) := by
      simp [frame, append_assoc]
    have longEnough : ¬(frame checksum payload ++ rest).length < payload.length + 8 := by
      simp
    simp only [unframe, size, body, take_left, drop_left, if_neg longEnough]
    simp [leWord_leBytes crcFits]

@[simp] theorem unframe_frame_append (fits : FitsFrame payload) (rest : Bytes) :
    unframe checksum (frame checksum payload ++ rest) = some (payload, rest) :=
  unframe_eq_some_iff.mpr ⟨fits, rfl⟩

theorem frame_append_inj {first second firstRest secondRest : Bytes}
    (firstFits : FitsFrame first) (secondFits : FitsFrame second)
    (same : frame checksum first ++ firstRest = frame checksum second ++ secondRest) :
    first = second ∧ firstRest = secondRest := by
  have parsed : unframe checksum (frame checksum second ++ secondRest) =
      some (first, firstRest) := same ▸ unframe_frame_append firstFits firstRest
  rw [unframe_frame_append secondFits, Option.some.injEq, Prod.mk.injEq] at parsed
  exact ⟨parsed.1.symm, parsed.2.symm⟩

theorem eq_append_of_frames_eq {longer shorter : List Bytes}
    (longerFits : ∀ payload ∈ longer, FitsFrame payload)
    (shorterFits : ∀ payload ∈ shorter, FitsFrame payload)
    (same : frames checksum longer = frames checksum shorter ++ rest) :
    ∃ more, longer = shorter ++ more ∧ rest = frames checksum more := by
  induction shorter generalizing longer with
  | nil => exact ⟨longer, rfl, same.symm⟩
  | cons payload shorter ih =>
    rcases longer with _ | ⟨first, longer⟩
    · have lengths := congrArg List.length same
      simp only [frames_nil, frames_cons, length_append, length_frame, length_nil] at lengths
      omega
    · simp only [forall_mem_cons] at longerFits shorterFits
      rw [frames_cons, frames_cons, append_assoc] at same
      rcases frame_append_inj longerFits.1 shorterFits.1 same with ⟨rfl, sameRest⟩
      rcases ih longerFits.2 shorterFits.2 sameRest with ⟨more, rfl, restEq⟩
      exact ⟨more, rfl, restEq⟩

theorem unframe_take_eq_none (fits : FitsFrame payload) (rest : Bytes) {cut : ℕ}
    (short : cut < (frame checksum payload).length) :
    unframe checksum ((frame checksum payload ++ rest).take cut) = none := by
  rw [Option.eq_none_iff_forall_ne_some]
  rintro ⟨other, post⟩ parsed
  rcases unframe_eq_some_iff.mp parsed with ⟨otherFits, split⟩
  -- The cut leaves at least a whole frame, so the length prefix is still there.
  have cutLength := congrArg List.length split
  simp only [length_take, length_append, length_frame] at cutLength short
  have samePrefix : (frame checksum other ++ post).take 4 =
      (frame checksum payload ++ rest).take 4 := by
    rw [← split, take_take, Nat.min_eq_left (by omega)]
  have sameLength : other.length = payload.length := by
    rw [← leWord_take_frame otherFits post, samePrefix, leWord_take_frame fits rest]
  omega

theorem longestPrefix_of_stuck {bodies : List Bytes} (fits : ∀ payload ∈ bodies, FitsFrame payload)
    (accepted : ∀ payload ∈ bodies, accept payload)
    (stuck : ∀ payload post, unframe checksum rest = some (payload, post) → ¬accept payload) :
    LongestPrefix checksum accept (frames checksum bodies ++ rest) bodies rest := by
  refine ⟨rfl, fits, accepted, ?_⟩
  induction bodies with
  | nil =>
    rintro (_ | ⟨other, others⟩) acceptable isPrefix
    · exact le_rfl
    · rcases isPrefix with ⟨post, split⟩
      rcases acceptable other mem_cons_self with ⟨otherFits, otherAccepted⟩
      rw [frames_nil, nil_append, frames_cons, append_assoc] at split
      exact absurd otherAccepted (stuck other _ (unframe_eq_some_iff.mpr ⟨otherFits, split.symm⟩))
  | cons payload bodies ih =>
    rintro (_ | ⟨other, others⟩) acceptable isPrefix
    · simp
    · rcases isPrefix with ⟨post, split⟩
      have otherFits := (acceptable other mem_cons_self).1
      simp only [frames_cons, append_assoc] at split
      rcases frame_append_inj otherFits (fits payload mem_cons_self) split with
        ⟨rfl, restSplit⟩
      have shorter := ih (fun _ mem => fits _ (mem_cons_of_mem _ mem))
        (fun _ mem => accepted _ (mem_cons_of_mem _ mem)) others
        (fun _ mem => acceptable _ (mem_cons_of_mem _ mem)) ⟨post, restSplit⟩
      simp only [frames_cons, length_append]
      omega

theorem LongestPrefix.unique {bytes firstRest secondRest : Bytes} {first second : List Bytes}
    (one : LongestPrefix checksum accept bytes first firstRest)
    (other : LongestPrefix checksum accept bytes second secondRest) :
    first = second ∧ firstRest = secondRest := by
  have firstLe := other.longest first
    (fun payload mem => ⟨one.fits payload mem, one.accepted payload mem⟩)
    ⟨firstRest, one.split.symm⟩
  have secondLe := one.longest second
    (fun payload mem => ⟨other.fits payload mem, other.accepted payload mem⟩)
    ⟨secondRest, other.split.symm⟩
  rcases append_inj (one.split.symm.trans other.split) (le_antisymm firstLe secondLe) with
    ⟨sameFrames, sameRest⟩
  refine ⟨?_, sameRest⟩
  rcases eq_append_of_frames_eq one.fits other.fits
    (sameFrames.trans (append_nil _).symm) with ⟨more, rfl, none⟩
  rcases more with _ | ⟨payload, more⟩
  · exact append_nil _
  · have lengths := congrArg List.length none
    simp only [frames_cons, length_nil, length_append, length_frame] at lengths
    omega

variable (checksum) in
theorem exists_count_before_cut (bodies : List Bytes) (cut : ℕ) :
    ∃ count, (frames checksum (bodies.take count)).length ≤ cut ∧
      ∀ next, bodies[count]? = some next →
        cut < (frames checksum (bodies.take count)).length + (frame checksum next).length := by
  induction bodies generalizing cut with
  | nil => exact ⟨0, by simp, by simp⟩
  | cons payload bodies ih =>
    by_cases fits : (frame checksum payload).length ≤ cut
    · rcases ih (cut - (frame checksum payload).length) with ⟨count, pre, post⟩
      refine ⟨count + 1, ?_, ?_⟩
      · simp only [take_succ_cons, frames_cons, length_append]
        omega
      · intro next here
        have bound := post next (by simpa using here)
        simp only [take_succ_cons, frames_cons, length_append]
        omega
    · refine ⟨0, by simp, ?_⟩
      intro next here
      obtain rfl : payload = next := by simpa using here
      simpa using fits

theorem longestPrefix_take {bodies : List Bytes} {count cut : ℕ}
    (fits : ∀ payload ∈ bodies, FitsFrame payload) (accepted : ∀ payload ∈ bodies, accept payload)
    (pre : (frames checksum (bodies.take count)).length ≤ cut)
    (post : ∀ next, bodies[count]? = some next → cut < (frames checksum (bodies.take
      count)).length + (frame checksum next).length) :
    LongestPrefix checksum accept ((frames checksum bodies).take cut) (bodies.take count)
      ((frames checksum (bodies.drop count)).take
        (cut - (frames checksum (bodies.take count)).length)) := by
  have split : (frames checksum bodies).take cut = frames checksum (bodies.take count) ++
      (frames checksum (bodies.drop count)).take
        (cut - (frames checksum (bodies.take count)).length) := by
    conv_lhs => rw [← take_append_drop count bodies, frames_append]
    rw [List.take_append, take_of_length_le pre]
  rw [split]
  apply longestPrefix_of_stuck
  · exact fun payload mem => fits payload (mem_of_mem_take mem)
  · exact fun payload mem => accepted payload (mem_of_mem_take mem)
  · intro payload rest parsed
    rcases remaining : bodies.drop count with _ | ⟨next, more⟩
    · simp [remaining, unframe] at parsed
    · have nextHere : bodies[count]? = some next := by
        rw [← head?_drop, remaining, head?_cons]
      have nextFits := fits next (mem_of_getElem? nextHere)
      have cutInside := post next nextHere
      rw [remaining, frames_cons, unframe_take_eq_none nextFits _ (by omega)] at parsed
      contradiction

end Barista
