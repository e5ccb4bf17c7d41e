import Barista.Pointwise
import Barista.Pom.Serialized

/-!
# The signature of a reactor

The lockfile records a hash of the effective POMs of all modules.  The modules are sorted by
`groupId:artifactId`, and each is fed to the hash as the length of its serialized POM and the
bytes of it.
-/

namespace Barista.Lockfile

open List
open Pom
open Serialized (rawPom)

structure ReactorModule where
  groupId : String
  artifactId : String
  pom : RawPom

def ReactorModule.sortKey (module : ReactorModule) : String :=
  module.groupId ++ ":" ++ module.artifactId

inductive SignatureError where
  | encode (detail : String)
  deriving DecidableEq

variable (modules : List ReactorModule)

def sorted : List ReactorModule :=
  modules.insertionSort fun left right => left.sortKey ≤ right.sortKey

def feed (fed : Bytes) (module : ReactorModule) : Except SignatureError Bytes := do
  let bytes ← (rawPom.encode module.pom).mapError SignatureError.encode
  return fed ++ leBytes 4 bytes.length ++ bytes

def hashInput : Except SignatureError Bytes :=
  (sorted modules).foldlM feed []

def hex (bytes : Bytes) : String := .ofList (bytes.flatMap fun byte : UInt8 =>
    [(byte >>> 4).toNat.digitChar, (byte &&& 0xf).toNat.digitChar])

def computeSignature (sha256 : Bytes → Bytes) (modules : List ReactorModule) :
    Except SignatureError String := do
  let input ← hashInput modules
  return hex (sha256 input)

def pomSet : Multiset RawPom := modules.map ReactorModule.pom

/-- The length of every encoded POM fits into four bytes. -/
def FitsSignature : Prop :=
  ∀ module ∈ modules, ∃ bytes, rawPom.encode module.pom = .ok bytes ∧ bytes.length < 2 ^ 32

/-- The POMs leave out the same optional fields, as far as both encodings go. -/
def SkipsAgree (left right : RawPom) : Prop :=
  left.skips <+: right.skips ∨ right.skips <+: left.skips

instance (left right : RawPom) : Decidable (SkipsAgree left right) :=
  inferInstanceAs (Decidable (_ ∨ _))

def chunk (bytes : Bytes) : Bytes := leBytes 4 bytes.length ++ bytes

theorem chunk_append_inj {left right leftRest rightRest : Bytes} (leftFits : left.length < 2 ^ 32)
    (rightFits : right.length < 2 ^ 32) (same : chunk left ++ leftRest = chunk right ++ rightRest) :
    left = right ∧ leftRest = rightRest := by
  rw [chunk, chunk, append_assoc, append_assoc] at same
  rcases append_inj same (by simp) with ⟨sameLength, sameBytes⟩
  have lengths : left.length = right.length := by
    rw [← leWord_leBytes (lt_of_lt_of_eq leftFits (by norm_num : _ = 256 ^ 4)), sameLength,
      leWord_leBytes (lt_of_lt_of_eq rightFits (by norm_num : _ = 256 ^ 4))]
  exact append_inj sameBytes lengths

theorem flatMap_chunk_inj {lefts rights : List Bytes}
    (leftFit : ∀ bytes ∈ lefts, bytes.length < 2 ^ 32)
    (rightFit : ∀ bytes ∈ rights, bytes.length < 2 ^ 32)
    (same : lefts.flatMap chunk = rights.flatMap chunk) : lefts = rights := by
  induction lefts generalizing rights with
  | nil =>
    rcases rights with _ | _
    · rfl
    · have lengths := congrArg List.length same
      simp [chunk] at lengths
      omega
  | cons left lefts ih =>
    rcases rights with _ | _
    · have lengths := congrArg List.length same
      simp [chunk] at lengths
    · rw [forall_mem_cons] at leftFit rightFit
      rw [flatMap_cons, flatMap_cons] at same
      rcases chunk_append_inj leftFit.1 rightFit.1 same with ⟨rfl, sameRest⟩
      rw [ih leftFit.2 rightFit.2 sameRest]

abbrev Encoded (encodings : List Bytes) : Prop :=
  Forall₂ (fun module bytes => rawPom.encode module.pom = .ok bytes) modules encodings

variable {modules} {module : ReactorModule} {encodings : List Bytes} {input : Bytes}

theorem feed_eq_ok {bytes : Bytes} (enc : rawPom.encode module.pom = .ok bytes) (fed : Bytes) :
    feed fed module = .ok (fed ++ chunk bytes) := by
  rw [feed, enc, chunk, ← append_assoc]
  rfl

theorem foldlM_feed (enc : Encoded modules encodings) (fed : Bytes) :
    modules.foldlM feed fed = .ok (fed ++ encodings.flatMap chunk) := by
  induction enc generalizing fed with
  | nil => simp [pure, Except.pure]
  | cons head tail ih =>
    rw [foldlM_cons, feed_eq_ok head, flatMap_cons, ← append_assoc]
    exact ih _

theorem FitsSignature.encoded (fits : FitsSignature modules) :
    ∃ encodings, Encoded (sorted modules) encodings ∧ (∀ bytes ∈ encodings, bytes.length < 2 ^ 32) ∧
      hashInput modules = .ok (encodings.flatMap chunk) := by
  have collect : ∀ {list : List ReactorModule}, FitsSignature list →
      ∃ encodings, Encoded list encodings ∧ ∀ bytes ∈ encodings, bytes.length < 2 ^ 32 := by
    intro list fits
    induction list with
    | nil => exact ⟨[], .nil, by simp⟩
    | cons head tail ih =>
      rw [FitsSignature, forall_mem_cons] at fits
      rcases fits.1 with ⟨bytes, enc, short⟩
      rcases ih fits.2 with ⟨encodings, tailEncoded, tailShort⟩
      exact ⟨bytes :: encodings, .cons enc tailEncoded, forall_mem_cons.mpr ⟨short, tailShort⟩⟩
  have sortedFits : FitsSignature (sorted modules) := by
    intro module mem
    exact fits module ((mem_insertionSort _).mp mem)
  rcases collect sortedFits with ⟨encodings, enc, short⟩
  refine ⟨encodings, enc, short, ?_⟩
  rw [hashInput, foldlM_feed enc]
  rfl

theorem map_pom_eq {lefts rights : List ReactorModule} (leftEncoded : Encoded lefts encodings)
    (rightEncoded : Encoded rights encodings)
    (agree : ∀ pair ∈ lefts.zip rights, SkipsAgree pair.1.pom pair.2.pom) :
    lefts.map ReactorModule.pom = rights.map ReactorModule.pom := by
  induction leftEncoded generalizing rights with
  | nil =>
    cases rightEncoded
    rfl
  | cons leftHead leftTail ih =>
    cases rightEncoded with
    | cons rightHead rightTail =>
      rw [zip_cons_cons, forall_mem_cons] at agree
      rw [map_cons, map_cons, ih rightTail agree.2,
        rawPom.eq_of_encode_eq leftHead rightHead agree.1]

theorem encode_of_hashInput (fed : hashInput [module] = .ok input) :
    ∃ bytes, rawPom.encode module.pom = .ok bytes ∧ input = chunk bytes := by
  rcases enc : rawPom.encode module.pom with _ | bytes
  · simp [hashInput, sorted, feed, enc, Except.mapError, bind, Except.bind] at fed
  · have single : Encoded [module] [bytes] := .cons enc .nil
    have chunks : hashInput [module] = .ok ([] ++ [bytes].flatMap chunk) := foldlM_feed single []
    rw [fed, Except.ok.injEq] at chunks
    exact ⟨bytes, rfl, by simpa using chunks⟩

theorem dependencies_eq_of_hashInput {left right : ReactorModule}
    (fed : hashInput [left] = .ok input) (otherFed : hashInput [right] = .ok input) :
    left.pom.dependencies = right.pom.dependencies := by
  rcases encode_of_hashInput fed with ⟨bytes, enc, rfl⟩
  rcases encode_of_hashInput otherFed with ⟨otherBytes, otherEncoded, same⟩
  rw [chunk, chunk] at same
  rcases append_inj same (by simp) with ⟨-, rfl⟩
  exact Serialized.dependencies_eq_of_encode_eq enc otherEncoded

theorem pomSet_sorted (modules : List ReactorModule) :
    pomSet modules = (sorted modules).map ReactorModule.pom := by
  rw [pomSet, Multiset.coe_eq_coe]
  exact ((perm_insertionSort _ modules).map _).symm

theorem sorted_eq_of_perm {left right : List ReactorModule} (perm : left.Perm right)
    (distinct : (left.map ReactorModule.sortKey).Nodup) : sorted left = sorted right := by
  have same : (sorted left).Perm (sorted right) :=
    ((perm_insertionSort _ left).trans perm).trans (perm_insertionSort _ right).symm
  have ordered : ∀ modules,
      (sorted modules).Pairwise fun left right => left.sortKey ≤ right.sortKey :=
    fun modules => pairwise_insertionSort _ modules
  refine same.eq_of_pairwise ?_ (ordered left) (ordered right)
  intro first second firstMem secondMem below above
  have listed : first ∈ left ∧ second ∈ left :=
    ⟨(mem_insertionSort _).mp firstMem, perm.mem_iff.mpr ((mem_insertionSort _).mp secondMem)⟩
  exact inj_on_of_nodup_map distinct listed.1 listed.2 (String.le_antisymm below above)

/-- The order in which a reactor lists its modules does not matter. -/
theorem signature_of_perm (sha256 : Bytes → Bytes) (left right : List ReactorModule)
    (perm : left.Perm right) (distinct : (left.map ReactorModule.sortKey).Nodup) :
    computeSignature sha256 left = computeSignature sha256 right := by
  rw [computeSignature, computeSignature, hashInput, hashInput, sorted_eq_of_perm perm distinct]

theorem signature_of_perm_swapped :
    let app : ReactorModule := ⟨"org.example", "app", { artifactId := "app" }⟩
    let core : ReactorModule := ⟨"org.example", "core", { artifactId := "core" }⟩
    computeSignature id [core, app] = computeSignature id [app, core] :=
  signature_of_perm id _ _ (.swap _ _ _) (by decide)

def pluginModule (configuration : XmlValue) : ReactorModule :=
  { groupId := "org.example"
    artifactId := "app"
    pom :=
      { modelVersion := "4.0.0"
        groupId := some "org.example"
        artifactId := "app"
        version := some "1"
        packaging := "jar"
        build := some
          { plugins := [{ artifactId := "tool", configuration := some configuration }] } } }

theorem pomSet_pluginModule_ne {left right : XmlValue} (differ : left ≠ right) :
    pomSet [pluginModule left] ≠ pomSet [pluginModule right] := by
  intro same
  apply differ
  simpa [pomSet, pluginModule] using same

theorem fitsSignature_singleton (len : ℕ)
    (enc : (rawPom.encode module.pom).map List.length = .ok len) (short : len < 2 ^ 32) :
    FitsSignature [module] := by
  rcases map_eq_ok.mp enc with ⟨bytes, bytesEncoded, rfl⟩
  simp only [FitsSignature, mem_singleton, forall_eq]
  exact ⟨bytes, bytesEncoded, short⟩

/-- Reactors with different effective POMs feed different bytes to the hash, if the skips of
modules at the same place agree. -/
theorem hashInput_ne {left right : List ReactorModule} (leftFits : FitsSignature left)
    (rightFits : FitsSignature right)
    (agree : ∀ pair ∈ (sorted left).zip (sorted right), SkipsAgree pair.1.pom pair.2.pom)
    (differ : pomSet left ≠ pomSet right) : hashInput left ≠ hashInput right := by
  intro same
  rcases leftFits.encoded with ⟨lefts, leftEncoded, leftShort, leftInput⟩
  rcases rightFits.encoded with ⟨rights, rightEncoded, rightShort, rightInput⟩
  rw [leftInput, rightInput, Except.ok.injEq] at same
  rcases flatMap_chunk_inj leftShort rightShort same with rfl
  apply differ
  rw [pomSet_sorted, pomSet_sorted, map_pom_eq leftEncoded rightEncoded agree]

theorem hashInput_ne_texts :
    hashInput [pluginModule { text := some "1" }] ≠ hashInput [pluginModule { text := some "2" }] :=
  hashInput_ne (fitsSignature_singleton 95 (by decide) (by decide))
    (fitsSignature_singleton 95 (by decide) (by decide)) (by decide)
    (pomSet_pluginModule_ne (by simp))

def longName : String := String.ofList (replicate 94 'x')

def textInside : XmlValue :=
  { children := [("k", [{ text := some ("A^" ++ longName ++ "A") }, {}])] }

def textBefore : XmlValue :=
  { text := some "k"
    children := [("a", replicate 65 {}), (longName, replicate 65 {})] }

/-- The tag of the text `k` is read as the number of the children, and the text of the first
child as the names and numbers of the children behind it. -/
theorem hashInput_collision : textInside.text ≠ textBefore.text ∧
    pomSet [pluginModule textInside] ≠ pomSet [pluginModule textBefore] ∧
    FitsSignature [pluginModule textInside] ∧ FitsSignature [pluginModule textBefore] ∧
    hashInput [pluginModule textInside] = hashInput [pluginModule textBefore] := by
  have texts : textInside.text ≠ textBefore.text := by decide
  refine ⟨texts, pomSet_pluginModule_ne fun same => texts (congrArg _ same), ?_, ?_, ?_⟩
  · exact fitsSignature_singleton 195 (by decide +kernel) (by decide)
  · exact fitsSignature_singleton 195 (by decide +kernel) (by decide)
  · decide +kernel

end Barista.Lockfile
