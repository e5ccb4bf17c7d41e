import Barista.Interleaving
import Barista.Cache.Roastery
import Barista.Roastery.Access

/-!
# The blob endpoints

Requests to the blobs of the server as programs of single system calls.
-/

namespace Barista.Roastery

section Storage

open Cache (ContentHash)

abbrev Digest : Type := ContentHash

abbrev Path : Type := List String

def pathFor (digest : Digest) : Path :=
  ["cas", .ofList (digest.toHex.toList.take 2), .ofList (digest.toHex.toList.drop 2)]

def tmpPath (name : String) : Path := ["tmp", name]

theorem pathFor_injective : Function.Injective pathFor := by
  intro first second same
  simp only [pathFor, List.cons.injEq, String.ofList_inj, and_true, true_and] at same
  apply ContentHash.toHex_injective
  rw [← String.toList_inj, ← List.take_append_drop 2 first.toHex.toList, same.1, same.2,
    List.take_append_drop]

theorem tmpPath_injective : Function.Injective tmpPath := by
  intro first second same
  simpa [tmpPath] using same

theorem tmpPath_ne_pathFor (name : String) (digest : Digest) : tmpPath name ≠ pathFor digest := by
  simp [tmpPath, pathFor]

structure FileTree where
  entries : Path → Option ℕ
  contents : ℕ → Bytes
  issued : List String
  next : ℕ

inductive Call where
  | metadata (path : Path)
  | openFile (path : Path)
  | read (file offset : ℕ)
  | createDirAll (path : Path)
  | newTempFile
  | write (file : ℕ) (data : Bytes)
  | flush (file : ℕ)
  | rename (source target : Path)
  | removeFile (path : Path)

def Call.Answer : Call → Type
  | .metadata _ => Except IoError ℕ
  | .openFile _ => Except IoError ℕ
  | .read _ _ => Except IoError Bytes
  | .createDirAll _ => Except IoError Unit
  | .newTempFile => Except IoError (String × ℕ)
  | .write _ _ => Except IoError ℕ
  | .flush _ => Except IoError Unit
  | .rename _ _ => Except IoError Unit
  | .removeFile _ => Except IoError Unit

def Call.effect : (call : Call) → FileTree → call.Answer → FileTree → Prop
  | .metadata path, files, .ok size, files' =>
    files' = files ∧ ∃ file, files.entries path = some file ∧ size = (files.contents file).length
  | .metadata _, files, .error _, files' => files' = files
  | .openFile path, files, .ok file, files' => files' = files ∧ files.entries path = some file
  | .openFile _, files, .error _, files' => files' = files
  | .read file offset, files, .ok chunk, files' =>
    files' = files ∧ chunk <+: (files.contents file).drop offset ∧
      (chunk = [] → (files.contents file).length ≤ offset)
  | .read _ _, files, .error _, files' => files' = files
  | .createDirAll _, files, _, files' => files' = files
  | .newTempFile, files, .ok (name, file), files' =>
    name ∉ files.issued ∧ files.entries (tmpPath name) = none ∧ file = files.next ∧ files' =
        { entries := Function.update files.entries (tmpPath name) (some file)
          contents := Function.update files.contents file []
          issued := name :: files.issued
          next := files.next + 1 }
  | .newTempFile, files, .error _, files' => files' = files
  | .write file data, files, .ok count, files' =>
    0 < count ∧ count ≤ data.length ∧ files' =
        { files with
          contents := Function.update files.contents file (files.contents file ++ data.take count) }
  | .write _ _, files, .error _, files' => files' = files
  | .flush _, files, _, files' => files' = files
  | .rename source target, files, .ok _, files' =>
    ∃ file, files.entries source = some file ∧ files' =
        { files with
          entries :=
            Function.update (Function.update files.entries target (some file)) source none }
  | .rename _ _, files, .error _, files' => files' = files
  | .removeFile path, files, .ok _, files' =>
    files' = { files with entries := Function.update files.entries path none }
  | .removeFile _, files, .error _, files' => files' = files

abbrev Io (α : Type) : Type := Program Call Call.Answer α

namespace Io

def metadata (path : Path) : Io (Except IoError ℕ) := Program.request (Call.metadata path)
def openFile (path : Path) : Io (Except IoError ℕ) := Program.request (Call.openFile path)
def read (file offset : ℕ) : Io (Except IoError Bytes) := Program.request (Call.read file offset)
def createDirAll (path : Path) : Io (Except IoError Unit) :=
  Program.request (Call.createDirAll path)
def newTempFile : Io (Except IoError (String × ℕ)) := Program.request Call.newTempFile
def write (file : ℕ) (data : Bytes) : Io (Except IoError ℕ) :=
  Program.request (Call.write file data)
def flush (file : ℕ) : Io (Except IoError Unit) := Program.request (Call.flush file)
def rename (source target : Path) : Io (Except IoError Unit) :=
  Program.request (Call.rename source target)
def removeFile (path : Path) : Io (Except IoError Unit) := Program.request (Call.removeFile path)

def writeAll (file : ℕ) : ℕ → Bytes → Io (Except IoError Unit)
  | 0, _ => return .ok ()
  | writes + 1, data =>
    if data = [] then return .ok ()
    else do
      match ← write file data with
      | .ok count => writeAll file writes (data.drop count)
      | .error error => return .error error

end Io

structure Stat where
  size : ℕ
  digest : Digest
  deriving DecidableEq

inductive StorageError where
  | io (error : IoError)
  | digestMismatch (expected actual : Digest)
  | invalidDigest (reason : String)
  deriving DecidableEq

abbrev Stream : Type := List (Except IoError Bytes)

def drain : Stream → Except IoError Unit
  | [] => .ok ()
  | .error error :: _ => .error error
  | .ok chunk :: rest => if chunk = [] then .ok () else drain rest

namespace FsCas

open Io

variable (sha256 : Bytes → Digest)

def stat (digest : Digest) : Io (Except StorageError (Option Stat)) := do
  match ← metadata (pathFor digest) with
  | .ok size => return .ok (some ⟨size, digest⟩)
  | .error .notFound => return .ok none
  | .error error => return .error (.io error)

def get (digest : Digest) : Io (Except StorageError (Option ℕ)) := do
  match ← openFile (pathFor digest) with
  | .ok file => return .ok (some file)
  | .error .notFound => return .ok none
  | .error error => return .error (.io error)

def putPresent (expected : Digest) (source : Stream) : Io (Except StorageError Stat) :=
  match drain source with
  | .error error => return .error (.io error)
  | .ok () => do
    match ← metadata (pathFor expected) with
    | .ok size => return .ok ⟨size, expected⟩
    | .error error => return .error (.io error)

def copy (file : ℕ) : Stream → Bytes → Io (Except StorageError Bytes)
  | [], hashed => return .ok hashed
  | .error error :: _, _ => return .error (.io error)
  | .ok chunk :: rest, hashed =>
    if chunk = [] then return .ok hashed
    else do
      match ← writeAll file chunk.length chunk with
      | .ok () => copy file rest (hashed ++ chunk)
      | .error error => return .error (.io error)

def dropStaging {α : Type} (name : String) (result : α) : Io α := do
  let _ ← removeFile (tmpPath name)
  return result

def total (hashed : Bytes) : ℕ := min hashed.length (2 ^ 64 - 1)

def persist (name : String) (expected : Digest) (hashed : Bytes) :
    Io (Except StorageError Stat) := do
  match ← rename (tmpPath name) (pathFor expected) with
  | .ok () => return .ok ⟨total hashed, expected⟩
  | .error error =>
    if error = .alreadyExists then dropStaging name (.ok ⟨total hashed, expected⟩)
    else
      match ← metadata (pathFor expected) with
      | .ok _ => dropStaging name (.ok ⟨total hashed, expected⟩)
      | .error _ => do
        let _ ← removeFile (tmpPath name)
        dropStaging name (.error (.io error))

def putStaged (name : String) (file : ℕ) (expected : Digest) (source : Stream) :
    Io (Except StorageError Stat) := do
  match ← copy file source [] with
  | .error error => dropStaging name (.error error)
  | .ok hashed =>
    match ← flush file with
    | .error error => dropStaging name (.error (.io error))
    | .ok () =>
      if sha256 hashed = expected then persist name expected hashed
      else dropStaging name (.error (.digestMismatch expected (sha256 hashed)))

def put (expected : Digest) (source : Stream) : Io (Except StorageError Stat) := do
  match ← metadata (pathFor expected) with
  | .ok _ => putPresent expected source
  | .error _ =>
    match ← createDirAll ((pathFor expected).take 2) with
    | .error error => return .error (.io error)
    | .ok () =>
      match ← newTempFile with
      | .error error => return .error (.io error)
      | .ok (name, file) => putStaged sha256 name file expected source

def delete (digest : Digest) : Io (Except StorageError Bool) := do
  match ← removeFile (pathFor digest) with
  | .ok () => return .ok true
  | .error .notFound => return .ok false
  | .error error => return .error (.io error)

end FsCas

inductive UpstreamReply where
  | failed (detail : String)
  | answered (status : ℕ) (body : Stream)

inductive AttemptOutcome where
  | hit (stat : Stat)
  | digestMismatch
  | miss
  | error

inductive BodyEnd where
  | ended
  | failed (error : IoError)
  /-- More would be read. -/
  | ongoing
  deriving DecidableEq

structure Body where
  sent : Bytes
  ending : BodyEnd
  deriving DecidableEq

inductive Response where
  | ok (contentLength : ℕ) (digest : Digest) (body : Body)
  | notFound (digest : Digest)
  | invalidCoords (reason : String)

structure BlobRequest where
  digestHex : String
  coords : Option Bytes
  reads : ℕ

section Handler

variable (sha256 : Bytes → Digest) {Coords : Type} (parseCoords : String → Except String Coords)

def tryOne (digest : Digest) : UpstreamReply → Io AttemptOutcome
  | .failed _ => return .error
  | .answered status body =>
    if 200 ≤ status ∧ status < 300 then do
      match ← FsCas.put sha256 digest body with
      | .ok stat => return .hit stat
      | .error (.digestMismatch _ _) => return .digestMismatch
      | .error _ => return .error
    else return .miss

def tryRepos (digest : Digest) : List UpstreamReply → Io (Option Stat)
  | [] => return none
  | reply :: rest => do
    match ← tryOne sha256 digest reply with
    | .hit stat => return some stat
    | .digestMismatch => tryRepos digest rest
    | .miss => tryRepos digest rest
    | .error => tryRepos digest rest

def tryFetch (digest : Digest) (replies : List UpstreamReply) : Io (Except Unit (Option Stat)) :=
  if replies = [] then return .error ()
  else do return .ok (← tryRepos sha256 digest replies)

/-- What a client has got of a file after so many reads. -/
def streamBody (file : ℕ) : ℕ → Bytes → Io Body
  | 0, sent => return ⟨sent, .ongoing⟩
  | reads + 1, sent => do
    match ← Io.read file sent.length with
    | .error error => return ⟨sent, .failed error⟩
    | .ok chunk =>
      if chunk = [] then return ⟨sent, .ended⟩ else streamBody file reads (sent ++ chunk)

def serveFromLocal (reads : ℕ) (digest : Digest) (stat : Stat) :
    Io (Except StorageError Response) := do
  match ← FsCas.get digest with
  | .error error => return .error error
  | .ok none => return .ok (.notFound digest)
  | .ok (some file) => return .ok (.ok stat.size digest (← streamBody file reads []))

def serveFetched (reads : ℕ) (digest : Digest) : Io (Except StorageError Response) := do
  match ← FsCas.stat digest with
  | .error error => return .error error
  | .ok none => return .ok (.notFound digest)
  | .ok (some stat) => serveFromLocal reads digest stat

def fetchMissing (digest : Digest) (replies : Coords → List UpstreamReply) (reads : ℕ)
    (header : Bytes) : Io (Except StorageError Response) :=
  match headerToStr header with
  | none => return .ok (.invalidCoords "X-Barista-Coords header is not valid ASCII")
  | some text =>
    match parseCoords (Text.trim text) with
    | .error reason => return .ok (.invalidCoords reason)
    | .ok coords => do
      match ← tryFetch sha256 digest (replies coords) with
      | .ok (some _) => serveFetched reads digest
      | .ok none => return .ok (.notFound digest)
      | .error () => return .ok (.notFound digest)

def parseDigest (hex : String) : Except StorageError Digest :=
  match Cache.Digest.fromHex hex with
  | some digest => .ok digest
  | none =>
    .error (.invalidDigest (if hex.utf8ByteSize = 64 then "digest must be lowercase hex [0-9a-f]"
      else "expected 64 hex chars, got " ++ hex.utf8ByteSize.repr))

def casGetInner (upstream : Option (Coords → List UpstreamReply)) (request : BlobRequest) :
    Io (Except StorageError Response) :=
  match parseDigest request.digestHex with
  | .error error => return .error error
  | .ok digest => do
    match ← FsCas.stat digest with
    | .error error => return .error error
    | .ok (some stat) => serveFromLocal request.reads digest stat
    | .ok none =>
      match upstream, request.coords with
      | some replies, some header =>
        fetchMissing sha256 parseCoords digest replies request.reads header
      | _, _ => return .ok (.notFound digest)

end Handler

end Storage

/-!
# Integrity of the store

A staging file belongs to one task, which alone writes to it, and it gets the name of a digest only
when its bytes have that digest.  So every file under the path of a digest has that digest, and a
file that was opened there does not change any more.
-/

open List Function

inductive Holding where
  | nothing
  | staging (name : String) (file : ℕ) (bytes : Bytes)
  | reading (file : ℕ) (bytes : Bytes)

def Holding.file : Holding → Option ℕ
  | .nothing => none
  | .staging _ file _ => some file
  | .reading file _ => some file

variable (sha256 : Bytes → Digest)

def Sized (digest : Digest) (size : ℕ) : Prop :=
  ∃ bytes, sha256 bytes = digest ∧ bytes.length = size

def Permits (holding : Holding) : Call → Prop
  | .openFile path => ∃ digest, path = pathFor digest
  | .read file _ => ∃ bytes, holding = .reading file bytes
  | .write file _ => ∃ name bytes, holding = .staging name file bytes
  | .rename source target => ∃ name file bytes,
      holding = .staging name file bytes ∧ source = tmpPath name ∧ target = pathFor (sha256 bytes)
  | _ => True

def Moves (holding : Holding) : (call : Call) → call.Answer → Holding → Prop
  | .metadata path, .ok size, moved =>
    moved = holding ∧ ∀ digest, path = pathFor digest → Sized sha256 digest size
  | .openFile path, .ok file, moved =>
    ∃ bytes, moved = .reading file bytes ∧ ∀ digest, path = pathFor digest → sha256 bytes = digest
  | .read file offset, .ok chunk, moved =>
    moved = holding ∧ ∀ bytes, holding = .reading file bytes →
      chunk <+: bytes.drop offset ∧ (chunk = [] → bytes.length ≤ offset)
  | .newTempFile, .ok (name, file), moved => moved = .staging name file []
  | .write file data, .ok count, moved =>
    0 < count ∧ ∀ name bytes, holding = .staging name file bytes →
      moved = .staging name file (bytes ++ data.take count)
  | .rename _ _, .ok _, moved => moved = .nothing
  | _, _, moved => moved = holding

def discipline : Discipline Call Call.Answer Holding where
  Permits := Permits sha256
  Moves := Moves sha256

def Fits (files : FileTree) : Holding → Prop
  | .nothing => True
  | .staging name file bytes =>
    name ∈ files.issued ∧ file < files.next ∧ files.contents file = bytes ∧
      (∀ other, files.entries (tmpPath name) = some other → other = file) ∧
      ∀ digest, files.entries (pathFor digest) ≠ some file
  | .reading file bytes => file < files.next ∧ files.contents file = bytes

def Apart : Holding → Holding → Prop
  | .staging name file _, other =>
    other.file ≠ some file ∧ ∀ name' file' bytes, other = .staging name' file' bytes → name' ≠ name
  | _, _ => True

structure Consistent (records : ℕ → Holding) (files : FileTree) : Prop where
  bounded : ∀ {path file}, files.entries path = some file → file < files.next
  valid : ∀ {digest file}, files.entries (pathFor digest) = some file →
    sha256 (files.contents file) = digest
  held : ∀ task, Fits files (records task)
  apart : ∀ {task other}, task ≠ other → Apart (records task) (records other)

variable {sha256} {recs : ℕ → Holding} {files files' : FileTree} {task file : ℕ}
  {holding : Holding} {name : String}

theorem lt_of_fits (fits : Fits files holding) (holds : holding.file = some file) :
    file < files.next := by
  cases holding with
  | nothing => cases holds
  | staging name own bytes =>
    cases holds
    exact fits.2.1
  | reading own bytes =>
    cases holds
    exact fits.1

theorem forall_update (own : Fits files holding)
    (others : ∀ other, other ≠ task → Fits files (recs other)) (other : ℕ) :
    Fits files (update recs task holding other) := by
  by_cases same : other = task
  · rwa [same, update_self]
  · rw [update_of_ne same]
    exact others other same

theorem apart_update (consistent : Consistent sha256 recs files)
    (clear : ∀ other, other ≠ task → Apart holding (recs other) ∧ Apart (recs other) holding)
    {first second : ℕ} (ne : first ≠ second) :
    Apart (update recs task holding first) (update recs task holding second) := by
  by_cases own : first = task
  · subst own
    rw [update_self, update_of_ne (Ne.symm ne)]
    exact (clear second (Ne.symm ne)).1
  · rw [update_of_ne own]
    by_cases same : second = task
    · rw [same, update_self]
      exact (clear first own).2
    · rw [update_of_ne same]
      exact consistent.apart ne

theorem apart_of_visible {bytes : Bytes} {digest : Digest} (fits : Fits files holding)
    (visible : files.entries (pathFor digest) = some file) :
    Apart holding (.reading file bytes) := by
  cases holding with
  | nothing => trivial
  | reading own bytes => trivial
  | staging name own written =>
    refine ⟨?_, by simp⟩
    intro same
    cases same
    exact fits.2.2.2.2 digest visible

namespace Consistent

theorem forget (consistent : Consistent sha256 recs files) :
    Consistent sha256 (update recs task .nothing) files where
  bounded := consistent.bounded
  valid := consistent.valid
  held := forall_update trivial fun other _ => consistent.held other
  apart := by
    apply apart_update consistent
    intro other _
    refine ⟨trivial, ?_⟩
    cases recs other with
    | staging name file bytes => exact ⟨by simp [Holding.file], by simp⟩
    | nothing => trivial
    | reading file bytes => trivial

theorem opened (consistent : Consistent sha256 recs files) {digest : Digest}
    (visible : files.entries (pathFor digest) = some file) :
    Consistent sha256 (update recs task (.reading file (files.contents file))) files where
  bounded := consistent.bounded
  valid := consistent.valid
  held := forall_update ⟨consistent.bounded visible, rfl⟩ fun other _ => consistent.held other
  apart := by
    apply apart_update consistent
    intro other _
    exact ⟨trivial, apart_of_visible (consistent.held other) visible⟩

theorem fits_of_staged {holding : Holding} (fresh : name ∉ files.issued)
    (fits : Fits files holding) : Fits
      { entries := update files.entries (tmpPath name) (some files.next)
        contents := update files.contents files.next []
        issued := name :: files.issued
        next := files.next + 1 } holding := by
  cases holding with
  | nothing => trivial
  | reading file bytes =>
    refine ⟨by have := fits.1; simp only; omega, ?_⟩
    rw [← fits.2]
    exact update_of_ne (Nat.ne_of_lt fits.1) _ _
  | staging own file bytes =>
    rcases fits with ⟨issued, bound, written, staged, hidden⟩
    have ne : own ≠ name := fun same => fresh (same ▸ issued)
    refine ⟨.tail _ issued, by simp only; omega, ?_, ?_, ?_⟩
    · rw [← written]
      exact update_of_ne (Nat.ne_of_lt bound) _ _
    · intro other entry
      simp only [update_of_ne (tmpPath_injective.ne ne)] at entry
      exact staged other entry
    · intro digest entry
      simp only [update_of_ne (tmpPath_ne_pathFor name digest).symm] at entry
      exact hidden digest entry

section Staged

variable (consistent : Consistent sha256 recs files)

include consistent

theorem staged (fresh : name ∉ files.issued) :
    Consistent sha256 (update recs task (.staging name files.next []))
      { entries := update files.entries (tmpPath name) (some files.next)
        contents := update files.contents files.next []
        issued := name :: files.issued
        next := files.next + 1 } where
  bounded := by
    intro path file entry
    by_cases same : path = tmpPath name
    · simp only [same, update_self, Option.some.injEq] at entry
      simp only [← entry]
      omega
    · simp only [update_of_ne same] at entry
      exact Nat.lt_succ_of_lt (consistent.bounded entry)
  valid := by
    intro digest file entry
    simp only [update_of_ne (tmpPath_ne_pathFor name digest).symm] at entry
    simp only [update_of_ne (Nat.ne_of_lt (consistent.bounded entry))]
    exact consistent.valid entry
  held := by
    apply forall_update
    · refine ⟨.head _, by simp, by simp, by simp, ?_⟩
      intro digest entry
      simp only [update_of_ne (tmpPath_ne_pathFor name digest).symm] at entry
      exact absurd (consistent.bounded entry) (Nat.lt_irrefl _)
    · exact fun other _ => fits_of_staged fresh (consistent.held other)
  apart := by
    apply apart_update consistent
    intro other _
    have fits := consistent.held other
    constructor
    · refine ⟨fun holds => Nat.lt_irrefl _ (lt_of_fits fits holds), ?_⟩
      intro name' file' bytes staging same
      rw [staging] at fits
      exact fresh (same ▸ fits.1)
    · cases holding : recs other with
      | nothing => trivial
      | reading file bytes => trivial
      | staging own file bytes =>
        rw [holding] at fits
        refine ⟨?_, ?_⟩
        · intro same
          cases same
          exact Nat.lt_irrefl _ fits.2.1
        · intro name' file' bytes' same
          cases same
          exact fun same => fresh (same ▸ fits.1)

theorem written {bytes data : Bytes} (own : recs task = .staging name file bytes) :
    Consistent sha256 (update recs task (.staging name file (bytes ++ data)))
      { files with
        contents := update files.contents file (files.contents file ++ data) } where
  bounded := consistent.bounded
  valid := by
    intro digest other entry
    have fits := consistent.held task
    rw [own] at fits
    have ne : other ≠ file := fun same => fits.2.2.2.2 digest (same ▸ entry)
    simp only [update_of_ne ne]
    exact consistent.valid entry
  held := by
    have fits := consistent.held task
    rw [own] at fits
    apply forall_update
    · exact ⟨fits.1, fits.2.1, by simp [fits.2.2.1], fits.2.2.2.1, fits.2.2.2.2⟩
    · intro other ne
      have apart := consistent.apart (Ne.symm ne)
      rw [own] at apart
      have fits := consistent.held other
      cases holding : recs other with
      | nothing => trivial
      | reading read content =>
        rw [holding] at fits apart
        have elsewhere : read ≠ file := fun same => apart.1 (congrArg some same)
        exact ⟨fits.1, by simp [update_of_ne elsewhere, fits.2]⟩
      | staging staged read content =>
        rw [holding] at fits apart
        have elsewhere : read ≠ file := fun same => apart.1 (congrArg some same)
        exact ⟨fits.1, fits.2.1, by simp [update_of_ne elsewhere, fits.2.2.1],
          fits.2.2.2.1, fits.2.2.2.2⟩
  apart := by
    apply apart_update consistent
    intro other ne
    have pre := consistent.apart (Ne.symm ne)
    have post := consistent.apart ne
    rw [own] at pre post
    refine ⟨pre, ?_⟩
    cases holding : recs other with
    | nothing => trivial
    | reading read content => trivial
    | staging staged read content =>
      rw [holding] at post
      refine ⟨post.1, ?_⟩
      intro name' file' bytes' same
      cases same
      exact post.2 name file bytes rfl

theorem persisted {bytes : Bytes} (own : recs task = .staging name file bytes) :
    Consistent sha256 (update recs task .nothing)
      { files with
        entries := update (update files.entries (pathFor (sha256 bytes)) (some file))
          (tmpPath name) none } where
  bounded := by
    have fits := consistent.held task
    rw [own] at fits
    intro path other entry
    by_cases src : path = tmpPath name
    · simp [src] at entry
    · by_cases tgt : path = pathFor (sha256 bytes)
      · subst tgt
        simp only [update_of_ne src, update_self, Option.some.injEq] at entry
        exact entry ▸ fits.2.1
      · simp only [update_of_ne src, update_of_ne tgt] at entry
        exact consistent.bounded entry
  valid := by
    have fits := consistent.held task
    rw [own] at fits
    intro digest other entry
    simp only [update_of_ne (tmpPath_ne_pathFor name digest).symm] at entry
    by_cases tgt : pathFor digest = pathFor (sha256 bytes)
    · simp only [tgt, update_self, Option.some.injEq] at entry
      rw [pathFor_injective tgt, ← entry]
      exact congrArg sha256 fits.2.2.1
    · simp only [update_of_ne tgt] at entry
      exact consistent.valid entry
  held := by
    refine forall_update (by trivial) ?_
    intro other ne
    have apart := consistent.apart (Ne.symm ne)
    rw [own] at apart
    have fits := consistent.held other
    cases holding : recs other with
    | nothing => trivial
    | reading read content =>
      rw [holding] at fits
      exact fits
    | staging staged read content =>
      rw [holding] at fits apart
      refine ⟨fits.1, fits.2.1, fits.2.2.1, ?_, ?_⟩
      · intro found entry
        have elsewhere : staged ≠ name := apart.2 staged read content rfl
        simp only [update_of_ne (tmpPath_injective.ne elsewhere),
          update_of_ne (tmpPath_ne_pathFor _ _)] at entry
        exact fits.2.2.2.1 found entry
      · intro digest entry
        simp only [update_of_ne (tmpPath_ne_pathFor name digest).symm] at entry
        by_cases tgt : pathFor digest = pathFor (sha256 bytes)
        · simp only [tgt, update_self, Option.some.injEq] at entry
          exact apart.1 (congrArg some entry.symm)
        · simp only [update_of_ne tgt] at entry
          exact fits.2.2.2.2 digest entry
  apart := consistent.forget.apart

theorem removed (path : Path) : Consistent sha256 recs
      { files with entries := update files.entries path none } := by
  have kept {other : Path} {file : ℕ} (entry : update files.entries path none other = some file) :
      files.entries other = some file := by
    by_cases same : other = path
    · simp [same] at entry
    · rwa [update_of_ne same] at entry
  refine ⟨fun entry => consistent.bounded (kept entry), fun entry => consistent.valid (kept entry),
    ?_, consistent.apart⟩
  intro other
  have fits := consistent.held other
  cases holding : recs other with
  | nothing => trivial
  | reading file bytes =>
    rw [holding] at fits
    exact fits
  | staging name file bytes =>
    rw [holding] at fits
    exact ⟨fits.1, fits.2.1, fits.2.2.1, fun found entry => fits.2.2.2.1 found (kept entry),
      fun digest entry => fits.2.2.2.2 digest (kept entry)⟩

end Staged

end Consistent

theorem upholds : Pool.Upholds (discipline sha256) Call.effect .nothing (Consistent sha256) where
  forget := fun _ consistent => consistent.forget
  call := by
    intro recs files task call ans files' consistent permitted acts
    have unchanged (moves : Moves sha256 (recs task) call ans (recs task))
        (same : files' = files) : ∃ moved, Moves sha256 (recs task) call ans moved ∧
          Consistent sha256 (update recs task moved) files' :=
      ⟨recs task, moves, by rw [update_eq_self, same]; exact consistent⟩
    cases call with
    | metadata path =>
      rcases ans with err | size
      · exact unchanged rfl acts
      · rcases acts with ⟨same, file, entry, rfl⟩
        refine unchanged ⟨rfl, ?_⟩ same
        rintro digest rfl
        exact ⟨_, consistent.valid entry, rfl⟩
    | openFile path =>
      rcases ans with err | file
      · exact unchanged rfl acts
      · rcases acts with ⟨rfl, entry⟩
        rcases permitted with ⟨digest, rfl⟩
        refine ⟨_, ⟨_, rfl, ?_⟩, consistent.opened entry⟩
        intro digest' same
        rw [pathFor_injective same] at entry
        exact consistent.valid entry
    | read file offset =>
      rcases ans with err | chunk
      · exact unchanged rfl acts
      · rcases acts with ⟨same, part, ending⟩
        refine unchanged ⟨rfl, ?_⟩ same
        intro bytes own
        have fits := consistent.held task
        rw [own] at fits
        rw [← fits.2]
        exact ⟨part, ending⟩
    | createDirAll path => exact unchanged rfl acts
    | newTempFile =>
      rcases ans with err | ⟨name, file⟩
      · exact unchanged rfl acts
      · rcases acts with ⟨fresh, -, rfl, rfl⟩
        exact ⟨_, rfl, consistent.staged fresh⟩
    | write file data =>
      rcases ans with err | count
      · exact unchanged rfl acts
      · rcases acts with ⟨some, -, rfl⟩
        rcases permitted with ⟨name, bytes, own⟩
        refine ⟨_, ⟨some, ?_⟩, consistent.written own⟩
        intro name' bytes' own'
        rw [own] at own'
        cases own'
        rfl
    | flush file => exact unchanged rfl acts
    | rename src tgt =>
      rcases ans with err | done
      · exact unchanged rfl acts
      · rcases acts with ⟨file', entry, rfl⟩
        rcases permitted with ⟨name, file, bytes, own, rfl, rfl⟩
        have fits := consistent.held task
        rw [own] at fits
        rw [fits.2.2.2.1 file' entry]
        exact ⟨.nothing, rfl, consistent.persisted own⟩
    | removeFile path =>
      rcases ans with err | done
      · exact unchanged rfl acts
      · rcases acts with rfl
        exact ⟨recs task, rfl, by rw [update_eq_self]; exact consistent.removed path⟩

/-- The program keeps to the discipline, whatever it answers. -/
abbrev Obeys {α : Type} (sha256 : Bytes → Digest) (prog : Io α) (holding : Holding) : Prop :=
  Follows (discipline sha256) (fun _ _ => True) prog holding

theorem follows_metadata (digest : Digest) : Follows (discipline sha256)
      (fun moved ans => moved = holding ∧ ∀ size, ans = .ok size → Sized sha256 digest size)
      (Io.metadata (pathFor digest)) holding := by
  refine ⟨trivial, ?_⟩
  rintro (err | size) moved moves
  · exact ⟨moves, by rintro _ ⟨⟩⟩
  · refine ⟨moves.1, ?_⟩
    rintro _ ⟨⟩
    exact moves.2 digest rfl

theorem follows_createDirAll (path : Path) :
    Follows (discipline sha256) (fun moved _ => moved = holding) (Io.createDirAll path) holding :=
  ⟨trivial, fun _ _ moves => moves⟩

theorem follows_flush (file : ℕ) :
    Follows (discipline sha256) (fun moved _ => moved = holding) (Io.flush file) holding :=
  ⟨trivial, fun _ _ moves => moves⟩

theorem follows_removeFile (path : Path) :
    Follows (discipline sha256) (fun moved _ => moved = holding) (Io.removeFile path) holding :=
  ⟨trivial, fun ans _ moves => by cases ans <;> exact moves⟩

variable {src : Stream} {want digest : Digest} {reads : ℕ}

theorem follows_writeAll {writes : ℕ} {bytes data : Bytes} (enough : data.length ≤ writes) :
    Follows (discipline sha256)
      (fun moved ans => ans = .ok () → moved = .staging name file (bytes ++ data))
      (Io.writeAll file writes data) (.staging name file bytes) := by
  induction writes generalizing bytes data with
  | zero =>
    rw [eq_nil_of_length_eq_zero (Nat.le_zero.mp enough), append_nil]
    exact fun _ => rfl
  | succ writes ih =>
    rw [Io.writeAll]
    split_ifs with empty
    · rw [empty, append_nil]
      exact follows_pure fun _ => rfl
    · refine ⟨⟨name, bytes, rfl⟩, ?_⟩
      rintro (err | count) moved moves
      · exact follows_pure (by rintro ⟨⟩)
      · rcases moves with ⟨positive, grown⟩
        rw [grown name bytes rfl]
        have shorter : (data.drop count).length ≤ writes := by
          rw [length_drop]
          omega
        have rest := @ih (bytes ++ data.take count) _ shorter
        rwa [append_assoc, take_append_drop] at rest

theorem follows_copy {hashed : Bytes} : Follows (discipline sha256)
      (fun moved ans => ∀ all, ans = .ok all → moved = .staging name file all)
      (FsCas.copy file src hashed) (.staging name file hashed) := by
  induction src generalizing hashed with
  | nil => exact follows_pure (by rintro _ ⟨⟩; rfl)
  | cons read rest ih =>
    rcases read with _ | _
    · exact follows_pure (by rintro _ ⟨⟩)
    · rw [FsCas.copy]
      split_ifs with empty
      · exact follows_pure (by rintro _ ⟨⟩; rfl)
      · apply (follows_writeAll le_rfl).bind
        rintro moved (err | ⟨⟩) written
        · exact follows_pure (by rintro _ ⟨⟩)
        · rw [written rfl]
          exact ih

theorem follows_dropStaging {α : Type} (name : String) (out : α) :
    Obeys sha256 (FsCas.dropStaging name out) holding :=
  (follows_removeFile _).bind fun _ _ _ => follows_pure trivial

theorem follows_persist {hashed : Bytes} :
    Obeys sha256 (FsCas.persist name (sha256 hashed) hashed) (.staging name file hashed) := by
  refine ⟨⟨name, file, hashed, rfl, rfl, rfl⟩, ?_⟩
  rintro (err | done) moved moves
  · change Follows _ _ (ite _ _ _) _
    split_ifs with exists_
    · exact follows_dropStaging name _
    · apply (follows_metadata _).bind
      rintro last (missing | size) -
      · exact (follows_removeFile _).bind fun _ _ _ => follows_dropStaging name _
      · exact follows_dropStaging name _
  · exact follows_pure trivial

theorem follows_putStaged :
    Obeys sha256 (FsCas.putStaged sha256 name file want src) (.staging name file []) := by
  apply follows_copy.bind
  rintro moved (err | hashed) copied
  · exact follows_dropStaging name _
  · apply (follows_flush file).bind
    rintro last (err | done) rfl
    · exact follows_dropStaging name _
    · rw [copied hashed rfl]
      change Follows _ _ (ite _ _ _) _
      split_ifs with same
      · rw [← same]
        exact follows_persist
      · exact follows_dropStaging name _

theorem follows_putPresent : Obeys sha256 (FsCas.putPresent want src) holding := by
  rw [FsCas.putPresent]
  rcases drain src with _ | _
  · exact follows_pure trivial
  · apply (follows_metadata want).bind
    rintro last (err | size) -
    · exact follows_pure trivial
    · exact follows_pure trivial

theorem follows_put : Obeys sha256 (FsCas.put sha256 want src) holding := by
  apply (follows_metadata want).bind
  rintro moved (missing | size) -
  · apply (follows_createDirAll _).bind
    rintro last (err | done) -
    · exact follows_pure trivial
    · refine ⟨trivial, ?_⟩
      rintro (err | ⟨name, file⟩) staged moves
      · exact follows_pure trivial
      · rw [show staged = .staging name file [] from moves]
        exact follows_putStaged
  · exact follows_putPresent

theorem follows_delete : Obeys sha256 (FsCas.delete digest) holding := by
  apply (follows_removeFile _).bind
  rintro last (err | done) -
  · cases err <;> exact follows_pure trivial
  · exact follows_pure trivial

theorem follows_stat : Follows (discipline sha256)
      (fun _ ans => ∀ stat, ans = .ok (some stat) → Sized sha256 digest stat.size)
      (FsCas.stat digest) holding := by
  apply (follows_metadata digest).bind
  rintro last (err | size) ⟨-, sized⟩
  · cases err <;> exact follows_pure (by rintro _ ⟨⟩)
  · apply follows_pure
    rintro _ ⟨⟩
    exact sized size rfl

theorem follows_get : Follows (discipline sha256) (fun moved ans => ∀ file, ans = .ok (some file) →
        ∃ bytes, moved = .reading file bytes ∧ sha256 bytes = digest)
      (FsCas.get digest) holding := by
  refine ⟨⟨digest, rfl⟩, ?_⟩
  rintro (err | file) moved moves
  · cases err <;> exact follows_pure (by rintro _ ⟨⟩)
  · rcases moves with ⟨bytes, reading, same⟩
    apply follows_pure
    rintro _ ⟨⟩
    exact ⟨bytes, reading, same digest rfl⟩

theorem follows_tryOne {reply : UpstreamReply} :
    Obeys sha256 (tryOne sha256 digest reply) holding := by
  cases reply with
  | failed detail => exact follows_pure trivial
  | answered status body =>
    rw [tryOne]
    split_ifs with success
    · apply follows_put.bind
      rintro last (err | stat) -
      · cases err <;> exact follows_pure trivial
      · exact follows_pure trivial
    · exact follows_pure trivial

theorem follows_tryRepos {replies : List UpstreamReply} :
    Obeys sha256 (tryRepos sha256 digest replies) holding := by
  induction replies generalizing holding with
  | nil => exact follows_pure trivial
  | cons reply rest ih =>
    apply follows_tryOne.bind
    rintro last outcome -
    cases outcome with
    | hit stat => exact follows_pure trivial
    | digestMismatch => exact ih
    | miss => exact ih
    | error => exact ih

theorem follows_tryFetch {replies : List UpstreamReply} :
    Obeys sha256 (tryFetch sha256 digest replies) holding := by
  rw [tryFetch]
  split_ifs with none
  · exact follows_pure trivial
  · exact follows_tryRepos.bind fun _ _ _ => follows_pure trivial

/-- The body is a part of the blob, all of it if the file was read to its end, and that it is after
enough reads unless one fails. -/
structure Carries (blob : Bytes) (reads : ℕ) (body : Body) : Prop where
  part : body.sent <+: blob
  whole : body.ending = .ended → body.sent = blob
  ends : blob.length < reads → body.ending ≠ .ongoing

theorem follows_streamBody {bytes sent : Bytes} (part : sent <+: bytes) :
    Follows (discipline sha256) (fun _ => Carries bytes (sent.length + reads))
      (streamBody file reads sent) (.reading file bytes) := by
  induction reads generalizing sent with
  | zero =>
    refine follows_pure ⟨part, by rintro ⟨⟩, ?_⟩
    intro long
    exact absurd part.length_le (by simpa using long)
  | succ reads ih =>
    refine ⟨⟨bytes, rfl⟩, ?_⟩
    rintro (err | chunk) moved moves
    · exact follows_pure ⟨part, by rintro ⟨⟩, by rintro - ⟨⟩⟩
    · rcases moves with ⟨rfl, next⟩
      rcases next bytes rfl with ⟨following, ending⟩
      change Follows _ _ (ite _ _ _) _
      split_ifs with empty
      · exact follows_pure ⟨part, fun _ => part.eq_of_length_le (ending empty), by rintro - ⟨⟩⟩
      · have longer : sent ++ chunk <+: bytes := by
          rcases part with ⟨rest, rfl⟩
          rw [drop_left] at following
          exact (prefix_append_right_inj sent).mpr following
        refine (ih longer).mono fun _ body carries => ⟨carries.part, carries.whole, ?_⟩
        intro enough
        apply carries.ends
        have some : 0 < chunk.length := length_pos_iff.mpr empty
        rw [length_append]
        omega

/-- An answer with a body carries a blob of the digest, and declares the length of such a blob. -/
def Delivers (sha256 : Bytes → Digest) (digest : Digest) (reads : ℕ)
    (answer : Except StorageError Response) : Prop :=
  ∀ size named body, answer = .ok (.ok size named body) → named = digest ∧
    (∃ blob, sha256 blob = digest ∧ Carries blob reads body) ∧ Sized sha256 digest size

theorem follows_serveFromLocal {stat : Stat} (sized : Sized sha256 digest stat.size) :
    Follows (discipline sha256) (fun _ => Delivers sha256 digest reads)
      (serveFromLocal reads digest stat) holding := by
  apply follows_get.bind
  rintro moved (err | _ | file) opened
  · exact follows_pure (by rintro _ _ _ ⟨⟩)
  · exact follows_pure (by rintro _ _ _ ⟨⟩)
  · rcases opened file rfl with ⟨bytes, rfl, same⟩
    apply (follows_streamBody nil_prefix).bind
    intro last body carries
    apply follows_pure
    rintro size named sent ⟨⟩
    rw [length_nil, Nat.zero_add] at carries
    exact ⟨rfl, ⟨bytes, same, carries⟩, sized⟩

theorem follows_serveFetched :
    Follows (discipline sha256) (fun _ => Delivers sha256 digest reads) (serveFetched reads digest)
      holding := by
  apply follows_stat.bind
  rintro moved (err | _ | stat) sized
  · exact follows_pure (by rintro _ _ _ ⟨⟩)
  · exact follows_pure (by rintro _ _ _ ⟨⟩)
  · exact follows_serveFromLocal (sized stat rfl)

variable {Coords : Type} {parseCoords : String → Except String Coords}

theorem follows_fetchMissing {digest : Digest} {replies : Coords → List UpstreamReply} {reads : ℕ}
    {hdr : Bytes} :
    Follows (discipline sha256) (fun _ => Delivers sha256 digest reads)
      (fetchMissing sha256 parseCoords digest replies reads hdr) holding := by
  rw [fetchMissing]
  rcases headerToStr hdr with _ | text
  · exact follows_pure (by rintro _ _ _ ⟨⟩)
  · rcases parsed : parseCoords (Text.trim text) with _ | _ <;> simp only [parsed]
    · exact follows_pure (by rintro _ _ _ ⟨⟩)
    · apply follows_tryFetch.bind
      rintro moved (⟨⟩ | _ | stat) -
      · exact follows_pure (by rintro _ _ _ ⟨⟩)
      · exact follows_pure (by rintro _ _ _ ⟨⟩)
      · exact follows_serveFetched

/-- An answer with a body is one for the digest that the request names. -/
def Answers (sha256 : Bytes → Digest) (request : BlobRequest)
    (answer : Except StorageError Response) : Prop :=
  ∀ size digest body, answer = .ok (.ok size digest body) →
    parseDigest request.digestHex = .ok digest ∧ Delivers sha256 digest request.reads answer

theorem follows_casGetInner {upstream : Option (Coords → List UpstreamReply)} {req : BlobRequest} :
    Follows (discipline sha256) (fun _ => Answers sha256 req)
      (casGetInner sha256 parseCoords upstream req) holding := by
  rw [casGetInner]
  rcases parsed : parseDigest req.digestHex with _ | digest
  · exact follows_pure (by rintro _ _ _ ⟨⟩)
  · have delivered {prog : Io (Except StorageError Response)} {moved : Holding}
        (delivers : Follows (discipline sha256) (fun _ => Delivers sha256 digest req.reads) prog
          moved) : Follows (discipline sha256) (fun _ => Answers sha256 req) prog moved := by
      apply delivers.mono
      intro last ans delivers size named body same
      rw [(delivers size named body same).1]
      exact ⟨parsed, delivers⟩
    apply follows_stat.bind
    rintro moved (err | _ | stat) sized
    · exact follows_pure (by rintro _ _ _ ⟨⟩)
    · rcases upstream with _ | replies
      · exact follows_pure (by rintro _ _ _ ⟨⟩)
      · rcases req.coords with _ | _
        · exact follows_pure (by rintro _ _ _ ⟨⟩)
        · exact delivered follows_fetchMissing
    · exact delivered (follows_serveFromLocal (sized stat rfl))

inductive Reply where
  | stat (digest : Digest) (answer : Except StorageError (Option Stat))
  | get (digest : Digest) (answer : Except StorageError (Option ℕ))
  | put (expected : Digest) (answer : Except StorageError Stat)
  | delete (digest : Digest) (answer : Except StorageError Bool)
  | blob (request : BlobRequest) (answer : Except StorageError Response)

section Runs

variable (sha256 parseCoords)

inductive Starts : Io Reply → Prop
  | stat (digest : Digest) : Starts (.stat digest <$> FsCas.stat digest)
  | get (digest : Digest) : Starts (.get digest <$> FsCas.get digest)
  | put (expected : Digest) (source : Stream) :
      Starts (.put expected <$> FsCas.put sha256 expected source)
  | delete (digest : Digest) : Starts (.delete digest <$> FsCas.delete digest)
  | blob (upstream : Option (Coords → List UpstreamReply)) (request : BlobRequest) :
      Starts (.blob request <$> casGetInner sha256 parseCoords upstream request)

def Sound (holding : Holding) : Reply → Prop
  | .get digest answer => ∀ file, answer = .ok (some file) →
      ∃ bytes, holding = .reading file bytes ∧ sha256 bytes = digest
  | .blob request answer => Answers sha256 request answer
  | _ => True

variable {sha256 parseCoords}

theorem follows_map {α : Type} {prog : Io α} {holding : Holding} {make : α → Reply}
    {post : Holding → α → Prop} (follows : Follows (discipline sha256) post prog holding)
    (sound : ∀ last val, post last val → Sound sha256 last (make val)) :
    Follows (discipline sha256) (Sound sha256) (make <$> prog) holding :=
  follows.bind sound

theorem follows_of_starts {prog : Io Reply} (starts : Starts sha256 parseCoords prog) :
    Follows (discipline sha256) (Sound sha256) prog .nothing := by
  cases starts with
  | stat digest => exact follows_map follows_stat fun _ _ _ => trivial
  | get digest => exact follows_map follows_get fun _ _ opened => opened
  | put want src => exact follows_map follows_put fun _ _ _ => trivial
  | delete digest => exact follows_map follows_delete fun _ _ _ => trivial
  | blob upstream req => exact follows_map follows_casGetInner fun _ _ delivered => delivered

/-- A file under the path of a digest has that digest. -/
structure FileTree.Valid (sha256 : Bytes → Digest) (files : FileTree) : Prop where
  bounded : ∀ {path file}, files.entries path = some file → file < files.next
  valid : ∀ {digest file}, files.entries (pathFor digest) = some file →
    sha256 (files.contents file) = digest

theorem FileTree.Valid.settled {files : FileTree} (valid : files.Valid sha256) :
    Pool.Settled (discipline sha256) (Sound sha256) (Consistent sha256)
      ⟨fun _ => none, files⟩ (fun _ => .nothing) where
  invariant := ⟨valid.bounded, valid.valid, fun _ => trivial, fun _ => trivial⟩
  follows := by rintro _ _ ⟨⟩

variable (sha256 parseCoords)

/-- Whatever the tasks do and wherever they stop: a file under the path of a digest has that digest,
a file that was opened there has it and does not change, and every answer with a body carries a blob
of the requested digest. If only one blob has the digest, the declared length is its own. -/
theorem store_integrity {files : FileTree} (valid : files.Valid sha256)
    {pool : Pool ℕ FileTree Call Call.Answer Reply}
    (reaches : Pool.Reaches Call.effect (Starts sha256 parseCoords) ⟨fun _ => none, files⟩ pool) :
    (∀ digest file, pool.state.entries (pathFor digest) = some file →
      sha256 (pool.state.contents file) = digest) ∧
    (∀ task digest file, pool.tasks task = some (.done (.get digest (.ok (some file)))) →
      sha256 (pool.state.contents file) = digest ∧
      ∀ later, Pool.Step Call.effect (Starts sha256 parseCoords) pool later →
        later.state.contents file = pool.state.contents file) ∧
    ∀ task request size digest body,
      pool.tasks task = some (.done (.blob request (.ok (.ok size digest body)))) →
        parseDigest request.digestHex = .ok digest ∧
          ∃ blob, sha256 blob = digest ∧ Carries blob request.reads body ∧
            ((∀ bytes, sha256 bytes = digest → bytes = blob) → size = blob.length) := by
  rcases Pool.settled_of_reaches upholds (fun _ => follows_of_starts) valid.settled reaches with
    ⟨recs, settled⟩
  refine ⟨fun digest file entry => settled.invariant.valid entry, ?_, ?_⟩
  · intro task digest file ended
    rcases settled.follows ended file rfl with ⟨bytes, reading, same⟩
    have fits := settled.invariant.held task
    rw [reading] at fits
    refine ⟨by rw [fits.2, same], ?_⟩
    intro later step
    rcases settled.step upholds (fun _ => follows_of_starts) step with ⟨records', settled', kept⟩
    rcases kept task _ ended with keeps | unchanged
    · have fits' := settled'.invariant.held task
      rw [keeps, reading] at fits'
      rw [fits.2, fits'.2]
    · rw [unchanged]
  · intro task request size digest body ended
    rcases settled.follows ended size digest body rfl with ⟨parsed, delivers⟩
    rcases delivers size digest body rfl with ⟨-, ⟨blob, same, carries⟩, bytes, digested, sized⟩
    refine ⟨parsed, blob, same, carries, fun unique => ?_⟩
    rw [← sized, unique bytes digested]

end Runs

def oneBlob : FileTree where
  entries := fun path => if path = pathFor (firstBytes [7]) then some 0 else none
  contents := fun _ => [7]
  issued := []
  next := 1

def sevenRequest : BlobRequest := ⟨(firstBytes [7]).toHex, none, 2⟩

theorem parseDigest_seven : parseDigest sevenRequest.digestHex = .ok (firstBytes [7]) := by
  decide +kernel

theorem valid_oneBlob : oneBlob.Valid firstBytes where
  bounded := by
    intro path file entry
    simp only [oneBlob, Option.ite_none_right_eq_some, Option.some.injEq] at entry ⊢
    omega
  valid := by
    intro digest file entry
    simp only [oneBlob, Option.ite_none_right_eq_some] at entry
    exact (pathFor_injective entry.1).symm

def stagedBeside (bytes : Bytes) : FileTree where
  entries := Function.update oneBlob.entries (tmpPath "staging") (some 1)
  contents := Function.update oneBlob.contents 1 bytes
  issued := ["staging"]
  next := 2

theorem Reaches.answer {starts : Io Reply → Prop}
    {start pool : Pool ℕ FileTree Call Call.Answer Reply}
    (reaches : Pool.Reaches Call.effect starts start pool) (task : ℕ) (call : Call)
    (answer : call.Answer) (files : FileTree) {next : call.Answer → Io Reply}
    (turn : pool.tasks task = some (.call call next))
    (acts : call.effect pool.state answer files) :
    Pool.Reaches Call.effect starts start
      ⟨Function.update pool.tasks task (some (next answer)), files⟩ :=
  reaches.tail (.call task call next answer files turn acts)

/-- While the blob `[7]` is served, another task stages and stores the blob `[8]`. -/
theorem store_integrity_interleaved :
    ∃ pool, Pool.Reaches Call.effect (Starts firstBytes fun _ => Except.ok ())
        ⟨fun _ => none, oneBlob⟩ pool ∧
      pool.tasks 0 =
        some (.done (.blob sevenRequest (.ok (.ok 1 (firstBytes [7]) ⟨[7], .ended⟩)))) ∧
      pool.state.entries (pathFor (firstBytes [8])) = some 1 ∧
      firstBytes (pool.state.contents 1) = firstBytes [8] ∧
      ∃ blob, firstBytes blob = firstBytes [7] ∧ Carries blob 2 ⟨[7], .ended⟩ := by
  have starts : Starts firstBytes (fun _ => Except.ok ()) _ := .blob none sevenRequest
  rw [casGetInner, parseDigest_seven] at starts
  have begun : Pool.Reaches Call.effect (Starts firstBytes fun _ => Except.ok ())
      (⟨fun _ => none, oneBlob⟩ : Pool ℕ FileTree Call Call.Answer Reply) _ :=
    .single (.start 0 _ rfl starts)
  have putting := begun.tail (.start 1 _ rfl (.put (firstBytes [8]) [.ok [8]]))
  have statted := Reaches.answer putting 0 (.metadata (pathFor (firstBytes [7]))) (Except.ok 1)
    oneBlob rfl ⟨rfl, 0, by simp [oneBlob], rfl⟩
  have missed := Reaches.answer statted 1 (.metadata (pathFor (firstBytes [8])))
    (Except.error .notFound) oneBlob rfl rfl
  have prepared := Reaches.answer missed 1 (.createDirAll ((pathFor (firstBytes [8])).take 2))
    (Except.ok ()) oneBlob rfl rfl
  have staged := Reaches.answer prepared 1 .newTempFile (Except.ok ("staging", 1))
    (stagedBeside []) rfl ⟨by simp [oneBlob], by simp [oneBlob, tmpPath_ne_pathFor], rfl, rfl⟩
  have opened := Reaches.answer staged 0 (.openFile (pathFor (firstBytes [7]))) (Except.ok 0)
    (stagedBeside []) rfl
    ⟨rfl, by simp [stagedBeside, oneBlob, Function.update, (tmpPath_ne_pathFor _ _).symm]⟩
  have written := Reaches.answer opened 1 (.write 1 [8]) (Except.ok 1) (stagedBeside [8]) rfl
    ⟨by decide, by decide, by simp [stagedBeside]⟩
  have served := Reaches.answer written 0 (.read 0 0) (Except.ok [7]) (stagedBeside [8]) rfl
    ⟨rfl, by simp [stagedBeside, oneBlob], by simp⟩
  have flushed := Reaches.answer served 1 (.flush 1) (Except.ok ()) (stagedBeside [8]) rfl rfl
  have renamed := Reaches.answer flushed 1 (.rename (tmpPath "staging") (pathFor (firstBytes [8])))
    (Except.ok ()) _ rfl ⟨1, by simp [stagedBeside], rfl⟩
  have ended := Reaches.answer renamed 0 (.read 0 1) (Except.ok []) _ rfl
    ⟨rfl, by simp, by simp [stagedBeside, oneBlob]⟩
  have stored : (Function.update (Function.update (stagedBeside [8]).entries
      (pathFor (firstBytes [8])) (some 1)) (tmpPath "staging") none) (pathFor (firstBytes [8])) =
        some 1 := by
    simp [Function.update, (tmpPath_ne_pathFor _ _).symm]
  have sound := store_integrity firstBytes _ valid_oneBlob ended
  refine ⟨_, ended, rfl, stored, sound.1 _ _ stored, ?_⟩
  rcases sound.2.2 0 sevenRequest 1 _ ⟨[7], .ended⟩ rfl with ⟨-, blob, same, carries, -⟩
  exact ⟨blob, same, carries⟩

end Barista.Roastery
