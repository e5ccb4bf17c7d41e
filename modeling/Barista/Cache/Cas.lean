import Barista.Files
import Barista.Hex
import Barista.Cache.Journal
import Barista.Persistent
import Barista.Text

/-!
# The content-addressed store

A blob is written to a staging file, synced and renamed to the path of its hash. Every call may
fail at any system call and leaves the other objects as they are.
-/

namespace Barista.Cache

open Function

namespace ContentHash

def toHex (hash : ContentHash) : String := .ofList (Hex.encode hash.bytes.toList)

theorem toHex_injective : Injective toHex := by
  intro left right same
  have digits := Hex.encode_injective (String.ofList_injective same)
  rcases left with ⟨left⟩
  rcases right with ⟨right⟩
  rw [ContentHash.mk.injEq, ← Vector.toList_inj]
  exact digits

end ContentHash

inductive CasPath where
  | objectDir (shard : String)
  | object (shard name : String)
  | tmp (name : String)
  deriving DecidableEq

inductive CasError where
  | io (path : CasPath) (source : IoError)
  deriving DecidableEq

inductive ReadEvent where
  | data (bytes : Bytes)
  | interrupted
  | failed (error : IoError)
  deriving DecidableEq

def streamed : List ReadEvent → Option Bytes
  | [] => some []
  | .data [] :: _ => some []
  | .data (byte :: bytes) :: rest => (streamed rest).map (byte :: bytes ++ ·)
  | .interrupted :: rest => streamed rest
  | .failed _ :: _ => none

namespace Cas

open FileM

variable (hash : ContentHash)

def shardOf : String := .ofList ((Hex.encode hash.bytes.toList).take 2)

def pathFor : CasPath := .object (shardOf hash) hash.toHex

theorem pathFor_injective : Injective pathFor := by
  intro left right same
  rw [pathFor, pathFor, CasPath.object.injEq] at same
  exact ContentHash.toHex_injective same.2

def finalizeTmp (tmp : CasPath) (hash : ContentHash) (finalPath : CasPath) :
    FileM CasPath CasError (ContentHash × CasPath) := do
  -- the directory of the shard is created on demand
  mapError (CasError.io (.objectDir (shardOf hash))) touchNothing
  orElse (rename tmp finalPath) fun error => do
    ignore (removeFile tmp)
    throw (.io finalPath error)
  return (hash, finalPath)

def copyStream (tmp : CasPath) : List ReadEvent → Bytes → FileM CasPath CasError Bytes
  | [], hashed => return hashed
  | .data [] :: _, hashed => return hashed
  | .data (byte :: bytes) :: rest, hashed => do
    orElse (writeAll tmp (byte :: bytes)) fun error => do
      ignore (removeFile tmp)
      throw (.io tmp error)
    copyStream tmp rest (hashed ++ byte :: bytes)
  | .interrupted :: rest, hashed => copyStream tmp rest hashed
  | .failed error :: _, _ => do
    ignore (removeFile tmp)
    throw (.io tmp error)

def get : FileM CasPath CasError Bytes :=
  mapError (CasError.io (pathFor hash)) (read (pathFor hash))

section Put

variable (sha256 : Bytes → ContentHash)

def put (tmpName : String) (bytes : Bytes) : FileM CasPath CasError (ContentHash × CasPath) := do
  let hash := sha256 bytes
  let finalPath := pathFor hash
  if (← isFile finalPath) = true then
    pure (hash, finalPath)
  else
    let tmp := .tmp tmpName
    mapError (CasError.io tmp) (createNew tmp)
    mapError (CasError.io tmp) (writeAll tmp bytes)
    mapError (CasError.io tmp) touchNothing
    finalizeTmp tmp hash finalPath

def putStream (tmpName : String) (reads : List ReadEvent) :
    FileM CasPath CasError (ContentHash × CasPath × ℕ) := do
  let tmp := .tmp tmpName
  mapError (CasError.io tmp) (createNew tmp)
  let content ← copyStream tmp reads []
  mapError (CasError.io tmp) touchNothing
  let hash := sha256 content
  let finalPath := pathFor hash
  if (← isFile finalPath) = true then
    -- another writer was faster
    ignore (removeFile tmp)
    pure (hash, finalPath, content.length)
  else
    let (hash, finalPath) ← finalizeTmp tmp hash finalPath
    return (hash, finalPath, content.length)

end Put

def SameObjects (left right : Contents CasPath) : Prop :=
  ∀ shard name, left (.object shard name) = right (.object shard name)

theorem SameObjects.refl (files : Contents CasPath) : SameObjects files files := fun _ _ => rfl

theorem SameObjects.trans {first second third : Contents CasPath}
    (left : SameObjects first second) (right : SameObjects second third) :
    SameObjects first third :=
  fun shard name => (left shard name).trans (right shard name)

section SameObjects

variable {left right : Contents CasPath} (same : SameObjects left right)

include same

theorem SameObjects.symm : SameObjects right left :=
  fun shard name => (same shard name).symm

theorem SameObjects.at : left (pathFor hash) = right (pathFor hash) := same _ _

omit same in
theorem sameObjects_update_tmp (files : Contents CasPath) (name : String)
    (content : Option Bytes) : SameObjects files (update files (.tmp name) content) := by
  intro shard object
  simp

theorem SameObjects.update (path : CasPath) (content : Option Bytes) :
    SameObjects (update left path content) (update right path content) := by
  intro shard name
  by_cases here : CasPath.object shard name = path
  · rw [← here, update_self, update_self]
  · rw [update_of_ne here, update_of_ne here]
    exact same shard name

end SameObjects

section Phases

variable {ε α : Type} (initial : Contents CasPath) (tmpName : String) (written : Bytes)

structure Writing (files : Contents CasPath) : Prop where
  objects : SameObjects initial files
  content : files (.tmp tmpName) = some written

inductive Progress : Except ε α → Contents CasPath → Prop
  | failed {files : Contents CasPath} (error : ε) :
      SameObjects initial files → Progress (.error error) files
  | reached {files : Contents CasPath} (value : α) :
      Writing initial tmpName written files → Progress (.ok value) files

variable (path : CasPath) (bytes : Bytes) (answer : α)

inductive Settled : Except ε α → Contents CasPath → Prop
  | failed {files : Contents CasPath} (error : ε) :
      SameObjects initial files → Settled (.error error) files
  | present {files : Contents CasPath} : (initial path).isSome → SameObjects initial files →
      Settled (.ok answer) files
  | stored {files : Contents CasPath} :
      SameObjects (update initial path (some bytes)) files → Settled (.ok answer) files

end Phases

variable {path : CasPath}

theorem Settled.answer {ε ε' α β : Type} {init files : Contents CasPath}
    {bytes : Bytes} {first val : α} (second : β)
    (settled : Settled init path bytes first (.ok val : Except ε α) files) :
    val = first ∧ Settled init path bytes second (.ok second : Except ε' β) files := by
  cases settled with
  | present found same => exact ⟨rfl, Settled.present found same⟩
  | stored same => exact ⟨rfl, Settled.stored same⟩

section Calls

variable {ε : Type} {init : Contents CasPath} {tmpName : String} {written : Bytes}

theorem Progress.mapError {ε' α : Type} {convert : ε → ε'} {outcome : Except ε α}
    {files : Contents CasPath} (progress : Progress init tmpName written outcome files) :
    Progress init tmpName written (outcome.mapError convert) files := by
  cases progress with
  | failed err same => exact Progress.failed (convert err) same
  | reached val writing => exact Progress.reached val writing

section Carried

variable {α : Type} {files : Contents CasPath}

theorem Progress.same {err : ε}
    (progress : Progress init tmpName written (.error err : Except ε α) files) :
    SameObjects init files := by
  cases progress with
  | failed _ same => exact same

theorem Progress.writing {val : α}
    (progress : Progress init tmpName written (.ok val : Except ε α) files) :
    Writing init tmpName written files := by
  cases progress with
  | reached _ writing => exact writing

theorem Settled.same {ans : α} {err : ε}
    (settled : Settled init path written ans (.error err) files) : SameObjects init files := by
  cases settled with
  | failed _ same => exact same

end Carried

theorem ensures_removeTmp :
    Ensures (SameObjects init) (ignore (removeFile (.tmp tmpName)) : FileM CasPath ε Unit)
      fun outcome files => outcome = .ok () ∧ SameObjects init files := by
  apply Ensures.ignore
  apply Ensures.call
  · intro fault files same
    exact ⟨rfl, same⟩
  · intro files same
    refine ⟨rfl, ?_⟩
    split
    · exact same.trans (sameObjects_update_tmp files tmpName none)
    · exact same

theorem ensures_cleanUp {α : Type} {post : Except ε α → Contents CasPath → Prop} {err : ε}
    (failed : ∀ files, SameObjects init files → post (.error err) files) :
    Ensures (SameObjects init)
      ((do ignore (removeFile (.tmp tmpName)); throw err) : FileM CasPath ε α) post := by
  apply ensures_removeTmp.bind
  · rintro err files ⟨impossible, -⟩
    cases impossible
  · intro _
    apply Ensures.throw
    intro files reached
    exact failed files reached.2

theorem ensures_sync : Ensures (Writing init tmpName written)
      (mapError (CasError.io path) touchNothing : FileM CasPath CasError Unit)
      (Progress init tmpName written) := by
  apply Ensures.mapError
  apply Ensures.touchNothing
  · intro err files writing
    exact Progress.failed _ writing.objects
  · intro files writing
    exact Progress.reached () writing

theorem ensures_createTmp : Ensures (SameObjects init)
      (mapError (CasError.io path) (createNew (.tmp tmpName)) : FileM CasPath CasError Unit)
      (Progress init tmpName []) := by
  apply Ensures.mapError
  apply Ensures.call
  · intro fault files same
    exact Progress.failed _ same
  · intro files same
    split
    · exact Progress.failed _ same
    · refine Progress.reached () ⟨?_, by simp⟩
      exact same.trans (sameObjects_update_tmp files tmpName (some []))

theorem ensures_writeTmp (bytes : Bytes) :
    Ensures (Writing init tmpName written) (writeAll (.tmp tmpName) bytes)
      (Progress init tmpName (written ++ bytes)) := by
  apply Ensures.call
  · intro fault files writing
    exact Progress.failed _ (writing.objects.trans (sameObjects_update_tmp files tmpName _))
  · intro files writing
    refine Progress.reached () ⟨?_, ?_⟩
    · exact writing.objects.trans (sameObjects_update_tmp files tmpName _)
    · simp [FileM.appended, writing.content]

inductive Looked (before : Contents CasPath → Prop) (initial : Contents CasPath)
    (hash : ContentHash) : Except ε Bool → Contents CasPath → Prop
  | absent {files : Contents CasPath} : before files → Looked before initial hash (.ok false) files
  | present {files : Contents CasPath} :
      before files → (initial (pathFor hash)).isSome → Looked before initial hash (.ok true) files

theorem Looked.before {pre : Contents CasPath → Prop} {hash : ContentHash}
    {outcome : Except ε Bool} {files : Contents CasPath}
    (looked : Looked pre init hash outcome files) : pre files := by
  cases looked with
  | absent holds | present holds => exact holds

theorem ensures_isFile {pre : Contents CasPath → Prop}
    (objects : ∀ files, pre files → SameObjects init files) (hash : ContentHash) :
    Ensures pre (isFile (pathFor hash) : FileM CasPath ε Bool) (Looked pre init hash) := by
  apply Ensures.isFile
  · intro files holds
    exact Looked.absent holds
  · intro files holds found
    apply Looked.present holds
    rw [(objects files holds).at]
    exact found

theorem ensures_rename (path : CasPath) :
    Ensures (Writing init tmpName written) (rename (.tmp tmpName) path)
      (Settled init path written ()) := by
  apply Ensures.call
  · intro fault files writing
    exact Settled.failed _ writing.objects
  · intro files writing
    rw [writing.content]
    apply Settled.stored
    exact (writing.objects.trans (sameObjects_update_tmp files tmpName none)).update _ _

theorem ensures_finalizeTmp :
    Ensures (Writing init tmpName written) (finalizeTmp (.tmp tmpName) hash (pathFor hash))
      (Settled init (pathFor hash) written (hash, pathFor hash)) := by
  have moved : Ensures (Writing init tmpName written)
      (orElse (rename (.tmp tmpName) (pathFor hash)) fun err => do
        ignore (removeFile (.tmp tmpName))
        throw (CasError.io (pathFor hash) err))
      (Settled init (pathFor hash) written ()) := by
    apply (ensures_rename (pathFor hash)).orElse
    · intro val files settled
      exact (settled.answer ()).2
    · intro err
      exact (ensures_cleanUp fun _ same => Settled.failed _ same).strengthen
        fun _ settled => settled.same
  apply ensures_sync.bind fun err _ progress => Settled.failed err progress.same
  intro _
  apply (moved.strengthen fun _ progress => progress.writing).bind
    fun err _ settled => Settled.failed err settled.same
  intro _
  apply Ensures.pure
  intro files settled
  exact (settled.answer (hash, pathFor hash)).2

inductive Copied (initial : Contents CasPath) (tmpName : String) (hashed : Bytes)
    (reads : List ReadEvent) : Except CasError Bytes → Contents CasPath → Prop
  | failed {files : Contents CasPath} (error : CasError) :
      SameObjects initial files → Copied initial tmpName hashed reads (.error error) files
  | copied {files : Contents CasPath} {content total : Bytes} :
      streamed reads = some content → total = hashed ++ content →
        Writing initial tmpName total files →
        Copied initial tmpName hashed reads (.ok total) files

theorem ensures_copyStream (reads : List ReadEvent) (hashed : Bytes) :
    Ensures (Writing init tmpName hashed) (copyStream (.tmp tmpName) reads hashed)
      (Copied init tmpName hashed reads) := by
  induction reads, hashed using copyStream.induct with
  | case1 hashed | case2 tail hashed =>
    rw [copyStream]
    apply Ensures.pure
    intro files writing
    exact Copied.copied rfl (List.append_nil _).symm writing
  | case3 byte bytes rest hashed ih =>
    rw [copyStream]
    have wrote : Ensures (Writing init tmpName hashed)
        (orElse (writeAll (.tmp tmpName) (byte :: bytes)) fun err => do
          ignore (removeFile (.tmp tmpName))
          throw (CasError.io (.tmp tmpName) err))
        (Progress init tmpName (hashed ++ byte :: bytes)) := by
      apply (ensures_writeTmp (byte :: bytes)).orElse
      · intro val files progress
        exact Progress.reached val progress.writing
      · intro err
        exact (ensures_cleanUp fun _ same => Progress.failed _ same).strengthen
          fun _ progress => progress.same
    apply wrote.bind fun err _ progress => Copied.failed err progress.same
    intro _
    apply ih.weaken fun _ progress => progress.writing
    intro outcome files copied
    cases copied with
    | failed err same => exact Copied.failed err same
    | @copied _ content total read whole writing =>
      apply Copied.copied _ _ writing
      · exact byte :: bytes ++ content
      · rw [streamed, read]
        rfl
      · rw [whole, List.append_assoc]
  | case4 rest hashed ih =>
    rw [copyStream]
    apply ih.weaken fun _ writing => writing
    intro outcome files copied
    cases copied with
    | failed err same => exact Copied.failed err same
    | copied read whole writing => exact Copied.copied read whole writing
  | case5 err tail hashed =>
    rw [copyStream]
    apply (ensures_cleanUp fun files same => Copied.failed _ same).strengthen
    intro files writing
    exact writing.objects

variable (sha256 : Bytes → ContentHash)

theorem ensures_put (bytes : Bytes) : Ensures (SameObjects init) (put sha256 tmpName bytes)
      (Settled init (pathFor (sha256 bytes)) bytes (sha256 bytes, pathFor (sha256 bytes))) := by
  apply (ensures_isFile (fun files same => same) (sha256 bytes)).bind
  · intro err files looked
    cases looked
  intro found
  rcases found with _ | _
  · have wrote : Ensures (Writing init tmpName [])
        (mapError (CasError.io (.tmp tmpName)) (writeAll (.tmp tmpName) bytes))
        (Progress init tmpName bytes) := by
      apply Ensures.mapError
      exact (ensures_writeTmp bytes).weaken (fun _ writing => writing)
        fun _ _ progress => progress.mapError
    apply (ensures_createTmp.strengthen fun _ looked => looked.before).bind
      fun err _ progress => Settled.failed err progress.same
    intro _
    apply (wrote.strengthen fun _ progress => progress.writing).bind
      fun err _ progress => Settled.failed err progress.same
    intro _
    apply (ensures_sync.strengthen fun _ progress => progress.writing).bind
      fun err _ progress => Settled.failed err progress.same
    intro _
    exact (ensures_finalizeTmp (sha256 bytes)).strengthen fun _ progress => progress.writing
  · apply Ensures.pure
    intro files looked
    cases looked with
    | present same found => exact Settled.present found same

inductive CallSettled {α : Type} (answer : Bytes → α) (initial : Contents CasPath)
    (given : Option Bytes) : Except CasError α → Contents CasPath → Prop
  | failed {files : Contents CasPath} (error : CasError) :
      SameObjects initial files → CallSettled answer initial given (.error error) files
  | settled {files : Contents CasPath} {bytes : Bytes} {outcome : Except CasError α} :
      given = some bytes →
        Settled initial (pathFor (sha256 bytes)) bytes (answer bytes) outcome files →
        CallSettled answer initial given outcome files

def streamAnswer (content : Bytes) : ContentHash × CasPath × ℕ :=
  (sha256 content, pathFor (sha256 content), content.length)

theorem ensures_settleStream {reads : List ReadEvent} {content : Bytes}
    (read : streamed reads = some content) :
    Ensures (Writing init tmpName content) (do
        if (← isFile (pathFor (sha256 content))) = true then
          ignore (removeFile (.tmp tmpName))
          pure (sha256 content, pathFor (sha256 content), content.length)
        else
          let (hash, finalPath) ← finalizeTmp (.tmp tmpName) (sha256 content)
            (pathFor (sha256 content))
          return (hash, finalPath, content.length))
      (CallSettled sha256 (streamAnswer sha256) init (streamed reads)) := by
  apply (ensures_isFile (fun files writing => writing.objects) (sha256 content)).bind
  · intro err files looked
    cases looked
  intro found
  rcases found with _ | _
  · apply ((ensures_finalizeTmp (sha256 content)).strengthen fun _ looked => looked.before).bind
      fun err _ settled => CallSettled.failed err settled.same
    rintro ⟨hash, path⟩
    apply Ensures.pure
    intro files settled
    rcases settled.answer (streamAnswer sha256 content) with ⟨same, settled'⟩
    cases same
    exact CallSettled.settled read settled'
  · have removed : Ensures (Looked (Writing init tmpName content) init (sha256 content)
        (.ok true : Except CasError Bool))
        (ignore (removeFile (.tmp tmpName)) : FileM CasPath CasError Unit)
        fun outcome files => outcome = .ok () ∧ SameObjects init files ∧
          (init (pathFor (sha256 content))).isSome := by
      by_cases found : (init (pathFor (sha256 content))).isSome
      · apply ensures_removeTmp.weaken
        · intro files looked
          exact looked.before.objects
        · intro outcome files reached
          exact ⟨reached.1, reached.2, found⟩
      · constructor
        intro faults st looked
        cases looked with
        | present writing present => exact absurd present found
    apply removed.bind
    · rintro err files ⟨impossible, -⟩
      cases impossible
    intro _
    apply Ensures.pure
    rintro files ⟨-, same, found⟩
    exact CallSettled.settled read (Settled.present found same)

theorem ensures_putStream (reads : List ReadEvent) :
    Ensures (SameObjects init) (putStream sha256 tmpName reads)
      (CallSettled sha256 (streamAnswer sha256) init (streamed reads)) := by
  apply ensures_createTmp.bind fun err _ progress => CallSettled.failed err progress.same
  intro _
  apply ((ensures_copyStream reads []).strengthen fun _ progress => progress.writing).bind
  · intro err files copied
    cases copied with
    | failed _ same => exact CallSettled.failed err same
  intro content
  by_cases read : streamed reads = some content
  · apply (ensures_sync.strengthen _).bind fun err _ progress =>
      CallSettled.failed err progress.same
    · intro _
      exact (ensures_settleStream sha256 read).strengthen fun _ progress => progress.writing
    · intro files copied
      cases copied with
      | copied _ _ writing => exact writing
  · -- what was copied is what the reader delivered
    constructor
    intro faults st copied
    cases copied with
    | copied delivered whole writing =>
      rw [whole] at read
      exact absurd delivered read

end Calls

end Cas

inductive CasCall where
  | put (tmpName : String) (bytes : Bytes)
  | putStream (tmpName : String) (reads : List ReadEvent)

namespace CasCall

open FileM Cas

def given : CasCall → Option Bytes
  | .put _ bytes => some bytes
  | .putStream _ reads => streamed reads

def run (sha256 : Bytes → ContentHash) : CasCall → FileM CasPath CasError ContentHash
  | .put tmpName bytes => do
    let (hash, _) ← Cas.put sha256 tmpName bytes
    return hash
  | .putStream tmpName reads => do
    let (hash, _, _) ← Cas.putStream sha256 tmpName reads
    return hash

variable (sha256 : Bytes → ContentHash)

theorem ensures_run {init : Contents CasPath} (call : CasCall) :
    Ensures (SameObjects init) (call.run sha256) (CallSettled sha256 sha256 init call.given) := by
  cases call with
  | put tmpName bytes =>
    apply (ensures_put sha256 bytes).bind fun err _ settled => CallSettled.failed err settled.same
    rintro ⟨hash, path⟩
    apply Ensures.pure
    intro files settled
    rcases settled.answer (sha256 bytes) with ⟨same, settled'⟩
    cases same
    exact CallSettled.settled rfl settled'
  | putStream tmpName reads =>
    apply (ensures_putStream sha256 reads).bind
    · intro err files settled
      cases settled with
      | failed _ same => exact CallSettled.failed err same
      | settled read settled => exact CallSettled.failed err settled.same
    · rintro ⟨hash, path, total⟩
      apply Ensures.pure
      intro files settled
      cases settled with
      | @settled _ bytes _ read settled =>
        rcases settled.answer (sha256 bytes) with ⟨same, settled'⟩
        cases same
        exact CallSettled.settled read settled'

def after (history : List (Faults × CasCall)) : Contents CasPath :=
  history.foldl (fun files entry => (entry.2.run sha256 entry.1 ⟨files, 0⟩).2.files) fun _ => none

end CasCall

namespace Cas

open FileM CasCall

variable {sha256 : Bytes → ContentHash} {pool : Set Bytes} {files files' : Contents CasPath}

variable (sha256 pool) in
/-- Every object is one of the known blobs, under its hash. -/
structure Valid (files : Contents CasPath) : Prop where
  hashed : ∀ hash bytes, files (pathFor hash) = some bytes → sha256 bytes = hash
  known : ∀ hash bytes, files (pathFor hash) = some bytes → bytes ∈ pool

theorem Valid.of_sameObjects (valid : Valid sha256 pool files) (same : SameObjects files files') :
    Valid sha256 pool files' := by
  constructor
  · intro hash bytes found
    exact valid.hashed hash bytes ((same.at hash).trans found)
  · intro hash bytes found
    exact valid.known hash bytes ((same.at hash).trans found)

variable {bytes : Bytes}

theorem Valid.update (valid : Valid sha256 pool files) (mem : bytes ∈ pool) :
    Valid sha256 pool (Function.update files (pathFor (sha256 bytes)) (some bytes)) := by
  have split : ∀ hash content,
      Function.update files (pathFor (sha256 bytes)) (some bytes) (pathFor hash) = some content →
        (hash = sha256 bytes ∧ content = bytes) ∨ files (pathFor hash) = some content := by
    intro hash content found
    by_cases here : hash = sha256 bytes
    · subst here
      rw [update_self, Option.some.injEq] at found
      exact Or.inl ⟨rfl, found.symm⟩
    · rw [update_of_ne (pathFor_injective.ne here)] at found
      exact Or.inr found
  constructor
  · intro hash content found
    rcases split hash content found with ⟨rfl, rfl⟩ | old
    · rfl
    · exact valid.hashed hash content old
  · intro hash content found
    rcases split hash content found with ⟨rfl, rfl⟩ | old
    · exact mem
    · exact valid.known hash content old

theorem Valid.content_eq (valid : Valid sha256 pool files) (inj : pool.InjOn sha256)
    {content : Bytes} (mem : bytes ∈ pool)
    (found : files (pathFor (sha256 bytes)) = some content) : content = bytes :=
  inj (valid.known _ _ found) mem (valid.hashed _ _ found)

section Settled

variable {init : Contents CasPath} {given : Option Bytes} {outcome : Except CasError ContentHash}
  (settled : CallSettled sha256 sha256 init given outcome files)

include settled

theorem CallSettled.valid (valid : Valid sha256 pool init)
    (known : ∀ bytes, given = some bytes → bytes ∈ pool) : Valid sha256 pool files := by
  cases settled with
  | failed err same => exact valid.of_sameObjects same
  | settled isGiven settled =>
    cases settled with
    | failed err same => exact valid.of_sameObjects same
    | present found same => exact valid.of_sameObjects same
    | stored same => exact (valid.update (known _ isGiven)).of_sameObjects same

theorem CallSettled.unchanged {hash : ContentHash} (other : given.map sha256 ≠ some hash) :
    files (pathFor hash) = init (pathFor hash) := by
  cases settled with
  | failed err same => exact (same.at hash).symm
  | settled isGiven settled =>
    cases settled with
    | failed err same => exact (same.at hash).symm
    | present found same => exact (same.at hash).symm
    | @stored _ same =>
      rw [← same.at, update_of_ne]
      apply pathFor_injective.ne
      rintro rfl
      rw [isGiven] at other
      exact other rfl

theorem CallSettled.keeps (valid : Valid sha256 pool init)
    (inj : pool.InjOn sha256) (known : ∀ bytes, given = some bytes → bytes ∈ pool)
    (stored : init (pathFor (sha256 bytes)) = some bytes) :
    files (pathFor (sha256 bytes)) = some bytes := by
  cases settled with
  | failed err same => rwa [← same.at]
  | @settled _ new _ isGiven settled =>
    cases settled with
    | failed err same => rwa [← same.at]
    | present found same => rwa [← same.at]
    | stored same =>
      rw [← same.at]
      by_cases here : sha256 bytes = sha256 new
      · rw [here] at stored ⊢
        rw [update_self, valid.content_eq inj (known new isGiven) stored]
      · rwa [update_of_ne (pathFor_injective.ne here)]

theorem CallSettled.holds (valid : Valid sha256 pool init)
    (inj : pool.InjOn sha256) (known : ∀ bytes, given = some bytes → bytes ∈ pool)
    {hash : ContentHash} (ret : outcome = .ok hash) :
    ∃ bytes, given = some bytes ∧ hash = sha256 bytes ∧
      SameObjects (Function.update init (pathFor hash) (some bytes)) files := by
  cases settled with
  | failed err same => cases ret
  | @settled _ bytes _ isGiven settled =>
    refine ⟨bytes, isGiven, ?_⟩
    cases settled with
    | failed err same => cases ret
    | present found same =>
      cases ret
      refine ⟨rfl, ?_⟩
      rcases Option.isSome_iff_exists.mp found with ⟨content, stored⟩
      have already : init (pathFor (sha256 bytes)) = some bytes := by
        rwa [valid.content_eq inj (known bytes isGiven) stored] at stored
      rwa [← already, update_eq_self]
    | stored same =>
      cases ret
      exact ⟨rfl, same⟩

end Settled

theorem run_get {hash : ContentHash} (stored : files (pathFor hash) = some bytes) :
    (get hash Faults.none ⟨files, 0⟩).1 = .ok bytes := by
  simp [get, FileM.mapError, FileM.read, FileM.call, Faults.none, stored]

section Histories

variable (hist : List (Faults × CasCall))

theorem after_append_singleton (faults : Faults) (call : CasCall) :
    after sha256 (hist ++ [(faults, call)]) =
      (call.run sha256 faults ⟨after sha256 hist, 0⟩).2.files := by
  simp [after]

theorem settled_run (faults : Faults) (call : CasCall) (files : Contents CasPath) :
    CallSettled sha256 sha256 files call.given (call.run sha256 faults ⟨files, 0⟩).1
      (call.run sha256 faults ⟨files, 0⟩).2.files :=
  (CasCall.ensures_run sha256 call).run faults ⟨files, 0⟩ (SameObjects.refl files)

variable {hist} (known : ∀ entry ∈ hist, ∀ bytes, entry.2.given = some bytes → bytes ∈ pool)

include known

theorem valid_after : Valid sha256 pool (after sha256 hist) := by
  induction hist using List.reverseRecOn with
  | nil =>
    constructor
    · intro hash bytes impossible
      cases impossible
    · intro hash bytes impossible
      cases impossible
  | append_singleton hist entry ih =>
    rw [after_append_singleton]
    apply (settled_run entry.1 entry.2 _).valid
    · apply ih
      intro other mem
      exact known other (List.mem_append_left _ mem)
    · exact known entry (by simp)

theorem keeps_after (inj : pool.InjOn sha256) {pre rest : List (Faults × CasCall)}
    (split : hist = pre ++ rest) {bytes : Bytes}
    (stored : after sha256 pre (pathFor (sha256 bytes)) = some bytes) :
    after sha256 hist (pathFor (sha256 bytes)) = some bytes := by
  subst split
  induction rest using List.reverseRecOn with
  | nil => simpa using stored
  | append_singleton rest entry ih =>
    rw [← List.append_assoc] at known ⊢
    have knownBefore : ∀ other ∈ pre ++ rest, ∀ bytes, other.2.given = some bytes →
        bytes ∈ pool := by
      intro other mem
      exact known other (List.mem_append_left _ mem)
    rw [after_append_singleton]
    apply (settled_run entry.1 entry.2 _).keeps (valid_after knownBefore) inj
    · exact known entry (by simp)
    · exact ih knownBefore

theorem get_after (inj : pool.InjOn sha256) {pre rest : List (Faults × CasCall)}
    {faults : Faults} {call : CasCall} (split : hist = pre ++ (faults, call) :: rest)
    {hash : ContentHash}
    (ret : (call.run sha256 faults ⟨after sha256 pre, 0⟩).1 = .ok hash) :
    ∃ bytes, call.given = some bytes ∧
      (get hash Faults.none ⟨after sha256 hist, 0⟩).1 = .ok bytes := by
  have knownBefore : ∀ entry ∈ pre, ∀ bytes, entry.2.given = some bytes → bytes ∈ pool := by
    intro entry mem
    apply known entry
    rw [split]
    exact List.mem_append_left _ mem
  have knownCall : ∀ bytes, call.given = some bytes → bytes ∈ pool := by
    apply known (faults, call)
    rw [split]
    simp
  rcases (settled_run faults call _).holds (valid_after knownBefore) inj knownCall
    ret with ⟨bytes, isGiven, rfl, objects⟩
  refine ⟨bytes, isGiven, run_get ?_⟩
  have extended : hist = (pre ++ [(faults, call)]) ++ rest := by simp [split]
  apply keeps_after known inj extended
  rw [after_append_singleton, ← objects.at, update_self]

end Histories

/-- The store after any history of calls, whatever fails in them, if the hash has no collisions
among the byte strings that are stored. -/
theorem content_addressed (sha256 : Bytes → ContentHash) (pool : Set Bytes)
    (collisionFree : pool.InjOn sha256) (hist : List (Faults × CasCall))
    (known : ∀ entry ∈ hist, ∀ bytes, entry.2.given = some bytes → bytes ∈ pool) :
    (∀ hash bytes, after sha256 hist (pathFor hash) = some bytes → sha256 bytes = hash) ∧
    (∀ before faults call rest, hist = before ++ (faults, call) :: rest →
      ∀ hash, (call.run sha256 faults ⟨after sha256 before, 0⟩).1 = .ok hash →
        ∃ bytes, call.given = some bytes ∧
          (get hash Faults.none ⟨after sha256 hist, 0⟩).1 = .ok bytes) ∧
    (∀ bytes ∈ pool, ∀ reads, streamed reads = some bytes →
      ∀ putFaults streamFaults putTmp streamTmp putHash streamHash,
      ((CasCall.put putTmp bytes).run sha256 putFaults
        ⟨after sha256 hist, 0⟩).1 = .ok putHash →
      ((CasCall.putStream streamTmp reads).run sha256 streamFaults
        ⟨after sha256 hist, 0⟩).1 = .ok streamHash →
      putHash = streamHash ∧ SameObjects
          (after sha256 (hist ++ [(putFaults, .put putTmp bytes)]))
          (after sha256 (hist ++ [(streamFaults, .putStream streamTmp reads)]))) ∧
    (∀ faults call hash, call.given.map sha256 ≠ some hash →
      after sha256 (hist ++ [(faults, call)]) (pathFor hash) =
        after sha256 hist (pathFor hash)) := by
  have valid : Valid sha256 pool (after sha256 hist) := valid_after known
  refine ⟨valid.hashed, ?_, ?_, ?_⟩
  · intro before faults call rest split hash returned
    exact get_after known collisionFree split returned
  · intro bytes member reads read putFaults streamFaults putTmp streamTmp putHash streamHash
      putReturned streamReturned
    have putDone := (settled_run putFaults (.put putTmp bytes) _).holds valid collisionFree
      (fun other isGiven => by cases isGiven; exact member) putReturned
    have streamDone := (settled_run streamFaults (.putStream streamTmp reads) _).holds valid
      collisionFree (fun other isGiven => by
        rw [show CasCall.given (.putStream streamTmp reads) = some bytes from read] at isGiven
        cases isGiven
        exact member) streamReturned
    rcases putDone with ⟨_, ⟨⟩, rfl, putObjects⟩
    rcases streamDone with ⟨content, isRead, rfl, streamObjects⟩
    cases isRead.symm.trans read
    refine ⟨rfl, ?_⟩
    rw [after_append_singleton, after_append_singleton]
    exact putObjects.symm.trans streamObjects
  · intro faults call hash other
    rw [after_append_singleton]
    exact (settled_run faults call _).unchanged other

def lengthHash (bytes : Bytes) : ContentHash := ⟨Vector.replicate 32 (UInt8.ofNat bytes.length)⟩

def storedHistory : List (Faults × CasCall) :=
  [(fun call => if call = 2 then some { error := .other 28, written := 1 } else none,
      .put "first" [1, 2]),
    (Faults.none, .put "second" [1, 2]),
    (Faults.none, .putStream "third" [.data [1], .interrupted, .data [2, 3]])]

theorem content_addressed_storedHistory : (get (lengthHash [1, 2, 3]) Faults.none
      ⟨after lengthHash storedHistory, 0⟩).1 = .ok [1, 2, 3] := by
  have collisionFree : Set.InjOn lengthHash {[1, 2], [1, 2, 3]} := by
    rintro left (rfl | rfl) right (rfl | rfl) same
    · rfl
    · exact absurd same (by decide)
    · exact absurd same (by decide)
    · rfl
  have known : ∀ entry ∈ storedHistory, ∀ bytes, entry.2.given = some bytes →
      bytes ∈ ({[1, 2], [1, 2, 3]} : Set Bytes) := by
    simp [storedHistory, CasCall.given, streamed]
  rcases (content_addressed lengthHash {[1, 2], [1, 2, 3]} collisionFree storedHistory known).2.1
    (storedHistory.take 2) Faults.none (.putStream "third" [.data [1], .interrupted, .data [2, 3]])
    [] rfl (lengthHash [1, 2, 3]) rfl with ⟨bytes, isGiven, got⟩
  cases isGiven
  exact got

end Cas

end Barista.Cache
