import Barista.Cache.Cas

/-!
# The local Maven repository

Blobs of the content-addressed store get a second name in the local repository, at the path where
Maven looks for the artifact.  On another file system the bytes are copied instead.
-/

namespace Barista

open Function

namespace Path

def join (directory name : String) : String :=
  if Text.startsWith name "/" then name
  else if directory = "" ∨ Text.endsWith directory "/" then directory ++ name
  else directory ++ "/" ++ name

def parent (path : String) : String :=
  .ofList ((path.toList.reverse.dropWhile (· ≠ '/')).drop 1).reverse

def resolveComponent (resolved : List String) (component : List Char) : List String :=
  if component = [] ∨ component = ['.'] then resolved
  else if component = ['.', '.'] then resolved.dropLast
  else resolved ++ [.ofList component]

def resolve (path : String) : List String := (path.toList.splitOn '/').foldl resolveComponent []

end Path

namespace Cache

inductive MirrorError where
  | io (path : String) (source : IoError)
  | casMiss (hash : String)
  deriving DecidableEq

def m2Path (m2Root : String) (target : IndexKey) : String :=
  let groupSlashed := Text.replace target.coords.group "." "/"
  let filename :=
    match target.classifier with
    | some classifier =>
      target.coords.artifact ++ "-" ++ target.version ++ "-" ++ classifier ++ "." ++ target.type
    | none => target.coords.artifact ++ "-" ++ target.version ++ "." ++ target.type
  Path.join (Path.join (Path.join (Path.join m2Root groupSlashed) target.coords.artifact)
    target.version) filename

inductive Node where
  /-- another name of the file of a blob -/
  | linked (hash : ContentHash)
  | file (bytes : Bytes)
  | directory
  deriving DecidableEq

abbrev LocalRepository : Type := List String → Option Node

def LocalRepository.contents (repository : LocalRepository)
    (objects : ContentHash → Option Bytes) (place : List String) : Option Bytes :=
  match repository place with
  | some (.linked hash) => objects hash
  | some (.file bytes) => some bytes
  | _ => none

structure MirrorFaults where
  createDirAll : String → Option IoError
  metadata : String → Option IoError
  removeFile : String → Option IoError
  hardLink : String → Option IoError
  copy : String → Option Fault

def MirrorFaults.none : MirrorFaults :=
  ⟨fun _ => Option.none, fun _ => Option.none, fun _ => Option.none, fun _ => Option.none,
    fun _ => Option.none⟩

def crossDeviceError (error : IoError) : Bool := error = .other 18

structure MirrorFaults.Reliable (faults : MirrorFaults) : Prop where
  createDirAll : ∀ path, faults.createDirAll path = Option.none
  metadata : ∀ path, faults.metadata path = Option.none
  removeFile : ∀ path, faults.removeFile path = Option.none
  hardLink : ∀ path error, faults.hardLink path = some error → crossDeviceError error = true
  copy : ∀ path, faults.copy path = Option.none

theorem MirrorFaults.reliable_none : MirrorFaults.none.Reliable :=
  ⟨fun _ => rfl, fun _ => rfl, fun _ => rfl, fun _ _ failed => (by cases failed), fun _ => rfl⟩

section Materialize

variable (faults : MirrorFaults) (objects : ContentHash → Option Bytes)

def clear (dest : String) (repository : LocalRepository) : LocalRepository :=
  if repository (Path.resolve dest) = some .directory ∨ (faults.metadata dest).isSome ∨
      (faults.removeFile dest).isSome then repository
  else update repository (Path.resolve dest) none

def linkError (dest : String) (repository : LocalRepository) : Option IoError :=
  match repository (Path.resolve dest) with
  | some _ => some ((faults.hardLink dest).getD .alreadyExists)
  | none => faults.hardLink dest

def place (hash : ContentHash) (bytes : Bytes) (dest : String) :
    Persistent LocalRepository MirrorError String :=
  fun repository =>
    match linkError faults dest repository with
    | none => (.ok dest, update repository (Path.resolve dest) (some (.linked hash)))
    | some error =>
      if !crossDeviceError error then (.error (.io dest error), repository)
      else if repository (Path.resolve dest) = some .directory then
        (.error (.io dest (((faults.copy dest).map Fault.error).getD (.other 21))), repository)
      else
        match faults.copy dest with
        | some fault =>
          (.error (.io dest fault.error), update repository (Path.resolve dest)
            (some (.file (bytes.take fault.written))))
        | none => (.ok dest, update repository (Path.resolve dest) (some (.file bytes)))

def materialize (hash : ContentHash) (m2Root : String) (target : IndexKey) :
    Persistent LocalRepository MirrorError String :=
  fun repository =>
    match objects hash with
    | none => (.error (.casMiss hash.toHex), repository)
    | some bytes =>
      let dest := m2Path m2Root target
      match faults.createDirAll (Path.parent dest) with
      | some error => (.error (.io (Path.parent dest) error), repository)
      | none =>
        if repository (Path.resolve dest) = some (.linked hash) ∧ faults.metadata dest = none then
          (.ok dest, repository)
        else place faults hash bytes dest (clear faults dest repository)

variable {faults objects} {hash : ContentHash} {bytes : Bytes} {dest m2Root : String}
  {tgt : IndexKey} {repo last : LocalRepository}

variable {other : List String} {path : String}

theorem clear_of_ne (ne : other ≠ Path.resolve dest) :
    clear faults dest repo other = repo other := by
  unfold clear
  split
  · rfl
  · exact update_of_ne ne _ _

theorem place_of_ne (ne : other ≠ Path.resolve dest) :
    (place faults hash bytes dest repo).2 other = repo other := by
  unfold place
  repeat' split
  all_goals simp [ne]

theorem materialize_of_ne (ne : other ≠ Path.resolve (m2Path m2Root tgt)) :
    (materialize faults objects hash m2Root tgt repo).2 other = repo other := by
  unfold materialize
  rcases objects hash with _ | _
  · rfl
  · dsimp only
    split
    · rfl
    · split
      · rfl
      · rw [place_of_ne ne, clear_of_ne ne]

theorem contents_place (held : objects hash = some bytes)
    (placed : place faults hash bytes dest repo = (.ok path, last)) :
    last.contents objects (Path.resolve dest) = some bytes := by
  unfold place at placed
  split at placed
  · cases placed
    simp [LocalRepository.contents, held]
  · split at placed
    · cases placed
    · split at placed
      · cases placed
      · split at placed
        · cases placed
        · cases placed
          simp [LocalRepository.contents]

section Materialized

variable (ret : materialize faults objects hash m2Root tgt repo = (.ok path, last))

include ret

theorem contents_materialize : ∃ bytes, objects hash = some bytes ∧
      last.contents objects (Path.resolve (m2Path m2Root tgt)) = some bytes := by
  unfold materialize at ret
  rcases held : objects hash with _ | bytes <;> rw [held] at ret
  · cases ret
  · dsimp only at ret
    refine ⟨bytes, rfl, ?_⟩
    split at ret
    · cases ret
    · split at ret
      · rename_i linked
        cases ret
        simp [LocalRepository.contents, linked.1, held]
      · exact contents_place held ret

theorem contents_materialize_eq : last.contents objects = update (repo.contents objects)
      (Path.resolve (m2Path m2Root tgt)) (objects hash) := by
  funext place
  by_cases here : place = Path.resolve (m2Path m2Root tgt)
  · rcases contents_materialize ret with ⟨bytes, held, there⟩
    rw [here, there, update_self, held]
  · have same : last place = repo place := by
      have kept : (materialize faults objects hash m2Root tgt repo).2 place = _ :=
        materialize_of_ne here
      rwa [ret] at kept
    rw [update_of_ne here, LocalRepository.contents, LocalRepository.contents, same]

omit ret in
theorem place_of_reliable (reliable : faults.Reliable)
    (vacant : repo (Path.resolve dest) ≠ some .directory) :
    ∃ last, place faults hash bytes dest (clear faults dest repo) = (.ok dest, last) := by
  have cleared : clear faults dest repo = update repo (Path.resolve dest) none := by
    simp [clear, vacant, reliable.metadata, reliable.removeFile]
  unfold place
  simp only [linkError, cleared, update_self]
  rcases linked : faults.hardLink dest with _ | err
  · exact ⟨_, rfl⟩
  · simp [reliable.hardLink dest err linked, reliable.copy]

omit ret in
theorem materialize_of_reliable (reliable : faults.Reliable) (held : (objects hash).isSome)
    (vacant : repo (Path.resolve (m2Path m2Root tgt)) ≠ some .directory) :
    ∃ path last, materialize faults objects hash m2Root tgt repo = (.ok path, last) := by
  rcases Option.isSome_iff_exists.mp held with ⟨bytes, held⟩
  simp only [materialize, held, reliable.createDirAll]
  split
  · exact ⟨_, _, rfl⟩
  · have placed : ∃ last, place faults hash bytes (m2Path m2Root tgt)
        (clear faults (m2Path m2Root tgt) repo) = (.ok (m2Path m2Root tgt), last) :=
      place_of_reliable reliable vacant
    rcases placed with ⟨last, placed⟩
    exact ⟨_, last, placed⟩

omit ret in
theorem ne_directory_of_contents {place : List String}
    (there : (repo.contents objects place).isSome) : repo place ≠ some .directory := by
  intro dir
  simp [LocalRepository.contents, dir] at there

theorem ne_directory_materialize {place : List String}
    (vacant : repo place ≠ some .directory) : last place ≠ some .directory := by
  by_cases here : place = Path.resolve (m2Path m2Root tgt)
  · rcases contents_materialize ret with ⟨bytes, held, there⟩
    have found : (last.contents objects (Path.resolve (m2Path m2Root tgt))).isSome := by
      rw [there]
      rfl
    rw [here]
    exact ne_directory_of_contents found
  · have kept : (materialize faults objects hash m2Root tgt repo).2 place = _ :=
      materialize_of_ne here
    rw [ret] at kept
    exact fun dir => vacant (kept.symm.trans dir)

end Materialized

end Materialize

example : m2Path "/repo" ⟨⟨"org.apache.commons", "commons-lang3"⟩, "3.14.0", "jar", none⟩ =
    "/repo/org/apache/commons/commons-lang3/3.14.0/commons-lang3-3.14.0.jar" := by
  decide +kernel

end Cache

end Barista
