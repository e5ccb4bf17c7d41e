import Barista.Pom.Management

/-!
# What interpolation leaves behind

In a strict location no placeholder survives interpolation.  A second interpolation of the
same text therefore substitutes nothing: at most it copies the text byte by byte once more.
-/

namespace Barista.Pom

open List

section Texts

variable {lookup lookup' : String → Option String} {loc location' : InterpolationLocation}

def hasPlaceholder : Bool → List Char → Bool
  | _, [] => false
  | false, '$' :: '{' :: rest => hasPlaceholder true rest
  | false, _ :: rest => hasPlaceholder false rest
  | true, '}' :: _ => true
  | true, _ :: rest => hasPlaceholder true rest

def openedChars : Option (List Char) → List Char
  | none => []
  | some key => '$' :: '{' :: key

variable {text : List Char} {opened : Option (List Char)}

theorem pieces_of_not_hasPlaceholder (plain : hasPlaceholder opened.isSome text = false) :
    pieces opened text = (openedChars opened ++ text).map Piece.char := by
  fun_induction pieces opened text with
  | case1 => rfl
  | case2 rest ih =>
    rw [ih (by simpa [hasPlaceholder] using plain)]
    rfl
  | case3 char rest other ih =>
    rw [ih (by simpa [hasPlaceholder, other] using plain)]
    rfl
  | case4 key => simp [openedChars]
  | case5 key rest ih => simp [hasPlaceholder] at plain
  | case6 key char rest other ih =>
    rw [ih (by simpa [hasPlaceholder, other] using plain)]
    simp [openedChars]

theorem placeholder_mem_pieces (found : hasPlaceholder opened.isSome text = true) :
    ∃ key, Piece.placeholder key ∈ pieces opened text := by
  fun_induction pieces opened text with
  | case1 => simp [hasPlaceholder] at found
  | case2 rest ih => exact ih (by simpa [hasPlaceholder] using found)
  | case3 char rest other ih =>
    rcases ih (by simpa [hasPlaceholder, other] using found) with ⟨key, mem⟩
    exact ⟨key, .tail _ mem⟩
  | case4 key => simp [hasPlaceholder] at found
  | case5 key rest ih => exact ⟨key, .head _⟩
  | case6 key char rest other ih => exact ih (by simpa [hasPlaceholder, other] using found)

theorem not_hasPlaceholder_of_not_hasOpening (plain : hasOpening text = false) :
    hasPlaceholder false text = false := by
  fun_induction hasOpening text with
  | case1 rest => cases plain
  | case2 char rest other ih => simpa [hasPlaceholder, other] using ih plain
  | case3 => rfl

def copyChars (text : List Char) : List Char := text.flatMap copyChar

theorem toNat_ofNat_byte (byte : UInt8) : (Char.ofNat byte.toNat).toNat = byte.toNat := by
  have small := byte.toNat_lt
  have valid : byte.toNat.isValidChar := .inl (by omega)
  rw [Char.ofNat, dif_pos valid]
  rfl

theorem copyChar_of_ascii {char : Char} (ascii : char.toNat < 128) : copyChar char = [char] := by
  have small : char.val.toNat ≤ 0x7f := Nat.le_of_lt_succ ascii
  have fits : char.val.toNat < 2 ^ 8 := by omega
  rw [copyChar, String.utf8EncodeChar, if_pos small, map_singleton, UInt8.toNat_ofNat',
    Nat.mod_eq_of_lt fits]
  exact congrArg (· :: []) (Char.ofNat_toNat char)

theorem le_toNat_of_mem_copyChar {char copy : Char} (high : ¬ char.toNat < 128)
    (mem : copy ∈ copyChar char) : 128 ≤ copy.toNat := by
  have large : ¬ char.val.toNat ≤ 0x7f := fun small => high (Nat.lt_succ_of_le small)
  rcases mem_map.mp mem with ⟨byte, byteMem, rfl⟩
  rw [toNat_ofNat_byte]
  rw [String.utf8EncodeChar, if_neg large] at byteMem
  split_ifs at byteMem <;>
    simp only [mem_cons, not_mem_nil, or_false] at byteMem <;>
    rcases byteMem with rfl | rfl | rfl | rfl <;>
    rw [UInt8.toNat_ofNat'] <;> omega

theorem copyChar_ne_nil (char : Char) : copyChar char ≠ [] := by
  simp [copyChar]

theorem copyChars_injective : Function.Injective copyChars := by
  intro left right same
  have bytes : left.flatMap String.utf8EncodeChar = right.flatMap String.utf8EncodeChar := by
    have chars : Function.Injective fun byte : UInt8 => Char.ofNat byte.toNat := by
      intro byte byte' equal
      have codes := congrArg Char.toNat equal
      rw [toNat_ofNat_byte, toNat_ofNat_byte] at codes
      exact UInt8.toNat_inj.mp codes
    refine map_injective_iff.mpr chars ?_
    rw [map_flatMap, map_flatMap]
    exact same
  have texts : (String.ofList left).toByteArray = (String.ofList right).toByteArray := by
    rw [String.toByteArray_ofList, String.toByteArray_ofList, List.utf8Encode, List.utf8Encode,
      bytes]
  exact String.ofList_injective (String.toByteArray_inj.mp texts)

@[simp]
theorem copyChars_cons (char : Char) (text : List Char) :
    copyChars (char :: text) = copyChar char ++ copyChars text := rfl

@[simp]
theorem copyChars_opening (text : List Char) :
    copyChars ('$' :: '{' :: text) = '$' :: '{' :: copyChars text := rfl

theorem eq_brace_of_copyChar {char : Char} {more rest : List Char}
    (starts : copyChar char ++ more = '{' :: rest) : char = '{' := by
  by_cases ascii : char.toNat < 128
  · rw [copyChar_of_ascii ascii, singleton_append, List.cons.injEq] at starts
    exact starts.1
  · rcases exists_cons_of_ne_nil (copyChar_ne_nil char) with ⟨first, others, copied⟩
    have high := le_toNat_of_mem_copyChar ascii (by rw [copied]; exact .head _ : first ∈ _)
    rw [copied, cons_append, List.cons.injEq] at starts
    rw [starts.1] at high
    exact absurd high (by decide)

theorem copyChars_eq_brace {rest : List Char} (starts : copyChars text = '{' :: rest) :
    ∃ rest', text = '{' :: rest' := by
  rcases text with _ | ⟨_, tail⟩
  · cases starts
  · exact ⟨tail, by rw [eq_brace_of_copyChar starts]⟩

theorem hasPlaceholder_skip {opened : Bool} {others : List Char}
    (high : ∀ char ∈ others, 128 ≤ char.toNat) :
    hasPlaceholder opened (others ++ text) = hasPlaceholder opened text := by
  induction others with
  | nil => rfl
  | cons char others ih =>
    have above := high char (.head _)
    have dollar : char ≠ '$' := fun same => absurd (same ▸ above) (by decide)
    have brace : char ≠ '}' := fun same => absurd (same ▸ above) (by decide)
    rw [cons_append]
    rw [← ih fun other mem => high other (.tail _ mem)]
    rcases opened with _ | _
    · simp [hasPlaceholder, dollar]
    · simp [hasPlaceholder]

theorem hasPlaceholder_copyChars (opened : Bool) (text : List Char) :
    hasPlaceholder opened (copyChars text) = hasPlaceholder opened text := by
  fun_induction hasPlaceholder opened text with
  | case1 opened => cases opened <;> rfl
  | case2 rest ih => rw [copyChars_opening, hasPlaceholder, ih]
  | case3 char rest other ih =>
    rw [copyChars_cons, ← ih]
    by_cases ascii : char.toNat < 128
    · rw [copyChar_of_ascii ascii, singleton_append, hasPlaceholder]
      intro rest' dollar starts
      rcases copyChars_eq_brace starts with ⟨rest'', same⟩
      exact other rest'' dollar same
    · exact hasPlaceholder_skip fun _ => le_toNat_of_mem_copyChar ascii
  | case4 rest => rfl
  | case5 char rest other ih =>
    rw [copyChars_cons, ← ih]
    by_cases ascii : char.toNat < 128
    · rw [copyChar_of_ascii ascii, singleton_append, hasPlaceholder]
      exact other
    · exact hasPlaceholder_skip fun _ => le_toNat_of_mem_copyChar ascii

theorem hasOpening_skip {others : List Char} (high : ∀ char ∈ others, 128 ≤ char.toNat) :
    hasOpening (others ++ text) = hasOpening text := by
  induction others with
  | nil => rfl
  | cons char others ih =>
    have above := high char (.head _)
    have dollar : char ≠ '$' := fun same => absurd (same ▸ above) (by decide)
    rw [cons_append]
    rw [← ih fun other mem => high other (.tail _ mem)]
    simp [hasOpening, dollar]

theorem hasOpening_copyChars (text : List Char) :
    hasOpening (copyChars text) = hasOpening text := by
  fun_induction hasOpening text with
  | case1 rest => rfl
  | case2 char rest other ih =>
    rw [copyChars_cons, ← ih]
    by_cases ascii : char.toNat < 128
    · rw [copyChar_of_ascii ascii, singleton_append, hasOpening]
      intro rest' dollar starts
      rcases copyChars_eq_brace starts with ⟨rest'', same⟩
      exact other rest'' dollar same
    · exact hasOpening_skip fun _ => le_toNat_of_mem_copyChar ascii
  | case3 => rfl

theorem pass_of_not_hasPlaceholder (plain : hasPlaceholder false text = false) :
    (pass lookup loc text).value = .ok (copyChars text, false) := by
  have copied : (text.map Piece.char).mapM' (fun piece => (substitute lookup loc piece).value) =
      .ok (text.map fun char => (copyChar char, false)) := by
    rw [mapM'_eq_ok, forall₂_map_left_iff, forall₂_map_right_iff]
    exact forall₂_same.mpr fun _ _ => rfl
  have opened : hasPlaceholder (none : Option (List Char)).isSome text = false := plain
  rw [pass, Interp.value_bind, Interp.value_mapM', pieces_of_not_hasPlaceholder opened]
  rw [openedChars, nil_append, copied]
  change Except.ok _ = _
  simp [flatMap_map, copyChars]

theorem fired_of_substitute (strict : loc.isStrict) {key : List Char} {part : List Char × Bool}
    (substituted : (substitute lookup loc (.placeholder key)).value = .ok part) :
    part.2 = true := by
  rw [substitute] at substituted
  rcases found : lookup (String.ofList key) with _ | _
  · simp [found, strict] at substituted
  · simp only [found, Interp.value_bind, Interp.value_record, Interp.value_pure] at substituted
    cases substituted
    rfl

theorem not_hasPlaceholder_of_pass (strict : loc.isStrict) {next : List Char}
    (ran : (pass lookup loc text).value = .ok (next, false)) :
    hasPlaceholder false text = false ∧ next = copyChars text := by
  have plain : hasPlaceholder false text = false := by
    by_contra found
    have opened : hasPlaceholder (none : Option (List Char)).isSome text = true :=
      Bool.eq_true_of_not_eq_false found
    rcases placeholder_mem_pieces opened with ⟨key, mem⟩
    rw [pass, Interp.value_bind, Interp.value_mapM'] at ran
    rcases bind_eq_ok.mp ran with ⟨parts, partsOk, ended⟩
    rcases forall₂_exists_right (mapM'_eq_ok.mp partsOk) mem with ⟨part, partMem, substituted⟩
    have fired : part.2 = true := fired_of_substitute strict substituted
    have none' : parts.any Prod.snd = false := congrArg Prod.snd (Except.ok.inj ended)
    rw [any_eq_false] at none'
    exact none' part partMem fired
  rw [pass_of_not_hasPlaceholder plain] at ran
  cases ran
  exact ⟨plain, rfl⟩

theorem not_hasPlaceholder_of_interpRounds (strict : loc.isStrict) {rounds : ℕ}
    {out : List Char} (ran : (interpRounds lookup loc rounds text).value = .ok out) :
    hasPlaceholder false out = false := by
  induction rounds generalizing text with
  | zero => cases ran
  | succ rounds ih =>
    rw [interpRounds, Interp.value_bind] at ran
    rcases bind_eq_ok.mp ran with ⟨⟨next, fired⟩, passed, ran⟩
    dsimp only at ran
    rcases fired with _ | _
    · rcases not_hasPlaceholder_of_pass strict passed with ⟨plain, rfl⟩
      cases ran
      rw [hasPlaceholder_copyChars]
      exact plain
    · by_cases closed : hasOpening next = false
      · rw [if_neg (by decide), if_pos (by simp [closed])] at ran
        cases ran
        exact not_hasPlaceholder_of_not_hasOpening closed
      · rw [if_neg (by decide), if_neg (by simp [closed])] at ran
        by_cases stuck : next = text
        · rw [if_pos stuck] at ran
          cases ran
        · rw [if_neg stuck] at ran
          exact ih ran

theorem not_hasPlaceholder_of_settleText (strict : loc.isStrict) {text settled : String}
    (ran : settleText lookup loc text = .ok settled) :
    hasPlaceholder false settled.toList = false := by
  rw [settleText, interp] at ran
  by_cases closed : hasOpening text.toList = false
  · rw [if_pos (by simp [closed])] at ran
    cases ran
    exact not_hasPlaceholder_of_not_hasOpening closed
  · rw [if_neg (by simp [closed]), Interp.value_bind] at ran
    rcases bind_eq_ok.mp ran with ⟨chars, rounds, ended⟩
    cases ended
    rw [String.toList_ofList]
    exact not_hasPlaceholder_of_interpRounds strict rounds

def recopied (text : String) : String :=
  if hasOpening text.toList then String.ofList (copyChars text.toList) else text

theorem settleText_of_not_hasPlaceholder {text : String}
    (plain : hasPlaceholder false text.toList = false) :
    settleText lookup loc text = .ok (recopied text) := by
  rw [settleText, interp, recopied]
  by_cases closed : hasOpening text.toList = false
  · rw [if_pos (by simp [closed]), if_neg (by simp [closed])]
    rfl
  · rw [if_neg (by simp [closed]), if_pos (by simpa using closed), Interp.value_bind,
      maxInterpolationDepth, interpRounds, Interp.value_bind, pass_of_not_hasPlaceholder plain]
    rfl

theorem recopied_injective : Function.Injective recopied := by
  intro left right same
  unfold recopied at same
  split_ifs at same with leftOpen rightOpen rightOpen
  · exact String.toList_inj.mp (copyChars_injective (String.ofList_injective same))
  · rw [← same, String.toList_ofList, hasOpening_copyChars] at rightOpen
    exact absurd leftOpen rightOpen
  · rw [same, String.toList_ofList, hasOpening_copyChars] at leftOpen
    exact absurd rightOpen leftOpen
  · exact same

section Locations

variable (strict : loc.isStrict)

include strict

theorem substitute_location {piece : Piece} {part : List Char × Bool}
    (substituted : (substitute lookup loc piece).value = .ok part) :
    (substitute lookup location' piece).value = .ok part := by
  cases piece with
  | char char => exact substituted
  | placeholder key =>
    rw [substitute] at substituted ⊢
    rcases found : lookup (String.ofList key) with _ | _
    · simp [found, strict] at substituted
    · simpa [found] using substituted

theorem pass_location {out : List Char × Bool} (ran : (pass lookup loc text).value = .ok out) :
    (pass lookup location' text).value = .ok out := by
  rw [pass, Interp.value_bind, Interp.value_mapM'] at ran ⊢
  rcases bind_eq_ok.mp ran with ⟨parts, partsOk, ended⟩
  refine bind_eq_ok.mpr ⟨parts, ?_, ended⟩
  rw [mapM'_eq_ok] at partsOk ⊢
  exact partsOk.imp fun _ _ => substitute_location strict

theorem interpRounds_location {rounds : ℕ} {out : List Char}
    (ran : (interpRounds lookup loc rounds text).value = .ok out) :
    (interpRounds lookup location' rounds text).value = .ok out := by
  induction rounds generalizing text with
  | zero => cases ran
  | succ rounds ih =>
    rw [interpRounds, Interp.value_bind] at ran ⊢
    rcases bind_eq_ok.mp ran with ⟨⟨next, fired⟩, passed, ran⟩
    refine bind_eq_ok.mpr ⟨(next, fired), pass_location strict passed, ?_⟩
    dsimp only at ran ⊢
    split_ifs at ran ⊢
    · exact ran
    · exact ran
    · cases ran
    · exact ih ran

theorem settleText_location {text settled : String}
    (ran : settleText lookup loc text = .ok settled) :
    settleText lookup location' text = .ok settled := by
  rw [settleText, interp] at ran ⊢
  split_ifs at ran ⊢ with closed
  · exact ran
  · rw [Interp.value_bind] at ran ⊢
    rcases bind_eq_ok.mp ran with ⟨chars, rounds, ended⟩
    exact bind_eq_ok.mpr ⟨chars, interpRounds_location strict rounds, ended⟩

end Locations

def interpolated (lookup : String → Option String) (text : String) : Option String :=
  (settleText lookup (.other "") text).toOption

theorem interpolated_eq_some {text settled : String} (strict : loc.isStrict) :
    interpolated lookup text = some settled ↔ settleText lookup loc text = .ok settled := by
  have other : (InterpolationLocation.other "").isStrict = true := rfl
  have here : interpolated lookup text = some settled ↔
      settleText lookup (.other "") text = .ok settled := by
    unfold interpolated
    cases settleText lookup (.other "") text <;> simp [Except.toOption]
  rw [here]
  exact ⟨settleText_location other, settleText_location strict⟩

end Texts

/-!
# Properties of profiles

The texts of a POM are interpolated before its profiles are spliced, with the properties of
the merged POM alone.  Nothing is left to substitute when the properties of the active
profiles have arrived, so those take effect only where they change nothing.
-/

variable {σ : Type} {env : String → Option String} {pathExists : String → String → Bool}
  {reply : RawParent → σ → Except String RawPom × σ} {st st' : σ}
  {root pom settled : RawPom} {ctx : ActivationContext}
  {lookup base overlay : String → Option String}

def RawBuild.managedPlugins (build : RawBuild) : List RawPlugin :=
  build.pluginManagement.elim [] RawPluginManagement.plugins

def RawPom.plugins (pom : RawPom) : List RawPlugin := pom.build.elim [] RawBuild.plugins

def RawPom.managedPlugins (pom : RawPom) : List RawPlugin :=
  pom.build.elim [] RawBuild.managedPlugins

variable (profile : RawProfile)

def RawProfile.plugins : List RawPlugin :=
  profile.build.elim [] RawBuild.plugins

def RawProfile.managedPlugins : List RawPlugin :=
  profile.build.elim [] RawBuild.managedPlugins

def listedTexts (pom : RawPom) : List (Option String) :=
  pom.dependencies.map RawDependency.version ++ pom.managed.map RawDependency.version ++
    pom.plugins.map RawPlugin.version ++ pom.managedPlugins.map RawPlugin.version ++
    pom.repositories.map RawRepository.url ++ pom.pluginRepositories.map RawRepository.url

def RawProfile.listedTexts : List (Option String) :=
  profile.dependencies.map RawDependency.version ++ profile.managed.map RawDependency.version ++
    profile.plugins.map RawPlugin.version ++ profile.managedPlugins.map RawPlugin.version ++
    profile.repositories.map RawRepository.url ++ profile.pluginRepositories.map RawRepository.url

section Declared

variable (base : String → Option String)

def importsUnder (dep : RawDependency) : Bool := isBomImport { dep with
    scope := dep.scope.bind (interpolated base), type := dep.type.bind (interpolated base) }

def idUnder (repository : RawRepository) : Option String := repository.id.bind (interpolated base)

variable (merged : RawPom) (active : List RawProfile)

def splicedRepositories (ofProfile : RawProfile → List RawRepository)
    (repositories : List RawRepository) : List RawRepository :=
  active.foldl (fun kept profile => mergeById (idUnder base) kept (ofProfile profile)) repositories

def declaredTexts (imported : ℕ) : List (Option String) :=
  (merged.dependencies ++ active.flatMap RawProfile.dependencies).map RawDependency.version ++
    ((merged.managed.filter fun dep => !importsUnder base dep).map RawDependency.version ++
      replicate imported none ++
      (active.flatMap RawProfile.managed).map RawDependency.version) ++
    (merged.plugins ++ active.flatMap RawProfile.plugins).map RawPlugin.version ++
    (merged.managedPlugins ++ active.flatMap RawProfile.managedPlugins).map RawPlugin.version ++
    (splicedRepositories base active RawProfile.repositories merged.repositories).map
      RawRepository.url ++
    (splicedRepositories base active RawProfile.pluginRepositories merged.pluginRepositories).map
      RawRepository.url

def declaredImports : List (Option String) :=
  (merged.managed.filter (importsUnder base)).map RawDependency.version

end Declared

def SettledText (lookup : String → Option String) : Option String → Option String → Prop :=
  Option.Rel fun text settled => interpolated lookup text = some settled

theorem settledText_of_mapM {loc : InterpolationLocation} (strict : loc.isStrict)
    {text settled : Option String} (ran : text.mapM (settleText lookup loc) = .ok settled) :
    SettledText lookup text settled := by
  cases option_mapM_eq_ok.mp ran with
  | none => exact .none
  | some found => exact .some ((interpolated_eq_some strict).mpr found)

theorem SettledText.eq_bind {text settled : Option String}
    (related : SettledText lookup text settled) : settled = text.bind (interpolated lookup) := by
  cases related with
  | none => rfl
  | some found => exact found.symm

theorem settledText_dependency {dep dep' : RawDependency} (settles : Settles lookup dep dep') :
    SettledText lookup dep.version dep'.version ∧ SettledText lookup dep.scope dep'.scope ∧
      SettledText lookup dep.type dep'.type := by
  have strict : (InterpolationLocation.dependencyVersion dep.groupId dep.artifactId).isStrict := rfl
  unfold Settles settleDependency interpDependency at settles
  rcases bind_eq_ok.mp settles with ⟨groupId, -, settles⟩
  rcases bind_eq_ok.mp settles with ⟨artifactId, -, settles⟩
  rcases bind_eq_ok.mp settles with ⟨ver, versionOk, settles⟩
  rcases bind_eq_ok.mp settles with ⟨scope, scopeOk, settles⟩
  rcases bind_eq_ok.mp settles with ⟨cls, -, settles⟩
  rcases bind_eq_ok.mp settles with ⟨type, typeOk, settles⟩
  rcases bind_eq_ok.mp settles with ⟨systemPath, -, settles⟩
  rcases bind_eq_ok.mp settles with ⟨optional, -, settles⟩
  rcases bind_eq_ok.mp settles with ⟨exclusions, -, settles⟩
  cases settles
  exact ⟨settledText_of_mapM strict versionOk, settledText_of_mapM strict scopeOk,
    settledText_of_mapM strict typeOk⟩

abbrev PluginSettles (lookup : String → Option String) (plugin plugin' : RawPlugin) : Prop :=
  interpPlugin (settleText lookup) plugin = .ok plugin'

theorem settledText_plugin {plugin plugin' : RawPlugin}
    (settles : PluginSettles lookup plugin plugin') :
    SettledText lookup plugin.version plugin'.version := by
  have strict : (InterpolationLocation.pluginVersion plugin.groupId plugin.artifactId).isStrict :=
    rfl
  unfold PluginSettles interpPlugin at settles
  rcases bind_eq_ok.mp settles with ⟨groupId, -, settles⟩
  rcases bind_eq_ok.mp settles with ⟨artifactId, -, settles⟩
  rcases bind_eq_ok.mp settles with ⟨ver, versionOk, settles⟩
  rcases bind_eq_ok.mp settles with ⟨config, -, settles⟩
  rcases bind_eq_ok.mp settles with ⟨deps, -, settles⟩
  rcases bind_eq_ok.mp settles with ⟨executions, -, settles⟩
  cases settles
  exact settledText_of_mapM strict versionOk

abbrev RepositorySettles (lookup : String → Option String) (repo repo' : RawRepository) : Prop :=
  interpRepository (settleText lookup) repo = .ok repo'

theorem settledText_repository {repo repo' : RawRepository}
    (settles : RepositorySettles lookup repo repo') :
    SettledText lookup repo.url repo'.url ∧ SettledText lookup repo.id repo'.id := by
  have strict : (InterpolationLocation.repositoryUrl (repo.id.getD "?")).isStrict := rfl
  unfold RepositorySettles interpRepository at settles
  rcases bind_eq_ok.mp settles with ⟨id, idOk, settles⟩
  rcases bind_eq_ok.mp settles with ⟨name, -, settles⟩
  rcases bind_eq_ok.mp settles with ⟨url, urlOk, settles⟩
  rcases bind_eq_ok.mp settles with ⟨layout, -, settles⟩
  cases settles
  exact ⟨settledText_of_mapM strict urlOk, settledText_of_mapM strict idOk⟩

theorem plugins_of_interpBuild {build build' : RawBuild}
    (settles : interpBuild (settleText lookup) build = .ok build') :
    Forall₂ (PluginSettles lookup) build.plugins build'.plugins ∧
      Forall₂ (PluginSettles lookup) build.managedPlugins build'.managedPlugins := by
  unfold interpBuild at settles
  rcases bind_eq_ok.mp settles with ⟨sourceDirectory, -, settles⟩
  rcases bind_eq_ok.mp settles with ⟨scriptSourceDirectory, -, settles⟩
  rcases bind_eq_ok.mp settles with ⟨testSourceDirectory, -, settles⟩
  rcases bind_eq_ok.mp settles with ⟨outputDirectory, -, settles⟩
  rcases bind_eq_ok.mp settles with ⟨testOutputDirectory, -, settles⟩
  rcases bind_eq_ok.mp settles with ⟨finalName, -, settles⟩
  rcases bind_eq_ok.mp settles with ⟨defaultGoal, -, settles⟩
  rcases bind_eq_ok.mp settles with ⟨dir, -, settles⟩
  rcases bind_eq_ok.mp settles with ⟨plugins, pluginsOk, settles⟩
  rcases bind_eq_ok.mp settles with ⟨mgmt, managementOk, settles⟩
  cases settles
  refine ⟨mapM'_eq_ok.mp pluginsOk, ?_⟩
  unfold RawBuild.managedPlugins
  generalize build.pluginManagement = pre at managementOk ⊢
  cases option_mapM_eq_ok.mp managementOk with
  | none => exact .nil
  | some related =>
    rcases bind_eq_ok.mp related with ⟨inner, innerOk, same⟩
    cases same
    exact mapM'_eq_ok.mp innerOk

theorem plugins_of_mapM_interpBuild {build build' : Option RawBuild}
    (settles : build.mapM (interpBuild (settleText lookup)) = .ok build') :
    Forall₂ (PluginSettles lookup) (build.elim [] RawBuild.plugins)
        (build'.elim [] RawBuild.plugins) ∧
      Forall₂ (PluginSettles lookup) (build.elim [] RawBuild.managedPlugins)
        (build'.elim [] RawBuild.managedPlugins) := by
  cases option_mapM_eq_ok.mp settles with
  | none => exact ⟨.nil, .nil⟩
  | some found => exact plugins_of_interpBuild found

theorem forall₂_listedTexts (interpolates : Interpolates (settleText lookup) pom settled) :
    Forall₂ (SettledText lookup) (listedTexts pom) (listedTexts settled) := by
  have deps := mapM'_eq_ok.mp interpolates.dependencies
  have plugins := plugins_of_mapM_interpBuild interpolates.build
  have repos := mapM'_eq_ok.mp interpolates.repositories
  have pluginRepositories := mapM'_eq_ok.mp interpolates.pluginRepositories
  refine rel_append (rel_append (rel_append (rel_append (rel_append ?_ ?_) ?_) ?_) ?_) ?_
  · exact forall₂_map deps fun _ _ found => (settledText_dependency found).1
  · exact forall₂_map (forall₂_managed interpolates) fun _ _ found =>
      (settledText_dependency found).1
  · exact forall₂_map plugins.1 fun _ _ found => settledText_plugin found
  · exact forall₂_map plugins.2 fun _ _ found => settledText_plugin found
  · exact forall₂_map repos fun _ _ found => (settledText_repository found).1
  · exact forall₂_map pluginRepositories fun _ _ found => (settledText_repository found).1

structure ProfileSettles (lookup : String → Option String) (profile profile' : RawProfile) :
    Prop where
  dependencies : Forall₂ (Settles lookup) profile.dependencies profile'.dependencies
  managed : Forall₂ (Settles lookup) profile.managed profile'.managed
  plugins : Forall₂ (PluginSettles lookup) profile.plugins profile'.plugins
  managedPlugins : Forall₂ (PluginSettles lookup) profile.managedPlugins profile'.managedPlugins
  repositories : Forall₂ (RepositorySettles lookup) profile.repositories profile'.repositories
  pluginRepositories : Forall₂ (RepositorySettles lookup) profile.pluginRepositories
    profile'.pluginRepositories

theorem profileSettles_of_interpProfile {prof profile' : RawProfile}
    (settles : interpProfile (settleText lookup) prof = .ok profile') :
    ProfileSettles lookup prof profile' := by
  unfold interpProfile at settles
  rcases bind_eq_ok.mp settles with ⟨id, -, settles⟩
  rcases bind_eq_ok.mp settles with ⟨deps, dependenciesOk, settles⟩
  rcases bind_eq_ok.mp settles with ⟨mgmt, managementOk, settles⟩
  rcases bind_eq_ok.mp settles with ⟨build, buildOk, settles⟩
  rcases bind_eq_ok.mp settles with ⟨repos, repositoriesOk, settles⟩
  rcases bind_eq_ok.mp settles with ⟨pluginRepositories, pluginRepositoriesOk, settles⟩
  cases settles
  have plugins := plugins_of_mapM_interpBuild buildOk
  refine ⟨mapM'_eq_ok.mp dependenciesOk, ?_, plugins.1, plugins.2, mapM'_eq_ok.mp repositoriesOk,
    mapM'_eq_ok.mp pluginRepositoriesOk⟩
  unfold RawProfile.managed
  generalize prof.dependencyManagement = pre at managementOk ⊢
  cases option_mapM_eq_ok.mp managementOk with
  | none => exact .nil
  | some related =>
    rcases bind_eq_ok.mp related with ⟨inner, innerOk, same⟩
    cases same
    exact mapM'_eq_ok.mp innerOk

theorem ProfileSettles.listedTexts {prof profile' : RawProfile}
    (settles : ProfileSettles lookup prof profile') :
    Forall₂ (SettledText lookup) prof.listedTexts profile'.listedTexts := by
  refine rel_append (rel_append (rel_append (rel_append (rel_append ?_ ?_) ?_) ?_) ?_) ?_
  · exact forall₂_map settles.dependencies fun _ _ found => (settledText_dependency found).1
  · exact forall₂_map settles.managed fun _ _ found => (settledText_dependency found).1
  · exact forall₂_map settles.plugins fun _ _ found => settledText_plugin found
  · exact forall₂_map settles.managedPlugins fun _ _ found => settledText_plugin found
  · exact forall₂_map settles.repositories fun _ _ found => (settledText_repository found).1
  · exact forall₂_map settles.pluginRepositories fun _ _ found => (settledText_repository found).1

theorem forall₂_activeProfiles {r : RawProfile → RawProfile → Prop}
    {profs profiles' : List RawProfile} (related : Forall₂ r profs profiles')
    (statuses : List Bool) :
    Forall₂ r (activeProfiles profs statuses) (activeProfiles profiles' statuses) := by
  unfold activeProfiles
  induction related generalizing statuses with
  | nil => exact .nil
  | cons head tail ih =>
    rcases statuses with _ | ⟨status, statuses⟩
    · exact .nil
    · rcases status with _ | _
      · exact ih statuses
      · exact .cons head (ih statuses)

section ById

variable {α β : Type} {r : α → β → Prop} {idOf : α → Option String} {idOf' : β → Option String}
  (sameId : ∀ ⦃elem element'⦄, r elem element' → idOf elem = idOf' element')

include sameId

theorem filterMap_id_eq {list : List α} {list' : List β} (related : Forall₂ r list list') :
    list.filterMap idOf = list'.filterMap idOf' := by
  induction related with
  | nil => rfl
  | cons head tail ih => rw [filterMap_cons, filterMap_cons, sameId head, ih]

theorem forall₂_keepNewIds (seen : List String) {list : List α} {list' : List β}
    (related : Forall₂ r list list') :
    Forall₂ r (keepNewIds idOf seen list) (keepNewIds idOf' seen list') := by
  induction related generalizing seen with
  | nil => exact .nil
  | @cons elem element' list list' head tail ih =>
    rw [keepNewIds, keepNewIds, sameId head]
    rcases idOf' element' with _ | _
    · exact .cons head (ih seen)
    · dsimp only
      split_ifs
      · exact ih seen
      · exact .cons head (ih _)

theorem forall₂_mergeById {prior later : List α} {earlier' later' : List β}
    (pre : Forall₂ r prior earlier') (post : Forall₂ r later later') :
    Forall₂ r (mergeById idOf prior later) (mergeById idOf' earlier' later') := by
  have kept : Forall₂ r
      (prior.filter fun elem => !(idOf elem).any fun id => id ∈ later.filterMap idOf)
      (earlier'.filter fun elem => !(idOf' elem).any fun id => id ∈ later'.filterMap idOf') := by
    refine rel_filter ?_ pre
    intro elem element' related
    dsimp only
    rw [sameId related, filterMap_id_eq sameId post]
  unfold mergeById
  dsimp only
  rw [filterMap_id_eq sameId kept]
  exact rel_append kept (forall₂_keepNewIds sameId _ post)

end ById

theorem plugins_foldl_spliceProfile (profs : List RawProfile) (pom : RawPom) :
    (profs.foldl spliceProfile pom).plugins = pom.plugins ++ profs.flatMap RawProfile.plugins ∧
      (profs.foldl spliceProfile pom).managedPlugins =
        pom.managedPlugins ++ profs.flatMap RawProfile.managedPlugins := by
  induction profs generalizing pom with
  | nil => simp
  | cons prof profs ih =>
    have plugins : (spliceProfile pom prof).plugins = pom.plugins ++ prof.plugins := by
      unfold RawPom.plugins RawProfile.plugins spliceProfile
      cases prof.build <;> cases pom.build <;> simp [spliceBuild]
    have managedPlugins : (spliceProfile pom prof).managedPlugins =
        pom.managedPlugins ++ prof.managedPlugins := by
      unfold RawPom.managedPlugins RawProfile.managedPlugins spliceProfile
      rcases prof.build with _ | build
      · simp
      · rcases pom.build with _ | existing
        · cases added : build.pluginManagement <;>
            simp [spliceBuild, splicePluginManagement, RawBuild.managedPlugins, added]
        · cases added : build.pluginManagement <;>
            cases given : existing.pluginManagement <;>
            simp [spliceBuild, splicePluginManagement, RawBuild.managedPlugins, added, given]
    rcases ih (spliceProfile pom prof) with ⟨pluginsEq, managedEq⟩
    rw [foldl_cons, pluginsEq, managedEq, plugins, managedPlugins]
    simp

theorem repositories_foldl_spliceProfile (profs : List RawProfile) (pom : RawPom) :
    (profs.foldl spliceProfile pom).repositories =
        profs.foldl (fun kept prof => mergeById RawRepository.id kept prof.repositories)
          pom.repositories ∧
      (profs.foldl spliceProfile pom).pluginRepositories = profs.foldl (fun kept prof =>
          mergeById RawRepository.id kept prof.pluginRepositories) pom.pluginRepositories := by
  induction profs generalizing pom with
  | nil => exact ⟨rfl, rfl⟩
  | cons prof profs ih => exact ih (spliceProfile pom prof)

def EndsUnder (lookup : String → Option String) (again : String → String)
    (declared final : Option String) : Prop :=
  ∀ text, declared = some text → ∃ settled, interpolated lookup text = some settled ∧
    final = some (again settled)

theorem SettledText.endsUnder {text settled : Option String}
    (related : SettledText lookup text settled) : EndsUnder lookup id text settled := by
  rintro text rfl
  cases related with
  | some found => exact ⟨_, found, rfl⟩

theorem importsUnder_eq {dep dep' : RawDependency} (settles : Settles lookup dep dep') :
    importsUnder lookup dep = isBomImport dep' := by
  rcases settledText_dependency settles with ⟨-, scope, type⟩
  simp only [importsUnder, isBomImport, scope.eq_bind, type.eq_bind]

theorem endsUnder_version {dep dep' : RawDependency} (settles : Settles lookup dep dep') :
    EndsUnder lookup id dep.version dep'.version :=
  (settledText_dependency settles).1.endsUnder

theorem endsUnder_plugin {plugin plugin' : RawPlugin}
    (settles : interpPlugin (settleText lookup) plugin = .ok plugin') :
    EndsUnder lookup id plugin.version plugin'.version :=
  (settledText_plugin settles).endsUnder

theorem forall₂_managedTexts {own own' spliced spliced' : List RawDependency}
    (imported : List RawDependency) (first : Forall₂ (Settles lookup) own own')
    (last : Forall₂ (Settles lookup) spliced spliced') :
    Forall₂ (EndsUnder lookup id)
      ((own.filter fun dep => !importsUnder lookup dep).map RawDependency.version ++
        replicate imported.length none ++ spliced.map RawDependency.version)
      ((declaredEntries own' ++ imported ++ spliced').map RawDependency.version) := by
  have kept : Forall₂ (Settles lookup) (own.filter fun dep => !importsUnder lookup dep)
      (declaredEntries own') := by
    refine rel_filter ?_ first
    intro dep dep' settles
    dsimp only
    rw [importsUnder_eq settles]
  have between : Forall₂ (EndsUnder lookup id) (replicate imported.length none)
      (imported.map RawDependency.version) := by
    rw [← map_const, forall₂_map_left_iff, forall₂_map_right_iff]
    exact forall₂_same.mpr fun _ _ _ given => by cases given
  rw [map_append, map_append]
  exact rel_append (rel_append (forall₂_map kept fun _ _ => endsUnder_version) between)
    (forall₂_map last fun _ _ => endsUnder_version)

theorem forall₂_repositoryTexts {own own' : List RawRepository} {active active' : List RawProfile}
    {ofProfile : RawProfile → List RawRepository}
    (first : Forall₂ (RepositorySettles lookup) own own')
    (rest : Forall₂ (fun prof profile' =>
      Forall₂ (RepositorySettles lookup) (ofProfile prof) (ofProfile profile')) active active') :
    Forall₂ (EndsUnder lookup id)
      ((splicedRepositories lookup active ofProfile own).map RawRepository.url)
      ((active'.foldl (fun kept prof =>
        mergeById RawRepository.id kept (ofProfile prof)) own').map RawRepository.url) := by
  have spliced : Forall₂ (RepositorySettles lookup)
      (splicedRepositories lookup active ofProfile own)
      (active'.foldl (fun kept prof =>
        mergeById RawRepository.id kept (ofProfile prof)) own') := by
    refine rel_foldl ?_ first rest
    intro kept kept' keptRel prof profile' profileRel
    refine forall₂_mergeById ?_ keptRel profileRel
    intro repo repo' settles
    exact (settledText_repository settles).2.eq_bind.symm
  exact forall₂_map spliced fun _ _ settles => (settledText_repository settles).1.endsUnder

def recopies (resolved : ResolvedPom) (text : String) : String :=
  if resolved.importedBoms = [] ∧ resolved.activeProfileIds = [] then text else recopied text

section Stages

variable {prep : ResolvedPom} {expanded spliced : RawPom}
  (prepares : Prepares env pathExists reply root ctx st st' prep expanded spliced)

include prepares

theorem Prepares.declared : ∃ statuses imported,
      profileStatuses pathExists ctx prep.effective.pom.profiles = .ok statuses ∧
      Forall₂ (EndsUnder (lookupIn env (mergeChain root prep.effective.parentChain)) id)
        (declaredTexts (lookupIn env (mergeChain root prep.effective.parentChain))
          (mergeChain root prep.effective.parentChain)
          (activeProfiles (mergeChain root prep.effective.parentChain).profiles statuses)
          imported)
        (listedTexts spliced) := by
  rcases prepares.interpolated with ⟨settled, interpolates, effectiveEq⟩
  rcases prepares.spliced_eq with ⟨statuses, inactive, parts, found, splicedEq, kept, managed⟩
  generalize mergeChain root prep.effective.parentChain = merged at interpolates ⊢
  generalize lookupIn env merged = base at interpolates ⊢
  refine ⟨statuses, parts.flatten.length, found, ?_⟩
  have profs : Forall₂ (ProfileSettles base) (activeProfiles merged.profiles statuses)
      (activeProfiles settled.profiles statuses) :=
    forall₂_activeProfiles ((mapM'_eq_ok.mp interpolates.profiles).imp
      fun _ _ => profileSettles_of_interpProfile) statuses
  have texts : listedTexts spliced = listedTexts ((activeProfiles settled.profiles statuses).foldl
      spliceProfile expanded) := by
    rw [splicedEq, effectiveEq]
    rfl
  rw [effectiveEq] at kept managed
  rw [texts, listedTexts, dependencies_foldl_spliceProfile, managed_foldl_spliceProfile,
    (plugins_foldl_spliceProfile _ _).1, (plugins_foldl_spliceProfile _ _).2,
    (repositories_foldl_spliceProfile _ _).1, (repositories_foldl_spliceProfile _ _).2, managed,
    declaredTexts]
  have deps := rel_append (mapM'_eq_ok.mp interpolates.dependencies)
    (rel_flatMap profs fun _ _ settles => settles.dependencies)
  have mgmt := forall₂_managedTexts parts.flatten (forall₂_managed interpolates)
    (rel_flatMap profs fun _ _ settles => settles.managed)
  have builds := plugins_of_mapM_interpBuild interpolates.build
  have plugins := rel_append builds.1 (rel_flatMap profs fun _ _ settles => settles.plugins)
  have managedPlugins := rel_append builds.2
    (rel_flatMap profs fun _ _ settles => settles.managedPlugins)
  have repos := forall₂_repositoryTexts (mapM'_eq_ok.mp interpolates.repositories)
    (profs.imp fun _ _ settles => settles.repositories)
  have pluginRepositories := forall₂_repositoryTexts
    (mapM'_eq_ok.mp interpolates.pluginRepositories)
    (profs.imp fun _ _ settles => settles.pluginRepositories)
  rw [kept]
  exact rel_append (rel_append (rel_append (rel_append (rel_append
    (forall₂_map deps fun _ _ => endsUnder_version) mgmt)
    (forall₂_map plugins fun _ _ => endsUnder_plugin))
    (forall₂_map managedPlugins fun _ _ => endsUnder_plugin)) repos) pluginRepositories

theorem Prepares.recopies : Forall₂ (fun text final => ∀ settled, text = some settled →
        hasPlaceholder false settled.toList = false → final = some (recopies prep settled))
      (listedTexts spliced) (listedTexts prep.pom) := by
  have again := prepares.again
  unfold Pom.recopies
  split_ifs at again ⊢ with nothing
  · rw [again]
    exact forall₂_same.mpr fun _ _ _ given _ => given
  · rcases again with ⟨settled, interpolates, same⟩
    have texts : listedTexts prep.pom = listedTexts settled := by
      rw [same]
      rfl
    rw [texts]
    refine (forall₂_listedTexts interpolates).imp ?_
    rintro text final related plain rfl noPlaceholder
    cases related with
    | some found =>
      have strict : (InterpolationLocation.other "").isStrict := rfl
      rw [interpolated_eq_some strict, settleText_of_not_hasPlaceholder noPlaceholder] at found
      rw [Except.ok.inj found]

end Stages

theorem keeps_of_applyDependencyManagement {pom' : RawPom}
    (applied : applyDependencyManagement pom = .ok pom') :
    Forall₂ (fun text final => ∀ ver, text = some ver → final = some ver)
      (listedTexts pom) (listedTexts pom') := by
  rcases bind_eq_ok.mp applied with ⟨deps, managed, same⟩
  cases same
  have vers : Forall₂ (fun text final => ∀ ver, text = some ver →
      final = some ver) (pom.dependencies.map RawDependency.version)
      (deps.map RawDependency.version) := by
    refine forall₂_map (mapM'_eq_ok.mp managed) ?_
    intro dep final filled ver given
    unfold manageDependency at filled
    split_ifs at filled with isSystem
    · rw [← Except.ok.inj filled, given]
    · cases found : (buildDmIndex { pom with
          dependencyManagement := pom.dependencyManagement.map inheritManagement }).get?
          (DepKey.of dep) with
      | none =>
        simp only [found, given] at filled
        rw [← Except.ok.inj filled, given]
      | some default =>
        simp only [found, RawDependency.inheritFrom, given] at filled
        rw [← Except.ok.inj filled]
        rfl
  have entries : Forall₂ (fun text final => ∀ ver, text = some ver →
      final = some ver) (pom.managed.map RawDependency.version)
      (({ pom with dependencyManagement := pom.dependencyManagement.map inheritManagement } :
        RawPom).managed.map RawDependency.version) := by
    rw [managed_inheritManagement, map_map, forall₂_map_left_iff, forall₂_map_right_iff]
    refine forall₂_same.mpr ?_
    intro dep _ ver given
    simp [inheritedEntry, given]
  have rest : ∀ texts : List (Option String), Forall₂ (fun text final =>
      ∀ ver, text = some ver → final = some ver) texts texts :=
    fun texts => forall₂_same.mpr fun _ _ _ given => given
  exact rel_append (rel_append (rel_append (rel_append (rel_append
    vers entries) (rest _)) (rest _)) (rest _)) (rest _)

def EndsAs (expected : String → Option String) (declared final : Option String) : Prop :=
  ∀ text, declared = some text → final = expected text

theorem forall₂_endsAs_iff (overlay : String → Option String) {again : String → String}
    (injective : Function.Injective again) {decl finals : List (Option String)}
    (ends : Forall₂ (EndsUnder base again) decl finals) :
    Forall₂ (EndsAs fun text => (interpolated overlay text).map again) decl finals ↔
      ∀ text, some text ∈ decl → interpolated base text = interpolated overlay text := by
  induction ends with
  | nil => simp
  | @cons text final decl finals head tail ih =>
    have headIff : EndsAs (fun text => (interpolated overlay text).map again) text final ↔
        ∀ given, text = some given → interpolated base given = interpolated overlay given := by
      refine forall₂_congr fun given isText => ?_
      rcases head given isText with ⟨settled, found, rfl⟩
      dsimp only
      rw [found]
      rcases interpolated overlay given with _ | _
      · simp
      · simp [injective.eq_iff]
    rw [forall₂_cons, headIff, ih]
    constructor
    · rintro ⟨first, rest⟩ given mem
      rcases mem_cons.mp mem with same | later
      · exact first given same.symm
      · exact rest given later
    · intro all
      exact ⟨fun given same => all given (same ▸ .head _),
        fun given later => all given (.tail _ later)⟩

def lookupOver (env : String → Option String) (merged : RawPom) (active : List RawProfile) :
    String → Option String :=
  Pom.lookup env (ProjectContext.fromPom merged)
    (merged.properties.extend (active.flatMap fun profile => profile.properties.entries))

/-- Every text ends as the properties of the active profiles make it. -/
structure PropertiesTakeEffect (env : String → Option String) (merged : RawPom)
    (active : List RawProfile) (imported : ℕ) (resolved : ResolvedPom) : Prop where
  texts : Forall₂
    (EndsAs fun text => (interpolated (lookupOver env merged active) text).map (recopies resolved))
    (declaredTexts (lookupIn env merged) merged active imported) (listedTexts resolved.pom)
  imports : Forall₂ (EndsAs (interpolated (lookupOver env merged active)))
    (declaredImports (lookupIn env merged) merged)
    ((importEntries resolved.effective.pom.managed).map RawDependency.version)

theorem recopies_injective (res : ResolvedPom) : Function.Injective (recopies res) := by
  intro text other same
  unfold recopies at same
  split_ifs at same
  · exact same
  · exact recopied_injective same

variable {res : ResolvedPom}

theorem declaredTexts_end
    (ran : (resolvePom env pathExists root ctx).run reply st = (.ok res, st')) :
    ∃ statuses imported, profileStatuses pathExists ctx res.effective.pom.profiles = .ok statuses ∧
      Forall₂ (EndsUnder (lookupIn env (mergeChain root res.effective.parentChain)) (recopies res))
        (declaredTexts (lookupIn env (mergeChain root res.effective.parentChain))
          (mergeChain root res.effective.parentChain)
          (activeProfiles (mergeChain root res.effective.parentChain).profiles statuses)
          imported)
        (listedTexts res.pom) := by
  rcases prepares_of_resolvePom ran with
    ⟨prep, expanded, spliced, prepares, applied, same⟩
  have sameEffective : res.effective = prep.effective := by rw [same]
  have sameAgain : recopies res = recopies prep := by rw [same]; rfl
  rcases prepares.declared with ⟨statuses, imported, found, decl⟩
  rw [sameEffective, sameAgain]
  refine ⟨statuses, imported, found, ?_⟩
  generalize declaredTexts _ _ _ imported = texts at decl ⊢
  generalize lookupIn env (mergeChain root prep.effective.parentChain) = base at decl ⊢
  have settledTwice : Forall₂ (EndsUnder base (recopies prep)) texts (listedTexts prep.pom) := by
    refine forall₂_trans ?_ decl prepares.recopies
    intro text between final ends again given isText
    rcases ends given isText with ⟨settled, interpolates, isBetween⟩
    have strict : (InterpolationLocation.other "").isStrict := rfl
    have plain := not_hasPlaceholder_of_settleText strict
      ((interpolated_eq_some strict).mp interpolates)
    exact ⟨settled, interpolates, again settled isBetween plain⟩
  refine forall₂_trans ?_ settledTwice (keeps_of_applyDependencyManagement applied)
  intro text between final ends keeps given isText
  rcases ends given isText with ⟨settled, interpolates, isFinal⟩
  exact ⟨settled, interpolates, keeps _ isFinal⟩

theorem declaredImports_end (interpolates : Interpolates
      (settleText (lookupIn env (mergeChain root res.effective.parentChain)))
      (mergeChain root res.effective.parentChain) settled)
    (effectiveEq : res.effective.pom = { settled with parent := none }) :
    Forall₂ (EndsUnder (lookupIn env (mergeChain root res.effective.parentChain)) id)
      (declaredImports (lookupIn env (mergeChain root res.effective.parentChain))
        (mergeChain root res.effective.parentChain))
      ((importEntries res.effective.pom.managed).map RawDependency.version) := by
  have managed : res.effective.pom.managed = settled.managed := by
    rw [effectiveEq]
    rfl
  rw [managed]
  refine forall₂_map (rel_filter ?_ (forall₂_managed interpolates)) fun _ _ => endsUnder_version
  intro dep dep' settles
  dsimp only
  rw [importsUnder_eq settles]

theorem interpolated_of_interpolates (interpolates : Interpolates (settleText lookup) pom settled)
    {text : String} (listed : some text ∈ listedTexts pom ∨
      ∃ prof ∈ pom.profiles, some text ∈ prof.listedTexts) :
    interpolated lookup text ≠ none := by
  have isSome : ∀ {texts finals}, Forall₂ (SettledText lookup) texts finals →
      some text ∈ texts → interpolated lookup text ≠ none := by
    intro texts finals related mem
    rcases forall₂_exists_right related mem with ⟨final, -, found⟩
    cases found with
    | some found => simp [found]
  rcases listed with listed | ⟨prof, mem, listed⟩
  · exact isSome (forall₂_listedTexts interpolates) listed
  · rcases forall₂_exists_right (mapM'_eq_ok.mp interpolates.profiles) mem with
      ⟨profile', -, settles⟩
    exact isSome (profileSettles_of_interpProfile settles).listedTexts listed

theorem propertiesTakeEffect_iff {merged : RawPom} {active : List RawProfile} {imported : ℕ}
    (texts : Forall₂ (EndsUnder (lookupIn env merged) (recopies res))
      (declaredTexts (lookupIn env merged) merged active imported) (listedTexts res.pom))
    (imports : Forall₂ (EndsUnder (lookupIn env merged) id)
      (declaredImports (lookupIn env merged) merged)
      ((importEntries res.effective.pom.managed).map RawDependency.version)) :
    PropertiesTakeEffect env merged active imported res ↔
      ∀ text, some text ∈ declaredTexts (lookupIn env merged) merged active imported ++
          declaredImports (lookupIn env merged) merged →
        interpolated (lookupIn env merged) text =
          interpolated (lookupOver env merged active) text := by
  have textsIff := forall₂_endsAs_iff (lookupOver env merged active) (recopies_injective res) texts
  have importsIff := forall₂_endsAs_iff (lookupOver env merged active) Function.injective_id imports
  simp only [Option.map_id, id] at importsIff
  constructor
  · intro effect text mem
    rcases mem_append.mp mem with listed | imported
    · exact textsIff.mp effect.texts text listed
    · exact importsIff.mp effect.imports text imported
  · intro agree
    exact ⟨textsIff.mpr fun text listed => agree text (mem_append_left _ listed),
      importsIff.mpr fun text imported => agree text (mem_append_right _ imported)⟩

def profilePom (properties : Properties) : RawPom :=
  { groupId := some "org.example"
    artifactId := "app"
    version := some "1"
    properties
    dependencies := [{ groupId := "org.example", artifactId := "core",
                       version := some "$\x7bcore.version\x7d" }]
    profiles := [{ id := some "next",
                   properties := (∅ : Properties).insert "core.version" "2.0" }] }

def profileContext : ActivationContext :=
  { activeProfileIds := ["next"] }

def resolveAlone (root : RawPom) : Except ResolveError ResolvedPom × Unit :=
  (resolvePom (fun _ => none) (fun _ _ => false) root profileContext).run
    (fun _ state => (.error "not found", state)) ()

end Barista.Pom
