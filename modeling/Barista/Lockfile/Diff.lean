import Barista.Cache.Roastery
import Barista.Pairing

/-!
# The difference of two lockfiles

The entries of each `group:artifact` are paired off in three passes: equal entries, then entries
of one type and classifier, then entries of one version.  What is left was removed or added.
A pass takes the first entry that fits, so the order of the entries matters exactly where a pass
has a choice, or where two results have one sort key.
-/

namespace Barista.Lockfile

open List Pairing

structure LockEntry where
  groupId : String
  artifactId : String
  version : String
  scope : String
  classifier : Option String
  type : String
  deriving DecidableEq

namespace LockEntry

variable (entry : LockEntry)

def coordsKey : String :=
  entry.groupId ++ ":" ++ entry.artifactId ++ ":" ++ entry.type ++
    (entry.classifier.map (":" ++ ·)).getD ""

def ga : String := entry.groupId ++ ":" ++ entry.artifactId

def displayCoords : String :=
  entry.ga ++ (if entry.type ≠ "jar" then ":" ++ entry.type else "") ++
    match entry.classifier with
    | some classifier => (if entry.type = "jar" then ":jar" else "") ++ ":" ++ classifier
    | none => ""

def shortType : String :=
  match entry.classifier with
  | some classifier => entry.type ++ ":" ++ classifier
  | none => entry.type

def sameKind (entry other : LockEntry) : Bool :=
  (other.type, other.classifier) = (entry.type, entry.classifier)

def sameVersion (entry other : LockEntry) : Bool := other.version = entry.version

end LockEntry

structure Change where
  coords : String
  old : String
  new : String
  deriving DecidableEq

structure LockDiff where
  added : List LockEntry := []
  removed : List LockEntry := []
  upgraded : List Change := []
  downgraded : List Change := []
  rescoped : List Change := []
  reclassified : List Change := []
  deriving DecidableEq

instance : Append LockDiff where
  append first second :=
    { added := first.added ++ second.added
      removed := first.removed ++ second.removed
      upgraded := first.upgraded ++ second.upgraded
      downgraded := first.downgraded ++ second.downgraded
      rescoped := first.rescoped ++ second.rescoped
      reclassified := first.reclassified ++ second.reclassified }

def comparePart (first second : String) : Ordering :=
  match Cache.Roastery.parseU64 first, Cache.Roastery.parseU64 second with
  | some first, some second => compare first second
  | _, _ => compare first second

def compareVersions (first second : String) : Ordering :=
  let parts := fun text : String =>
    (text.toList.splitOnP fun char => char = '.' ∨ char = '-').map String.ofList
  (range (max (parts first).length (parts second).length)).foldl (fun order index =>
    order.then (comparePart ((parts first)[index]?.getD "0") ((parts second)[index]?.getD "0"))) .eq

def pairChange (entry other : LockEntry) : LockDiff :=
  if entry.version ≠ other.version then
    let change := ⟨entry.displayCoords, entry.version, other.version⟩
    if compareVersions entry.version other.version = .lt then { upgraded := [change] }
    else { downgraded := [change] }
  else if entry.scope ≠ other.scope then
    { rescoped := [⟨entry.displayCoords, entry.scope, other.scope⟩] }
  else {}

def typeChange (pair : LockEntry × LockEntry) : Change :=
  ⟨pair.1.ga ++ ":" ++ pair.1.version, pair.1.shortType, pair.2.shortType⟩

def diffGroup (left right : List LockEntry) : LockDiff :=
  let same := pairOff (· == ·) left right
  let changed := pairOff LockEntry.sameKind same.2.1 same.2.2
  let retyped := pairOff LockEntry.sameVersion changed.2.1 changed.2.2
  changed.1.foldl (fun out pair => out ++ pairChange pair.1 pair.2) {} ++
    { reclassified := retyped.1.map typeChange, removed := retyped.2.1, added := retyped.2.2 }

def sortDiff (diff : LockDiff) : LockDiff :=
  let byKey := fun entries : List LockEntry => entries.insertionSort (·.coordsKey ≤ ·.coordsKey)
  let byCoords := fun changes : List Change => changes.insertionSort (·.coords ≤ ·.coords)
  { added := byKey diff.added
    removed := byKey diff.removed
    upgraded := byCoords diff.upgraded
    downgraded := byCoords diff.downgraded
    rescoped := byCoords diff.rescoped
    reclassified := byCoords diff.reclassified }

def allGas (left right : List LockEntry) : List String :=
  ((left ++ right).map LockEntry.ga).dedup.insertionSort (· ≤ ·)

def diff (left right : List LockEntry) : LockDiff :=
  sortDiff ((allGas left right).foldl (fun out ga =>
    out ++ diffGroup (left.filter (·.ga = ga)) (right.filter (·.ga = ga))) {})

section Stages

variable {ga : String} {left right : List LockEntry}

namespace LockEntry

def kindKey (entry : LockEntry) : String × String × Option String :=
  (entry.ga, entry.type, entry.classifier)

def versionKey (entry : LockEntry) : String × String := (entry.ga, entry.version)

end LockEntry

open LockEntry

def matched (ga : String) (left right : List LockEntry) :
    List (LockEntry × LockEntry) × List LockEntry × List LockEntry :=
  pairOff (· == ·) (left.filter (·.ga = ga)) (right.filter (·.ga = ga))

def changed (ga : String) (left right : List LockEntry) :
    List (LockEntry × LockEntry) × List LockEntry × List LockEntry :=
  pairOff sameKind (matched ga left right).2.1 (matched ga left right).2.2

def retyped (ga : String) (left right : List LockEntry) :
    List (LockEntry × LockEntry) × List LockEntry × List LockEntry :=
  pairOff sameVersion (changed ga left right).2.1 (changed ga left right).2.2

theorem matched_sublist :
    (matched ga left right).2.1 <+ left ∧ (matched ga left right).2.2 <+ right :=
  ⟨(sublist_pairOff_left _ _).trans filter_sublist,
    (sublist_pairOff_right _ _).trans filter_sublist⟩

theorem changed_sublist :
    (changed ga left right).2.1 <+ left ∧ (changed ga left right).2.2 <+ right :=
  ⟨(sublist_pairOff_left _ _).trans matched_sublist.1,
    (sublist_pairOff_right _ _).trans matched_sublist.2⟩

theorem retyped_sublist :
    (retyped ga left right).2.1 <+ left ∧ (retyped ga left right).2.2 <+ right :=
  ⟨(sublist_pairOff_left _ _).trans changed_sublist.1,
    (sublist_pairOff_right _ _).trans changed_sublist.2⟩

def Gone (left right : List LockEntry) : LockEntry → Prop :=
  Unmatched (· ∈ left) (· ∈ right) id

def Lone (left right : List LockEntry) : LockEntry → Prop :=
  Unmatched (Gone left right) (Gone right left) kindKey

def Dropped (left right : List LockEntry) : LockEntry → Prop :=
  Unmatched (Lone left right) (Lone right left) versionKey

/-- The list holds the entries of one `group:artifact` which have the property. -/
structure Lists (ga : String) (entries : List LockEntry) (ours : LockEntry → Prop) : Prop where
  nodup : entries.Nodup
  mem : ∀ entry, entry ∈ entries ↔ ours entry ∧ entry.ga = ga

section Pass

variable {κ : Type} {fits : LockEntry → LockEntry → Bool} {key : LockEntry → κ}
  {ours theirs : LockEntry → Prop} (lists : Lists ga left ours) (lists' : Lists ga right theirs)
  (fit : ∀ entry other, entry.ga = other.ga → (fits entry other ↔ key entry = key other))
  (keyed : ∀ entry other, key entry = key other → entry.ga = other.ga)
  (one : OneToOne ours theirs key)

include lists lists' fit in
theorem Lists.fits_iff : ∀ entry ∈ left, ∀ other ∈ right,
    fits entry other ↔ key entry = key other := by
  intro entry mem other mem'
  exact fit entry other
    (((lists.mem entry).mp mem).2.trans ((lists'.mem other).mp mem').2.symm)

include lists lists' one in
theorem Lists.oneToOne : OneToOne (· ∈ left) (· ∈ right) key := by
  intro entry other mem mem' same
  rcases one entry other ((lists.mem _).mp mem).1 ((lists'.mem _).mp mem').1 same with
    ⟨alone, alone'⟩
  exact ⟨fun entry' mem => alone entry' ((lists.mem _).mp mem).1,
    fun other' mem => alone' other' ((lists'.mem _).mp mem).1⟩

include lists lists' fit keyed one

theorem Lists.paired (entry other : LockEntry) : (entry, other) ∈ (pairOff fits left right).1 ↔
    ours entry ∧ theirs other ∧ key entry = key other ∧ entry.ga = ga := by
  rw [mem_pairOff (lists.fits_iff lists' fit) (lists.oneToOne lists' one), lists.mem, lists'.mem]
  constructor
  · rintro ⟨⟨mem, inGroup⟩, ⟨mem', -⟩, same⟩
    exact ⟨mem, mem', same, inGroup⟩
  · rintro ⟨mem, mem', same, inGroup⟩
    exact ⟨⟨mem, inGroup⟩, ⟨mem', (keyed entry other same).symm.trans inGroup⟩, same⟩

theorem Lists.unpaired : Lists ga (pairOff fits left right).2.1 (Unmatched ours theirs key) where
  nodup := lists.nodup.sublist (sublist_pairOff_left left right)
  mem := by
    intro entry
    rw [mem_unpaired (lists.fits_iff lists' fit) (lists.oneToOne lists' one) lists.nodup, Unmatched,
      lists.mem]
    constructor
    · rintro ⟨⟨mem, inGroup⟩, none⟩
      refine ⟨⟨mem, fun other mem' same => none other ?_ same⟩, inGroup⟩
      exact (lists'.mem other).mpr ⟨mem', (keyed entry other same).symm.trans inGroup⟩
    · rintro ⟨⟨mem, none⟩, inGroup⟩
      exact ⟨⟨mem, inGroup⟩, fun other mem' => none other ((lists'.mem other).mp mem').1⟩

theorem Lists.rest : Lists ga (pairOff fits left right).2.2 (Unmatched theirs ours key) where
  nodup := lists'.nodup.sublist (sublist_pairOff_right left right)
  mem := by
    intro other
    rw [mem_rest (lists.fits_iff lists' fit) (lists.oneToOne lists' one) lists'.nodup, Unmatched,
      lists'.mem]
    constructor
    · rintro ⟨⟨mem', inGroup⟩, none⟩
      refine ⟨⟨mem', fun entry mem same => none entry ?_ same⟩, inGroup⟩
      exact (lists.mem entry).mpr ⟨mem, (keyed other entry same).symm.trans inGroup⟩
    · rintro ⟨⟨mem', none⟩, inGroup⟩
      exact ⟨⟨mem', inGroup⟩, fun entry mem => none entry ((lists.mem entry).mp mem).1⟩

end Pass

theorem fit_kind (entry other : LockEntry) (same : entry.ga = other.ga) :
    sameKind entry other ↔ entry.kindKey = other.kindKey := by
  simp only [sameKind, kindKey, same, decide_eq_true_eq, Prod.mk.injEq, true_and]
  exact and_congr eq_comm eq_comm

theorem fit_version (entry other : LockEntry) (same : entry.ga = other.ga) :
    sameVersion entry other ↔ entry.versionKey = other.versionKey := by
  simp only [sameVersion, versionKey, same, decide_eq_true_eq, Prod.mk.injEq, true_and]
  exact eq_comm

section Lists

variable (distinct : left.Nodup) (distinct' : right.Nodup)

theorem lists_filter {entries : List LockEntry} (nodup : entries.Nodup) :
    Lists ga (entries.filter (·.ga = ga)) (· ∈ entries) where
  nodup := nodup.filter _
  mem := by simp

theorem oneToOne_id {ours theirs : LockEntry → Prop} : OneToOne ours theirs id := by
  intro entry other _ _ same
  exact ⟨fun _ _ same => same, fun _ _ same => same⟩

include distinct distinct'

theorem lists_matched : Lists ga (matched ga left right).2.1 (Gone left right) ∧
    Lists ga (matched ga left right).2.2 (Gone right left) := by
  have lists : Lists ga _ _ := lists_filter distinct
  have lists' : Lists ga _ _ := lists_filter distinct'
  exact ⟨lists.unpaired lists' (by simp) (by simp) oneToOne_id,
    lists.rest lists' (by simp) (by simp) oneToOne_id⟩

theorem nodup_changed : (changed ga left right).1.Nodup :=
  nodup_pairs (lists_matched distinct distinct').1.nodup

variable (kinds : OneToOne (Gone left right) (Gone right left) kindKey)

include kinds

theorem mem_changed (entry other : LockEntry) : (entry, other) ∈ (changed ga left right).1 ↔
    Gone left right entry ∧ Gone right left other ∧ entry.kindKey = other.kindKey ∧
      entry.ga = ga := by
  rcases @lists_matched ga left right distinct distinct' with ⟨lists, lists'⟩
  exact lists.paired lists' fit_kind (fun _ _ => congrArg Prod.fst) kinds entry other

theorem lists_changed : Lists ga (changed ga left right).2.1 (Lone left right) ∧
    Lists ga (changed ga left right).2.2 (Lone right left) := by
  rcases @lists_matched ga left right distinct distinct' with ⟨lists, lists'⟩
  exact ⟨lists.unpaired lists' fit_kind (fun _ _ => congrArg Prod.fst) kinds,
    lists.rest lists' fit_kind (fun _ _ => congrArg Prod.fst) kinds⟩

theorem nodup_retyped : (retyped ga left right).1.Nodup :=
  nodup_pairs (lists_changed distinct distinct' kinds).1.nodup

variable (versions : OneToOne (Lone left right) (Lone right left) versionKey)

include versions

theorem mem_retyped (entry other : LockEntry) : (entry, other) ∈ (retyped ga left right).1 ↔
    Lone left right entry ∧ Lone right left other ∧ entry.versionKey = other.versionKey ∧
      entry.ga = ga := by
  rcases @lists_changed ga left right distinct distinct' kinds with ⟨lists, lists'⟩
  exact lists.paired lists' fit_version (fun _ _ => congrArg Prod.fst) versions entry other

theorem lists_retyped : Lists ga (retyped ga left right).2.1 (Dropped left right) ∧
    Lists ga (retyped ga left right).2.2 (Dropped right left) := by
  rcases @lists_changed ga left right distinct distinct' kinds with ⟨lists, lists'⟩
  exact ⟨lists.unpaired lists' fit_version (fun _ _ => congrArg Prod.fst) versions,
    lists.rest lists' fit_version (fun _ _ => congrArg Prod.fst) versions⟩

end Lists

end Stages

section Texts

theorem cut_chars {separator : Char} {first first' rest rest' : List Char}
    (plain : separator ∉ first) (plain' : separator ∉ first')
    (same : first ++ separator :: rest = first' ++ separator :: rest') :
    first = first' ∧ rest = rest' := by
  induction first generalizing first' with
  | nil => cases first' <;> simp_all
  | cons char first ih =>
    rw [mem_cons, not_or] at plain
    rcases first' with _ | ⟨char', first'⟩
    · exact absurd (cons.inj same).1.symm plain.1
    · rw [mem_cons, not_or] at plain'
      simp only [cons_append, cons.injEq] at same
      rcases ih plain.2 plain'.2 same.2 with ⟨rfl, rfl⟩
      exact ⟨by rw [same.1], rfl⟩

theorem cut {first first' rest rest' : String} (plain : ':' ∉ first.toList)
    (plain' : ':' ∉ first'.toList) (same : first ++ ":" ++ rest = first' ++ ":" ++ rest') :
    first = first' ∧ rest = rest' := by
  have chars : first.toList ++ ':' :: rest.toList = first'.toList ++ ':' :: rest'.toList := by
    simpa using congrArg String.toList same
  rcases cut_chars plain plain' chars with ⟨firsts, rests⟩
  exact ⟨String.toList_injective firsts, String.toList_injective rests⟩

/-- The separator of the coordinates is in none of the parts before the classifier. -/
structure LockEntry.Plain (entry : LockEntry) : Prop where
  group : ':' ∉ entry.groupId.toList
  artifact : ':' ∉ entry.artifactId.toList
  type : ':' ∉ entry.type.toList

namespace LockEntry

variable {entry other : LockEntry} (plain : entry.Plain) (plain' : other.Plain)

include plain plain'

theorem ids_of_ga (same : entry.ga = other.ga) :
    entry.groupId = other.groupId ∧ entry.artifactId = other.artifactId :=
  cut plain.group plain'.group same

theorem eq_of_keys (kinds : entry.kindKey = other.kindKey)
    (versions : entry.version = other.version) (scopes : entry.scope = other.scope) :
    entry = other := by
  simp only [kindKey, Prod.mk.injEq] at kinds
  rcases ids_of_ga plain plain' kinds.1 with ⟨groups, artifacts⟩
  cases entry
  cases other
  simp_all

theorem kind_of_shortType (same : entry.shortType = other.shortType) :
    entry.type = other.type ∧ entry.classifier = other.classifier := by
  have apart : ∀ (type : String) (rest rest' : String), ':' ∉ type.toList →
      type ≠ rest ++ ":" ++ rest' := by
    rintro type rest rest' plain rfl
    simp at plain
  unfold shortType at same
  rcases found : entry.classifier with _ | classifier <;>
    rcases found' : other.classifier with _ | classifier' <;> simp only [found, found'] at same
  · exact ⟨same, rfl⟩
  · exact absurd same (apart _ _ _ plain.type)
  · exact absurd same.symm (apart _ _ _ plain'.type)
  · rcases cut plain.type plain'.type same with ⟨types, rfl⟩
    exact ⟨types, rfl⟩

omit plain plain' in
theorem coordsKey_eq : entry.coordsKey =
    entry.groupId ++ ":" ++ (entry.artifactId ++ ":" ++ entry.shortType) := by
  cases found : entry.classifier <;> simp [coordsKey, shortType, found, String.append_assoc]

omit plain plain' in
theorem displayCoords_eq : entry.displayCoords =
    entry.groupId ++ ":" ++ (if entry.type = "jar" ∧ entry.classifier = none then entry.artifactId
      else entry.artifactId ++ ":" ++ entry.shortType) := by
  apply String.toList_injective
  by_cases jar : entry.type = "jar" <;> cases found : entry.classifier <;>
    simp [displayCoords, ga, shortType, found, jar]

omit plain plain' in
theorem coordsKey_of_kindKey (kinds : entry.kindKey = other.kindKey) :
    entry.coordsKey = other.coordsKey := by
  simp only [kindKey, ga, Prod.mk.injEq] at kinds
  simp only [coordsKey, kinds]

theorem kindKey_of_coordsKey (same : entry.coordsKey = other.coordsKey) :
    entry.kindKey = other.kindKey := by
  rw [coordsKey_eq, coordsKey_eq] at same
  rcases cut plain.group plain'.group same with ⟨groups, rest⟩
  rcases cut plain.artifact plain'.artifact rest with ⟨artifacts, kinds⟩
  rcases kind_of_shortType plain plain' kinds with ⟨types, classifiers⟩
  simp [kindKey, ga, groups, artifacts, types, classifiers]

theorem kindKey_of_displayCoords (same : entry.displayCoords = other.displayCoords) :
    entry.kindKey = other.kindKey := by
  have apart : ∀ (part : String) (rest rest' : String), ':' ∉ part.toList →
      part ≠ rest ++ ":" ++ rest' := by
    rintro part rest rest' plain rfl
    simp at plain
  rw [displayCoords_eq, displayCoords_eq] at same
  rcases cut plain.group plain'.group same with ⟨groups, rest⟩
  split_ifs at rest with jar jar' jar'
  · simp [kindKey, ga, groups, rest, jar, jar']
  · exact absurd rest (apart _ _ _ plain.artifact)
  · exact absurd rest.symm (apart _ _ _ plain'.artifact)
  · rcases cut plain.artifact plain'.artifact rest with ⟨artifacts, kinds⟩
    rcases kind_of_shortType plain plain' kinds with ⟨types, classifiers⟩
    simp [kindKey, ga, groups, artifacts, types, classifiers]

theorem keys_of_typeChange (same : entry.ga ++ ":" ++ entry.version =
      other.ga ++ ":" ++ other.version) : entry.versionKey = other.versionKey := by
  simp only [ga, String.append_assoc] at same
  rcases cut plain.group plain'.group (by simpa [String.append_assoc] using same) with
    ⟨groups, rest⟩
  rcases cut plain.artifact plain'.artifact (by simpa [String.append_assoc] using rest) with
    ⟨artifacts, versions⟩
  simp [versionKey, ga, groups, artifacts, versions]

end LockEntry

end Texts

section Report

/-- One of the lists of a difference. -/
structure Category (β : Type) where
  list : LockDiff → List β
  empty : list {} = []
  append : ∀ first second, list (first ++ second) = list first ++ list second
  perm : ∀ {pairs pairs' : List Change} {gone gone' new new' : List LockEntry},
    pairs.Perm pairs' → gone.Perm gone' → new.Perm new' →
      (list { reclassified := pairs, removed := gone, added := new }).Perm
        (list { reclassified := pairs', removed := gone', added := new' })
  sorted : ∀ diff, (list (sortDiff diff)).Perm (list diff)

namespace Category

def added : Category LockEntry :=
  ⟨LockDiff.added, rfl, fun _ _ => rfl, fun _ _ new => new, fun _ => perm_insertionSort _ _⟩
def removed : Category LockEntry :=
  ⟨LockDiff.removed, rfl, fun _ _ => rfl, fun _ gone _ => gone, fun _ => perm_insertionSort _ _⟩
def upgraded : Category Change :=
  ⟨LockDiff.upgraded, rfl, fun _ _ => rfl, fun _ _ _ => .refl _, fun _ => perm_insertionSort _ _⟩
def downgraded : Category Change := ⟨LockDiff.downgraded, rfl, fun _ _ => rfl,
  fun _ _ _ => .refl _, fun _ => perm_insertionSort _ _⟩
def rescoped : Category Change :=
  ⟨LockDiff.rescoped, rfl, fun _ _ => rfl, fun _ _ _ => .refl _, fun _ => perm_insertionSort _ _⟩
def reclassified : Category Change := ⟨LockDiff.reclassified, rfl, fun _ _ => rfl,
  fun pairs _ _ => pairs, fun _ => perm_insertionSort _ _⟩

variable {α β : Type} (category : Category β)

theorem list_foldl (items : List α) (diff : α → LockDiff) (start : LockDiff) :
    category.list (items.foldl (fun out item => out ++ diff item) start) =
      category.list start ++ items.flatMap fun item => category.list (diff item) := by
  induction items generalizing start with
  | nil => simp
  | cons item items ih => simp [ih, category.append]

end Category

theorem nodup_allGas (left right : List LockEntry) : (allGas left right).Nodup :=
  (perm_insertionSort _ _).nodup_iff.mpr (nodup_dedup _)

theorem ga_mem_allGas {left right : List LockEntry} {entry : LockEntry}
    (mem : entry ∈ left ++ right) : entry.ga ∈ allGas left right :=
  (mem_insertionSort _).mpr (mem_dedup.mpr (mem_map_of_mem mem))

/-- The differences of all groups, before they are sorted. -/
def collected (left right : List LockEntry) : LockDiff :=
  (allGas left right).foldl (fun out ga =>
    out ++ diffGroup (left.filter (·.ga = ga)) (right.filter (·.ga = ga))) {}

variable {β : Type} (category : Category β) (left right : List LockEntry)

theorem list_collected : category.list (collected left right) =
    (allGas left right).flatMap fun ga =>
      ((changed ga left right).1.flatMap fun pair => category.list (pairChange pair.1 pair.2)) ++
        category.list { reclassified := (retyped ga left right).1.map typeChange,
                        removed := (retyped ga left right).2.1,
                        added := (retyped ga left right).2.2 } := by
  rw [collected, category.list_foldl, category.empty, nil_append]
  refine flatMap_congr fun ga _ => ?_
  rw [diffGroup, category.append, category.list_foldl, category.empty, nil_append]
  rfl

theorem list_leftover (silent : ∀ entry other, category.list (pairChange entry other) = []) :
    category.list (collected left right) = (allGas left right).flatMap fun ga =>
      category.list { reclassified := (retyped ga left right).1.map typeChange,
                      removed := (retyped ga left right).2.1,
                      added := (retyped ga left right).2.2 } := by
  rw [list_collected]
  refine flatMap_congr fun ga _ => ?_
  have none : ((changed ga left right).1.flatMap fun pair =>
      category.list (pairChange pair.1 pair.2)) = [] :=
    flatMap_eq_nil_iff.mpr fun pair _ => silent pair.1 pair.2
  rw [none, nil_append]

end Report

open LockEntry

/-- No two entries agree in coordinates, type, classifier and version. -/
structure Listed (entries : List LockEntry) : Prop where
  plain : ∀ entry ∈ entries, entry.Plain
  distinct : (entries.map fun entry => (entry.kindKey, entry.version)).Nodup

namespace Listed

variable {entries : List LockEntry} (listed : Listed entries)

include listed

theorem nodup : entries.Nodup := listed.distinct.of_map _

theorem eq_of {entry other : LockEntry} (mem : entry ∈ entries) (mem' : other ∈ entries)
    (kinds : entry.kindKey = other.kindKey) (versions : entry.version = other.version) :
    entry = other :=
  inj_on_of_nodup_map listed.distinct mem mem' (Prod.ext kinds versions)

theorem perm {entries' : List LockEntry} (perm : entries.Perm entries') : Listed entries' where
  plain := fun entry mem => listed.plain entry (perm.mem_iff.mpr mem)
  distinct := (perm.map _).nodup_iff.mp listed.distinct

end Listed

/-- No pass has a choice, and of each kind at most one entry is left to be listed. -/
structure Unambiguous (left right : List LockEntry) : Prop where
  kinds : OneToOne (Gone left right) (Gone right left) kindKey
  versions : OneToOne (Lone left right) (Lone right left) versionKey
  removed : ∀ entry other, Dropped left right entry → Dropped left right other →
    entry.kindKey = other.kindKey → entry = other
  added : ∀ entry other, Dropped right left entry → Dropped right left other →
    entry.kindKey = other.kindKey → entry = other

section PairChange

variable {entry other : LockEntry} {change : Change}

theorem mem_upgraded (reported : change ∈ (pairChange entry other).upgraded) :
    entry.version ≠ other.version ∧
      change = ⟨entry.displayCoords, entry.version, other.version⟩ := by
  unfold pairChange at reported
  split_ifs at reported <;> simp_all

theorem mem_downgraded (reported : change ∈ (pairChange entry other).downgraded) :
    entry.version ≠ other.version ∧
      change = ⟨entry.displayCoords, entry.version, other.version⟩ := by
  unfold pairChange at reported
  split_ifs at reported <;> simp_all

theorem mem_rescoped (reported : change ∈ (pairChange entry other).rescoped) :
    entry.version = other.version ∧
      change = ⟨entry.displayCoords, entry.scope, other.scope⟩ := by
  unfold pairChange at reported
  split_ifs at reported <;> simp_all

theorem reclassified_pairChange : (pairChange entry other).reclassified = [] := by
  unfold pairChange
  split_ifs <;> rfl

theorem removed_pairChange : (pairChange entry other).removed = [] := by
  unfold pairChange
  split_ifs <;> rfl

theorem added_pairChange : (pairChange entry other).added = [] := by
  unfold pairChange
  split_ifs <;> rfl

end PairChange

section Members

variable {left right : List LockEntry} {ga : String} (listed : Listed left)
  (listed' : Listed right)

theorem Gone.mem {entry : LockEntry} (gone : Gone left right entry) : entry ∈ left := gone.1

include listed listed'

theorem gone_of_changed {entry other : LockEntry} (paired : (entry, other) ∈
    (changed ga left right).1) : Gone left right entry ∧ Gone right left other ∧
      entry.kindKey = other.kindKey ∧ entry.ga = ga := by
  rcases @lists_matched ga left right listed.nodup listed'.nodup with ⟨lists, lists'⟩
  have mem := (pairOff_left _ _).subset (mem_append_left _ (mem_map_of_mem paired))
  have mem' := (pairOff_right _ _).subset (mem_append_left _ (mem_map_of_mem paired))
  rcases (lists.mem entry).mp mem with ⟨gone, inGroup⟩
  rcases (lists'.mem other).mp mem' with ⟨gone', inGroup'⟩
  have meets := fits_of_mem_pairOff paired
  exact ⟨gone, gone', (fit_kind entry other (inGroup.trans inGroup'.symm)).mp meets, inGroup⟩

theorem lone_of_retyped (kinds : OneToOne (Gone left right) (Gone right left) kindKey)
    {entry other : LockEntry} (paired : (entry, other) ∈ (retyped ga left right).1) :
    Lone left right entry ∧ Lone right left other ∧ entry.versionKey = other.versionKey ∧
      entry.ga = ga := by
  rcases @lists_changed ga left right listed.nodup listed'.nodup kinds with ⟨lists, lists'⟩
  have mem := (pairOff_left _ _).subset (mem_append_left _ (mem_map_of_mem paired))
  have mem' := (pairOff_right _ _).subset (mem_append_left _ (mem_map_of_mem paired))
  rcases (lists.mem entry).mp mem with ⟨lone, inGroup⟩
  rcases (lists'.mem other).mp mem' with ⟨lone', inGroup'⟩
  have meets := fits_of_mem_pairOff paired
  exact ⟨lone, lone', (fit_version entry other (inGroup.trans inGroup'.symm)).mp meets, inGroup⟩

theorem mem_change_iff (category : Category Change)
    (nothing : ∀ pairs gone new,
      category.list { reclassified := pairs, removed := gone, added := new } = [])
    {change : Change} : change ∈ category.list (collected left right) ↔
      ∃ entry other, (entry, other) ∈ (changed entry.ga left right).1 ∧
        change ∈ category.list (pairChange entry other) := by
  simp only [list_collected, nothing, append_nil, mem_flatMap, Prod.exists]
  constructor
  · rintro ⟨ga, -, entry, other, paired, reported⟩
    rw [← (gone_of_changed listed listed' paired).2.2.2] at paired
    exact ⟨entry, other, paired, reported⟩
  · rintro ⟨entry, other, paired, reported⟩
    have mem := (gone_of_changed listed listed' paired).1.mem
    exact ⟨entry.ga, ga_mem_allGas (mem_append_left _ mem), entry, other, paired, reported⟩

theorem mem_reclassified_iff (kinds : OneToOne (Gone left right) (Gone right left) kindKey)
    {change : Change} : change ∈ (collected left right).reclassified ↔
      ∃ entry other, (entry, other) ∈ (retyped entry.ga left right).1 ∧
        typeChange (entry, other) = change := by
  have list := list_leftover .reclassified left right fun _ _ => reclassified_pairChange
  simp only [Category.reclassified] at list
  simp only [list, mem_flatMap, mem_map, Prod.exists]
  constructor
  · rintro ⟨ga, -, entry, other, paired, reported⟩
    rw [← (lone_of_retyped listed listed' kinds paired).2.2.2] at paired
    exact ⟨entry, other, paired, reported⟩
  · rintro ⟨entry, other, paired, reported⟩
    have mem := (lone_of_retyped listed listed' kinds paired).1.1.mem
    exact ⟨entry.ga, ga_mem_allGas (mem_append_left _ mem), entry, other, paired, reported⟩

end Members

end Barista.Lockfile
