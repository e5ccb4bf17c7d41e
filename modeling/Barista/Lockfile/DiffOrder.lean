import Barista.Lockfile.Diff

/-!
# When the order of the entries matters to the difference of two lockfiles

If no pass has a choice, then each list of the difference has the same members in every order, and
their sort keys differ.  Conversely two entries between which a pass has a choice can be brought to
the front, and then the difference names them.
-/

namespace Barista.Lockfile

open List Pairing LockEntry

section Sorted

variable {β : Type} {key : β → String} {items items' : List β}

instance totalByKey : Std.Total fun first second : β => key first ≤ key second :=
  ⟨fun first second => String.le_total (key first) (key second)⟩

instance transByKey : IsTrans β fun first second => key first ≤ key second :=
  ⟨fun _ _ _ => String.le_trans⟩

theorem insertionSort_eq_of_perm (perm : items'.Perm items)
    (apart : ∀ first ∈ items, ∀ second ∈ items, key first = key second → first = second) :
    items'.insertionSort (key · ≤ key ·) = items.insertionSort (key · ≤ key ·) := by
  have whole := perm_insertionSort (key · ≤ key ·) items
  refine Perm.eq_of_pairwise ?_ (pairwise_insertionSort _ _) (pairwise_insertionSort _ _)
    (((perm_insertionSort _ _).trans perm).trans whole.symm)
  intro first second mem mem' le ge
  have mem := ((perm_insertionSort _ _).trans perm).subset mem
  exact apart first mem second (whole.subset mem') (String.le_antisymm le ge)

theorem eq_of_pair_sublist (nodup : items.Nodup) {first second : β}
    (before : [first, second] <+ items) (after : [second, first] <+ items) : first = second := by
  induction items with
  | nil => cases before
  | cons item items ih =>
    rw [nodup_cons] at nodup
    cases before with
    | cons _ before =>
      cases after with
      | cons _ after => exact ih nodup.2 before after
      | cons_cons _ after => exact absurd (before.subset (by simp)) nodup.1
    | cons_cons _ before =>
      cases after with
      | cons _ after => exact absurd (after.subset (by simp)) nodup.1
      | cons_cons _ _ => rfl

/-- A stable sort shows in which order two items of one key came. -/
theorem eq_of_insertionSort_eq (nodup : items.Nodup) {first second : β}
    (keys : key first = key second) (before : [first, second] <+ items)
    (after : [second, first] <+ items')
    (same : items'.insertionSort (key · ≤ key ·) = items.insertionSort (key · ≤ key ·)) :
    first = second := by
  have kept : [first, second] <+ items.insertionSort (key · ≤ key ·) :=
    pair_sublist_insertionSort (keys ▸ String.le_refl _) before
  have swapped : [second, first] <+ items'.insertionSort (key · ≤ key ·) :=
    pair_sublist_insertionSort (keys ▸ String.le_refl _) after
  rw [same] at swapped
  exact eq_of_pair_sublist ((perm_insertionSort _ _).nodup_iff.mpr nodup) kept swapped

end Sorted

section Perm

variable {left left' right right' : List LockEntry} (perm : left.Perm left')
  (perm' : right.Perm right')

include perm perm'

theorem allGas_of_perm : allGas left' right' = allGas left right := by
  have same := (((perm.append perm').map LockEntry.ga).dedup).symm
  refine Perm.eq_of_pairwise (fun _ _ _ _ => String.le_antisymm) (pairwise_insertionSort _ _)
    (pairwise_insertionSort _ _) ?_
  exact ((perm_insertionSort _ _).trans same).trans (perm_insertionSort _ _).symm

theorem gone_of_perm : Gone left' right' = Gone left right := by
  funext entry
  simp only [Gone, Unmatched, perm.mem_iff, perm'.mem_iff]

theorem lone_of_perm : Lone left' right' = Lone left right := by
  simp only [Lone, gone_of_perm perm perm', gone_of_perm perm' perm]

theorem dropped_of_perm : Dropped left' right' = Dropped left right := by
  simp only [Dropped, lone_of_perm perm perm', lone_of_perm perm' perm]

end Perm

theorem Lists.perm {ga : String} {ours : LockEntry → Prop} {entries entries' : List LockEntry}
    (lists : Lists ga entries ours) (lists' : Lists ga entries' ours) : entries.Perm entries' :=
  (perm_ext_iff_of_nodup lists.nodup lists'.nodup).mpr fun entry => by
    rw [lists.mem, lists'.mem]

theorem removed_collected (left right : List LockEntry) : (collected left right).removed =
    (allGas left right).flatMap fun ga => (retyped ga left right).2.1 :=
  list_leftover .removed left right fun _ _ => removed_pairChange

theorem added_collected (left right : List LockEntry) : (collected left right).added =
    (allGas left right).flatMap fun ga => (retyped ga left right).2.2 :=
  list_leftover .added left right fun _ _ => added_pairChange

theorem mem_flatMap_lists {pick : String → List LockEntry} {ours : LockEntry → Prop}
    (lists : ∀ ga, Lists ga (pick ga) ours) {gas : List String} {entry : LockEntry} :
    entry ∈ gas.flatMap pick ↔ ours entry ∧ entry.ga ∈ gas := by
  simp only [mem_flatMap, (lists _).mem]
  constructor
  · rintro ⟨ga, mem, has, rfl⟩
    exact ⟨has, mem⟩
  · rintro ⟨has, mem⟩
    exact ⟨entry.ga, mem, has, rfl⟩

section Sufficient

variable {left right : List LockEntry} (listed : Listed left) (listed' : Listed right)
  (settled : Unambiguous left right)

include listed listed' settled

theorem perm_collected {left' right' : List LockEntry} (perm : left.Perm left')
    (perm' : right.Perm right') {β : Type} (category : Category β) :
    (category.list (collected left' right')).Perm (category.list (collected left right)) := by
  have kinds' : OneToOne (Gone left' right') (Gone right' left') kindKey := by
    rw [gone_of_perm perm perm', gone_of_perm perm' perm]
    exact settled.kinds
  have versions' : OneToOne (Lone left' right') (Lone right' left') versionKey := by
    rw [lone_of_perm perm perm', lone_of_perm perm' perm]
    exact settled.versions
  have again := (listed.perm perm).nodup
  have again' := (listed'.perm perm').nodup
  rw [list_collected, list_collected, allGas_of_perm perm perm']
  refine Perm.flatMap_left _ fun ga _ => ?_
  have pairs : (changed ga left' right').1.Perm (changed ga left right).1 := by
    refine (perm_ext_iff_of_nodup (nodup_changed again again')
      (nodup_changed listed.nodup listed'.nodup)).mpr ?_
    rintro ⟨entry, other⟩
    rw [mem_changed again again' kinds', mem_changed listed.nodup listed'.nodup settled.kinds,
      gone_of_perm perm perm', gone_of_perm perm' perm]
  have types : (retyped ga left' right').1.Perm (retyped ga left right).1 := by
    refine (perm_ext_iff_of_nodup (nodup_retyped again again' kinds')
      (nodup_retyped listed.nodup listed'.nodup settled.kinds)).mpr ?_
    rintro ⟨entry, other⟩
    rw [mem_retyped again again' kinds' versions',
      mem_retyped listed.nodup listed'.nodup settled.kinds settled.versions,
      lone_of_perm perm perm', lone_of_perm perm' perm]
  rcases @lists_retyped ga left right listed.nodup listed'.nodup settled.kinds settled.versions
    with ⟨gone, new⟩
  rcases @lists_retyped ga left' right' again again' kinds' versions' with ⟨gone', new'⟩
  rw [dropped_of_perm perm perm'] at gone'
  rw [dropped_of_perm perm' perm] at new'
  exact (pairs.flatMap_right _).append
    (category.perm (types.map _) (gone'.perm gone) (new'.perm new))

theorem mem_removed_iff {entry : LockEntry} :
    entry ∈ (collected left right).removed ↔ Dropped left right entry := by
  have lists := fun ga => (@lists_retyped ga left right listed.nodup listed'.nodup settled.kinds
    settled.versions).1
  rw [removed_collected, mem_flatMap_lists lists, and_iff_left_iff_imp]
  exact fun dropped => ga_mem_allGas (mem_append_left _ dropped.1.1.mem)

theorem mem_added_iff {entry : LockEntry} :
    entry ∈ (collected left right).added ↔ Dropped right left entry := by
  have lists := fun ga => (@lists_retyped ga left right listed.nodup listed'.nodup settled.kinds
    settled.versions).2
  rw [added_collected, mem_flatMap_lists lists, and_iff_left_iff_imp]
  exact fun dropped => ga_mem_allGas (mem_append_right _ dropped.1.1.mem)

theorem change_unique (category : Category Change)
    (nothing : ∀ pairs gone new,
      category.list { reclassified := pairs, removed := gone, added := new } = [])
    {form : LockEntry → LockEntry → Change}
    (formed : ∀ entry other, ∀ change ∈ category.list (pairChange entry other),
      change = form entry other)
    (coords : ∀ entry other, (form entry other).coords = entry.displayCoords) :
    ∀ first ∈ category.list (collected left right),
      ∀ second ∈ category.list (collected left right),
        first.coords = second.coords → first = second := by
  intro first mem second mem' same
  rcases (mem_change_iff listed listed' category nothing).mp mem with
    ⟨entry, other, paired, reported⟩
  rcases (mem_change_iff listed listed' category nothing).mp mem' with
    ⟨entry', other', paired', reported'⟩
  rcases gone_of_changed listed listed' paired with ⟨gone, gone', kind, -⟩
  rcases gone_of_changed listed listed' paired' with ⟨again, again', kind', -⟩
  rw [formed _ _ _ reported, formed _ _ _ reported', coords, coords] at same
  have kinds := kindKey_of_displayCoords (listed.plain _ gone.mem) (listed.plain _ again.mem) same
  rcases settled.kinds entry other gone gone' kind with ⟨alone, alone'⟩
  rw [alone entry' again kinds.symm,
    alone' other' again' ((kind'.symm.trans kinds.symm).trans kind)]
    at reported'
  rw [formed _ _ _ reported, formed _ _ _ reported']

theorem retyping_unique :
    ∀ first ∈ (collected left right).reclassified, ∀ second ∈ (collected left right).reclassified,
      first.coords = second.coords → first = second := by
  intro first mem second mem' same
  rcases (mem_reclassified_iff listed listed' settled.kinds).mp mem with
    ⟨entry, other, paired, rfl⟩
  rcases (mem_reclassified_iff listed listed' settled.kinds).mp mem' with
    ⟨entry', other', paired', rfl⟩
  rcases lone_of_retyped listed listed' settled.kinds paired with ⟨lone, lone', version, -⟩
  rcases lone_of_retyped listed listed' settled.kinds paired' with ⟨again, again', version', -⟩
  have versions := keys_of_typeChange (listed.plain _ lone.1.mem) (listed.plain _ again.1.mem) same
  rcases settled.versions entry other lone lone' version with ⟨alone, alone'⟩
  rw [alone entry' again versions.symm,
    alone' other' again' ((version'.symm.trans versions.symm).trans version)]

theorem diff_of_unambiguous {left' right' : List LockEntry} (perm : left.Perm left')
    (perm' : right.Perm right') : diff left' right' = diff left right := by
  have perms := fun {β : Type} (category : Category β) =>
    perm_collected listed listed' settled perm perm' category
  have added : ∀ first ∈ (collected left right).added, ∀ second ∈ (collected left right).added,
      first.coordsKey = second.coordsKey → first = second := by
    intro first mem second mem' same
    rw [mem_added_iff listed listed' settled] at mem mem'
    exact settled.added first second mem mem' (kindKey_of_coordsKey
      (listed'.plain _ mem.1.1.mem) (listed'.plain _ mem'.1.1.mem) same)
  have removed : ∀ first ∈ (collected left right).removed,
      ∀ second ∈ (collected left right).removed,
        first.coordsKey = second.coordsKey → first = second := by
    intro first mem second mem' same
    rw [mem_removed_iff listed listed' settled] at mem mem'
    exact settled.removed first second mem mem' (kindKey_of_coordsKey
      (listed.plain _ mem.1.1.mem) (listed.plain _ mem'.1.1.mem) same)
  have changes := change_unique listed listed' settled
  change sortDiff (collected left' right') = sortDiff (collected left right)
  simp only [sortDiff, LockDiff.mk.injEq]
  refine ⟨insertionSort_eq_of_perm (perms .added) added,
    insertionSort_eq_of_perm (perms .removed) removed,
    insertionSort_eq_of_perm (perms .upgraded) ?_,
    insertionSort_eq_of_perm (perms .downgraded) ?_,
    insertionSort_eq_of_perm (perms .rescoped) ?_,
    insertionSort_eq_of_perm (perms .reclassified) (retyping_unique listed listed' settled)⟩
  · exact changes .upgraded (fun _ _ _ => rfl) (fun _ _ _ mem => (mem_upgraded mem).2)
      fun _ _ => rfl
  · exact changes .downgraded (fun _ _ _ => rfl) (fun _ _ _ mem => (mem_downgraded mem).2)
      fun _ _ => rfl
  · exact changes .rescoped (fun _ _ _ => rfl) (fun _ _ _ mem => (mem_rescoped mem).2)
      fun _ _ => rfl

end Sufficient

section Necessary

theorem head_of_sublist {α : Type} {entry : α} {entries rest : List α}
    (nodup : (entry :: rest).Nodup) (sub : entries <+ entry :: rest) (mem : entry ∈ entries) :
    ∃ entries', entries = entry :: entries' ∧ entries' <+ rest := by
  cases sub with
  | cons _ sub => exact absurd (sub.subset mem) (nodup_cons.mp nodup).1
  | cons_cons _ sub => exact ⟨_, rfl, sub⟩

/-- Two sides in which all entries with different values are matched, and some with one value as
soon as two could be, have no choice at all. -/
theorem eq_of_matching {α V : Type} {value : α → V} {ours theirs : α → Prop} {pair : α → α → Prop}
    (injective : ∀ entry entry', ours entry → ours entry' → value entry = value entry' →
      entry = entry')
    (injective' : ∀ other other', theirs other → theirs other' → value other = value other' →
      other = other')
    (differing : ∀ entry other, ours entry → theirs other → value entry ≠ value other →
      pair entry other)
    (agreeing : ∀ entry other, ours entry → theirs other → value entry = value other →
      ∃ entry' other', ours entry' ∧ theirs other' ∧ pair entry' other' ∧
        value entry' = value other')
    (unique : ∀ entry entry' other, pair entry other → pair entry' other → entry = entry')
    {entry entry' other : α} (mem : ours entry) (mem' : ours entry') (mem'' : theirs other) :
    entry = entry' := by
  -- An entry of the partner's value cannot stand beside one of another value.
  have alone : ∀ entry entry', ours entry → ours entry' → value entry = value other →
      value entry' ≠ value other → False := by
    intro entry entry' mem mem' same differ
    have taken := differing entry' other mem' mem'' differ
    rcases agreeing entry other mem mem'' same with ⟨first, second, ours, theirs, paired, agree⟩
    by_cases values : value entry = value second
    · have partner := injective' second other theirs mem'' (values.symm.trans same)
      subst partner
      exact differ (unique _ _ _ taken paired ▸ agree)
    · have meets := unique _ _ _ (differing entry second mem theirs values) paired
      exact values (meets ▸ agree)
  by_cases same : value entry = value other <;> by_cases same' : value entry' = value other
  · exact injective entry entry' mem mem' (same.trans same'.symm)
  · exact absurd (alone entry entry' mem mem' same same') id
  · exact absurd (alone entry' entry mem' mem same' same) id
  · exact unique _ _ _ (differing _ _ mem mem'' same) (differing _ _ mem' mem'' same')

variable {left right : List LockEntry} (listed : Listed left) (listed' : Listed right)

include listed listed'

theorem exists_changed {entry other : LockEntry} (gone : Gone left right entry)
    (gone' : Gone right left other) (kinds : entry.kindKey = other.kindKey) :
    ∃ left' right', left.Perm left' ∧ right.Perm right' ∧
      (entry, other) ∈ (changed entry.ga left' right').1 := by
  have perm := perm_cons_erase gone.mem
  have perm' := perm_cons_erase gone'.mem
  have again := (listed.perm perm).nodup
  have again' := (listed'.perm perm').nodup
  refine ⟨_, _, perm, perm', ?_⟩
  have groups : entry.ga = other.ga := congrArg Prod.fst kinds
  rcases @lists_matched entry.ga _ _ again again' with ⟨lists, lists'⟩
  have mem := (lists.mem entry).mpr ⟨by rwa [gone_of_perm perm perm'], rfl⟩
  have mem' := (lists'.mem other).mpr ⟨by rwa [gone_of_perm perm' perm], groups.symm⟩
  rcases head_of_sublist again matched_sublist.1 mem with ⟨rest, head, -⟩
  rcases head_of_sublist again' matched_sublist.2 mem' with ⟨rest', head', -⟩
  rw [changed, head, head']
  exact mem_pairOff_cons ((fit_kind entry other groups).mpr kinds)

theorem exists_retyped (kinds : OneToOne (Gone left right) (Gone right left) kindKey)
    {entry other : LockEntry} (lone : Lone left right entry) (lone' : Lone right left other)
    (versions : entry.versionKey = other.versionKey) :
    ∃ left' right', left.Perm left' ∧ right.Perm right' ∧
      OneToOne (Gone left' right') (Gone right' left') kindKey ∧
      (entry, other) ∈ (retyped entry.ga left' right').1 := by
  have perm := perm_cons_erase lone.1.mem
  have perm' := perm_cons_erase lone'.1.mem
  have again := (listed.perm perm).nodup
  have again' := (listed'.perm perm').nodup
  rw [← gone_of_perm perm perm', ← gone_of_perm perm' perm] at kinds
  refine ⟨_, _, perm, perm', kinds, ?_⟩
  have groups : entry.ga = other.ga := congrArg Prod.fst versions
  rcases @lists_changed entry.ga _ _ again again' kinds with ⟨lists, lists'⟩
  have mem := (lists.mem entry).mpr ⟨by rwa [lone_of_perm perm perm'], rfl⟩
  have mem' := (lists'.mem other).mpr ⟨by rwa [lone_of_perm perm' perm], groups.symm⟩
  rcases head_of_sublist again changed_sublist.1 mem with ⟨rest, head, -⟩
  rcases head_of_sublist again' changed_sublist.2 mem' with ⟨rest', head', -⟩
  rw [retyped, head, head']
  exact mem_pairOff_cons ((fit_version entry other groups).mpr versions)

variable (same : ∀ left' right', left.Perm left' → right.Perm right' →
  diff left' right' = diff left right)

include same

omit listed listed' in
theorem mem_collected {left' right' : List LockEntry} (perm : left.Perm left')
    (perm' : right.Perm right') {β : Type} (category : Category β) {item : β}
    (listed : item ∈ category.list (collected left' right')) :
    item ∈ category.list (collected left right) := by
  have moved : item ∈ category.list (diff left' right') := (category.sorted _).mem_iff.mpr listed
  rw [same left' right' perm perm'] at moved
  exact (category.sorted _).mem_iff.mp moved

theorem exists_reported (category : Category Change)
    (nothing : ∀ pairs gone new,
      category.list { reclassified := pairs, removed := gone, added := new } = [])
    {entry other : LockEntry} (gone : Gone left right entry) (gone' : Gone right left other)
    (kinds : entry.kindKey = other.kindKey) {change : Change}
    (reported : change ∈ category.list (pairChange entry other)) :
    ∃ entry' other', (entry', other') ∈ (changed entry'.ga left right).1 ∧
      change ∈ category.list (pairChange entry' other') := by
  rcases exists_changed listed listed' gone gone' kinds with ⟨left', right', perm, perm', paired⟩
  have mem := (mem_change_iff (listed.perm perm) (listed'.perm perm') category nothing).mpr
    ⟨entry, other, paired, reported⟩
  exact (mem_change_iff listed listed' category nothing).mp
    (mem_collected same perm perm' category mem)

theorem changed_of_versions {entry other : LockEntry} (gone : Gone left right entry)
    (gone' : Gone right left other) (kinds : entry.kindKey = other.kindKey)
    (differ : entry.version ≠ other.version) :
    (entry, other) ∈ (changed entry.ga left right).1 := by
  -- The report names the kind and both versions, and these name the entries.
  have named : ∃ entry' other', (entry', other') ∈ (changed entry'.ga left right).1 ∧
      (⟨entry.displayCoords, entry.version, other.version⟩ : Change) =
        ⟨entry'.displayCoords, entry'.version, other'.version⟩ := by
    by_cases less : compareVersions entry.version other.version = .lt
    · rcases exists_reported listed listed' same .upgraded (fun _ _ _ => rfl) gone gone' kinds
        (by simp [Category.upgraded, pairChange, differ, less]; rfl) with
          ⟨entry', other', paired, reported⟩
      exact ⟨entry', other', paired, (mem_upgraded reported).2⟩
    · rcases exists_reported listed listed' same .downgraded (fun _ _ _ => rfl) gone gone' kinds
        (by simp [Category.downgraded, pairChange, differ, less]; rfl) with
          ⟨entry', other', paired, reported⟩
      exact ⟨entry', other', paired, (mem_downgraded reported).2⟩
  rcases named with ⟨entry', other', paired, text⟩
  rw [Change.mk.injEq] at text
  rcases gone_of_changed listed listed' paired with ⟨again, again', kinds', -⟩
  have kind := kindKey_of_displayCoords (listed.plain _ gone.mem) (listed.plain _ again.mem) text.1
  rwa [← listed.eq_of gone.mem again.mem kind text.2.1,
    ← listed'.eq_of gone'.mem again'.mem ((kinds.symm.trans kind).trans kinds') text.2.2] at paired

/-- The entries of one kind which the first pass leaves. -/
def OfKind (left right : List LockEntry) (key : String × String × Option String)
    (entry : LockEntry) : Prop :=
  Gone left right entry ∧ entry.kindKey = key

theorem exists_changed_of_version {entry other : LockEntry} (gone : Gone left right entry)
    (gone' : Gone right left other) (kinds : entry.kindKey = other.kindKey)
    (agree : entry.version = other.version) :
    ∃ entry' other', (entry', other') ∈ (changed entry'.ga left right).1 ∧
      entry'.kindKey = entry.kindKey ∧ entry'.version = other'.version := by
  have scopes : entry.scope ≠ other.scope := by
    intro scopes
    refine gone.2 other gone'.mem ?_
    exact eq_of_keys (listed.plain _ gone.mem) (listed'.plain _ gone'.mem) kinds agree scopes
  rcases exists_reported listed listed' same .rescoped (fun _ _ _ => rfl) gone gone' kinds
    (by simp [Category.rescoped, pairChange, agree, scopes]; rfl) with
    ⟨entry', other', paired, reported⟩
  have again := (gone_of_changed listed listed' paired).1
  have coords := congrArg Change.coords (mem_rescoped reported).2
  exact ⟨entry', other', paired, kindKey_of_displayCoords (listed.plain _ again.mem)
    (listed.plain _ gone.mem) coords.symm, (mem_rescoped reported).1⟩

omit listed' same in
theorem OfKind.eq {key : String × String × Option String} {entry entry' : LockEntry}
    (mem : OfKind left right key entry) (mem' : OfKind left right key entry')
    (versions : entry.version = entry'.version) : entry = entry' :=
  listed.eq_of mem.1.mem mem'.1.mem (mem.2.trans mem'.2.symm) versions

theorem OfKind.meet {key : String × String × Option String} {entry other : LockEntry}
    (mem : OfKind left right key entry) (mem' : OfKind right left key other)
    (differ : entry.version ≠ other.version) :
    (entry, other) ∈ (changed key.1 left right).1 := by
  rw [← mem.2]
  exact changed_of_versions listed listed' same mem.1 mem'.1 (mem.2.trans mem'.2.symm) differ

theorem OfKind.agree {key : String × String × Option String} {entry other : LockEntry}
    (mem : OfKind left right key entry) (mem' : OfKind right left key other)
    (agree : entry.version = other.version) :
    ∃ entry' other', OfKind left right key entry' ∧ OfKind right left key other' ∧
      (entry', other') ∈ (changed key.1 left right).1 ∧ entry'.version = other'.version := by
  rcases exists_changed_of_version listed listed' same mem.1 mem'.1 (mem.2.trans mem'.2.symm) agree
    with ⟨entry', other', paired, kind, agree'⟩
  have kind := kind.trans mem.2
  rcases gone_of_changed listed listed' paired with ⟨gone, gone', both, -⟩
  refine ⟨entry', other', ⟨gone, kind⟩, ⟨gone', both.symm.trans kind⟩, ?_, agree'⟩
  rwa [← kind]

theorem kinds_of_same : OneToOne (Gone left right) (Gone right left) kindKey := by
  intro entry other gone gone' kind
  rcases @lists_matched entry.ga left right listed.nodup listed'.nodup with ⟨lists, lists'⟩
  have mem : OfKind left right entry.kindKey entry := ⟨gone, rfl⟩
  have mem' : OfKind right left entry.kindKey other := ⟨gone', kind.symm⟩
  constructor
  · intro entry' again kind'
    have meet : ∀ first second, OfKind left right entry.kindKey first →
        OfKind right left entry.kindKey second → first.version ≠ second.version →
          (first, second) ∈ (changed entry.ga left right).1 :=
      fun _ _ => OfKind.meet listed listed' same
    exact eq_of_matching (fun _ _ => OfKind.eq listed) (fun _ _ => OfKind.eq listed') meet
      (fun _ _ => OfKind.agree listed listed' same)
      (fun _ _ _ => partner_unique' lists'.nodup) ⟨again, kind'⟩ mem mem'
  · intro other' again kind'
    have meet : ∀ second first, OfKind right left entry.kindKey second →
        OfKind left right entry.kindKey first → second.version ≠ first.version →
          (first, second) ∈ (changed entry.ga left right).1 :=
      fun _ _ mem' mem differ => OfKind.meet listed listed' same mem mem' differ.symm
    refine eq_of_matching (fun _ _ => OfKind.eq listed') (fun _ _ => OfKind.eq listed) meet ?_
      (fun _ _ _ => partner_unique lists.nodup) ⟨again, kind'.trans kind.symm⟩ mem' mem
    intro second first mem' mem agree
    rcases OfKind.agree listed listed' same mem mem' agree.symm with
      ⟨first, second, mem, mem', paired, agree⟩
    exact ⟨second, first, mem', mem, paired, agree.symm⟩

theorem versions_of_same (kinds : OneToOne (Gone left right) (Gone right left) kindKey) :
    OneToOne (Lone left right) (Lone right left) versionKey := by
  have meet : ∀ entry other, Lone left right entry → Lone right left other →
      entry.versionKey = other.versionKey → (entry, other) ∈ (retyped entry.ga left right).1 := by
    intro entry other lone lone' version
    rcases exists_retyped listed listed' kinds lone lone' version with
      ⟨left', right', perm, perm', kinds', paired⟩
    have mem := (mem_reclassified_iff (listed.perm perm) (listed'.perm perm') kinds').mpr
      ⟨entry, other, paired, rfl⟩
    rcases (mem_reclassified_iff listed listed' kinds).mp
      (mem_collected same perm perm' .reclassified mem) with ⟨entry', other', paired', text⟩
    rcases lone_of_retyped listed listed' kinds paired' with ⟨again, again', version', -⟩
    simp only [typeChange, Change.mk.injEq] at text
    have plain := listed.plain _ lone.1.mem
    have plain' := listed'.plain _ lone'.1.mem
    have versions := keys_of_typeChange (listed.plain _ again.1.mem) plain text.1
    have kind := kind_of_shortType (listed.plain _ again.1.mem) plain text.2.1
    have kind' := kind_of_shortType (listed'.plain _ again'.1.mem) plain' text.2.2
    have versions' : other'.versionKey = other.versionKey :=
      (version'.symm.trans versions).trans version
    simp only [versionKey, Prod.mk.injEq] at versions versions'
    rwa [listed.eq_of again.1.mem lone.1.mem (by simp [kindKey, versions.1, kind]) versions.2,
      listed'.eq_of again'.1.mem lone'.1.mem (by simp [kindKey, versions'.1, kind']) versions'.2]
      at paired'
  intro entry other lone lone' version
  have distinct := @lists_changed entry.ga left right listed.nodup listed'.nodup kinds
  have paired := meet entry other lone lone' version
  constructor
  · intro entry' again version'
    have paired' := meet entry' other again lone' (version'.trans version)
    rw [show entry'.ga = entry.ga from congrArg Prod.fst version'] at paired'
    exact partner_unique' distinct.2.nodup paired' paired
  · intro other' again version'
    have paired' := meet entry other' lone again (version.trans version'.symm)
    exact partner_unique distinct.1.nodup paired' paired

omit listed listed' in
theorem same_of_perm {left' right' : List LockEntry} (perm : left.Perm left')
    (perm' : right.Perm right') : ∀ left'' right'', left'.Perm left'' → right'.Perm right'' →
      diff left'' right'' = diff left' right' := by
  intro left'' right'' again again'
  rw [same left'' right'' (perm.trans again) (perm'.trans again'), same left' right' perm perm']

end Necessary

section Leftover

theorem pair_sublist {α : Type} {first second : α} {entries rest : List α}
    (nodup : (first :: second :: rest).Nodup) (sub : entries <+ first :: second :: rest)
    (mem : first ∈ entries) (mem' : second ∈ entries) : [first, second] <+ entries := by
  rcases head_of_sublist nodup sub mem with ⟨entries, rfl, sub'⟩
  have differ : second ≠ first := fun same => (nodup_cons.mp nodup).1 (same ▸ mem_cons_self)
  rcases head_of_sublist (nodup_cons.mp nodup).2 sub' ((mem_cons.mp mem').resolve_left differ)
    with ⟨entries, rfl, -⟩
  exact ((nil_sublist _).cons_cons _).cons_cons _

variable {pick pick' : String → List LockEntry} {ours : LockEntry → Prop}
  (lists : ∀ ga, Lists ga (pick ga) ours)

include lists

theorem nodup_flatMap_lists {gas : List String} (distinct : gas.Nodup) :
    (gas.flatMap pick).Nodup := by
  refine nodup_flatMap.mpr ⟨fun ga _ => (lists ga).nodup, distinct.imp fun differ => ?_⟩
  intro entry mem mem'
  exact differ ((((lists _).mem _).mp mem).2.symm.trans (((lists _).mem _).mp mem').2)

theorem in_order {gas : List String} {entry other : LockEntry} {rest : List LockEntry}
    (nodup : (entry :: other :: rest).Nodup) (sub : pick entry.ga <+ entry :: other :: rest)
    (has : ours entry) (has' : ours other) (groups : entry.ga = other.ga)
    (mem : entry.ga ∈ gas) : [entry, other] <+ gas.flatMap pick := by
  rcases append_of_mem mem with ⟨before, after, rfl⟩
  rw [flatMap_append, flatMap_cons]
  refine (pair_sublist nodup sub ?_ ?_).trans
    ((sublist_append_left _ _).trans (sublist_append_right _ _))
  · exact ((lists _).mem entry).mpr ⟨has, rfl⟩
  · exact ((lists _).mem other).mpr ⟨has', groups.symm⟩

end Leftover

theorem exists_orders {entries : List LockEntry} {entry other : LockEntry} (mem : entry ∈ entries)
    (mem' : other ∈ entries) (differ : other ≠ entry) :
    ∃ rest, entries.Perm (entry :: other :: rest) ∧ entries.Perm (other :: entry :: rest) := by
  have first := perm_cons_erase mem
  have second := (perm_cons_erase ((mem_erase_of_ne differ).mpr mem')).cons entry
  exact ⟨_, first.trans second, (first.trans second).trans (.swap _ _ _)⟩

section Exact

variable {left right : List LockEntry} (listed : Listed left) (listed' : Listed right)
  (same : ∀ left' right', left.Perm left' → right.Perm right' →
    diff left' right' = diff left right)

include listed listed' same

theorem lists_of_same {left' right' : List LockEntry} (perm : left.Perm left')
    (perm' : right.Perm right') (ga : String) :
    Lists ga (retyped ga left' right').2.1 (Dropped left right) ∧
      Lists ga (retyped ga left' right').2.2 (Dropped right left) := by
  have again := listed.perm perm
  have again' := listed'.perm perm'
  have same' := same_of_perm same perm perm'
  have kinds := kinds_of_same again again' same'
  rw [← dropped_of_perm perm perm', ← dropped_of_perm perm' perm]
  exact lists_retyped again.nodup again'.nodup kinds (versions_of_same again again' same' kinds)

theorem removed_of_same (entry other : LockEntry) (dropped : Dropped left right entry)
    (dropped' : Dropped left right other) (kinds : entry.kindKey = other.kindKey) :
    entry = other := by
  by_contra differ
  rcases exists_orders dropped.1.1.mem dropped'.1.1.mem (Ne.symm differ) with
    ⟨rest, first, second⟩
  have groups : entry.ga = other.ga := congrArg Prod.fst kinds
  have lists := fun {left'} (perm : left.Perm left') ga =>
    (lists_of_same listed listed' same perm (.refl right) ga).1
  have before : [entry, other] <+ (collected (entry :: other :: rest) right).removed := by
    rw [removed_collected]
    exact in_order (lists first) (listed.perm first).nodup retyped_sublist.1 dropped dropped'
      groups (ga_mem_allGas (by simp))
  have after : [other, entry] <+ (collected (other :: entry :: rest) right).removed := by
    rw [removed_collected]
    exact in_order (lists second) (listed.perm second).nodup retyped_sublist.1 dropped' dropped
      groups.symm (ga_mem_allGas (by simp))
  have nodup : (collected (entry :: other :: rest) right).removed.Nodup := by
    rw [removed_collected]
    exact nodup_flatMap_lists (lists first) (nodup_allGas _ _)
  have unchanged := congrArg LockDiff.removed
    ((same _ _ second (.refl _)).trans (same _ _ first (.refl _)).symm)
  exact differ (eq_of_insertionSort_eq nodup (coordsKey_of_kindKey kinds) before after unchanged)

theorem added_of_same (entry other : LockEntry) (dropped : Dropped right left entry)
    (dropped' : Dropped right left other) (kinds : entry.kindKey = other.kindKey) :
    entry = other := by
  by_contra differ
  rcases exists_orders dropped.1.1.mem dropped'.1.1.mem (Ne.symm differ) with
    ⟨rest, first, second⟩
  have groups : entry.ga = other.ga := congrArg Prod.fst kinds
  have lists := fun {right'} (perm : right.Perm right') ga =>
    (lists_of_same listed listed' same (.refl left) perm ga).2
  have before : [entry, other] <+ (collected left (entry :: other :: rest)).added := by
    rw [added_collected]
    exact in_order (lists first) (listed'.perm first).nodup retyped_sublist.2 dropped dropped'
      groups (ga_mem_allGas (by simp))
  have after : [other, entry] <+ (collected left (other :: entry :: rest)).added := by
    rw [added_collected]
    exact in_order (lists second) (listed'.perm second).nodup retyped_sublist.2 dropped' dropped
      groups.symm (ga_mem_allGas (by simp))
  have nodup : (collected left (entry :: other :: rest)).added.Nodup := by
    rw [added_collected]
    exact nodup_flatMap_lists (lists first) (nodup_allGas _ _)
  have unchanged := congrArg LockDiff.added
    ((same _ _ (.refl _) second).trans (same _ _ (.refl _) first).symm)
  exact differ (eq_of_insertionSort_eq nodup (coordsKey_of_kindKey kinds) before after unchanged)

end Exact

/-- The order of the entries does not matter exactly if no pass has a choice and of each kind at
most one entry is removed and one is added. -/
theorem diff_of_perm_iff (left right : List LockEntry) (listed : Listed left)
    (listed' : Listed right) : (∀ left' right', left.Perm left' → right.Perm right' →
      diff left' right' = diff left right) ↔ Unambiguous left right := by
  constructor
  · intro same
    have kinds := kinds_of_same listed listed' same
    exact ⟨kinds, versions_of_same listed listed' same kinds,
      removed_of_same listed listed' same, added_of_same listed listed' same⟩
  · intro settled left' right' perm perm'
    exact diff_of_unambiguous listed listed' settled perm perm'

/-- If no side lists a kind twice, then only the versions of what is left can be ambiguous. -/
theorem unambiguous_of_kinds {left right : List LockEntry}
    (distinct : (left.map kindKey).Nodup) (distinct' : (right.map kindKey).Nodup)
    (versions : OneToOne (Lone left right) (Lone right left) versionKey) :
    Unambiguous left right where
  kinds := by
    intro entry other gone gone' _
    exact ⟨fun _ mem => inj_on_of_nodup_map distinct mem.mem gone.mem,
      fun _ mem => inj_on_of_nodup_map distinct' mem.mem gone'.mem⟩
  versions := versions
  removed := fun _ _ dropped dropped' =>
    inj_on_of_nodup_map distinct dropped.1.1.mem dropped'.1.1.mem
  added := fun _ _ dropped dropped' =>
    inj_on_of_nodup_map distinct' dropped.1.1.mem dropped'.1.1.mem

def entryOf (version : String) : LockEntry :=
  ⟨"org.example", "core", version, "compile", none, "jar"⟩

/-- Of two versions, the first is paired with the version on the other side. -/
theorem diff_depends_on_order : diff [entryOf "1.0", entryOf "2.0"] [entryOf "3.0"] ≠
    diff [entryOf "2.0", entryOf "1.0"] [entryOf "3.0"] := by
  decide

def sourcesOf (version : String) : LockEntry :=
  { entryOf version with classifier := some "sources" }

theorem listed_of_decide {entries : List LockEntry}
    (plain : ∀ entry ∈ entries, ':' ∉ entry.groupId.toList ∧ ':' ∉ entry.artifactId.toList ∧
      ':' ∉ entry.type.toList)
    (distinct : (entries.map fun entry => (entry.kindKey, entry.version)).Nodup) :
    Listed entries where
  plain := fun entry mem => ⟨(plain entry mem).1, (plain entry mem).2.1, (plain entry mem).2.2⟩
  distinct := distinct

/-- A jar is upgraded and its sources are removed, whatever the order; two versions are removed in
the order in which they are listed. -/
theorem diff_of_perm_iff_sources :
    (∀ left' right', [entryOf "1.0", sourcesOf "1.0"].Perm left' → [entryOf "2.0"].Perm right' →
      diff left' right' = diff [entryOf "1.0", sourcesOf "1.0"] [entryOf "2.0"]) ∧
    ¬∀ left' right', [entryOf "1.0", entryOf "2.0"].Perm left' → [].Perm right' →
      diff left' right' = diff [entryOf "1.0", entryOf "2.0"] [] := by
  have sources : Listed [entryOf "1.0", sourcesOf "1.0"] :=
    listed_of_decide (by decide) (by decide)
  have upgraded : Listed [entryOf "2.0"] := listed_of_decide (by decide) (by decide)
  have versions : Listed [entryOf "1.0", entryOf "2.0"] :=
    listed_of_decide (by decide) (by decide)
  have nothing : Listed [] := listed_of_decide (by decide) (by decide)
  constructor
  · refine (diff_of_perm_iff _ _ sources upgraded).mpr
      (unambiguous_of_kinds (by decide) (by decide) ?_)
    intro entry other lone lone' _
    have gone : Gone [entryOf "1.0", sourcesOf "1.0"] [entryOf "2.0"] (entryOf "1.0") :=
      ⟨by simp, by decide⟩
    have alone : other = entryOf "2.0" := by simpa using lone'.1.mem
    exact absurd (by rw [alone]; rfl) (lone'.2 _ gone)
  · intro same
    have settled := (diff_of_perm_iff _ _ versions nothing).mp same
    have dropped : ∀ entry ∈ [entryOf "1.0", entryOf "2.0"],
        Dropped [entryOf "1.0", entryOf "2.0"] [] entry := by
      intro entry mem
      simp [Dropped, Lone, Gone, Unmatched, mem]
    have equal := settled.removed (entryOf "1.0") (entryOf "2.0") (dropped _ (by simp))
      (dropped _ (by simp)) rfl
    exact absurd equal (by decide)

end Barista.Lockfile
