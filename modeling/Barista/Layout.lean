import Barista.PrefixCodec

/-!
# Layouts

How values are laid out as bytes, and when the bytes determine the value.
-/

namespace Barista

structure Layout (α : Type) where
  encode : α → Except String Bytes
  skips : α → List Bool

namespace Layout

open PrefixCodec

variable {α β : Type}

def ofCodec (codec : PrefixCodec α) : Layout α where
  encode := codec.encode
  skips _ := []

def pair (first : Layout α) (second : Layout β) : Layout (α × β) where
  encode value := joined (first.encode value.1) (second.encode value.2)
  skips value := first.skips value.1 ++ second.skips value.2

def option (layout : Layout α) : Layout (Option α) where
  encode
    | none => .ok [0]
    | some value => joined (.ok [1]) (layout.encode value)
  skips
    | none => []
    | some value => layout.skips value

def comap (layout : Layout β) (forth : α → β) : Layout α where
  encode value := layout.encode (forth value)
  skips value := layout.skips (forth value)

def encodeEach (layout : Layout α) : List α → Except String Bytes
  | [] => .ok []
  | value :: values => joined (layout.encode value) (encodeEach layout values)

def each (layout : Layout α) : Layout (List α) where
  encode := layout.encodeEach
  skips values := values.flatMap layout.skips

def list (layout : Layout α) : Layout (List α) :=
  ((ofCodec varint).pair layout.each).comap fun values => (values.length, values)

def skipping (layout : Layout α) (isDefault : α → Bool) : Layout α where
  encode value := if isDefault value then .ok [] else layout.encode value
  skips value := if isDefault value then [true] else false :: layout.skips value

abbrev Input := Bytes × List Bool

def Reads (layout : Layout α) (value : α) (input rest : Input) : Prop :=
  ∃ bytes, layout.encode value = .ok bytes ∧ input.1 = bytes ++ rest.1 ∧
    input.2 = layout.skips value ++ rest.2

def Determines (layout : Layout α) (value : α) : Prop :=
  ∀ ⦃other input rest otherRest⦄, layout.Reads value input rest →
    layout.Reads other input otherRest → value = other ∧ rest = otherRest

variable {layout : Layout α} {first : Layout α} {second : Layout β} {input rest : Input}

theorem reads_pair {val : α × β} : (first.pair second).Reads val input rest ↔
      ∃ mid, first.Reads val.1 input mid ∧ second.Reads val.2 mid rest := by
  constructor
  · rintro ⟨bytes, enc, sameBytes, sameSkips⟩
    rcases joined_eq_ok.mp enc with ⟨left, right, leftEncoded, rightEncoded, rfl⟩
    refine ⟨(right ++ rest.1, second.skips val.2 ++ rest.2), ⟨left, leftEncoded, ?_, ?_⟩,
      right, rightEncoded, rfl, rfl⟩
    · simpa using sameBytes
    · simpa [pair] using sameSkips
  · rintro ⟨mid, ⟨left, leftEncoded, leftBytes, leftSkips⟩,
      right, rightEncoded, rightBytes, rightSkips⟩
    refine ⟨left ++ right, joined_eq_ok.mpr ⟨left, right, leftEncoded, rightEncoded, rfl⟩, ?_, ?_⟩
    · simp [leftBytes, rightBytes]
    · simp [pair, leftSkips, rightSkips]

theorem reads_none : layout.option.Reads none input rest ↔ input = (0 :: rest.1, rest.2) := by
  constructor
  · rintro ⟨bytes, enc, sameBytes, sameSkips⟩
    cases enc
    exact Prod.ext sameBytes sameSkips
  · rintro rfl
    exact ⟨[0], rfl, rfl, rfl⟩

variable {val : α} {values : List α}

theorem reads_some : layout.option.Reads (some val) input rest ↔
      ∃ tail, input.1 = 1 :: tail ∧ layout.Reads val (tail, input.2) rest := by
  have encode_some : layout.option.encode (some val) = joined (.ok [1]) (layout.encode val) :=
    rfl
  constructor
  · rintro ⟨bytes, enc, sameBytes, sameSkips⟩
    rw [encode_some, joined_eq_ok] at enc
    rcases enc with ⟨left, right, tag, valueEncoded, rfl⟩
    cases tag
    exact ⟨right ++ rest.1, sameBytes, right, valueEncoded, rfl, sameSkips⟩
  · rintro ⟨tail, tagged, bytes, enc, sameBytes, sameSkips⟩
    refine ⟨1 :: bytes, ?_, ?_, sameSkips⟩
    · rw [encode_some]
      exact joined_eq_ok.mpr ⟨[1], bytes, rfl, enc, rfl⟩
    · dsimp only at sameBytes
      rw [tagged, sameBytes]
      rfl

theorem reads_skipping {isDefault : α → Bool} : (layout.skipping isDefault).Reads val input rest ↔
      isDefault val = true ∧ input = (rest.1, true :: rest.2) ∨
      isDefault val = false ∧ ∃ skips, input.2 = false :: skips ∧
        layout.Reads val (input.1, skips) rest := by
  rcases input with ⟨bytes, skips⟩
  rcases default : isDefault val with _ | _
  · simp only [Reads, skipping, default, Bool.false_eq_true, if_false, false_and, false_or,
      true_and, List.cons_append]
    constructor
    · rintro ⟨written, enc, sameBytes, sameSkips⟩
      exact ⟨_, sameSkips, written, enc, sameBytes, rfl⟩
    · rintro ⟨later, sameSkips, written, enc, sameBytes, rfl⟩
      exact ⟨written, enc, sameBytes, sameSkips⟩
  · simp [Reads, skipping, default, Prod.ext_iff]

theorem determines_ofCodec (codec : PrefixCodec α) (val : α) : (ofCodec codec).Determines val := by
  rintro other input rest otherRest ⟨bytes, enc, sameBytes, sameSkips⟩
    ⟨otherBytes, otherEncoded, otherSameBytes, otherSameSkips⟩
  have decoded := codec.decode_encode val bytes rest.1 enc
  rw [← sameBytes, otherSameBytes,
    codec.decode_encode other otherBytes otherRest.1 otherEncoded] at decoded
  rcases Prod.mk.inj (Except.ok.inj decoded) with ⟨sameValue, sameRest⟩
  exact ⟨sameValue.symm, Prod.ext sameRest.symm (sameSkips.symm.trans otherSameSkips)⟩

theorem Determines.pair {val : α × β} (left : first.Determines val.1)
    (right : second.Determines val.2) : (first.pair second).Determines val := by
  intro other input rest otherRest reads otherReads
  rcases reads_pair.mp reads with ⟨mid, leftReads, rightReads⟩
  rcases reads_pair.mp otherReads with ⟨otherMiddle, otherLeft, otherRight⟩
  rcases left leftReads otherLeft with ⟨sameLeft, rfl⟩
  rcases right rightReads otherRight with ⟨sameRight, sameRest⟩
  exact ⟨Prod.ext sameLeft sameRight, sameRest⟩

theorem determines_none : layout.option.Determines none := by
  intro other input rest otherRest reads otherReads
  rcases reads_none.mp reads with rfl
  rcases other with _ | _
  · have same := reads_none.mp otherReads
    rw [Prod.mk.injEq, List.cons.injEq] at same
    exact ⟨rfl, Prod.ext same.1.2 same.2⟩
  · rcases reads_some.mp otherReads with ⟨tail, tagged, -⟩
    simp at tagged

theorem Determines.some (inner : layout.Determines val) : layout.option.Determines (some val) := by
  intro other input rest otherRest reads otherReads
  rcases reads_some.mp reads with ⟨tail, tagged, valueReads⟩
  rcases other with _ | _
  · rcases reads_none.mp otherReads with rfl
    simp at tagged
  · rcases reads_some.mp otherReads with ⟨otherTail, otherTagged, otherValueReads⟩
    rw [tagged, List.cons.injEq] at otherTagged
    rw [← otherTagged.2] at otherValueReads
    rcases inner valueReads otherValueReads with ⟨rfl, sameRest⟩
    exact ⟨rfl, sameRest⟩

theorem reads_list : layout.list.Reads values input rest ↔
      ∃ mid, (ofCodec varint).Reads values.length input mid ∧ layout.each.Reads values mid rest :=
  reads_pair

theorem reads_each_cons : layout.each.Reads (val :: values) input rest ↔
      ∃ mid, layout.Reads val input mid ∧ layout.each.Reads values mid rest := by
  have paired : layout.each.Reads (val :: values) input rest ↔
      (layout.pair layout.each).Reads (val, values) input rest := by
    simp [Reads, each, pair, encodeEach]
  rw [paired, reads_pair]

theorem Determines.list (elements : ∀ val ∈ values, layout.Determines val) :
    layout.list.Determines values := by
  -- Without the number of its elements, a list could be taken for a longer one.
  have sameLength : ∀ {others : List α} {input rest otherRest : Input},
      values.length = others.length → layout.each.Reads values input rest →
      layout.each.Reads others input otherRest → values = others ∧ rest = otherRest := by
    intro others input rest otherRest lengths reads otherReads
    induction values generalizing others input with
    | nil =>
      rcases List.length_eq_zero_iff.mp lengths.symm with rfl
      rcases reads with ⟨bytes, enc, sameBytes, sameSkips⟩
      rcases otherReads with ⟨otherBytes, otherEncoded, otherSameBytes, otherSameSkips⟩
      cases enc
      cases otherEncoded
      exact ⟨rfl, Prod.ext (sameBytes.symm.trans otherSameBytes)
        (sameSkips.symm.trans otherSameSkips)⟩
    | cons val values ih =>
      rcases others with _ | _
      · cases lengths
      · rcases reads_each_cons.mp reads with ⟨mid, headReads, tailReads⟩
        rcases reads_each_cons.mp otherReads with ⟨otherMiddle, otherHead, otherTail⟩
        rcases elements val (.head _) headReads otherHead with ⟨rfl, rfl⟩
        rcases ih (fun val mem => elements val (.tail _ mem))
          (Nat.succ.inj lengths) tailReads otherTail with ⟨rfl, sameRest⟩
        exact ⟨rfl, sameRest⟩
  intro others input rest otherRest reads otherReads
  rcases reads_list.mp reads with ⟨mid, countReads, eachReads⟩
  rcases reads_list.mp otherReads with ⟨otherMiddle, otherCount, otherEach⟩
  rcases determines_ofCodec varint values.length countReads otherCount with ⟨lengths, rfl⟩
  exact sameLength lengths eachReads otherEach

theorem Determines.skipping {isDefault : α → Bool}
    (unique : ∀ left right, isDefault left → isDefault right → left = right)
    (inner : layout.Determines val) : (layout.skipping isDefault).Determines val := by
  intro other input rest otherRest reads otherReads
  rcases reads_skipping.mp reads with ⟨default, rfl⟩ | ⟨-, skips, recorded, valueReads⟩
  · rcases reads_skipping.mp otherReads with ⟨otherDefault, same⟩ | ⟨-, otherSkips, recorded, -⟩
    · rw [Prod.mk.injEq, List.cons.injEq] at same
      exact ⟨unique val other default otherDefault, Prod.ext same.1 same.2.2⟩
    · simp at recorded
  · rcases reads_skipping.mp otherReads with ⟨-, rfl⟩ | ⟨-, otherSkips, otherRecorded, otherReads⟩
    · simp at recorded
    · rw [recorded, List.cons.injEq] at otherRecorded
      rw [← otherRecorded.2] at otherReads
      exact inner valueReads otherReads

theorem Determines.comap {forth : α → β} (injective : Function.Injective forth)
    (inner : second.Determines (forth val)) : (second.comap forth).Determines val := by
  intro other input rest otherRest reads otherReads
  rcases inner reads otherReads with ⟨same, sameRest⟩
  exact ⟨injective same, sameRest⟩

end Layout

structure Encoding (α : Type) extends Layout α where
  determines : ∀ value, toLayout.Determines value

namespace Encoding

variable {α β : Type}

def ofCodec (codec : PrefixCodec α) : Encoding α where
  toLayout := .ofCodec codec
  determines := Layout.determines_ofCodec codec

def pair (first : Encoding α) (second : Encoding β) : Encoding (α × β) where
  toLayout := first.toLayout.pair second.toLayout
  determines value := .pair (first.determines value.1) (second.determines value.2)

variable (encoding : Encoding α)

def option : Encoding (Option α) where
  toLayout := encoding.toLayout.option
  determines
    | none => Layout.determines_none
    | some value => .some (encoding.determines value)

def list : Encoding (List α) where
  toLayout := encoding.toLayout.list
  determines _ := .list fun value _ => encoding.determines value

def comap (encoding : Encoding β) (forth : α → β) (injective : Function.Injective forth) :
    Encoding α where
  toLayout := encoding.toLayout.comap forth
  determines value := .comap injective (encoding.determines (forth value))

theorem eq_of_encode_eq {val other : α} {bytes : Bytes}
    (enc : encoding.encode val = .ok bytes) (otherEncoded : encoding.encode other = .ok bytes)
    (agree : encoding.skips val <+: encoding.skips other ∨
      encoding.skips other <+: encoding.skips val) : val = other := by
  have shorter : ∀ {left right : α}, encoding.encode left = .ok bytes →
      encoding.encode right = .ok bytes → encoding.skips left <+: encoding.skips right →
      left = right := by
    rintro left right leftEncoded rightEncoded ⟨more, longer⟩
    have leftReads : encoding.Reads left (bytes, encoding.skips right) ([], more) :=
      ⟨bytes, leftEncoded, by simp, longer.symm⟩
    have rightReads : encoding.Reads right (bytes, encoding.skips right) ([], []) :=
      ⟨bytes, rightEncoded, by simp, by simp⟩
    exact (encoding.determines left leftReads rightReads).1
  rcases agree with agree | agree
  · exact shorter enc otherEncoded agree
  · exact (shorter otherEncoded enc agree).symm

class Gapless (encoding : Encoding α) : Prop where
  skips_eq : ∀ value, encoding.skips value = []

instance (codec : PrefixCodec α) : (ofCodec codec).Gapless := ⟨fun _ => rfl⟩

variable {first encoding : Encoding α} {second : Encoding β}

instance [first.Gapless] [second.Gapless] : (first.pair second).Gapless where
  skips_eq value := by
    simp [pair, Layout.pair, Gapless.skips_eq]

instance [encoding.Gapless] : encoding.option.Gapless where
  skips_eq
    | none => rfl
    | some value => Gapless.skips_eq value

instance [encoding.Gapless] : encoding.list.Gapless where
  skips_eq values := by
    simp [list, Layout.list, Layout.comap, Layout.pair, Layout.each, Layout.ofCodec,
      Gapless.skips_eq]

theorem Gapless.comap [second.Gapless] (forth : α → β) (injective : Function.Injective forth) :
    (second.comap forth injective).Gapless where
  skips_eq val := Gapless.skips_eq (forth val)

theorem eq_of_encode_pair_eq [first.Gapless] {val other : α × β} {bytes : Bytes}
    (enc : (first.pair second).encode val = .ok bytes)
    (otherEncoded : (first.pair second).encode other = .ok bytes) :
    val.1 = other.1 ∧
      ∃ rest, second.encode val.2 = .ok rest ∧ second.encode other.2 = .ok rest := by
  rcases PrefixCodec.joined_eq_ok.mp enc with ⟨left, right, leftEncoded, rightEncoded, same⟩
  rcases PrefixCodec.joined_eq_ok.mp otherEncoded with
    ⟨otherLeft, otherRight, otherLeftEncoded, otherRightEncoded, otherSame⟩
  have reads : first.Reads val.1 (bytes, []) (right, []) :=
    ⟨left, leftEncoded, same, by simp [Gapless.skips_eq]⟩
  have otherReads : first.Reads other.1 (bytes, []) (otherRight, []) :=
    ⟨otherLeft, otherLeftEncoded, otherSame, by simp [Gapless.skips_eq]⟩
  rcases first.determines val.1 reads otherReads with ⟨sameValue, sameRest⟩
  rcases Prod.mk.inj sameRest with ⟨rfl, -⟩
  exact ⟨sameValue, right, rightEncoded, otherRightEncoded⟩

end Encoding

end Barista
